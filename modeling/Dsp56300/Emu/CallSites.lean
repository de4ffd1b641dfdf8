import Dsp56300.Emu.OpEngine

/-! The code of the jumps to subroutine, and what a call of it on its own does to the state. -/

namespace Dsp56300

open Emitter Lib.Programs Lib.Paths

variable {σ φ α β : Type}

set_option linter.constructorNameAsVariable false

/-! Code on its own, one part after the other. -/

namespace Point

theorem ext {S : Type} {p q : Point S} (hs : p.state = q.state) (he : p.emission = q.emission) :
    p = q := by
  cases p
  cases q
  exact congrArg₂ Point.mk hs he

variable {p : Point (DspState σ)}

theorem Matches.alone {x : Emit α} [Fitting x] {p : Point (AluState σ)} {u : Point (DspState σ)}
    (h : p.held.Matches u) : (u.alone x).1 = (x.run compiledOps p).1 ∧
      Matches (x.run compiledOps p).2.held (u.alone x).2 := by
  have hruns := (runsAmid_plain x (p := p.held) rfl).1
  rw [run_held] at hruns
  exact h.amid hruns

theorem matches_enter (hs : p.state.Within) :
    (⟨.enter p.state, p.emission⟩ : Point (AluState σ)).held.Matches p := .enter hs p.emission

theorem alone_within (hs : p.state.Within) (x : Emit α) [Fitting x] :
    (p.alone x).2.state.Within := ((matches_enter hs).alone (x := x)).2.within

theorem alone_bind (hs : p.state.Within) (x : Emit α) (f : α → Emit β) [Fitting x]
    [∀ a, Fitting (f a)] : p.alone (x >>= f) = (p.alone x).2.alone (f (p.alone x).1) := by
  have hx := (matches_enter hs).alone (x := x)
  have hf := hx.2.alone (x := f (p.alone x).1)
  have hrun : (x >>= f).run compiledOps ⟨.enter p.state, p.emission⟩ =
      (f (p.alone x).1).run compiledOps (x.run compiledOps ⟨.enter p.state, p.emission⟩).2 := by
    rw [Code.run_bind, hx.1]
  rw [alone, hrun]
  exact Prod.ext hf.1.symm (Point.ext (hf.2.finalize rfl) hf.2.emission)

end Point

/-! Jumps to subroutine. -/

/-- What the jump-to-subroutine emitters differ in: the code before the push, which answers whether
the call is taken and with which address, the code of the target, the return address, and the length where
it is not taken. -/
structure CallSite where
  decodeLen : Nat
  lead : Emit (Bool × Word)
  target : Word → Emit Word := pure
  retAddr : Word
  len : Nat

namespace DspState

/-- JSR and BSR push unless long-interrupt detection has stacked the context already. -/
def emitInterruptAwareStackPush (s : DspState σ) (retAddr budget : Word) : DspState σ :=
  if s.interrupts.state = .long then s.setInterrupts { s.interrupts with state := .fast }
  else s.emitStackPush retAddr (s.registers Reg.sr) budget

end DspState

namespace CallSite

/-- The code before the push, on its own. -/
def operand (c : CallSite) (s : DspState σ) : (Bool × Word) × Point (DspState σ) :=
  Point.alone c.lead ⟨s, { anchor := { decodeLen := c.decodeLen } }⟩

/-- The frame is pushed. -/
def push (c : CallSite) (p : Point (DspState σ)) : Point (DspState σ) :=
  let budget := (FaultBudget.lessDecodeLen 9).value p.emission.anchor
  { p with state := p.state.emitInterruptAwareStackPush c.retAddr budget }

/-- Where a call goes that finds the address `ea`. -/
def goal (c : CallSite) (ea : Word) (p : Point (DspState σ)) : Word :=
  maskPc (p.alone (c.target ea)).1

/-- A jump to subroutine. -/
def call (c : CallSite) (s : DspState σ) : DspState σ :=
  let ((taken, ea), p) := c.operand s
  if taken then
    { (c.push p).state with pc := c.goal ea (c.push p), pcAdvance := 0 }
  else { p.state with pcAdvance := BitVec.ofNat 32 c.len }

/-- The code of the call, once it is known to be taken. -/
def arm (c : CallSite) (ea : Word) : Emit Unit := do
  emitInterruptAwareStackPush c.retAddr
  let target ← c.target ea
  storePc target

end CallSite

/-- The call site of an instruction, where it is a jump to subroutine. -/
def Instruction.callSite (inst : Instruction) (pc nextWord : Word) : Option CallSite :=
  let decodeLen := instructionLength inst
  let always (cycles : Nat) (ea : Word) : Emit (Bool × Word) := do
    setInstLen 0
    setCycles cycles
    return (true, ea)
  let when (cycles : Nat) (cc : CondCode) (ea : Word) : Emit (Bool × Word) := do
    setCycles cycles
    let taken ← evalCcBool cc
    return (taken, ea)
  let call (len : Nat) (lead : Emit (Bool × Word)) : CallSite :=
    { decodeLen, lead, len, retAddr := maskPc (pc + BitVec.ofNat 32 len) }
  let test (cycles : Nat) (ea : Word) (addr : BitTestAddr) (bitNum : Byte) (testSet : Bool) :=
    some (call 2 do
      setCycles cycles
      let taken ← emitBitTestPredicate addr bitNum testSet
      return (taken, ea))
  let jump := test 4 nextWord
  let branch := test 5 (maskPc (pc + nextWord))
  match inst with
  | .jsr addr => some (call 1 (always 3 addr))
  | .jsrEa ea => some (call (retOffset ea) do
      setInstLen 0
      setCycles 3
      let ea ← emitCalcEaExt (ea.setWidth 32) nextWord
      return (true, ea.1))
  | .bsr offset => some (call 1 (always 4 (maskPc (pc + offset))))
  | .bsrLong => some (call 2 (always 5 (maskPc (pc + nextWord))))
  | .bsrRn rn => some { call 1 (always 4 0) with target := fun _ => rnTarget rn pc }
  | .jscc cc addr => some (call 1 (when 4 cc addr))
  | .jsccEa cc ea => some (call (retOffset ea) do
      setCycles 4
      let ea ← emitCalcEaExt (ea.setWidth 32) nextWord
      let taken ← evalCcBool cc
      return (taken, ea.1))
  | .bscc cc offset => some (call 1 (when 4 cc (maskPc (pc + offset))))
  | .bsccLong cc => some (call 2 (when 5 cc (maskPc (pc + nextWord))))
  | .bsccRn cc rn => some { call 1 (when 4 cc 0) with target := fun _ => rnTarget rn pc }
  | .jsclrPp space p b => jump (.pp space p) b false
  | .jsclrQq space q b => jump (.qq space q) b false
  | .jsclrAa space a b => jump (.aa space a) b false
  | .jsclrEa space ea b => jump (.ea space ea) b false
  | .jsclrReg r b => jump (.reg r) b false
  | .jssetPp space p b => jump (.pp space p) b true
  | .jssetQq space q b => jump (.qq space q) b true
  | .jssetAa space a b => jump (.aa space a) b true
  | .jssetEa space ea b => jump (.ea space ea) b true
  | .jssetReg r b => jump (.reg r) b true
  | .bsclrPp space p b => branch (.pp space p) b false
  | .bsclrQq space q b => branch (.qq space q) b false
  | .bsclrAa space a b => branch (.aa space a) b false
  | .bsclrEa space ea b => branch (.ea space ea) b false
  | .bsclrReg r b => branch (.reg r) b false
  | .bssetPp space p b => branch (.pp space p) b true
  | .bssetQq space q b => branch (.qq space q) b true
  | .bssetAa space a b => branch (.aa space a) b true
  | .bssetEa space ea b => branch (.ea space ea) b true
  | .bssetReg r b => branch (.reg r) b true
  | _ => none

theorem callSite_isSome (inst : Instruction) (pc nextWord : Word) :
    (inst.callSite pc nextWord).isSome = isSubroutineCall inst := by
  cases inst <;> rfl

/-! What the code of a call does. -/

section Code

variable {p : Point (DspState σ)} {c : CallSite}

theorem within_awarePush {s : DspState σ} (hs : s.Within) (retAddr budget : Word) :
    (s.emitInterruptAwareStackPush retAddr budget).Within := by
  unfold DspState.emitInterruptAwareStackPush
  split
  · exact hs.same ⟨rfl, rfl, rfl, rfl, id⟩
  · exact (aside_emitStackPush budget retAddr (s.registers Reg.sr)).within s hs

theorem alone_awarePush (hs : p.state.Within) (retAddr : Word) :
    p.alone (emitInterruptAwareStackPush retAddr) = ((), { p with
      state := p.state.emitInterruptAwareStackPush retAddr
        ((FaultBudget.lessDecodeLen 9).value p.emission.anchor) }) := by
  unfold emitInterruptAwareStackPush
  rw [Point.alone_bind hs]
  change p.alone (if p.state.interrupts.state = .long then _ else _) = _
  unfold DspState.emitInterruptAwareStackPush
  split
  · rfl
  · rw [Point.alone_bind hs]
    rfl

/-- Loading a register leaves the state alone. -/
theorem alone_loadReg (p : Point (DspState σ)) (idx : Nat) : (p.alone (loadReg idx)).2 = p := by
  change Point.mk ((Alu.loadReg (regAt idx)).run (AluState.enter p.state)).2.finalize p.emission = p
  unfold Alu.loadReg
  split
  · rfl
  · rfl

/-- The target is known, or loaded. -/
structure CallSite.Direct (c : CallSite) : Prop where
  fitting : ∀ ea, Fitting (c.target ea)
  alone : ∀ {σ : Type} ea (p : Point (DspState σ)), (p.alone (c.target ea)).2 = p

theorem direct_pure (decodeLen : Nat) (lead : Emit (Bool × Word)) (retAddr : Word) (len : Nat) :
    CallSite.Direct { decodeLen, lead, retAddr, len } :=
  ⟨fun ea => inferInstanceAs (Fitting (pure ea : Emit Word)), fun _ _ => rfl⟩

theorem direct_rn (decodeLen : Nat) (lead : Emit (Bool × Word)) (retAddr : Word) (len : Nat)
    (rn : Byte) (pc : Word) :
    CallSite.Direct { decodeLen, lead, retAddr, len, target := fun _ => rnTarget rn pc } :=
  ⟨fun _ => inferInstanceAs (Fitting (rnTarget rn pc)), fun _ p => alone_loadReg p _⟩

theorem fitting_arm (hc : c.Direct) (ea : Word) : Fitting (c.arm ea) := by
  have hfitting (ea : Word) : Fitting (c.target ea) := hc.fitting ea
  unfold CallSite.arm
  infer_instance

theorem alone_arm (hc : c.Direct) (hs : p.state.Within) (ea : Word) :
    (p.alone (c.arm ea)).2 = { c.push p with
      state := { (c.push p).state with pc := c.goal ea (c.push p) } } := by
  have hfitting (ea : Word) : Fitting (c.target ea) := hc.fitting ea
  have hpushed : (c.push p).state.Within := within_awarePush hs _ _
  rw [CallSite.arm, Point.alone_bind hs, alone_awarePush hs]
  change ((c.push p).alone _).2 = _
  rw [Point.alone_bind hpushed, hc.alone]
  rfl

/-- The code of the call, with the emitter set up for its instruction, does to the state what the
call site says. -/
structure CallSite.Codes (c : CallSite) (x : Emit Unit) : Prop where
  does : ∀ {σ : Type} {s : DspState σ}, s.Within →
    let p := (Point.alone x ⟨s, { anchor := { decodeLen := c.decodeLen } }⟩).2
    p.state.leave .finalize p.emission.instLen = c.call s

theorem codes_taken [Fitting c.lead] (hc : c.Direct) :
    c.Codes (do let r ← c.lead; emitTaken r.1 c.len (c.arm r.2)) := by
  refine ⟨@fun σ s hs => ?_⟩
  have harm := fitting_arm hc
  have htail (r : Bool × Word) : Fitting (emitTaken r.1 c.len (c.arm r.2)) := by
    unfold emitTaken
    infer_instance
  let p : Point (DspState σ) := ⟨s, { anchor := { decodeLen := c.decodeLen } }⟩
  have hled : (p.alone c.lead).2.state.Within := Point.alone_within hs c.lead
  change ((p.alone _).2.state.leave .finalize (p.alone _).2.emission.instLen) = _
  rw [Point.alone_bind (p := p) hs]
  unfold emitTaken CallSite.call
  change _ = if (p.alone c.lead).1.1 then _ else _
  split
  · rw [Point.alone_bind hled, alone_arm hc hled]
    rfl
  · rfl

theorem codes_always [Fitting c.lead] (hc : c.Direct)
    (hlead : ∀ {σ : Type} {s : DspState σ}, (c.operand s).1.1 = true ∧
      (c.operand s).2.emission.instLen = 0) :
    c.Codes (do let r ← c.lead; c.arm r.2) := by
  refine ⟨@fun σ s hs => ?_⟩
  have harm := fitting_arm hc
  let p : Point (DspState σ) := ⟨s, { anchor := { decodeLen := c.decodeLen } }⟩
  have hled : (p.alone c.lead).2.state.Within := Point.alone_within hs c.lead
  obtain ⟨htaken, hlen⟩ := hlead (s := s)
  have htaken : (p.alone c.lead).1.1 = true := htaken
  have hlen : (p.alone c.lead).2.emission.instLen = 0 := hlen
  change ((p.alone _).2.state.leave .finalize (p.alone _).2.emission.instLen) = _
  rw [Point.alone_bind (p := p) hs, alone_arm hc hled]
  unfold CallSite.call
  change _ = if (p.alone c.lead).1.1 then _ else _
  rw [if_pos htaken]
  change DspState.leave .finalize (p.alone c.lead).2.emission.instLen _ = _
  rw [hlen]
  rfl

variable (decodeLen cycles len : Nat) (ea retAddr : Word)

/-- A bit test and the call behind it. -/
theorem codes_test (addr : BitTestAddr) (bitNum : Byte) (testSet : Bool) :
    CallSite.Codes {
      decodeLen, retAddr, len
      lead := do
        setCycles cycles
        let taken ← emitBitTestPredicate addr bitNum testSet
        return (taken, ea) } (do
      setCycles cycles
      let cond ← emitBitTestPredicate addr bitNum testSet
      emitTaken cond len (do
        emitInterruptAwareStackPush retAddr
        storePc ea)) := by
  have h := codes_taken (direct_pure decodeLen (do
    setCycles cycles
    let taken ← emitBitTestPredicate addr bitNum testSet
    return (taken, ea)) retAddr len)
  simp only [Code.bind_bind, Code.ret_bind] at h
  exact h

/-- A condition and the call of a known target behind it. -/
theorem codes_when (cc : CondCode) :
    CallSite.Codes {
      decodeLen, retAddr, len
      lead := do
        setCycles cycles
        let taken ← evalCcBool cc
        return (taken, ea) } (do
      setCycles cycles
      let taken ← evalCcBool cc
      emitTaken taken len (do
        emitInterruptAwareStackPush retAddr
        storePc ea)) :=
  codes_taken (direct_pure decodeLen _ retAddr len)

/-- A call of a known target. -/
theorem codes_named :
    CallSite.Codes {
      decodeLen, retAddr, len
      lead := do
        setInstLen 0
        setCycles cycles
        return (true, ea) } (do
      setInstLen 0
      setCycles cycles
      emitInterruptAwareStackPush retAddr
      storePc ea) :=
  codes_always (direct_pure decodeLen _ retAddr len) ⟨rfl, rfl⟩

/-- Code that sets no length leaves the recorded one alone. -/
theorem quiet_instLen (x : Emit α) [hx : Quiet x] (p : Point (AluState σ)) :
    (x.run compiledOps p).2.emission.instLen = p.emission.instLen := by
  have hquiet := hx.keeps (fun _ r => r.instLen = p.emission.instLen) ⟨p.emission.instLen, false⟩
    fun _ => rfl
  obtain ⟨r, hr, hlen⟩ := Code.Always.run_all (h := compiledOps)
    (R := fun (p : Point (AluState σ)) (r : Recorded) => p.emission.instLen = r.instLen)
    (fun γ op p r _ h => by cases op <;> first | exact h | rfl)
    (Code.all_of_forall (P := fun _ _ => True) (fun _ _ => trivial) x) hquiet rfl
  exact hlen.trans hr

/-- A call through an EA. -/
theorem codes_ea (eaMode nextWord : Word) :
    CallSite.Codes {
      decodeLen, retAddr, len
      lead := do
        setInstLen 0
        setCycles cycles
        let ea ← emitCalcEaExt eaMode nextWord
        return (true, ea.1) } (do
      setInstLen 0
      setCycles cycles
      let ea ← emitCalcEaExt eaMode nextWord
      emitInterruptAwareStackPush retAddr
      storePc ea.1) := by
  let c : CallSite := { decodeLen, retAddr, len, lead := (do
    setInstLen 0
    setCycles cycles
    let ea ← emitCalcEaExt eaMode nextWord
    return (true, ea.1)) }
  have hlead {σ : Type} {s : DspState σ} : (c.operand s).1.1 = true ∧
      (c.operand s).2.emission.instLen = 0 := by
    let p : Point (AluState σ) :=
      ⟨.enter s, { anchor := { decodeLen }, instLen := 0, cycles := 0 + cycles }⟩
    have hrun : c.lead.run compiledOps ⟨.enter s, { anchor := { decodeLen } }⟩ =
        Code.run compiledOps (do
          let ea ← emitCalcEaExt eaMode nextWord
          return (true, ea.1)) p := rfl
    unfold CallSite.operand Point.alone
    dsimp only
    rw [hrun, Code.run_bind]
    exact ⟨rfl, quiet_instLen (emitCalcEaExt eaMode nextWord) p⟩
  have h := codes_always (c := c) (direct_pure ..) hlead
  simp only [c, Code.bind_bind, Code.ret_bind] at h
  exact h

/-- A call through an EA behind a condition. -/
theorem codes_eaWhen (eaMode nextWord : Word) (cc : CondCode) :
    CallSite.Codes {
      decodeLen, retAddr, len
      lead := do
        setCycles cycles
        let ea ← emitCalcEaExt eaMode nextWord
        let taken ← evalCcBool cc
        return (taken, ea.1) } (do
      setCycles cycles
      let ea ← emitCalcEaExt eaMode nextWord
      let taken ← evalCcBool cc
      emitTaken taken len (do
        emitInterruptAwareStackPush retAddr
        storePc ea.1)) := by
  have h := codes_taken (direct_pure decodeLen (do
    setCycles cycles
    let ea ← emitCalcEaExt eaMode nextWord
    let taken ← evalCcBool cc
    return (taken, ea.1)) retAddr len)
  simp only [Code.bind_bind, Code.ret_bind] at h
  exact h

variable {inst : Instruction} {pc nextWord : Word}

theorem callSite_codes (h : inst.callSite pc nextWord = some c) :
    instructionLength inst = c.decodeLen ∧ c.Codes (emitInstructionBody inst pc nextWord) := by
  unfold Instruction.callSite at h
  dsimp only at h
  split at h
  all_goals cases h
  · exact ⟨rfl, codes_named ..⟩
  · exact ⟨rfl, codes_ea ..⟩
  · exact ⟨rfl, codes_named ..⟩
  · exact ⟨rfl, codes_named ..⟩
  · exact ⟨rfl, codes_always (direct_rn _ _ _ _ _ _) ⟨rfl, rfl⟩⟩
  · exact ⟨rfl, codes_when ..⟩
  · exact ⟨rfl, codes_eaWhen ..⟩
  · exact ⟨rfl, codes_when ..⟩
  · exact ⟨rfl, codes_when ..⟩
  · exact ⟨rfl, codes_taken (direct_rn _ _ _ _ _ _)⟩
  all_goals exact ⟨rfl, codes_test ..⟩

/-- A jump to subroutine, compiled alone. -/
theorem Instruction.call_code (h : inst.callSite pc nextWord = some c) {s : DspState σ}
    (hs : s.Within) :
    let p := (Point.alone (emitInstruction inst pc nextWord) ⟨s, {}⟩).2
    p.state.leave .finalize p.emission.instLen = c.call s := by
  obtain ⟨hlen, hcodes⟩ := callSite_codes h
  have hdoes := hcodes.does hs
  rw [← hlen] at hdoes
  have hbody : Point.alone (emitInstruction inst pc nextWord) ⟨s, {}⟩ =
      Point.alone (emitInstructionBody inst pc nextWord)
        ⟨s, { anchor := { decodeLen := instructionLength inst } }⟩ :=
    Point.alone_bind (p := ⟨s, {}⟩) hs (Code.call (.setDecodeLen (instructionLength inst)))
      fun _ => emitInstructionBody inst pc nextWord
  dsimp only
  rw [hbody]
  exact hdoes

end Code

namespace DspState

/-- A jump to subroutine, to which the run loop's budget is unknown. -/
def emitCall (c : CallSite) (s : DspState σ) : DspState σ :=
  (c.call (s.withBudget 0)).withBudget s.cycleBudget

end DspState

/-- Compiled code of a jump to subroutine does what its call site says. -/
theorem Translator.Runs.calls {e : Translator σ φ} {f : φ} {opcode pc nextWord : Word}
    (hf : e.Runs f (instructionCode opcode pc nextWord)) {c : CallSite}
    (hc : (decode opcode).callSite pc nextWord = some c) {s : DspState σ} (hs : s.Within) :
    (e.call f s).1 = s.emitCall c := by
  obtain ⟨left, u, hu, hcall, -⟩ := hf.stretched hs
  have hbudget : (s.withBudget 0).Within := hs.same ⟨rfl, rfl, rfl, rfl, id⟩
  have hcode := Instruction.call_code hc hbudget
  rw [hcall, DspState.emitCall, ← hcode]
  cases hu with
  | left h => cases h
  | seq hact hexit =>
    cases hact with
    | act hdoes =>
      cases hexit with
      | exit hleft =>
        have hpoint : (Point.alone (emitInstruction (decode opcode) pc nextWord)
            ⟨s.withBudget 0, {}⟩).2 = _ := congrArg Prod.snd hdoes.1
        rw [hpoint, hleft]

end Dsp56300
