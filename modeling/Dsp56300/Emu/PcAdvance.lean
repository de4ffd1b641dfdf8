import Dsp56300.Emu.BlockCode
import Dsp56300.Emu.PWriteOrder

/-! What the paths through a block leave in `pc_advance`. -/

namespace Dsp56300

open Instruction Emitter Lib.Paths Lib.Programs Lib.Programs.Code

/-- What a path executes: an instruction through its own emitter, which may store PC, an inlined
REP, a forward skip, or a REP that falls back to the legacy loop. -/
inductive Executed where
  | plain (branched : Bool)
  | rep
  | skip (taken : Bool)
  | repLegacy
  deriving DecidableEq

/-- Whether the instruction sets PC as a branch when it is executed on its own. -/
def Executed.branches : Executed → Bool
  | .plain branched => branched
  | .skip taken => taken
  | .rep | .repLegacy => false

/-- A path so far: the length variable, `pc_advance`, and what was executed, the latest first. -/
structure Trail where
  instLen : Nat := 0
  pcAdvance : Nat := 0
  trace : List Executed := []

namespace Trail

/-- Some run of `x` answers `a`; the run leaves its length, and `es` are executed by it. -/
def Emits {α : Type} (t : Trail) (x : Emit α) (a : α) (es : Bool → List Executed) (u : Trail) :
    Prop :=
  ∃ r, Reaches record x ⟨t.instLen, false⟩ a r ∧
    u = { t with instLen := r.instLen, trace := es r.branched ++ t.trace }

/-- Every way out spills the length variable into `pc_advance`. -/
def flushAllToMemory (t : Trail) : Trail := { t with pcAdvance := t.instLen }

/-- Whether the last instruction executed set PC as a branch. -/
def Branched (t : Trail) : Prop := ∃ e ∈ t.trace.head?, e.branches = true

/-- `pc_advance` is zero exactly when PC was set as by a branch. -/
def TellsBranch (t : Trail) : Prop := t.pcAdvance = 0 ↔ t.Branched

end Trail

def BlockAct.effect (a : BlockAct) (t u : Trail) : Prop :=
  match a with
  | .instruction opcode pc nextWord =>
    t.Emits (emitInstruction (decode opcode) pc nextWord) () (fun b => [.plain b]) u
  | .skip branch taken => t.Emits (emitSkipPredicate branch.inst) taken (fun _ => [.skip taken]) u
  | .repSetup repInst annul =>
    ∃ lc, (lc = 0 ↔ annul) ∧ t.Emits (emitRepInlineSetup repInst) lc (fun _ => [.rep]) u
  | .repIteration opcode pc nextWord =>
    t.Emits (emitRepIteration (decode opcode) pc nextWord) () (fun b => [.plain b]) u
  | .repRestore => t.Emits emitRepRestore () (fun _ => []) u
  | .repLegacy opcode pc nextWord =>
    t.Emits (do emitInstruction (decode opcode) pc nextWord; emitRepFirstCallArm pc) ()
      (fun _ => [.repLegacy]) u
  | .doSetup doInst doPc la annul =>
    ∃ lc, (lc = 0 ↔ annul) ∧ t.Emits (emitDoInlineSetup doInst doPc la) lc (fun b => [.plain b]) u
  | .doAnnul la => t.Emits (emitDoInlineAnnul la) () (fun b => [.plain b]) u
  | .lcDecrement => t.Emits emitLcDecrement () (fun _ => []) u
  | .enddoCleanup => t.Emits emitEnddoCleanup () (fun _ => []) u
  | .storePcAdvance endedWithTerminator _ =>
    u = { t with pcAdvance := if endedWithTerminator then t.instLen else 1 }

def blockEffects : Effects BlockAct BlockExit Trail where
  act := BlockAct.effect
  exit _ t u := u = t.flushAllToMemory

/-- Behind the REPs at the end of a path, an instruction was executed that recorded its length and
did not branch. -/
def sequentialBehind : List Executed → Bool
  | .plain branched :: _ => !branched
  | .rep :: es => sequentialBehind es
  | .skip _ :: _ => true
  | .repLegacy :: _ | [] => false

/-- The last instruction executed has its outcome recorded: it is one with its own emitter, a skip
that is not taken, or an inlined REP behind an instruction that did not branch. -/
def endsRecorded : List Executed → Bool
  | .plain _ :: _ => true
  | .rep :: es => sequentialBehind es
  | .skip taken :: _ => !taken
  | .repLegacy :: _ | [] => false

/-! The length variable along a path. -/

/-- What the length variable knows of the path behind it. -/
structure Trail.Records (t : Trail) : Prop where
  zero : t.instLen = 0 ↔ sequentialBehind t.trace = false
  small : t.instLen ≤ 2

section Emitters

set_option linter.constructorNameAsVariable false

variable {α β : Type} {x : Emit α} {f : α → Emit β} {len : Nat}

/-- Code that ends with the length `len` and stores no PC. -/
class Sets (len : Nat) (x : Emit α) : Prop where
  keeps : ∀ n, Always record (fun _ r => r = ⟨len, false⟩) x ⟨n, false⟩

instance {f : Unit → Emit β} [hf : Quiet (f ())] : Sets len (setInstLen len >>= f) where
  keeps n := by
    rw [always_bind]
    intro _
    exact hf.keeps _ _ fun _ => rfl

instance [hx : Quiet x] [hf : ∀ a, Sets len (f a)] : Sets len (x >>= f) where
  keeps n := by
    rw [always_bind]
    apply hx.keeps
    intro a
    exact (hf a).keeps n

instance [hx : Records len x] [hf : ∀ a, Quiet (f a)] : Records len (x >>= f) where
  keeps n := by
    rw [always_bind]
    apply (hx.keeps n).mono
    intro a r hr
    exact (hf a).keeps _ _ fun _ => hr

instance (inst : Instruction) : Quiet (emitRepLcValue inst) := by
  unfold emitRepLcValue
  split <;> infer_instance

instance (inst : Instruction) : Quiet (emitDoLcValue inst) := by
  unfold emitDoLcValue
  split <;> infer_instance

instance (inst : Instruction) : Quiet (emitRepInlineSetup inst) := by
  unfold emitRepInlineSetup
  infer_instance

instance : Quiet emitRepRestore := by
  unfold emitRepRestore
  infer_instance

instance : Quiet emitLcDecrement := by
  unfold emitLcDecrement
  infer_instance

theorem emitDoInlineSetup_sets (inst : Instruction) (doPc la : Nat) :
    Sets 2 (emitDoInlineSetup inst doPc la) := by
  unfold emitDoInlineSetup
  infer_instance

instance (addr : BitTestAddr) (b : Byte) (w : Bool) (n : Nat) : Sets 2 (skipBit addr b w n) := by
  unfold skipBit
  infer_instance

theorem emitRepIteration_records (opcode pc nextWord : Word) :
    Records (instructionLength (decode opcode)) (emitRepIteration (decode opcode) pc nextWord) := by
  have hi := emitInstruction_records opcode pc nextWord
  unfold emitRepIteration
  infer_instance

/-- A skip sets a length, whichever way it goes. -/
theorem SkipBranch.sets (branch : SkipBranch) :
    ∃ len, 0 < len ∧ len ≤ 2 ∧ Sets len (emitSkipPredicate branch.inst) := by
  obtain ⟨inst, pc, nextWord, target, h⟩ := branch
  cases inst with
  | bcc cc addr =>
    refine ⟨1, by decide, by decide, ?_⟩
    unfold emitSkipPredicate
    infer_instance
  | bccLong | brclrEa | brclrAa | brclrPp | brclrQq | brclrReg | brsetEa | brsetAa | brsetPp
  | brsetQq | brsetReg | jclrEa | jclrAa | jclrPp | jclrQq | jclrReg | jsetEa | jsetAa | jsetPp
  | jsetQq | jsetReg =>
    refine ⟨2, by decide, by decide, ?_⟩
    unfold emitSkipPredicate
    infer_instance
  | _ => contradiction

/-- The annulled arm of an inlined DO ends as a branch. -/
theorem emitDoInlineAnnul_branches (la n : Nat) :
    Always record (fun _ r => r = ⟨0, true⟩) (emitDoInlineAnnul la) ⟨n, false⟩ := by
  have hq : Quiet emitEnddoCleanup := inferInstance
  unfold emitDoInlineAnnul
  rw [always_bind]
  apply hq.keeps
  intro _
  rw [always_bind]
  intro _ _
  rfl

/-- So does the arm behind a legacy REP. -/
theorem repLegacy_zero (inst : Instruction) (pc nextWord : Word) (r : Recorded) :
    Always record (fun _ r => r.instLen = 0)
      (do emitInstruction inst pc nextWord; emitRepFirstCallArm pc) r := by
  rw [always_bind]
  apply always_of_forall
  intro _ r
  unfold emitRepFirstCallArm
  rw [always_bind]
  apply always_of_forall
  intro lc r
  rw [always_bind]
  apply always_of_forall
  intro _ r _
  rfl

end Emitters

namespace Trail

variable {α : Type} {x : Emit α} {a : α} {es : Bool → List Executed} {t u : Trail} {len : Nat}

theorem Emits.quiet [hx : Quiet x] (h : t.Emits x a es u) :
    u = { t with trace := es false ++ t.trace } := by
  obtain ⟨r, hr, rfl⟩ := h
  have hk := hx.keeps (fun _ r => r = ⟨t.instLen, false⟩) _ fun _ => rfl
  rw [hk.reaches hr]

theorem Emits.sets (hx : Sets len x) (h : t.Emits x a es u) :
    u = { t with instLen := len, trace := es false ++ t.trace } := by
  obtain ⟨r, hr, rfl⟩ := h
  rw [(hx.keeps _).reaches hr]

theorem Emits.records (hx : Emitter.Records len x) (h : t.Emits x a es u) :
    ∃ b, u = { t with instLen := if b then 0 else len, trace := es b ++ t.trace } := by
  obtain ⟨r, hr, rfl⟩ := h
  exact ⟨r.branched, by rw [(hx.keeps _).reaches hr]⟩

theorem Records.plain {t : Trail} (b : Bool) (hpos : 0 < len) (hlen : len ≤ 2) :
    Records { t with instLen := if b then 0 else len, trace := .plain b :: t.trace } := by
  cases b with
  | false => exact ⟨by simp [sequentialBehind]; omega, hlen⟩
  | true => exact ⟨by simp [sequentialBehind], Nat.zero_le 2⟩

end Trail

/-- Every stretch of a block keeps what the length variable knows. -/
theorem BlockAct.effect_records {act : BlockAct} {t u : Trail} (ht : t.Records)
    (h : act.effect t u) : u.Records := by
  unfold BlockAct.effect at h
  cases act with
  | instruction opcode pc nextWord =>
    obtain ⟨b, rfl⟩ := Trail.Emits.records (emitInstruction_records opcode pc nextWord) h
    exact .plain b (instructionLength_pos _) (instructionLength_le_two _)
  | skip branch taken =>
    obtain ⟨len, hpos, hlen, hs⟩ := branch.sets
    obtain rfl := Trail.Emits.sets hs h
    exact ⟨by simp [sequentialBehind]; omega, hlen⟩
  | repSetup repInst annul =>
    obtain ⟨lc, -, h⟩ := h
    obtain rfl := h.quiet
    exact ⟨ht.zero, ht.small⟩
  | repIteration opcode pc nextWord =>
    obtain ⟨b, rfl⟩ := Trail.Emits.records (emitRepIteration_records opcode pc nextWord) h
    exact .plain b (instructionLength_pos _) (instructionLength_le_two _)
  | repRestore =>
    obtain rfl := Trail.Emits.quiet h
    exact ht
  | repLegacy opcode pc nextWord =>
    obtain ⟨r, hr, rfl⟩ := h
    have hz := (repLegacy_zero _ _ _ _).reaches hr
    exact ⟨by simp [hz, sequentialBehind], by simp [hz]⟩
  | doSetup doInst doPc la annul =>
    obtain ⟨lc, -, h⟩ := h
    obtain rfl := h.sets (emitDoInlineSetup_sets doInst doPc la)
    exact .plain false (by decide) (by decide)
  | doAnnul la =>
    obtain ⟨r, hr, rfl⟩ := h
    obtain rfl := (emitDoInlineAnnul_branches _ _).reaches hr
    exact ⟨by simp [sequentialBehind], Nat.zero_le 2⟩
  | lcDecrement =>
    obtain rfl := Trail.Emits.quiet h
    exact ht
  | enddoCleanup =>
    obtain rfl := Trail.Emits.quiet h
    exact ht
  | storePcAdvance endedWithTerminator pc =>
    obtain rfl := h
    exact ⟨ht.zero, ht.small⟩

/-- A path that leaves a block leaves in `pc_advance` what the length variable knows. -/
theorem block_records (code : BlockCode) :
    Triple blockEffects Trail.Records code Trail.Records
      fun t => t.Records ∧ t.pcAdvance = t.instLen := by
  apply Triple.of_invariant
  · intro act t u ht h
    exact act.effect_records ht h
  · rintro e t u ht rfl
    exact ⟨⟨ht.zero, ht.small⟩, rfl⟩

theorem Trail.Records.tells_iff {t : Trail} (ht : t.Records) (ha : t.pcAdvance = t.instLen) :
    t.TellsBranch ↔ endsRecorded t.trace = true := by
  have hz := ht.zero
  unfold TellsBranch Branched
  rw [ha, hz]
  cases t.trace with
  | nil => simp [sequentialBehind, endsRecorded]
  | cons e es => cases e <;> simp [sequentialBehind, endsRecorded, Executed.branches]

/-! The code of a block is defined. -/

namespace Pram

variable {p : Pram} {la pc maxLen stopPc fuel : Nat} {s : BlockState}

theorem InlineBody.code_defined (h : InlineBody p la pc) (fuel : Nat) (hf : la + 1 < pc + fuel)
    (b : Builder) : ∃ code, p.bodyCode fuel pc la b = some code := by
  induction h generalizing fuel b with
  | done =>
    obtain ⟨fuel, rfl⟩ : ∃ k, fuel = k + 1 := ⟨fuel - 1, by omega⟩
    exact ⟨b.code, by simp [bodyCode]⟩
  | @skip la pc target hpc ht hr ih =>
    obtain ⟨fuel, rfl⟩ : ∃ k, fuel = k + 1 := ⟨fuel - 1, by omega⟩
    have hl := instructionLength_pos (p.instAt pc)
    rw [bodyCode, if_pos hpc]
    dsimp only
    split
    · exact ih fuel (by omega) _
    · simp_all
  | @nest la pc hpc ht hd hstart hinner hi hr ihi ihr =>
    obtain ⟨fuel, rfl⟩ : ∃ k, fuel = k + 1 := ⟨fuel - 1, by omega⟩
    obtain ⟨inner, hin⟩ := ihi fuel (by omega) {}
    rw [bodyCode, if_pos hpc]
    dsimp only
    split
    · simp_all
    · rw [if_pos hd, hin]
      exact ihr fuel (by omega) _
  | @rep la pc hpc ht hd hrep hw hend hr ih =>
    obtain ⟨fuel, rfl⟩ : ∃ k, fuel = k + 1 := ⟨fuel - 1, by omega⟩
    have hl := p.lt_afterRep pc
    rw [bodyCode, if_pos hpc]
    dsimp only
    split
    · simp_all
    · rw [if_neg (by simp [hd]), if_pos hrep]
      exact ih fuel (by omega) _
  | @plain la pc hpc ht hd hrep hw hr ih =>
    obtain ⟨fuel, rfl⟩ : ∃ k, fuel = k + 1 := ⟨fuel - 1, by omega⟩
    have hl := instructionLength_pos (p.instAt pc)
    rw [bodyCode, if_pos hpc]
    dsimp only
    split
    · simp_all
    · rw [if_neg (by simp [hd]), if_neg (by simp [hrep])]
      exact ih fuel (by omega) _

theorem inlineable_code_defined {bodyStart outerStopPc : Nat}
    (h : p.isDoBodyInlineable bodyStart la outerStopPc = some true) :
    ∃ code, p.bodyCode (walkFuel bodyStart la) bodyStart la {} = some code := by
  obtain ⟨hle, hb⟩ := InlineBody.of_inlineable h
  exact hb.code_defined _ (lt_walkFuel hle) {}

theorem doCode_defined (p : Pram) (stopPc pc : Nat) : ∃ code, p.doCode stopPc pc = some code := by
  have hla := computeDoLa_lt (p.instAt pc) pc (p.nextWord pc)
  unfold doCode
  by_cases hf : (p.instAt pc).isDoForever = true
  · exact ⟨_, by simp [if_pos hf]; rfl⟩
  · obtain ⟨b, hb⟩ := isDoBodyInlineable_defined p (pc + 2) stopPc hla
    cases b with
    | false => exact ⟨_, by simp [hb]; rfl⟩
    | true =>
      obtain ⟨code, hc⟩ := inlineable_code_defined hb
      exact ⟨_, by simp [if_neg hf, hb, hc]; rfl⟩

theorem codeNext_defined (p : Pram) (maxLen stopPc : Nat) (s : BlockState) (b : Builder) :
    ∃ b', p.codeNext maxLen stopPc s b = some b' := by
  unfold codeNext
  dsimp only
  split
  · exact ⟨_, rfl⟩
  · split
    · exact ⟨_, rfl⟩
    · split
      · obtain ⟨code, hc⟩ := p.doCode_defined stopPc s.pc
        exact ⟨b.emit code, by rw [hc]; rfl⟩
      · exact ⟨_, rfl⟩

theorem codeNext_rep (hr : (p.instAt s.pc).isRepInstruction = true) (b : Builder) :
    p.codeNext maxLen stopPc s b = some (b.emit (p.repCode s.pc)) := by
  unfold codeNext
  dsimp only
  split
  · rename_i target ha
    rw [acceptedSkip, Option.filter_eq_some_iff] at ha
    rw [(not_loop_of_skip ha.1).2] at hr
    cases hr
  · rw [if_pos hr]

theorem codeLoop_defined (hf : p.spaceEnd < s.pc + fuel) (hpos : 0 < fuel) (b : Builder) :
    ∃ code, p.codeLoop maxLen stopPc fuel s b = some code := by
  induction fuel generalizing s b with
  | zero => omega
  | succ fuel ih =>
    simp only [codeLoop]
    cases hx : p.exhausted maxLen s with
    | true => exact ⟨_, by rw [exhausted_closeSkips, hx, if_pos rfl]⟩
    | false =>
      have hx' : p.exhausted maxLen s.closeSkips = false := hx
      have hlt : s.pc < p.spaceEnd := by
        simp only [exhausted, Bool.or_eq_false_iff, decide_eq_false_iff_not] at hx
        omega
      obtain ⟨it, es, hi, he⟩ := emitNext_emits stopPc hx'
      obtain ⟨b', hb⟩ := p.codeNext_defined maxLen stopPc s.closeSkips (b.mergeAt s.pc)
      simp only [hx', Bool.false_eq_true, ↓reduceIte, hb, hi, Option.bind_eq_bind, Option.bind_some]
      cases it with
      | done t ended => exact ⟨_, rfl⟩
      | next t =>
        have ha := he.advances
        simp only [Iteration.state, BlockState.closeSkips_pc] at ha
        exact ih (by omega) (by omega) b'

theorem blockCode_defined (p : Pram) (startPc maxLen stopPc : Nat) :
    ∃ code, p.blockCode startPc maxLen stopPc = some code :=
  codeLoop_defined (by simp only [blockStart]; omega) (Nat.succ_pos _) _

end Pram

namespace DspState

variable {σ : Type}

abbrev withAdvance (s : DspState σ) (n : Word) : DspState σ := { s with pcAdvance := n }

theorem stackPop_withAdvance (s : DspState σ) (n : Word) :
    (s.withAdvance n).stackPop = (s.stackPop.1, s.stackPop.2.withAdvance n) := by
  simp only [stackPop]
  split_ifs <;> rfl

/-- Pop (PC, SR) for the loop flags of SR. -/
def unstackSr (s : DspState σ) : DspState σ :=
  s.stackPop.2.setReg Reg.sr
    ((s.stackPop.2.registers Reg.sr &&& ~~~((1#32 <<< Sr.lf) ||| (1#32 <<< Sr.fv))) |||
      (s.stackPop.1.2 &&& ((1#32 <<< Sr.lf) ||| (1#32 <<< Sr.fv))))

/-- Pop (LA, LC) of the enclosing loop. -/
def unstackLoop (s : DspState σ) : DspState σ :=
  (s.stackPop.2.setReg Reg.la s.stackPop.1.1).setReg Reg.lc s.stackPop.1.2

/-- What the fall-through from LA does: loop back, or unstack the enclosing context. -/
def loopEnd (s : DspState σ) : DspState σ :=
  let s := s.setReg Reg.lc ((s.registers Reg.lc - 1) &&& regMasks Reg.lc)
  if s.registers Reg.lc = 0 ∧ s.registers Reg.sr &&& (1#32 <<< Sr.fv) = 0 then
    s.unstackSr.unstackLoop
  else { s with pc := s.registers Reg.ssh }

theorem advanceDo_eq (s : DspState σ) : s.advanceDo =
    if s.registers Reg.sr &&& (1#32 <<< Sr.lf) ≠ 0 ∧ s.pcAdvance ≠ 0 ∧
      s.pc = maskPc (s.registers Reg.la + 1) then s.loopEnd else s := rfl

theorem loopEnd_withAdvance (s : DspState σ) (n : Word) :
    (s.withAdvance n).loopEnd = s.loopEnd.withAdvance n := by
  have hu (s : DspState σ) : (s.withAdvance n).unstackSr = s.unstackSr.withAdvance n := by
    simp only [unstackSr, stackPop_withAdvance]
    rfl
  have hl (s : DspState σ) : (s.withAdvance n).unstackLoop = s.unstackLoop.withAdvance n := by
    simp only [unstackLoop, stackPop_withAdvance]
    rfl
  unfold loopEnd
  dsimp only
  split
  · rw [if_pos ‹_›, ← hl, ← hu]
    rfl
  · rw [if_neg ‹_›]
    rfl

/-- The loop end depends on `pc_advance` only through whether it is zero. -/
theorem advanceDo_withAdvance (s : DspState σ) {m n : Word} (h : m = 0 ↔ n = 0) :
    (s.withAdvance m).advanceDo = (s.withAdvance n).advanceDo.withAdvance m := by
  simp only [advanceDo_eq, loopEnd_withAdvance, ne_eq, h]
  split <;> rfl

end DspState

/-- `rep r0` and its target, a nop, at the end of a loop body. -/
def repEndsBody : Pram where
  spaceEnd := 2
  word
    | 0 => 0x06D020
    | _ => 0

/-- The path that annuls the REP. -/
theorem annulled_rep_path :
    Path blockEffects (Builder.finish (Builder.emit {} (repEndsBody.repInlineCode (.repReg 0x10) 0))
      false (repEndsBody.afterRep 0)) {} true { trace := [.rep] } := by
  have hsetup : Trail.Emits {} (emitRepInlineSetup (.repReg 0x10)) 0 (fun _ => [.rep])
      { trace := [.rep] } := by
    refine ⟨⟨0, false⟩, ?_, rfl⟩
    exact .op 0 (.op () (.op () (.op 0 (.op () (.ret _ _)))))
  have hrestore : Trail.Emits { trace := [.rep] } emitRepRestore () (fun _ => [])
      { trace := [.rep] } := by
    refine ⟨⟨0, false⟩, ?_, rfl⟩
    exact .op 0 (.op () (.ret _ _))
  apply Path.seq (t := { trace := [.rep] })
  · apply Path.seq .nop
    apply Path.seq (t := { trace := [.rep] })
    · exact .fst (.act ⟨0, by simp, hsetup⟩)
    · exact .act hrestore
  · exact .seq (.act rfl) (.exit rfl)

end Dsp56300
