import Dsp56300.Emu.CompiledBlocks
import Dsp56300.Emu.Slicing
import Dsp56300.Lib.PathRuns

/-! What a code generator is relied on for, and one that runs the emitted operations themselves,
along the path the state decides. -/

namespace Dsp56300

open Emitter Lib.Paths Lib.Programs

variable {σ φ : Type}

/-! Compiled code. -/

/-- The code of one instruction compiled alone. -/
def instructionCode (opcode pc nextWord : Word) : BlockCode :=
  .seq (.act (.instruction opcode pc nextWord)) (.exit .finalize)

namespace Translator

/-- The function takes a path through the code it was generated from, which knows nothing of the
run loop's budget. -/
def Runs (e : Translator σ φ) (f : φ) (code : BlockCode) : Prop :=
  ∀ s : DspState σ, s.Within → ∃ w,
    Path wholeBlock code (.start (.enter (s.withBudget 0))) true w ∧
      (e.call f s).1 = w.finalize.point.state.withBudget s.cycleBudget

variable {e : Translator σ φ} {f : φ} {code : BlockCode} {s : DspState σ}

/-- A call does what the stretches of the code do one at a time. -/
theorem Runs.stretched (h : e.Runs f code) (hs : s.Within) : ∃ left u,
    Path stretchByStretch code (.start (s.withBudget 0)) left u ∧
      (e.call f s).1 = u.point.state.withBudget s.cycleBudget ∧ u.point.state.Within := by
  obtain ⟨w, hw, hcall⟩ := h s hs
  have hbudget : (s.withBudget 0).Within := hs.same ⟨rfl, rfl, rfl, rfl, id⟩
  obtain ⟨u, hu, hmatches, hcurrent⟩ := Walk.stretched hbudget hw
  rw [hmatches.finalize hcurrent] at hcall
  exact ⟨true, u, hu, hcall, hmatches.point.within⟩

theorem Runs.within (h : e.Runs f code) (hs : s.Within) : (e.call f s).1.Within := by
  obtain ⟨left, u, -, hcall, hu⟩ := h.stretched hs
  rw [hcall]
  exact hu.same ⟨rfl, rfl, rfl, rfl, id⟩

end Translator

/-! Code run with its conditions decided. -/

/-- Cycles an inlined loop may take inside one block. -/
def inlineLoopQuantum : Nat := 4096

/-- Instruction cap of a block. -/
def maxBlockLen : Nat := 32

/-- A stretch of a block, where its outcome is the one it is named with. -/
def BlockAct.take (a : BlockAct) (p : Point (AluState σ)) : Option (Point (AluState σ)) :=
  match a with
  | .instruction opcode pc nextWord =>
    some ((emitInstruction (decode opcode) pc nextWord).run compiledOps p).2
  | .skip branch taken =>
    let r := Code.run compiledOps (do
      Code.call (.setDecodeLen (instructionLength branch.inst))
      emitSkipPredicate branch.inst) p
    if r.1 = taken then some r.2 else none
  | .repSetup repInst annul =>
    let r := (emitRepInlineSetup repInst).run compiledOps p
    if r.1 = 0 ↔ annul then some r.2 else none
  | .repIteration opcode pc nextWord =>
    some ((emitRepIteration (decode opcode) pc nextWord).run compiledOps p).2
  | .repRestore => some (emitRepRestore.run compiledOps p).2
  | .repLegacy opcode pc nextWord =>
    some (Code.run compiledOps (do
      emitInstruction (decode opcode) pc nextWord
      emitRepFirstCallArm pc) p).2
  | .doSetup doInst doPc la annul =>
    let r := (emitDoInlineSetup doInst doPc la).run compiledOps p
    if r.1 = 0 ↔ annul then some r.2 else none
  | .doAnnul la => some ((emitDoInlineAnnul la).run compiledOps p).2
  | .lcDecrement => some (emitLcDecrement.run compiledOps p).2
  | .enddoCleanup => some (emitEnddoCleanup.run compiledOps p).2
  | .storePcAdvance ended pc =>
    some { p with
      state := p.state.setDsp (p.state.dsp.endBlock ended p.emission.instLen (BitVec.ofNat 32 pc)) }

/-- Whether a way out is taken. The quantum is checked on the back edge of a loop. -/
def BlockExit.due (e : BlockExit) (p : Point (AluState σ)) : Bool :=
  match e with
  | .exitRequested _ => p.state.dsp.exitRequested
  | .faultArmed _ => p.state.dsp.interrupts.faultBudget ≠ invalidFaultBudget
  | .quantumSpent _ =>
    p.state.dsp.registers Reg.lc ≠ 0 ∧ inlineLoopQuantum ≤ p.emission.cycles
  | .finalize => true

/-- The steps of compiled code, with nothing but what it must done between two operations. -/
def compiledSteps : Steps BlockAct BlockExit (Walk (AluState σ)) where
  act a w := (a.take w.point).map fun p => ⟨p, a :: w.trace⟩
  exit e w :=
    if e.due w.point then
      some { w with
        point.state := .enter (w.point.state.finalize.leave e w.point.emission.instLen) }
    else none
  again w := w.point.state.dsp.registers Reg.lc ≠ 0

/-- LC has 24 bits. -/
def loopPasses : Nat := 0xFFFFFF

/-! Its runs are paths. -/

/-- A path without upkeep, as one of compiled code. -/
def Walk.held (w : Walk (AluState σ)) : Walk (Held σ) := ⟨w.point.held, w.trace⟩

/-- Code run on the accumulators and registers alone. -/
theorem Point.run_held {α : Type} (x : Emit α) (p : Point (AluState σ)) :
    x.run heldOps p.held = ((x.run compiledOps p).1, (x.run compiledOps p).2.held) :=
  Code.run_view (h := compiledOps) (fun _ _ _ => rfl) x p

theorem BlockAct.take_does {a : BlockAct} {p q : Point (AluState σ)} (h : a.take p = some q) :
    a.does Point.RunsAmid Point.EndsBlock p.held q.held := by
  have hplain {α : Type} (x : Emit α) :
      p.held.RunsAmid x (x.run compiledOps p).1 (x.run compiledOps p).2.held := by
    have hruns := (Point.runsAmid_plain x (p := p.held) rfl).1
    rw [Point.run_held] at hruns
    exact hruns
  cases a with
  | skip branch taken =>
    simp only [take, Option.ite_none_right_eq_some, Option.some.injEq] at h
    obtain ⟨rfl, rfl⟩ := h
    exact hplain _
  | repSetup repInst annul | doSetup doInst doPc la annul =>
    simp only [take, Option.ite_none_right_eq_some, Option.some.injEq] at h
    obtain ⟨hlc, rfl⟩ := h
    exact ⟨_, hlc, hplain _⟩
  | storePcAdvance ended pc =>
    cases h
    exact ⟨p.held, ⟨.refl, rfl⟩, rfl⟩
  | _ =>
    cases h
    exact hplain _

theorem compiled_path {code : BlockCode} {n : Nat} {w v : Walk (AluState σ)} {left : Bool}
    (h : code.run compiledSteps n w = some (left, v)) :
    Path wholeBlock code w.held left v.held := by
  refine Prog.run_path (fun a w v ha => ?_) (fun e w v he => ?_) h
  · obtain ⟨q, hq, rfl⟩ := Option.map_eq_some_iff.mp ha
    exact ⟨BlockAct.take_does hq, rfl⟩
  · obtain rfl := Option.some.inj (Option.ite_none_right_eq_some.mp he).2
    exact ⟨w.point.held, ⟨.refl, rfl⟩, rfl⟩

/-! They do not get stuck in the code of a block. -/

/-- Every run of the code ends. -/
abbrev Completes (code : BlockCode) : Prop := Total (compiledSteps (σ := σ)) loopPasses code

section Total

variable {code : BlockCode} {b : Builder} {p : Pram}

theorem total_take {a : BlockAct} (h : ∀ p : Point (AluState σ), (a.take p).isSome) :
    Completes (σ := σ) (.act a) := total_act fun w => (Option.isSome_map ..).trans (h w.point)

theorem total_bail (e : BlockExit) : Completes (σ := σ) (bail e) := total_nop.covers.total

theorem total_finalize : Completes (σ := σ) (.exit .finalize) := total_exit fun _ => rfl

/-- A test has one outcome or the other. -/
theorem covers_take {a c : BlockAct}
    (h : ∀ p : Point (AluState σ), a.take p = none → (c.take p).isSome) :
    Covers (compiledSteps (σ := σ)) loopPasses (.act a) (.act c) := by
  refine covers_act fun w hw => ?_
  exact (Option.isSome_map ..).trans (h w.point (Option.map_eq_none_iff.mp hw))

theorem covers_skip (branch : SkipBranch) :
    Covers (compiledSteps (σ := σ)) loopPasses (.act (.skip branch true))
      (.act (.skip branch false)) := by
  refine covers_take fun p h => ?_
  simp only [BlockAct.take, ite_eq_right_iff, reduceCtorEq, imp_false, Bool.not_eq_true] at h
  exact Option.isSome_iff_exists.mpr ⟨_, if_pos h⟩

theorem covers_repSetup (repInst : Instruction) :
    Covers (compiledSteps (σ := σ)) loopPasses (.act (.repSetup repInst true))
      (.act (.repSetup repInst false)) := by
  refine covers_take fun p h => ?_
  simp only [BlockAct.take, iff_true, ite_eq_right_iff, reduceCtorEq, imp_false] at h
  exact Option.isSome_iff_exists.mpr ⟨_, if_pos (by simpa using h)⟩

theorem covers_doSetup (doInst : Instruction) (doPc la : Nat) :
    Covers (compiledSteps (σ := σ)) loopPasses (.act (.doSetup doInst doPc la true))
      (.act (.doSetup doInst doPc la false)) := by
  refine covers_take fun p h => ?_
  simp only [BlockAct.take, iff_true, ite_eq_right_iff, reduceCtorEq, imp_false] at h
  exact Option.isSome_iff_exists.mpr ⟨_, if_pos (by simpa using h)⟩

theorem total_doLoop (doInst : Instruction) (doPc la : Nat) (h : Completes (σ := σ) code) :
    Completes (σ := σ) (doLoopCode doInst doPc la code) := by
  have hpass : Completes (σ := σ) (.seq code
      (.seq (.act .lcDecrement) (bail (.quantumSpent (doPc + 2))))) :=
    h.seq ((total_take fun _ => rfl).seq (total_bail _))
  refine Covers.total ?_
  refine Covers.seq_left ?_ (total_take fun _ => rfl)
  refine Covers.seq_right ?_ (hpass.loop.seq (total_take fun _ => rfl))
  exact ((covers_doSetup doInst doPc la).seq_left (total_bail _)).seq_right (total_bail _)

namespace Pram

theorem total_instruction (p : Pram) (pc : Nat) : Completes (σ := σ) (p.instructionCode pc) :=
  total_take fun _ => rfl

theorem total_repInline (p : Pram) (repInst : Instruction) (repPc : Nat) :
    Completes (σ := σ) (p.repInlineCode repInst repPc) := by
  have hloop : Completes (σ := σ) (.loop (.act (.repIteration (p.word (repPc + 1))
      (BitVec.ofNat 32 (repPc + 1)) (p.nextWord (repPc + 1))))) :=
    (total_take fun _ => rfl).loop
  exact ((covers_repSetup repInst).seq_right hloop).total.seq (total_take fun _ => rfl)

theorem total_plain (p : Pram) (pc : Nat) : Completes (σ := σ) (p.plainCode pc) := by
  unfold plainCode
  dsimp only
  split
  · exact p.total_instruction pc
  · refine (p.total_instruction pc).seq (Total.seq ?_ ?_)
    · split
      · exact total_nop
      · exact total_bail _
    · split
      · exact total_bail _
      · exact total_nop

theorem total_rep (p : Pram) (pc : Nat) : Completes (σ := σ) (p.repCode pc) := by
  unfold repCode
  split
  · exact total_take fun _ => rfl
  · exact p.total_repInline _ pc

end Pram

/-- What is built so far runs to its end. -/
structure Builder.Completes (σ : Type) (b : Builder) : Prop where
  code : Dsp56300.Completes (σ := σ) b.code
  before : ∀ o ∈ b.openSkips, Dsp56300.Completes (σ := σ) o.before

namespace Builder.Completes

variable (h : b.Completes σ)

theorem empty : Builder.Completes σ {} := ⟨total_nop, fun _ ho => absurd ho List.not_mem_nil⟩

include h

theorem emit (hc : Dsp56300.Completes (σ := σ) code) : (b.emit code).Completes σ :=
  ⟨h.code.seq hc, h.before⟩

theorem openSkip (branch : SkipBranch) : (b.openSkip branch).Completes σ := by
  refine ⟨total_nop, fun o ho => ?_⟩
  rcases List.mem_cons.mp ho with rfl | ho
  · exact h.code
  · exact h.before o ho

theorem mergeAt (pc : Nat) : (b.mergeAt pc).Completes σ := by
  obtain ⟨code, skips⟩ := b
  obtain ⟨hcode, hbefore⟩ := h
  change (Builder.mergeAt.go pc code skips).Completes σ
  induction skips generalizing code with
  | nil => exact ⟨hcode, fun _ ho => absurd ho List.not_mem_nil⟩
  | cons o os ih =>
    rw [Builder.mergeAt.go]
    split
    · refine ih _ ?_ fun o' ho' => hbefore o' (List.mem_cons_of_mem o ho')
      exact (hbefore o List.mem_cons_self).seq ((covers_skip o.branch).seq_right hcode).total
    · exact ⟨hcode, hbefore⟩

theorem finish (ended : Bool) (pc : Nat) : Dsp56300.Completes (σ := σ) (b.finish ended pc) :=
  h.code.seq ((total_take fun _ => rfl).seq total_finalize)

end Builder.Completes

namespace Pram

theorem total_body {fuel bodyPc la : Nat} (hb : b.Completes σ)
    (h : p.bodyCode fuel bodyPc la b = some code) : Completes (σ := σ) code := by
  induction fuel generalizing bodyPc la b code with
  | zero => cases h
  | succ fuel ih =>
    have hm := hb.mergeAt bodyPc
    rw [bodyCode] at h
    dsimp only at h
    split at h
    · split at h
      · exact ih (hm.openSkip _) h
      · split at h
        · obtain ⟨inner, hi, h⟩ := Option.bind_eq_some_iff.mp h
          exact ih (hm.emit (total_doLoop _ _ _ (ih .empty hi))) h
        · split at h
          · exact ih (hm.emit (p.total_repInline _ bodyPc)) h
          · exact ih (hm.emit (p.total_instruction bodyPc)) h
    · cases h
      exact hb.code

theorem total_do {stopPc pc : Nat} (h : p.doCode stopPc pc = some code) : Completes (σ := σ) code := by
  have hplain : Completes (σ := σ) (p.instructionCode pc) := p.total_instruction pc
  unfold doCode at h
  dsimp only at h
  split at h
  · cases h
    exact hplain
  · obtain ⟨inlineable, -, h⟩ := Option.bind_eq_some_iff.mp h
    split at h
    · obtain ⟨body, hb, h⟩ := Option.bind_eq_some_iff.mp h
      cases h
      exact total_doLoop _ _ _ (total_body .empty hb)
    · cases h
      exact hplain

theorem codeNext_completes {maxLen stopPc : Nat} {s : BlockState} {b' : Builder} (hb : b.Completes σ)
    (h : p.codeNext maxLen stopPc s b = some b') : b'.Completes σ := by
  unfold codeNext at h
  dsimp only at h
  split at h
  · cases h
    exact hb.openSkip _
  · split at h
    · cases h
      exact hb.emit (p.total_rep s.pc)
    · split at h
      · obtain ⟨code, hc, rfl⟩ := Option.map_eq_some_iff.mp h
        exact hb.emit (total_do hc)
      · cases h
        exact hb.emit (p.total_plain s.pc)

theorem codeLoop_completes {maxLen stopPc fuel : Nat} {s : BlockState} (hb : b.Completes σ)
    (h : p.codeLoop maxLen stopPc fuel s b = some code) : Completes (σ := σ) code := by
  induction fuel generalizing s b with
  | zero => cases h
  | succ fuel ih =>
    have hm := hb.mergeAt s.pc
    rw [codeLoop] at h
    split at h
    · cases h
      exact hm.finish false s.pc
    · obtain ⟨b', hb', h⟩ := Option.bind_eq_some_iff.mp h
      have hnext := codeNext_completes hm hb'
      obtain ⟨it, -, h⟩ := Option.bind_eq_some_iff.mp h
      cases it with
      | next t => exact ih hnext h
      | done t ended =>
        cases h
        exact hnext.finish ended t.pc

/-- The code of a block runs to its end from everywhere. -/
theorem blockCode_completes {startPc maxLen stopPc : Nat}
    (h : p.blockCode startPc maxLen stopPc = some code) : Completes (σ := σ) code :=
  codeLoop_completes .empty h

end Pram

end Total

/-! The engine. -/

/-- What it compiles: an instruction on its own, or a block. -/
inductive OpFunc where
  | instruction (inst : Instruction) (pc nextWord : Word)
  | block (code : BlockCode)

/-- Where a call ends. -/
def OpFunc.ends (f : OpFunc) (s : DspState σ) : Point (AluState σ) :=
  match f with
  | .instruction inst pc nextWord =>
    let p := ((emitInstruction inst pc nextWord).run compiledOps ⟨.enter s, {}⟩).2
    { p with state := .enter (p.state.finalize.leave .finalize p.emission.instLen) }
  | .block code =>
    match code.run compiledSteps loopPasses (.start (.enter s)) with
    | some (_, w) => w.point
    | none => ⟨.enter s, {}⟩ -- not for the code of a block

def opEngine : Translator σ OpFunc where
  compileBlock startPc stopPc generation map w :=
    let p := map.pram w
    let code := p.blockCode startPc.toNat maxBlockLen stopPc.toNat
    let emitted := p.emitBlock startPc.toNat maxBlockLen stopPc.toNat
    ({ func := .block (code.getD .nop)
       endPc := BitVec.ofNat 32 ((emitted.map EmittedBlock.endPc).getD startPc.toNat)
       generation
       endsOpen := (emitted.map EmittedBlock.endsOpen).getD true }, w)
  compileInstruction inst pc nextWord _ := .instruction inst pc nextWord
  call f s :=
    let p := f.ends (s.withBudget 0)
    (p.state.finalize.withBudget s.cycleBudget, p.emission.cycles)
  call_budget _ _ _ := rfl

theorem opEngine_instruction (opcode pc nextWord : Word) (map : MemoryMap σ) :
    (opEngine (σ := σ)).Runs (opEngine.compileInstruction (decode opcode) pc nextWord map)
      (instructionCode opcode pc nextWord) := by
  intro s _
  let start : Walk (AluState σ) := .start (.enter (s.withBudget 0))
  have hact : wholeBlock.act (.instruction opcode pc nextWord) start.held
      ⟨_, [.instruction opcode pc nextWord]⟩ := ⟨BlockAct.take_does rfl, rfl⟩
  exact ⟨_, .seq (.act hact) (.exit ⟨_, ⟨.refl, rfl⟩, rfl⟩), rfl⟩

theorem opEngine_block {code : BlockCode} {startPc stopPc generation : Word} {map : MemoryMap σ}
    {w : World σ}
    (h : (map.pram w).blockCode startPc.toNat maxBlockLen stopPc.toNat = some code) :
    (opEngine (σ := σ)).Runs (opEngine.compileBlock startPc stopPc generation map w).1.func code := by
  have hfunc : (opEngine.compileBlock startPc stopPc generation map w).1.func = .block code :=
    congrArg (fun c : Option BlockCode => OpFunc.block (c.getD .nop)) h
  rw [hfunc]
  intro s _
  obtain ⟨left, v, hv⟩ := (Pram.blockCode_completes h).run (.start (.enter (s.withBudget 0)))
  have hpath := compiled_path hv
  obtain rfl := Pram.blockCode_left h hpath
  refine ⟨v.held, hpath, ?_⟩
  change ((OpFunc.block code).ends (s.withBudget 0)).state.finalize.withBudget _ = _
  rw [OpFunc.ends, hv]
  rfl

end Dsp56300
