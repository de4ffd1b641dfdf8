import Dsp56300.Emu.Execution
import Dsp56300.Emu.RunLoop

/-! REP stepped, inlined, and handed from a block's end to stepping. -/

namespace Dsp56300

open Lib.Loops Lib.Programs Emitter

variable {σ φ : Type}

namespace Emitter.DataPaths

variable (d : DataPaths σ)

/-- The count of a REP, read once LC is in TEMP, and the state behind it. -/
def repCount (rep : Instruction) (s : DspState σ) : Word × DspState σ :=
  (emitRepLcValue rep).run d.exec (s.setReg Reg.temp (maskReg Reg.temp (s.registers Reg.lc)))

/-- LC is counted down behind each application of the target. -/
def countDown (s : DspState σ) : DspState σ :=
  s.setReg Reg.lc (maskLc (s.registers Reg.lc - 1))

/-- The target applied `n` times. -/
def repeated (target : Emit Unit) : Nat → DspState σ → DspState σ
  | 0, s => s
  | n + 1, s => repeated target n (countDown (d.after target s))

/-- The state a REP leaves its target. -/
def repEntered (rep : Instruction) (s : DspState σ) : DspState σ :=
  (d.repCount rep s).2.setReg Reg.lc (d.repCount rep s).1

/-- What REP and its target come to: as many applications as the count says, and LC as it was. -/
def repOutcome (rep : Instruction) (target : Emit Unit) (s : DspState σ) : DspState σ :=
  (d.repeated target (d.repCount rep s).1.toNat (d.repEntered rep s)).setReg Reg.lc
    (s.registers Reg.lc)

/-- An iteration of the loop `emit_rep_inline` emits, while it is not done. -/
def inlineIterate (inst : Instruction) (pc nextWord : Word) :
    Bool × DspState σ → Option (Bool × DspState σ)
  | (true, _) => none
  | (false, s) =>
    let s := d.after (emitRepIteration inst pc nextWord) s
    some (s.registers Reg.lc = 0, s)

/-- The code of `emit_rep_inline`, run from `s` to `t`. -/
def RunsInline (rep inst : Instruction) (repPc nextWord : Word) (s t : DspState σ) : Prop :=
  let (lc, s) := (emitRepInlineSetup rep).run d.exec s
  if lc = 0 then t = d.after emitRepRestore s
  else ∃ u, Ends (d.inlineIterate inst (repPc + 1) nextWord) (false, s) (true, u) ∧
    t = d.after emitRepRestore u

/-- A block that holds an inlined REP: the emitter goes on behind the target, and here the block
ends there. -/
def RunsBlock (rep inst : Instruction) (repPc nextWord : Word) (s t : DspState σ) : Prop :=
  ∃ u, d.RunsInline rep inst repPc nextWord s u ∧
    t = d.after (storePc (repPc + 1 + BitVec.ofNat 32 (instructionLength inst))) u

/-- The end of a block whose REP is not inlined. PC and its advance are those of the first-call
arm. -/
def legacyBlock (rep : Instruction) (pc nextWord : Word) (s : DspState σ) : DspState σ :=
  Machine.afterBlock (d.after (do emitInstruction rep pc nextWord; emitRepFirstCallArm pc) s)

/-- A compiled instruction does what its code does. -/
def Compiles (e : Translator σ φ) (x : Emit Unit) (func : φ) : Prop :=
  ∀ s, (e.call func s).1 = d.after x s

end Emitter.DataPaths

/-- A REP has come to its end in the data of `r`, PC behind its target. In an armed window the
budget is cut. -/
structure DspState.Retired (t r : DspState σ) (pc : Word) : Prop where
  data : t.data = r.repTruncateArmedWindow.data
  pc : t.pc = pc
  loopRep : t.loopRep = false
  pcOnRep : t.pcOnRep = false

/-- Interrupts are locked out of a step: the pipeline does nothing behind it. -/
def DspState.Locked (e : Translator σ φ) (func : φ) (s : DspState σ) : Prop :=
  let t := (e.call func { s with pcAdvance := 1 }).1.advancePc
  t.processPendingInterrupts = t

/-- The step that has come to the end of a REP: a loop end and the interrupt pipeline follow. -/
def DspState.Retires (s r : DspState σ) (pc : Word) : Prop :=
  ∃ (t : DspState σ) (n : Word), t.Retired r pc ∧ t.pcAdvance ≠ 0 ∧
    s = { t.advanceDo.processPendingInterrupts with cycleCount := n }

/-- Falling through to `pc` ends an iteration of the loop in LA. -/
def DspState.AtLoopEnd (s : DspState σ) (pc : Word) : Prop :=
  s.registers Reg.sr &&& (1#32 <<< Sr.lf) ≠ 0 ∧ pc = maskPc (s.registers Reg.la + 1)

/-- One-word code that neither branches nor repeats, and spares LC and its backup. -/
structure Emitter.DataPaths.Target (d : DataPaths σ) (opcode pc nextWord : Word) : Prop where
  oneWord : instructionLength (decode opcode) = 1
  plain : (emitInstruction (decode opcode) pc nextWord).All fun _ op => op.Plain
  lc : ∀ s, (d.after (emitInstruction (decode opcode) pc nextWord) s).registers Reg.lc =
    s.registers Reg.lc
  temp : ∀ s, (d.after (emitInstruction (decode opcode) pc nextWord) s).registers Reg.temp =
    s.registers Reg.temp

namespace DspState

variable {s t : DspState σ}

theorem same_checkUnimplementedModes (s : DspState σ) :
    s.checkUnimplementedModes.Same s ∧ s.checkUnimplementedModes.pcAdvance = s.pcAdvance := by
  unfold checkUnimplementedModes
  dsimp only
  split
  · exact ⟨⟨rfl, rfl, rfl, rfl⟩, rfl⟩
  · exact ⟨⟨rfl, rfl, rfl, rfl⟩, rfl⟩

theorem Same.trans {u : DspState σ} (h : s.Same t) (h' : t.Same u) : s.Same u :=
  ⟨h.data.trans h'.data, h.pc.trans h'.pc, h.loopRep.trans h'.loopRep,
    h.pcOnRep.trans h'.pcOnRep⟩

/-- Between two iterations of a stepped REP. -/
structure Repeating (pc : Word) (s : DspState σ) : Prop where
  loopRep : s.loopRep = true
  pcOnRep : s.pcOnRep = false
  pc : s.pc = pc

/-- REP is not interruptible. -/
theorem Repeating.locked {pc : Word} (h : s.Repeating pc) : s.processPendingInterrupts = s := by
  unfold processPendingInterrupts
  rw [if_pos h.loopRep]

/-- A REP that retires changes the fault budget at most. -/
theorem truncate_frame (s : DspState σ) :
    s.repTruncateArmedWindow.pc = s.pc ∧ s.repTruncateArmedWindow.pcAdvance = s.pcAdvance ∧
      s.repTruncateArmedWindow.loopRep = s.loopRep ∧
      s.repTruncateArmedWindow.pcOnRep = s.pcOnRep := by
  unfold repTruncateArmedWindow
  split
  · exact ⟨rfl, rfl, rfl, rfl⟩
  · exact ⟨rfl, rfl, rfl, rfl⟩

/-- Outside an armed window a REP retires without a trace. -/
theorem repTruncateArmedWindow_of_none (h : s.interrupts.state = .none) :
    s.repTruncateArmedWindow = s := by
  unfold repTruncateArmedWindow
  rw [if_neg (by rw [h]; decide)]

theorem data_truncate (h : s.data = t.data) :
    s.repTruncateArmedWindow.data = t.repTruncateArmedWindow.data := by
  have hcomm (u : DspState σ) : u.repTruncateArmedWindow.data = u.data.repTruncateArmedWindow := by
    unfold repTruncateArmedWindow
    by_cases hu : u.interrupts.state = .armed
    · rw [if_pos hu, if_pos (show u.data.interrupts.state = .armed from hu)]
      rfl
    · rw [if_neg hu, if_neg (show ¬ u.data.interrupts.state = .armed from hu)]
  rw [hcomm, hcomm, h]

theorem advanceDo_of_branch (h : s.pcAdvance = 0) : s.advanceDo = s := by
  unfold advanceDo
  rw [if_neg (by simp [h])]

theorem advanceDo_of_not_atLoopEnd (h : ¬ s.AtLoopEnd s.pc) : s.advanceDo = s := by
  unfold advanceDo
  rw [if_neg]
  rintro ⟨hlf, -, hla⟩
  exact h ⟨hlf, hla⟩

theorem Repeating.of_same {pc : Word} (ht : t.Repeating pc) (h : s.Same t) : s.Repeating pc :=
  ⟨h.loopRep.trans ht.loopRep, h.pcOnRep.trans ht.pcOnRep, h.pc.trans ht.pc⟩

/-- The REP half of `advance_pc` behind an iteration. -/
theorem advanceRep_repeating {pc : Word} (h : s.Repeating pc) : s.advanceRep =
    if maskLc (s.registers Reg.lc - 1) = 0 then
      ({ s with loopRep := false }.setReg Reg.lc (s.registers Reg.temp)).repTruncateArmedWindow
    else { DataPaths.countDown s with pcAdvance := 0 } := by
  have hpos (v : Word) : v > 0 ↔ v ≠ 0 := BitVec.pos_iff_ne_zero v
  unfold advanceRep
  rw [if_neg (by simp [h.loopRep]), if_pos (by simp [h.pcOnRep])]
  simp only [setReg_same, hpos]
  by_cases hlc : maskLc (s.registers Reg.lc - 1) = 0
  · rw [if_pos hlc]
    refine (if_neg (not_not.mpr hlc)).trans ?_
    rw [setReg_other s _ (by decide)]
    exact congrArg repTruncateArmedWindow (setReg_setReg { s with loopRep := false } Reg.lc _ _)
  · rw [if_neg hlc]
    exact if_pos hlc

/-- `advance_pc` behind an iteration that is not the last. -/
theorem advancePc_again {pc : Word} (h : s.Repeating (maskPc pc))
    (hlc : maskLc (s.registers Reg.lc - 1) ≠ 0) :
    s.advancePc.Repeating (maskPc pc) ∧ s.advancePc.data = (DataPaths.countDown s).data := by
  obtain ⟨hsame, -⟩ := same_checkUnimplementedModes s
  have hc := h.of_same hsame
  have hreg := registers_of_data hsame.data
  have hstep : s.advancePc = { DataPaths.countDown s.checkUnimplementedModes with
      pcAdvance := 0, pc := maskPc (s.checkUnimplementedModes.pc + 0) } := by
    unfold advancePc
    dsimp only
    rw [advanceRep_repeating hc, hreg, if_neg hlc]
    exact advanceDo_of_branch rfl
  rw [hstep, hc.pc]
  refine ⟨⟨hc.loopRep, hc.pcOnRep, ?_⟩, ?_⟩
  · have hadd : maskPc pc + 0 = maskPc pc := BitVec.add_zero _
    dsimp only
    rw [hadd, maskPc, maskPc, BitVec.and_assoc, BitVec.and_self]
  · have hdata : (DataPaths.countDown s.checkUnimplementedModes).data =
        (DataPaths.countDown s).data := by
      unfold DataPaths.countDown
      rw [hreg]
      exact data_setReg hsame.data _ _
    exact hdata

/-- `advance_pc` behind the last iteration. -/
theorem advancePc_last {pc : Word} (h : s.Repeating (maskPc pc)) (hadv : s.pcAdvance = 1)
    (hlc : maskLc (s.registers Reg.lc - 1) = 0) :
    ∃ t : DspState σ, s.advancePc = t.advanceDo ∧ t.pcAdvance = 1 ∧
      t.Retired (s.setReg Reg.lc (s.registers Reg.temp)) (maskPc (pc + 1)) := by
  obtain ⟨hsame, hadv'⟩ := same_checkUnimplementedModes s
  have hc := h.of_same hsame
  have hreg := registers_of_data hsame.data
  have hlc' : maskLc (s.checkUnimplementedModes.registers Reg.lc - 1) = 0 := by
    rw [hreg]
    exact hlc
  have hrep := advanceRep_repeating hc
  rw [if_pos hlc'] at hrep
  obtain ⟨hp, ha, hl, ho⟩ := truncate_frame
    ({ s.checkUnimplementedModes with loopRep := false }.setReg Reg.lc
      (s.checkUnimplementedModes.registers Reg.temp))
  refine ⟨_, rfl, ?_, ?_⟩
  · rw [hrep]
    exact ha.trans (hadv'.trans hadv)
  · rw [hrep]
    refine ⟨?_, ?_, hl, ho.trans hc.pcOnRep⟩
    · apply data_truncate
      rw [← hreg]
      exact data_setReg hsame.data Reg.lc _
    · dsimp only
      rw [hp, ha]
      show maskPc (s.checkUnimplementedModes.pc + s.checkUnimplementedModes.pcAdvance) = _
      rw [hc.pc, hadv', hadv, maskPc_succ]

/-- The REP half of `advance_pc` on the REP itself. -/
theorem advanceRep_first (hrep : s.loopRep = true) (hon : s.pcOnRep = true) : s.advanceRep =
    if s.registers Reg.lc = 0 then
      { ({ s.setReg Reg.lc (s.registers Reg.temp) with
        loopRep := false, pcAdvance := s.pcAdvance + 1 }).repTruncateArmedWindow with
          pcOnRep := false }
    else { s with pcOnRep := false } := by
  unfold advanceRep
  rw [if_neg (by simp [hrep]), if_neg (by simp [hon])]
  dsimp only
  by_cases hlc : s.registers Reg.lc = 0
  · rw [if_pos hlc, if_pos hlc]
    rfl
  · rw [if_neg hlc, if_neg hlc]

/-- `advance_pc` on a REP with something to repeat. -/
theorem advancePc_first (hrep : s.loopRep = true) (hon : s.pcOnRep = true) (hadv : s.pcAdvance = 1)
    (hlc : s.registers Reg.lc ≠ 0) (hend : ¬ s.AtLoopEnd (maskPc (s.pc + 1))) :
    s.advancePc.Repeating (maskPc (s.pc + 1)) ∧ s.advancePc.data = s.data := by
  obtain ⟨hsame, hadv'⟩ := same_checkUnimplementedModes s
  have hreg := registers_of_data hsame.data
  have hrep' := hsame.loopRep.trans hrep
  have hon' := hsame.pcOnRep.trans hon
  have hpc : maskPc (s.checkUnimplementedModes.pc + s.checkUnimplementedModes.pcAdvance) =
      maskPc (s.pc + 1) := by
    rw [hsame.pc, hadv', hadv]
  have hstep : s.advancePc = { s.checkUnimplementedModes with
      pcOnRep := false, pc := maskPc (s.pc + 1) } := by
    unfold advancePc
    dsimp only
    rw [advanceRep_first hrep' hon', hreg, if_neg hlc]
    dsimp only
    rw [hpc]
    apply advanceDo_of_not_atLoopEnd
    rintro ⟨hlf, hla⟩
    exact hend ⟨hlf, hla⟩
  rw [hstep]
  exact ⟨⟨hrep', rfl, rfl⟩, hsame.data⟩

/-- `advance_pc` on a REP with nothing to repeat. -/
theorem advancePc_annulled (hrep : s.loopRep = true) (hon : s.pcOnRep = true)
    (hadv : s.pcAdvance = 1) (hlc : s.registers Reg.lc = 0) :
    ∃ t : DspState σ, s.advancePc = t.advanceDo ∧ t.pcAdvance = 2 ∧
      t.Retired (s.setReg Reg.lc (s.registers Reg.temp)) (maskPc (s.pc + 2)) := by
  obtain ⟨hsame, hadv'⟩ := same_checkUnimplementedModes s
  have hreg := registers_of_data hsame.data
  have hlc' : s.checkUnimplementedModes.registers Reg.lc = 0 := by
    rw [hreg]
    exact hlc
  have hrep' := advanceRep_first (hsame.loopRep.trans hrep) (hsame.pcOnRep.trans hon)
  rw [if_pos hlc'] at hrep'
  obtain ⟨hp, ha, hl, -⟩ := truncate_frame
    { s.checkUnimplementedModes.setReg Reg.lc (s.checkUnimplementedModes.registers Reg.temp) with
      loopRep := false, pcAdvance := s.checkUnimplementedModes.pcAdvance + 1 }
  have htwo : s.checkUnimplementedModes.pcAdvance + 1 = 2 := by
    rw [hadv', hadv]
    rfl
  refine ⟨_, rfl, ?_, ?_⟩
  · rw [hrep']
    exact ha.trans htwo
  · rw [hrep']
    refine ⟨?_, ?_, hl, rfl⟩
    · apply data_truncate
      rw [← hreg]
      exact data_setReg hsame.data Reg.lc _
    · dsimp only
      rw [hp, ha]
      show maskPc (s.checkUnimplementedModes.pc + (s.checkUnimplementedModes.pcAdvance + 1)) = _
      rw [htwo, hsame.pc]

end DspState

open DspState Machine

variable {d : DataPaths σ} {e : Translator σ φ}

theorem data_countDown {s t : DspState σ} (h : s.data = t.data) :
    (DataPaths.countDown s).data = (DataPaths.countDown t).data := by
  unfold DataPaths.countDown
  rw [registers_of_data h]
  exact data_setReg h _ _

theorem execute_of_gate {s₀ s : DspState σ} {opcode len : Word}
    (h : s₀.armedGate opcode len = some s) (func : φ) : ∃ n, (execute e s₀ opcode func len).1 =
      { (e.call func { s with pcAdvance := len }).1.advancePc.processPendingInterrupts with
        cycleCount := n } := by
  unfold execute
  rw [h]
  exact ⟨_, rfl⟩

/-- A step inside REP is not gated. -/
theorem execute_repeating {pc : Word} {s : DspState σ} (h : s.Repeating pc) (opcode : Word)
    (func : φ) (len : Word) : ∃ n, (execute e s opcode func len).1 =
      { (e.call func { s with pcAdvance := len }).1.advancePc.processPendingInterrupts with
        cycleCount := n } := by
  have hgate : s.armedGate opcode len = some s := by
    unfold armedGate
    rw [if_neg (by simp [h.loopRep])]
  exact execute_of_gate hgate func

namespace Emitter.DataPaths.Target

variable {opcode pc nextWord : Word} {func : φ} {s v : DspState σ}

/-- The target of a REP, called. -/
theorem call (ht : d.Target opcode pc nextWord)
    (hfunc : d.Compiles e (emitInstruction (decode opcode) pc nextWord) func)
    (hs : s.Repeating (maskPc pc)) (hdata : s.data = v.data) :
    let t := (e.call func { s with pcAdvance := 1 }).1
    t.Repeating (maskPc pc) ∧ t.pcAdvance = 1 ∧
      t.data = (d.after (emitInstruction (decode opcode) pc nextWord) v).data := by
  dsimp only
  rw [hfunc]
  obtain ⟨hpc, hrep, hon, -⟩ := run_control (d := d) ht.plain { s with pcAdvance := 1 }
  refine ⟨⟨hrep.trans hs.loopRep, hon.trans hs.pcOnRep, hpc.trans hs.pc⟩, ?_, ?_⟩
  · refine (run_advance ht.plain _).trans ?_
    rw [ht.oneWord]
    rfl
  · have hdata' : { s with pcAdvance := 1 }.data = v.data := hdata
    exact (run_data _ hdata').2

theorem lc_of_data {s t : DspState σ} (h : s.data = t.data) :
    s.registers Reg.lc = t.registers Reg.lc := by
  rw [registers_of_data h]

/-- A step that is not the last. -/
theorem step_again (ht : d.Target opcode pc nextWord)
    (hfunc : d.Compiles e (emitInstruction (decode opcode) pc nextWord) func)
    (hs : s.Repeating (maskPc pc)) (hdata : s.data = v.data)
    (hlc : maskLc (v.registers Reg.lc - 1) ≠ 0) :
    let t := (execute e s opcode func 1).1
    s.Locked e func ∧ t.Repeating (maskPc pc) ∧
      t.data = (countDown (d.after (emitInstruction (decode opcode) pc nextWord) v)).data := by
  obtain ⟨hu, -, hud⟩ := ht.call hfunc hs hdata
  obtain ⟨n, hn⟩ := execute_repeating (e := e) hs opcode func 1
  have hlc' : maskLc ((e.call func { s with pcAdvance := 1 }).1.registers Reg.lc - 1) ≠ 0 := by
    rw [lc_of_data hud, ht.lc]
    exact hlc
  obtain ⟨ha, hd⟩ := advancePc_again hu hlc'
  dsimp only
  rw [hn, ha.locked]
  exact ⟨ha.locked, ⟨ha.loopRep, ha.pcOnRep, ha.pc⟩, hd.trans (data_countDown hud)⟩

/-- The last step. -/
theorem step_last (ht : d.Target opcode pc nextWord)
    (hfunc : d.Compiles e (emitInstruction (decode opcode) pc nextWord) func)
    (hs : s.Repeating (maskPc pc)) (hdata : s.data = v.data)
    (hlc : maskLc (v.registers Reg.lc - 1) = 0) :
    let w := countDown (d.after (emitInstruction (decode opcode) pc nextWord) v)
    (execute e s opcode func 1).1.Retires (w.setReg Reg.lc (w.registers Reg.temp))
      (maskPc (pc + 1)) := by
  obtain ⟨hu, hadv, hud⟩ := ht.call hfunc hs hdata
  obtain ⟨n, hn⟩ := execute_repeating (e := e) hs opcode func 1
  have hlc' : maskLc ((e.call func { s with pcAdvance := 1 }).1.registers Reg.lc - 1) = 0 := by
    rw [lc_of_data hud, ht.lc]
    exact hlc
  obtain ⟨t, ht, hone, hret⟩ := advancePc_last hu hadv hlc'
  refine ⟨t, n, ⟨hret.data.trans (data_truncate ?_), hret.pc, hret.loopRep, hret.pcOnRep⟩, ?_, ?_⟩
  · have htemp := congrFun (registers_of_data hud) Reg.temp
    rw [htemp, countDown, setReg_setReg, setReg_other _ _ (by decide)]
    exact data_setReg hud Reg.lc _
  · rw [hone]
    decide
  · rw [hn, ht]

theorem maskLc_pred {n : Nat} (h : n + 1 < 2 ^ 24) :
    maskLc (BitVec.ofNat 32 (n + 1) - 1) = BitVec.ofNat 32 n := by
  have hsub : BitVec.ofNat 32 (n + 1) - 1 = BitVec.ofNat 32 n := by
    rw [BitVec.ofNat_add]
    exact BitVec.add_sub_cancel _ _
  rw [hsub]
  apply BitVec.eq_of_toNat_eq
  have hmod : (maskLc (BitVec.ofNat 32 n)).toNat = (BitVec.ofNat 32 n).toNat % 2 ^ 24 :=
    toNat_mask24 _
  rw [hmod, BitVec.toNat_ofNat]
  omega

/-- Stepping applies the target once for each count. -/
theorem steps (ht : d.Target opcode pc nextWord)
    (hfunc : d.Compiles e (emitInstruction (decode opcode) pc nextWord) func) {n : Nat}
    (hn : n + 1 < 2 ^ 24) (hs : s.Repeating (maskPc pc)) (hdata : s.data = v.data)
    (hlc : v.registers Reg.lc = BitVec.ofNat 32 (n + 1)) :
    let step u := (execute e u opcode func 1).1
    let w := d.repeated (emitInstruction (decode opcode) pc nextWord) (n + 1) v
    (∀ k ≤ n, (step^[k] s).Repeating (maskPc pc)) ∧ (∀ k < n, (step^[k] s).Locked e func) ∧
      (step^[n + 1] s).Retires (w.setReg Reg.lc (w.registers Reg.temp)) (maskPc (pc + 1)) := by
  intro step w
  have hpred : maskLc (v.registers Reg.lc - 1) = BitVec.ofNat 32 n := by
    rw [hlc, maskLc_pred hn]
  induction n generalizing s v with
  | zero =>
    refine ⟨?_, by simp, ht.step_last hfunc hs hdata hpred⟩
    intro k hk
    obtain rfl : k = 0 := by omega
    exact hs
  | succ n ih =>
    have hne : maskLc (v.registers Reg.lc - 1) ≠ 0 := by
      rw [hpred]
      intro h
      have hz := congrArg BitVec.toNat h
      rw [BitVec.toNat_ofNat] at hz
      have h0 : (0 : Word).toNat = 0 := rfl
      omega
    obtain ⟨hlock, hr, hd⟩ := ht.step_again hfunc hs hdata hne
    have hlc' : (countDown (d.after (emitInstruction (decode opcode) pc nextWord) v)).registers
        Reg.lc = BitVec.ofNat 32 (n + 1) := by
      rw [countDown, setReg_same, ht.lc, hpred]
    obtain ⟨hrun, hlocked, hret⟩ :=
      ih (by omega) hr hd hlc' (by rw [hlc', maskLc_pred (by omega)])
    refine ⟨?_, ?_, hret⟩
    · intro k hk
      cases k with
      | zero => exact hs
      | succ k => exact hrun k (by omega)
    · intro k hk
      cases k with
      | zero => exact hlock
      | succ k => exact hlocked k (by omega)

end Emitter.DataPaths.Target

/-! The REP itself. -/

namespace Emitter

set_option linter.constructorNameAsVariable false

/-- Operations that fetch an operand. -/
def Op.Fetches : {γ : Type} → Op γ → Prop
  | _, .setInstLen _ => False
  | _, op => op.Plain ∧ ¬ op.WritesTemp

theorem emitCalcEa_fetches (eaMode : Word) :
    (emitCalcEa eaMode).All fun _ op => op.Fetches := by
  have hlow : ∀ k ≤ 7, ¬ regAt (16 + k) = Reg.temp := by decide
  have hrn (n : Nat) : ¬ regAt (16 + (n &&& 7)) = Reg.temp := hlow _ Nat.and_le_right
  unfold emitCalcEa emitCalcEaExt
  dsimp only
  split <;> simp [loadReg, storeReg, setCycles, loadNnSigned, emitUpdateRn, Op.Fetches, Op.Plain,
    Op.WritesTemp, Code.bind_bind, hrn]

theorem emitRepLcValue_fetches (rep : Instruction) :
    (emitRepLcValue rep).All fun _ op => op.Fetches := by
  cases rep with
  | repReg r => simp [emitRepLcValue, readRegForMove, Op.Fetches, Op.Plain, Op.WritesTemp]
  | repAa space addr => simp [emitRepLcValue, readMem, Op.Fetches, Op.Plain, Op.WritesTemp]
  | repEa space ea =>
    apply Code.all_bind (emitCalcEa_fetches _)
    simp [readMemDyn, Op.Fetches, Op.Plain, Op.WritesTemp]
  | _ => trivial

/-- All forms of REP differ in their count only. -/
theorem emitInstruction_rep {rep : Instruction} (h : rep.isRepInstruction = true)
    (pc nextWord : Word) : emitInstruction rep pc nextWord = (do
      Code.call (.setDecodeLen 1)
      setInstLen 1
      setCycles 5
      emitRepSetup
      let v ← emitRepLcValue rep
      storeReg Reg.lc.val v) := by
  cases rep with
  | repImm | repReg | repAa => rfl
  | repEa =>
    dsimp only [emitInstruction, emitInstructionBody, emitRepEa, emitRepLcValue]
    simp only [Code.bind_bind]
    rfl
  | _ => cases h

namespace DataPaths

/-- The first call behind a REP with something to repeat. -/
theorem run_firstCallArm {repPc : Word} {s : DspState σ} (hlc : s.registers Reg.lc ≠ 0) :
    d.after (emitRepFirstCallArm repPc) s =
      { s with pcOnRep := false, pc := maskPc (repPc + 1), pcAdvance := 0 } := by
  have harm : emitRepFirstCall repPc (s.registers Reg.lc) = (do
      Code.call (.storePcOnRep false)
      storePc (repPc + 1)) := if_neg hlc
  have hrun : (emitRepFirstCallArm repPc).run d.exec s =
      (emitRepFirstCall repPc (s.registers Reg.lc) >>= fun _ => setInstLen 0).run d.exec s := rfl
  unfold after
  rw [hrun, harm]
  rfl

theorem repCount_data (rep : Instruction) {s t : DspState σ} (h : s.data = t.data) :
    (d.repCount rep s).1 = (d.repCount rep t).1 ∧
      (d.repCount rep s).2.data = (d.repCount rep t).2.data := by
  unfold repCount
  rw [registers_of_data h]
  exact run_data _ (data_setReg h _ _)

theorem repEntered_data (rep : Instruction) {s t : DspState σ} (h : s.data = t.data) :
    (d.repEntered rep s).data = (d.repEntered rep t).data := by
  obtain ⟨hval, hdata⟩ := repCount_data (d := d) rep h
  unfold repEntered
  rw [hval]
  exact data_setReg hdata _ _

theorem run_fetch {x : Emit Word} (hx : x.All fun _ op => op.Fetches) (s : DspState σ) :
    (x.run d.exec s).2.pc = s.pc ∧ (x.run d.exec s).2.pcAdvance = s.pcAdvance ∧
      (x.run d.exec s).2.loopRep = s.loopRep ∧ (x.run d.exec s).2.pcOnRep = s.pcOnRep ∧
      (x.run d.exec s).2.interrupts.state = s.interrupts.state ∧
      (x.run d.exec s).2.registers Reg.temp = s.registers Reg.temp := by
  let I (t : DspState σ) := t.pc = s.pc ∧ t.pcAdvance = s.pcAdvance ∧ t.loopRep = s.loopRep ∧
    t.pcOnRep = s.pcOnRep ∧ t.interrupts.state = s.interrupts.state ∧
    t.registers Reg.temp = s.registers Reg.temp
  apply hx.run (I := I) _ ⟨rfl, rfl, rfl, rfl, rfl, rfl⟩
  rintro γ op t hop ⟨hpc, hadv, hrep, hon, hstate, htemp⟩
  cases op with
  | setInstLen => exact hop.elim
  | storePc | storeLoopRep | storePcOnRep => exact hop.1.elim
  | setDecodeLen | setCycles | setFaultAnchorBump | loadReg =>
    exact ⟨hpc, hadv, hrep, hon, hstate, htemp⟩
  | storeReg =>
    exact ⟨hpc, hadv, hrep, hon, hstate, (setReg_other _ _ (Ne.symm hop.2)).trans htemp⟩
  | _ =>
    exact ⟨(d.pc _ _ t).trans hpc, (d.pcAdvance _ _ t).trans hadv, (d.loopRep _ _ t).trans hrep,
      (d.pcOnRep _ _ t).trans hon, (d.state _ _ t hop.1).trans hstate,
      (d.temp _ _ t hop.2).trans htemp⟩

/-- A REP, called: the count is in LC, and both flags are set. -/
theorem call_rep {rep : Instruction} (h : rep.isRepInstruction = true) (pc nextWord : Word)
    {s : DspState σ} (hcount : maskLc (d.repCount rep s).1 = (d.repCount rep s).1) :
    let t := d.after (emitInstruction rep pc nextWord) s
    t.data = (d.repEntered rep s).data ∧ t.pc = s.pc ∧ t.pcAdvance = 1 ∧ t.loopRep = true ∧
      t.pcOnRep = true := by
  let saved := s.setReg Reg.temp (maskReg Reg.temp (s.registers Reg.lc))
  let u := { saved with pcAdvance := 1, loopRep := true, pcOnRep := true }
  have hrun : d.after (emitInstruction rep pc nextWord) s =
      ((emitRepLcValue rep).run d.exec u).2.setReg Reg.lc
        (maskLc ((emitRepLcValue rep).run d.exec u).1) := by
    rw [emitInstruction_rep h]
    exact congrArg Prod.snd (Code.run_bind d.exec (emitRepLcValue rep) _ u)
  obtain ⟨hpc, hadv, hrep, hon, -⟩ := run_fetch (d := d) (emitRepLcValue_fetches rep) u
  have hdata : u.data = saved.data := rfl
  obtain ⟨hval, hd⟩ := run_data (d := d) (emitRepLcValue rep) hdata
  dsimp only
  rw [hrun]
  refine ⟨?_, hpc, hadv, hrep, hon⟩
  rw [hval, repEntered, ← hcount]
  exact data_setReg hd Reg.lc _

/-- A REP over a one-word target. -/
structure RepAt (d : DataPaths σ) (rep : Instruction) (opcode nextWord : Word) (s : DspState σ) :
    Prop where
  isRep : rep.isRepInstruction = true
  target : d.Target opcode (maskPc (s.pc + 1)) nextWord
  count : maskLc (d.repCount rep s).1 = (d.repCount rep s).1
  lc : maskLc (s.registers Reg.lc) = s.registers Reg.lc

namespace RepAt

variable {rep : Instruction} {opcode nextWord : Word} {s t : DspState σ}

theorem count_lt (h : d.RepAt rep opcode nextWord s) : (d.repCount rep s).1.toNat < 2 ^ 24 := by
  rw [← h.count]
  exact mask24_lt _

theorem entered_lc : (d.repEntered rep s).registers Reg.lc = (d.repCount rep s).1 :=
  setReg_same _ _ _

theorem maskReg_lc_maskLc (v : Word) : maskReg Reg.lc (maskLc v) = maskLc v := by
  show v &&& 0xFFFFFF &&& 0xFFFFFF = v &&& 0xFFFFFF
  rw [BitVec.and_assoc, BitVec.and_self]

theorem entered_temp (h : d.RepAt rep opcode nextWord s) :
    (d.repEntered rep s).registers Reg.temp = s.registers Reg.lc := by
  obtain ⟨-, -, -, -, -, htemp⟩ := run_fetch (d := d) (emitRepLcValue_fetches rep)
    (s.setReg Reg.temp (maskReg Reg.temp (s.registers Reg.lc)))
  refine (setReg_other _ _ (by decide)).trans (htemp.trans ?_)
  rw [setReg_same]
  exact h.lc

theorem repeated_temp (h : d.RepAt rep opcode nextWord s) (n : Nat) (v : DspState σ) :
    (d.repeated (emitInstruction (decode opcode) (maskPc (s.pc + 1)) nextWord) n v).registers
      Reg.temp = v.registers Reg.temp := by
  induction n generalizing v with
  | zero => rfl
  | succ n ih =>
    rw [repeated, ih, countDown, setReg_other _ _ (by decide), h.target.temp]

/-- What stepping ends in is the outcome. -/
theorem outcome_eq (h : d.RepAt rep opcode nextWord s) :
    let target := emitInstruction (decode opcode) (maskPc (s.pc + 1)) nextWord
    let w := d.repeated target (d.repCount rep s).1.toNat (d.repEntered rep s)
    w.setReg Reg.lc (w.registers Reg.temp) = d.repOutcome rep target s := by
  dsimp only
  rw [h.repeated_temp, h.entered_temp]
  rfl

/-- The REP itself, called: the count is in LC, and both flags are set. -/
theorem call (h : d.RepAt rep opcode nextWord s) {repFunc : φ}
    (hrep : d.Compiles e (emitInstruction rep s.pc opcode) repFunc) :
    let t := (e.call repFunc { s with pcAdvance := 1 }).1
    t.data = (d.repEntered rep s).data ∧ t.pc = s.pc ∧ t.pcAdvance = 1 ∧ t.loopRep = true ∧
      t.pcOnRep = true := by
  have hs : { s with pcAdvance := 1 }.data = s.data := rfl
  have hcount : maskLc (d.repCount rep { s with pcAdvance := 1 }).1 =
      (d.repCount rep { s with pcAdvance := 1 }).1 := by
    rw [(repCount_data rep hs).1]
    exact h.count
  dsimp only
  rw [hrep]
  obtain ⟨hdata, hpc, hadv, hloop, hon⟩ :=
    call_rep (d := d) h.isRep s.pc opcode hcount
  exact ⟨hdata.trans (repEntered_data rep hs), hpc, hadv, hloop, hon⟩

/-- The REP itself, stepped with something to repeat. -/
theorem step_first {s₀ : DspState σ} {repOpcode : Word} {repFunc : φ}
    (h : d.RepAt rep opcode nextWord s)
    (hrep : d.Compiles e (emitInstruction rep s.pc opcode) repFunc)
    (hgate : s₀.armedGate repOpcode 1 = some s) (hn : (d.repCount rep s).1 ≠ 0)
    (hend : ¬ (d.repEntered rep s).AtLoopEnd (maskPc (s.pc + 1))) :
    let t := (execute e s₀ repOpcode repFunc 1).1
    s.Locked e repFunc ∧ t.Repeating (maskPc (s.pc + 1)) ∧
      t.data = (d.repEntered rep s).data := by
  obtain ⟨hdata, hpc, hadv, hloop, hon⟩ := h.call hrep
  obtain ⟨n, hstep⟩ := execute_of_gate (e := e) hgate repFunc
  have hreg := registers_of_data hdata
  have hlc : (e.call repFunc { s with pcAdvance := 1 }).1.registers Reg.lc ≠ 0 := by
    rw [hreg, entered_lc]
    exact hn
  have hend' : ¬ (e.call repFunc { s with pcAdvance := 1 }).1.AtLoopEnd
      (maskPc ((e.call repFunc { s with pcAdvance := 1 }).1.pc + 1)) := by
    rw [hpc, AtLoopEnd, hreg]
    exact hend
  obtain ⟨hr, hd⟩ := advancePc_first hloop hon hadv hlc hend'
  rw [hpc] at hr
  dsimp only
  rw [hstep, hr.locked]
  exact ⟨hr.locked, ⟨hr.loopRep, hr.pcOnRep, hr.pc⟩, hd.trans hdata⟩

/-- The REP itself, stepped with nothing to repeat. -/
theorem step_annulled {s₀ : DspState σ} {repOpcode : Word} {repFunc : φ}
    (h : d.RepAt rep opcode nextWord s)
    (hrep : d.Compiles e (emitInstruction rep s.pc opcode) repFunc)
    (hgate : s₀.armedGate repOpcode 1 = some s) (hn : (d.repCount rep s).1 = 0) :
    let w := d.repEntered rep s
    (execute e s₀ repOpcode repFunc 1).1.Retires (w.setReg Reg.lc (w.registers Reg.temp))
      (maskPc (s.pc + 2)) := by
  obtain ⟨hdata, hpc, hadv, hloop, hon⟩ := h.call hrep
  obtain ⟨n, hstep⟩ := execute_of_gate (e := e) hgate repFunc
  have hreg := registers_of_data hdata
  have hlc : (e.call repFunc { s with pcAdvance := 1 }).1.registers Reg.lc = 0 := by
    rw [hreg, entered_lc]
    exact hn
  obtain ⟨t, ht, htwo, hret⟩ := advancePc_annulled hloop hon hadv hlc
  refine ⟨t, n, ⟨hret.data.trans (data_truncate ?_), ?_, hret.loopRep, hret.pcOnRep⟩, ?_, ?_⟩
  · rw [hreg]
    exact data_setReg hdata Reg.lc _
  · rw [hret.pc, hpc]
  · rw [htwo]
    decide
  · rw [hstep, ht]

/-- The block's end behind a REP with something to repeat: stepping takes over on the target. -/
theorem legacy_repeating (h : d.RepAt rep opcode nextWord s)
    (hn : (d.repCount rep s).1 ≠ 0) :
    let t := d.legacyBlock rep s.pc opcode s
    t.Repeating (maskPc (s.pc + 1)) ∧ t.data = (d.repEntered rep s).data := by
  obtain ⟨hdata, hpc, -, hloop, -⟩ :=
    call_rep (d := d) h.isRep s.pc opcode h.count
  have hlc : (d.after (emitInstruction rep s.pc opcode) s).registers Reg.lc ≠ 0 := by
    rw [registers_of_data hdata, entered_lc]
    exact hn
  have hrun : d.after (do emitInstruction rep s.pc opcode; emitRepFirstCallArm s.pc) s =
      { d.after (emitInstruction rep s.pc opcode) s with
        pcOnRep := false, pc := maskPc (s.pc + 1), pcAdvance := 0 } := by
    refine (congrArg Prod.snd (Code.run_bind d.exec (emitInstruction rep s.pc opcode)
      (fun _ => emitRepFirstCallArm s.pc) s)).trans ?_
    exact run_firstCallArm hlc
  let u := { d.after (emitInstruction rep s.pc opcode) s with
    pcOnRep := false, pc := maskPc (s.pc + 1), pcAdvance := 0 }
  obtain ⟨hsame, hadv⟩ := same_checkUnimplementedModes u
  have hu : u.Repeating (maskPc (s.pc + 1)) := ⟨hloop, rfl, rfl⟩
  have hr := hu.of_same hsame
  dsimp only
  rw [legacyBlock, hrun, afterBlock, advanceDo_of_branch hadv, hr.locked]
  exact ⟨hr, hsame.data.trans hdata⟩

/-- From the target on, stepping a REP with something to repeat. -/
theorem stepped (h : d.RepAt rep opcode nextWord s) {func : φ}
    (hfunc : d.Compiles e (emitInstruction (decode opcode) (maskPc (s.pc + 1)) nextWord) func)
    (hn : 0 < (d.repCount rep s).1.toNat) {first : DspState σ}
    (hfirst : first.Repeating (maskPc (s.pc + 1)))
    (hdata : first.data = (d.repEntered rep s).data) :
    let n := (d.repCount rep s).1.toNat
    let step u := (execute e u opcode func 1).1
    (∀ k < n, (step^[k] first).Repeating (maskPc (s.pc + 1))) ∧
      (∀ k, k + 1 < n → (step^[k] first).Locked e func) ∧
      (step^[n] first).Retires
        (d.repOutcome rep (emitInstruction (decode opcode) (maskPc (s.pc + 1)) nextWord) s)
        (maskPc (s.pc + 2)) := by
  obtain ⟨m, hm⟩ := Nat.exists_eq_succ_of_ne_zero hn.ne'
  have hlt := h.count_lt
  have hlc : (d.repEntered rep s).registers Reg.lc = BitVec.ofNat 32 (m + 1) := by
    rw [entered_lc, ← Nat.succ_eq_add_one, ← hm, BitVec.ofNat_toNat, BitVec.setWidth_eq]
  have hmask : maskPc (maskPc (s.pc + 1)) = maskPc (s.pc + 1) := by
    rw [maskPc, maskPc, BitVec.and_assoc, BitVec.and_self]
  have hnext : maskPc (maskPc (s.pc + 1) + 1) = maskPc (s.pc + 2) := by
    rw [maskPc_succ, BitVec.add_assoc]
    rfl
  rw [← hmask] at hfirst
  obtain ⟨hrun, hlock, hret⟩ := h.target.steps hfunc (by omega) hfirst hdata hlc
  have hout := h.outcome_eq
  dsimp only at hout ⊢
  rw [hm] at hout ⊢
  rw [hout, hnext] at hret
  rw [hmask] at hrun
  exact ⟨fun k hk => hrun k (by omega), fun k hk => hlock k (by omega), hret⟩

/-! The inlined REP. -/

theorem run_inlineSetup (h : d.RepAt rep opcode nextWord s) :
    (emitRepInlineSetup rep).run d.exec s = ((d.repCount rep s).1, d.repEntered rep s) := by
  have hrun : (emitRepInlineSetup rep).run d.exec s = ((d.repCount rep s).1,
      (d.repCount rep s).2.setReg Reg.lc (maskReg Reg.lc (d.repCount rep s).1)) :=
    Code.run_bind d.exec (emitRepLcValue rep) _ _
  rw [hrun, repEntered, ← h.count, maskReg_lc_maskLc]

/-- An iteration of the inlined loop: the count read at its top is the one behind the target. -/
theorem run_iteration (h : d.RepAt rep opcode nextWord s) (v : DspState σ) :
    d.after (emitRepIteration (decode opcode) (maskPc (s.pc + 1)) nextWord) v =
      countDown (d.after (emitInstruction (decode opcode) (maskPc (s.pc + 1)) nextWord) v) := by
  have hrun : d.after (emitRepIteration (decode opcode) (maskPc (s.pc + 1)) nextWord) v =
      (d.after (emitInstruction (decode opcode) (maskPc (s.pc + 1)) nextWord) v).setReg Reg.lc
        (maskReg Reg.lc (maskLc (v.registers Reg.lc - 1))) :=
    congrArg Prod.snd (Code.run_bind d.exec
      (emitInstruction (decode opcode) (maskPc (s.pc + 1)) nextWord) _ v)
  rw [hrun, maskReg_lc_maskLc, countDown, h.target.lc]

theorem inlineIterate_next (h : d.RepAt rep opcode nextWord s) {n : Nat} (hn : n + 1 < 2 ^ 24)
    {v : DspState σ} (hlc : v.registers Reg.lc = BitVec.ofNat 32 (n + 1)) :
    let u := countDown (d.after (emitInstruction (decode opcode) (maskPc (s.pc + 1)) nextWord) v)
    u.registers Reg.lc = BitVec.ofNat 32 n ∧
      d.inlineIterate (decode opcode) (maskPc (s.pc + 1)) nextWord (false, v) =
        some (decide (n = 0), u) := by
  intro u
  have hlc' : u.registers Reg.lc = BitVec.ofNat 32 n := by
    show (countDown _).registers Reg.lc = _
    rw [countDown, setReg_same, h.target.lc, hlc, Target.maskLc_pred hn]
  have hzero : (u.registers Reg.lc = 0) = (n = 0) := by
    rw [hlc', eq_iff_iff, BitVec.toNat_eq]
    rw [BitVec.toNat_ofNat, Nat.mod_eq_of_lt (by omega)]
    rfl
  refine ⟨hlc', ?_⟩
  rw [inlineIterate, h.run_iteration]
  exact congrArg (fun b => some (b, u)) (decide_eq_decide.mpr (iff_of_eq hzero))

/-- The inlined loop applies the target once for each count. -/
theorem loop_ends (h : d.RepAt rep opcode nextWord s) {n : Nat} (hn : n + 1 < 2 ^ 24)
    {v : DspState σ} (hlc : v.registers Reg.lc = BitVec.ofNat 32 (n + 1)) :
    Ends (d.inlineIterate (decode opcode) (maskPc (s.pc + 1)) nextWord) (false, v)
      (true, d.repeated (emitInstruction (decode opcode) (maskPc (s.pc + 1)) nextWord) (n + 1)
        v) := by
  obtain ⟨hlc', hnext⟩ := h.inlineIterate_next hn hlc
  apply (ends_of_some hnext).mpr
  induction n generalizing v with
  | zero => exact (ends_of_none rfl).mpr rfl
  | succ n ih =>
    obtain ⟨hlc'', hnext'⟩ := h.inlineIterate_next (by omega) hlc'
    rw [decide_eq_false (by omega)]
    exact (ends_of_some hnext').mpr (ih (by omega) hlc' hlc'' hnext')

/-- The inlined REP ends, and in the outcome. -/
theorem runsInline_iff (h : d.RepAt rep opcode nextWord s) (hin : maskPc (s.pc + 1) = s.pc + 1)
    (t : DspState σ) : d.RunsInline rep (decode opcode) s.pc nextWord s t ↔
      t = d.repOutcome rep (emitInstruction (decode opcode) (maskPc (s.pc + 1)) nextWord) s := by
  let target := emitInstruction (decode opcode) (maskPc (s.pc + 1)) nextWord
  let w := d.repeated target (d.repCount rep s).1.toNat (d.repEntered rep s)
  have hrestore : d.after emitRepRestore w = d.repOutcome rep target s := by
    rw [← h.outcome_eq]
    show w.setReg Reg.lc (maskReg Reg.lc (w.registers Reg.temp)) = _
    rw [h.repeated_temp, h.entered_temp, ← h.lc, maskReg_lc_maskLc]
  have hat : d.inlineIterate (decode opcode) (s.pc + 1) nextWord =
      d.inlineIterate (decode opcode) (maskPc (s.pc + 1)) nextWord := by
    rw [hin]
  unfold RunsInline
  rw [h.run_inlineSetup, hat]
  dsimp only
  split
  · rename_i hzero
    have hw : w = d.repEntered rep s := by
      show d.repeated target (d.repCount rep s).1.toNat (d.repEntered rep s) = _
      rw [hzero]
      rfl
    rw [← hrestore, hw]
  · rename_i hpos
    obtain ⟨n, hn⟩ : ∃ n, (d.repCount rep s).1.toNat = n + 1 :=
      Nat.exists_eq_succ_of_ne_zero fun h0 => hpos (BitVec.eq_of_toNat_eq h0)
    have hlt := h.count_lt
    have hlc : (d.repEntered rep s).registers Reg.lc = BitVec.ofNat 32 (n + 1) := by
      rw [entered_lc, ← hn, BitVec.ofNat_toNat, BitVec.setWidth_eq]
    have hends := h.loop_ends (by omega) hlc
    rw [← hn] at hends
    constructor
    · rintro ⟨u, hu, rfl⟩
      have huw : u = w := congrArg Prod.snd (hu.unique hends)
      rw [huw, hrestore]
    · intro ht
      exact ⟨w, hends, ht.trans hrestore.symm⟩

theorem repeated_control (h : d.RepAt rep opcode nextWord s) (n : Nat) (v : DspState σ) :
    let w := d.repeated (emitInstruction (decode opcode) (maskPc (s.pc + 1)) nextWord) n v
    w.loopRep = v.loopRep ∧ w.pcOnRep = v.pcOnRep ∧ w.interrupts.state = v.interrupts.state := by
  induction n generalizing v with
  | zero => exact ⟨rfl, rfl, rfl⟩
  | succ n ih =>
    obtain ⟨hrep, hon, hstate⟩ := ih (countDown (d.after
      (emitInstruction (decode opcode) (maskPc (s.pc + 1)) nextWord) v))
    obtain ⟨-, hrep', hon', hstate'⟩ := run_control (d := d) h.target.plain v
    exact ⟨hrep.trans hrep', hon.trans hon', hstate.trans hstate'⟩

/-- The outcome has the flags and the interrupt in flight it started with. -/
theorem outcome_control (h : d.RepAt rep opcode nextWord s) :
    let r := d.repOutcome rep (emitInstruction (decode opcode) (maskPc (s.pc + 1)) nextWord) s
    r.loopRep = s.loopRep ∧ r.pcOnRep = s.pcOnRep ∧
      r.interrupts.state = s.interrupts.state := by
  obtain ⟨hrep, hon, hstate⟩ := h.repeated_control (d.repCount rep s).1.toNat (d.repEntered rep s)
  obtain ⟨-, -, hrep', hon', hstate', -⟩ := run_fetch (d := d) (emitRepLcValue_fetches rep)
    (s.setReg Reg.temp (maskReg Reg.temp (s.registers Reg.lc)))
  exact ⟨hrep.trans hrep', hon.trans hon', hstate.trans hstate'⟩

/-- A block that holds an inlined REP ends, and in the outcome. -/
theorem runsBlock_retired (h : d.RepAt rep opcode nextWord s) (hin : maskPc (s.pc + 1) = s.pc + 1)
    (hstate : s.interrupts.state = .none) (hrep : s.loopRep = false) (hon : s.pcOnRep = false) :
    let r := d.repOutcome rep (emitInstruction (decode opcode) (maskPc (s.pc + 1)) nextWord) s
    (∃ t, d.RunsBlock rep (decode opcode) s.pc nextWord s t) ∧
      ∀ t, d.RunsBlock rep (decode opcode) s.pc nextWord s t → t.Retired r (maskPc (s.pc + 2)) := by
  obtain ⟨hrep', hon', hstate'⟩ := h.outcome_control
  refine ⟨⟨_, _, (h.runsInline_iff hin _).mpr rfl, rfl⟩, ?_⟩
  rintro t ⟨u, hu, rfl⟩
  rw [h.runsInline_iff hin] at hu
  subst hu
  refine ⟨?_, ?_, hrep'.trans hrep, hon'.trans hon⟩
  · rw [repTruncateArmedWindow_of_none (hstate'.trans hstate)]
    rfl
  · rw [h.target.oneWord]
    show maskPc (s.pc + 1 + 1) = _
    rw [BitVec.add_assoc]
    rfl

end RepAt

end DataPaths

end Emitter

open Emitter.DataPaths

/-- All paths of REP apply its target as many times as the count says and restore LC. Stepped, it
is not interrupted before its last iteration; inlined, or handed from a block to stepping with
something to repeat, it comes to the same. -/
theorem rep_paths {opcode nextWord repOpcode : Word} {repFunc func : φ} {s₀ s : DspState σ}
    (h : d.RepAt (decode repOpcode) opcode nextWord s)
    (hrep : d.Compiles e (emitInstruction (decode repOpcode) s.pc opcode) repFunc)
    (hfunc : d.Compiles e (emitInstruction (decode opcode) (maskPc (s.pc + 1)) nextWord) func)
    (hgate : s₀.armedGate repOpcode 1 = some s)
    (hend : 0 < (d.repCount (decode repOpcode) s).1.toNat →
      ¬ (d.repEntered (decode repOpcode) s).AtLoopEnd (maskPc (s.pc + 1))) :
    let n := (d.repCount (decode repOpcode) s).1.toNat
    let r := d.repOutcome (decode repOpcode)
      (emitInstruction (decode opcode) (maskPc (s.pc + 1)) nextWord) s
    let step u := (execute e u opcode func 1).1
    let next := maskPc (s.pc + 2)
    let first := (execute e s₀ repOpcode repFunc 1).1
    ((0 < n → s.Locked e repFunc) ∧ (∀ k < n, (step^[k] first).Repeating (maskPc (s.pc + 1))) ∧
      (∀ k, k + 1 < n → (step^[k] first).Locked e func) ∧ (step^[n] first).Retires r next) ∧
    (maskPc (s.pc + 1) = s.pc + 1 → s.interrupts.state = .none → s.loopRep = false →
      s.pcOnRep = false →
      (∃ t, d.RunsBlock (decode repOpcode) (decode opcode) s.pc nextWord s t) ∧
      ∀ t, d.RunsBlock (decode repOpcode) (decode opcode) s.pc nextWord s t → t.Retired r next) ∧
    (0 < n →
      let first := d.legacyBlock (decode repOpcode) s.pc opcode s
      (∀ k < n, (step^[k] first).Repeating (maskPc (s.pc + 1))) ∧
      (∀ k, k + 1 < n → (step^[k] first).Locked e func) ∧ (step^[n] first).Retires r next) := by
  intro n r step next first
  have hne (hn : 0 < n) : (d.repCount (decode repOpcode) s).1 ≠ 0 := by
    intro hzero
    have hz : n = 0 := congrArg BitVec.toNat hzero
    omega
  refine ⟨?_, h.runsBlock_retired, ?_⟩
  · rcases Nat.eq_zero_or_pos n with hn | hn
    · have hret := h.step_annulled hrep hgate (BitVec.eq_of_toNat_eq hn)
      have hout := h.outcome_eq
      dsimp only at hout hret
      rw [show (d.repCount (decode repOpcode) s).1.toNat = 0 from hn, repeated] at hout
      rw [hout] at hret
      refine ⟨by omega, by omega, by omega, ?_⟩
      rw [hn]
      exact hret
    · obtain ⟨hlock, hfirst, hdata⟩ := h.step_first hrep hgate (hne hn) (hend hn)
      exact ⟨fun _ => hlock, h.stepped hfunc hn hfirst hdata⟩
  · intro hn
    obtain ⟨hfirst, hdata⟩ := h.legacy_repeating (hne hn)
    exact h.stepped hfunc hn hfirst hdata

namespace Emitter

set_option linter.constructorNameAsVariable false

/-- Data paths of a core with plain registers and nothing else. -/
def registerPaths : DataPaths σ where
  run
    | _, .readRegForMove idx, s => (s.registers (regAt idx), s)
    | _, .writeRegForMove idx v, s => ((), s.setReg (regAt idx) (maskReg (regAt idx) v))
    | _, op, s => (op.silent, s)
  data := by
    intro γ op s t h
    cases op with
    | readRegForMove idx => exact ⟨congrFun (registers_of_data h) _, h⟩
    | writeRegForMove idx v => exact ⟨rfl, data_setReg h _ _⟩
    | _ => exact ⟨rfl, h⟩
  pc := by intro γ op s; cases op <;> rfl
  pcAdvance := by intro γ op s; cases op <;> rfl
  loopRep := by intro γ op s; cases op <;> rfl
  pcOnRep := by intro γ op s; cases op <;> rfl
  state := by intro γ op s _; cases op <;> rfl
  temp := by
    intro γ op s h
    cases op with
    | writeRegForMove idx v => exact setReg_other _ _ (Ne.symm h)
    | _ => rfl

/-- Instructions run as the code emitted for them. -/
def interpreter : Translator σ (Instruction × Word × Word) where
  compileBlock := fun pc _ generation _ w => (⟨(.nop, pc, 0), pc + 1, generation, true⟩, w)
  compileInstruction := fun inst pc nextWord _ => (inst, pc, nextWord)
  call := fun f s => (registerPaths.after (emitInstruction f.1 f.2.1 f.2.2) s, 1)
  call_budget := by
    intro f s n
    have h := Code.run_rel (h := (registerPaths (σ := σ)).exec)
      (R := fun s t => t = { s with cycleBudget := n }) (by
        rintro γ op s _ rfl
        cases op <;> exact ⟨rfl, rfl⟩) (emitInstruction f.1 f.2.1 f.2.2)
        (rfl : { s with cycleBudget := n } = _)
    exact congrArg (·, 1) h.2

end Emitter

open Emitter

theorem interpreter_compiles (inst : Instruction) (pc nextWord : Word) :
    (registerPaths (σ := σ)).Compiles interpreter (emitInstruction inst pc nextWord)
      (inst, pc, nextWord) := fun _ => rfl

/-- A core at address 0, with nothing in its memory. -/
def fresh : DspState Unit := .new ⟨[], [], []⟩ ⟨fun _ => 0, ()⟩

theorem decode_rep_two : decode 0x0602A0 = .repImm 2 := by
  rw [decode_at 170 rfl (by decide) (by decide) (by decide)]
  rfl

theorem decode_move_lc : decode 0x0501BF = .movecImm 1 0x3F := by
  rw [decode_at 139 rfl (by decide) (by decide) (by decide)]
  rfl

/-- The word at PC stepped as the instruction it decodes to. -/
def stepWord (inst : Instruction) (opcode nextWord : Word) (s : DspState Unit) : DspState Unit :=
  (execute interpreter s opcode (inst, s.pc, nextWord) 1).1

/-- Twice a move of 1 to LC: the inlined loop goes round twice, stepping leaves behind the first
application. A REP in the last word of a loop repeats what is at the top of that loop. -/
theorem rep_of_move_lc :
    let first := stepWord (decode 0x0602A0) 0x0602A0 0x0501BF fresh
    let second := stepWord (decode 0x0501BF) 0x0501BF 0 first
    let entered := registerPaths.repEntered (decode 0x0602A0) fresh
    let last := (fresh.setReg Reg.sr (1#32 <<< Sr.lf)).setReg Reg.la 0
    let back := stepWord (decode 0x0602A0) 0x0602A0 0 last
    ((registerPaths.repCount (decode 0x0602A0) fresh).1 = 2 ∧ first.loopRep = true ∧
      second.loopRep = false ∧ second.pc = 2) ∧
    (∃ u v, registerPaths.inlineIterate (decode 0x0501BF) 1 0 (false, entered) = some (false, u) ∧
      registerPaths.inlineIterate (decode 0x0501BF) 1 0 (false, u) = some (true, v)) ∧
    back.loopRep = true ∧ back.pc = 0 := by
  dsimp only
  rw [decode_rep_two, decode_move_lc]
  exact ⟨⟨rfl, rfl, rfl, rfl⟩, ⟨_, _, rfl, rfl⟩, rfl, rfl⟩

theorem nop_target : registerPaths.Target (σ := Unit) 0 1 0 where
  oneWord := by rw [decode_nop]; rfl
  plain := by
    rw [decode_nop]
    exact ⟨trivial, fun _ => ⟨trivial, fun _ => ⟨trivial, fun _ => trivial⟩⟩⟩
  lc := by rw [decode_nop]; exact fun _ => rfl
  temp := by rw [decode_nop]; exact fun _ => rfl

theorem rep_two_nops :
    let step (s : DspState Unit) := (execute interpreter s 0 (decode 0, 1, 0) 1).1
    let first := (execute interpreter fresh 0x0602A0 (decode 0x0602A0, 0, 0) 1).1
    let outcome := registerPaths.repOutcome (decode 0x0602A0) (emitInstruction (decode 0) 1 0) fresh
    (step^[2] first).Retires outcome 2 ∧
      ∀ t, registerPaths.RunsBlock (decode 0x0602A0) (decode 0) 0 0 fresh t →
        t.Retired outcome 2 := by
  have h : registerPaths.RepAt (decode 0x0602A0) 0 0 fresh := by
    rw [decode_rep_two]
    exact ⟨rfl, nop_target, rfl, rfl⟩
  have hend : ¬ (registerPaths.repEntered (decode 0x0602A0) fresh).AtLoopEnd
      (maskPc (fresh.pc + 1)) := by
    rw [decode_rep_two]
    exact fun hlf => hlf.1 rfl
  have hcount : (registerPaths.repCount (decode 0x0602A0) fresh).1.toNat = 2 := by
    rw [decode_rep_two]
    rfl
  have hgate : fresh.armedGate 0x0602A0 1 = some fresh := if_neg (by decide)
  obtain ⟨⟨-, -, -, hstepped⟩, hblock, -⟩ := rep_paths h
    (interpreter_compiles (decode 0x0602A0) 0 0) (interpreter_compiles (decode 0) 1 0) hgate
    fun _ => hend
  rw [hcount] at hstepped
  exact ⟨hstepped, (hblock rfl rfl rfl rfl).2⟩

end Dsp56300
