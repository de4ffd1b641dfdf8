import Dsp56300.Emu.InterruptReturn
import Dsp56300.Emu.PcAdvance

/-! The stack errors that the core's own steps post: at a loop end and for a long interrupt. -/

namespace Dsp56300.DspState

variable {σ : Type}

theorem stackPop_hint (s : DspState σ) : s.stackPop.2.faultBudgetHint =
    if s.PopFaults then invalidFaultBudget else s.faultBudgetHint := by
  have hreg (s : DspState σ) (r : RegIdx) (v : Word) :
      (s.setReg r v).faultBudgetHint = s.faultBudgetHint := rfl
  simp only [stackPop, mirrorSlots, hreg, apply_ite DspState.faultBudgetHint]
  exact if_congr Iff.rfl rfl rfl

theorem stackPush_hint (s : DspState σ) (v w : Word) : (s.stackPush v w).faultBudgetHint =
    if s.PushFaults then invalidFaultBudget else s.faultBudgetHint := by
  have hreg (s : DspState σ) (r : RegIdx) (v : Word) :
      (s.setReg r v).faultBudgetHint = s.faultBudgetHint := rfl
  have hslot (s : DspState σ) (h : Fin 2) (i : Fin 16) (v : Word) :
      (s.setSlot h i v).faultBudgetHint = s.faultBudgetHint := rfl
  simp only [stackPush, mirrorSlots, hreg, hslot, apply_ite DspState.faultBudgetHint, ite_self]
  exact if_congr Iff.rfl rfl rfl

theorem stackPop_budget (s : DspState σ) : s.stackPop.2.interrupts.faultBudget =
    if s.PopFaults then s.faultBudgetHint else s.interrupts.faultBudget := by
  rw [stackPop_interrupts]
  split <;> rfl

theorem stackPush_budget (s : DspState σ) (v w : Word) :
    (s.stackPush v w).interrupts.faultBudget =
      if s.PushFaults then s.faultBudgetHint else s.interrupts.faultBudget := by
  rw [stackPush_interrupts]
  split <;> rfl

/-! Loop ends. -/

/-- PC has fallen through LA for the last time: the enclosing loop is unstacked. -/
def EndsLoop (s : DspState σ) : Prop :=
  (s.registers Reg.sr &&& (1#32 <<< Sr.lf) ≠ 0 ∧ s.pcAdvance ≠ 0 ∧
    s.pc = maskPc (s.registers Reg.la + 1)) ∧
  (s.registers Reg.lc - 1) &&& regMasks Reg.lc = 0 ∧ s.registers Reg.sr &&& (1#32 <<< Sr.fv) = 0

instance (s : DspState σ) : Decidable s.EndsLoop := inferInstanceAs (Decidable (_ ∧ _))

/-- The core where the loop end pops (PC, SR). -/
def countedDown (s : DspState σ) : DspState σ :=
  s.setReg Reg.lc ((s.registers Reg.lc - 1) &&& regMasks Reg.lc)

/-- The cores that a loop end pops the stack of. -/
def loopEndPops (s : DspState σ) : List (DspState σ) :=
  if s.EndsLoop then [s.countedDown, s.countedDown.unstackSr] else []

theorem advanceDo_of_endsLoop {s : DspState σ} (h : s.EndsLoop) :
    s.advanceDo = s.countedDown.unstackSr.unstackLoop := by
  rw [advanceDo_eq, if_pos h.1]
  apply if_pos
  simpa (disch := decide) only [setReg_same, setReg_other] using h.2

/-- Without a loop end nothing is popped. -/
theorem advanceDo_of_not_endsLoop {s : DspState σ} (h : ¬ s.EndsLoop) :
    s.advanceDo.faultBudgetHint = s.faultBudgetHint ∧ s.advanceDo.interrupts = s.interrupts := by
  rw [advanceDo_eq]
  split
  · rename_i hl
    have hn : ¬ ((s.registers Reg.lc - 1) &&& regMasks Reg.lc = 0 ∧
        s.registers Reg.sr &&& (1#32 <<< Sr.fv) = 0) := fun hc => h ⟨hl, hc⟩
    unfold loopEnd
    simp (disch := decide) only [setReg_same, setReg_other]
    rw [if_neg hn]
    exact ⟨rfl, rfl⟩
  · exact ⟨rfl, rfl⟩

/-- SE is clear and the stack holds fewer than the two frames a loop end pops. -/
def Underflows (s : DspState σ) : Prop :=
  s.registers Reg.sp &&& 0x10 = 0 ∧ s.registers Reg.sp &&& 0xF < 2

instance (s : DspState σ) : Decidable s.Underflows := inferInstanceAs (Decidable (_ ∧ _))

theorem pop_spec : ∀ sp : BitVec 6,
    let next : Word := ((sp.setWidth 32 &&& (1#32 <<< 5)) ||| (sp.setWidth 32 &&& (1#32 <<< 4)) |||
      ((sp.setWidth 32 &&& 0xF) - 1)) &&& 0x3F
    let fails (v : Word) : Prop := v &&& 0x10 = 0 ∧ ((v &&& 0xF) - 1) &&& 0x10 ≠ 0
    (fails (sp.setWidth 32) ∨ fails next ↔
      sp.setWidth 32 &&& (0x10 : Word) = 0 ∧ sp.setWidth 32 &&& (0xF : Word) < 2) ∧
    (fails (sp.setWidth 32) → ¬ fails next) := by decide

theorem and_mask6 (v m : Word) (hm : 0x3F &&& m = m) :
    v &&& m = (v.setWidth 6).setWidth 32 &&& m := by
  rw [← mask6, BitVec.and_assoc, hm]

theorem unstackSr_sp (s : DspState σ) : s.unstackSr.registers Reg.sp =
    ((s.registers Reg.sp &&& (1#32 <<< 5)) ||| (s.registers Reg.sp &&& (1#32 <<< 4)) |||
      ((s.registers Reg.sp &&& 0xF) - 1)) &&& 0x3F := by
  simp (disch := decide) only [unstackSr, stackPop, setReg_other, mirrorSlots_other, setReg_same]

/-- One of the two pops fails exactly if the stack underflows, and the other one does not. -/
theorem pops_fault (s : DspState σ) : (s.PopFaults ∨ s.unstackSr.PopFaults ↔ s.Underflows) ∧
    (s.PopFaults → ¬ s.unstackSr.PopFaults) := by
  have h := pop_spec ((s.registers Reg.sp).setWidth 6)
  dsimp only at h
  rw [← and_mask6 _ (1#32 <<< 5) (by decide), ← and_mask6 _ (1#32 <<< 4) (by decide),
    ← and_mask6 _ 0xF (by decide), ← and_mask6 _ 0x10 (by decide), ← unstackSr_sp] at h
  exact h

theorem unstackSr_hint (s : DspState σ) :
    s.unstackSr.faultBudgetHint = s.stackPop.2.faultBudgetHint := rfl

/-- What a loop end records is the hint it finds. -/
theorem loopEndPops_budget {s u : DspState σ} (hu : u ∈ s.loopEndPops) (hf : u.PopFaults) :
    u.stackPop.2.interrupts.faultBudget = s.faultBudgetHint := by
  rw [stackPop_budget, if_pos hf]
  unfold loopEndPops at hu
  split at hu
  · rcases List.mem_pair.mp hu with rfl | rfl
    · rfl
    · have hn : ¬ s.countedDown.PopFaults := fun h => (pops_fault s.countedDown).2 h hf
      rw [unstackSr_hint, stackPop_hint, if_neg hn]
      rfl
  · cases hu

theorem loopEndPops_fault (s : DspState σ) :
    (∃ u ∈ s.loopEndPops, u.PopFaults) ↔ s.EndsLoop ∧ s.Underflows := by
  have hsp : s.countedDown.Underflows ↔ s.Underflows := by
    unfold Underflows countedDown
    simp (disch := decide) only [setReg_other]
  unfold loopEndPops
  by_cases h : s.EndsLoop
  · rw [if_pos h, and_iff_right h, ← hsp, ← (pops_fault s.countedDown).1]
    simp
  · rw [if_neg h]
    simp [h]

/-! Long interrupts. -/

/-- A call stands at `addr`. -/
def callAt (s : DspState σ) (addr : Word) : Bool :=
  isSubroutineCall (decode (s.map.readMemory .p addr s.world).1)

/-- The source whose parked fault is delivered. -/
def parkedSource (s : DspState σ) : Option (Fin Interrupt.count) :=
  (List.finRange Interrupt.count).find?
    fun i => s.interrupts.pending i && s.interrupts.ipl i = 3

/-- The address that a tick fetches an interrupt's word from. -/
def fetchAddress (s : DspState σ) : Option Word :=
  if s.loopRep then none
  else
    match s.interrupts.state with
    | .fast =>
      match s.interrupts.pipelineStage with
      | 4 => some s.interrupts.vectorAddr
      | 3 => if s.pc = maskPc (s.interrupts.vectorAddr + 1) then some s.pc else none
      | _ => none
    | .parked =>
      if (countParked s.interrupts).parkedCountdown = 0 then s.parkedSource.map s.vectorOf
      else none
    | _ => none

/-- A tick that finds a call in the interrupt's words stacks the context. -/
def stacksContext (s : DspState σ) : Bool := s.fetchAddress.any s.callAt

/-- Where `c` holds the hint has been recorded and consumed, elsewhere it stands. -/
structure RecordsIf (c : Prop) (hint : Word) (t : DspState σ) : Prop where
  budget : c → t.interrupts.faultBudget = hint
  consumed : c → t.faultBudgetHint = invalidFaultBudget
  stands : ¬ c → t.faultBudgetHint = hint

theorem recordsIf_false {c : Prop} {t : DspState σ} (h : ¬ c) :
    RecordsIf c t.faultBudgetHint t := ⟨fun hc => absurd hc h, fun hc => absurd hc h, fun _ => rfl⟩

/-- Neither depends on anything but the two fields. -/
theorem RecordsIf.congr {c : Prop} {hint : Word} {s t : DspState σ} (h : RecordsIf c hint s)
    (hb : t.interrupts.faultBudget = s.interrupts.faultBudget)
    (hh : t.faultBudgetHint = s.faultBudgetHint) : RecordsIf c hint t where
  budget hc := hb.trans (h.budget hc)
  consumed hc := hh.trans (h.consumed hc)
  stands hc := hh.trans (h.stands hc)

theorem fetchVector_records {u : DspState σ} (hl : u.interrupts.state ≠ .long) :
    RecordsIf (u.callAt u.pc = true ∧ u.PushFaults) u.faultBudgetHint u.fetchVector := by
  let t : DspState σ := { u with world := (u.map.readMemory .p u.pc u.world).2 }
  let k : DspState σ := t.setInterrupts { t.interrupts with state := .long }
  have hd : u.fetchVector = t.detectLongInterrupt u.vectorWord := rfl
  by_cases hc : u.callAt u.pc = true
  · have hcall : isSubroutineCall (decode u.vectorWord) ∧ t.interrupts.state ≠ .long := ⟨hc, hl⟩
    have hh := k.stackPush_hint k.interrupts.savedPc (k.registers Reg.sr)
    have hb := k.stackPush_budget k.interrupts.savedPc (k.registers Reg.sr)
    have hp : RecordsIf (u.callAt u.pc = true ∧ u.PushFaults) u.faultBudgetHint
        (k.stackPush k.interrupts.savedPc (k.registers Reg.sr)) := by
      refine ⟨?_, ?_, ?_⟩
      · rintro ⟨-, hf⟩
        exact hb.trans (if_pos hf)
      · rintro ⟨-, hf⟩
        exact hh.trans (if_pos hf)
      · intro hn
        exact hh.trans (if_neg fun hf => hn ⟨hc, hf⟩)
    rw [hd, detectLongInterrupt, if_pos hcall]
    exact hp.congr rfl rfl
  · have hn : ¬ (isSubroutineCall (decode u.vectorWord) ∧ t.interrupts.state ≠ .long) :=
      fun h => hc h.1
    rw [hd, detectLongInterrupt, if_neg hn]
    exact recordsIf_false (t := t) fun h => hc h.1

/-- What the delivery of an armed fault does to the hint. -/
theorem deliverArmedFault_records (s : DspState σ) :
    RecordsIf (s.callAt s.interrupts.vectorAddr = true ∧ s.PushFaults) s.faultBudgetHint
      s.deliverArmedFault := by
  have hl : s.redirect.interrupts.state ≠ .long := by
    change InterruptState.fast ≠ .long
    decide
  have h := fetchVector_records hl
  rw [deliverArmedFault_eq]
  exact h.congr rfl rfl

theorem deliverParkedFault_records (s : DspState σ) :
    RecordsIf ((s.parkedSource.map s.vectorOf).any s.callAt = true ∧ s.PushFaults)
      s.faultBudgetHint s.deliverParkedFault := by
  rw [deliverParkedFault, parkedSource]
  cases (List.finRange Interrupt.count).find? fun i =>
    s.interrupts.pending i && s.interrupts.ipl i = 3 with
  | none => exact ⟨fun h => absurd h.1 (by simp), fun h => absurd h.1 (by simp), fun _ => rfl⟩
  | some idx =>
    have h := deliverArmedFault_records (s.setInterrupts { s.interrupts.clearPending idx with
      vectorAddr := s.vectorOf idx, iplToRaise := 3 })
    exact h

theorem arbitrate_hint (s : DspState σ) : s.arbitrate.faultBudgetHint = s.faultBudgetHint := by
  simp only [arbitrate, dispatch]
  split
  · rfl
  · split
    · rfl
    · split <;> rfl

theorem countParked_source (s : DspState σ) :
    (s.setInterrupts (countParked s.interrupts)).parkedSource = s.parkedSource := by
  have hp : (countParked s.interrupts).pendingBits = s.interrupts.pendingBits ∧
      (countParked s.interrupts).ipl = s.interrupts.ipl := by
    unfold countParked
    dsimp only
    split <;> split <;> exact ⟨rfl, rfl⟩
  simp only [parkedSource, InterruptPipeline.pending, setInterrupts, hp.1, hp.2]

theorem tickParked_records (s : DspState σ) :
    RecordsIf ((if (countParked s.interrupts).parkedCountdown = 0 then
        s.parkedSource.map s.vectorOf else none).any s.callAt = true ∧ s.PushFaults)
      s.faultBudgetHint s.tickParked := by
  have hd := (s.setInterrupts (countParked s.interrupts)).deliverParkedFault_records
  rw [countParked_source] at hd
  have ht : s.tickParked = if (countParked s.interrupts).parkedCountdown = 0 then
      (s.setInterrupts (countParked s.interrupts)).deliverParkedFault
      else s.setInterrupts (countParked s.interrupts) := rfl
  rw [ht]
  by_cases hc : (countParked s.interrupts).parkedCountdown = 0
  · rw [if_pos hc, if_pos hc]
    exact hd
  · rw [if_neg hc, if_neg hc]
    exact ⟨fun h => absurd h.1 (by simp), fun h => absurd h.1 (by simp), fun _ => rfl⟩

theorem tickIdle_records {s : DspState σ} (hr : s.loopRep = false)
    (hf : s.interrupts.state ≠ .fast) :
    RecordsIf (s.stacksContext = true ∧ s.PushFaults) s.faultBudgetHint s.tickIdle := by
  unfold stacksContext fetchAddress tickIdle
  rw [hr]
  cases hs : s.interrupts.state with
  | fast => exact absurd hs hf
  | parked =>
    exact s.tickParked_records
  | armed => exact recordsIf_false (by simp)
  | none | long =>
    exact ⟨fun h => absurd h.1 (by simp), fun h => absurd h.1 (by simp),
      fun _ => s.arbitrate_hint⟩

theorem tickFast_records {s : DspState σ} (hr : s.loopRep = false)
    (hf : s.interrupts.state = .fast) :
    RecordsIf (s.stacksContext = true ∧ s.PushFaults) s.faultBudgetHint
      (if s.tickFast.2 then s.tickFast.1.tickIdle else s.tickFast.1) := by
  have hl : s.interrupts.state ≠ .long := by
    rw [hf]
    decide
  unfold stacksContext fetchAddress
  rw [hr, hf, if_neg Bool.false_ne_true]
  dsimp only
  have hn : (none : Option Word).any s.callAt ≠ true := Bool.false_ne_true
  match hst : s.interrupts.pipelineStage with
  | 4 =>
    let u : DspState σ := { s.setInterrupts { s.interrupts with savedPc := s.pc } with
      pc := s.interrupts.vectorAddr }
    have ht : s.tickFast = (u.fetchVector.nextStage, false) := by
      unfold tickFast
      rw [hst]
      rfl
    have hu := fetchVector_records (u := u) hl
    rw [ht]
    exact hu.congr rfl rfl
  | 3 =>
    have ht : s.tickFast = ((if s.pc = maskPc (s.interrupts.vectorAddr + 1) then s.fetchVector
        else s).nextStage, false) := by
      unfold tickFast
      rw [hst]
      rfl
    rw [ht]
    by_cases hp : s.pc = maskPc (s.interrupts.vectorAddr + 1)
    · rw [if_pos hp, if_pos hp]
      exact (fetchVector_records hl).congr rfl rfl
    · rw [if_neg hp, if_neg hp]
      exact ⟨fun h => absurd h.1 hn, fun h => absurd h.1 hn, fun _ => rfl⟩
  | 2 =>
    have ht : s.tickFast = ((if s.interrupts.state ≠ .long ∧
        s.pc = maskPc (s.interrupts.vectorAddr + 2) then { s with pc := s.interrupts.savedPc }
        else s).nextStage, false) := by
      unfold tickFast
      rw [hst]
      rfl
    have hh : s.tickFast.1.faultBudgetHint = s.faultBudgetHint := by
      rw [ht]
      simp only [nextStage, setInterrupts, apply_ite DspState.faultBudgetHint, ite_self]
    rw [ht] at hh ⊢
    exact ⟨fun h => absurd h.1 hn, fun h => absurd h.1 hn, fun _ => hh⟩
  | 0 =>
    let u := s.setInterrupts { s.interrupts with savedPc := 0xFFFF, vectorAddr := 0xFFFF }
    have ht : s.tickFast = if u.interrupts.faultPending then (u.setInterrupts
        { u.interrupts with state := .parked, parkedCountdown := 3, parkedSpWrite := false }, false)
        else (u.setInterrupts { u.interrupts with state := .none }, true) := by
      unfold tickFast
      rw [hst]
      rfl
    rw [ht]
    by_cases hp : u.interrupts.faultPending
    · rw [if_pos hp]
      exact ⟨fun h => absurd h.1 hn, fun h => absurd h.1 hn, fun _ => rfl⟩
    · rw [if_neg hp]
      have ha := (u.setInterrupts { u.interrupts with state := .none }).arbitrate_hint
      exact ⟨fun h => absurd h.1 hn, fun h => absurd h.1 hn, fun _ => ha⟩
  | 1 | 5 =>
    have ht : s.tickFast = (s.nextStage, false) := by
      unfold tickFast
      rw [hst]
      rfl
    rw [ht]
    exact ⟨fun h => absurd h.1 hn, fun h => absurd h.1 hn, fun _ => rfl⟩
  | n + 6 =>
    have ht : s.tickFast = (s, false) := by
      unfold tickFast
      rw [hst]
      rfl
    rw [ht]
    exact recordsIf_false fun h => hn h.1

/-- What a tick of the pipeline does to the hint. -/
theorem processPendingInterrupts_records (s : DspState σ) :
    RecordsIf (s.stacksContext = true ∧ s.PushFaults) s.faultBudgetHint
      s.processPendingInterrupts := by
  unfold processPendingInterrupts
  cases hr : s.loopRep with
  | true => exact recordsIf_false (by simp [stacksContext, fetchAddress, hr])
  | false =>
    rw [if_neg Bool.false_ne_true]
    by_cases hf : s.interrupts.state = .fast
    · rw [if_pos hf]
      exact tickFast_records hr hf
    · rw [if_neg hf]
      exact tickIdle_records hr hf

end Dsp56300.DspState
