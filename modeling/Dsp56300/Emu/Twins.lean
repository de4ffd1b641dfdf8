import Dsp56300.Emu.Arbitration
import Dsp56300.Emu.Margin

/-! Cores that differ in nothing a run shows, kept in step by the core's own steps. -/

namespace Dsp56300

variable {σ : Type}

namespace DspState

/-- The two differ in the margin alone, have the same budget, and the same countdown where a fault
is parked. -/
structure Twin (s t : DspState σ) : Prop where
  same : t = s.withMargin t.margin
  cycleBudget : t.cycleBudget = s.cycleBudget
  parked : s.interrupts.state = .parked →
    t.interrupts.parkedCountdown = s.interrupts.parkedCountdown ∧
      t.interrupts.parkedSpWrite = s.interrupts.parkedSpWrite

namespace Twin

variable {s t u : DspState σ}

theorem refl (s : DspState σ) : s.Twin s := ⟨rfl, rfl, fun _ => ⟨rfl, rfl⟩⟩

theorem state (h : s.Twin t) : t.interrupts.state = s.interrupts.state := by
  rw [h.same]
  rfl

theorem symm (h : s.Twin t) : t.Twin s where
  same := by
    have hm : t.withMargin s.margin = (s.withMargin t.margin).withMargin s.margin := by
      rw [← h.same]
    exact hm.symm
  cycleBudget := h.cycleBudget.symm
  parked hp := by
    obtain ⟨hc, hw⟩ := h.parked (h.state.symm.trans hp)
    exact ⟨hc.symm, hw.symm⟩

theorem trans (h : s.Twin t) (h' : t.Twin u) : s.Twin u where
  same := by
    have hm : t.withMargin u.margin = (s.withMargin t.margin).withMargin u.margin := by
      rw [← h.same]
    exact h'.same.trans hm
  cycleBudget := h'.cycleBudget.trans h.cycleBudget
  parked hp := by
    obtain ⟨hc, hw⟩ := h.parked hp
    obtain ⟨hc', hw'⟩ := h'.parked (h.state.trans hp)
    exact ⟨hc'.trans hc, hw'.trans hw⟩

end Twin

/-- What keeps twins twins. -/
def KeepsTwins (f : DspState σ → DspState σ) : Prop := ∀ s t, s.Twin t → (f s).Twin (f t)

namespace KeepsTwins

variable {f g : DspState σ → DspState σ}

theorem id : KeepsTwins fun s : DspState σ => s := fun _ _ h => h

theorem comp (hg : KeepsTwins g) (hf : KeepsTwins f) : KeepsTwins fun s => g (f s) :=
  fun s t h => hg _ _ (hf s t h)

theorem ite {c : DspState σ → Prop} [DecidablePred c] (hc : ∀ s m, c (s.withMargin m) = c s)
    (hf : KeepsTwins f) (hg : KeepsTwins g) : KeepsTwins fun s => if c s then f s else g s := by
  intro s t h
  have hct : c t = c s := by rw [h.same, hc]
  simp only [hct]
  split
  · exact hf s t h
  · exact hg s t h

/-- A step that leaves the margin alone keeps twins, unless it parks a fault. -/
theorem of_inner (hf : Inner f)
    (hp : ∀ s, (f s).interrupts.state = .parked → s.interrupts.state = .parked) :
    KeepsTwins f := by
  intro s t h
  have hs := hf.margin s
  have ht := hf.margin t
  refine ⟨?_, ?_, ?_⟩
  · calc f t = f (s.withMargin t.margin) := congrArg f h.same
      _ = (f s).withMargin t.margin := hf s t.margin
      _ = (f s).withMargin (f t).margin := by rw [ht]
  · exact (congrArg Margin.cycleBudget ht).trans
      (h.cycleBudget.trans (congrArg Margin.cycleBudget hs).symm)
  · intro hparked
    obtain ⟨hc, hw⟩ := h.parked (hp s hparked)
    exact ⟨(congrArg Margin.parkedCountdown ht).trans
        (hc.trans (congrArg Margin.parkedCountdown hs).symm),
      (congrArg Margin.parkedSpWrite ht).trans
        (hw.trans (congrArg Margin.parkedSpWrite hs).symm)⟩

end KeepsTwins

/-! The steps, one by one. -/

/-- Warnings are all that checking the modes changes. -/
theorem twin_checkUnimplementedModes (s : DspState σ) : s.Twin s.checkUnimplementedModes := by
  simp only [checkUnimplementedModes]
  split
  · exact Twin.refl s
  · exact ⟨rfl, rfl, fun _ => ⟨rfl, rfl⟩⟩

theorem keepsTwins_check : KeepsTwins (checkUnimplementedModes (σ := σ)) := by
  intro s t h
  exact ((twin_checkUnimplementedModes s).symm.trans h).trans (twin_checkUnimplementedModes t)

theorem postStackError_state (s : DspState σ) :
    s.postStackError.interrupts.state = s.interrupts.state :=
  InterruptPipeline.add_state s.interrupts Interrupt.stackError

theorem stackPop_state (s : DspState σ) :
    s.stackPop.2.interrupts.state = s.interrupts.state := by
  rw [stackPop_interrupts]
  split
  · exact s.postStackError_state
  · rfl

theorem advanceDo_state (s : DspState σ) : s.advanceDo.interrupts.state = s.interrupts.state := by
  simp only [advanceDo]
  split
  · split
    · simp only [setReg_interrupts, stackPop_state]
    · rfl
  · rfl

theorem repTruncateArmedWindow_state (s : DspState σ) :
    s.repTruncateArmedWindow.interrupts.state = s.interrupts.state := by
  unfold repTruncateArmedWindow
  split <;> rfl

theorem advanceRep_state (s : DspState σ) : s.advanceRep.interrupts.state = s.interrupts.state := by
  simp only [advanceRep]
  split
  · rfl
  · split
    · split
      · rfl
      · exact repTruncateArmedWindow_state _
    · split
      · exact repTruncateArmedWindow_state _
      · rfl

theorem keepsTwins_advanceDo : KeepsTwins (advanceDo (σ := σ)) :=
  .of_inner inner_advanceDo fun s h => s.advanceDo_state.symm.trans h

theorem keepsTwins_advancePc : KeepsTwins (advancePc (σ := σ)) := by
  have ha : KeepsTwins fun s : DspState σ =>
      advanceDo { s.advanceRep with pc := maskPc (s.advanceRep.pc + s.advanceRep.pcAdvance) } := by
    refine .of_inner inner_advance fun s h => ?_
    rw [advanceDo_state] at h
    exact s.advanceRep_state.symm.trans h
  exact ha.comp keepsTwins_check

theorem deliverArmedFault_not_parked (s : DspState σ) :
    s.deliverArmedFault.interrupts.state ≠ .parked := by
  obtain ⟨-, -, hst, -⟩ := deliverArmedFault_spec s
  rcases hst with h | h <;> rw [h] <;> exact nofun

theorem keepsTwins_deliverArmedFault : KeepsTwins (deliverArmedFault (σ := σ)) :=
  .of_inner inner_deliverArmedFault fun s h => absurd h s.deliverArmedFault_not_parked

theorem keepsTwins_deliverParkedFault : KeepsTwins (deliverParkedFault (σ := σ)) := by
  refine .of_inner inner_deliverParkedFault fun s h => ?_
  unfold deliverParkedFault at h
  split at h
  · cases h
  · exact absurd h (deliverArmedFault_not_parked _)

/-- Twins with a parked fault have one pipeline. -/
theorem Twin.interrupts {s t : DspState σ} (h : s.Twin t) (hp : s.interrupts.state = .parked) :
    t.interrupts = s.interrupts := by
  obtain ⟨hc, hw⟩ := h.parked hp
  have ht : t.interrupts = { s.interrupts with
      parkedCountdown := t.interrupts.parkedCountdown
      parkedSpWrite := t.interrupts.parkedSpWrite } := congrArg DspState.interrupts h.same
  rw [ht, hc, hw]

/-- Twins may be given one pipeline. -/
theorem Twin.setInterrupts {s t : DspState σ} (h : s.Twin t) (p : InterruptPipeline) :
    (s.setInterrupts p).Twin (t.setInterrupts p) where
  same := congrArg (DspState.setInterrupts · p) h.same
  cycleBudget := h.cycleBudget
  parked _ := ⟨rfl, rfl⟩

/-- The countdown of twins runs alike. -/
theorem Twin.tickParked {s t : DspState σ} (h : s.Twin t) (hp : s.interrupts.state = .parked) :
    s.tickParked.Twin t.tickParked := by
  have hc := h.setInterrupts (countParked s.interrupts)
  have ht : t.setInterrupts (countParked t.interrupts) =
      t.setInterrupts (countParked s.interrupts) := by
    rw [h.interrupts hp]
  unfold DspState.tickParked
  rw [ht]
  change Twin (if (countParked s.interrupts).parkedCountdown = 0 then _ else _)
    (if (countParked s.interrupts).parkedCountdown = 0 then _ else _)
  split
  · exact keepsTwins_deliverParkedFault _ _ hc
  · exact hc

theorem keepsTwins_arbitrate : KeepsTwins (arbitrate (σ := σ)) := by
  refine .of_inner inner_arbitrate fun s h => ?_
  unfold arbitrate at h
  split at h
  · exact h
  · split at h
    · exact h
    · rename_i idx _
      simp only [dispatch] at h
      split at h <;> cases h

theorem keepsTwins_tickIdle : KeepsTwins (tickIdle (σ := σ)) := by
  intro s t h
  unfold tickIdle
  rw [h.state]
  split
  · exact h.tickParked ‹_›
  · split
    · exact h
    · exact keepsTwins_arbitrate s t h

theorem keepsTwins_fetchVector : KeepsTwins (fetchVector (σ := σ)) := by
  refine .of_inner inner_fetchVector fun s h => ?_
  rcases (fetchVector_keeps s).1.state with hs | hs
  · exact hs.symm.trans h
  · rw [hs] at h
    cases h

theorem keepsTwins_nextStage : KeepsTwins (nextStage (σ := σ)) :=
  .of_inner inner_nextStage fun _ h => h

theorem keepsTwins_enterVector : KeepsTwins fun s : DspState σ =>
    { s.setInterrupts { s.interrupts with savedPc := s.pc } with pc := s.interrupts.vectorAddr } :=
  .of_inner (fun _ _ => rfl) fun _ h => h

/-- A pipeline that completes in front of a fault parks it, with one countdown for twins. -/
theorem Twin.tickFast {s t : DspState σ} (h : s.Twin t) :
    s.tickFast.1.Twin t.tickFast.1 ∧ t.tickFast.2 = s.tickFast.2 := by
  have hstage : t.interrupts.pipelineStage = s.interrupts.pipelineStage := by
    rw [h.same]
    rfl
  have hn := keepsTwins_nextStage (σ := σ)
  have hf := keepsTwins_fetchVector (σ := σ)
  unfold DspState.tickFast
  rw [hstage]
  split
  · exact ⟨hn s t h, rfl⟩
  · exact ⟨hn _ _ (hf _ _ (keepsTwins_enterVector s t h)), rfl⟩
  · have ha : KeepsTwins fun s : DspState σ =>
        if s.pc = maskPc (s.interrupts.vectorAddr + 1) then s.fetchVector else s :=
      .ite (fun _ _ => rfl) hf .id
    exact ⟨hn _ _ (ha s t h), rfl⟩
  · have hr : KeepsTwins fun s : DspState σ => { s with pc := s.interrupts.savedPc } :=
      .of_inner (fun _ _ => rfl) fun _ h => h
    have ha : KeepsTwins fun s : DspState σ =>
        if s.interrupts.state ≠ .long ∧ s.pc = maskPc (s.interrupts.vectorAddr + 2) then
          { s with pc := s.interrupts.savedPc } else s :=
      .ite (fun _ _ => rfl) hr .id
    exact ⟨hn _ _ (ha s t h), rfl⟩
  · exact ⟨hn s t h, rfl⟩
  · have hi : t.interrupts = { s.interrupts with
        parkedCountdown := t.interrupts.parkedCountdown
        parkedSpWrite := t.interrupts.parkedSpWrite } := congrArg DspState.interrupts h.same
    have hpend : t.interrupts.faultPending = s.interrupts.faultPending := by
      rw [hi]
      rfl
    change Twin (Prod.fst (if s.interrupts.faultPending then _ else _))
      (Prod.fst (if t.interrupts.faultPending then _ else _)) ∧
      Prod.snd (if t.interrupts.faultPending then _ else _) =
        Prod.snd (if s.interrupts.faultPending then _ else _)
    rw [hpend]
    split
    · let park (s : DspState σ) := s.setInterrupts { s.interrupts with
        savedPc := 0xFFFF, vectorAddr := 0xFFFF, state := .parked, parkedCountdown := 3,
        parkedSpWrite := false }
      exact ⟨⟨congrArg park h.same, h.cycleBudget, fun _ => ⟨rfl, rfl⟩⟩, rfl⟩
    · let clear (s : DspState σ) := s.setInterrupts { s.interrupts with
        savedPc := 0xFFFF, vectorAddr := 0xFFFF, state := .none }
      exact ⟨⟨congrArg clear h.same, h.cycleBudget, nofun⟩, rfl⟩
  · exact ⟨h, rfl⟩

theorem keepsTwins_processPendingInterrupts :
    KeepsTwins (processPendingInterrupts (σ := σ)) := by
  intro s t h
  have hr : t.loopRep = s.loopRep := by
    rw [h.same]
    rfl
  unfold processPendingInterrupts
  rw [hr, h.state]
  split
  · exact h
  · split
    · obtain ⟨ht, hg⟩ := h.tickFast
      rw [hg]
      split
      · exact keepsTwins_tickIdle _ _ ht
      · exact ht
    · exact keepsTwins_tickIdle s t h

end DspState

end Dsp56300
