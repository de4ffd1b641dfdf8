import Dsp56300.Emu.Interrupts
import Dsp56300.Emu.OpRules

/-! Widths are kept by the core's own steps: `advance_pc` and interrupt delivery. -/

namespace Dsp56300

variable {σ : Type}

theorem Is24.or {v w : Word} (hv : Is24 v) (hw : Is24 w) : Is24 (v ||| w) := Nat.or_lt_two_pow hv hw

theorem is24_maskPc (v : Word) : Is24 (maskPc v) := is24_masked v

section Masks

variable {r : RegIdx} {v w : Word}

theorem maskReg_and (hv : maskReg r v = v) (w : Word) : maskReg r (v &&& w) = v &&& w := by
  rw [maskReg] at hv
  rw [maskReg, BitVec.and_assoc, BitVec.and_comm w, ← BitVec.and_assoc, hv]

theorem maskReg_or (hv : maskReg r v = v) (hw : maskReg r w = w) :
    maskReg r (v ||| w) = v ||| w := by
  rw [maskReg] at hv hw
  rw [maskReg, BitVec.and_or_distrib_right, hv, hw]

end Masks

/-- A source that is taken has a level. -/
theorem InterruptPipeline.arbitrate_level {p : InterruptPipeline} {iplSr level : Int}
    (hl : 0 ≤ iplSr) {is : List (Fin Interrupt.count)} {index : Option (Fin Interrupt.count)}
    (hindex : ∀ i, index = some i → 0 ≤ p.ipl i) {i : Fin Interrupt.count}
    (h : p.arbitrate iplSr is index level = some i) : 0 ≤ p.ipl i := by
  induction is generalizing index level with
  | nil => exact hindex i h
  | cons j is ih =>
    rw [InterruptPipeline.arbitrate] at h
    split_ifs at h with hpending hmost hmasked habove
    · obtain rfl := Option.some.inj h
      rw [hmost]
      decide
    · exact ih hindex h
    · refine ih (fun k hk => ?_) h
      obtain rfl := Option.some.inj hk
      exact Int.le_trans hl (Int.not_lt.mp hmasked)
    · exact ih hindex h
    · exact ih hindex h

namespace DspState.Within

open DspState

variable {s : DspState σ} {v w : Word} {p : InterruptPipeline}

/-! The parts the core's own steps write. -/

theorem setInterrupts (h : s.Within) (hp : p.Within) : (s.setInterrupts p).Within :=
  ⟨h.registers, h.slots, h.pc, hp, h.memory⟩

/-- What is not latched may change. -/
theorem setUnlatched (h : s.Within) (hp : p.latched = s.interrupts.latched) :
    (s.setInterrupts p).Within := h.same ⟨rfl, rfl, rfl, hp, id⟩

theorem setPc (h : s.Within) (hv : Is24 v) : DspState.Within { s with pc := v } :=
  ⟨h.registers, h.slots, hv, h.interrupts, h.memory⟩

theorem readP (h : s.Within) (addr : Word) :
    DspState.Within { s with world := (s.map.readMemory .p addr s.world).2 } :=
  ⟨h.registers, h.slots, h.pc, h.interrupts, h.memory.readMemory .p addr⟩

theorem is24 (h : s.Within) {r : RegIdx} (hr : regMasks r = 0xFFFFFF) : Is24 (s.registers r) :=
  h.lt (k := 24) (by rw [hr]; decide)

theorem stackPush (h : s.Within) (v w : Word) : (s.stackPush v w).Within := by
  have hpushed := ((within_posted s h (s.registers Reg.sp &&& (1#32 <<< 4) = 0 ∧
    ((s.registers Reg.sp &&& 0xF) + 1) &&& (1#32 <<< 4) ≠ 0)).setMasked Reg.sp
      ((s.registers Reg.sp &&& (1#32 <<< 5)) ||| (s.registers Reg.sp &&& (1#32 <<< 4)) |||
        ((s.registers Reg.sp &&& 0xF) + 1))).setMasked Reg.sc
  unfold DspState.stackPush
  dsimp only
  refine mirrorSlots ?_ _
  split
  · exact ((hpushed _).setSlot 0 _ (is24_masked v)).setSlot 1 _ (is24_masked w)
  · exact hpushed _

/-! `advance_pc`. -/

theorem checkUnimplementedModes (h : s.Within) : s.checkUnimplementedModes.Within := by
  unfold DspState.checkUnimplementedModes
  dsimp only
  split
  · exact h
  · exact h.same ⟨rfl, rfl, rfl, rfl, id⟩

theorem repTruncateArmedWindow (h : s.Within) : s.repTruncateArmedWindow.Within := by
  unfold DspState.repTruncateArmedWindow
  split
  · exact h.same ⟨rfl, rfl, rfl, rfl, id⟩
  · exact h

/-- LC comes back from TEMP, which has its width. -/
theorem retire (h : s.Within) :
    (({ s with loopRep := false } : DspState σ).setReg Reg.lc (s.registers Reg.temp)).Within :=
  (h.setReg (r := Reg.lc) (h.registers Reg.temp)).same ⟨rfl, rfl, rfl, rfl, id⟩

theorem advanceRep (h : s.Within) : s.advanceRep.Within := by
  unfold DspState.advanceRep
  split
  · exact h
  split
  · have hcounted := h.setMasked Reg.lc (s.registers Reg.lc - 1)
    dsimp only
    split
    · exact hcounted.same ⟨rfl, rfl, rfl, rfl, id⟩
    · exact hcounted.retire.repTruncateArmedWindow
  · have hskipped := h.retire.same (u := { ({ s with loopRep := false } : DspState σ).setReg Reg.lc
      (s.registers Reg.temp) with pcAdvance := s.pcAdvance + 1 }) ⟨rfl, rfl, rfl, rfl, id⟩
    dsimp only
    split
    · exact hskipped.repTruncateArmedWindow.same ⟨rfl, rfl, rfl, rfl, id⟩
    · exact h.same ⟨rfl, rfl, rfl, rfl, id⟩

/-- What a pop gives fits LA and LC. -/
theorem popped (h : s.Within) : maskReg Reg.la s.stackPop.1.1 = s.stackPop.1.1 ∧
    maskReg Reg.lc s.stackPop.1.2 = s.stackPop.1.2 := by
  have hpair : s.stackPop.1 = (s.registers Reg.ssh, s.registers Reg.ssl) := by
    simp (disch := decide) only [DspState.stackPop, setReg_other, post_registers]
  rw [hpair]
  exact ⟨h.registers Reg.ssh, h.registers Reg.ssl⟩

/-- The SR of the enclosing loop gives LF and FV back. -/
theorem unstackSr (h : s.Within) (lfFvMask : Word) (hm : maskReg Reg.sr lfFvMask = lfFvMask) :
    (s.setReg Reg.sr ((s.registers Reg.sr &&& ~~~lfFvMask) ||| (v &&& lfFvMask))).Within := by
  refine h.setReg (maskReg_or (maskReg_and (h.registers Reg.sr) _) ?_)
  rw [BitVec.and_comm]
  exact maskReg_and hm v

theorem advanceDo (h : s.Within) : s.advanceDo.Within := by
  unfold DspState.advanceDo
  split
  · have hcounted := h.setMasked Reg.lc (s.registers Reg.lc - 1)
    dsimp only
    split
    · have hpopped := (within_stackPop _ hcounted).unstackSr (v := (DspState.stackPop (s.setReg
        Reg.lc ((s.registers Reg.lc - 1) &&& regMasks Reg.lc))).1.2)
        ((1#32 <<< Sr.lf) ||| (1#32 <<< Sr.fv)) (by decide)
      exact ((within_stackPop _ hpopped).setReg hpopped.popped.1).setReg hpopped.popped.2
    · exact hcounted.setPc (hcounted.is24 rfl)
  · exact h

theorem advancePc (h : s.Within) : s.advancePc.Within :=
  (h.checkUnimplementedModes.advanceRep.setPc (is24_maskPc _)).advanceDo

/-! Interrupt delivery. -/

theorem clearSr (h : s.Within) (v : Word) :
    (s.setReg Reg.sr (s.registers Reg.sr &&& v)).Within :=
  h.setReg (maskReg_and (h.registers Reg.sr) v)

/-- A level is two bits of SR. -/
theorem raiseSr (h : s.Within) {level : Byte} (hl : level.toNat ≤ 3) :
    (s.setReg Reg.sr (s.registers Reg.sr ||| (level.setWidth 32 <<< Sr.i0))).Within := by
  have hlevel : level.toNat = (0 : Byte).toNat ∨ level.toNat = (1 : Byte).toNat ∨
      level.toNat = (2 : Byte).toNat ∨ level.toNat = (3 : Byte).toNat := by
    change level.toNat = 0 ∨ level.toNat = 1 ∨ level.toNat = 2 ∨ level.toNat = 3
    omega
  simp only [BitVec.toNat_inj] at hlevel
  refine h.setReg (maskReg_or (h.registers Reg.sr) ?_)
  rcases hlevel with rfl | rfl | rfl | rfl <;> decide

theorem detectLongInterrupt (h : s.Within) (instr : Word) :
    (s.detectLongInterrupt instr).Within := by
  unfold DspState.detectLongInterrupt
  split
  · have hlong := h.setUnlatched (p := { s.interrupts with state := .long }) rfl
    have hcleared := (hlong.stackPush s.interrupts.savedPc (s.registers Reg.sr)).clearSr
    exact (hcleared _).raiseSr (hcleared _).interrupts.iplToRaise
  · exact h

theorem fetchVector (h : s.Within) : s.fetchVector.Within := (h.readP s.pc).detectLongInterrupt _

theorem deliverArmedFault (h : s.Within) : s.deliverArmedFault.Within := by
  have hsaved := h.setInterrupts (p := { s.interrupts with savedPc := s.pc })
    ⟨h.interrupts.vectorAddr, h.pc, h.interrupts.iplToRaise⟩
  have hvector := hsaved.setPc hsaved.interrupts.vectorAddr
  have hfast := hvector.setUnlatched (p := { s.interrupts with
    savedPc := s.pc, state := .fast, faultBudget := invalidFaultBudget }) rfl
  have hfetched := hfast.fetchVector
  exact hfetched.setInterrupts ⟨hfetched.interrupts.vectorAddr, hfetched.interrupts.savedPc,
    hfetched.interrupts.iplToRaise⟩

theorem vectorOf (h : s.Within) (i : Fin Interrupt.count) : Is24 (s.vectorOf i) := by
  have hlow : Is24 (Interrupt.vectorAddr i) := by
    rw [Is24, Interrupt.vectorAddr, BitVec.toNat_ofNat]
    have hi : i.val < 128 := i.isLt
    have hmod := Nat.mod_le (i.val * 2) (2 ^ 32)
    omega
  exact .or (Nat.lt_of_le_of_lt Nat.and_le_left (h.lt (k := 24) (by decide))) hlow

theorem clearPending (h : s.Within) (i : Fin Interrupt.count) :
    (s.setInterrupts (s.interrupts.clearPending i)).Within := h.setUnlatched rfl

/-- A source is taken: its vector, and the level to raise. -/
theorem take (h : s.Within) (i : Fin Interrupt.count) {level : Byte} (hl : level.toNat ≤ 3) :
    (s.setInterrupts { s.interrupts with
      vectorAddr := s.vectorOf i, iplToRaise := level }).Within :=
  h.setInterrupts ⟨h.vectorOf i, h.interrupts.savedPc, hl⟩

theorem deliverParkedFault (h : s.Within) : s.deliverParkedFault.Within := by
  unfold DspState.deliverParkedFault
  split
  · exact h.setUnlatched rfl
  · have hmost : (3 : Byte).toNat ≤ 3 := by decide
    exact ((h.clearPending _).take _ hmost).deliverArmedFault

theorem nextLevel {ipl : Int} (h : 0 ≤ ipl) :
    (BitVec.ofInt 8 (min (ipl + 1) 3)).toNat ≤ 3 := by
  obtain hm | hm | hm : min (ipl + 1) 3 = 1 ∨ min (ipl + 1) 3 = 2 ∨ min (ipl + 1) 3 = 3 := by omega
  all_goals
    rw [hm]
    decide

theorem dispatch (h : s.Within) {i : Fin Interrupt.count} (hi : 0 ≤ s.interrupts.ipl i) :
    (s.dispatch i).Within := by
  have htaken := (h.clearPending i).take i (nextLevel hi)
  unfold DspState.dispatch
  dsimp only
  split
  · exact htaken.setUnlatched rfl
  · exact htaken.setUnlatched rfl

theorem arbitrate (h : s.Within) : s.arbitrate.Within := by
  unfold DspState.arbitrate
  split
  · exact h
  · split
    · exact h
    · next hi => exact h.dispatch (InterruptPipeline.arbitrate_level (Int.natCast_nonneg _)
        (fun _ hnone => absurd hnone (by simp)) hi)

theorem nextStage (h : s.Within) : s.nextStage.Within := h.setUnlatched rfl

theorem tickParked (h : s.Within) : s.tickParked.Within := by
  have hcounted : (s.setInterrupts (countParked s.interrupts)).Within := by
    refine h.setUnlatched ?_
    unfold countParked
    dsimp only
    split_ifs <;> rfl
  unfold DspState.tickParked
  dsimp only
  split
  · exact hcounted.deliverParkedFault
  · exact hcounted

theorem tickFast (h : s.Within) : s.tickFast.1.Within := by
  unfold DspState.tickFast
  split
  · exact h.nextStage
  · have hsaved := h.setInterrupts (p := { s.interrupts with savedPc := s.pc })
      ⟨h.interrupts.vectorAddr, h.pc, h.interrupts.iplToRaise⟩
    exact (hsaved.setPc hsaved.interrupts.vectorAddr).fetchVector.nextStage
  · dsimp only
    split
    · exact h.fetchVector.nextStage
    · exact h.nextStage
  · dsimp only
    split
    · exact (h.setPc h.interrupts.savedPc).nextStage
    · exact h.nextStage
  · exact h.nextStage
  · have hunset : Is24 0xFFFF := (by decide : 0xFFFF < 2 ^ 24)
    have hdone := h.setInterrupts (p := { s.interrupts with savedPc := 0xFFFF, vectorAddr := 0xFFFF })
      ⟨hunset, hunset, h.interrupts.iplToRaise⟩
    dsimp only
    split
    · exact hdone.setUnlatched rfl
    · exact hdone.setUnlatched rfl
  · exact h

theorem tickIdle (h : s.Within) : s.tickIdle.Within := by
  unfold DspState.tickIdle
  split_ifs
  · exact h.tickParked
  · exact h
  · exact h.arbitrate

theorem processPendingInterrupts (h : s.Within) : s.processPendingInterrupts.Within := by
  unfold DspState.processPendingInterrupts
  split_ifs
  · exact h
  · exact h.tickFast.tickIdle
  · exact h.tickFast
  · exact h.tickIdle

end DspState.Within

end Dsp56300
