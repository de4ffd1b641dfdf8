import Dsp56300.Emu.AluEffects

/-! LSL and LSR of A1 and B1: the multi-bit forms against single-bit steps. -/

namespace Dsp56300

open Emitter AluState Lib.Bits Lib.Words SrUpdate

variable {σ : Type}

theorem setMid {t : AluState σ} {d : Accumulator} {v : BitVec 56} (h : t.acc d = v.setWidth 64)
    (w : Word) : t.setAccSubreg d 24 0xFFFFFF w =
      t.setAcc d ((withMid v (w.setWidth 24)).setWidth 64) := by
  have hm (j : Nat) : (0xFFFFFF : BitVec 64).getLsbD j = decide (j < 24) :=
    getLsbD_lowMask (w := 64) (k := 24) (by decide) j
  rw [setAccSubreg, h]
  refine congrArg (t.setAcc d) (BitVec.eq_of_getLsbD_eq ?_)
  intro i hi
  simp only [BitVec.getLsbD_or, BitVec.getLsbD_and, BitVec.getLsbD_not, BitVec.getLsbD_shiftLeft,
    BitVec.getLsbD_setWidth, hm, getLsbD_withMid]
  by_cases hlo : i < 24
  · simp [hlo, hi]
  · by_cases hmid : i < 48
    · have hlt : i - 24 < 24 := by omega
      have hlt' : i - 24 < 64 := by omega
      have hle : 24 ≤ i := by omega
      simp [hlo, hmid, hi, hlt, hlt', hle]
    · have hlt : ¬ i - 24 < 24 := by omega
      simp [hmid, hi, hlt]

/-- What a logical shift leaves: the result in A1 or B1, C, and N, Z and V of the result. -/
structure LogicalShifted (s t : DspState σ) (d : Accumulator) (m : BitVec 24) (c : Bool) :
    Prop where
  acc : t.acc d = withMid (s.acc d) m
  other : ∀ d', d' ≠ d → t.acc d' = s.acc d'
  carry : flag (t.registers Reg.sr) Sr.c = c
  negative : flag (t.registers Reg.sr) Sr.n = m.msb
  zero : flag (t.registers Reg.sr) Sr.z = decide (m = 0)
  overflow : flag (t.registers Reg.sr) Sr.v = false
  rest : ∀ k, k ∉ [Sr.c, Sr.v, Sr.z, Sr.n] → flag (regMasks Reg.sr) k = true →
    flag (t.registers Reg.sr) k = flag (s.registers Reg.sr) k
  registers : ∀ r, DspState.Outside r → r ≠ Reg.sr → t.registers r = s.registers r

variable {s : DspState σ}

theorem logicalShifted_of_run {t : AluState σ} {d : Accumulator} {m : BitVec 24} {c : Bool}
    {flags : PendingFlags} (hp : t.pendingFlags = none) (hc : t.Coherent)
    (hacc : t.acc d = (withMid (s.acc d) m).setWidth 64)
    (hother : ∀ d', d' ≠ d → t.acc d' = s.reloadAcc d')
    (hreg : ∀ r, r ≠ Reg.sr → t.dsp.registers r = s.registers r)
    (hflag : ∀ k, flag (flags.materialize false t.smNeedsSat t.sr) k =
      if k = Sr.c then c else if k = Sr.n then m.msb
      else if k = Sr.z then decide (m = 0) else if k = Sr.v then false
      else flag (s.registers Reg.sr) k && flag (regMasks Reg.sr) k) :
    LogicalShifted s (t.setPending flags).finalize d m c := by
  refine ⟨?_, fun d' hd' => ?_, ?_, ?_, ?_, ?_, fun k hk hm => ?_, fun r hr hsr => ?_⟩
  · rw [finalize_setPending_acc hp hc, hacc, widen_narrow]
  · rw [finalize_setPending_acc hp hc, hother d' hd', DspState.acc]
  · rw [finalize_setPending_sr hp, hflag, if_pos rfl]
  · rw [finalize_setPending_sr hp, hflag, if_neg (by decide), if_pos rfl]
  · rw [finalize_setPending_sr hp, hflag, if_neg (by decide), if_neg (by decide), if_pos rfl]
  · rw [finalize_setPending_sr hp, hflag, if_neg (by decide), if_neg (by decide),
      if_neg (by decide), if_pos rfl]
  · simp only [List.mem_cons, List.not_mem_nil, or_false, not_or] at hk
    obtain ⟨hc, hv, hz, hn⟩ := hk
    rw [finalize_setPending_sr hp, hflag, if_neg hc, if_neg hn, if_neg hz, if_neg hv, hm,
      Bool.and_true]
  · rw [finalize_setPending_registers hp _ hr hsr, hreg r hsr]

/-! The single-bit steps. -/

/-- The end of a single-bit shift: the word, then C, N and Z with the flags. -/
theorem shifted_bitTail (s : DspState σ) (d : Accumulator) (m : BitVec 24) (c : Bool)
    {n : Option Bool} (hn : n.getD false = m.msb) :
    LogicalShifted s (Alu.after (do
      Alu.storeReg (Alu.midReg d) (m.setWidth 32)
      Alu.setPending (.shift24 (bit 32 c) (n.map (bit 32)) (m.setWidth 32)))
      (enter s)).finalize d m c := by
  have hflag := flag_shift24 m c n 0 (s.registers Reg.sr)
  rw [hn] at hflag
  simp only [Alu.after_bind, Alu.after_storeMid, Alu.after_setPending]
  rw [setMid (DspState.reloadAcc_eq s d), narrow_mask24]
  apply logicalShifted_of_run
  case hc => exact (Coherent.enter s).setAcc _ _
  case hother => exact fun d' hd' => by simp [hd']
  case hflag => exact hflag
  all_goals simp

theorem shifted_lsl (s : DspState σ) (d : Accumulator) :
    LogicalShifted s (s.execute (.parallelAlu (.lsl d))) d (mid (s.acc d) <<< 1)
      (mid (s.acc d)).msb := by
  have hr : mask24 (ishl ((mid (s.acc d)).setWidth 32) 1) = (mid (s.acc d) <<< 1).setWidth 32 :=
    lsl_value _ _
  have htail := shifted_bitTail s d (mid (s.acc d) <<< 1) (mid (s.acc d)).msb
    (n := some (mid (s.acc d) <<< 1).msb) rfl
  simp only [DspState.execute_eq, DataPath.emit, Alu.emitParallelAlu, Alu.emitAluLsl,
    Alu.after_bind, Alu.value_loadMid, Alu.after_loadMid, enter_acc, DspState.reloadAcc_eq,
    extractAccMid_widen, mid_top, hr]
  exact htail

theorem msb_ushiftRight (m : BitVec 24) : (m >>> 1).msb = false := by
  simp [BitVec.msb_eq_getLsbD_last]

theorem shifted_lsr (s : DspState σ) (d : Accumulator) :
    LogicalShifted s (s.execute (.parallelAlu (.lsr d))) d (mid (s.acc d) >>> 1)
      ((mid (s.acc d)).getLsbD 0) := by
  have hc : (mid (s.acc d)).setWidth 32 &&& 1 = bit 32 ((mid (s.acc d)).getLsbD 0) := by
    rw [show (1 : Word) = 1#32 from rfl, and_one]
    simp
  have hr : ushr ((mid (s.acc d)).setWidth 32) 1 = (mid (s.acc d) >>> 1).setWidth 32 :=
    lsr_value _ _
  have htail := shifted_bitTail s d (mid (s.acc d) >>> 1) ((mid (s.acc d)).getLsbD 0) (n := none)
    (msb_ushiftRight _).symm
  simp only [DspState.execute_eq, DataPath.emit, Alu.emitParallelAlu, Alu.emitAluLsr,
    Alu.after_bind, Alu.value_loadMid, Alu.after_loadMid, enter_acc, DspState.reloadAcc_eq,
    extractAccMid_widen, hc, hr]
  exact htail

/-! Runs of single-bit steps. -/

theorem LogicalShifted.trans {t u : DspState σ} {d : Accumulator} {m m' : BitVec 24} {c c' : Bool}
    (h : LogicalShifted s t d m c) (h' : LogicalShifted t u d m' c') :
    LogicalShifted s u d m' c' where
  acc := by rw [h'.acc, h.acc, withMid_withMid]
  other d' hd' := (h'.other d' hd').trans (h.other d' hd')
  carry := h'.carry
  negative := h'.negative
  zero := h'.zero
  overflow := h'.overflow
  rest k hk hm := (h'.rest k hk hm).trans (h.rest k hk hm)
  registers r hr hsr := (h'.registers r hr hsr).trans (h.registers r hr hsr)

theorem LogicalShifted.mid {t : DspState σ} {d : Accumulator} {m : BitVec 24} {c : Bool}
    (h : LogicalShifted s t d m c) : mid (t.acc d) = m := by rw [h.acc, mid_withMid]

theorem lsl_steps (s : DspState σ) (d : Accumulator) (n : Nat) :
    LogicalShifted s (s.repeated (.parallelAlu (.lsl d)) (n + 1)) d (mid (s.acc d) <<< (n + 1))
      (mid (s.acc d) <<< n).msb := by
  induction n with
  | zero =>
    rw [BitVec.shiftLeft_zero]
    exact shifted_lsl s d
  | succ n ih =>
    have hstep := shifted_lsl (s.repeated (.parallelAlu (.lsl d)) (n + 1)) d
    rw [← DspState.repeated_succ, ih.mid, ← BitVec.shiftLeft_add] at hstep
    exact ih.trans hstep

theorem lsr_steps (s : DspState σ) (d : Accumulator) (n : Nat) :
    LogicalShifted s (s.repeated (.parallelAlu (.lsr d)) (n + 1)) d (mid (s.acc d) >>> (n + 1))
      ((mid (s.acc d) >>> n).getLsbD 0) := by
  induction n with
  | zero => exact shifted_lsr s d
  | succ n ih =>
    have hstep := shifted_lsr (s.repeated (.parallelAlu (.lsr d)) (n + 1)) d
    rw [← DspState.repeated_succ, ih.mid, ← BitVec.shiftRight_add] at hstep
    exact ih.trans hstep

/-! The multi-bit forms. -/

/-- SR with another C. -/
def withCarry (sr : Word) (c : Bool) : Word := store (clear (1#32 <<< Sr.c) sr ||| bit 32 c)

theorem flag_withCarry (sr : Word) (c : Bool) (k : Nat) :
    flag (withCarry sr c) k = if k = Sr.c then c else flag sr k && flag (regMasks Reg.sr) k := by
  rw [withCarry, flag_store, flag_or, flag_clear, flag_bit, flag_single (by decide)]
  split_ifs with hc
  · simp +decide [hc]
  · simp [hc]

/-- A logical shift ends with C stored, then the word, and N, Z and V deferred. -/
theorem shifted_logical (s : DspState σ) {t : AluState σ} (d : Accumulator) (m : BitVec 24)
    (c : Bool) (hp : t.pendingFlags = none) (hc : t.Coherent)
    (hsr : t.sr = withCarry (s.registers Reg.sr) c)
    (hacc : t.acc d = (withMid (s.acc d) m).setWidth 64)
    (hother : ∀ d', d' ≠ d → t.acc d' = s.reloadAcc d')
    (hreg : ∀ r, r ≠ Reg.sr → t.dsp.registers r = s.registers r) :
    LogicalShifted s (t.setPending (.logical (m.setWidth 32))).finalize d m c := by
  refine logicalShifted_of_run hp hc hacc hother hreg fun k => ?_
  rw [flag_logical, hsr, flag_withCarry]
  split_ifs with hn hz hv hc hc
  all_goals first | rfl | simp_all +decide

/-- Where a shift takes its count from: the instruction word or a register. -/
inductive LogicalCount where
  | imm (n : BitVec 5)
  | reg (src : RegIdx)

namespace LogicalCount

def value (s : DspState σ) : LogicalCount → Nat
  | imm n => n.toNat
  | reg src => (s.registers src).toNat % 64

def lsl (d : Accumulator) : LogicalCount → DataPath
  | imm n => .lslImm (n.setWidth 8) d
  | reg r => .lslReg r d

def lsr (d : Accumulator) : LogicalCount → DataPath
  | imm n => .lsrImm (n.setWidth 8) d
  | reg r => .lsrReg r d

/-- The amount a word is shifted by, in a 32-bit register. -/
def amount (s : DspState σ) (k : LogicalCount) : Nat := k.value s % 32

/-- The last bit a left shift moves out, as the code finds it. -/
def lslCarry (s : DspState σ) (m : BitVec 24) : LogicalCount → Bool
  | imm n => decide (n ≠ 0) && m.getLsbD (24 - n.toNat)
  | reg src => m.getLsbD ((2 ^ 32 + 24 - (s.registers src).toNat % 64) % 32)

def lsrCarry (s : DspState σ) (m : BitVec 24) : LogicalCount → Bool
  | imm n => decide (n ≠ 0) && m.getLsbD (n.toNat - 1)
  | reg src => m.getLsbD ((2 ^ 32 + (s.registers src).toNat % 64 - 1) % 32)

end LogicalCount

theorem shifted_zero (s : DspState σ) (d : Accumulator) :
    LogicalShifted s (Alu.after (Alu.shiftByZero d) (enter s)).finalize d (mid (s.acc d))
      false := by
  simp only [Alu.shiftByZero, Alu.after_bind, Alu.value_clearSrFlags, Alu.after_clearSrFlags,
    Alu.after_storeSr, Alu.value_loadMid, Alu.after_loadMid, Alu.after_setPending]
  simp only [flush_settled, storeSr_settled, enter_pendingFlags, setSr_acc, enter_acc,
    DspState.reloadAcc_eq, extractAccMid_widen]
  apply shifted_logical
  case hc => exact (Coherent.enter s).setSr _
  case hreg => exact fun r hr => DspState.setReg_other _ _ hr
  all_goals simp [withCarry, withMid_mid, DspState.reloadAcc_eq]

section Tails

variable (s : DspState σ) (d : Accumulator) (m : BitVec 24) (c : Bool)

/-- The end of an immediate shift: C from a bit, then the word. -/
theorem shifted_immTail {val pos : Word} (hc : ushr val pos &&& 1 = bit 32 c) :
    LogicalShifted s (Alu.after (do
      Alu.updateCarryFromBit val pos
      Alu.storeReg (Alu.midReg d) (m.setWidth 32)
      Alu.setPending (.logical (m.setWidth 32))) (enter s)).finalize d m c := by
  simp only [Alu.updateCarryFromBit, Alu.after_bind, Alu.value_clearSrFlags, Alu.after_clearSrFlags,
    Alu.after_storeSr, Alu.after_storeMid, Alu.after_setPending, hc]
  simp only [flush_settled, storeSr_settled, enter_pendingFlags]
  rw [setMid (v := s.acc d) (by simp [DspState.reloadAcc_eq]), narrow_mask24]
  apply shifted_logical
  case hc => exact ((Coherent.enter s).setSr _).setAcc _ _
  case hother => exact fun d' hd' => by simp [hd']
  case hreg => exact fun r hr => DspState.setReg_other _ _ hr
  all_goals simp [withCarry]

/-- The end of a shift by a register: the word, then C. -/
theorem shifted_regTail :
    LogicalShifted s (Alu.after (do
      Alu.storeReg (Alu.midReg d) (m.setWidth 32)
      let sr ← Alu.clearSrFlags (1#32 <<< Sr.c)
      Alu.storeReg Reg.sr (sr ||| shiftToBit (bit 32 c) Sr.c)
      Alu.setPending (.logical (m.setWidth 32))) (enter s)).finalize d m c := by
  simp only [Alu.after_bind, Alu.value_clearSrFlags, Alu.after_clearSrFlags, Alu.after_storeSr,
    Alu.after_storeMid, Alu.after_setPending]
  rw [setMid (v := s.acc d) (by simp [DspState.reloadAcc_eq]), narrow_mask24]
  simp only [flush_settled, storeSr_settled, setAcc_pendingFlags, enter_pendingFlags]
  apply shifted_logical
  case hc => exact ((Coherent.enter s).setAcc _ _).setSr _
  case hother => exact fun d' hd' => by simp [hd']
  case hreg => exact fun r hr => DspState.setReg_other _ _ hr
  all_goals simp [withCarry, shiftToBit]

end Tails

namespace LogicalCount

variable (s : DspState σ) (d : Accumulator)

theorem imm_zero_iff (n : BitVec 5) : (n.setWidth 8).setWidth 32 = (0 : Word) ↔ n = 0 := by
  constructor
  · intro h
    have hn : ((n.setWidth 8).setWidth 32).setWidth 5 = n := by simp
    rw [← hn, h]
    rfl
  · rintro rfl
    rfl

theorem imm_toNat (n : BitVec 5) : ((n.setWidth 8).setWidth 32).toNat = n.toNat := by
  rw [BitVec.toNat_setWidth_of_le (by decide), BitVec.toNat_setWidth_of_le (by decide)]

/-- The bit at a constant position. -/
theorem mid_bit_const (m : BitVec 24) {i : Nat} (hi : i < 32) :
    ushr (m.setWidth 32) (BitVec.ofNat 32 i) &&& 1 = bit 32 (m.getLsbD i) := by
  have hpos : (BitVec.ofNat 32 i).toNat % 32 = i := by
    rw [BitVec.toNat_ofNat]
    omega
  rw [mid_bit, hpos]

theorem shifted_lslImm {n : BitVec 5} (hn : n ≠ 0) :
    LogicalShifted s (s.execute ((imm n).lsl d)) d (mid (s.acc d) <<< (imm n).amount s)
      ((imm n).lslCarry s (mid (s.acc d))) := by
  have hr := lsl_value (mid (s.acc d)) ((n.setWidth 8).setWidth 32)
  have hc := mid_bit_const (mid (s.acc d)) (i := 24 - n.toNat) (by omega)
  have htail := shifted_immTail s d (mid (s.acc d) <<< (n.toNat % 32)) _ hc
  rw [imm_toNat] at hr
  simp only [DspState.execute_eq, DataPath.emit, lsl, Alu.emitLslImm,
    if_neg fun h => hn ((imm_zero_iff n).mp h), Alu.after_bind, Alu.value_loadMid,
    Alu.after_loadMid, enter_acc, DspState.reloadAcc_eq, extractAccMid_widen, imm_toNat, hr]
  rw [lslCarry, decide_eq_true hn, Bool.true_and]
  exact htail

theorem shifted_lsrImm {n : BitVec 5} (hn : n ≠ 0) :
    LogicalShifted s (s.execute ((imm n).lsr d)) d (mid (s.acc d) >>> (imm n).amount s)
      ((imm n).lsrCarry s (mid (s.acc d))) := by
  have hr := lsr_value (mid (s.acc d)) ((n.setWidth 8).setWidth 32)
  have hc := mid_bit_const (mid (s.acc d)) (i := n.toNat - 1) (by omega)
  have htail := shifted_immTail s d (mid (s.acc d) >>> (n.toNat % 32)) _ hc
  rw [imm_toNat] at hr
  simp only [DspState.execute_eq, DataPath.emit, lsr, Alu.emitLsrImm,
    if_neg fun h => hn ((imm_zero_iff n).mp h), Alu.after_bind, Alu.value_loadMid,
    Alu.after_loadMid, enter_acc, DspState.reloadAcc_eq, extractAccMid_widen, imm_toNat, hr]
  rw [lsrCarry, decide_eq_true hn, Bool.true_and]
  exact htail

theorem shifted_lslReg (src : RegIdx) :
    LogicalShifted s (s.execute ((reg src).lsl d)) d (mid (s.acc d) <<< (reg src).amount s)
      ((reg src).lslCarry s (mid (s.acc d))) := by
  have hn := Alu.value_loadReg_low6 s src
  have hr := lsl_value (mid (s.acc d)) (Alu.value (Alu.loadReg src) (enter s) &&& 0x3F)
  have hc := mid_bit (mid (s.acc d)) (24 - (Alu.value (Alu.loadReg src) (enter s) &&& 0x3F))
  have h24 : (24 : Word).toNat = 24 := rfl
  rw [hn] at hr
  rw [BitVec.toNat_sub, hn, h24] at hc
  simp only [DspState.execute_eq, DataPath.emit, lsl, Alu.emitLslReg, Alu.after_bind,
    Alu.value_loadMid, Alu.after_loadReg, enter_acc, DspState.reloadAcc_eq, extractAccMid_widen, hr,
    hc]
  have htail := shifted_regTail s d (mid (s.acc d) <<< ((s.registers src).toNat % 64 % 32))
    ((mid (s.acc d)).getLsbD ((2 ^ 32 - (s.registers src).toNat % 64 + 24) % 2 ^ 32 % 32))
  have hpos : (2 ^ 32 - (s.registers src).toNat % 64 + 24) % 2 ^ 32 % 32 =
      (2 ^ 32 + 24 - (s.registers src).toNat % 64) % 32 := by omega
  rw [lslCarry, ← hpos]
  exact htail

theorem shifted_lsrReg (src : RegIdx) :
    LogicalShifted s (s.execute ((reg src).lsr d)) d (mid (s.acc d) >>> (reg src).amount s)
      ((reg src).lsrCarry s (mid (s.acc d))) := by
  have hn := Alu.value_loadReg_low6 s src
  have hr := lsr_value (mid (s.acc d)) (Alu.value (Alu.loadReg src) (enter s) &&& 0x3F)
  have hc := mid_bit (mid (s.acc d)) ((Alu.value (Alu.loadReg src) (enter s) &&& 0x3F) - 1)
  have h1 : (1 : Word).toNat = 1 := rfl
  rw [hn] at hr
  rw [BitVec.toNat_sub, hn, h1] at hc
  simp only [DspState.execute_eq, DataPath.emit, lsr, Alu.emitLsrReg, Alu.after_bind,
    Alu.value_loadMid, Alu.after_loadReg, enter_acc, DspState.reloadAcc_eq, extractAccMid_widen, hr,
    hc]
  have htail := shifted_regTail s d (mid (s.acc d) >>> ((s.registers src).toNat % 64 % 32))
    ((mid (s.acc d)).getLsbD ((2 ^ 32 - 1 + (s.registers src).toNat % 64) % 2 ^ 32 % 32))
  have hpos : (2 ^ 32 - 1 + (s.registers src).toNat % 64) % 2 ^ 32 % 32 =
      (2 ^ 32 + (s.registers src).toNat % 64 - 1) % 32 := by omega
  rw [lsrCarry, ← hpos]
  exact htail

theorem shifted_lsl (k : LogicalCount) :
    LogicalShifted s (s.execute (k.lsl d)) d (mid (s.acc d) <<< k.amount s)
      (k.lslCarry s (mid (s.acc d))) := by
  cases k with
  | imm n =>
    by_cases hn : n = 0
    · subst hn
      have he : s.execute ((imm 0).lsl d) = (Alu.after (Alu.shiftByZero d) (enter s)).finalize :=
        rfl
      have hz := shifted_zero s d
      rw [← he] at hz
      simpa [amount, value, lslCarry] using hz
    · exact shifted_lslImm s d hn
  | reg src => exact shifted_lslReg s d src

theorem shifted_lsr (k : LogicalCount) :
    LogicalShifted s (s.execute (k.lsr d)) d (mid (s.acc d) >>> k.amount s)
      (k.lsrCarry s (mid (s.acc d))) := by
  cases k with
  | imm n =>
    by_cases hn : n = 0
    · subst hn
      have he : s.execute ((imm 0).lsr d) = (Alu.after (Alu.shiftByZero d) (enter s)).finalize :=
        rfl
      have hz := shifted_zero s d
      rw [← he] at hz
      simpa [amount, value, lsrCarry] using hz
    · exact shifted_lsrImm s d hn
  | reg src => exact shifted_lsrReg s d src

/-- The counts at which a left shift does what its steps do. -/
def LslExact (s : DspState σ) (m : BitVec 24) : LogicalCount → Prop
  | imm n => n.toNat ≤ 24 ∨ m.getLsbD 0 = false
  | reg src => (s.registers src).toNat % 64 ≤ 31 ∨
      m.toNat % 2 ^ (57 - (s.registers src).toNat % 64) = 0

/-- The counts at which a right shift does. -/
def LsrExact (s : DspState σ) (m : BitVec 24) : LogicalCount → Prop
  | imm _ => True
  | reg src => (s.registers src).toNat % 64 ≤ 31 ∨
      m.toNat < 2 ^ ((s.registers src).toNat % 64 - 33)

end LogicalCount

/-! The carries of the steps, and of the registers that wrap. -/

theorem low_zero_iff (m : BitVec 24) (j : Nat) :
    m.toNat % 2 ^ j = 0 ↔ ∀ i < j, m.getLsbD i = false := by
  constructor
  · intro h i hi
    have hb := congrArg (·.testBit i) h
    rw [BitVec.getLsbD]
    simpa [Nat.testBit_mod_two_pow, hi] using hb
  · intro h
    apply Nat.eq_of_testBit_eq
    intro i
    rw [Nat.testBit_mod_two_pow, Nat.zero_testBit]
    by_cases hi : i < j
    · rw [decide_eq_true hi, Bool.true_and]
      exact h i hi
    · rw [decide_eq_false hi, Bool.false_and]

theorem high_zero_iff (m : BitVec 24) (j : Nat) :
    m.toNat < 2 ^ j ↔ ∀ i, j ≤ i → m.getLsbD i = false := by
  constructor
  · intro h i hi
    exact Nat.testBit_lt_two_pow (h.trans_le (Nat.pow_le_pow_right (by decide) hi))
  · exact Nat.lt_pow_two_of_testBit _

theorem shiftLeft_zero_iff (m : BitVec 24) (k : Nat) :
    m <<< k = 0 ↔ ∀ i, i + k < 24 → m.getLsbD i = false := by
  constructor
  · intro h i hi
    have hb := congrArg (·.getLsbD (i + k)) h
    rw [BitVec.getLsbD_shiftLeft, decide_eq_true hi, decide_eq_false (by omega),
      Nat.add_sub_cancel] at hb
    exact hb.trans BitVec.getLsbD_zero
  · intro h
    apply BitVec.eq_of_getLsbD_eq
    intro i hi
    rw [BitVec.getLsbD_shiftLeft, decide_eq_true hi, Bool.true_and]
    by_cases hk : i < k
    · simp [hk]
    · rw [decide_eq_false hk, h (i - k) (by omega)]
      exact BitVec.getLsbD_zero.symm

theorem ushiftRight_zero_iff (m : BitVec 24) (k : Nat) :
    m >>> k = 0 ↔ ∀ i, k ≤ i → m.getLsbD i = false := by
  constructor
  · intro h i hi
    have hb := congrArg (·.getLsbD (i - k)) h
    rw [BitVec.getLsbD_ushiftRight, Nat.add_sub_cancel' hi] at hb
    exact hb.trans BitVec.getLsbD_zero
  · intro h
    apply BitVec.eq_of_getLsbD_eq
    intro i hi
    rw [BitVec.getLsbD_ushiftRight, h (k + i) (by omega)]
    exact BitVec.getLsbD_zero.symm

/-- The last bit moved out to the left. -/
def movedLeft (m : BitVec 24) (n : Nat) : Bool := decide (n ≠ 0) && (m <<< (n - 1)).msb

/-- The last bit moved out to the right. -/
def movedRight (m : BitVec 24) (n : Nat) : Bool := decide (n ≠ 0) && (m >>> (n - 1)).getLsbD 0

theorem movedLeft_eq (m : BitVec 24) (n : Nat) :
    movedLeft m n = (decide (1 ≤ n ∧ n ≤ 24) && m.getLsbD (24 - n)) := by
  rw [movedLeft, BitVec.msb_eq_getLsbD_last, BitVec.getLsbD_shiftLeft]
  by_cases hn : 1 ≤ n
  · by_cases h24 : n ≤ 24
    · have h0 : n ≠ 0 := by omega
      have hlt : ¬ 23 < n - 1 := by omega
      have hpos : 23 - (n - 1) = 24 - n := by omega
      simp [hn, h24, h0, hlt, hpos]
    · have hlt : 23 < n - 1 := by omega
      simp [h24, hlt]
  · have h0 : n = 0 := by omega
    simp [h0]

theorem movedRight_eq (m : BitVec 24) (n : Nat) :
    movedRight m n = (decide (n ≠ 0) && m.getLsbD (n - 1)) := by
  rw [movedRight, BitVec.getLsbD_ushiftRight, Nat.add_zero]

namespace LogicalCount

variable (s : DspState σ) (m : BitVec 24)

theorem lsl_eq_iff (k : LogicalCount) :
    m <<< k.amount s = m <<< k.value s ∧ k.lslCarry s m = movedLeft m (k.value s) ↔
      k.LslExact s m := by
  rw [movedLeft_eq]
  cases k with
  | imm n =>
    have hlt := n.isLt
    have hz : decide (n ≠ 0) = decide (1 ≤ n.toNat) := by
      rw [decide_eq_decide, ne_eq, ← BitVec.toNat_inj]
      exact Nat.one_le_iff_ne_zero.symm
    rw [amount, value, Nat.mod_eq_of_lt hlt, lslCarry, LslExact, hz]
    by_cases h24 : n.toNat ≤ 24
    · simp [h24]
    · have h1 : 1 ≤ n.toNat := by omega
      have hpos : 24 - n.toNat = 0 := by omega
      simp [h24, h1, hpos]
  | reg src =>
    rw [amount, value, lslCarry, LslExact]
    have hlt := Nat.mod_lt (s.registers src).toNat (by decide : 0 < 64)
    generalize (s.registers src).toNat % 64 = n at hlt
    by_cases h31 : n ≤ 31
    · rw [Nat.mod_eq_of_lt (by omega)]
      by_cases h24 : 1 ≤ n ∧ n ≤ 24
      · have hpos : (2 ^ 32 + 24 - n) % 32 = 24 - n := by omega
        rw [hpos]
        simp [h31, h24]
      · have hge : m.getLsbD ((2 ^ 32 + 24 - n) % 32) = false :=
          BitVec.getLsbD_of_ge m _ (by omega)
        rw [hge]
        simp [h31, h24]
    · have hzero : m <<< n = 0 := BitVec.shiftLeft_eq_zero (by omega)
      have hnot : ¬ (1 ≤ n ∧ n ≤ 24) := by omega
      rw [hzero, decide_eq_false hnot, Bool.false_and, shiftLeft_zero_iff, or_iff_right h31,
        low_zero_iff]
      constructor
      · rintro ⟨h, hc⟩ i hi
        by_cases hik : i + n % 32 < 24
        · exact h i hik
        · by_cases h24 : i < 24
          · have hpos : (2 ^ 32 + 24 - n) % 32 = i := by omega
            rwa [hpos] at hc
          · exact BitVec.getLsbD_of_ge m i (by omega)
      · intro h
        refine ⟨fun i hi => h i (by omega), ?_⟩
        by_cases hc : (2 ^ 32 + 24 - n) % 32 < 24
        · exact h _ (by omega)
        · exact BitVec.getLsbD_of_ge m _ (by omega)

theorem lsr_eq_iff (k : LogicalCount) :
    m >>> k.amount s = m >>> k.value s ∧ k.lsrCarry s m = movedRight m (k.value s) ↔
      k.LsrExact s m := by
  rw [movedRight_eq]
  cases k with
  | imm n =>
    have hz : decide (n ≠ 0) = decide (n.toNat ≠ 0) := by
      rw [decide_eq_decide, ne_eq, ← BitVec.toNat_inj]
      rfl
    rw [amount, value, Nat.mod_eq_of_lt n.isLt, lsrCarry, LsrExact, hz]
    simp
  | reg src =>
    rw [amount, value, lsrCarry, LsrExact]
    have hlt := Nat.mod_lt (s.registers src).toNat (by decide : 0 < 64)
    generalize (s.registers src).toNat % 64 = n at hlt
    by_cases h31 : n ≤ 31
    · rw [Nat.mod_eq_of_lt (by omega)]
      by_cases h0 : n = 0
      · have hge : m.getLsbD ((2 ^ 32 + n - 1) % 32) = false := BitVec.getLsbD_of_ge m _ (by omega)
        rw [hge]
        simp [h0]
      · have hpos : (2 ^ 32 + n - 1) % 32 = n - 1 := by omega
        rw [hpos]
        simp [h31, h0]
    · have hzero : m >>> n = 0 := (ushiftRight_zero_iff m n).mpr fun i hi =>
        BitVec.getLsbD_of_ge m i (by omega)
      have hbit : m.getLsbD (n - 1) = false := BitVec.getLsbD_of_ge m _ (by omega)
      rw [hzero, hbit, Bool.and_false, ushiftRight_zero_iff, or_iff_right h31, high_zero_iff]
      constructor
      · rintro ⟨h, hc⟩ i hi
        by_cases hik : n % 32 ≤ i
        · exact h i hik
        · have hpos : (2 ^ 32 + n - 1) % 32 = i := by omega
          rwa [hpos] at hc
      · intro h
        refine ⟨fun i hi => h i (by omega), h _ (by omega)⟩

end LogicalCount

/-! Multi-bit shifts are runs of single-bit ones, up to the counts where they are not. -/

/-- Two shifts leave the same word and condition codes. -/
structure SameShift (t u : DspState σ) (d : Accumulator) : Prop where
  mid : mid (t.acc d) = mid (u.acc d)
  carry : flag (t.registers Reg.sr) Sr.c = flag (u.registers Reg.sr) Sr.c
  negative : flag (t.registers Reg.sr) Sr.n = flag (u.registers Reg.sr) Sr.n
  zero : flag (t.registers Reg.sr) Sr.z = flag (u.registers Reg.sr) Sr.z
  overflow : flag (t.registers Reg.sr) Sr.v = flag (u.registers Reg.sr) Sr.v

/-- What a shift does not touch. -/
structure Untouched (s t : DspState σ) (d : Accumulator) : Prop where
  high : (t.acc d).extractLsb' 48 8 = (s.acc d).extractLsb' 48 8
  low : (t.acc d).extractLsb' 0 24 = (s.acc d).extractLsb' 0 24
  other : ∀ d', d' ≠ d → t.acc d' = s.acc d'
  rest : ∀ k, k ∉ [Sr.c, Sr.v, Sr.z, Sr.n] → flag (regMasks Reg.sr) k = true →
    flag (t.registers Reg.sr) k = flag (s.registers Reg.sr) k
  registers : ∀ r, DspState.Outside r → r ≠ Reg.sr → t.registers r = s.registers r

theorem high_withMid (v : BitVec 56) (m : BitVec 24) :
    (withMid v m).extractLsb' 48 8 = v.extractLsb' 48 8 := by
  apply BitVec.eq_of_getLsbD_eq
  intro i hi
  have hge : ¬ (24 ≤ 48 + i ∧ 48 + i < 48) := by omega
  rw [BitVec.getLsbD_extractLsb', BitVec.getLsbD_extractLsb', getLsbD_withMid, if_neg hge]

theorem low_withMid (v : BitVec 56) (m : BitVec 24) :
    (withMid v m).extractLsb' 0 24 = v.extractLsb' 0 24 := by
  apply BitVec.eq_of_getLsbD_eq
  intro i hi
  have hlt : ¬ (24 ≤ 0 + i ∧ 0 + i < 48) := by omega
  rw [BitVec.getLsbD_extractLsb', BitVec.getLsbD_extractLsb', getLsbD_withMid, if_neg hlt]

namespace LogicalShifted

variable {t u : DspState σ} {d : Accumulator} {m m' : BitVec 24} {c c' : Bool}

theorem untouched (h : LogicalShifted s t d m c) : Untouched s t d where
  high := by rw [h.acc, high_withMid]
  low := by rw [h.acc, low_withMid]
  other := h.other
  rest := h.rest
  registers := h.registers

theorem same_iff (h : LogicalShifted s t d m c) (h' : LogicalShifted s u d m' c') :
    SameShift t u d ↔ m = m' ∧ c = c' := by
  constructor
  · intro hs
    exact ⟨by rw [← h.mid, hs.mid, h'.mid], by rw [← h.carry, hs.carry, h'.carry]⟩
  · rintro ⟨rfl, rfl⟩
    refine ⟨?_, ?_, ?_, ?_, ?_⟩
    · rw [h.mid, h'.mid]
    · rw [h.carry, h'.carry]
    · rw [h.negative, h'.negative]
    · rw [h.zero, h'.zero]
    · rw [h.overflow, h'.overflow]

end LogicalShifted

/-- A shift by `n` does what `n` single-bit ones do, by 0 it clears C and tells N and Z of the
word, and the rest of the state stays. -/
structure LogicalAgrees (s : DspState σ) (path step : DataPath) (n : Nat) (d : Accumulator) :
    Prop where
  zero : n = 0 → LogicalShifted s (s.execute path) d (mid (s.acc d)) false
  steps : 1 ≤ n → SameShift (s.execute path) (s.repeated step n) d
  untouched : Untouched s (s.execute path) d

theorem logicalAgrees_iff {path step : DataPath} {n : Nat} {d : Accumulator} {m m' : BitVec 24}
    {c c' : Bool} (h : LogicalShifted s (s.execute path) d m c)
    (hsteps : 1 ≤ n → LogicalShifted s (s.repeated step n) d m' c')
    (hzero : n = 0 → (m = m' ∧ c = c') ∧ m' = mid (s.acc d) ∧ c' = false) :
    LogicalAgrees s path step n d ↔ m = m' ∧ c = c' := by
  rcases Nat.eq_zero_or_pos n with rfl | hn
  · obtain ⟨⟨rfl, rfl⟩, rfl, rfl⟩ := hzero rfl
    have hpos : ¬ 1 ≤ 0 := by decide
    exact ⟨fun _ => ⟨rfl, rfl⟩, fun _ => ⟨fun _ => h, fun h1 => absurd h1 hpos, h.untouched⟩⟩
  · rw [← h.same_iff (hsteps hn)]
    exact ⟨fun ha => ha.steps hn, fun hs => ⟨fun h0 => absurd h0 hn.ne', fun _ => hs, h.untouched⟩⟩

namespace LogicalCount

variable (s : DspState σ) (k : LogicalCount) (d : Accumulator)

theorem lslExact_zero (h : k.value s = 0) (m : BitVec 24) : k.LslExact s m := by
  cases k with
  | imm n => exact .inl (by rw [value] at h; omega)
  | reg src => exact .inl (by rw [value] at h; omega)

theorem lsrExact_zero (h : k.value s = 0) (m : BitVec 24) : k.LsrExact s m := by
  cases k with
  | imm n => trivial
  | reg src => exact .inl (by rw [value] at h; omega)

theorem lslAgrees_iff : LogicalAgrees s (k.lsl d) (.parallelAlu (.lsl d)) (k.value s) d ↔
    k.LslExact s (mid (s.acc d)) := by
  rw [← lsl_eq_iff]
  apply logicalAgrees_iff (shifted_lsl s d k)
  · intro hn
    obtain ⟨n, hn⟩ : ∃ n, k.value s = n + 1 := ⟨k.value s - 1, by omega⟩
    have h := lsl_steps s d n
    rw [hn, movedLeft]
    simpa using h
  · intro h0
    refine ⟨(lsl_eq_iff s _ k).mpr (lslExact_zero s k h0 _), ?_, ?_⟩
    · rw [h0, BitVec.shiftLeft_zero]
    · rw [h0, movedLeft_eq]
      rfl

theorem lsrAgrees_iff : LogicalAgrees s (k.lsr d) (.parallelAlu (.lsr d)) (k.value s) d ↔
    k.LsrExact s (mid (s.acc d)) := by
  rw [← lsr_eq_iff]
  apply logicalAgrees_iff (shifted_lsr s d k)
  · intro hn
    obtain ⟨n, hn⟩ : ∃ n, k.value s = n + 1 := ⟨k.value s - 1, by omega⟩
    have h := lsr_steps s d n
    rw [hn, movedRight]
    simpa using h
  · intro h0
    refine ⟨(lsr_eq_iff s _ k).mpr (lsrExact_zero s k h0 _), ?_, ?_⟩
    · rw [h0, BitVec.ushiftRight_zero]
    · rw [h0, movedRight_eq]
      rfl

end LogicalCount

/-- Every form of a multi-bit logical shift does what its steps do, exactly up to these counts. -/
theorem multiBitLogicalShifts_agree_iff (s : DspState σ) (k : LogicalCount) (d : Accumulator) :
    LogicalAgrees s (k.lsl d) (.parallelAlu (.lsl d)) (k.value s) d ∧
      LogicalAgrees s (k.lsr d) (.parallelAlu (.lsr d)) (k.value s) d ↔
      k.LslExact s (mid (s.acc d)) ∧ k.LsrExact s (mid (s.acc d)) :=
  and_congr (LogicalCount.lslAgrees_iff s k d) (LogicalCount.lsrAgrees_iff s k d)

/-- A left shift of an odd word by 25 takes its C from bit 0. -/
theorem multiBitLogicalShifts_disagree :
    let s := DspState.ofRegs [(Reg.a1, 1)]
    ¬ (LogicalAgrees s (.lslImm 25 .a) (.parallelAlu (.lsl .a)) 25 .a ∧
      LogicalAgrees s (.lsrImm 25 .a) (.parallelAlu (.lsr .a)) 25 .a) := by
  rintro s ⟨hlsl, _⟩
  rcases (LogicalCount.lslAgrees_iff s (.imm 25) .a).mp hlsl with h | h
  · exact absurd h (by decide)
  · exact absurd h (by decide)

end Dsp56300
