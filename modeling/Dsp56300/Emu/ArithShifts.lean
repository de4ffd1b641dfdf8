import Dsp56300.Emu.AluEffects

/-! ASL and ASR: the multi-bit forms against single-bit steps. -/

namespace Dsp56300

open Emitter AluState Lib.Bits Lib.Words

variable {σ : Type}

/-! What a shift leaves: the result in an accumulator, C, V, and L collecting V. -/

structure Shifted (s t : DspState σ) (d : Accumulator) (r : BitVec 56) (c v : Bool) : Prop where
  acc : t.acc d = r
  other : ∀ d', d' ≠ d → t.acc d' = s.acc d'
  carry : flag (t.registers Reg.sr) Sr.c = c
  overflow : flag (t.registers Reg.sr) Sr.v = v
  limit : flag (t.registers Reg.sr) Sr.l = (flag (s.registers Reg.sr) Sr.l || v)
  unsaturated : t.Unsaturated

variable {s : DspState σ} {d : Accumulator}

theorem shifted_of_run {t : AluState σ} {r : BitVec 56} {c v : Bool}
    (hp : t.pendingFlags = none) (hc : t.Coherent) (hn : t.smNeedsSat = 0)
    (hcarry : flag t.sr Sr.c = c) (hover : flag t.sr Sr.v = v)
    (hlimit : flag t.sr Sr.l = (flag (s.registers Reg.sr) Sr.l || v))
    (hsm : flag t.sr Sr.sm = false) (hacc : t.acc d = r.setWidth 64)
    (hother : ∀ d', d' ≠ d → t.acc d' = s.reloadAcc d') :
    Shifted s (t.setPending (.nzSm (r.setWidth 64))).finalize d r c v := by
  have hflag {k : Nat} (hk : k ∈ [Sr.c, Sr.v, Sr.l, Sr.sm]) :
      flag ((t.setPending (.nzSm (r.setWidth 64))).finalize.registers Reg.sr) k = flag t.sr k := by
    rw [AluState.finalize_setPending_sr hp, hn]
    simp only [List.mem_cons, List.not_mem_nil, or_false] at hk
    rcases hk with rfl | rfl | rfl | rfl <;>
      simp +decide [PendingFlags.materialize]
  refine ⟨?_, fun d' hd' => ?_, ?_, ?_, ?_, ?_⟩
  · rw [AluState.finalize_setPending_acc hp hc, hacc, widen_narrow]
  · rw [AluState.finalize_setPending_acc hp hc, hother d' hd', DspState.acc]
  · rw [hflag (by simp), hcarry]
  · rw [hflag (by simp), hover]
  · rw [hflag (by simp), hlimit]
  · rw [DspState.Unsaturated, hflag (by simp), hsm]

/-! The single-bit steps. -/

/-- The code compares the two top bits. -/
theorem top_bits (v : BitVec 56) : (v.msb ^^ v.getLsbD 54) = decide (v.msb ≠ (v <<< 1).msb) := by
  rw [msb_shiftLeft v (by decide), Bool.eq_iff_iff, Bool.xor_iff_ne, decide_eq_true_eq]

theorem shifted_asl (hsm : s.Unsaturated) (d : Accumulator) :
    Shifted s (s.execute (.parallelAlu (.asl d))) d (s.acc d <<< 1) (s.acc d).msb
      (decide ((s.acc d).msb ≠ (s.acc d <<< 1).msb)) := by
  rw [← top_bits]
  rw [DspState.Unsaturated] at hsm
  have hval : mask56 ((s.acc d).setWidth 64 <<< 1) = (s.acc d <<< 1).setWidth 64 :=
    asl_value (s.acc d) (n := 1) (by decide)
  simp +decide [DspState.execute_eq, DataPath.emit, Alu.emitParallelAlu, Alu.emitAluAsl,
    DspState.reloadAcc_eq, extract_55, extract_54, hval, hsm]
  apply shifted_of_run
  case hc => exact (((Coherent.enter s).setSr _).setNeedsSat _).setAcc _ _
  case hother => exact fun d' hd' => by simp [hd']
  all_goals simp +decide [hsm]

theorem shifted_asr (hsm : s.Unsaturated) (d : Accumulator) :
    Shifted s (s.execute (.parallelAlu (.asr d))) d ((s.acc d).sshiftRight 1)
      ((s.acc d).getLsbD 0) false := by
  rw [DspState.Unsaturated] at hsm
  simp +decide [DspState.execute_eq, DataPath.emit, Alu.emitParallelAlu, Alu.emitAluAsr,
    DspState.reloadAcc_eq, asrOne_value, hsm, Alu.setCarry, Alu.clearVFlag, extract_0]
  apply shifted_of_run
  case hc => exact ((((Coherent.enter s).setSr _).setSr _).setNeedsSat _).setAcc _ _
  case hother => exact fun d' hd' => by simp [hd']
  all_goals simp +decide [hsm]

/-! Runs of single-bit steps. -/

/-- Some of `n` left shifts changes the sign. -/
def SignChanges (v : BitVec 56) (n : Nat) : Prop := ∃ i, i < n ∧ (v <<< i).msb ≠ (v <<< (i + 1)).msb

instance (v : BitVec 56) (n : Nat) : Decidable (SignChanges v n) :=
  inferInstanceAs (Decidable (∃ i, i < n ∧ _))

theorem signChanges_succ (v : BitVec 56) (n : Nat) :
    SignChanges v (n + 1) ↔ SignChanges v n ∨ (v <<< n).msb ≠ (v <<< (n + 1)).msb := by
  constructor
  · rintro ⟨i, hi, h⟩
    rcases Nat.lt_succ_iff_lt_or_eq.mp hi with hlt | rfl
    · exact .inl ⟨i, hlt, h⟩
    · exact .inr h
  · rintro (⟨i, hi, h⟩ | h)
    · exact ⟨i, by omega, h⟩
    · exact ⟨n, by omega, h⟩

/-- The signs never change where they are all the first. -/
theorem not_signChanges_iff (v : BitVec 56) (n : Nat) :
    ¬ SignChanges v n ↔ ∀ i, i ≤ n → (v <<< i).msb = v.msb := by
  induction n with
  | zero =>
    constructor
    · intro _ i hi
      rw [Nat.le_zero.mp hi, BitVec.shiftLeft_zero]
    · rintro _ ⟨i, hi, _⟩
      exact absurd hi (Nat.not_lt_zero i)
  | succ n ih =>
    rw [signChanges_succ, not_or, ih, not_not]
    constructor
    · rintro ⟨h, hn⟩ i hi
      rcases Nat.lt_succ_iff_lt_or_eq.mp (Nat.lt_succ_of_le hi) with hlt | rfl
      · exact h i (by omega)
      · rw [← hn, h n le_rfl]
    · intro h
      exact ⟨fun i hi => h i (by omega), by rw [h n (by omega), h (n + 1) le_rfl]⟩

/-- Up to 55 shifts lose no sign of a value that fits the rest of the word. -/
theorem signChanges_iff_fits (v : BitVec 56) {n : Nat} (hn : n ≤ 55) :
    SignChanges v n ↔ ¬ Fits (55 - n + 1) v.toInt := by
  rw [← not_iff_not, not_signChanges_iff, not_not, fits_iff_bits v (by omega)]
  constructor
  · intro h j hj hj'
    have hmsb := h (55 - j) (by omega)
    rwa [msb_shiftLeft v (by omega), Nat.sub_sub_self (by omega)] at hmsb
  · intro h i hi
    rw [msb_shiftLeft v (by omega)]
    exact h (55 - i) (by omega) (by omega)

/-- More shifts keep the sign of zero only. -/
theorem signChanges_iff_ne_zero (v : BitVec 56) {n : Nat} (hn : 56 ≤ n) :
    SignChanges v n ↔ v ≠ 0 := by
  rw [← not_iff_not, not_signChanges_iff, not_not]
  constructor
  · intro h
    have h56 := h 56 hn
    have hz : (v <<< 56).msb = false := by
      rw [BitVec.shiftLeft_eq_zero (by decide)]
      rfl
    apply BitVec.eq_of_getLsbD_eq
    intro j hj
    have hj' := h (55 - j) (by omega)
    rw [msb_shiftLeft v (by omega), Nat.sub_sub_self (by omega), ← h56, hz] at hj'
    exact hj'.trans BitVec.getLsbD_zero.symm
  · rintro rfl i _
    simp

theorem asl_steps (hsm : s.Unsaturated) (d : Accumulator) (n : Nat) :
    (s.repeated (.parallelAlu (.asl d)) n).Unsaturated ∧
      (s.repeated (.parallelAlu (.asl d)) n).acc d = s.acc d <<< n ∧
      flag ((s.repeated (.parallelAlu (.asl d)) n).registers Reg.sr) Sr.l =
        (flag (s.registers Reg.sr) Sr.l || decide (SignChanges (s.acc d) n)) := by
  induction n with
  | zero => exact ⟨hsm, by simp [DspState.repeated], by simp [DspState.repeated, SignChanges]⟩
  | succ n ih =>
    obtain ⟨hs, hacc, hl⟩ := ih
    have hstep := shifted_asl hs d
    rw [← DspState.repeated_succ, hacc, ← BitVec.shiftLeft_add] at hstep
    refine ⟨hstep.unsaturated, hstep.acc, ?_⟩
    rw [hstep.limit, hl, Bool.or_assoc, ← Bool.decide_or,
      decide_eq_decide.mpr (signChanges_succ (s.acc d) n)]

theorem asr_steps (hsm : s.Unsaturated) (d : Accumulator) (n : Nat) :
    (s.repeated (.parallelAlu (.asr d)) n).Unsaturated ∧
      (s.repeated (.parallelAlu (.asr d)) n).acc d = (s.acc d).sshiftRight n ∧
      flag ((s.repeated (.parallelAlu (.asr d)) n).registers Reg.sr) Sr.l =
        flag (s.registers Reg.sr) Sr.l := by
  induction n with
  | zero => exact ⟨hsm, by simp [DspState.repeated], by simp [DspState.repeated]⟩
  | succ n ih =>
    obtain ⟨hs, hacc, hl⟩ := ih
    have hstep := shifted_asr hs d
    rw [← DspState.repeated_succ, hacc, ← BitVec.sshiftRight_add] at hstep
    exact ⟨hstep.unsaturated, hstep.acc, by rw [hstep.limit, hl, Bool.or_false]⟩

/-! The multi-bit forms. -/

/-- Where a shift takes its count from: the instruction word or a register. -/
inductive ShiftCount where
  | imm (n : BitVec 6)
  | reg (src : RegIdx)

namespace ShiftCount

def value (s : DspState σ) : ShiftCount → Nat
  | imm n => n.toNat
  | reg src => (s.registers src).toNat % 64

def asl (src d : Accumulator) : ShiftCount → DataPath
  | imm n => .aslImm (n.setWidth 8) src d
  | reg r => .aslReg r src d

def asr (src d : Accumulator) : ShiftCount → DataPath
  | imm n => .asrImm (n.setWidth 8) src d
  | reg r => .asrReg r src d

/-- Emitting a left shift does not overflow. -/
def Emits : ShiftCount → Prop
  | imm n => (Alu.aslFieldMask n.toNat).isSome
  | reg _ => True

end ShiftCount

/-- The overflow test: the masked bits of a field are not all equal. -/
def mixed (field mask : BitVec 64) : Bool :=
  !(decide (field &&& mask = 0) || decide (field &&& mask = mask))

/-- V as the immediate form computes it. -/
def aslImmOverflow (v : BitVec 56) (n : Nat) : Bool :=
  decide (n ≠ 0) && mixed (v.setWidth 64 >>> (55 - n)) ((Alu.aslFieldMask n).getD 0)

/-- V as the register form computes it. -/
def aslRegOverflow (v : BitVec 56) (n : Word) : Bool :=
  mixed (ushr (v.setWidth 64) (55 - n)) (ishl (1 : BitVec 64) (n + 1) - 1)

/-- The end of a multi-bit shift: the result is stored, then C and V. -/
def shiftTail (r : BitVec 64) (update : Word → Word) (d : Accumulator) : Alu σ Unit := do
  let resultM ← Alu.emitSaturateSm r
  Alu.storeAcc d resultM
  let sr ← Alu.clearSrFlags ((1#32 <<< Sr.c) ||| (1#32 <<< Sr.v))
  Alu.storeReg Reg.sr (update sr)
  Alu.setPending (.nzSm resultM)

theorem shifted_tail (hsm : s.Unsaturated) {update : Word → Word} {c v : Bool}
    (hu : ∀ sr k, flag (update sr) k = (flag sr k || (decide (k = Sr.c) && c) ||
      ((decide (k = Sr.v) || decide (k = Sr.l)) && v))) (r : BitVec 56) (d : Accumulator) :
    Shifted s (Alu.after (shiftTail (r.setWidth 64) update d) (enter s)).finalize d r c v := by
  rw [DspState.Unsaturated] at hsm
  simp +decide [shiftTail, hsm]
  apply shifted_of_run
  case hc => exact (((Coherent.enter s).setNeedsSat _).setAcc _ _).setSr _
  case hother => exact fun d' hd' => by simp [hd']
  all_goals simp +decide [hsm, hu]

theorem flag_carryOverflow (c v : Bool) (sr : Word) (k : Nat) :
    flag (orVl (sr ||| shiftToBit (bit 32 c) Sr.c) (bit 32 v)) k =
      (flag sr k || (decide (k = Sr.c) && c) ||
        ((decide (k = Sr.v) || decide (k = Sr.l)) && v)) := by
  rw [flag_orVl, flag_or, flag_shiftToBit c (by decide)]

theorem flag_carry (c : Bool) (sr : Word) (k : Nat) :
    flag (sr ||| shiftToBit (bit 32 c) Sr.c) k =
      (flag sr k || (decide (k = Sr.c) && c) ||
        ((decide (k = Sr.v) || decide (k = Sr.l)) && false)) := by
  rw [flag_or, flag_shiftToBit c (by decide), Bool.and_false, Bool.or_false]

/-- An immediate count as the emitter's words hold it. -/
theorem immCount (n : BitVec 6) : (n.setWidth 8).setWidth 32 = n.setWidth 32 ∧
    (n.setWidth 32).toNat = n.toNat ∧ (n.setWidth 8).toNat = n.toNat :=
  ⟨by simp, BitVec.toNat_setWidth_of_le (by decide), BitVec.toNat_setWidth_of_le (by decide)⟩

theorem shifted_aslImm (hsm : s.Unsaturated) (n : BitVec 6) (src d : Accumulator) :
    Shifted s (s.execute (.aslImm (n.setWidth 8) src d)) d (s.acc src <<< n.toNat)
      ((s.acc src).getLsbD ((56 - n.setWidth 32 : Word).toNat % 64))
      (aslImmOverflow (s.acc src) n.toNat) := by
  obtain ⟨hn, hnat, hnat'⟩ := immCount n
  have hval := asl_value (s.acc src) (n := n.setWidth 32) (by omega)
  rw [hnat] at hval
  have hv : (if n.setWidth 8 = 0 then 0 else 1 - Emitter.ofBool
      (decide ((s.acc src).setWidth 64 >>> (55 - n.toNat) &&&
          (Alu.aslFieldMask n.toNat).getD 0 = 0) ||
        decide ((s.acc src).setWidth 64 >>> (55 - n.toNat) &&&
          (Alu.aslFieldMask n.toNat).getD 0 = (Alu.aslFieldMask n.toNat).getD 0))) =
      bit 32 (aslImmOverflow (s.acc src) n.toNat) := by
    have hz : n.setWidth 8 = 0 ↔ n.toNat = 0 := by
      rw [← BitVec.toNat_inj, hnat']
      rfl
    rw [one_sub_ofBool, aslImmOverflow]
    by_cases h0 : n.toNat = 0
    · rw [if_pos (hz.mpr h0)]
      simp [h0]
    · rw [if_neg fun h => h0 (hz.mp h), decide_eq_true h0, Bool.true_and, mixed]
  have h := shifted_tail hsm (flag_carryOverflow ((s.acc src).getLsbD
    ((56 - n.setWidth 32 : Word).toNat % 64)) (aslImmOverflow (s.acc src) n.toNat))
    (s.acc src <<< n.toNat) d
  simp only [shiftTail, Alu.after_bind] at h
  simp only [DspState.execute_eq, DataPath.emit, Alu.emitAslImm, Alu.after_bind, Alu.value_loadAcc,
    Alu.after_loadAcc, enter_acc, DspState.reloadAcc_eq, hn, hnat', hval, extract_mod, hv]
  exact h

theorem shifted_asrImm (hsm : s.Unsaturated) {n : BitVec 6} (hn0 : 0 < n.toNat)
    (src d : Accumulator) :
    Shifted s (s.execute (.asrImm (n.setWidth 8) src d)) d ((s.acc src).sshiftRight n.toNat)
      ((s.acc src).getLsbD (n.toNat - 1)) false := by
  obtain ⟨hn, hnat, hnat'⟩ := immCount n
  have hval := asr_value (s.acc src) (n := n.setWidth 32) (by omega)
  rw [hnat] at hval
  have hcarry : (if 0 < n.toNat then
      extractBitI64 ((s.acc src).setWidth 64) (n.setWidth 32 - 1) else 0) =
      bit 32 ((s.acc src).getLsbD (n.toNat - 1)) := by
    rw [if_pos hn0, extract_widen _ (k := n.toNat - 1) _ (by omega)]
    rw [BitVec.toNat_sub, hnat]
    have h1 : (1 : Word).toNat = 1 := rfl
    omega
  have h := shifted_tail hsm (flag_carry ((s.acc src).getLsbD (n.toNat - 1)))
    ((s.acc src).sshiftRight n.toNat) d
  simp only [shiftTail, Alu.after_bind] at h
  simp only [DspState.execute_eq, DataPath.emit, Alu.emitAsrImm, Alu.after_bind, Alu.value_loadAcc,
    Alu.after_loadAcc, enter_acc, DspState.reloadAcc_eq, hn, hnat', hval, hcarry]
  exact h

theorem shifted_aslReg (hsm : s.Unsaturated) (r : RegIdx) (src d : Accumulator) {n : Word}
    (hn : Alu.value (Alu.loadReg r) (enter s) &&& 0x3F = n) (hlt : n.toNat < 64) :
    Shifted s (s.execute (.aslReg r src d)) d (s.acc src <<< n.toNat)
      ((s.acc src).getLsbD ((56 - n).toNat % 64)) (aslRegOverflow (s.acc src) n) := by
  have hv : (1 : Word) - Emitter.ofBool
      (decide (ushr ((s.acc src).setWidth 64) (55 - n) &&&
          (ishl (1 : BitVec 64) (n + 1) - 1) = 0) ||
        decide (ushr ((s.acc src).setWidth 64) (55 - n) &&&
          (ishl (1 : BitVec 64) (n + 1) - 1) = ishl (1 : BitVec 64) (n + 1) - 1)) =
      bit 32 (aslRegOverflow (s.acc src) n) :=
    one_sub_ofBool _
  have h := shifted_tail hsm (flag_carryOverflow ((s.acc src).getLsbD ((56 - n).toNat % 64))
    (aslRegOverflow (s.acc src) n)) (s.acc src <<< n.toNat) d
  simp only [shiftTail, Alu.after_bind] at h
  simp only [DspState.execute_eq, DataPath.emit, Alu.emitAslReg, Alu.after_bind, Alu.value_loadAcc,
    Alu.after_loadAcc, Alu.after_loadReg, enter_acc, DspState.reloadAcc_eq, hn,
    asl_value (s.acc src) hlt, ushr_bit (s.acc src) rfl, hv]
  exact h

theorem shifted_asrReg (hsm : s.Unsaturated) (r : RegIdx) (src d : Accumulator) {n : Word}
    (hn : Alu.value (Alu.loadReg r) (enter s) &&& 0x3F = n) (hlt : n.toNat < 64) :
    Shifted s (s.execute (.asrReg r src d)) d ((s.acc src).sshiftRight n.toNat)
      ((s.acc src).getLsbD ((n - 1).toNat % 64)) false := by
  have h := shifted_tail hsm (flag_carry ((s.acc src).getLsbD ((n - 1).toNat % 64)))
    ((s.acc src).sshiftRight n.toNat) d
  simp only [shiftTail, Alu.after_bind] at h
  simp only [DspState.execute_eq, DataPath.emit, Alu.emitAsrReg, Alu.after_bind, Alu.value_loadAcc,
    Alu.after_loadAcc, Alu.after_loadReg, enter_acc, DspState.reloadAcc_eq, hn,
    asr_value (s.acc src) hlt, ushr_bit (s.acc src) rfl]
  exact h

/-! The flags of the multi-bit forms against those of the steps. -/

theorem mixed_eq (v : BitVec 56) {n : Nat} (hn : n ≤ 55) {mask : BitVec 64}
    (hm : mask.toNat = 2 ^ (n + 1) - 1) :
    mixed (v.setWidth 64 >>> (55 - n)) mask = decide (SignChanges v n) := by
  have hv := v.isLt
  have hpow : (2 : Nat) ^ 56 = 2 ^ (55 - n) * 2 ^ (n + 1) := by
    rw [← Nat.pow_add]
    congr 1
    omega
  have hfield : ((v.setWidth 64 >>> (55 - n)) &&& mask).toNat = v.toNat / 2 ^ (55 - n) := by
    rw [and_toNat hm, BitVec.toNat_ushiftRight, BitVec.toNat_setWidth_of_le (by decide),
      Nat.shiftRight_eq_div_pow]
    exact Nat.mod_eq_of_lt (Nat.div_lt_of_lt_mul (hpow ▸ hv))
  have hsub : 56 - (55 - n) = n + 1 := by omega
  rw [mixed, ← Bool.decide_or, ← decide_not, decide_eq_decide, signChanges_iff_fits v hn,
    fits_iff_high v (by omega), hsub, ← hfield, ← hm, ← BitVec.toNat_inj, ← BitVec.toNat_inj]
  rfl

theorem aslImmOverflow_eq (v : BitVec 56) {n : Nat} (h1 : 1 ≤ n) (hn : n ≤ 62) :
    aslImmOverflow v n = decide (SignChanges v n) := by
  have hmask : (Alu.aslFieldMask n).getD 0 = (1#64 <<< (n + 1)) - 1 := by
    rw [Alu.aslFieldMask, if_pos (by omega)]
    rfl
  have hnat : ((1#64 <<< (n + 1)) - 1).toNat = 2 ^ (n + 1) - 1 := lowMask_toNat (by omega)
  rw [aslImmOverflow, decide_eq_true (by omega), Bool.true_and, hmask]
  by_cases h55 : n ≤ 55
  · exact mixed_eq v h55 hnat
  · -- the field is the whole accumulator, shorter than the mask
    have hv := v.isLt
    have hpow : 2 ^ 57 ≤ 2 ^ (n + 1) := Nat.pow_le_pow_right (by decide) (by omega)
    have hfield : (v.setWidth 64 >>> (55 - n)) &&& ((1#64 <<< (n + 1)) - 1) = v.setWidth 64 := by
      rw [Nat.sub_eq_zero_of_le (by omega), BitVec.ushiftRight_zero]
      apply BitVec.eq_of_toNat_eq
      rw [and_toNat hnat, BitVec.toNat_setWidth_of_le (by decide), Nat.mod_eq_of_lt (by omega)]
    have hne : v.setWidth 64 ≠ (1#64 <<< (n + 1)) - 1 := by
      intro h
      have hh := congrArg BitVec.toNat h
      rw [hnat, BitVec.toNat_setWidth_of_le (by decide)] at hh
      omega
    rw [mixed, hfield, decide_eq_false hne, Bool.or_false, ← decide_not, decide_eq_decide,
      widen_eq_zero, signChanges_iff_ne_zero v (by omega)]

theorem aslRegOverflow_eq (v : BitVec 56) {n : Word} (hn : n.toNat ≤ 55) :
    aslRegOverflow v n = decide (SignChanges v n.toNat) := by
  have h55 : (55 : Word).toNat = 55 := rfl
  have h1 : (1 : Word).toNat = 1 := rfl
  have hshift : ushr (v.setWidth 64) (55 - n) = v.setWidth 64 >>> (55 - n.toNat) := by
    rw [ushr, BitVec.toNat_sub, h55]
    congr 1
    omega
  have hmask : ishl (1 : BitVec 64) (n + 1) = 1#64 <<< (n.toNat + 1) := by
    rw [ishl, BitVec.toNat_add, h1]
    congr 1
    omega
  rw [aslRegOverflow, hshift, hmask]
  exact mixed_eq v hn (lowMask_toNat (by omega))

/-- The position of the field wraps past the accumulator. -/
theorem aslRegOverflow_wraps (v : BitVec 56) {n : Word} (hn : 56 ≤ n.toNat) (hlt : n.toNat < 64) :
    aslRegOverflow v n = false := by
  have h55 : (55 : Word).toNat = 55 := rfl
  have hzero : ushr (v.setWidth 64) (55 - n) = 0 := by
    apply BitVec.eq_of_toNat_eq
    have hv := v.isLt
    have hpos : (55 - n).toNat % 64 = 119 - n.toNat := by
      rw [BitVec.toNat_sub, h55]
      omega
    have hpow : 2 ^ 56 ≤ 2 ^ (119 - n.toNat) := Nat.pow_le_pow_right (by decide) (by omega)
    rw [ushr, hpos, BitVec.toNat_ushiftRight, BitVec.toNat_setWidth_of_le (by decide),
      Nat.shiftRight_eq_div_pow, Nat.div_eq_of_lt (by omega)]
    rfl
  rw [aslRegOverflow, hzero, mixed]
  simp

/-- The carry of `n` left shifts is the bit the last of them moves out. -/
theorem asl_carry (v : BitVec 56) {n : Word} (h1 : 1 ≤ n.toNat) (hlt : n.toNat < 64) :
    v.getLsbD ((56 - n).toNat % 64) = (v <<< (n.toNat - 1)).msb := by
  have h56 : (56 : Word).toNat = 56 := rfl
  by_cases hn : n.toNat ≤ 56
  · rw [msb_shiftLeft v (by omega), BitVec.toNat_sub, h56]
    congr 1
    omega
  · rw [BitVec.shiftLeft_eq_zero (by omega), BitVec.toNat_sub, h56]
    have hge : 56 ≤ (2 ^ 32 - n.toNat + 56) % 2 ^ 32 % 64 := by omega
    rw [BitVec.getLsbD_of_ge _ _ hge]
    rfl

theorem asr_carry_iff (v : BitVec 56) {n : Nat} (h1 : 1 ≤ n) :
    v.getLsbD (n - 1) = (v.sshiftRight (n - 1))[0] ↔ n ≤ 56 ∨ v.msb = false := by
  have hbit : (v.sshiftRight (n - 1))[0] = (v.sshiftRight (n - 1)).getLsbD 0 := rfl
  rw [hbit, BitVec.getLsbD_sshiftRight]
  by_cases hn : n ≤ 56
  · have hlt : n - 1 < 56 := by omega
    simp [hn, hlt]
  · have hge : 56 ≤ n - 1 := by omega
    rw [BitVec.getLsbD_of_ge v _ hge]
    simp [hn, hge]

/-! Multi-bit shifts are runs of single-bit ones, up to the counts where they are not. -/

namespace ShiftCount

/-- V after a left shift. -/
def overflow (s : DspState σ) (v : BitVec 56) : ShiftCount → Bool
  | imm n => aslImmOverflow v n.toNat
  | reg r => aslRegOverflow v (BitVec.ofNat 32 ((s.registers r).toNat % 64))

/-- Where a left shift does what its steps do. -/
def AslExact (s : DspState σ) (v : BitVec 56) : ShiftCount → Prop
  | imm n => n.toNat ≤ 62
  | reg r => (s.registers r).toNat % 64 ≤ 55 ∨ v = 0

variable {k : ShiftCount}

theorem count_eq (s : DspState σ) (r : RegIdx) :
    Alu.value (Alu.loadReg r) (enter s) &&& 0x3F =
      BitVec.ofNat 32 ((s.registers r).toNat % 64) := by
  apply BitVec.eq_of_toNat_eq
  rw [Alu.value_loadReg_low6, BitVec.toNat_ofNat]
  omega

theorem ofNat_value (s : DspState σ) (r : RegIdx) :
    (BitVec.ofNat 32 ((s.registers r).toNat % 64)).toNat = (s.registers r).toNat % 64 := by
  rw [BitVec.toNat_ofNat]
  omega

theorem shifted_asl (hsm : s.Unsaturated) (k : ShiftCount) (h : 1 ≤ k.value s)
    (src d : Accumulator) :
    Shifted s (s.execute (k.asl src d)) d (s.acc src <<< k.value s)
      (s.acc src <<< (k.value s - 1)).msb (k.overflow s (s.acc src)) := by
  cases k with
  | imm n =>
    have hs := shifted_aslImm hsm n src d
    have hnat : (n.setWidth 32).toNat = n.toNat := BitVec.toNat_setWidth_of_le (by decide)
    rw [asl_carry _ (by rw [hnat]; exact h) (by omega), hnat] at hs
    exact hs
  | reg r =>
    have hv := ofNat_value s r
    have hs := shifted_aslReg hsm r src d (count_eq s r) (by omega)
    rw [asl_carry _ (by rw [hv]; exact h) (by omega), hv] at hs
    exact hs

theorem shifted_asr (hsm : s.Unsaturated) (k : ShiftCount) (h : 1 ≤ k.value s)
    (src d : Accumulator) :
    Shifted s (s.execute (k.asr src d)) d ((s.acc src).sshiftRight (k.value s))
      ((s.acc src).getLsbD (k.value s - 1)) false := by
  cases k with
  | imm n => exact shifted_asrImm hsm h src d
  | reg r =>
    have hv := ofNat_value s r
    have h1 : (1 : Word).toNat = 1 := rfl
    have hs := shifted_asrReg hsm r src d (count_eq s r) (by omega)
    have hpos : (BitVec.ofNat 32 ((s.registers r).toNat % 64) - 1).toNat % 64 =
        (s.registers r).toNat % 64 - 1 := by
      have hge : 1 ≤ (s.registers r).toNat % 64 := h
      rw [BitVec.toNat_sub, hv, h1]
      omega
    rw [hpos, hv] at hs
    exact hs

/-- The overflow is that of the steps, and an immediate count is emitted, on the exact counts. -/
theorem overflow_iff (s : DspState σ) (v : BitVec 56) (k : ShiftCount) (h : 1 ≤ k.value s) :
    k.Emits ∧ k.overflow s v = decide (SignChanges v (k.value s)) ↔ k.AslExact s v := by
  cases k with
  | imm n =>
    have hemits : (imm n).Emits ↔ n.toNat ≤ 62 := by
      rw [Emits, Alu.aslFieldMask]
      split
      · simp; omega
      · simp; omega
    constructor
    · exact fun hh => hemits.mp hh.1
    · exact fun hn => ⟨hemits.mpr hn, aslImmOverflow_eq v h hn⟩
  | reg r =>
    have hv := ofNat_value s r
    have hlt : (s.registers r).toNat % 64 < 64 := Nat.mod_lt _ (by decide)
    by_cases hn : (s.registers r).toNat % 64 ≤ 55
    · refine ⟨fun _ => .inl hn, fun _ => ⟨trivial, ?_⟩⟩
      exact (aslRegOverflow_eq v (by omega)).trans (by rw [hv]; rfl)
    · have hwrap : (reg r).overflow s v = false := aslRegOverflow_wraps v (by omega) (by omega)
      have hchange : SignChanges v ((reg r).value s) ↔ v ≠ 0 :=
        signChanges_iff_ne_zero v (by rw [value]; omega)
      rw [hwrap, AslExact, eq_comm, decide_eq_false_iff_not, hchange, not_not]
      simp [hn, Emits]

end ShiftCount

/-- A left shift does what as many single-bit ones do, V telling whether one of them changes the
sign. -/
structure AslAgrees (s : DspState σ) (k : ShiftCount) (src d : Accumulator) : Prop where
  emits : k.Emits
  acc : (s.execute (k.asl src d)).acc d =
    (s.repeated (.parallelAlu (.asl src)) (k.value s)).acc src
  carry : flag ((s.execute (k.asl src d)).registers Reg.sr) Sr.c =
    flag ((s.repeated (.parallelAlu (.asl src)) (k.value s)).registers Reg.sr) Sr.c
  overflow : flag ((s.execute (k.asl src d)).registers Reg.sr) Sr.v = true ↔
    ∃ i, i < k.value s ∧ ((s.repeated (.parallelAlu (.asl src)) i).acc src).msb ≠
      ((s.repeated (.parallelAlu (.asl src)) (i + 1)).acc src).msb
  limit : flag ((s.execute (k.asl src d)).registers Reg.sr) Sr.l =
    flag ((s.repeated (.parallelAlu (.asl src)) (k.value s)).registers Reg.sr) Sr.l

/-- A right shift does what as many single-bit ones do, with V clear. -/
structure AsrAgrees (s : DspState σ) (k : ShiftCount) (src d : Accumulator) : Prop where
  acc : (s.execute (k.asr src d)).acc d =
    (s.repeated (.parallelAlu (.asr src)) (k.value s)).acc src
  carry : flag ((s.execute (k.asr src d)).registers Reg.sr) Sr.c =
    flag ((s.repeated (.parallelAlu (.asr src)) (k.value s)).registers Reg.sr) Sr.c
  overflow : flag ((s.execute (k.asr src d)).registers Reg.sr) Sr.v = false
  limit : flag ((s.execute (k.asr src d)).registers Reg.sr) Sr.l =
    flag ((s.repeated (.parallelAlu (.asr src)) (k.value s)).registers Reg.sr) Sr.l

theorem asl_steps_carry (hsm : s.Unsaturated) (d : Accumulator) {n : Nat} (h : 1 ≤ n) :
    flag ((s.repeated (.parallelAlu (.asl d)) n).registers Reg.sr) Sr.c =
      (s.acc d <<< (n - 1)).msb := by
  obtain ⟨m, rfl⟩ : ∃ m, n = m + 1 := ⟨n - 1, by omega⟩
  obtain ⟨hs, hacc, _⟩ := asl_steps hsm d m
  rw [DspState.repeated_succ, (shifted_asl hs d).carry, hacc, Nat.add_sub_cancel]

theorem asr_steps_carry (hsm : s.Unsaturated) (d : Accumulator) {n : Nat} (h : 1 ≤ n) :
    flag ((s.repeated (.parallelAlu (.asr d)) n).registers Reg.sr) Sr.c =
      ((s.acc d).sshiftRight (n - 1))[0] := by
  obtain ⟨m, rfl⟩ : ∃ m, n = m + 1 := ⟨n - 1, by omega⟩
  obtain ⟨hs, hacc, _⟩ := asr_steps hsm d m
  have hc := (shifted_asr hs d).carry
  simp only [hacc] at hc
  rw [DspState.repeated_succ, hc, Nat.add_sub_cancel]
  rfl

theorem aslAgrees_iff (hsm : s.Unsaturated) (k : ShiftCount) (h : 1 ≤ k.value s)
    (src d : Accumulator) : AslAgrees s k src d ↔ k.AslExact s (s.acc src) := by
  have hk := k.shifted_asl hsm h src d
  have hsteps := asl_steps hsm src
  have hchange : (∃ i, i < k.value s ∧ ((s.repeated (.parallelAlu (.asl src)) i).acc src).msb ≠
      ((s.repeated (.parallelAlu (.asl src)) (i + 1)).acc src).msb) ↔
      SignChanges (s.acc src) (k.value s) := by
    simp only [(hsteps _).2.1]
    rfl
  have hiff : (k.overflow s (s.acc src) = true ↔ SignChanges (s.acc src) (k.value s)) ↔
      k.overflow s (s.acc src) = decide (SignChanges (s.acc src) (k.value s)) := by
    by_cases hs : SignChanges (s.acc src) (k.value s) <;> simp [hs]
  rw [← k.overflow_iff s (s.acc src) h]
  constructor
  · intro ha
    have hov := ha.overflow
    rw [hk.overflow, hchange] at hov
    exact ⟨ha.emits, hiff.mp hov⟩
  · rintro ⟨hemits, hov⟩
    refine ⟨hemits, ?_, ?_, ?_, ?_⟩
    · rw [hk.acc, (hsteps _).2.1]
    · rw [hk.carry, asl_steps_carry hsm src h]
    · rw [hk.overflow, hchange]
      exact hiff.mpr hov
    · rw [hk.limit, (hsteps _).2.2, hov]

theorem asrAgrees_iff (hsm : s.Unsaturated) (k : ShiftCount) (h : 1 ≤ k.value s)
    (src d : Accumulator) :
    AsrAgrees s k src d ↔ k.value s ≤ 56 ∨ (s.acc src).msb = false := by
  have hk := k.shifted_asr hsm h src d
  have hsteps := asr_steps hsm src
  rw [← asr_carry_iff (s.acc src) h]
  constructor
  · intro ha
    rw [← hk.carry, ha.carry, asr_steps_carry hsm src h]
  · intro hc
    refine ⟨?_, ?_, hk.overflow, ?_⟩
    · rw [hk.acc, (hsteps _).2.1]
    · rw [hk.carry, asr_steps_carry hsm src h, hc]
    · rw [hk.limit, (hsteps _).2.2, Bool.or_false]

/-- Every form of a multi-bit shift does what its steps do, exactly up to these counts. -/
theorem multiBitShifts_agree_iff {s : DspState σ} (hsm : s.Unsaturated) (k : ShiftCount)
    (h : 1 ≤ k.value s) (src d : Accumulator) :
    AslAgrees s k src d ∧ AsrAgrees s k src d ↔
      k.AslExact s (s.acc src) ∧ (k.value s ≤ 56 ∨ (s.acc src).msb = false) :=
  and_congr (aslAgrees_iff hsm k h src d) (asrAgrees_iff hsm k h src d)

theorem multiBitShifts_agree_three :
    let s := DspState.ofRegs [(Reg.a1, 1), (Reg.x0, 3)]
    AslAgrees s (.reg Reg.x0) .a .b ∧ AsrAgrees s (.reg Reg.x0) .a .b :=
  (multiBitShifts_agree_iff (by decide) (.reg Reg.x0) (by decide) .a .b).mpr
    ⟨.inl (by decide), .inl (by decide)⟩

/-- A shift of a single bit by 56 moves it out and does not tell. -/
theorem multiBitShifts_disagree :
    let s := DspState.ofRegs [(Reg.a1, 1), (Reg.x0, 56)]
    ¬ (AslAgrees s (.reg Reg.x0) .a .a ∧ AsrAgrees s (.reg Reg.x0) .a .a) := by
  rintro _ ⟨hasl, _⟩
  rcases (aslAgrees_iff (by decide) (.reg Reg.x0) (by decide) .a .a).mp hasl with h | h
  · exact absurd h (by decide)
  · exact absurd h (by decide)

end Dsp56300
