import Dsp56300.Emu.ArithShifts
import Dsp56300.Lib.Digits

/-! Normalization: iterated NORM against CLB and NORMF. -/

namespace Dsp56300

open Emitter AluState Lib.Bits Lib.Digits Lib.Words SrUpdate

variable {σ : Type}

/-! The values a normalization goes through. -/

section Values

variable (v : BitVec 56)

theorem digits_le (v : BitVec 56) : digits v.toInt ≤ 55 := by
  rw [← fits_iff_digits]
  exact fits_toInt v

theorem digits_sshiftRight : digits (v.sshiftRight 1).toInt = digits v.toInt - 1 := by
  rw [BitVec.toInt_sshiftRight, Int.shiftRight_eq_div_pow]
  exact digits_half v.toInt

theorem toInt_ne_zero {v : BitVec 56} (h : v ≠ 0) : v.toInt ≠ 0 := by
  intro h0
  exact h (BitVec.toInt_inj.mp (h0.trans BitVec.toInt_zero.symm))

variable {v}

theorem toInt_shiftLeft_one (h : digits v.toInt ≤ 54) : (v <<< 1).toInt = 2 * v.toInt := by
  have hfits : Fits 55 v.toInt := (fits_iff_digits _ _).mpr h
  rw [toInt_shiftLeft_of_fits (by decide), Int.pow_one, Int.mul_comm]
  obtain ⟨hlo, hhi⟩ := hfits
  constructor <;> omega

theorem digits_shiftLeft (h : digits v.toInt ≤ 54) (hv : v ≠ 0) :
    digits (v <<< 1).toInt = digits v.toInt + 1 := by
  rw [toInt_shiftLeft_one h, digits_double (toInt_ne_zero hv)]

/-- One step towards 47 digits. -/
def normStep (v : BitVec 56) : BitVec 56 :=
  if 47 < digits v.toInt then v.sshiftRight 1
  else if digits v.toInt < 47 then v <<< 1 else v

/-- The value with 47 digits. -/
def normalized (v : BitVec 56) : BitVec 56 :=
  if 47 < digits v.toInt then v.sshiftRight (digits v.toInt - 47)
  else v <<< (47 - digits v.toInt)

theorem normStep_settled (h : digits v.toInt = 47) : normStep v = v := by
  rw [normStep, h, if_neg (by decide), if_neg (by decide)]

theorem normStep_ne_zero (hv : v ≠ 0) : normStep v ≠ 0 := by
  have h0 : digits (0 : BitVec 56).toInt = 0 := rfl
  rw [normStep]
  split_ifs with hgt hlt
  · intro h
    have hd := digits_sshiftRight v
    rw [h, h0] at hd
    omega
  · intro h
    have hd := digits_shiftLeft (v := v) (by omega) hv
    rw [h, h0] at hd
    omega
  · exact hv

/-- A step comes closer by one digit. -/
theorem digits_normStep (hv : v ≠ 0) : digits (normStep v).toInt =
    if 47 < digits v.toInt then digits v.toInt - 1
    else if digits v.toInt < 47 then digits v.toInt + 1 else digits v.toInt := by
  rw [normStep]
  split_ifs with hgt hlt
  · exact digits_sshiftRight v
  · exact digits_shiftLeft (by omega) hv
  · rfl

theorem normalized_normStep (hv : v ≠ 0) : normalized (normStep v) = normalized v := by
  have hd := digits_normStep hv
  rw [normalized, hd]
  by_cases hgt : 47 < digits v.toInt
  · have hstep : normStep v = v.sshiftRight 1 := if_pos hgt
    rw [if_pos hgt, normalized, if_pos hgt, hstep]
    by_cases h48 : digits v.toInt = 48
    · rw [h48, if_neg (by decide), BitVec.shiftLeft_zero]
    · have hsum : digits v.toInt - 47 = 1 + (digits v.toInt - 1 - 47) := by omega
      rw [if_pos (by omega), hsum, BitVec.sshiftRight_add]
  · rw [if_neg hgt, normalized, if_neg hgt]
    by_cases hlt : digits v.toInt < 47
    · have hstep : normStep v = v <<< 1 := by rw [normStep, if_neg hgt, if_pos hlt]
      have hsum : 47 - digits v.toInt = 1 + (47 - (digits v.toInt + 1)) := by omega
      rw [if_pos hlt, if_neg (by omega), hstep, hsum, BitVec.shiftLeft_add]
    · rw [if_neg hlt, if_neg hgt, normStep_settled (by omega)]

/-- Enough steps reach it. -/
theorem normStep_iterate (k : Nat) (hv : v ≠ 0) (hlo : digits v.toInt ≤ 47 + k)
    (hhi : 47 ≤ digits v.toInt + k) :
    normStep^[k] v = normalized v ∧ digits (normStep^[k] v).toInt = 47 := by
  induction k generalizing v with
  | zero =>
    have h : digits v.toInt = 47 := by omega
    have hn : normalized v = v := by
      rw [normalized, h, if_neg (by decide), BitVec.shiftLeft_zero]
    exact ⟨hn.symm, h⟩
  | succ k ih =>
    have hd := digits_normStep hv
    have hnear : digits (normStep v).toInt ≤ 47 + k ∧ 47 ≤ digits (normStep v).toInt + k := by
      rw [hd]
      split_ifs <;> omega
    obtain ⟨hn, hk⟩ := ih (normStep_ne_zero hv) hnear.1 hnear.2
    rw [Function.iterate_succ_apply, normalized_normStep hv] at *
    exact ⟨hn, hk⟩

end Values

/-! One NORM. -/

section Norm

variable (sr : Word) (v : BitVec 56)

/-- NORM shifts left where E and Z are clear and U is set. -/
def normLeft : Bool := !flag sr Sr.e && flag sr Sr.u && !flag sr Sr.z

def normResult : BitVec 56 :=
  if flag sr Sr.e then v.sshiftRight 1 else if normLeft sr then v <<< 1 else v

def normCount (rn : Word) : Word :=
  if flag sr Sr.e then rn + 1 else if normLeft sr then rn - 1 else rn

def normOverflow : Bool := (v.msb ^^ (v <<< 1).msb) && normLeft sr

/-- The address register of a NORM. -/
def normReg (i : BitVec 3) : RegIdx := Alu.rreg (i.setWidth 8)

theorem normReg_outside (i : BitVec 3) : DspState.Outside (normReg i) ∧ normReg i ≠ Reg.sr ∧
    regMasks (normReg i) = 0xFFFFFF := by
  revert i
  decide

/-- Where NORM leaves what it works on, before the flags. -/
def normAfter (t : DspState σ) (i : BitVec 3) (d : Accumulator) : AluState σ :=
  ((((enter t).setNeedsSat 0).setAcc d
    ((normResult (t.registers Reg.sr) (t.acc d)).setWidth 64)).setOuter
      (maskReg (normReg i) (normCount (t.registers Reg.sr) (t.registers (normReg i)) &&&
        regMasks Reg.r0)) (normReg i))

theorem execute_norm {t : DspState σ} (hsm : t.Unsaturated) (i : BitVec 3) (d : Accumulator) :
    t.execute (.norm (i.setWidth 8) d) =
      ((normAfter t i d).setPending (.nzVlSm
        ((normResult (t.registers Reg.sr) (t.acc d)).setWidth 64)
        (bit 32 (normOverflow (t.registers Reg.sr) (t.acc d))))).finalize := by
  obtain ⟨hout, hsr, _⟩ := normReg_outside i
  rw [DspState.Unsaturated] at hsm
  have hright :
      extractBit (t.registers Reg.sr) Sr.e ≠ 0 ↔ flag (t.registers Reg.sr) Sr.e = true := by
    rw [extractBit_eq, show (0 : Word) = 0#32 from rfl, ne_eq, bit_eq_zero (by decide)]
    simp
  have hbits : (1 - extractBit (t.registers Reg.sr) Sr.e) &&&
      extractBit (t.registers Reg.sr) Sr.u &&& (1 - extractBit (t.registers Reg.sr) Sr.z) =
      bit 32 (normLeft (t.registers Reg.sr)) := by
    rw [extractBit_eq, extractBit_eq, extractBit_eq, show (1 : Word) = 1#32 from rfl, one_sub_bit,
      one_sub_bit, bit_and, bit_and]
    rfl
  have hleft :
      bit 32 (normLeft (t.registers Reg.sr)) ≠ 0 ↔ normLeft (t.registers Reg.sr) = true := by
    rw [show (0 : Word) = 0#32 from rfl, ne_eq, bit_eq_zero (by decide)]
    simp
  have hshift : mask56 ((t.acc d).setWidth 64 <<< 1) = (t.acc d <<< 1).setWidth 64 :=
    asl_value (t.acc d) (n := 1) (by decide)
  have hres : (if extractBit (t.registers Reg.sr) Sr.e ≠ 0 then
        ((t.acc d).sshiftRight 1).setWidth 64
      else if bit 32 (normLeft (t.registers Reg.sr)) ≠ 0 then (t.acc d <<< 1).setWidth 64
      else (t.acc d).setWidth 64) = (normResult (t.registers Reg.sr) (t.acc d)).setWidth 64 := by
    simp only [hright, hleft, normResult]
    split_ifs <;> rfl
  have hcount (rn : Word) : (if extractBit (t.registers Reg.sr) Sr.e ≠ 0 then rn + 1
      else if bit 32 (normLeft (t.registers Reg.sr)) ≠ 0 then rn - 1 else rn) =
      normCount (t.registers Reg.sr) rn := by
    simp only [hright, hleft, normCount]
  have hov : (extractBitI64 ((t.acc d).setWidth 64) 55 ^^^
      extractBitI64 ((t.acc d <<< 1).setWidth 64) 55) &&&
      Emitter.ofBool (bit 32 (normLeft (t.registers Reg.sr)) ≠ 0) =
      bit 32 (normOverflow (t.registers Reg.sr) (t.acc d)) := by
    have h55 (w : BitVec 56) : extractBitI64 (w.setWidth 64) 55 = bit 32 w.msb := extract_55 w
    have hd : decide (bit 32 (normLeft (t.registers Reg.sr)) ≠ 0) =
        normLeft (t.registers Reg.sr) := by
      rw [Bool.eq_iff_iff, decide_eq_true_eq]
      exact hleft
    rw [h55, h55, bit_xor, Emitter.ofBool_eq, hd, bit_and]
    rfl
  rw [DspState.execute_eq, DataPath.emit]
  simp only [Alu.emitNorm, Alu.after_bind, Alu.value_loadSr, Alu.after_loadSr,
    flush_settled (enter_pendingFlags t), enter_sr, Alu.value_loadAcc, Alu.after_loadAcc, enter_acc,
    DspState.reloadAcc_eq, hbits, hshift, asrOne_eq, hres]
  rw [Alu.value_saturate_off (by exact hsm), Alu.after_saturate_off (by exact hsm)]
  have hreg : Alu.rreg (i.setWidth 8) = normReg i := rfl
  rw [hcount, hov, hreg, Alu.value_loadOuter _ hout hsr, Alu.after_loadOuter _ hsr,
    Alu.after_storeOuter _ hout hsr]
  rfl

end Norm

/-! What a run of NORM keeps. -/

/-- No scaling and no saturation. -/
structure Plain (sr : Word) : Prop where
  s0 : flag sr Sr.s0 = false
  s1 : flag sr Sr.s1 = false
  sm : flag sr Sr.sm = false

section Plain

variable {sr : Word} (h : Plain sr) {v : BitVec 56}

include h

theorem Plain.signBit : signBit sr = some 47 := by rw [signBit_eq, h.s0, h.s1]

theorem Plain.extended : extended sr v = decide (47 < digits v.toInt) := by
  have hfits := fits_iff_digits v.toInt 47
  rw [Dsp56300.extended, h.signBit]
  simp only [hfits]
  rw [← decide_not, decide_eq_decide, Nat.not_le]

theorem Plain.unnormalized (hd : digits v.toInt ≤ 47) :
    unnormalized sr v = decide (digits v.toInt < 47) := by
  have h47 := (fits_iff_bits v (k := 47) (by decide)).mp ((fits_iff_digits _ _).mpr hd)
  have h46 := fits_iff_bits v (k := 46) (by decide)
  rw [Dsp56300.unnormalized, h.signBit, Bool.eq_iff_iff, beq_iff_eq, decide_eq_true_eq,
    Nat.lt_succ_iff, ← fits_iff_digits, h46, h47 47 le_rfl (by decide)]
  constructor
  · intro hbit j hj hlt
    rcases Nat.eq_or_lt_of_le hj with rfl | hgt
    · exact hbit.symm
    · exact h47 j hgt hlt
  · exact fun hall => (hall 46 le_rfl (by decide)).symm

theorem Plain.resultFlags {sr' : Word} {ov : Bool} (hf : ∀ k, flag sr' k = resultFlags sr v ov k) :
    Plain sr' := by
  refine ⟨?_, ?_, ?_⟩
  · rw [hf]
    simp +decide [Dsp56300.resultFlags, h.s0]
  · rw [hf]
    simp +decide [Dsp56300.resultFlags, h.s1]
  · rw [hf]
    simp +decide [Dsp56300.resultFlags, h.sm]

end Plain

/-- The condition codes NORM reads tell of the accumulator. -/
structure Normalizing (t : DspState σ) (d : Accumulator) : Prop where
  plain : Plain (t.registers Reg.sr)
  extension : flag (t.registers Reg.sr) Sr.e = decide (47 < digits (t.acc d).toInt)
  unit : digits (t.acc d).toInt ≤ 47 →
    flag (t.registers Reg.sr) Sr.u = decide (digits (t.acc d).toInt < 47)
  zero : flag (t.registers Reg.sr) Sr.z = decide (t.acc d = 0)
  overflow : flag (t.registers Reg.sr) Sr.v = false

theorem normalizing_of_flags {sr : Word} (h : Plain sr) {t : DspState σ} {d : Accumulator}
    (hf : ∀ k, flag (t.registers Reg.sr) k = resultFlags sr (t.acc d) false k) :
    Normalizing t d where
  plain := h.resultFlags hf
  extension := by
    rw [hf, resultFlags, if_pos rfl, h.extended]
  unit hd := by
    rw [hf, resultFlags, if_neg (by decide), if_pos rfl, h.unnormalized hd]
  zero := by
    rw [hf]
    simp +decide [resultFlags]
  overflow := by
    rw [hf]
    simp +decide [resultFlags]

section Step

variable {t : DspState σ} {d : Accumulator} (h : Normalizing t d) (hv : t.acc d ≠ 0)

include h hv

theorem Normalizing.left :
    normLeft (t.registers Reg.sr) = decide (digits (t.acc d).toInt < 47) := by
  rw [normLeft, h.extension, h.zero, decide_eq_false hv, Bool.not_false, Bool.and_true]
  by_cases hd : digits (t.acc d).toInt ≤ 47
  · rw [h.unit hd, decide_eq_false (by omega), Bool.not_false, Bool.true_and]
  · rw [decide_eq_true (by omega), decide_eq_false (by omega), Bool.not_true, Bool.false_and]

theorem Normalizing.result :
    normResult (t.registers Reg.sr) (t.acc d) = normStep (t.acc d) := by
  rw [normResult, h.left hv, h.extension, normStep]
  simp only [decide_eq_true_eq]

theorem Normalizing.noOverflow : normOverflow (t.registers Reg.sr) (t.acc d) = false := by
  rw [normOverflow, h.left hv]
  by_cases hd : digits (t.acc d).toInt < 47
  · have hdouble := toInt_shiftLeft_one (v := t.acc d) (by omega)
    have hmsb : (t.acc d).msb = (t.acc d <<< 1).msb := by
      rw [BitVec.msb_eq_toInt, BitVec.msb_eq_toInt, hdouble, decide_eq_decide]
      omega
    rw [hmsb, Bool.xor_self, Bool.false_and]
  · rw [decide_eq_false hd, Bool.and_false]

/-- The address register counts the digits. -/
theorem Normalizing.count (rn : Word) : (normCount (t.registers Reg.sr) rn).setWidth 24 =
    rn.setWidth 24 + BitVec.ofInt 24 ((digits (t.acc d).toInt : Int) -
      digits (normStep (t.acc d)).toInt) := by
  have hstep := digits_normStep hv
  have h1 : ((1 : Word).setWidth 24) = 1 := rfl
  rw [normCount, h.left hv, h.extension, hstep]
  simp only [decide_eq_true_eq]
  split_ifs with hgt hlt
  · have hone : (digits (t.acc d).toInt : Int) - (digits (t.acc d).toInt - 1 : Nat) = 1 := by omega
    rw [hone, BitVec.setWidth_add _ _ (by decide), h1]
    rfl
  · have hone : (digits (t.acc d).toInt : Int) - (digits (t.acc d).toInt + 1 : Nat) = -1 := by omega
    rw [hone, setWidth_sub (by decide), h1, BitVec.sub_eq_add_neg]
    rfl
  · rw [Int.sub_self]
    exact (BitVec.add_zero _).symm

end Step

variable {t : DspState σ} {d : Accumulator}

theorem normAfter_coherent (t : DspState σ) (i : BitVec 3) (d : Accumulator) :
    (normAfter t i d).Coherent :=
  (((Coherent.enter t).setNeedsSat _).setAcc _ _).setOuter _ (normReg_outside i).1

theorem normAfter_sr (t : DspState σ) (i : BitVec 3) (d : Accumulator) :
    (normAfter t i d).sr = t.registers Reg.sr := by
  rw [normAfter, setOuter_sr _ _ (normReg_outside i).2.1]
  rfl

theorem normAfter_reg (t : DspState σ) (i : BitVec 3) (d : Accumulator) :
    (normAfter t i d).dsp.registers (normReg i) =
      normCount (t.registers Reg.sr) (t.registers (normReg i)) &&& 0xFFFFFF := by
  have hset : (normAfter t i d).dsp.registers (normReg i) = maskReg (normReg i)
      (normCount (t.registers Reg.sr) (t.registers (normReg i)) &&& regMasks Reg.r0) :=
    DspState.setReg_same ..
  have hr0 : regMasks Reg.r0 = 0xFFFFFF := rfl
  rw [hset, maskReg, (normReg_outside i).2.2, hr0, mask_mask]

/-- A step of NORM is a step towards 47 digits, which the address register counts. -/
theorem normalizing_step (h : Normalizing t d) (hv : t.acc d ≠ 0) (i : BitVec 3) :
    (t.execute (.norm (i.setWidth 8) d)).acc d = normStep (t.acc d) ∧
      ((t.execute (.norm (i.setWidth 8) d)).registers (normReg i)).setWidth 24 =
        (t.registers (normReg i)).setWidth 24 +
          BitVec.ofInt 24 ((digits (t.acc d).toInt : Int) - digits (normStep (t.acc d)).toInt) ∧
      Normalizing (t.execute (.norm (i.setWidth 8) d)) d := by
  obtain ⟨hout, hsr, _⟩ := normReg_outside i
  have hnone : (normAfter t i d).pendingFlags = none := rfl
  rw [execute_norm h.plain.sm, h.result hv, h.noOverflow hv]
  have hacc : (((normAfter t i d).setPending (.nzVlSm ((normStep (t.acc d)).setWidth 64)
      (bit 32 false))).finalize).acc d = normStep (t.acc d) := by
    rw [finalize_setPending_acc hnone (normAfter_coherent t i d), normAfter, setOuter_acc,
      setAcc_acc, h.result hv, widen_narrow]
  refine ⟨hacc, ?_, normalizing_of_flags h.plain fun k => ?_⟩
  · have hcut := setWidth_mask24 (normCount (t.registers Reg.sr) (t.registers (normReg i)))
    rw [mask24] at hcut
    rw [finalize_setPending_registers hnone _ hout hsr, normAfter_reg, hcut, h.count hv]
  · rw [hacc, finalize_setPending_sr hnone, normAfter_sr]
    exact flag_nzVlSm (normStep (t.acc d)) false (t.registers Reg.sr) k

/-- TST prepares the condition codes. -/
theorem normalizing_tst {s : DspState σ} (h : Plain (s.registers Reg.sr)) (d : Accumulator) :
    (s.execute (.parallelAlu (.tst d))).acc d = s.acc d ∧
      Normalizing (s.execute (.parallelAlu (.tst d))) d ∧
      ∀ r, DspState.Outside r → r ≠ Reg.sr →
        (s.execute (.parallelAlu (.tst d))).registers r = s.registers r := by
  have he : s.execute (.parallelAlu (.tst d)) =
      ((enter s).setPending (.nzClearV ((s.acc d).setWidth 64))).finalize := by
    have hm : mask56 (s.reloadAcc d) = (s.acc d).setWidth 64 := by
      rw [DspState.reloadAcc_eq, mask56_widen]
    rw [← hm]
    rfl
  have hacc : (s.execute (.parallelAlu (.tst d))).acc d = s.acc d := by
    rw [he, finalize_setPending_acc rfl (Coherent.enter s), enter_acc, DspState.acc]
  refine ⟨hacc, normalizing_of_flags h fun k => ?_, fun r hr hsr => ?_⟩
  · rw [hacc, he, finalize_setPending_sr rfl]
    exact flag_nzClearV (s.acc d) _ (s.registers Reg.sr) k
  · rw [he, finalize_setPending_registers rfl _ hr hsr]
    rfl

/-- A run of NORM. -/
theorem normalizing_run (h : Normalizing t d) (hv : t.acc d ≠ 0) (i : BitVec 3) (k : Nat) :
    (t.repeated (.norm (i.setWidth 8) d) k).acc d = normStep^[k] (t.acc d) ∧
      ((t.repeated (.norm (i.setWidth 8) d) k).registers (normReg i)).setWidth 24 =
        (t.registers (normReg i)).setWidth 24 + BitVec.ofInt 24
          ((digits (t.acc d).toInt : Int) - digits (normStep^[k] (t.acc d)).toInt) ∧
      Normalizing (t.repeated (.norm (i.setWidth 8) d) k) d ∧ normStep^[k] (t.acc d) ≠ 0 := by
  induction k with
  | zero =>
    refine ⟨rfl, ?_, h, hv⟩
    rw [Function.iterate_zero_apply, Int.sub_self]
    exact (BitVec.add_zero _).symm
  | succ k ih =>
    obtain ⟨hacc, hrn, hn, hne⟩ := ih
    have hstep := normalizing_step hn (hacc ▸ hne) i
    rw [← DspState.repeated_succ, hacc, ← Function.iterate_succ_apply' normStep] at hstep
    obtain ⟨hacc', hrn', hn'⟩ := hstep
    refine ⟨hacc', ?_, hn', ?_⟩
    · rw [hrn', hrn, BitVec.add_assoc, ← BitVec.ofInt_add]
      congr 2
      rw [Nat.succ_eq_add_one]
      omega
    · rw [Function.iterate_succ_apply']
      exact normStep_ne_zero hne

/-! A normalized accumulator stays. -/

/-- Memory as a NORM leaves it. -/
structure NormStored (t : DspState σ) (i : BitVec 3) (d : Accumulator) : Prop where
  parts : t.InWidth d
  counter : t.registers (normReg i) &&& 0xFFFFFF = t.registers (normReg i)
  bits : ∀ k, flag (t.registers Reg.sr) k = true → flag (regMasks Reg.sr) k = true
  sign : flag (t.registers Reg.sr) Sr.n = (t.acc d).msb

/-- NORM writes its address register, SR and the accumulator. -/
theorem execute_norm_writes (t : DspState σ) (i : BitVec 3) (d : Accumulator)
    (flags : PendingFlags) (hf : flags.consumesSmMarker = true) :
    ((normAfter t i d).setPending flags).finalize =
      ((t.setReg (normReg i) (maskReg (normReg i) (normCount (t.registers Reg.sr)
        (t.registers (normReg i)) &&& regMasks Reg.r0))).setReg Reg.sr
          (flags.materialize false 0 (normAfter t i d).sr)).flushAccToMemory d
            ((normResult (t.registers Reg.sr) (t.acc d)).setWidth 64) := by
  cases flags <;> first | exact absurd hf (by decide) | (cases d <;> rfl)

theorem normStored_of_step (h : Normalizing t d) (hv : t.acc d ≠ 0) (i : BitVec 3) :
    NormStored (t.execute (.norm (i.setWidth 8) d)) i d := by
  obtain ⟨hout, hsr, _⟩ := normReg_outside i
  have hacc := (normalizing_step h hv i).1
  have hflags (k : Nat) : flag ((t.execute (.norm (i.setWidth 8) d)).registers Reg.sr) k =
      resultFlags (t.registers Reg.sr) (normStep (t.acc d)) false k := by
    rw [execute_norm h.plain.sm, finalize_setPending_sr rfl, normAfter_sr, h.result hv,
      h.noOverflow hv]
    exact flag_nzVlSm (normStep (t.acc d)) false (t.registers Reg.sr) k
  refine ⟨?_, ?_, fun k hk => ?_, ?_⟩
  · rw [execute_norm h.plain.sm, execute_norm_writes t i d _ rfl]
    exact DspState.inWidth_flush _
  · rw [execute_norm h.plain.sm, finalize_setPending_registers rfl _ hout hsr, normAfter_reg,
      mask_mask]
  · rw [hflags, resultFlags] at hk
    split_ifs at hk with he hu hn hz hv hl
    all_goals simp_all +decide
  · rw [hflags, hacc]
    simp +decide [resultFlags]

/-- SR says already what NORM would store. -/
theorem normStored_flags (h : Normalizing t d) {i : BitVec 3} (hs : NormStored t i d)
    (hd : digits (t.acc d).toInt = 47) (k : Nat) :
    resultFlags (t.registers Reg.sr) (t.acc d) false k = flag (t.registers Reg.sr) k := by
  rw [resultFlags]
  split_ifs with he hu hn hz hv hl
  · rw [he, h.extension, h.plain.extended]
  · rw [hu, h.unit (by omega), h.plain.unnormalized (by omega)]
  · rw [hn, hs.sign]
  · rw [hz, h.zero]
  · rw [hv, h.overflow]
  · rw [hl, Bool.or_false]
  · rcases hk : flag (t.registers Reg.sr) k with _ | _
    · rw [Bool.false_and]
    · rw [hs.bits k hk, Bool.and_true]

theorem normStored_step (h : Normalizing t d) (hv : t.acc d ≠ 0) {i : BitVec 3}
    (hs : NormStored t i d) (hd : digits (t.acc d).toInt = 47) :
    t.execute (.norm (i.setWidth 8) d) = t := by
  obtain ⟨hout, hsr, hmask⟩ := normReg_outside i
  have hcount : maskReg (normReg i) (normCount (t.registers Reg.sr) (t.registers (normReg i)) &&&
      regMasks Reg.r0) = t.registers (normReg i) := by
    have hr0 : regMasks Reg.r0 = 0xFFFFFF := rfl
    rw [normCount, h.extension, h.left hv, hd, maskReg, hmask, hr0, mask_mask]
    exact hs.counter
  have hword : (PendingFlags.nzVlSm ((t.acc d).setWidth 64) (bit 32 false)).materialize false 0
      (t.registers Reg.sr) = t.registers Reg.sr := by
    apply BitVec.eq_of_getLsbD_eq
    intro k _
    exact (flag_nzVlSm (t.acc d) false (t.registers Reg.sr) k).trans (normStored_flags h hs hd k)
  rw [execute_norm h.plain.sm, execute_norm_writes t i d _ rfl, h.result hv, h.noOverflow hv,
    normStep_settled hd, normAfter_sr, hcount, hword, DspState.setReg_self, DspState.setReg_self,
    ← DspState.reloadAcc_eq, DspState.flush_reload hs.parts]

/-! CLB counts the digits past 47, NORMF shifts by the count. -/

/-- The word CLB leaves. -/
def leading (v : BitVec 56) : BitVec 24 := BitVec.ofInt 24 ((digits v.toInt : Int) - 47)

/-- The value with its sign taken off, as CLB makes it. -/
def unsignedPart (v : BitVec 56) : BitVec 56 := if v.msb then ~~~v else v

theorem unsignedPart_toNat (v : BitVec 56) : (unsignedPart v).toNat = magnitude v.toInt := by
  have hlt := v.isLt
  rw [unsignedPart, magnitude, BitVec.msb_eq_toInt]
  by_cases hn : v.toInt < 0
  · rw [if_pos (decide_eq_true hn), if_pos hn, BitVec.toNat_not, BitVec.toInt_eq_toNat_cond]
    rw [BitVec.toInt_eq_toNat_cond] at hn
    split at hn <;> omega
  · rw [if_neg (by rw [decide_eq_false hn]; decide), if_neg hn, BitVec.toInt_eq_toNat_cond]
    rw [BitVec.toInt_eq_toNat_cond] at hn
    split at hn <;> omega

theorem clz_unsignedPart (v : BitVec 56) :
    let lz : Word := ((unsignedPart v).setWidth 64 <<< 8).clz.setWidth 32
    (if lz ≤ 56 then lz else 56).toNat = 56 - digits v.toInt := by
  intro lz
  have hm := (unsignedPart v).isLt
  have hshift : ((unsignedPart v).setWidth 64 <<< 8).toNat = (unsignedPart v).toNat <<< 8 := by
    rw [BitVec.toNat_shiftLeft, BitVec.toNat_setWidth_of_le (by decide), Nat.shiftLeft_eq,
      Nat.mod_eq_of_lt (by omega)]
  have hlz : lz.toNat = 64 - ((unsignedPart v).toNat <<< 8).size := by
    have hclz := toNat_clz ((unsignedPart v).setWidth 64 <<< 8)
    rw [hshift] at hclz
    rw [BitVec.toNat_setWidth, hclz, Nat.mod_eq_of_lt (by omega)]
  have hle : lz ≤ 56 ↔ lz.toNat ≤ 56 := Iff.rfl
  have h56 : (56 : Word).toNat = 56 := rfl
  have hd := digits_le v
  rw [digits, ← unsignedPart_toNat] at *
  by_cases h0 : (unsignedPart v).toNat = 0
  · rw [h0] at hlz ⊢
    have hz : lz.toNat = 64 := hlz
    rw [if_neg (hle.not.mpr (by omega))]
    rfl
  · rw [Nat.size_shiftLeft h0] at hlz
    rw [if_pos (hle.mpr (by omega))]
    omega

theorem clb_value (v : BitVec 56) :
    let lz : Word := ((unsignedPart v).setWidth 64 <<< 8).clz.setWidth 32
    (9 - (if lz ≤ 56 then lz else 56) : Word).setWidth 24 = leading v := by
  intro lz
  have hclz : (if lz ≤ 56 then lz else 56).toNat = 56 - digits v.toInt := clz_unsignedPart v
  have hd := digits_le v
  generalize (if lz ≤ 56 then lz else 56) = c at hclz
  have h9 : (9 : Word).toNat = 9 := rfl
  apply BitVec.eq_of_toNat_eq
  rw [leading, BitVec.toNat_setWidth, BitVec.toNat_sub, BitVec.toNat_ofInt, hclz, h9]
  omega

variable {s : DspState σ}

theorem complement_widen (v : BitVec 56) :
    v.setWidth 64 ^^^ 0x00FFFFFFFFFFFFFF = (~~~v).setWidth 64 := by
  apply BitVec.eq_of_getLsbD_eq
  intro i hi
  rw [BitVec.getLsbD_xor, getLsbD_ones56, BitVec.getLsbD_setWidth, BitVec.getLsbD_setWidth,
    BitVec.getLsbD_not]
  by_cases h56 : i < 56
  · simp [hi, h56]
  · rw [BitVec.getLsbD_of_ge v i (by omega)]
    simp [h56]

theorem execute_clb (d d' : Accumulator) (hv : s.acc d ≠ 0) : s.execute (.clb d d') =
    (((enter s).setAcc d' ((wordAcc (leading (s.acc d))).setWidth 64)).setPending
      (.logical ((leading (s.acc d)).setWidth 32))).finalize := by
  have hsign : ((s.acc d).setWidth 64 >>> 55) &&& 1 ≠ 0 ↔ (s.acc d).msb = true := by
    refine (and_one_ne_zero (by decide) _).trans ?_
    rw [BitVec.msb_eq_getLsbD_last]
    simp
  have hval : (if ((s.acc d).setWidth 64 >>> 55) &&& 1 ≠ 0 then
      (s.acc d).setWidth 64 ^^^ 0x00FFFFFFFFFFFFFF else (s.acc d).setWidth 64) =
      (unsignedPart (s.acc d)).setWidth 64 := by
    rw [unsignedPart]
    by_cases hn : (s.acc d).msb = true
    · rw [if_pos (hsign.mpr hn), if_pos hn]
      exact complement_widen (s.acc d)
    · rw [if_neg (hsign.not.mpr hn), if_neg hn]
  have hz : ¬ (s.acc d).setWidth 64 = 0 := fun h => hv ((widen_eq_zero _).mp h)
  have hclb := clb_value (s.acc d)
  rw [DspState.execute_eq, DataPath.emit]
  simp only [Alu.emitClb, Alu.after_bind, Alu.value_loadAcc, Alu.after_loadAcc, enter_acc,
    DspState.reloadAcc_eq, hval, if_neg hz, val24ToAcc56_eq, setWidth_mask24, hclb,
    extractAccMid_widen, mid_wordAcc]
  rfl

/-! NORMF. -/

/-- The shift NORMF makes by a signed count. -/
theorem leading_cases (v : BitVec 56) : (leading v).toNat =
    if digits v.toInt < 47 then 2 ^ 24 - (47 - digits v.toInt) else digits v.toInt - 47 := by
  have hd := digits_le v
  rw [leading, BitVec.toNat_ofInt]
  split <;> omega

/-- The amount of the shift, and its direction. -/
theorem normf_amount (v : BitVec 56) :
    let sreg : Word := (leading v).setWidth 32
    let isNeg : Prop := (sreg >>> 23) &&& 1 ≠ 0
    (isNeg ↔ digits v.toInt < 47) ∧
      (((if isNeg then mask24 (-sreg) else sreg) &&& 0x3F : Word)).toNat =
        if digits v.toInt < 47 then 47 - digits v.toInt else digits v.toInt - 47 := by
  intro sreg isNeg
  have hd := digits_le v
  have hlead := leading_cases v
  have hsreg : sreg.toNat = (leading v).toNat := BitVec.toNat_setWidth_of_le (by decide)
  have hneg : isNeg ↔ digits v.toInt < 47 := by
    have h1 : (sreg >>> 23 &&& 1).toNat = sreg.toNat / 2 ^ 23 % 2 ^ 1 := by
      rw [and_toNat (q := 1) (j := 1) rfl, BitVec.toNat_ushiftRight, Nat.shiftRight_eq_div_pow]
    have hz : isNeg ↔ (sreg >>> 23 &&& 1).toNat ≠ 0 := (BitVec.toNat_inj (y := 0)).not.symm
    rw [hz, h1, hsreg, hlead]
    split <;> omega
  refine ⟨hneg, ?_⟩
  rw [and_toNat (q := 0x3F) (j := 6) rfl]
  by_cases hlt : digits v.toInt < 47
  · rw [if_pos (hneg.mpr hlt), if_pos hlt, mask24, and_toNat (q := 0x00FFFFFF) (j := 24) rfl,
      BitVec.toNat_neg, hsreg, hlead, if_pos hlt]
    omega
  · rw [if_neg (hneg.not.mpr hlt), if_neg hlt, hsreg, hlead, if_neg hlt]
    omega

/-- The left shift to 47 digits keeps the sign. -/
theorem normf_noOverflow {v : BitVec 56} (hd : digits v.toInt < 47) {n : Word}
    (hn : n.toNat = 47 - digits v.toInt) : aslRegOverflow v n = false := by
  have hfits : Fits (55 - n.toNat + 1) v.toInt := (fits_iff_digits _ _).mpr (by omega)
  rw [aslRegOverflow_eq v (by omega), decide_eq_false]
  exact (signChanges_iff_fits v (by omega)).not.mpr (not_not.mpr hfits)

theorem execute_normf {d d' : Accumulator} (hsm : s.Unsaturated)
    (hlead : mid (s.acc d') = leading (s.acc d)) : s.execute (.normf (Alu.midReg d') d) =
      ((((enter s).setNeedsSat 0).setAcc d ((normalized (s.acc d)).setWidth 64)).setPending
        (.nzVlSm ((normalized (s.acc d)).setWidth 64) (bit 32 false))).finalize := by
  rw [DspState.Unsaturated] at hsm
  obtain ⟨hneg, hamount⟩ := normf_amount (s.acc d)
  have hd := digits_le (s.acc d)
  rw [DspState.execute_eq, DataPath.emit]
  simp only [Alu.emitNormf, Alu.after_bind, Alu.value_loadMid, Alu.after_loadMid, Alu.value_loadAcc,
    Alu.after_loadAcc, enter_acc, DspState.reloadAcc_eq, extractAccMid_widen, hlead]
  generalize ((if ((leading (s.acc d)).setWidth 32 >>> 23) &&& 1 ≠ 0 then
    mask24 (-(leading (s.acc d)).setWidth 32) else (leading (s.acc d)).setWidth 32) &&&
      0x3F : Word) = n at hamount
  have hres : (if (leading (s.acc d)).setWidth 32 >>> 23 &&& 1 ≠ 0 then
      mask56 (ishl ((s.acc d).setWidth 64) n)
      else mask56 (sshr (sext56ToI64 ((s.acc d).setWidth 64)) n)) =
      (normalized (s.acc d)).setWidth 64 := by
    rw [normalized]
    by_cases hlt : digits (s.acc d).toInt < 47
    · rw [if_pos hlt] at hamount
      rw [if_pos (hneg.mpr hlt), if_neg (by omega), asl_value _ (by omega), hamount]
    · rw [if_neg hlt] at hamount
      rw [if_neg (hneg.not.mpr hlt), asr_value _ (by omega), hamount]
      by_cases h47 : 47 < digits (s.acc d).toInt
      · rw [if_pos h47]
      · have heq : digits (s.acc d).toInt = 47 := by omega
        rw [if_neg h47, heq, Nat.sub_self, BitVec.shiftLeft_zero, BitVec.sshiftRight_zero]
  have hov : (if (leading (s.acc d)).setWidth 32 >>> 23 &&& 1 ≠ 0 then 1 - Emitter.ofBool
      (decide (ushr ((s.acc d).setWidth 64) (55 - n) &&& (ishl (1 : BitVec 64) (n + 1) - 1) = 0) ||
        decide (ushr ((s.acc d).setWidth 64) (55 - n) &&& (ishl (1 : BitVec 64) (n + 1) - 1) =
          ishl (1 : BitVec 64) (n + 1) - 1)) else 0) = bit 32 false := by
    by_cases hlt : digits (s.acc d).toInt < 47
    · rw [if_pos hlt] at hamount
      rw [if_pos (hneg.mpr hlt), one_sub_ofBool]
      exact congrArg (bit 32) (normf_noOverflow hlt hamount)
    · exact if_neg (hneg.not.mpr hlt)
  rw [hres, hov, Alu.value_saturate_off (by exact hsm), Alu.after_saturate_off (by exact hsm)]
  rfl

/-! Both methods. -/

/-- CLB leaves the accumulator it counts, and the count in the other. -/
theorem clb_counts {d d' : Accumulator} (hne : d' ≠ d) (h : Plain (s.registers Reg.sr))
    (hv : s.acc d ≠ 0) : (s.execute (.clb d d')).acc d = s.acc d ∧
      mid ((s.execute (.clb d d')).acc d') = leading (s.acc d) ∧
      Plain ((s.execute (.clb d d')).registers Reg.sr) ∧
      flag ((s.execute (.clb d d')).registers Reg.sr) Sr.v = false := by
  have hc : ((enter s).setAcc d' ((wordAcc (leading (s.acc d))).setWidth 64)).Coherent :=
    (Coherent.enter s).setAcc _ _
  have hflag (k : Nat) := flag_logical (leading (s.acc d)) 0 (s.registers Reg.sr) k
  rw [execute_clb d d' hv, finalize_setPending_acc rfl hc, finalize_setPending_acc rfl hc,
    finalize_setPending_sr rfl, setAcc_acc, setAcc_acc_other _ _ _ hne.symm, widen_narrow,
    mid_wordAcc]
  refine ⟨rfl, rfl, ⟨?_, ?_, ?_⟩, ?_⟩
  · exact (hflag Sr.s0).trans (by simp +decide [h.s0])
  · exact (hflag Sr.s1).trans (by simp +decide [h.s1])
  · exact (hflag Sr.sm).trans (by simp +decide [h.sm])
  · exact (hflag Sr.v).trans (by simp +decide)

/-- NORMF by the count of CLB normalizes. -/
theorem normf_normalizes {d d' : Accumulator} (h : Plain (s.registers Reg.sr))
    (hlead : mid (s.acc d') = leading (s.acc d)) :
    (s.execute (.normf (Alu.midReg d') d)).acc d = normalized (s.acc d) ∧
      Normalizing (s.execute (.normf (Alu.midReg d') d)) d := by
  have hc : (((enter s).setNeedsSat 0).setAcc d
      ((normalized (s.acc d)).setWidth 64)).Coherent :=
    ((Coherent.enter s).setNeedsSat _).setAcc _ _
  have hacc : (s.execute (.normf (Alu.midReg d') d)).acc d = normalized (s.acc d) := by
    rw [execute_normf h.sm hlead, finalize_setPending_acc rfl hc, setAcc_acc, widen_narrow]
  refine ⟨hacc, normalizing_of_flags h fun k => ?_⟩
  rw [hacc, execute_normf h.sm hlead, finalize_setPending_sr rfl]
  exact flag_nzVlSm (normalized (s.acc d)) false (s.registers Reg.sr) k

/-- TST and `k` steps of NORM. -/
def normRun (s : DspState σ) (d : Accumulator) (i : BitVec 3) (k : Nat) : DspState σ :=
  (s.execute (.parallelAlu (.tst d))).repeated (.norm (i.setWidth 8) d) k

/-- CLB into `d'` and NORMF by its count. -/
def normfRun (s : DspState σ) (d d' : Accumulator) : DspState σ :=
  (s.execute (.clb d d')).execute (.normf (Alu.midReg d') d)

/-- The accumulator is normalized, and E and U say so. -/
structure Normal (t : DspState σ) (d : Accumulator) : Prop where
  extension : flag (t.registers Reg.sr) Sr.e = false
  unit : flag (t.registers Reg.sr) Sr.u = false
  sign : ∀ j, 47 ≤ j → j < 56 → (t.acc d).getLsbD j = (t.acc d).msb
  top : (t.acc d).getLsbD 46 ≠ (t.acc d).msb

/-- TST and `k` steps of NORM, against CLB and NORMF. -/
structure Normalizes (s : DspState σ) (d d' : Accumulator) (i : BitVec 3) (k : Nat) : Prop where
  agree : (normRun s d i k).acc d = (normfRun s d d').acc d
  normal : Normal (normRun s d i k) d ∧ Normal (normfRun s d d') d
  counter : ((normRun s d i k).registers (normReg i)).setWidth 24 =
    (s.registers (normReg i)).setWidth 24 + mid ((s.execute (.clb d d')).acc d')
  noOverflow : (∀ j, flag ((normRun s d i j).registers Reg.sr) Sr.v = false) ∧
    flag ((s.execute (.clb d d')).registers Reg.sr) Sr.v = false ∧
    flag ((normfRun s d d').registers Reg.sr) Sr.v = false
  settled : ∀ j, k ≤ j → normRun s d i j = normRun s d i k

/-- The condition codes of a value with 47 digits. -/
theorem Normalizing.normal {t : DspState σ} {d : Accumulator} (h : Normalizing t d)
    (hd : digits (t.acc d).toInt = 47) : Normal t d := by
  have h47 := (fits_iff_bits (t.acc d) (k := 47) (by decide)).mp ((fits_iff_digits _ _).mpr hd.le)
  refine ⟨?_, ?_, h47, fun h46 => ?_⟩
  · rw [h.extension, hd]
    rfl
  · rw [h.unit hd.le, hd]
    rfl
  · have hfits : Fits 47 (t.acc d).toInt := by
      refine (fits_iff_bits (t.acc d) (k := 46) (by decide)).mpr fun j hj hlt => ?_
      rcases Nat.eq_or_lt_of_le hj with rfl | hgt
      · exact h46
      · exact h47 j hgt hlt
    have hle := (fits_iff_digits (t.acc d).toInt 46).mp hfits
    omega

section Runs

variable {s : DspState σ} (h : Plain (s.registers Reg.sr)) {d : Accumulator} (hv : s.acc d ≠ 0)
  (i : BitVec 3)

include h hv

theorem normRun_steps (k : Nat) : (normRun s d i k).acc d = normStep^[k] (s.acc d) ∧
    ((normRun s d i k).registers (normReg i)).setWidth 24 = (s.registers (normReg i)).setWidth 24 +
      BitVec.ofInt 24 ((digits (s.acc d).toInt : Int) - digits (normStep^[k] (s.acc d)).toInt) ∧
    Normalizing (normRun s d i k) d ∧ normStep^[k] (s.acc d) ≠ 0 := by
  obtain ⟨hout, hsr, _⟩ := normReg_outside i
  obtain ⟨htst, hn, hregs⟩ := normalizing_tst h d
  have hv' : (s.execute (.parallelAlu (.tst d))).acc d ≠ 0 := by
    rw [htst]
    exact hv
  have hrun := normalizing_run hn hv' i k
  rw [htst, hregs (normReg i) hout hsr] at hrun
  exact hrun

theorem normRun_acc {k : Nat} (hk : 47 ≤ k) : (normRun s d i k).acc d = normalized (s.acc d) ∧
    digits (normStep^[k] (s.acc d)).toInt = 47 := by
  have hd := digits_le (s.acc d)
  obtain ⟨hn, h47⟩ := normStep_iterate k hv (by omega) (by omega)
  exact ⟨(normRun_steps h hv i k).1.trans hn, h47⟩

/-- A step past the first, at 47 digits, changes nothing. -/
theorem normRun_settled {k : Nat} (hk : 47 ≤ k) : normRun s d i (k + 1) = normRun s d i k := by
  obtain ⟨m, rfl⟩ : ∃ m, k = m + 1 := ⟨k - 1, by omega⟩
  obtain ⟨hacc, _, hn, hne⟩ := normRun_steps h hv i (m + 1)
  obtain ⟨hacc', _, hn', hne'⟩ := normRun_steps h hv i m
  have hd : digits ((normRun s d i (m + 1)).acc d).toInt = 47 := by
    rw [hacc]
    exact (normRun_acc h hv i hk).2
  have hset := normStored_of_step hn' (by rwa [hacc']) i
  have hsucc (j : Nat) : normRun s d i (j + 1) =
      (normRun s d i j).execute (.norm (i.setWidth 8) d) := DspState.repeated_succ ..
  rw [← hsucc] at hset
  rw [hsucc, normStored_step hn (by rwa [hacc]) hset hd]

end Runs

/-- Both methods normalize, and NORM counts what CLB finds. -/
theorem norm_agrees_normf {s : DspState σ} (h : Plain (s.registers Reg.sr)) {d d' : Accumulator}
    (hne : d' ≠ d) (hv : s.acc d ≠ 0) (i : BitVec 3) {k : Nat} (hk : 47 ≤ k) :
    Normalizes s d d' i k := by
  obtain ⟨hacc, hrn, hn, _⟩ := normRun_steps h hv i k
  obtain ⟨hreach, h47⟩ := normRun_acc h hv i hk
  obtain ⟨hclb, hlead, hplain, hclbv⟩ := clb_counts hne h hv
  obtain ⟨hnormf, hnf⟩ := normf_normalizes hplain (hlead.trans (congrArg leading hclb).symm)
  rw [hclb, ← hreach] at hnormf
  have hd : digits ((normRun s d i k).acc d).toInt = 47 := by rw [hacc, h47]
  refine ⟨hnormf.symm, ⟨hn.normal hd, hnf.normal (by rwa [hnormf])⟩, ?_,
    ⟨fun j => (normRun_steps h hv i j).2.2.1.overflow, hclbv, hnf.overflow⟩, fun j hj => ?_⟩
  · rw [hrn, h47, hlead, leading, Nat.cast_ofNat]
  · induction j, hj using Nat.le_induction with
    | base => rfl
    | succ j hj ih => rw [normRun_settled h hv i (hk.trans hj), ih]

/-- The smallest positive value. -/
theorem norm_agrees_normf_one :
    Normalizes (DspState.ofRegs [(Reg.a0, 1)]) .a .b 0 47 :=
  norm_agrees_normf ⟨by decide, by decide, by decide⟩ (by decide) (by decide) 0 le_rfl

end Dsp56300
