import Dsp56300.Emu.Conditions

/-! The accumulator values behind packed words. -/

namespace Dsp56300

open Emitter Lib.Bits Lib.Words

/-! The shifted values. -/

theorem asl_value (v : BitVec 56) {n : Word} (hn : n.toNat < 64) :
    mask56 (ishl (v.setWidth 64) n) = (v <<< n.toNat).setWidth 64 := by
  rw [mask56_eq, ishl, Nat.mod_eq_of_lt hn, BitVec.setWidth_shiftLeft_of_le (by decide),
    widen_narrow]

theorem sext56_eq (v : BitVec 56) : sext56ToI64 (v.setWidth 64) = v.signExtend 64 := by
  rw [sext56ToI64, shiftLeft_sshiftRight _ (by decide), widen_narrow]

theorem asr_value (v : BitVec 56) {n : Word} (hn : n.toNat < 64) :
    mask56 (sshr (sext56ToI64 (v.setWidth 64)) n) = (v.sshiftRight n.toNat).setWidth 64 := by
  rw [mask56_eq, sshr, Nat.mod_eq_of_lt hn, sext56_eq,
    setWidth_signExtend_sshiftRight (by decide)]

theorem asrOne_eq (v : BitVec 56) :
    asrOne56bit (v.setWidth 64) = (v.sshiftRight 1).setWidth 64 := by
  apply BitVec.eq_of_getLsbD_eq
  intro i hi
  simp only [asrOne56bit, BitVec.getLsbD_setWidth, BitVec.getLsbD_or, BitVec.getLsbD_ushiftRight,
    BitVec.getLsbD_and, Lib.Bits.getLsbD_bit, BitVec.getLsbD_sshiftRight,
    BitVec.msb_eq_getLsbD_last]
  by_cases h : i = 55
  · subst h
    simp [BitVec.getLsbD_of_ge]
  · by_cases hlt : i < 55
    · have hlt' : 1 + i < 56 := by omega
      have hlt'' : 1 + i < 64 := by omega
      have hle : ¬ 56 ≤ i := by omega
      simp [hlt', hlt'', hi, hle, Ne.symm h]
    · have hge : v.getLsbD (1 + i) = false := BitVec.getLsbD_of_ge v _ (by omega)
      have hle : 56 ≤ i := by omega
      simp [hge, hle, Ne.symm h]

theorem asrOne_value (v : BitVec 56) :
    mask56 (asrOne56bit (v.setWidth 64)) = (v.sshiftRight 1).setWidth 64 := by
  rw [asrOne_eq, mask56_widen]

theorem mask56_add (u v : BitVec 56) :
    mask56 (u.setWidth 64 + v.setWidth 64) = (u + v).setWidth 64 := by
  rw [mask56_eq, BitVec.setWidth_add _ _ (by decide), widen_narrow, widen_narrow]

theorem mask56_sub (u v : BitVec 56) :
    mask56 (u.setWidth 64 - v.setWidth 64) = (u - v).setWidth 64 := by
  rw [mask56_eq, setWidth_sub (by decide), widen_narrow, widen_narrow]

/-! Single bits. -/

theorem extract_widen (v : BitVec 56) {n : Word} {k : Nat} (hn : n.toNat = k) (hk : k < 64) :
    extractBitI64 (v.setWidth 64) n = bit 32 (v.getLsbD k) := by
  rw [extractBitI64_eq _ hn hk, BitVec.getLsbD_setWidth, decide_eq_true hk, Bool.true_and]

theorem msb_shiftLeft (v : BitVec 56) {k : Nat} (hk : k < 56) :
    (v <<< k).msb = v.getLsbD (55 - k) := by
  rw [BitVec.msb_eq_getLsbD_last, BitVec.getLsbD_shiftLeft, decide_eq_true (by decide),
    decide_eq_false (by omega)]
  rfl

theorem extract_55 (v : BitVec 56) : extractBitI64 (v.setWidth 64) 55#32 = bit 32 v.msb := by
  rw [extract_widen v (k := 55) rfl (by decide), BitVec.msb_eq_getLsbD_last]

theorem extract_0 (v : BitVec 56) : extractBitI64 (v.setWidth 64) 0#32 = bit 32 v[0] := by
  rw [extract_widen v (k := 0) rfl (by decide)]
  rfl

theorem extract_54 (v : BitVec 56) : extractBitI64 (v.setWidth 64) 54#32 = bit 32 v[54] := by
  rw [extract_widen v (k := 54) rfl (by decide)]
  rfl

theorem extract_mod (v : BitVec 56) (n : Word) :
    extractBitI64 (v.setWidth 64) n = bit 32 (v.getLsbD (n.toNat % 64)) := by
  have hlt : n.toNat % 64 < 64 := Nat.mod_lt _ (by decide)
  have hmod : extractBitI64 (v.setWidth 64) n =
      extractBitI64 (v.setWidth 64) (BitVec.ofNat 32 (n.toNat % 64)) := by
    rw [extractBitI64, extractBitI64, ushr, ushr, BitVec.toNat_ofNat,
      Nat.mod_eq_of_lt (a := n.toNat % 64) (by omega), Nat.mod_mod]
  rw [hmod, extract_widen v (k := n.toNat % 64) _ hlt]
  rw [BitVec.toNat_ofNat, Nat.mod_eq_of_lt (by omega)]

/-- The bit of a word the register forms mask out. -/
theorem low_bit (x : BitVec 64) : (x &&& 1).setWidth 32 = bit 32 (x.getLsbD 0) := by
  rw [show (1 : BitVec 64) = 1#64 from rfl, and_one, setWidth_bit (by decide) (by decide)]

theorem ushr_bit (v : BitVec 56) {n : Word} {k : Nat} (hn : n.toNat % 64 = k) :
    (ushr (v.setWidth 64) n &&& 1).setWidth 32 = bit 32 (v.getLsbD k) := by
  have hk : k < 64 := hn ▸ Nat.mod_lt _ (by decide)
  rw [low_bit, ushr, hn]
  simp [hk]

theorem getLsbD_ones56 (j : Nat) :
    (0x00FFFFFFFFFFFFFF : BitVec 64).getLsbD j = decide (j < 56) :=
  getLsbD_lowMask (w := 64) (k := 56) (by decide) j

theorem one_sub_ofBool (b : Bool) : (1 : Word) - Emitter.ofBool b = bit 32 (!b) := one_sub_bit b

/-! A1 and B1. -/

/-- A1 or B1 of an accumulator value. -/
def mid (v : BitVec 56) : BitVec 24 := v.extractLsb' 24 24

/-- An accumulator value with another A1 or B1. -/
def withMid (v : BitVec 56) (m : BitVec 24) : BitVec 56 :=
  v.extractLsb' 48 8 ++ m ++ v.extractLsb' 0 24

theorem mid_withMid (v : BitVec 56) (m : BitVec 24) : mid (withMid v m) = m := by
  apply BitVec.eq_of_getLsbD_eq
  intro i hi
  simp only [mid, withMid, BitVec.getLsbD_extractLsb', BitVec.getLsbD_append]
  grind

theorem withMid_withMid (v : BitVec 56) (m m' : BitVec 24) :
    withMid (withMid v m) m' = withMid v m' := by
  apply BitVec.eq_of_getLsbD_eq
  intro i hi
  simp only [withMid, BitVec.getLsbD_extractLsb', BitVec.getLsbD_append]
  grind

theorem withMid_mid (v : BitVec 56) : withMid v (mid v) = v := by
  apply BitVec.eq_of_getLsbD_eq
  intro i hi
  simp only [mid, withMid, BitVec.getLsbD_extractLsb', BitVec.getLsbD_append]
  grind

theorem extractAccMid_widen (v : BitVec 56) :
    extractAccMid (v.setWidth 64) = (mid v).setWidth 32 := by
  have hm : (0x00FFFFFF : BitVec 64).toNat = 2 ^ 24 - 1 := rfl
  apply BitVec.eq_of_getLsbD_eq
  intro i hi
  rw [extractAccMid, and_lowMask hm (by decide)]
  simp only [mid, BitVec.getLsbD_setWidth, BitVec.getLsbD_ushiftRight, BitVec.getLsbD_extractLsb']
  grind

/-- The bits of an accumulator value with another A1. -/
theorem getLsbD_withMid (v : BitVec 56) (m : BitVec 24) (i : Nat) :
    (withMid v m).getLsbD i = if 24 ≤ i ∧ i < 48 then m.getLsbD (i - 24) else v.getLsbD i := by
  simp only [withMid, BitVec.getLsbD_extractLsb', BitVec.getLsbD_append]
  grind

theorem lsl_value (m : BitVec 24) (n : Word) :
    mask24 (ishl (m.setWidth 32) n) = (m <<< (n.toNat % 32)).setWidth 32 := by
  have hm : (0x00FFFFFF : Word).toNat = 2 ^ 24 - 1 := rfl
  rw [mask24, ishl, and_lowMask hm (by decide), BitVec.setWidth_shiftLeft_of_le (by decide),
    BitVec.setWidth_setWidth_of_le _ (by decide), BitVec.setWidth_eq]

theorem lsr_value (m : BitVec 24) (n : Word) :
    ushr (m.setWidth 32) n = (m >>> (n.toNat % 32)).setWidth 32 := by
  apply BitVec.eq_of_toNat_eq
  rw [ushr, BitVec.toNat_ushiftRight, BitVec.toNat_setWidth_of_le (by decide),
    BitVec.toNat_setWidth_of_le (by decide), BitVec.toNat_ushiftRight]

theorem mid_bit (m : BitVec 24) (n : Word) :
    ushr (m.setWidth 32) n &&& 1 = bit 32 (m.getLsbD (n.toNat % 32)) := by
  have hlt : n.toNat % 32 < 32 := Nat.mod_lt _ (by decide)
  rw [show (1 : Word) = 1#32 from rfl, and_one, ushr]
  simp [hlt]

theorem mid_top (m : BitVec 24) : ushr (m.setWidth 32) 23 &&& 1 = bit 32 m.msb := by
  rw [mid_bit, BitVec.msb_eq_getLsbD_last]
  rfl

theorem setWidth_mask24 (w : Word) : (mask24 w).setWidth 24 = w.setWidth 24 := by
  have hm : (0x00FFFFFF : Word).toNat = 2 ^ 24 - 1 := rfl
  rw [mask24, and_lowMask hm (by decide), BitVec.setWidth_setWidth_of_le _ (by decide),
    BitVec.setWidth_eq]

theorem narrow_mask24 (m : BitVec 24) : (mask24 (m.setWidth 32)).setWidth 24 = m := by
  rw [setWidth_mask24, BitVec.setWidth_setWidth_of_le _ (by decide), BitVec.setWidth_eq]

/-! A word at the A1 position. -/

/-- The accumulator value of a signed word. -/
def wordAcc (m : BitVec 24) : BitVec 56 := m.signExtend 56 <<< 24

theorem getLsbD_wordAcc (m : BitVec 24) {i : Nat} (hi : i < 56) :
    (wordAcc m).getLsbD i =
      (decide (24 ≤ i) && if i < 48 then m.getLsbD (i - 24) else m.msb) := by
  rw [wordAcc, BitVec.getLsbD_shiftLeft, BitVec.getLsbD_signExtend, decide_eq_true hi]
  by_cases h24 : i < 24
  · simp [h24]
  · by_cases h48 : i < 48
    · have hlt : i - 24 < 24 := by omega
      have hlt' : i - 24 < 56 := by omega
      have hle : 24 ≤ i := by omega
      simp [h24, h48, hlt, hlt', hle]
    · have hlt : ¬ i - 24 < 24 := by omega
      have hlt' : i - 24 < 56 := by omega
      have hle : 24 ≤ i := by omega
      simp [h24, h48, hlt, hlt', hle]

theorem val24ToAcc56_eq (w : Word) : val24ToAcc56 w = (wordAcc (w.setWidth 24)).setWidth 64 := by
  have hmask := mask56_eq (((w.setWidth 64 <<< 24) <<< 16).sshiftRight 16)
  rw [mask56] at hmask
  rw [val24ToAcc56, hmask]
  refine congrArg (BitVec.setWidth 64) (BitVec.eq_of_getLsbD_eq fun i hi => ?_)
  rw [shiftLeft_sshiftRight _ (by decide), getLsbD_wordAcc _ hi, BitVec.getLsbD_setWidth,
    BitVec.getLsbD_signExtend, BitVec.msb_eq_getLsbD_last, BitVec.msb_eq_getLsbD_last,
    BitVec.getLsbD_setWidth, BitVec.getLsbD_setWidth, BitVec.getLsbD_shiftLeft,
    BitVec.getLsbD_shiftLeft, BitVec.getLsbD_setWidth, BitVec.getLsbD_setWidth,
    BitVec.getLsbD_setWidth, BitVec.getLsbD_setWidth]
  have h64 : i < 64 := by omega
  by_cases h24 : i < 24
  · have h48 : i < 48 := by omega
    simp [h24, h48]
  · by_cases h48 : i < 48
    · have hlt : i - 24 < 24 := by omega
      have hlt' : i - 24 < 64 := by omega
      have hle : 24 ≤ i := by omega
      simp [h24, h48, hlt, hlt', hle, hi, h64]
    · have hle : 24 ≤ i := by omega
      simp [h48, hle, hi, h64]

theorem toInt_wordAcc (m : BitVec 24) : (wordAcc m).toInt = m.toInt * 2 ^ 24 := by
  have hext : (m.signExtend 56).toInt = m.toInt := BitVec.toInt_signExtend_of_le (by decide)
  obtain ⟨hlo, hhi⟩ := fits_toInt m
  rw [wordAcc, toInt_shiftLeft_of_fits (by decide), hext]
  rw [hext]
  constructor <;> omega

theorem mid_wordAcc (m : BitVec 24) : mid (wordAcc m) = m := by
  apply BitVec.eq_of_getLsbD_eq
  intro i hi
  have hlt : 24 + i < 48 := by omega
  rw [mid, BitVec.getLsbD_extractLsb', getLsbD_wordAcc m (by omega)]
  simp [hi, hlt]

/-! The parts of a signed value. -/

theorem low_toNat (v : BitVec 56) : ((v.extractLsb' 0 24).toNat : Int) = v.toInt % 2 ^ 24 := by
  rw [BitVec.extractLsb'_toNat, BitVec.toInt_eq_toNat_cond]
  split <;> omega

theorem high_toInt (v : BitVec 56) : (v.extractLsb' 24 32).toInt = v.toInt / 2 ^ 24 := by
  have hlt := v.isLt
  rw [BitVec.toInt_eq_toNat_cond, BitVec.extractLsb'_toNat, BitVec.toInt_eq_toNat_cond,
    Nat.shiftRight_eq_div_pow]
  split <;> split <;> omega

end Dsp56300
