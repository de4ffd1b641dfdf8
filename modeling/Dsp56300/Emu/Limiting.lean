import Dsp56300.Emu.AluEffects

/-! The data limiter: an accumulator read as a word, against the extension flag. -/

namespace Dsp56300

open Emitter Lib.Bits Lib.Words

variable {σ : Type}

/-! The shifter. -/

section Shifter

variable {a2 a1 a0 : Word}

/-- A2 and A1 through the shifter. -/
def shiftedWord (scaling : Nat) (a2 a1 a0 : Word) : Word :=
  let combined := (a2 <<< 24) ||| a1
  match scaling with
  | 1 => combined >>> 1
  | 2 => (combined <<< 1) ||| ((a0 >>> 23) &&& 1)
  | _ => combined

/-- The test that the word was not cut. -/
def unlimited (scaling : Nat) (a2 a1 value : Word) : Bool :=
  let okPos : Bool := a2 = 0 && value ≤ 0x7FFFFF
  let okNeg : Bool := a2 = 0xFF && value ≥ 0x800000
  let a1Bit23 := (a1 >>> 23) &&& 1
  if scaling = 2 then (okPos && a1Bit23 = 0) || (okNeg && a1Bit23 ≠ 0) else okPos || okNeg

/-- The scaling field and the lowest bit of the answer in the accumulator. -/
def Scales (scaling k : Nat) : Prop :=
  (scaling = 0 ∧ k = 24) ∨ (scaling = 1 ∧ k = 25) ∨ (scaling = 2 ∧ k = 23)

theorem scales_of_roundingBit {sr : Word} {k : Nat} (h : roundingBit sr = some k) :
    Scales ((sr >>> Sr.s0) &&& 3).toNat k := by
  rw [scaling_toNat]
  unfold roundingBit at h
  unfold flag
  rcases h1 : sr.getLsbD Sr.s1 with _ | _ <;> rcases h0 : sr.getLsbD Sr.s0 with _ | _ <;>
    rw [h1, h0] at h
  · exact .inl ⟨rfl, (Option.some.inj h).symm⟩
  · exact .inr (.inl ⟨rfl, (Option.some.inj h).symm⟩)
  · exact .inr (.inr ⟨rfl, (Option.some.inj h).symm⟩)
  · cases h

variable (h2 : a2.toNat < 2 ^ 8) (h1 : a1.toNat < 2 ^ 24) (h0 : a0.toNat < 2 ^ 24)

include h2 h1 in
theorem combined_toNat : ((a2 <<< 24) ||| a1).toNat = a2.toNat * 2 ^ 24 + a1.toNat :=
  shiftLeft_or_toNat h1 (by omega)

include h2 h1 h0 in
theorem shiftedWord_toNat {scaling k : Nat} (hk : Scales scaling k) :
    (shiftedWord scaling a2 a1 a0 &&& 0x00FFFFFF).toNat =
      (a2.toNat * 2 ^ 48 + a1.toNat * 2 ^ 24 + a0.toNat) / 2 ^ k % 2 ^ 24 := by
  have hc := combined_toNat h2 h1
  rw [and_toNat (q := 0x00FFFFFF) (j := 24) rfl]
  rcases hk with ⟨rfl, rfl⟩ | ⟨rfl, rfl⟩ | ⟨rfl, rfl⟩
  · have he : shiftedWord 0 a2 a1 a0 = (a2 <<< 24) ||| a1 := rfl
    rw [he, hc]
    omega
  · have he : shiftedWord 1 a2 a1 a0 = ((a2 <<< 24) ||| a1) >>> 1 := rfl
    rw [he, BitVec.toNat_ushiftRight, hc, Nat.shiftRight_eq_div_pow]
    omega
  · have he : shiftedWord 2 a2 a1 a0 = (((a2 <<< 24) ||| a1) <<< 1) ||| ((a0 >>> 23) &&& 1) := rfl
    have hb : ((a0 >>> 23) &&& 1).toNat = a0.toNat / 2 ^ 23 := by
      rw [and_toNat (q := 1) (j := 1) rfl, BitVec.toNat_ushiftRight, Nat.shiftRight_eq_div_pow]
      omega
    have hblt : a0.toNat / 2 ^ 23 < 2 ^ 1 := by omega
    have heven : (a2.toNat * 2 ^ 24 + a1.toNat) * 2 ^ 1 % 2 ^ 32 =
        2 ^ 1 * ((a2.toNat * 2 ^ 24 + a1.toNat) % 2 ^ 31) := by omega
    rw [he, BitVec.toNat_or, BitVec.toNat_shiftLeft, hc, hb, Nat.shiftLeft_eq, heven,
      ← Nat.two_pow_add_eq_or_of_lt hblt]
    omega

include h2 h1 h0 in
/-- Nothing is cut where the bits from the sign of the answer on agree. -/
theorem unlimited_eq {scaling k : Nat} (hk : Scales scaling k) :
    unlimited scaling a2 a1 (shiftedWord scaling a2 a1 a0 &&& 0x00FFFFFF) =
      decide ((a2.toNat * 2 ^ 48 + a1.toNat * 2 ^ 24 + a0.toNat) / 2 ^ (k + 23) = 0 ∨
        (a2.toNat * 2 ^ 48 + a1.toNat * 2 ^ 24 + a0.toNat) / 2 ^ (k + 23) =
          2 ^ (56 - (k + 23)) - 1) := by
  have hv := shiftedWord_toNat h2 h1 h0 hk
  generalize shiftedWord scaling a2 a1 a0 &&& 0x00FFFFFF = value at hv
  have hb : ((a1 >>> 23) &&& 1).toNat = a1.toNat / 2 ^ 23 := by
    rw [and_toNat (q := 1) (j := 1) rfl, BitVec.toNat_ushiftRight, Nat.shiftRight_eq_div_pow]
    omega
  have hzero (x : Word) : x = 0 ↔ x.toNat = 0 := by
    rw [← BitVec.toNat_inj]
    rfl
  have hff : a2 = 0xFF ↔ a2.toNat = 255 := by
    rw [← BitVec.toNat_inj]
    rfl
  have hlo : value ≤ 0x7FFFFF ↔ value.toNat ≤ 8388607 := Iff.rfl
  have hhi : value ≥ 0x800000 ↔ 8388608 ≤ value.toNat := Iff.rfl
  rw [Bool.eq_iff_iff, unlimited]
  simp only [decide_eq_true_eq, hzero, hff, hlo, hhi, ne_eq, hb]
  rcases hk with ⟨rfl, rfl⟩ | ⟨rfl, rfl⟩ | ⟨rfl, rfl⟩
  · rw [if_neg (by decide)]
    simp only [Bool.or_eq_true, Bool.and_eq_true, decide_eq_true_eq]
    omega
  · rw [if_neg (by decide)]
    simp only [Bool.or_eq_true, Bool.and_eq_true, decide_eq_true_eq]
    omega
  · rw [if_pos rfl]
    simp only [Bool.or_eq_true, Bool.and_eq_true, decide_eq_true_eq]
    omega

end Shifter

/-! The answer and SR. -/

namespace DspState

variable (s : DspState σ) (d : Accumulator)

/-- The word an accumulator is read as, before limiting. -/
def shifted : Word :=
  shiftedWord ((s.registers Reg.sr >>> Sr.s0) &&& 3).toNat (s.registers (accRegs d).1)
    (s.registers (accRegs d).2.1) (s.registers (accRegs d).2.2) &&& 0x00FFFFFF

/-- The word holds the scaled value. -/
def inRange : Bool :=
  unlimited ((s.registers Reg.sr >>> Sr.s0) &&& 3).toNat (s.registers (accRegs d).1)
    (s.registers (accRegs d).2.1) (s.shifted d)

theorem jitReadAccu24_value : (s.jitReadAccu24 d).1 =
    (if s.inRange d then s.shifted d
      else if s.registers (accRegs d).1 &&& 0x80 ≠ 0 then 0x800000 else 0x7FFFFF) |||
      (if s.inRange d then 1#32 <<< 24 else 0) := by
  cases d <;> rfl

/-- SR with L where the word was cut. -/
def limitedSr : Word :=
  if s.inRange d then s.registers Reg.sr else s.registers Reg.sr ||| (1#32 <<< Sr.l)

theorem jitReadAccu24_sr : (s.jitReadAccu24 d).2.registers Reg.sr = s.limitedSr d ∨
    (s.jitReadAccu24 d).2.registers Reg.sr = s.limitedSr d ||| (1#32 <<< Sr.s) := by
  have hite (p : Prop) [Decidable p] (u v : Word) :
      (if p then v else u) = u ∨ (if p then v else u) = v := by
    by_cases hp : p
    · exact .inr (if_pos hp)
    · exact .inl (if_neg hp)
  cases d <;> exact hite _ _ _

variable {s d}

theorem InWidth.shifted_toNat (h : s.InWidth d) {k : Nat}
    (hk : roundingBit (s.registers Reg.sr) = some k) :
    (s.shifted d).toNat = (s.acc d).toNat / 2 ^ k % 2 ^ 24 := by
  rw [h.acc_toNat]
  exact shiftedWord_toNat h.high h.mid h.low (scales_of_roundingBit hk)

theorem InWidth.inRange_eq (h : s.InWidth d) {k : Nat}
    (hk : roundingBit (s.registers Reg.sr) = some k) :
    s.inRange d = decide (Fits 24 ((s.acc d).toInt / 2 ^ k)) := by
  have hs := scales_of_roundingBit hk
  have hlt : k + 23 < 56 := by
    rcases hs with ⟨_, rfl⟩ | ⟨_, rfl⟩ | ⟨_, rfl⟩ <;> decide
  have hlen : 24 + k = k + 23 + 1 := by omega
  rw [inRange, shifted, unlimited_eq h.high h.mid h.low hs, decide_eq_decide, fits_div (by decide),
    hlen, fits_iff_high _ hlt, h.acc_toNat]

theorem InWidth.negative_iff (h : s.InWidth d) :
    s.registers (accRegs d).1 &&& 0x80 ≠ 0 ↔ (s.acc d).toInt < 0 := by
  have hbit := and_bit_ne_zero_iff (s.registers (accRegs d).1) (k := 7) (by decide)
  have hv := h.acc_toNat
  obtain ⟨h2, h1, h0⟩ := h
  rw [show (0x80 : Word) = 1#32 <<< 7 from rfl, hbit, BitVec.getLsbD,
    Nat.testBit_eq_decide_div_mod_eq, decide_eq_true_eq, BitVec.toInt_eq_toNat_cond]
  split <;> omega

theorem InWidth.answer_toNat (h : s.InWidth d) {k : Nat}
    (hk : roundingBit (s.registers Reg.sr) = some k) : (s.jitReadAccu24 d).1.toNat =
      if Fits 24 ((s.acc d).toInt / 2 ^ k) then 2 ^ 24 + (s.acc d).toNat / 2 ^ k % 2 ^ 24
      else if (s.acc d).toInt < 0 then 0x800000 else 0x7FFFFF := by
  have hlt : (s.shifted d).toNat < 2 ^ 24 := by
    rw [h.shifted_toNat hk]
    exact Nat.mod_lt _ (by decide)
  have hneg := h.negative_iff
  rw [jitReadAccu24_value, h.inRange_eq hk]
  by_cases hfits : Fits 24 ((s.acc d).toInt / 2 ^ k)
  · rw [decide_eq_true hfits, if_pos rfl, if_pos rfl, if_pos hfits, BitVec.or_comm]
    have hor := shiftLeft_or_toNat (x := 1#32) hlt (by decide)
    rw [hor, h.shifted_toNat hk]
    rfl
  · rw [decide_eq_false hfits, if_neg Bool.false_ne_true, if_neg Bool.false_ne_true, if_neg hfits]
    by_cases hn : (s.acc d).toInt < 0
    · rw [if_pos (hneg.mpr hn), if_pos hn]
      rfl
    · rw [if_neg (hneg.not.mpr hn), if_neg hn]
      rfl

theorem limitedSr_flag (h : s.InWidth d) {k : Nat}
    (hk : roundingBit (s.registers Reg.sr) = some k) (j : Nat) :
    flag (s.limitedSr d) j = (flag (s.registers Reg.sr) j ||
      (decide (j = Sr.l) && !decide (Fits 24 ((s.acc d).toInt / 2 ^ k)))) := by
  rw [limitedSr, h.inRange_eq hk]
  by_cases hfits : Fits 24 ((s.acc d).toInt / 2 ^ k)
  · simp [hfits]
  · simp (disch := decide) [hfits, flag_single]

end DspState

/-- The low bits of a quotient, as a signed word, are the quotient where it fits. -/
theorem toInt_quotient (v : BitVec 56) {x : BitVec 24} {k : Nat} (hk : k ≤ 32)
    (hx : x.toNat = v.toNat / 2 ^ k % 2 ^ 24) (h : Fits 24 (v.toInt / 2 ^ k)) :
    x.toInt = v.toInt / 2 ^ k := by
  have hshift : x = (v.sshiftRight k).setWidth 24 := by
    apply BitVec.eq_of_getLsbD_eq
    intro i hi
    rw [BitVec.getLsbD, hx, Nat.testBit_mod_two_pow, decide_eq_true hi, Bool.true_and,
      Nat.testBit_div_two_pow, BitVec.getLsbD_setWidth, BitVec.getLsbD_sshiftRight,
      decide_eq_true hi, decide_eq_false (by omega), if_pos (by omega), Nat.add_comm]
    rfl
  have hint : (v.sshiftRight k).toInt = v.toInt / 2 ^ k := by
    rw [BitVec.toInt_sshiftRight, Int.shiftRight_eq_div_pow]
    rfl
  rw [hshift, toInt_setWidth_of_fits (by decide) (by decide) (hint ▸ h), hint]

/-! The limiter. -/

/-- An accumulator is read as the scaled value, limited where it does not fit a word, which L and
bit 24 of the answer tell, and which E tells of the same value. -/
structure Limits (s : DspState σ) (d : Accumulator) (k : Nat) : Prop where
  value : ((s.jitReadAccu24 d).1.setWidth 24).toInt = saturate 24 ((s.acc d).toInt / 2 ^ k)
  whole : (s.jitReadAccu24 d).1.toNat / 2 ^ 24 =
    (decide (Fits 24 ((s.acc d).toInt / 2 ^ k))).toNat
  limit : flag ((s.jitReadAccu24 d).2.registers Reg.sr) Sr.l =
    (flag (s.registers Reg.sr) Sr.l || !decide (Fits 24 ((s.acc d).toInt / 2 ^ k)))
  sticky : ∀ j, flag (s.registers Reg.sr) j = true →
    flag ((s.jitReadAccu24 d).2.registers Reg.sr) j = true
  extension : flag (DspState.jitUpdateNz (s.registers Reg.sr) (s.reloadAcc d)) Sr.e =
    !decide (Fits 24 ((s.acc d).toInt / 2 ^ k))

/-- The rails. -/
theorem saturate_of_not_fits {z : Int} (h : ¬ Fits 24 z) :
    saturate 24 z = if z < 0 then -2 ^ 23 else 2 ^ 23 - 1 := if_neg h

section Limited

variable {s : DspState σ} {d : Accumulator} (h : s.InWidth d) {k : Nat}
  (hk : roundingBit (s.registers Reg.sr) = some k)

include h hk

theorem limited_value :
    ((s.jitReadAccu24 d).1.setWidth 24).toInt = saturate 24 ((s.acc d).toInt / 2 ^ k) := by
  have hanswer := h.answer_toNat hk
  have hle : k ≤ 32 := by
    rcases scales_of_roundingBit hk with ⟨_, rfl⟩ | ⟨_, rfl⟩ | ⟨_, rfl⟩ <;> decide
  have hcut : ((s.jitReadAccu24 d).1.setWidth 24).toNat = (s.jitReadAccu24 d).1.toNat % 2 ^ 24 :=
    BitVec.toNat_setWidth ..
  by_cases hfits : Fits 24 ((s.acc d).toInt / 2 ^ k)
  · rw [if_pos hfits] at hanswer
    rw [saturate, if_pos hfits]
    apply toInt_quotient (s.acc d) hle _ hfits
    rw [hcut, hanswer]
    omega
  · have hneg : (s.acc d).toInt / 2 ^ k < 0 ↔ (s.acc d).toInt < 0 := by
      rw [Int.ediv_lt_iff_lt_mul (Int.pow_pos (by decide)), Int.zero_mul]
    rw [if_neg hfits] at hanswer
    rw [hanswer] at hcut
    rw [saturate_of_not_fits hfits, BitVec.toInt_eq_toNat_cond, hcut]
    by_cases hn : (s.acc d).toInt < 0
    · rw [if_pos hn, if_pos (hneg.mpr hn)]
      decide
    · rw [if_neg hn, if_neg (hneg.not.mpr hn)]
      decide

theorem limited_whole : (s.jitReadAccu24 d).1.toNat / 2 ^ 24 =
    (decide (Fits 24 ((s.acc d).toInt / 2 ^ k))).toNat := by
  rw [h.answer_toNat hk]
  by_cases hfits : Fits 24 ((s.acc d).toInt / 2 ^ k)
  · rw [if_pos hfits, decide_eq_true hfits, Bool.toNat_true]
    omega
  · rw [if_neg hfits, decide_eq_false hfits, Bool.toNat_false]
    split <;> rfl

theorem limited_limit : flag ((s.jitReadAccu24 d).2.registers Reg.sr) Sr.l =
    (flag (s.registers Reg.sr) Sr.l || !decide (Fits 24 ((s.acc d).toInt / 2 ^ k))) := by
  rcases s.jitReadAccu24_sr d with hsr | hsr
  · rw [hsr, DspState.limitedSr_flag h hk, decide_eq_true rfl, Bool.true_and]
  · have hs : flag (1#32 <<< Sr.s) Sr.l = false := rfl
    rw [hsr, flag_or, DspState.limitedSr_flag h hk, hs, decide_eq_true rfl, Bool.true_and,
      Bool.or_false]

theorem limited_sticky {j : Nat} (hj : flag (s.registers Reg.sr) j = true) :
    flag ((s.jitReadAccu24 d).2.registers Reg.sr) j = true := by
  rcases s.jitReadAccu24_sr d with hsr | hsr
  · rw [hsr, DspState.limitedSr_flag h hk, hj, Bool.true_or]
  · rw [hsr, flag_or, DspState.limitedSr_flag h hk, hj, Bool.true_or, Bool.true_or]

omit h in
theorem extension_tells : flag (DspState.jitUpdateNz (s.registers Reg.sr) (s.reloadAcc d)) Sr.e =
    !decide (Fits 24 ((s.acc d).toInt / 2 ^ k)) := by
  have hsign : signBit (s.registers Reg.sr) = some (k + 23) := by rw [signBit, hk]; rfl
  have hlen : k + 23 + 1 = 24 + k := by omega
  rw [flag_jitUpdateNz, if_pos rfl, extended, hsign, DspState.acc]
  simp only [hlen]
  rw [decide_eq_decide.mpr (fits_div (by decide) k).symm]

theorem jitReadAccu24_limits : Limits s d k where
  value := limited_value h hk
  whole := limited_whole h hk
  limit := limited_limit h hk
  sticky _ := limited_sticky h hk
  extension := extension_tells hk

end Limited

/-- The largest value the limiter passes unscaled. -/
theorem jitReadAccu24_limits_rail :
    let s := DspState.ofRegs [(Reg.sr, 0), (Reg.a1, 0x7FFFFF), (Reg.a0, 0xFFFFFF)]
    Limits s .a 24 :=
  jitReadAccu24_limits ⟨by decide, by decide, by decide⟩ rfl

end Dsp56300
