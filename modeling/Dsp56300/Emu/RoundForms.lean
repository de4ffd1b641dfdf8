import Dsp56300.Emu.AluEffects

/-! The two roundings: the one RND emits inline and the one of the multiply instructions. -/

namespace Dsp56300

open Emitter Lib.Bits Lib.Rounding Lib.Words

variable {σ : Type}

/-! The inline rounding, mode by mode. -/

section Inline

variable (v : BitVec 56) (conv : Prop) [Decidable conv]

/-- No scaling. -/
def inlineDefault : BitVec 64 :=
  let rd := mask56 (v.setWidth 64 + 0x800000)
  let rd := if rd &&& 0xFFFFFF = 0 ∧ conv then rd &&& ~~~(1#64 <<< 24) else rd
  rd &&& mask56 (~~~0xFFFFFF)

/-- Scale down. -/
def inlineDown : BitVec 64 :=
  let rs0 := mask56 (v.setWidth 64 + (1#64 <<< 24))
  let rs0A1 := (rs0 >>> 24) &&& 0xFFFFFF
  let rs0 := if (rs0 &&& 0xFFFFFF = 0 ∧ rs0A1 &&& 1 = 0) ∧ conv then
    rs0 &&& ~~~(3#64 <<< 24) else rs0
  (rs0 &&& ~~~(1#64 <<< 24)) &&& mask56 (~~~0xFFFFFF)

/-- Scale up. -/
def inlineUp : BitVec 64 :=
  let rs1 := mask56 (v.setWidth 64 + 0x400000)
  let rs1 := if (rs1 &&& 0xFFFFFF) &&& 0x7FFFFF = 0 ∧ conv then rs1 &&& ~~~0xFFFFFF
    else rs1
  (rs1 &&& ~~~0xFFFFFF) ||| (rs1 &&& 0x800000)

theorem sum_toNat (c : BitVec 64) :
    (mask56 (v.setWidth 64 + c)).toNat = (v.toNat + c.toNat) % 2 ^ 56 := by
  have hv := v.isLt
  rw [mask56, and_toNat (j := 56) rfl, BitVec.toNat_add, BitVec.toNat_setWidth_of_le (by decide)]
  omega

theorem low_zero_iff_mod {x m : BitVec 64} {k : Nat} (hm : m.toNat = 2 ^ k - 1) :
    x &&& m = 0 ↔ x.toNat % 2 ^ k = 0 := by
  rw [← BitVec.toNat_inj, and_toNat hm]
  rfl

/-- Clearing the bits below `k` of a 56-bit value. -/
theorem cleared_toNat {x c q : BitVec 64} {k : Nat} (hx : x.toNat < 2 ^ 56)
    (hq : q.toNat = 2 ^ k - 1) (hc : c = 0x00FFFFFFFFFFFFFF &&& ~~~q) :
    (x &&& c).toNat = x.toNat / 2 ^ k * 2 ^ k :=
  and_field_toNat (p := 0x00FFFFFFFFFFFFFF) rfl hq hc hx

/-- A tie is cleared one bit further where the rounding is convergent. -/
theorem selected_toNat {h n : Nat} {z : Prop} [Decidable z] (f : BitVec 64 → BitVec 64)
    {x y : BitVec 64} (hz : z ↔ (n + h) % 2 ^ 56 % (2 * h) = 0)
    (hx : (f x).toNat = halfUp (2 ^ 56) h n)
    (hy : (f y).toNat = (n + h) % 2 ^ 56 / (4 * h) * (4 * h)) :
    (f (if z ∧ conv then y else x)).toNat =
      if conv then halfEven (2 ^ 56) h n else halfUp (2 ^ 56) h n := by
  by_cases hconv : conv
  · rw [if_pos hconv, halfEven]
    by_cases htie : z
    · rw [if_pos ⟨htie, hconv⟩, if_pos (hz.mp htie), hy]
    · rw [if_neg fun h => htie h.1, if_neg (hz.not.mp htie), hx]
  · rw [if_neg fun h => hconv h.2, if_neg hconv, hx]

theorem inlineDefault_toNat : (inlineDefault v conv).toNat =
    if conv then halfEven (2 ^ 56) (2 ^ 23) v.toNat else halfUp (2 ^ 56) (2 ^ 23) v.toNat := by
  have ht := sum_toNat v 0x800000
  rw [show (0x800000 : BitVec 64).toNat = 2 ^ 23 from rfl] at ht
  have hlt : (mask56 (v.setWidth 64 + 0x800000)).toNat < 2 ^ 56 := by omega
  have hz := low_zero_iff_mod (x := mask56 (v.setWidth 64 + 0x800000)) (m := 0xFFFFFF) (k := 24) rfl
  rw [inlineDefault]
  generalize mask56 (v.setWidth 64 + 0x800000) = rd at *
  have hdown : (rd &&& mask56 (~~~0xFFFFFF)).toNat = rd.toNat / 2 ^ 24 * 2 ^ 24 :=
    cleared_toNat (q := 0xFFFFFF) hlt rfl (by decide)
  have heven : (rd &&& ~~~(1#64 <<< 24) &&& mask56 (~~~0xFFFFFF)).toNat =
      rd.toNat / 2 ^ 25 * 2 ^ 25 := by
    rw [BitVec.and_assoc]
    exact cleared_toNat (q := 0x1FFFFFF) hlt rfl (by decide)
  rw [ht] at hz hdown heven
  exact selected_toNat conv (· &&& mask56 (~~~0xFFFFFF)) hz hdown heven

theorem inlineDown_toNat : (inlineDown v conv).toNat =
    if conv then halfEven (2 ^ 56) (2 ^ 24) v.toNat else halfUp (2 ^ 56) (2 ^ 24) v.toNat := by
  have ht := sum_toNat v (1#64 <<< 24)
  rw [show (1#64 <<< 24).toNat = 2 ^ 24 from rfl] at ht
  have hlt : (mask56 (v.setWidth 64 + (1#64 <<< 24))).toNat < 2 ^ 56 := by omega
  rw [inlineDown]
  generalize mask56 (v.setWidth 64 + (1#64 <<< 24)) = rd at *
  have hz : rd &&& 0xFFFFFF = 0 ∧ (rd >>> 24) &&& 0xFFFFFF &&& 1 = 0 ↔
      (v.toNat + 2 ^ 24) % 2 ^ 56 % (2 * 2 ^ 24) = 0 := by
    rw [low_zero_iff_mod (m := 0xFFFFFF) (k := 24) rfl, low_zero_iff_mod (m := 1) (k := 1) rfl,
      and_toNat (q := 0xFFFFFF) (j := 24) rfl, BitVec.toNat_ushiftRight, Nat.shiftRight_eq_div_pow]
    omega
  have hdown : (rd &&& ~~~(1#64 <<< 24) &&& mask56 (~~~0xFFFFFF)).toNat =
      rd.toNat / 2 ^ 25 * 2 ^ 25 := by
    rw [BitVec.and_assoc]
    exact cleared_toNat (q := 0x1FFFFFF) hlt rfl (by decide)
  have heven : (rd &&& ~~~(3#64 <<< 24) &&& ~~~(1#64 <<< 24) &&& mask56 (~~~0xFFFFFF)).toNat =
      rd.toNat / 2 ^ 26 * 2 ^ 26 := by
    rw [BitVec.and_assoc, BitVec.and_assoc]
    exact cleared_toNat (q := 0x3FFFFFF) hlt rfl (by decide)
  rw [ht] at hdown heven
  exact selected_toNat conv (· &&& ~~~(1#64 <<< 24) &&& mask56 (~~~0xFFFFFF)) hz hdown heven

theorem inlineUp_toNat : (inlineUp v conv).toNat =
    if conv then halfEven (2 ^ 56) (2 ^ 22) v.toNat else halfUp (2 ^ 56) (2 ^ 22) v.toNat := by
  have ht := sum_toNat v 0x400000
  rw [show (0x400000 : BitVec 64).toNat = 2 ^ 22 from rfl] at ht
  have hjoin (x : BitVec 64) : (x &&& ~~~0xFFFFFF) ||| (x &&& 0x800000) = x &&& ~~~0x7FFFFF := by
    rw [← BitVec.and_or_distrib_left]
    rfl
  rw [inlineUp]
  simp only [hjoin]
  generalize mask56 (v.setWidth 64 + 0x400000) = rd at *
  have hz : (rd &&& 0xFFFFFF) &&& 0x7FFFFF = 0 ↔
      (v.toNat + 2 ^ 22) % 2 ^ 56 % (2 * 2 ^ 22) = 0 := by
    rw [low_zero_iff_mod (m := 0x7FFFFF) (k := 23) rfl, and_toNat (q := 0xFFFFFF) (j := 24) rfl]
    omega
  have hdown : (rd &&& ~~~0x7FFFFF).toNat = rd.toNat / 2 ^ 23 * 2 ^ 23 :=
    and_not_toNat (q := 0x7FFFFF) rfl rd
  have heven : (rd &&& ~~~0xFFFFFF &&& ~~~0x7FFFFF).toNat = rd.toNat / 2 ^ 24 * 2 ^ 24 := by
    rw [BitVec.and_assoc]
    exact and_not_toNat (q := 0xFFFFFF) rfl rd
  rw [ht] at hdown heven
  exact selected_toNat conv (· &&& ~~~0x7FFFFF) hz hdown heven

end Inline

/-! Both roundings by the bits of SR. -/

variable (s : DspState σ) (v : BitVec 56)

/-- RND gives scale up priority. -/
theorem rndValue_toNat : (Alu.rndValue (s.registers Reg.sr) (v.setWidth 64)).toNat =
    rounded s (if flag (s.registers Reg.sr) Sr.s1 then 2 ^ 22
      else if flag (s.registers Reg.sr) Sr.s0 then 2 ^ 24 else 2 ^ 23) (v.setWidth 64) := by
  have hv : (v.setWidth 64).toNat % 2 ^ 56 = v.toNat := by
    rw [BitVec.toNat_setWidth_of_le (by decide)]
    exact Nat.mod_eq_of_lt v.isLt
  have h0 := (bit_test_iff (s.registers Reg.sr) (k := Sr.s0) (by decide)).not
  have h1 := (bit_test_iff (s.registers Reg.sr) (k := Sr.s1) (by decide)).not
  have heq : Alu.rndValue (s.registers Reg.sr) (v.setWidth 64) =
      if s.registers Reg.sr &&& (1#32 <<< Sr.s1) ≠ 0 then
        inlineUp v (s.registers Reg.sr &&& (1#32 <<< Sr.rm) = 0)
      else if s.registers Reg.sr &&& (1#32 <<< Sr.s0) ≠ 0 then
        inlineDown v (s.registers Reg.sr &&& (1#32 <<< Sr.rm) = 0)
      else inlineDefault v (s.registers Reg.sr &&& (1#32 <<< Sr.rm) = 0) := by
    rfl
  rw [heq, rounded, hv]
  rcases hs1 : flag (s.registers Reg.sr) Sr.s1 with _ | _
  · rw [if_neg fun h => h1.mp h hs1, if_neg Bool.false_ne_true]
    rcases hs0 : flag (s.registers Reg.sr) Sr.s0 with _ | _
    · rw [if_neg fun h => h0.mp h hs0, if_neg Bool.false_ne_true, inlineDefault_toNat]
    · rw [if_pos (h0.mpr (by simp [hs0])), if_pos rfl, inlineDown_toNat]
  · rw [if_pos (h1.mpr (by simp [hs1])), if_pos rfl, inlineUp_toNat]

/-- The multiply instructions give scale down priority. -/
theorem jitRnd56_modes : (s.jitRnd56 (v.setWidth 64)).toNat =
    rounded s (if flag (s.registers Reg.sr) Sr.s0 then 2 ^ 24
      else if flag (s.registers Reg.sr) Sr.s1 then 2 ^ 22 else 2 ^ 23) (v.setWidth 64) := by
  have h0 := bit_test_iff (s.registers Reg.sr) (k := Sr.s0) (by decide)
  have h1 := bit_test_iff (s.registers Reg.sr) (k := Sr.s1) (by decide)
  rcases hs0 : flag (s.registers Reg.sr) Sr.s0 with _ | _
  · rw [if_neg Bool.false_ne_true]
    rcases hs1 : flag (s.registers Reg.sr) Sr.s1 with _ | _
    · rw [if_neg Bool.false_ne_true, jitRnd56_unscaled (h0.mpr hs0) (h1.mpr hs1)]
    · rw [if_pos rfl, jitRnd56_scaleUp (h0.mpr hs0) (h1.not.mpr (by simp [hs1]))]
  · rw [if_pos rfl, jitRnd56_scaleDown (h0.not.mpr (by simp [hs0]))]

/-- Where a rounding to `2 ^ 25` and one to `2 ^ 23` come out the same: next to a multiple of the
larger unit. -/
def RoundsAlike (sr : Word) (v : BitVec 56) : Prop :=
  v.toNat % 2 ^ 25 < 2 ^ 22 ∨ (v.toNat % 2 ^ 25 = 2 ^ 22 ∧ flag sr Sr.rm = false) ∨
    2 ^ 25 - 2 ^ 22 ≤ v.toNat % 2 ^ 25

theorem rounded_eq_iff : rounded s (2 ^ 22) (v.setWidth 64) = rounded s (2 ^ 24) (v.setWidth 64) ↔
    RoundsAlike (s.registers Reg.sr) v := by
  have hlt := v.isLt
  have hv : (v.setWidth 64).toNat % 2 ^ 56 = v.toNat := by
    rw [BitVec.toNat_setWidth_of_le (by decide)]
    exact Nat.mod_eq_of_lt v.isLt
  have hrm := bit_test_iff (s.registers Reg.sr) (k := Sr.rm) (by decide)
  rw [rounded, rounded, hv, RoundsAlike, ← hrm]
  by_cases hconv : s.registers Reg.sr &&& (1#32 <<< Sr.rm) = 0
  · rw [if_pos hconv, if_pos hconv, halfEven, halfEven, halfUp, halfUp]
    simp only [hconv, and_true]
    split <;> split <;> omega
  · rw [if_neg hconv, if_neg hconv, halfUp, halfUp]
    simp only [hconv, and_false, false_or]
    omega

/-- Without S0 the two roundings are one. -/
theorem rndValue_of_unscaled {s : DspState σ} (h : flag (s.registers Reg.sr) Sr.s0 = false)
    (v : BitVec 56) :
    Alu.rndValue (s.registers Reg.sr) (v.setWidth 64) = s.jitRnd56 (v.setWidth 64) := by
  rw [← BitVec.toNat_inj, rndValue_toNat, jitRnd56_modes]
  simp [h]

/-- The two roundings are one outside the reserved mode, and there on these values. -/
theorem rndValue_eq_iff (s : DspState σ) (v : BitVec 56) :
    Alu.rndValue (s.registers Reg.sr) (v.setWidth 64) = s.jitRnd56 (v.setWidth 64) ↔
      flag (s.registers Reg.sr) Sr.s0 = false ∨ flag (s.registers Reg.sr) Sr.s1 = false ∨
        RoundsAlike (s.registers Reg.sr) v := by
  rw [← BitVec.toNat_inj, rndValue_toNat, jitRnd56_modes]
  rcases flag (s.registers Reg.sr) Sr.s0 with _ | _
  · simp
  · rcases flag (s.registers Reg.sr) Sr.s1 with _ | _
    · simp
    · simpa using rounded_eq_iff s v

/-- Half a unit above zero, in the reserved mode: kept by RND, rounded away by MPYR. -/
theorem rndValue_differs :
    let s := DspState.ofRegs [(Reg.sr, 0xC00)]
    Alu.rndValue (s.registers Reg.sr) 0x800000 ≠ s.jitRnd56 0x800000 := by
  decide

end Dsp56300
