import Mathlib.Data.Nat.Size
import Dsp56300.Lib.Words

/-! The digits a signed number has after its sign. -/

namespace Lib.Digits

open Lib.Words

/-- A number with its sign taken off. -/
def magnitude (z : Int) : Nat := if z < 0 then (-z - 1).toNat else z.toNat

/-- How many bits a number needs besides the sign. -/
def digits (z : Int) : Nat := (magnitude z).size

theorem digits_le_iff (z : Int) (k : Nat) : digits z ≤ k ↔ -2 ^ k ≤ z ∧ z < 2 ^ k := by
  have hcast : ((2 ^ k : Nat) : Int) = 2 ^ k := by push_cast; rfl
  have hpos : 0 < 2 ^ k := Nat.two_pow_pos k
  rw [digits, Nat.size_le, magnitude]
  split <;> omega

theorem fits_iff_digits (z : Int) (k : Nat) : Fits (k + 1) z ↔ digits z ≤ k := by
  rw [digits_le_iff, Fits, Nat.add_sub_cancel]

theorem digits_eq_of_le_iff {m n : Nat} (h : ∀ k, m ≤ k ↔ n ≤ k) : m = n :=
  Nat.le_antisymm ((h n).mpr le_rfl) ((h m).mp le_rfl)

/-- Halving drops a digit. -/
theorem digits_half (z : Int) : digits (z / 2) = digits z - 1 := by
  apply digits_eq_of_le_iff
  intro k
  have hpow : (2 : Int) ^ (k + 1) = 2 * 2 ^ k := by rw [Int.pow_succ, Int.mul_comm]
  rw [Nat.sub_le_iff_le_add, digits_le_iff, digits_le_iff, hpow]
  omega

/-- Doubling adds one. -/
theorem digits_double {z : Int} (h : z ≠ 0) : digits (2 * z) = digits z + 1 := by
  apply digits_eq_of_le_iff
  rintro (_ | k)
  · have h0 : ¬ digits (2 * z) ≤ 0 := by
      rw [digits_le_iff]
      omega
    omega
  · have hpow : (2 : Int) ^ (k + 1) = 2 * 2 ^ k := by rw [Int.pow_succ, Int.mul_comm]
    rw [Nat.add_le_add_iff_right, digits_le_iff, digits_le_iff, hpow]
    omega

/-- The leading zeros of a word are the bits its value does not need. -/
theorem toNat_clz {w : Nat} (x : BitVec w) : x.clz.toNat = w - x.toNat.size := by
  by_cases hx : x = 0#w
  · rw [(BitVec.clz_eq_iff_eq_zero (x := x)).mpr hx, hx]
    simp [Nat.mod_eq_of_lt (Nat.lt_two_pow_self (n := w))]
  · have hw : 0 < w := by
      rcases w with _ | w
      · exact absurd (BitVec.of_length_zero (x := x)) hx
      · omega
    have hle := BitVec.two_pow_sub_clz_le_toNat_of_ne_zero hw hx
    have hlt := BitVec.toNat_lt_two_pow_sub_clz (x := x)
    have hclz : x.clz.toNat < w := by
      have h := BitVec.lt_def.mp (BitVec.clz_lt_iff_ne_zero.mpr hx)
      simpa [Nat.mod_eq_of_lt (Nat.lt_two_pow_self (n := w))] using h
    have h1 := Nat.lt_size.mpr hle
    have h2 := Nat.size_le.mpr hlt
    omega

end Lib.Digits
