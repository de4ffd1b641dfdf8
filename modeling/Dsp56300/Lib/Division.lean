import Mathlib.Algebra.Order.Ring.Int
import Mathlib.Tactic.Ring

/-! Non-restoring division in one register: remainder above, quotient digits shifted in below. -/

namespace Lib.Division

variable {n i : Nat} {d s x : Int} {c : Bool}

/-- A step doubles the register, moves it towards zero by the divisor, and takes in the digit of
the step before. -/
def step (n : Nat) (s x : Int) (c : Bool) : Int :=
  2 * x + (if x < 0 then 2 ^ n * s else -(2 ^ n * s)) + c.toNat

/-- The register after `i` steps of dividing `d` by `s`: a multiple `m` of the unit of the step,
which the quotient digits `q` and the dividend make up, above the digits. -/
structure Divided (n : Nat) (d s : Int) (i : Nat) (x : Int) (c : Bool) (m q : Int) : Prop where
  register : x = 2 ^ i * m + q
  balance : 2 ^ i * m = 2 ^ i * d - 2 ^ n * s * (2 * q + 1)
  digits : 0 ≤ q ∧ 2 * q < 2 ^ i
  low : -(2 ^ n * s) ≤ 2 ^ i * m
  high : 2 ^ i * m < 2 ^ n * s
  digit : c = decide (0 ≤ x)

/-- The digits do not change the sign. -/
theorem Divided.neg_iff {m q : Int} (h : Divided n d s i x c m q) :
    (x < 0 ↔ m < 0) ∧ (x < 0 ↔ 2 ^ i * m < 0) := by
  have hp : (0 : Int) < 2 ^ i := Int.pow_pos (by decide)
  have hx := h.register
  obtain ⟨h0, hq⟩ := h.digits
  by_cases hm : m < 0
  · have hle : 2 ^ i * m ≤ 2 ^ i * (-1) := Int.mul_le_mul_of_nonneg_left (by omega) hp.le
    omega
  · have hpos : 0 ≤ 2 ^ i * m := Int.mul_nonneg hp.le (by omega)
    omega

theorem divided_one (hn : 1 ≤ n) (h0 : 0 ≤ d) (hd : d < 2 ^ n * s) :
    Divided n d s 1 (step n s d false) (decide (0 ≤ step n s d false)) (d - 2 ^ (n - 1) * s) 0 := by
  have hpow : (2 : Int) ^ n = 2 * 2 ^ (n - 1) := by
    obtain ⟨k, rfl⟩ : ∃ k, n = k + 1 := ⟨n - 1, by omega⟩
    rw [Nat.add_sub_cancel, Int.pow_succ, Int.mul_comm]
  have hneg : ¬ d < 0 := by omega
  have hmul : (2 : Int) ^ 1 * (d - 2 ^ (n - 1) * s) = 2 * d - 2 ^ n * s := by
    rw [hpow]
    ring
  refine ⟨?_, ?_, ⟨le_rfl, by decide⟩, ?_, ?_, rfl⟩
  · rw [step, if_neg hneg, hmul, Bool.toNat_false]
    ring
  · rw [hmul]
    ring
  · rw [hmul]
    omega
  · rw [hmul]
    omega

/-- The multiple of the next unit. -/
def next (n i : Nat) (s m : Int) : Int :=
  m + if m < 0 then 2 ^ (n - (i + 1)) * s else -(2 ^ (n - (i + 1)) * s)

theorem divided_succ {m q : Int} (h1 : 1 ≤ i) (hi : i < n) (h : Divided n d s i x c m q) :
    Divided n d s (i + 1) (step n s x c) (decide (0 ≤ step n s x c)) (next n i s m)
      (2 * q + c.toNat) := by
  have hpow : (2 : Int) ^ (i + 1) = 2 * 2 ^ i := by rw [Int.pow_succ, Int.mul_comm]
  have hunit : (2 : Int) ^ (i + 1) * (2 ^ (n - (i + 1)) * s) = 2 ^ n * s := by
    rw [← Int.mul_assoc, ← Int.pow_add, Nat.add_sub_cancel' hi]
  obtain ⟨hneg, hsign⟩ := h.neg_iff
  have heven : (2 : Int) ^ i = 2 * 2 ^ (i - 1) := by
    obtain ⟨k, rfl⟩ : ∃ k, i = k + 1 := ⟨i - 1, by omega⟩
    rw [Nat.add_sub_cancel, Int.pow_succ, Int.mul_comm]
  have hc : c.toNat ≤ 1 := Bool.toNat_le c
  have hdigit := h.digit
  obtain ⟨h0, hq⟩ := h.digits
  have hlow := h.low
  have hhigh := h.high
  have hnext : (2 : Int) ^ (i + 1) * next n i s m =
      2 * (2 ^ i * m) + if x < 0 then 2 ^ n * s else -(2 ^ n * s) := by
    rw [next, Int.mul_add, ← Int.mul_assoc 2, ← hpow]
    by_cases hm : m < 0
    · rw [if_pos hm, if_pos (hneg.mpr hm), hunit]
    · rw [if_neg hm, if_neg (hneg.not.mpr hm), Int.mul_neg, hunit]
  refine ⟨?_, ?_, ⟨by omega, ?_⟩, ?_, ?_, rfl⟩
  · rw [hnext, step, h.register]
    ring
  · rw [hnext, h.balance, hpow]
    by_cases hx : x < 0
    · have hc0 : c.toNat = 0 := by rw [hdigit, decide_eq_false (by omega), Bool.toNat_false]
      rw [if_pos hx, hc0]
      push_cast
      ring
    · have hc1 : c.toNat = 1 := by rw [hdigit, decide_eq_true (by omega), Bool.toNat_true]
      rw [if_neg hx, hc1]
      push_cast
      ring
  · rw [hpow]
    omega
  · rw [hnext]
    split <;> omega
  · rw [hnext]
    split <;> omega

/-- After `n` steps the register holds the quotient by the doubled divisor, and the remainder less
the divisor above it. -/
theorem Divided.quotient {m q : Int} (h : Divided n d s n x c m q) :
    x % 2 ^ n = q ∧ x / 2 ^ n = m ∧ d = 2 * s * q + s + m ∧ -s ≤ m ∧ m < s ∧ d / (2 * s) = q := by
  have hp : (0 : Int) < 2 ^ n := Int.pow_pos (by decide)
  obtain ⟨h0, hq⟩ := h.digits
  have hm : m = d - s * (2 * q + 1) := by
    apply Int.eq_of_mul_eq_mul_left hp.ne'
    rw [h.balance]
    ring
  have hlow : -s ≤ m := by
    apply Int.le_of_mul_le_mul_left _ hp
    have hl := h.low
    rwa [← Int.mul_neg] at hl
  have hhigh : m < s := Int.lt_of_mul_lt_mul_left h.high hp.le
  have hd : d = 2 * s * q + s + m := by
    rw [hm]
    ring
  refine ⟨?_, ?_, hd, hlow, hhigh, ?_⟩
  · rw [h.register, Int.mul_add_emod_self_left, Int.emod_eq_of_lt h0 (by omega)]
  · rw [h.register, Int.mul_add_ediv_left _ _ hp.ne', Int.ediv_eq_zero_of_lt h0 (by omega),
      Int.add_zero]
  · have hsplit : d = (s + m) + 2 * s * q := by omega
    rw [hsplit, Int.add_mul_ediv_left _ _ (by omega), Int.ediv_eq_zero_of_lt (by omega) (by omega),
      Int.zero_add]

end Lib.Division
