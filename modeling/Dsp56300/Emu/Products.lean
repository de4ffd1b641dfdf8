import Dsp56300.Emu.AccValues
import Mathlib.Algebra.Order.Ring.Abs

/-! The multiplier: operands, products, and their signed values. -/

namespace Dsp56300

open Emitter Lib.Bits Lib.Words

/-- A word as the multiplier takes it. -/
def operand (unsigned : Bool) (m : BitVec 24) : BitVec 64 :=
  if unsigned then m.setWidth 64 else m.signExtend 64

def operandValue (unsigned : Bool) (m : BitVec 24) : Int := if unsigned then m.toNat else m.toInt

/-- The fractional product of two words, at the width of an accumulator. -/
def product (u₁ u₂ negate : Bool) (m₁ m₂ : BitVec 24) : BitVec 56 :=
  (fractional (operand u₁ m₁) (operand u₂ m₂) negate).setWidth 56

theorem sext24_eq (w : Word) : sext24ToI64 w = operand false (w.setWidth 24) := by
  have hw : (w <<< 8).sshiftRight 8 = (w.setWidth 24).signExtend 32 :=
    shiftLeft_sshiftRight w (by decide)
  have hwide (v : Nat) (h : 24 ≤ v) :
      ((w.setWidth 24).signExtend v).toInt = (w.setWidth 24).toInt :=
    BitVec.toInt_signExtend_of_le h
  apply BitVec.eq_of_toInt_eq
  rw [sext24ToI64, hw, operand, if_neg (by decide), hwide 64 (by decide)]
  exact (BitVec.toInt_signExtend_of_le (by decide)).trans (hwide 32 (by decide))

theorem zext24_eq (w : Word) : zext24ToI64 w = operand true (w.setWidth 24) := by
  have hm : (0x00FFFFFF : Word).toNat = 2 ^ 24 - 1 := rfl
  have hwide {n v : Nat} (h : n ≤ v) (x : BitVec n) : (x.setWidth v).toNat = x.toNat :=
    BitVec.toNat_setWidth_of_le h
  apply BitVec.eq_of_toNat_eq
  rw [zext24ToI64, and_lowMask hm (by decide), operand, if_pos rfl]
  rw [hwide (n := 32) (by decide), hwide (n := 24) (v := 32) (by decide),
    hwide (n := 24) (v := 64) (by decide)]

/-- An operand by the sign field of its instruction. -/
theorem choose_operand (p : Prop) [Decidable p] (m : BitVec 24) :
    (if p then operand true m else operand false m) = operand (decide p) m := by
  by_cases h : p
  · rw [if_pos h, decide_eq_true h]
  · rw [if_neg h, decide_eq_false h]

theorem mask56_product (u₁ u₂ negate : Bool) (m₁ m₂ : BitVec 24) :
    mask56 (fractional (operand u₁ m₁) (operand u₂ m₂) negate) =
      (product u₁ u₂ negate m₁ m₂).setWidth 64 := mask56_eq _

theorem product_comm (u₁ u₂ negate : Bool) (m₁ m₂ : BitVec 24) :
    product u₁ u₂ negate m₁ m₂ = product u₂ u₁ negate m₂ m₁ := by
  rw [product, product, fractional, fractional, BitVec.mul_comm]

/-- A product added to an accumulator moved down by a word. -/
theorem mask56_dmac (v : BitVec 56) (u₁ u₂ negate : Bool) (m₁ m₂ : BitVec 24) :
    mask56 ((sext56ToI64 (v.setWidth 64)).sshiftRight 24 +
      fractional (operand u₁ m₁) (operand u₂ m₂) negate) =
      (v.sshiftRight 24 + product u₁ u₂ negate m₁ m₂).setWidth 64 := by
  rw [mask56_eq, BitVec.setWidth_add _ _ (by decide), sext56_eq,
    setWidth_signExtend_sshiftRight (by decide), product]

theorem toInt_operand (u : Bool) (m : BitVec 24) : (operand u m).toInt = operandValue u m := by
  cases u with
  | false => exact BitVec.toInt_signExtend_of_le (by decide)
  | true =>
    have hlt := m.isLt
    rw [operand, if_pos rfl, operandValue, if_pos rfl, BitVec.toInt_eq_toNat_cond,
      BitVec.toNat_setWidth_of_le (by decide), if_pos (by omega)]

theorem operandValue_bounds (u : Bool) (m : BitVec 24) : |operandValue u m| < 2 ^ 24 := by
  have hlt := m.isLt
  obtain ⟨hlo, hhi⟩ := fits_toInt m
  rw [abs_lt]
  cases u
  · exact ⟨by rw [operandValue, if_neg (by decide)]; omega,
      by rw [operandValue, if_neg (by decide)]; omega⟩
  · exact ⟨by rw [operandValue, if_pos rfl]; omega, by rw [operandValue, if_pos rfl]; omega⟩

/-- A product of operands takes 49 bits. -/
theorem mul_bounds (u₁ u₂ : Bool) (m₁ m₂ : BitVec 24) :
    -2 ^ 48 < operandValue u₁ m₁ * operandValue u₂ m₂ ∧
      operandValue u₁ m₁ * operandValue u₂ m₂ < 2 ^ 48 := by
  have h : |operandValue u₁ m₁ * operandValue u₂ m₂| < 2 ^ 24 * 2 ^ 24 := by
    rw [abs_mul]
    exact mul_lt_mul'' (operandValue_bounds u₁ m₁) (operandValue_bounds u₂ m₂) (abs_nonneg _)
      (abs_nonneg _)
  exact abs_lt.mp h

/-- A product is twice that of the operands. -/
theorem toInt_product (u₁ u₂ negate : Bool) (m₁ m₂ : BitVec 24) :
    (product u₁ u₂ negate m₁ m₂).toInt =
      if negate then -(2 * (operandValue u₁ m₁ * operandValue u₂ m₂))
      else 2 * (operandValue u₁ m₁ * operandValue u₂ m₂) := by
  obtain ⟨hlo, hhi⟩ := mul_bounds u₁ u₂ m₁ m₂
  have hmul : (operand u₁ m₁ * operand u₂ m₂).toInt = operandValue u₁ m₁ * operandValue u₂ m₂ := by
    rw [BitVec.toInt_mul, toInt_operand, toInt_operand,
      bmod_eq_self (by decide) ⟨by omega, by omega⟩]
  have hdouble : ((operand u₁ m₁ * operand u₂ m₂) <<< 1).toInt =
      2 * (operandValue u₁ m₁ * operandValue u₂ m₂) := by
    rw [toInt_shiftLeft_of_fits (by decide) (by rw [hmul]; exact ⟨by omega, by omega⟩), hmul]
    omega
  have hfrac : (fractional (operand u₁ m₁) (operand u₂ m₂) negate).toInt =
      if negate then -(2 * (operandValue u₁ m₁ * operandValue u₂ m₂))
      else 2 * (operandValue u₁ m₁ * operandValue u₂ m₂) := by
    cases negate with
    | false => exact hdouble
    | true =>
      have h0 : (0 : BitVec 64).toInt = 0 := rfl
      rw [fractional, if_pos rfl, if_pos rfl, BitVec.toInt_sub, hdouble, h0,
        bmod_eq_self (by decide) ⟨by omega, by omega⟩, Int.zero_sub]
  have hfits : Fits 56 (fractional (operand u₁ m₁) (operand u₂ m₂) negate).toInt := by
    rw [hfrac]
    split
    · exact ⟨by omega, by omega⟩
    · exact ⟨by omega, by omega⟩
  rw [product, toInt_setWidth_of_fits (by decide) (by decide) hfits, hfrac]

end Dsp56300
