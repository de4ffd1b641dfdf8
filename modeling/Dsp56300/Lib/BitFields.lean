import Mathlib.Data.BitVec

namespace Lib.BitFields

variable {w : Nat}

/-- The bits of `v` at positions `ps`, packed with the first position on top. -/
def pack (ps : List Nat) (v : BitVec w) : BitVec w :=
  ps.foldl (fun r p => (r <<< 1) ||| ((v >>> p) &&& 1#w)) 0

theorem getLsbD_lowBit (v : BitVec w) (p i : Nat) :
    ((v >>> p) &&& 1#w).getLsbD i = (decide (i = 0) && v.getLsbD p) := by
  rw [BitVec.getLsbD_and, BitVec.getLsbD_ushiftRight, BitVec.getLsbD_one]
  by_cases hi : i = 0
  · subst hi
    by_cases hw : 0 < w
    · simp [hw]
    · simp [BitVec.getLsbD_of_ge v p (by omega)]
  · simp [hi]

theorem pack_snoc (ps : List Nat) (p : Nat) (v : BitVec w) :
    pack (ps ++ [p]) v = (pack ps v <<< 1) ||| ((v >>> p) &&& 1#w) := by
  simp [pack]

theorem pack_append (ps qs : List Nat) (v : BitVec w) :
    pack (ps ++ qs) v = (pack ps v <<< qs.length) ||| pack qs v := by
  induction qs using List.reverseRecOn with
  | nil => simp [pack]
  | append_singleton qs p ih =>
    rw [← List.append_assoc, pack_snoc, ih, pack_snoc, BitVec.shiftLeft_or_distrib,
      ← BitVec.shiftLeft_add, List.length_append, List.length_singleton, BitVec.or_assoc]

/-- Bit `i` of the packed word is the bit at the `i`-th position from the right. -/
theorem getLsbD_pack (ps : List Nat) (v : BitVec w) {i : Nat} (hi : i < w) :
    (pack ps v).getLsbD i = (ps.reverse[i]?).any v.getLsbD := by
  induction ps using List.reverseRecOn generalizing i with
  | nil => simp [pack]
  | append_singleton ps p ih =>
    rw [pack_snoc, BitVec.getLsbD_or, BitVec.getLsbD_shiftLeft, getLsbD_lowBit,
      List.reverse_append]
    cases i with
    | zero => simp
    | succ i =>
      rw [Nat.add_sub_cancel, ih (by omega)]
      simp [hi]

/-- A packed word fits as many bits as there are positions. -/
theorem toNat_pack_lt (ps : List Nat) (v : BitVec w) : (pack ps v).toNat < 2 ^ ps.length := by
  by_cases hw : ps.length < w
  · rw [BitVec.toNat_lt_iff_getLsbD_eq_false _ hw]
    intro k
    by_cases hk : ps.length + k < w
    · rw [getLsbD_pack ps v hk, List.getElem?_eq_none (by simp)]
      rfl
    · exact BitVec.getLsbD_of_ge _ _ (by omega)
  · exact Nat.lt_of_lt_of_le (pack ps v).isLt (Nat.pow_le_pow_right (by decide) (by omega))

/-! A run of bits in a word, replaced and read back. -/

section Field

variable {n : Nat} (x : BitVec w) (o : Nat) (y : BitVec n)

/-- A word with other bits from `o` on. -/
def setField : BitVec w :=
  (x &&& ~~~((BitVec.allOnes n).setWidth w <<< o)) ||| (y.setWidth w <<< o)

theorem getLsbD_setField {i : Nat} (hi : i < w) :
    (setField x o y).getLsbD i =
      if o ≤ i ∧ i < o + n then y.getLsbD (i - o) else x.getLsbD i := by
  simp only [setField, BitVec.getLsbD_or, BitVec.getLsbD_and, BitVec.getLsbD_not,
    BitVec.getLsbD_shiftLeft, BitVec.getLsbD_setWidth, BitVec.getLsbD_allOnes, hi]
  by_cases hlo : o ≤ i
  · have hlt : i - o < w := by omega
    have hnot : ¬ i < o := by omega
    by_cases hhi : i < o + n
    · have hn : i - o < n := by omega
      simp [hlo, hhi, hlt, hnot, hn]
    · have hge : y.getLsbD (i - o) = false := BitVec.getLsbD_of_ge y _ (by omega)
      have hn : ¬ i - o < n := by omega
      simp [hhi, hge, hn]
  · have hlt : i < o := by omega
    simp [hlo, hlt]

/-- What was put in is read back. -/
theorem extractLsb'_setField (h : o + n ≤ w) : (setField x o y).extractLsb' o n = y := by
  apply BitVec.eq_of_getLsbD_eq
  intro i hi
  have hfield : o ≤ o + i ∧ o + i < o + n := by omega
  rw [BitVec.getLsbD_extractLsb', getLsbD_setField x o y (by omega), if_pos hfield,
    decide_eq_true hi, Bool.true_and, Nat.add_sub_cancel_left]

/-- Putting back what is there changes nothing. -/
theorem setField_extractLsb' : setField x o (x.extractLsb' o n) = x := by
  apply BitVec.eq_of_getLsbD_eq
  intro i hi
  rw [getLsbD_setField x o _ hi]
  split
  · next h =>
    have hsub : o + (i - o) = i := by omega
    have hn : i - o < n := by omega
    rw [BitVec.getLsbD_extractLsb', hsub, decide_eq_true hn, Bool.true_and]
  · rfl

end Field

end Lib.BitFields
