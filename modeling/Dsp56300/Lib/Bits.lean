import Mathlib.Data.BitVec
import Mathlib.Data.List.GetD

namespace Lib.Bits

variable {w : Nat}

/-- A word read as a set of bit numbers: a masked word is nonzero when the sets meet. -/
theorem and_ne_zero_iff (v m : BitVec w) :
    v &&& m ≠ 0 ↔ ∃ j, v.getLsbD j = true ∧ m.getLsbD j = true := by
  constructor
  · intro hn
    by_contra hc
    apply hn
    apply BitVec.eq_of_getLsbD_eq
    intro i _
    rw [BitVec.getLsbD_and]
    cases hv : v.getLsbD i with
    | false => simp
    | true =>
      cases hm : m.getLsbD i with
      | false => simp
      | true => exact absurd ⟨i, hv, hm⟩ hc
  · rintro ⟨j, hv, hm⟩ he
    have hj : (v &&& m).getLsbD j = true := by rw [BitVec.getLsbD_and, hv, hm]; rfl
    rw [he] at hj
    simp at hj

theorem getLsbD_bit (k j : Nat) :
    (1#w <<< k).getLsbD j = (decide (k < w) && decide (k = j)) := by
  rw [← BitVec.twoPow_eq, BitVec.getLsbD_twoPow]

theorem and_bit_ne_zero_iff (v : BitVec w) {k : Nat} (hk : k < w) :
    v &&& (1#w <<< k) ≠ 0 ↔ v.getLsbD k = true := by
  rw [and_ne_zero_iff]
  constructor
  · rintro ⟨j, hv, hj⟩
    rw [getLsbD_bit] at hj
    simp only [Bool.and_eq_true, decide_eq_true_eq] at hj
    rwa [hj.2]
  · intro hv
    refine ⟨k, hv, ?_⟩
    rw [getLsbD_bit, decide_eq_true hk, decide_eq_true rfl]
    rfl

theorem getLsbD_insert (v : BitVec w) {k j : Nat} (hk : k < w) :
    (v ||| (1#w <<< k)).getLsbD j = (v.getLsbD j || decide (k = j)) := by
  rw [BitVec.getLsbD_or, getLsbD_bit, decide_eq_true hk, Bool.true_and]

theorem getLsbD_erase (v : BitVec w) {k j : Nat} (hk : k < w) :
    (v &&& ~~~(1#w <<< k)).getLsbD j = (v.getLsbD j && !decide (k = j)) := by
  rw [BitVec.getLsbD_and, BitVec.getLsbD_not, getLsbD_bit]
  cases hv : v.getLsbD j with
  | false => rfl
  | true => simp [hk, BitVec.lt_of_getLsbD hv]

theorem lowMask_toNat {k : Nat} (hk : k < w) : ((1#w <<< k) - 1#w).toNat = 2 ^ k - 1 := by
  have hlt : 2 ^ k < 2 ^ w := Nat.pow_lt_pow_right (by decide) hk
  have hpos : 0 < 2 ^ k := Nat.two_pow_pos k
  have h1 : (1#w).toNat = 1 := by
    rw [BitVec.toNat_ofNat]
    exact Nat.mod_eq_of_lt (by omega)
  rw [← BitVec.twoPow_eq, BitVec.toNat_sub, BitVec.toNat_twoPow_of_lt hk, h1,
    show 2 ^ w - 1 + 2 ^ k = (2 ^ k - 1) + 2 ^ w by omega, Nat.add_mod_right]
  exact Nat.mod_eq_of_lt (by omega)

/-- The bits below `k`. -/
theorem getLsbD_lowMask {k : Nat} (hk : k < w) (j : Nat) :
    ((1#w <<< k) - 1).getLsbD j = decide (j < k) := by
  have hv : ((1#w <<< k) - 1).toNat = 2 ^ k - 1 := lowMask_toNat hk
  rw [BitVec.getLsbD, hv, Nat.testBit_two_pow_sub_one]

/-- The bits from `k` up. -/
theorem getLsbD_highMask (k : Nat) {j : Nat} (hj : j < w) :
    (BitVec.allOnes w <<< k).getLsbD j = decide (k ≤ j) := by
  rw [BitVec.getLsbD_shiftLeft, BitVec.getLsbD_allOnes, decide_eq_true hj]
  by_cases hk : j < k
  · simp [hk]
  · have hs : j - k < w := by omega
    simp [hk, hs]
    omega

/-! Bit sets spread over a list of words. -/

/-- Bit `a` of the words read as one long bit string. -/
def bitAt (d : List (BitVec w)) (a : Nat) : Bool := (d.getD (a / w) 0).getLsbD (a % w)

variable {d : List (BitVec w)}

theorem word_and_ne_zero_iff (hw : 0 < w) (k : Nat) (m : BitVec w) :
    d.getD k 0 &&& m ≠ 0 ↔ ∃ a, a / w = k ∧ bitAt d a = true ∧ m.getLsbD (a % w) = true := by
  rw [and_ne_zero_iff]
  constructor
  · rintro ⟨j, hd, hm⟩
    have hj := BitVec.lt_of_getLsbD hm
    have hq : (k * w + j) / w = k := by
      rw [Nat.mul_comm, Nat.mul_add_div hw, Nat.div_eq_of_lt hj, Nat.add_zero]
    have hr : (k * w + j) % w = j := by
      rw [Nat.mul_comm, Nat.mul_add_mod, Nat.mod_eq_of_lt hj]
    exact ⟨k * w + j, hq, by rwa [bitAt, hq, hr], by rwa [hr]⟩
  · rintro ⟨a, rfl, hd, hm⟩
    exact ⟨a % w, hd, hm⟩

theorem bitAt_modify (f : BitVec w → BitVec w) (hf : f 0 = 0) (k a : Nat) :
    bitAt (d.modify k f) a =
      ((if a / w = k then f (d.getD (a / w) 0) else d.getD (a / w) 0)).getLsbD (a % w) := by
  rw [bitAt, List.getD_eq_getElem?_getD, List.getD_eq_getElem?_getD, List.getElem?_modify]
  have hf0 : f 0#w = 0#w := hf
  cases d[a / w]? with
  | none => by_cases hk : a / w = k <;> simp [hf0, hk]
  | some v =>
    by_cases hk : a / w = k
    · simp [hk]
    · simp [hk, Ne.symm hk]

/-- Clearing the bits of `m` in the `k`-th word. -/
theorem bitAt_clear (hw : 0 < w) (m : BitVec w) (k a : Nat) :
    bitAt (d.modify k (· &&& ~~~m)) a =
      (bitAt d a && !(decide (a / w = k) && m.getLsbD (a % w))) := by
  rw [bitAt_modify _ (by simp)]
  by_cases hk : a / w = k
  · simp [hk, bitAt, Nat.mod_lt a hw]
  · simp [hk, bitAt]

/-- Zeroing the words that `p` picks. -/
theorem bitAt_zeroWords (p : Nat → Prop) [DecidablePred p] (a : Nat) :
    bitAt (d.mapIdx fun i v => if p i then 0 else v) a =
      (bitAt d a && !decide (p (a / w))) := by
  rw [bitAt, bitAt, List.getD_eq_getElem?_getD, List.getD_eq_getElem?_getD, List.getElem?_mapIdx]
  cases d[a / w]? with
  | none => simp
  | some v => by_cases hp : p (a / w) <;> simp [hp]

/-- Some word from the `f`-th up to the `l`-th is nonzero. -/
theorem any_words_iff (hw : 0 < w) (f l : Nat) :
    ((d.take l).drop f).any (· ≠ 0) = true ↔
      ∃ a, f ≤ a / w ∧ a / w < l ∧ bitAt d a = true := by
  rw [List.any_eq_true]
  constructor
  · rintro ⟨v, hm, hv⟩
    obtain ⟨i, hi, rfl⟩ := List.mem_iff_getElem.mp hm
    simp only [List.length_drop, List.length_take] at hi
    have hlen : f + i < d.length := by omega
    have hne : d.getD (f + i) 0 &&& BitVec.allOnes w ≠ 0 := by
      rw [BitVec.and_allOnes, List.getD_eq_getElem _ _ hlen]
      simpa [List.getElem_drop, List.getElem_take] using hv
    obtain ⟨a, ha, hb, _⟩ := (word_and_ne_zero_iff hw _ _).mp hne
    exact ⟨a, by omega, by omega, hb⟩
  · rintro ⟨a, hf, hl, hb⟩
    have hne : d.getD (a / w) 0 &&& BitVec.allOnes w ≠ 0 := by
      apply (word_and_ne_zero_iff hw _ _).mpr
      refine ⟨a, rfl, hb, ?_⟩
      rw [BitVec.getLsbD_allOnes, decide_eq_true (Nat.mod_lt a hw)]
    rw [BitVec.and_allOnes] at hne
    have hlen : a / w < d.length := by
      by_contra hc
      rw [List.getD_eq_default _ _ (by omega)] at hne
      exact hne rfl
    refine ⟨d[a / w], ?_, ?_⟩
    · apply List.mem_iff_getElem.mpr
      refine ⟨a / w - f, ?_, ?_⟩
      · simp only [List.length_drop, List.length_take]
        omega
      · simp only [List.getElem_drop, List.getElem_take]
        congr 1
        omega
    · rw [List.getD_eq_getElem _ _ hlen] at hne
      simpa using hne

/-! Splitting a word at bit `j`. -/

section Split

variable {q : BitVec w} {j : Nat}

theorem split_disjoint (u v q : BitVec w) : (u &&& ~~~q) &&& (v &&& q) = 0#w := by
  apply BitVec.eq_of_getLsbD_eq
  intro i hi
  simp only [BitVec.getLsbD_and, BitVec.getLsbD_not, BitVec.getLsbD_zero]
  cases q.getLsbD i <;> simp

theorem split_add (v q : BitVec w) : (v &&& ~~~q) + (v &&& q) = v := by
  rw [BitVec.add_eq_or_of_and_eq_zero _ _ (split_disjoint v v q), ← BitVec.and_or_distrib_left,
    BitVec.or_comm, BitVec.or_not_self, BitVec.and_allOnes]

theorem and_toNat (hq : q.toNat = 2 ^ j - 1) (v : BitVec w) : (v &&& q).toNat = v.toNat % 2 ^ j := by
  rw [BitVec.toNat_and, hq, Nat.and_two_pow_sub_one_eq_mod]

theorem and_not_toNat (hq : q.toNat = 2 ^ j - 1) (v : BitVec w) :
    (v &&& ~~~q).toNat = v.toNat / 2 ^ j * 2 ^ j := by
  have hadd := congrArg BitVec.toNat (split_add v q)
  rw [BitVec.toNat_add, and_toNat hq] at hadd
  have hle : (v &&& ~~~q).toNat ≤ v.toNat := Nat.and_le_left
  have hmod : v.toNat % 2 ^ j ≤ v.toNat := Nat.mod_le _ _
  have hdiv := Nat.div_add_mod v.toNat (2 ^ j)
  have hlt := v.isLt
  rw [Nat.mul_comm] at hdiv
  -- the sum of the two parts does not overflow, since neither exceeds `v`
  have hsum : (v &&& ~~~q).toNat + v.toNat % 2 ^ j < 2 ^ w := by
    by_contra hge
    rw [Nat.mod_eq_sub_mod (by omega), Nat.mod_eq_of_lt (by omega)] at hadd
    omega
  rw [Nat.mod_eq_of_lt hsum] at hadd
  omega

/-- Masking with the bits `[k, n)` of a value below `2 ^ n`. -/
theorem and_field_toNat {c p q v : BitVec w} {n k : Nat} (hp : p.toNat = 2 ^ n - 1)
    (hq : q.toNat = 2 ^ k - 1) (hc : c = p &&& ~~~q) (hv : v.toNat < 2 ^ n) :
    (v &&& c).toNat = v.toNat / 2 ^ k * 2 ^ k := by
  rw [hc, ← BitVec.and_assoc, and_not_toNat hq, and_toNat hp, Nat.mod_eq_of_lt hv]

/-- High bits of one word, low bits of another. -/
theorem join_toNat (hq : q.toNat = 2 ^ j - 1) (u v : BitVec w)
    (h : u.toNat / 2 ^ j * 2 ^ j + v.toNat % 2 ^ j < 2 ^ w) :
    ((u &&& ~~~q) ||| (v &&& q)).toNat = u.toNat / 2 ^ j * 2 ^ j + v.toNat % 2 ^ j := by
  rw [← BitVec.add_eq_or_of_and_eq_zero _ _ (split_disjoint u v q), BitVec.toNat_add,
    and_not_toNat hq, and_toNat hq, Nat.mod_eq_of_lt h]

end Split

end Lib.Bits
