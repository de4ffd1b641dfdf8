import Mathlib.Data.BitVec

/-! Words of `w` bits held in wider ones, and the bits that tell how their sums and differences
compare with the exact ones. -/

namespace Lib.Words

variable {w v : Nat}

/-! A truth value as a word. -/

/-- 1 or 0. -/
def bit (w : Nat) (b : Bool) : BitVec w := (BitVec.ofBool b).setWidth w

@[simp] theorem getLsbD_bit (b : Bool) (k : Nat) :
    (bit w b).getLsbD k = (b && decide (k = 0) && decide (0 < w)) := by
  rcases k with _ | k
  · cases b <;> simp [bit]
  · cases b <;> simp [bit]

theorem and_one (x : BitVec w) : x &&& 1#w = bit w (x.getLsbD 0) := by
  apply BitVec.eq_of_getLsbD_eq
  intro i hi
  have hw : 0 < w := by omega
  rcases i with _ | i
  · simp [bit, hw]
  · simp

@[simp] theorem bit_and (a b : Bool) : bit w a &&& bit w b = bit w (a && b) := by
  cases a <;> cases b <;> simp [bit]

@[simp] theorem bit_or (a b : Bool) : bit w a ||| bit w b = bit w (a || b) := by
  cases a <;> cases b <;> simp [bit]

@[simp] theorem bit_xor (a b : Bool) : bit w a ^^^ bit w b = bit w (a ^^ b) := by
  cases a <;> cases b <;> simp [bit]

theorem bit_true : bit w true = 1#w := by
  apply BitVec.eq_of_getLsbD_eq
  intro i hi
  rcases i with _ | i <;> simp

@[simp] theorem bit_false : bit w false = 0#w := by
  simp [bit]

@[simp] theorem bit_and_one (b : Bool) : bit w b &&& 1#w = bit w b := by
  rw [← bit_true, bit_and, Bool.and_true]

@[simp] theorem one_sub_bit (b : Bool) : 1#w - bit w b = bit w (!b) := by
  cases b
  · simp [bit_true]
  · simp [bit_true]

@[simp] theorem bit_eq_zero (h : 0 < w) (b : Bool) : bit w b = 0#w ↔ b = false := by
  cases b
  · simp
  · rw [bit_true]
    have : w ≠ 0 := by omega
    simp [BitVec.one_eq_zero_iff, this]

/-! Narrow words in wide ones. -/

theorem and_one_ne_zero (h : 0 < w) (x : BitVec w) :
    x &&& 1#w ≠ 0#w ↔ x.getLsbD 0 = true := by
  rw [and_one, ne_eq, bit_eq_zero h, Bool.not_eq_false]

/-- The mask of the low bits truncates. -/
theorem and_lowMask {m : BitVec w} (hm : m.toNat = 2 ^ v - 1) (h : v ≤ w) (x : BitVec w) :
    x &&& m = (x.setWidth v).setWidth w := by
  apply BitVec.eq_of_toNat_eq
  rw [BitVec.toNat_and, hm, Nat.and_two_pow_sub_one_eq_mod, BitVec.toNat_setWidth,
    BitVec.toNat_setWidth, Nat.mod_eq_of_lt (b := 2 ^ w)]
  exact (Nat.mod_lt _ (Nat.two_pow_pos v)).trans_le (Nat.pow_le_pow_right (by decide) h)

theorem setWidth_eq_zero_iff (h : v ≤ w) (x : BitVec v) : x.setWidth w = 0#w ↔ x = 0#v := by
  rw [← BitVec.toNat_inj, ← BitVec.toNat_inj, BitVec.toNat_setWidth_of_le h, BitVec.toNat_zero,
    BitVec.toNat_zero]

/-- A shift up and an arithmetic shift back extend the sign. -/
theorem shiftLeft_sshiftRight (x : BitVec w) {k : Nat} (hk : k < w) :
    (x <<< k).sshiftRight k = (x.setWidth (w - k)).signExtend w := by
  apply BitVec.eq_of_getLsbD_eq
  intro i hi
  simp only [BitVec.getLsbD_sshiftRight, BitVec.getLsbD_signExtend, BitVec.msb_eq_getLsbD_last,
    BitVec.getLsbD_shiftLeft, BitVec.getLsbD_setWidth]
  grind

/-- Bits set beside lower ones. -/
theorem shiftLeft_or_toNat {x y : BitVec w} {k : Nat} (hy : y.toNat < 2 ^ k)
    (h : x.toNat * 2 ^ k < 2 ^ w) : ((x <<< k) ||| y).toNat = x.toNat * 2 ^ k + y.toNat := by
  rw [BitVec.toNat_or, BitVec.toNat_shiftLeft, Nat.shiftLeft_eq, Nat.mod_eq_of_lt h, Nat.mul_comm,
    ← Nat.two_pow_add_eq_or_of_lt hy]

/-- A mask of two bits leaves nothing or itself where the two agree. -/
theorem and_pair_iff {m : BitVec w} {j k : Nat} (hj : j < w) (hk : k < w)
    (hm : m = 1#w <<< j ||| 1#w <<< k) (x : BitVec w) :
    x &&& m = 0#w ∨ x &&& m = m ↔ x.getLsbD j = x.getLsbD k := by
  have hmj : m.getLsbD j = true := by simp [hm, hj]
  have hmk : m.getLsbD k = true := by simp [hm, hk]
  have hmi (i : Nat) (hi : i < w) (hij : i ≠ j) (hik : i ≠ k) : m.getLsbD i = false := by
    simp only [hm, BitVec.getLsbD_or, ← BitVec.twoPow_eq, BitVec.getLsbD_twoPow]
    simp [Ne.symm hij, Ne.symm hik]
  constructor
  · rintro (h | h)
    · have h1 := congrArg (·.getLsbD j) h
      have h2 := congrArg (·.getLsbD k) h
      simp only [BitVec.getLsbD_and, hmj, hmk, Bool.and_true, BitVec.getLsbD_zero] at h1 h2
      rw [h1, h2]
    · have h1 := congrArg (·.getLsbD j) h
      have h2 := congrArg (·.getLsbD k) h
      simp only [BitVec.getLsbD_and, hmj, hmk, Bool.and_true] at h1 h2
      rw [h1, h2]
  · intro h
    rcases hx : x.getLsbD j with _ | _
    · refine .inl (BitVec.eq_of_getLsbD_eq fun i hi => ?_)
      rw [BitVec.getLsbD_and, BitVec.getLsbD_zero]
      by_cases hij : i = j
      · simp [hij, hx]
      · by_cases hik : i = k
        · simp [hik, ← h, hx]
        · simp [hmi i hi hij hik]
    · refine .inr (BitVec.eq_of_getLsbD_eq fun i hi => ?_)
      rw [BitVec.getLsbD_and]
      by_cases hij : i = j
      · simp [hij, hx]
      · by_cases hik : i = k
        · simp [hik, ← h, hx]
        · simp [hmi i hi hij hik]

/-- An arithmetic shift of an extended word is that of the word. -/
theorem setWidth_signExtend_sshiftRight (h : v ≤ w) (x : BitVec v) (n : Nat) :
    ((x.signExtend w).sshiftRight n).setWidth v = x.sshiftRight n := by
  apply BitVec.eq_of_getLsbD_eq
  intro i hi
  simp only [BitVec.getLsbD_setWidth, BitVec.getLsbD_sshiftRight, BitVec.getLsbD_signExtend,
    BitVec.msb_signExtend]
  grind

theorem setWidth_sub (h : v ≤ w) (x y : BitVec w) :
    (x - y).setWidth v = x.setWidth v - y.setWidth v := by
  rw [BitVec.sub_eq_add_neg, BitVec.sub_eq_add_neg, BitVec.setWidth_add _ _ h,
    BitVec.setWidth_neg_of_le h]

theorem setWidth_bit (hv : 0 < v) (hw : 0 < w) (b : Bool) : (bit w b).setWidth v = bit v b := by
  apply BitVec.eq_of_getLsbD_eq
  intro i hi
  rcases i with _ | i <;> simp [bit, hv, hw]

theorem toNat_bit (h : 0 < w) (b : Bool) : (bit w b).toNat = b.toNat := by
  cases b
  · simp
  · rw [bit_true]
    exact Nat.mod_eq_of_lt (Nat.one_lt_two_pow (by omega))

/-! Sums and differences with a carry, held in wider words. -/

section Carry

variable (x y : BitVec v) (c : Bool)

/-- A bit of a word is the sign of the word cut above it. -/
theorem getLsbD_eq_msb (z : BitVec w) : z.getLsbD v = (z.setWidth (v + 1)).msb := by
  simp [BitVec.msb_eq_getLsbD_last]

/-- The bit above a sum is the carry. -/
theorem getLsbD_add_carry (h : v < w) :
    (x.setWidth w + y.setWidth w + bit w c).getLsbD v =
      decide (2 ^ v ≤ x.toNat + y.toNat + c.toNat) := by
  have hx := x.isLt
  have hy := y.isLt
  have hc : c.toNat ≤ 1 := Bool.toNat_le c
  rw [getLsbD_eq_msb, BitVec.setWidth_add _ _ h, BitVec.setWidth_add _ _ h,
    BitVec.setWidth_setWidth_of_le _ h, BitVec.setWidth_setWidth_of_le _ h,
    setWidth_bit (by omega) (by omega), BitVec.msb_eq_decide, BitVec.toNat_add, BitVec.toNat_add,
    toNat_bit (by omega), BitVec.toNat_setWidth_of_le (by omega),
    BitVec.toNat_setWidth_of_le (by omega), Nat.mod_add_mod, Nat.mod_eq_of_lt (by omega),
    Nat.add_sub_cancel]

/-- The bit above a difference is the borrow. -/
theorem getLsbD_sub_borrow (h : v < w) :
    (x.setWidth w - y.setWidth w - bit w c).getLsbD v = decide (x.toNat < y.toNat + c.toNat) := by
  have hx := x.isLt
  have hy := y.isLt
  have hc : c.toNat ≤ 1 := Bool.toNat_le c
  have hpow : 2 ^ (v + 1) = 2 * 2 ^ v := Nat.pow_succ'
  rw [getLsbD_eq_msb, setWidth_sub h, setWidth_sub h, BitVec.setWidth_setWidth_of_le _ h,
    BitVec.setWidth_setWidth_of_le _ h, setWidth_bit (by omega) (by omega), BitVec.msb_eq_decide,
    BitVec.toNat_sub, BitVec.toNat_sub, toNat_bit (by omega),
    BitVec.toNat_setWidth_of_le (by omega), BitVec.toNat_setWidth_of_le (by omega),
    Nat.add_mod_mod, hpow, Nat.add_sub_cancel, decide_eq_decide]
  by_cases hlt : x.toNat < y.toNat + c.toNat
  · have hwrap : 2 * 2 ^ v - c.toNat + (2 * 2 ^ v - y.toNat + x.toNat) =
        2 * 2 ^ v - (y.toNat + c.toNat - x.toNat) + 2 * 2 ^ v := by omega
    rw [hwrap, Nat.add_mod_right, Nat.mod_eq_of_lt (by omega)]
    omega
  · have hexact : 2 * 2 ^ v - c.toNat + (2 * 2 ^ v - y.toNat + x.toNat) =
        x.toNat - (y.toNat + c.toNat) + 2 * 2 ^ v + 2 * 2 ^ v := by omega
    rw [hexact, Nat.add_mod_right, Nat.add_mod_right, Nat.mod_eq_of_lt (by omega)]
    omega

end Carry

/-! The exact results as signed integers. -/

/-- Whether an integer is the value of a signed word. -/
def Fits (v : Nat) (z : Int) : Prop := -2 ^ (v - 1) ≤ z ∧ z < 2 ^ (v - 1)

instance (z : Int) : Decidable (Fits v z) := inferInstanceAs (Decidable (_ ∧ _))

theorem fits_toInt (x : BitVec v) : Fits v x.toInt := ⟨BitVec.le_toInt x, BitVec.toInt_lt⟩

/-- The nearest value of a signed word. -/
def saturate (v : Nat) (z : Int) : Int :=
  if Fits v z then z else if z < 0 then -2 ^ (v - 1) else 2 ^ (v - 1) - 1

/-- A quotient fits a word where the number fits the longer one. -/
theorem fits_div {z : Int} (hv : 0 < v) (k : Nat) : Fits v (z / 2 ^ k) ↔ Fits (v + k) z := by
  have hk : (0 : Int) < 2 ^ k := Int.pow_pos (by decide)
  have hpow : (2 : Int) ^ (v + k - 1) = 2 ^ (v - 1) * 2 ^ k := by
    rw [← Int.pow_add]
    congr 1
    omega
  rw [Fits, Fits, hpow, ← Int.neg_mul, Int.le_ediv_iff_mul_le hk, Int.ediv_lt_iff_lt_mul hk]

theorem two_pow_double (hv : 0 < v) : (2 : Int) ^ v = 2 * 2 ^ (v - 1) := by
  obtain ⟨k, rfl⟩ : ∃ k, v = k + 1 := ⟨v - 1, by omega⟩
  rw [Nat.add_sub_cancel, Int.pow_succ, Int.mul_comm]

theorem bmod_eq_self (hv : 0 < v) {z : Int} (h : Fits v z) : z.bmod (2 ^ v) = z := by
  have hp := two_pow_double hv
  obtain ⟨hlo, hhi⟩ := h
  apply Int.bmod_eq_of_le_mul_two <;> push_cast <;> omega

/-- A cut word keeps a value that fits. -/
theorem toInt_setWidth_of_fits (hv : 0 < v) (h : v ≤ w) {x : BitVec w} (hx : Fits v x.toInt) :
    (x.setWidth v).toInt = x.toInt := by
  have hdvd : 2 ^ v ∣ 2 ^ w := Nat.pow_dvd_pow 2 h
  have hcut : (x.setWidth v).toInt = x.toInt.bmod (2 ^ v) := by
    rw [BitVec.toInt_setWidth, BitVec.toInt_eq_toNat_bmod x, Int.bmod_bmod_of_dvd hdvd]
  rw [hcut, bmod_eq_self hv hx]

/-- A shift keeps the value that still fits. -/
theorem toInt_shiftLeft_of_fits (hv : 0 < v) {x : BitVec v} {k : Nat}
    (h : Fits v (x.toInt * 2 ^ k)) : (x <<< k).toInt = x.toInt * 2 ^ k := by
  have hwrap : (x <<< k).toInt = (x.toInt * 2 ^ k).bmod (2 ^ v) := by
    rw [BitVec.toInt_shiftLeft, Nat.shiftLeft_eq, BitVec.toInt_eq_toNat_bmod, Int.bmod_mul_bmod]
    push_cast
    rfl
  rw [hwrap, bmod_eq_self hv h]

/-- An exact result wraps at most once. -/
theorem bmod_cases (hv : 0 < v) {z : Int} (hlo : -2 ^ v ≤ z) (hhi : z < 2 ^ v) :
    (Fits v z ∧ z.bmod (2 ^ v) = z) ∨
      (2 ^ (v - 1) ≤ z ∧ z.bmod (2 ^ v) = z - 2 ^ v) ∨
      (z < -2 ^ (v - 1) ∧ z.bmod (2 ^ v) = z + 2 ^ v) := by
  have hp := two_pow_double hv
  by_cases hge : 2 ^ (v - 1) ≤ z
  · refine .inr (.inl ⟨hge, ?_⟩)
    have hsub : (z - (2 ^ v : Nat)).bmod (2 ^ v) = z.bmod (2 ^ v) := Int.sub_bmod_right ..
    rw [← hsub]
    push_cast
    exact bmod_eq_self hv ⟨by omega, by omega⟩
  · by_cases hlt : z < -2 ^ (v - 1)
    · refine .inr (.inr ⟨hlt, ?_⟩)
      have hadd : (z + (2 ^ v : Nat)).bmod (2 ^ v) = z.bmod (2 ^ v) := Int.add_bmod_right ..
      rw [← hadd]
      push_cast
      exact bmod_eq_self hv ⟨by omega, by omega⟩
    · have hfits : Fits v z := ⟨by omega, by omega⟩
      exact .inl ⟨hfits, bmod_eq_self hv hfits⟩

/-- A word has the value of a shorter signed one where its bits from the sign on agree. -/
theorem fits_iff_high (x : BitVec v) {k : Nat} (hk : k < v) :
    Fits (k + 1) x.toInt ↔ x.toNat / 2 ^ k = 0 ∨ x.toNat / 2 ^ k = 2 ^ (v - k) - 1 := by
  have hx := x.isLt
  have hP : 0 < 2 ^ k := Nat.two_pow_pos k
  have hQ : 2 ≤ 2 ^ (v - k) := Nat.le_self_pow (by omega) 2
  have hPQ : 2 ^ v = 2 ^ k * 2 ^ (v - k) := by rw [← Nat.pow_add, Nat.add_sub_cancel' hk.le]
  have hlow : x.toNat / 2 ^ k = 0 ↔ x.toNat < 2 ^ k := by
    rw [Nat.div_eq_zero_iff]
    omega
  have hhigh : x.toNat / 2 ^ k = 2 ^ (v - k) - 1 ↔ 2 ^ v ≤ x.toNat + 2 ^ k := by
    have hdiv : x.toNat / 2 ^ k < 2 ^ (v - k) := Nat.div_lt_of_lt_mul (hPQ ▸ hx)
    have hle : 2 ^ (v - k) - 1 ≤ x.toNat / 2 ^ k ↔ 2 ^ v ≤ x.toNat + 2 ^ k := by
      rw [Nat.le_div_iff_mul_le hP, Nat.sub_mul, Nat.one_mul, Nat.mul_comm, ← hPQ]
      omega
    omega
  have hdouble : 2 * 2 ^ k ≤ 2 ^ v := by
    rw [hPQ, Nat.mul_comm]
    exact Nat.mul_le_mul_left _ hQ
  have hcast : ((2 ^ k : Nat) : Int) = 2 ^ k := by push_cast; rfl
  have hcast' : ((2 ^ v : Nat) : Int) = 2 ^ v := by push_cast; rfl
  rw [hlow, hhigh, Fits, Nat.add_sub_cancel, BitVec.toInt_eq_toNat_cond]
  split <;> omega

/-- A word has the value of a shorter signed one where its bits from the sign on are its sign. -/
theorem fits_iff_bits (x : BitVec v) {k : Nat} (hk : k < v) :
    Fits (k + 1) x.toInt ↔ ∀ j, k ≤ j → j < v → x.getLsbD j = x.msb := by
  have hbit (j : Nat) (hj : k ≤ j) : x.getLsbD j = (x.toNat / 2 ^ k).testBit (j - k) := by
    rw [Nat.testBit_div_two_pow, Nat.sub_add_cancel hj, BitVec.getLsbD]
  have hmsb : x.msb = (x.toNat / 2 ^ k).testBit (v - 1 - k) := by
    rw [BitVec.msb_eq_getLsbD_last, hbit _ (by omega)]
  rw [fits_iff_high x hk]
  constructor
  · rintro (h | h) j hj hjv
    · rw [hmsb, hbit j hj, h, Nat.zero_testBit, Nat.zero_testBit]
    · rw [hmsb, hbit j hj, h, Nat.testBit_two_pow_sub_one, Nat.testBit_two_pow_sub_one,
        decide_eq_true (by omega), decide_eq_true (by omega)]
  · intro h
    have hhigh (i : Nat) : (x.toNat / 2 ^ k).testBit i = (decide (i < v - k) && x.msb) := by
      rw [Nat.testBit_div_two_pow]
      by_cases hi : i < v - k
      · rw [decide_eq_true hi, Bool.true_and]
        exact h (i + k) (by omega) (by omega)
      · rw [decide_eq_false hi, Bool.false_and]
        exact BitVec.getLsbD_of_ge x (i + k) (by omega)
    rcases hx : x.msb with _ | _
    · refine .inl (Nat.eq_of_testBit_eq fun i => ?_)
      rw [hhigh, hx, Bool.and_false, Nat.zero_testBit]
    · refine .inr (Nat.eq_of_testBit_eq fun i => ?_)
      rw [hhigh, hx, Bool.and_true, Nat.testBit_two_pow_sub_one]

section Signed

variable (x y : BitVec v) (c : Bool)

theorem toInt_bit (hv : 0 < v) : (bit v c).toInt = (c.toNat : Int).bmod (2 ^ v) := by
  rw [BitVec.toInt_eq_toNat_bmod, toNat_bit hv]

theorem toInt_add_bit (hv : 0 < v) :
    (x + y + bit v c).toInt = (x.toInt + y.toInt + c.toNat).bmod (2 ^ v) := by
  rw [BitVec.toInt_add, BitVec.toInt_add, toInt_bit c hv, Int.bmod_add_bmod, Int.add_bmod_bmod]

theorem toInt_sub_bit (hv : 0 < v) :
    (x - y - bit v c).toInt = (x.toInt - y.toInt - c.toNat).bmod (2 ^ v) := by
  rw [BitVec.toInt_sub, BitVec.toInt_sub, toInt_bit c hv, Int.bmod_sub_bmod, Int.sub_bmod_bmod]

/-- Both signs differ from that of the sum where it does not fit. -/
theorem add_overflow (hv : 0 < v) :
    ((x.msb ^^ (x + y + bit v c).msb) && (y.msb ^^ (x + y + bit v c).msb)) =
      !decide (Fits v (x.toInt + y.toInt + c.toNat)) := by
  have hp := two_pow_double hv
  have hc : c.toNat ≤ 1 := Bool.toNat_le c
  obtain ⟨hxlo, hxhi⟩ := fits_toInt x
  obtain ⟨hylo, hyhi⟩ := fits_toInt y
  have hr := bmod_cases hv (z := x.toInt + y.toInt + c.toNat) (by omega) (by omega)
  rw [Bool.eq_iff_iff]
  simp only [BitVec.msb_eq_toInt, toInt_add_bit x y c hv, Bool.and_eq_true, Bool.xor_iff_ne, ne_eq,
    decide_eq_decide, Bool.not_eq_true', decide_eq_false_iff_not]
  unfold Fits at *
  omega

/-- The operands' signs differ, and the difference has the other sign, where it does not fit. -/
theorem sub_overflow (hv : 0 < v) :
    ((y.msb ^^ x.msb) && ((x - y - bit v c).msb ^^ x.msb)) =
      !decide (Fits v (x.toInt - y.toInt - c.toNat)) := by
  have hp := two_pow_double hv
  have hc : c.toNat ≤ 1 := Bool.toNat_le c
  obtain ⟨hxlo, hxhi⟩ := fits_toInt x
  obtain ⟨hylo, hyhi⟩ := fits_toInt y
  have hr := bmod_cases hv (z := x.toInt - y.toInt - c.toNat) (by omega) (by omega)
  rw [Bool.eq_iff_iff]
  simp only [BitVec.msb_eq_toInt, toInt_sub_bit x y c hv, Bool.and_eq_true, Bool.xor_iff_ne, ne_eq,
    decide_eq_decide, Bool.not_eq_true', decide_eq_false_iff_not]
  unfold Fits at *
  omega

/-- The sign of a difference, corrected by its overflow, is the signed order. -/
theorem sub_sign_overflow (hv : 0 < v) :
    ((x - y).msb ^^ !decide (Fits v (x.toInt - y.toInt))) = decide (x.toInt < y.toInt) := by
  have hp := two_pow_double hv
  obtain ⟨hxlo, hxhi⟩ := fits_toInt x
  obtain ⟨hylo, hyhi⟩ := fits_toInt y
  have hr := bmod_cases hv (z := x.toInt - y.toInt) (by omega) (by omega)
  rw [Bool.eq_iff_iff]
  simp only [BitVec.msb_eq_toInt, BitVec.toInt_sub, Bool.xor_iff_ne, ne_eq, decide_eq_true_eq,
    ← decide_not, decide_eq_decide]
  unfold Fits at *
  omega

theorem sub_eq_zero_iff : x - y = 0#v ↔ x = y := by
  rw [BitVec.sub_eq_iff_eq_add, BitVec.zero_add]

end Signed

/-! Both operations at once. -/

section AddSub

/-- The sum or difference of two words and a carry. -/
def addSub (isSub : Bool) (x y : BitVec v) (c : Bool) : BitVec v :=
  if isSub then x - y - bit v c else x + y + bit v c

/-- The carry, or the borrow, out of the word. -/
def carryOut (isSub : Bool) (x y : BitVec v) (c : Bool) : Bool :=
  if isSub then x.toNat < y.toNat + c.toNat else 2 ^ v ≤ x.toNat + y.toNat + c.toNat

/-- The result as an integer. -/
def exactSum (isSub : Bool) (x y : BitVec v) (c : Bool) : Int :=
  if isSub then x.toInt - y.toInt - c.toNat else x.toInt + y.toInt + c.toNat

variable (isSub : Bool) (x y : BitVec v) (c : Bool)

theorem setWidth_addSub (hv : 0 < v) (h : v < w) :
    (addSub isSub (x.setWidth w) (y.setWidth w) c).setWidth v = addSub isSub x y c := by
  have hcut (z : BitVec v) : (z.setWidth w).setWidth v = z := by
    rw [BitVec.setWidth_setWidth_of_le _ h.le, BitVec.setWidth_eq]
  cases isSub with
  | false =>
    rw [addSub, if_neg Bool.false_ne_true, addSub, if_neg Bool.false_ne_true,
      BitVec.setWidth_add _ _ h.le, BitVec.setWidth_add _ _ h.le, hcut, hcut,
      setWidth_bit hv (by omega)]
  | true =>
    rw [addSub, if_pos rfl, addSub, if_pos rfl, setWidth_sub h.le, setWidth_sub h.le, hcut, hcut,
      setWidth_bit hv (by omega)]

theorem getLsbD_addSub (h : v < w) :
    (addSub isSub (x.setWidth w) (y.setWidth w) c).getLsbD v = carryOut isSub x y c := by
  cases isSub with
  | false => exact getLsbD_add_carry x y c h
  | true => exact getLsbD_sub_borrow x y c h

theorem addSub_overflow (hv : 0 < v) :
    (if isSub then (y.msb ^^ x.msb) && ((addSub isSub x y c).msb ^^ x.msb)
      else (y.msb ^^ (addSub isSub x y c).msb) && (x.msb ^^ (addSub isSub x y c).msb)) =
      !decide (Fits v (exactSum isSub x y c)) := by
  cases isSub with
  | false =>
    have hadd := add_overflow x y c hv
    rw [Bool.and_comm] at hadd
    exact hadd
  | true => exact sub_overflow x y c hv

end AddSub

end Lib.Words
