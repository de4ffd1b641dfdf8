import Dsp56300.Asm.Operand

/-! The two evaluators of expressions: at 64 bits, and with every result cut to 32. -/

namespace Dsp56300.Asm

set_option linter.constructorNameAsVariable false

variable {l r v : I64} {sym : SymbolTable} {pc : Word}

/-- Both operators of the low words give the low word of the 64-bit result. Only a division and a
right shift look at the bits above. -/
def BinOp.KeepsLow (op : BinOp) (l r : I64) : Prop :=
  match op with
  | .div => u32 r ≠ 0 ∧ u32 (l.sdiv r) = u32 l / u32 r
  | .shr => ∀ i < 32, 32 ≤ i + (r &&& 63).toNat → (l.sshiftRight' (r &&& 63)).getLsbD i = false
  | _ => True

/-- A value in [0, 2^32), which its low word is all of. -/
def FitsU32 (v : I64) : Prop := v.toNat < 2 ^ 32

instance : Decidable (FitsU32 v) := inferInstanceAs (Decidable (_ < _))

namespace Expr

/-- An expression and its parts. -/
def subexprs (e : Expr) : List Expr :=
  e :: match e with
    | .binOp _ lhs rhs => lhs.subexprs ++ rhs.subexprs
    | .unaryOp _ operand => operand.subexprs
    | .literal _ | .frac _ | .symbol _ | .currentPc => []

/-- Where `e` is constant, the encoder finds the low word of its value, whatever the symbols and
the address. -/
def Agrees (e : Expr) : Prop :=
  ∀ v, e.tryEvalConst = some v → ∀ sym pc, eval e sym pc = .ok (u32 v)

/-- The operator at the root of a constant expression keeps to the low words. -/
def KeepsLow (e : Expr) : Prop :=
  match e with
  | .binOp op lhs rhs => ∀ l r, lhs.tryEvalConst = some l → rhs.tryEvalConst = some r →
      e.isLiteral = true → op.KeepsLow l r
  | _ => True

/-- A division has both operands in [0, 2^32), a right shift the one it shifts. -/
def InRange (e : Expr) : Prop :=
  match e with
  | .binOp .div lhs rhs => ∀ l r, lhs.tryEvalConst = some l → rhs.tryEvalConst = some r →
      FitsU32 l ∧ FitsU32 r
  | .binOp .shr lhs _ => ∀ l, lhs.tryEvalConst = some l → FitsU32 l
  | _ => True

/-- An operator on two literals. -/
def ofLiterals (op : BinOp) (l r : I64) : Expr := .binOp op (.literal l) (.literal r)

end Expr

/-! One operator. -/

theorem u32_i64 (v : Word) : u32 (i64 v) = v := by
  unfold u32 i64
  rw [BitVec.setWidth_setWidth_of_le _ (by decide), BitVec.setWidth_eq]

theorem i64_eq_zero {v : Word} : i64 v = 0 ↔ v = 0 := by
  constructor
  · intro h
    rw [← u32_i64 v, h]
    rfl
  · intro h
    rw [h]
    rfl

/-- Shift counts are taken modulo 64, so the low word tells them. -/
theorem shiftCount (r : I64) : i64 (u32 r) &&& 63 = r &&& 63 := by
  apply BitVec.eq_of_toNat_eq
  have h (v : I64) : (v &&& 63).toNat = v.toNat % 2 ^ 6 :=
    Nat.and_two_pow_sub_one_eq_mod v.toNat 6
  rw [h, h, i64, u32, BitVec.toNat_setWidth, BitVec.toNat_setWidth]
  omega

/-- Low words divide as unsigned numbers. -/
theorem sdiv_low (a b : Word) : u32 ((i64 a).sdiv (i64 b)) = a / b := by
  have hm (v : Word) : (i64 v).msb = false := by
    rw [BitVec.msb_eq_false_iff_two_mul_lt, i64, BitVec.toNat_setWidth]
    omega
  have hn (v : Word) : (i64 v).toNat = v.toNat := by
    rw [i64, BitVec.toNat_setWidth]
    omega
  rw [BitVec.sdiv_eq, hm, hm]
  apply BitVec.eq_of_toNat_eq
  have hlt : a.toNat / b.toNat < 2 ^ 32 := Nat.lt_of_le_of_lt (Nat.div_le_self _ _) a.isLt
  rw [u32, BitVec.toNat_setWidth, BitVec.udiv_eq, BitVec.toNat_udiv, BitVec.toNat_udiv, hn, hn]
  exact Nat.mod_eq_of_lt hlt

theorem shl_low (l k : I64) : u32 (i64 (u32 l) <<< k) = u32 (l <<< k) := by
  apply BitVec.eq_of_getLsbD_eq
  intro i hi
  simp only [u32, i64, BitVec.shiftLeft_eq', BitVec.getLsbD_setWidth, BitVec.getLsbD_shiftLeft]
  have h1 : i - k.toNat < 32 := by omega
  have h2 : i - k.toNat < 64 := by omega
  simp only [h1, h2, decide_true, Bool.true_and]

theorem shr_low_iff (l k : I64) : u32 (i64 (u32 l) >>> k) = u32 (l.sshiftRight' k) ↔
    ∀ i < 32, 32 ≤ i + k.toNat → (l.sshiftRight' k).getLsbD i = false := by
  have hbit (i : Nat) (hi : i < 32) : (u32 (i64 (u32 l) >>> k)).getLsbD i =
      (decide (i + k.toNat < 32) && (u32 (l.sshiftRight' k)).getLsbD i) := by
    simp only [u32, i64, BitVec.ushiftRight_eq', BitVec.getLsbD_setWidth,
      BitVec.getLsbD_ushiftRight, BitVec.getLsbD_sshiftRight']
    by_cases h : i + k.toNat < 32
    · have h1 : k.toNat + i < 32 := by omega
      have h2 : k.toNat + i < 64 := by omega
      have h3 : ¬ 64 ≤ i := by omega
      simp [h, h1, h2, h3, hi]
    · have h1 : ¬ k.toNat + i < 32 := by omega
      simp [h, h1]
  constructor
  · intro h i hi hk
    have hb := hbit i hi
    rw [h, decide_eq_false (by omega), Bool.false_and, u32, BitVec.getLsbD_setWidth,
      decide_eq_true hi, Bool.true_and] at hb
    exact hb
  · intro h
    apply BitVec.eq_of_getLsbD_eq
    intro i hi
    rw [hbit i hi]
    by_cases hk : i + k.toNat < 32
    · rw [decide_eq_true hk, Bool.true_and]
    · have hz : (u32 (l.sshiftRight' k)).getLsbD i = false := by
        rw [u32, BitVec.getLsbD_setWidth, h i hi (by omega), Bool.and_false]
      rw [hz, Bool.and_false]

/-! The operators that keep to the low words. -/

theorem u32_add (l r : I64) : u32 (l + r) = u32 l + u32 r := BitVec.setWidth_add _ _ (by decide)

theorem u32_mul (l r : I64) : u32 (l * r) = u32 l * u32 r := BitVec.setWidth_mul _ _ (by decide)

theorem u32_neg (l : I64) : u32 (-l) = -u32 l := BitVec.setWidth_neg_of_le (by decide)

theorem u32_sub (l r : I64) : u32 (l - r) = u32 l - u32 r := by
  rw [BitVec.sub_eq_add_neg, u32_add, u32_neg, ← BitVec.sub_eq_add_neg]

theorem u32_and (l r : I64) : u32 (l &&& r) = u32 l &&& u32 r := BitVec.setWidth_and

theorem u32_or (l r : I64) : u32 (l ||| r) = u32 l ||| u32 r := BitVec.setWidth_or

theorem u32_not (l : I64) : u32 (~~~l) = ~~~(u32 l) := BitVec.setWidth_not (by decide)

/-! The operands on which the others do. -/

theorem toNat_u32 (v : I64) : (u32 v).toNat = v.toNat % 2 ^ 32 := BitVec.toNat_setWidth ..

theorem FitsU32.widen (h : FitsU32 v) : i64 (u32 v) = v := by
  apply BitVec.eq_of_toNat_eq
  unfold FitsU32 at h
  rw [i64, BitVec.toNat_setWidth, toNat_u32]
  omega

theorem fitsU32_iff : FitsU32 v ↔ 0 ≤ v.toInt ∧ v.toInt < 2 ^ 32 := by
  have hlt := v.isLt
  rw [FitsU32, BitVec.toInt_eq_toNat_cond]
  split <;> omega

/-- The low word, from the signed value. -/
theorem toInt_u32 (v : I64) : ((u32 v).toNat : Int) = v.toInt % 2 ^ 32 := by
  have hlt := v.isLt
  rw [toNat_u32, BitVec.toInt_eq_toNat_cond]
  split <;> omega

/-! The operands a division is right for. -/

theorem keepsLow_div_of_fits (hl : FitsU32 l) (hr : FitsU32 r) (h0 : r ≠ 0) :
    BinOp.div.KeepsLow l r := by
  have hlow : u32 r ≠ 0 := by
    intro hz
    apply h0
    rw [← hr.widen, hz]
    rfl
  refine ⟨hlow, ?_⟩
  rw [← sdiv_low, hl.widen, hr.widen]

/-- A quotient that keeps to the low words, in numbers. -/
theorem quotient_emod (hr : r.toInt ≠ -1) (h : BinOp.div.KeepsLow l r) :
    l.toInt.tdiv r.toInt % 2 ^ 32 = l.toInt % 2 ^ 32 / (r.toInt % 2 ^ 32) := by
  have hq : (l.sdiv r).toInt = l.toInt.tdiv r.toInt := by
    apply BitVec.toInt_sdiv_of_ne_or_ne
    right
    rintro rfl
    exact hr (by decide)
  rw [← hq, ← toInt_u32, ← toInt_u32, ← toInt_u32, h.2, BitVec.toNat_udiv, Int.natCast_ediv]

/-- A dividend above the range is wrong by a multiple of 2^32 for a divisor just above its upper
part. -/
theorem quotient_above {n a : Int} (hn : 1 ≤ n) (ha : 0 ≤ a) (hlt : a < 2 ^ 32) :
    (2 ^ 32 * n + a).tdiv (n + 1) % 2 ^ 32 ≠ a / (n + 1) := by
  have hpos : 0 < n + 1 := by omega
  have hlow : 2 ^ 31 ≤ (2 ^ 32 * n + a) / (n + 1) := by
    rw [Int.le_ediv_iff_mul_le hpos]
    omega
  have hhigh : (2 ^ 32 * n + a) / (n + 1) < 2 ^ 32 := by
    rw [Int.ediv_lt_iff_lt_mul hpos]
    omega
  have hsmall : a / (n + 1) < 2 ^ 31 := by
    rw [Int.ediv_lt_iff_lt_mul hpos]
    omega
  rw [Int.tdiv_eq_ediv_of_nonneg (by omega), Int.emod_eq_of_lt (by omega) hhigh]
  omega

/-- So is a negative one. -/
theorem quotient_below {n a : Int} (hn : 1 ≤ n) (ha : 0 ≤ a) (hlt : a < 2 ^ 32) :
    (-(2 ^ 32 * n) + a).tdiv (n + 1) % 2 ^ 32 ≠ a / (n + 1) := by
  have hpos : 0 < n + 1 := by omega
  have hneg : -(2 ^ 32 * n) + a = -(2 ^ 32 * n - a) := by omega
  rw [hneg, Int.neg_tdiv, Int.tdiv_eq_ediv_of_nonneg (by omega)]
  have hp := Int.ediv_mul_le (2 ^ 32 * n - a) (ne_of_gt hpos)
  have hs := Int.ediv_mul_le a (ne_of_gt hpos)
  have hp' := Int.lt_ediv_add_one_mul_self (2 ^ 32 * n - a) hpos
  have hs' := Int.lt_ediv_add_one_mul_self a hpos
  have hp0 : 0 ≤ (2 ^ 32 * n - a) / (n + 1) := Int.ediv_nonneg (by omega) (by omega)
  have hs0 : 0 ≤ a / (n + 1) := Int.ediv_nonneg ha (by omega)
  generalize (2 ^ 32 * n - a) / (n + 1) = p at *
  generalize a / (n + 1) = s at *
  -- the two quotients would add up to a multiple of 2^32, but they add up to less
  have hsum : 0 < p + s := by
    by_contra hle
    obtain rfl : p = 0 := by omega
    obtain rfl : s = 0 := by omega
    omega
  have hsum' : p + s < 2 ^ 32 := by
    by_contra hge
    have hmul := Int.mul_le_mul_of_nonneg_right (Int.not_lt.mp hge) hpos.le
    rw [Int.add_mul] at hmul
    omega
  omega

/-- A dividend out of range is wrong for some divisor in range. -/
theorem exists_divisor (h : ¬ FitsU32 l) : ∃ r, FitsU32 r ∧ r ≠ 0 ∧ ¬ BinOp.div.KeepsLow l r := by
  have hlo := l.le_toInt
  have hhi := l.toInt_lt
  have hl := Int.mul_ediv_add_emod l.toInt (2 ^ 32)
  have ha := Int.emod_nonneg l.toInt (by decide : (2 ^ 32 : Int) ≠ 0)
  have hlt := Int.emod_lt_of_pos l.toInt (by decide : (0 : Int) < 2 ^ 32)
  rw [fitsU32_iff] at h
  obtain ⟨n, hn1, hn2, hn⟩ : ∃ n : Nat, 1 ≤ n ∧ n ≤ 2 ^ 31 ∧
      (l.toInt / 2 ^ 32 = n ∨ l.toInt / 2 ^ 32 = -n) :=
    ⟨(l.toInt / 2 ^ 32).natAbs, by omega, by omega, by omega⟩
  have hr : (BitVec.ofNat 64 (n + 1)).toInt = n + 1 := by
    rw [BitVec.toInt_eq_toNat_cond, BitVec.toNat_ofNat]
    split <;> omega
  refine ⟨BitVec.ofNat 64 (n + 1), fitsU32_iff.mpr (by omega), ?_, fun hk => ?_⟩
  · intro h0
    rw [h0] at hr
    exact absurd hr (by simp; omega)
  · have heq := quotient_emod (by omega) hk
    rw [hr, Int.emod_eq_of_lt (a := n + 1) (by omega) (by omega)] at heq
    rcases hn with hn | hn
    · rw [hn] at hl
      refine quotient_above (n := n) (by omega) ha hlt ?_
      rw [hl]
      exact heq
    · rw [hn] at hl
      refine quotient_below (n := n) (by omega) ha hlt ?_
      rw [← Int.mul_neg, hl]
      exact heq

/-- A divisor out of range is wrong for some dividend in range. -/
theorem exists_dividend (h : ¬ FitsU32 r) : ∃ l, FitsU32 l ∧ ¬ BinOp.div.KeepsLow l r := by
  have hlo := r.le_toInt
  have hhi := r.toInt_lt
  have hlow := toInt_u32 r
  have hlt := (u32 r).isLt
  rw [fitsU32_iff] at h
  by_cases hone : r.toInt = -1
  · refine ⟨1, by decide, ?_⟩
    obtain rfl : r = -1 := BitVec.eq_of_toInt_eq (hone.trans (by decide))
    exact fun hk => absurd hk.2 (by decide)
  · refine ⟨i64 (u32 r), ?_, fun hk => ?_⟩
    · rw [FitsU32, i64, BitVec.toNat_setWidth]
      omega
    · have hl : (i64 (u32 r)).toInt = (u32 r).toNat := by
        rw [BitVec.toInt_eq_toNat_cond, i64, BitVec.toNat_setWidth]
        split <;> omega
      have hpos : 0 < (u32 r).toNat := by
        rw [Nat.pos_iff_ne_zero]
        exact fun hz => hk.1 (BitVec.eq_of_toNat_eq hz)
      have heq := quotient_emod hone hk
      have hself : ((u32 r).toNat : Int) % 2 ^ 32 / (u32 r).toNat = 1 := by
        rw [Int.emod_eq_of_lt (by omega) (by omega), Int.ediv_self (by omega)]
      rw [hl, ← hlow, hself] at heq
      rcases Int.lt_or_le r.toInt 0 with hneg | hge
      · have hq : ((u32 r).toNat : Int) / -r.toInt < 2 ^ 31 := by
          rw [Int.ediv_lt_iff_lt_mul (by omega)]
          omega
        have hq0 : 0 ≤ ((u32 r).toNat : Int) / -r.toInt := Int.ediv_nonneg (by omega) (by omega)
        rw [Int.tdiv_eq_ediv_of_nonneg (by omega), ← Int.neg_neg r.toInt, Int.ediv_neg] at heq
        omega
      · rw [Int.tdiv_eq_zero_of_lt (by omega) (by omega)] at heq
        exact absurd heq (by decide)

/-! The operands a right shift is right for. -/

theorem keepsLow_shr_of_fits (h : FitsU32 l) : BinOp.shr.KeepsLow l r := by
  intro i _ hk
  rw [← h.widen, BitVec.getLsbD_sshiftRight', i64]
  have hmsb : ((u32 l).setWidth 64).msb = false := by
    rw [BitVec.msb_eq_false_iff_two_mul_lt, BitVec.toNat_setWidth]
    omega
  rw [hmsb, BitVec.getLsbD_setWidth, BitVec.getLsbD_of_ge _ _ (by omega)]
  simp

/-- A bit above bit 31 can be shifted to bit 31. -/
theorem fits_of_keepsLow_shr (h : ∀ r, BinOp.shr.KeepsLow l r) : FitsU32 l := by
  have hbit (j : Nat) (hj : 32 ≤ j) : l.getLsbD j = false := by
    by_cases h64 : j < 64
    · have hcount : (BitVec.ofNat 64 (j - 31) &&& 63).toNat = j - 31 := by
        rw [BitVec.toNat_and, BitVec.toNat_ofNat]
        exact (Nat.and_two_pow_sub_one_eq_mod _ 6).trans (by omega)
      have hk := h (BitVec.ofNat 64 (j - 31)) 31 (by decide) (by omega)
      rw [BitVec.getLsbD_sshiftRight', hcount] at hk
      have hj : j - 31 + 31 = j := by omega
      simpa [hj, h64] using hk
    · exact BitVec.getLsbD_of_ge _ _ (by omega)
  have hwiden : i64 (u32 l) = l := by
    apply BitVec.eq_of_getLsbD_eq
    intro j hj
    rw [i64, u32, BitVec.getLsbD_setWidth, BitVec.getLsbD_setWidth]
    by_cases h32 : j < 32
    · simp [hj, h32]
    · rw [hbit j (by omega)]
      simp [h32]
  rw [FitsU32, ← hwiden, i64, BitVec.toNat_setWidth]
  omega

namespace Expr

variable {op : BinOp} {uop : UnaryOp} {lhs rhs operand e : Expr}

/-- An operator on two values. -/
theorem operator_iff (h : (ofLiterals op l r).tryEvalConst = some v) :
    eval (ofLiterals op l r) sym pc = .ok (u32 v) ↔ op.KeepsLow l r := by
  simp only [ofLiterals, tryEvalConst, Option.bind_eq_bind, Option.bind_some] at h
  simp only [ofLiterals, eval, bind, Except.bind]
  cases op with
  | div =>
    dsimp only at h ⊢
    by_cases hr : r = 0
    · rw [if_pos hr] at h
      cases h
    rw [if_neg hr] at h
    obtain rfl := Option.some.inj h
    by_cases hz : u32 r = 0
    · rw [if_pos (i64_eq_zero.mpr hz)]
      exact iff_of_false nofun fun hk => hk.1 hz
    · rw [if_neg fun h => hz (i64_eq_zero.mp h), sdiv_low, Except.ok.injEq, eq_comm]
      exact (and_iff_right hz).symm
  | shr =>
    obtain rfl := Option.some.inj h
    rw [shiftCount, Except.ok.injEq]
    exact shr_low_iff l (r &&& 63)
  | shl =>
    obtain rfl := Option.some.inj h
    exact iff_of_true (by rw [shiftCount, shl_low]) trivial
  | add | sub | mul | bitAnd | bitOr =>
    obtain rfl := Option.some.inj h
    refine iff_of_true (congrArg Except.ok ?_) trivial
    simp only [u32_add, u32_sub, u32_mul, u32_and, u32_or, u32_i64]

/-- An operator on operands that agree. -/
theorem binOp_agrees_iff (hl : lhs.Agrees) (hr : rhs.Agrees) :
    (binOp op lhs rhs).Agrees ↔ (binOp op lhs rhs).KeepsLow := by
  have hconst {l r : I64} (hl' : lhs.tryEvalConst = some l) (hr' : rhs.tryEvalConst = some r) :
      (binOp op lhs rhs).tryEvalConst = (ofLiterals op l r).tryEvalConst := by
    simp only [ofLiterals, tryEvalConst, hl', hr']
  have heval {l r : I64} (hl' : lhs.tryEvalConst = some l) (hr' : rhs.tryEvalConst = some r)
      (sym : SymbolTable) (pc : Word) :
      eval (binOp op lhs rhs) sym pc = eval (ofLiterals op l r) sym pc := by
    simp only [ofLiterals, eval, hl l hl' sym pc, hr r hr' sym pc]
  constructor
  · intro h l r hl' hr' hlit
    obtain ⟨v, hv⟩ := Option.isSome_iff_exists.mp hlit
    have he := h v hv ∅ 0
    rw [heval hl' hr'] at he
    rw [hconst hl' hr'] at hv
    exact (operator_iff hv).mp he
  · intro h v hv sym pc
    have hparts := hv
    rw [tryEvalConst] at hparts
    obtain ⟨l, hl', hparts⟩ := Option.bind_eq_some_iff.mp hparts
    obtain ⟨r, hr', -⟩ := Option.bind_eq_some_iff.mp hparts
    have hk := h l r hl' hr' (Option.isSome_iff_exists.mpr ⟨v, hv⟩)
    rw [hconst hl' hr'] at hv
    rw [heval hl' hr']
    exact (operator_iff hv).mpr hk

theorem unaryOp_agrees (h : operand.Agrees) : (unaryOp uop operand).Agrees := by
  intro v hv sym pc
  rw [tryEvalConst] at hv
  obtain ⟨w, hw, hv⟩ := Option.bind_eq_some_iff.mp hv
  simp only [eval, h w hw sym pc, bind, Except.bind]
  cases uop with
  | neg | bitNot =>
    obtain rfl := Option.some.inj hv
    refine congrArg Except.ok ?_
    simp only [u32_neg, u32_not, u32_i64]

theorem mem_subexprs_self (e : Expr) : e ∈ e.subexprs := by
  cases e <;> exact List.mem_cons_self

/-- On all the constant parts of an expression the two evaluators agree exactly if all its operators
keep to the low words. -/
theorem parts_agree_iff (e : Expr) :
    (∀ d ∈ e.subexprs, d.Agrees) ↔ ∀ d ∈ e.subexprs, d.KeepsLow := by
  induction e with
  | literal v | frac v =>
    rw [subexprs, List.forall_mem_singleton, List.forall_mem_singleton]
    refine iff_of_true (fun w hw sym pc => ?_) trivial
    obtain rfl := Option.some.inj hw
    rfl
  | symbol name | currentPc =>
    rw [subexprs, List.forall_mem_singleton, List.forall_mem_singleton]
    exact iff_of_true nofun trivial
  | unaryOp op operand ih =>
    rw [subexprs, List.forall_mem_cons, List.forall_mem_cons, ← ih]
    refine and_congr_left fun h => iff_of_true (unaryOp_agrees ?_) trivial
    exact h operand operand.mem_subexprs_self
  | binOp op lhs rhs ihl ihr =>
    rw [subexprs, List.forall_mem_cons, List.forall_mem_cons, List.forall_mem_append,
      List.forall_mem_append, ← ihl, ← ihr]
    exact and_congr_left fun h =>
      binOp_agrees_iff (h.1 lhs lhs.mem_subexprs_self) (h.2 rhs rhs.mem_subexprs_self)

theorem keepsLow_of_inRange (h : e.InRange) : e.KeepsLow := by
  cases e with
  | binOp op lhs rhs =>
    cases op with
    | div =>
      intro l r hl hr hlit
      obtain ⟨hfl, hfr⟩ := h l r hl hr
      refine keepsLow_div_of_fits hfl hfr ?_
      rintro rfl
      simp [isLiteral, tryEvalConst, hl, hr] at hlit
    | shr => exact fun l r hl _ _ => keepsLow_shr_of_fits (h l hl)
    | add | sub | mul | shl | bitAnd | bitOr => exact fun _ _ _ _ _ => trivial
  | literal _ | frac _ | symbol _ | currentPc | unaryOp _ _ => trivial

theorem ofLiterals_agrees_iff (h : (ofLiterals op l r).tryEvalConst = some v) :
    (ofLiterals op l r).Agrees ↔ op.KeepsLow l r := by
  constructor
  · intro ha
    exact (operator_iff h).mp (ha v h ∅ 0)
  · intro hk w hw sym pc
    exact (operator_iff hw).mpr hk

theorem quotient_agrees_of_fits (hl : FitsU32 l) (hr : FitsU32 r) : (ofLiterals .div l r).Agrees := by
  by_cases h0 : r = 0
  · intro v hv
    simp [ofLiterals, tryEvalConst, h0] at hv
  · have hv : (ofLiterals .div l r).tryEvalConst = some (l.sdiv r) := if_neg h0
    exact (ofLiterals_agrees_iff hv).mpr (keepsLow_div_of_fits hl hr h0)

/-- The two evaluators agree on every expression whose divisions and right shifts have their
operands in [0, 2^32). No larger range will do for a dividend, a divisor or a value shifted. -/
theorem evaluators_agree (e : Expr) :
    ((∀ d ∈ e.subexprs, d.InRange) → e.Agrees) ∧
      (∀ l, (∀ r, FitsU32 r → (ofLiterals .div l r).Agrees) ↔ FitsU32 l) ∧
      (∀ r, (∀ l, FitsU32 l → (ofLiterals .div l r).Agrees) ↔ FitsU32 r) ∧
      ∀ l, (∀ r, (ofLiterals .shr l r).Agrees) ↔ FitsU32 l := by
  refine ⟨fun h => ?_, fun l => ⟨fun h => ?_, fun hl r hr => quotient_agrees_of_fits hl hr⟩,
    fun r => ⟨fun h => ?_, fun hr l hl => quotient_agrees_of_fits hl hr⟩, fun l => ?_⟩
  · exact (parts_agree_iff e).mpr (fun d hd => keepsLow_of_inRange (h d hd)) e e.mem_subexprs_self
  · by_contra hl
    obtain ⟨r, hr, h0, hk⟩ := exists_divisor hl
    have hv : (ofLiterals .div l r).tryEvalConst = some (l.sdiv r) := if_neg h0
    exact hk ((ofLiterals_agrees_iff hv).mp (h r hr))
  · by_contra hr
    obtain ⟨l, hl, hk⟩ := exists_dividend hr
    have h0 : r ≠ 0 := by
      rintro rfl
      exact hr (by decide)
    have hv : (ofLiterals .div l r).tryEvalConst = some (l.sdiv r) := if_neg h0
    exact hk ((ofLiterals_agrees_iff hv).mp (h l hl))
  · have hiff (r : I64) : (ofLiterals .shr l r).Agrees ↔ BinOp.shr.KeepsLow l r :=
      ofLiterals_agrees_iff rfl
    exact ⟨fun h => fits_of_keepsLow_shr fun r => (hiff r).mp (h r),
      fun hl r => (hiff r).mpr (keepsLow_shr_of_fits hl)⟩

/-- 6/2>>1. -/
theorem evaluators_agree_quotient :
    (binOp .shr (ofLiterals .div 6 2) (.literal 1)).Agrees := by
  refine (evaluators_agree _).1 ?_
  intro d hd
  simp only [ofLiterals, subexprs, List.mem_cons, List.mem_append, List.not_mem_nil, or_false] at hd
  rcases hd with rfl | (rfl | rfl | rfl) | rfl
  · rintro l ⟨⟩
    decide
  · rintro l r ⟨⟩ ⟨⟩
    decide
  · trivial
  · trivial
  · trivial

/-- `-1>>1`: the layout takes $FFFFFFFF, the encoder $7FFFFFFF. -/
theorem negative_shift_differs :
    (binOp .shr (.literal (-1)) (.literal 1)).asU32 = some 0xFFFFFFFF ∧
      eval (binOp .shr (.literal (-1)) (.literal 1)) ∅ 0 = .ok 0x7FFFFFFF ∧
      ¬ (binOp .shr (.literal (-1)) (.literal 1)).Agrees := by
  refine ⟨rfl, rfl, fun h => ?_⟩
  have he := h _ rfl ∅ 0
  exact absurd (Except.ok.inj he) (by decide)

end Expr

end Dsp56300.Asm
