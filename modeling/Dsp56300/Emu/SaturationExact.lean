import Dsp56300.Emu.SaturatedOps

/-! Saturation mode clamps the exact result. -/

namespace Dsp56300

open Emitter AluState Lib.Bits Lib.Rounding Lib.Words SrUpdate

variable {σ : Type}

namespace SatOp

/-! Rounding. -/

theorem rounded_unscaled (s : DspState σ) (v : BitVec 56) :
    rounded s (2 ^ 23) (v.setWidth 64) =
      (BitVec.ofInt 56 (roundTo (convergent s) v.toInt)).toNat := by
  have hlt := v.isLt
  have hwide : (v.setWidth 64).toNat % 2 ^ 56 = v.toNat := by
    rw [BitVec.toNat_setWidth_of_le (by decide)]
    exact Nat.mod_eq_of_lt hlt
  have hconv : convergent s = true ↔ s.registers Reg.sr &&& (1#32 <<< Sr.rm) = 0 := by
    rw [convergent, Bool.not_eq_true', ← bit_test_iff _ (by decide)]
  rw [rounded, hwide, BitVec.toNat_ofInt, roundTo, BitVec.toInt_eq_toNat_cond]
  by_cases hc : s.registers Reg.sr &&& (1#32 <<< Sr.rm) = 0
  · rw [if_pos hc]
    simp only [halfEven, halfUp, hconv.mpr hc, true_and]
    split <;> split <;> split <;> omega
  · rw [if_neg hc]
    simp only [halfUp, hconv, hc, false_and, if_false]
    split <;> omega

theorem jitRnd56_value {s : DspState σ} (hs : flag (s.registers Reg.sr) Sr.s0 = false ∧
    flag (s.registers Reg.sr) Sr.s1 = false) (v : BitVec 56) :
    s.jitRnd56 (v.setWidth 64) =
      (BitVec.ofInt 56 (roundTo (convergent s) v.toInt)).setWidth 64 := by
  apply BitVec.eq_of_toNat_eq
  rw [jitRnd56_unscaled ((bit_test_iff _ (by decide)).mpr hs.1)
    ((bit_test_iff _ (by decide)).mpr hs.2), rounded_unscaled,
    BitVec.toNat_setWidth_of_le (by decide)]

theorem rndValue_value {s : DspState σ} (hs : flag (s.registers Reg.sr) Sr.s0 = false ∧
    flag (s.registers Reg.sr) Sr.s1 = false) (v : BitVec 56) :
    Alu.rndValue (s.registers Reg.sr) (v.setWidth 64) =
      (BitVec.ofInt 56 (roundTo (convergent s) v.toInt)).setWidth 64 := by
  rw [rndValue_of_unscaled hs.1, jitRnd56_value hs]

/-- The range of a sum before it is rounded. -/
def Summable (z : Int) : Prop := -2 ^ 49 + 2 ^ 25 ≤ z ∧ z ≤ 2 ^ 49 - 2 ^ 25

theorem toInt_rounded (conv : Bool) {z : Int} (hz : Summable z) :
    (BitVec.ofInt 56 (roundTo conv z)).toInt = roundTo conv z ∧ Fits 50 (roundTo conv z) ∧
      roundTo conv z % 2 ^ 24 = 0 := by
  obtain ⟨hlo, hhi⟩ := hz
  have hfits : Fits 50 (roundTo conv z) := by
    rw [roundTo]
    split <;> exact ⟨by omega, by omega⟩
  refine ⟨?_, hfits, ?_⟩
  · rw [BitVec.toInt_ofInt]
    exact bmod_eq_self (by decide) (fits_wide hfits)
  · rw [roundTo]
    split <;> omega

/-- A number rounds to one of its sign, or to zero. -/
theorem roundTo_nonneg_iff (conv : Bool) (z : Int) : 0 ≤ roundTo conv z ↔ -2 ^ 23 ≤ z := by
  rw [roundTo]
  split <;> omega

/-! Products. -/

theorem signed_bounds {x y : BitVec 24} : -2 ^ 46 ≤ x.toInt * y.toInt ∧ x.toInt * y.toInt ≤ 2 ^ 46 := by
  have habs (m : BitVec 24) : |m.toInt| ≤ 2 ^ 23 := by
    obtain ⟨hlo, hhi⟩ := fits_toInt m
    exact abs_le.mpr ⟨by omega, by omega⟩
  have hmul : |x.toInt * y.toInt| ≤ 2 ^ 23 * 2 ^ 23 := by
    rw [abs_mul]
    exact mul_le_mul (habs x) (habs y) (abs_nonneg _) (by decide)
  exact abs_le.mp hmul

/-- A signed product of two words. -/
theorem toInt_signed (negate : Bool) (x y : BitVec 24) :
    (product false false negate x y).toInt =
        (if negate then -(2 * (x.toInt * y.toInt)) else 2 * (x.toInt * y.toInt)) ∧
      Fits 49 (product false false negate x y).toInt := by
  have hvalue : (product false false negate x y).toInt =
      if negate then -(2 * (x.toInt * y.toInt)) else 2 * (x.toInt * y.toInt) :=
    toInt_product false false negate x y
  obtain ⟨hlo, hhi⟩ := signed_bounds (x := x) (y := y)
  refine ⟨hvalue, ?_⟩
  rw [hvalue]
  split <;> exact ⟨by omega, by omega⟩

/-- The product of a word and a power of two. -/
theorem power_product (negate : Bool) (m : BitVec 24) (shift : Byte) :
    ∃ p : BitVec 56,
      mask56 (if negate then 0 - (if shift.toNat = 0 ∨ shift.toNat ≥ 24 then 0
          else operand false m <<< (24 - shift.toNat))
        else if shift.toNat = 0 ∨ shift.toNat ≥ 24 then 0
          else operand false m <<< (24 - shift.toNat)) = p.setWidth 64 ∧
      p.toInt = (if negate then -(if shift.toNat = 0 ∨ shift.toNat ≥ 24 then 0
          else m.toInt * 2 ^ (24 - shift.toNat))
        else if shift.toNat = 0 ∨ shift.toNat ≥ 24 then 0
          else m.toInt * 2 ^ (24 - shift.toNat)) ∧ Fits 49 p.toInt := by
  by_cases hout : shift.toNat = 0 ∨ shift.toNat ≥ 24
  · refine ⟨0, ?_, ?_, by decide⟩
    · rw [if_pos hout]
      cases negate <;> rfl
    · rw [if_pos hout]
      cases negate <;> rfl
  · obtain ⟨n, hn⟩ : ∃ n, shift.toNat = 23 - n ∧ n ≤ 22 := ⟨23 - shift.toNat, by omega, by omega⟩
    have hlt : 2 ^ n ≤ 2 ^ 22 := Nat.pow_le_pow_right (by decide) hn.2
    have hsub : 23 - shift.toNat = n := by omega
    have hnat : (BitVec.ofNat 24 (2 ^ n)).toNat = 2 ^ n := by
      rw [BitVec.toNat_ofNat]
      exact Nat.mod_eq_of_lt (by omega)
    have hpInt : (BitVec.ofNat 24 (2 ^ n)).toInt = 2 ^ n := by
      rw [BitVec.toInt_eq_toNat_cond, hnat, if_pos (by omega)]
      push_cast
      rfl
    obtain ⟨hvalue, hfits⟩ := toInt_signed negate m (BitVec.ofNat 24 (2 ^ n))
    have hpow : 2 * (m.toInt * 2 ^ n) = m.toInt * 2 ^ (24 - shift.toNat) := by
      have hnext : 24 - shift.toNat = n + 1 := by omega
      rw [hnext, pow_succ, Int.mul_left_comm, Int.mul_comm 2]
    refine ⟨product false false negate m (BitVec.ofNat 24 (2 ^ n)), ?_, ?_, hfits⟩
    · rw [if_neg hout]
      exact product_power negate (by omega) (by omega) (hsub ▸ hnat) m
    · rw [hvalue, hpInt, hpow, if_neg hout]

section Multiply

variable {t : AluState σ}

/-- Whatever makes the product, it is added the same way. -/
theorem step_multiply (op : MulShiftOp) (negate : Bool) {factors : Factors} {d : Accumulator}
    (hop : (multiply op negate factors d).Valid) :
    ∃ p : BitVec 56, p.toInt = signedProduct t.finalize negate factors ∧ Fits 49 p.toInt ∧
      (multiply op negate factors d).step t = Alu.after (Alu.accumulate op d (p.setWidth 64)) t := by
  cases factors with
  | regs s1 s2 =>
    obtain ⟨hs1, hs1'⟩ := value_loadData_mid (t := t) hop.1
    obtain ⟨hs2, hs2'⟩ := value_loadData_mid (t := t) hop.2
    obtain ⟨hvalue, hfits⟩ := toInt_signed negate (t.finalize.dataWord s1) (t.finalize.dataWord s2)
    refine ⟨_, hvalue, hfits, ?_⟩
    cases op
    all_goals
      simp only [step, code, registerForm, Alu.emitParallelAlu, Alu.emitAluMpy, Alu.emitAluMpyr,
        Alu.emitAluMac, Alu.emitAluMacr, Alu.emitAluMpyCore, Alu.accumulate, Alu.value_bind,
        Alu.after_bind, Alu.value_pure, Alu.after_pure, hs1, hs1', hs2, hs2', sext24_eq,
        mask56_product, DspState.dataWord]
  | word src nextWord =>
    obtain ⟨hsrc, hsrc'⟩ := value_loadData_mid (t := t) hop
    obtain ⟨hvalue, hfits⟩ := toInt_signed negate (t.finalize.dataWord src) (nextWord.setWidth 24)
    have hstep (accumulate round : Bool) (h : emitInstructionBody (immediateForm op negate src d)
        t.dsp.pc nextWord = emitData 2 2 (.mpyiFamily negate d src nextWord accumulate round)) :
        (multiply op negate (.word src nextWord) d).step t =
          Alu.after (Alu.emitMpyiFamily negate d src nextWord accumulate round) t := by
      simp only [step, code]
      rw [h]
      rfl
    refine ⟨_, hvalue, hfits, ?_⟩
    rw [product_comm]
    cases op
    all_goals
      rw [hstep _ _ rfl]
      simp only [Alu.emitMpyiFamily, Alu.emitImmMultiply, Alu.accumulate, Alu.value_bind,
        Alu.after_bind, Alu.value_pure, Alu.after_pure, hsrc, hsrc', nextWord_eq, sext24_eq,
        mask56_product, if_true, Bool.false_eq_true, if_false, DspState.dataWord]
  | power src shift =>
    obtain ⟨hsrc, hsrc'⟩ := value_loadData_mid (t := t) hop
    obtain ⟨p, hmask, hvalue, hfits⟩ := power_product negate (t.finalize.dataWord src) shift
    have hstep : (multiply op negate (.power src shift) d).step t =
        Alu.after (Alu.emitMulShift op shift src d negate) t := rfl
    refine ⟨p, hvalue, hfits, ?_⟩
    rw [hstep]
    cases op
    all_goals
      simp only [Alu.emitMulShift, Alu.accumulate, Alu.after_bind, hsrc, hsrc', sext24_eq]
      rw [DspState.dataWord] at hmask
      simp only [hmask]

/-- The sign of a clamped value is that of the value. -/
theorem clamp_neg_iff (rounds : Bool) (z : Int) : clampTo (positiveRail rounds) z < 0 ↔ z < 0 := by
  rw [clampTo, positiveRail]
  split <;> omega

theorem fits_clamp (rounds : Bool) (z : Int) : Fits 48 (clampTo (positiveRail rounds) z) := by
  rw [clampTo, positiveRail]
  split <;> exact ⟨by omega, by omega⟩

theorem toInt_clamped (rounds : Bool) (z : Int) :
    (BitVec.ofInt 56 (clampTo (positiveRail rounds) z)).toInt =
      clampTo (positiveRail rounds) z := by
  obtain ⟨hlo, hhi⟩ := fits_clamp rounds z
  rw [BitVec.toInt_ofInt]
  exact bmod_eq_self (by decide) ⟨by omega, by omega⟩

/-- V of a sum by signs, the result clamped. -/
theorem overflows_clamped (p x : BitVec 56) (rounds : Bool) (z : Int) :
    overflows p x (BitVec.ofInt 56 (clampTo (positiveRail rounds) z)) false = true ↔
      (p.toInt < 0 ∧ x.toInt < 0 ∧ 0 ≤ z) ∨ (0 ≤ p.toInt ∧ 0 ≤ x.toInt ∧ z < 0) := by
  have hneg : decide (clampTo (positiveRail rounds) z < 0) = decide (z < 0) :=
    decide_eq_decide.mpr (clamp_neg_iff rounds z)
  rw [overflows, if_neg Bool.false_ne_true, BitVec.msb_eq_toInt, BitVec.msb_eq_toInt,
    BitVec.msb_eq_toInt, toInt_clamped, hneg]
  simp only [Bool.and_eq_true, Bool.xor_iff_ne, ne_eq, decide_eq_decide]
  omega

theorem value_emitRnd56 (v : BitVec 64) :
    Alu.value (Alu.emitRnd56 v) t = t.dsp.jitRnd56 v ∧ Alu.after (Alu.emitRnd56 v) t = t :=
  ⟨rfl, rfl⟩

theorem ending_multiply (ht : t.Settles) (hs : t.finalize.Saturating) (op : MulShiftOp)
    (negate : Bool) {factors : Factors} {d : Accumulator}
    (hop : (multiply op negate factors d).Valid)
    (hd : op.accumulates = true → Fits 48 (t.finalize.acc d).toInt) :
    (multiply op negate factors d).Ending t := by
  obtain ⟨p, hp, ⟨hplo, hphi⟩, hstep⟩ := step_multiply (t := t) op negate hop
  have hon := sm_on ht hs
  have hround (v : BitVec 56) : t.dsp.jitRnd56 (v.setWidth 64) =
      (BitVec.ofInt 56 (roundTo (convergent t.finalize) v.toInt)).setWidth 64 := by
    have h0 := ht.flag_control (k := Sr.s0) (by decide)
    have h1 := ht.flag_control (k := Sr.s1) (by decide)
    have hrm : convergent t.dsp = convergent t.finalize :=
      congrArg (!·) (ht.flag_control (k := Sr.rm) (by decide))
    rw [jitRnd56_value ⟨h0.trans hs.unscaled.1, h1.trans hs.unscaled.2⟩, hrm]
  have hsum (h : Fits 48 (t.finalize.acc d).toInt) :
      (t.finalize.acc d + p).toInt = (t.finalize.acc d).toInt + p.toInt := by
    obtain ⟨hlo, hhi⟩ := h
    rw [BitVec.toInt_add]
    exact bmod_eq_self (by decide) ⟨by omega, by omega⟩
  cases op with
  | mpy =>
    have hv : Fits 50 p.toInt := ⟨by omega, by omega⟩
    refine .plain ht (.inl rfl) (raises_nzClearVSm (Alu.clamped false p)) rfl id ?_ hp hv
    rw [hstep]
    simp only [Alu.accumulate, Alu.after_bind, Alu.value_saturate_on hon hv,
      Alu.after_saturate_on hon hv, Alu.after_storeAcc, Alu.after_setPending]
    rfl
  | mpyr =>
    obtain ⟨hv, hfits, hgrid⟩ := toInt_rounded (convergent t.finalize) (z := p.toInt)
      ⟨by omega, by omega⟩
    generalize hr : BitVec.ofInt 56 (roundTo (convergent t.finalize) p.toInt) = r at hv
    rw [← hv] at hfits hgrid
    refine ⟨t, r, _, false, none, .of_flush ht (.inl rfl)
      (raises_nzClearVSm (Alu.clamped true r)) ?_ ?_ hfits (fun _ => hgrid)
      (iff_of_false Bool.false_ne_true id)⟩
    · rw [hstep]
      simp only [Alu.accumulate, Alu.after_bind, value_emitRnd56, hround, hr,
        Alu.value_saturateRnd_on hon hfits hgrid, Alu.after_saturateRnd_on hon hfits hgrid,
        Alu.after_storeAcc, Alu.after_setPending]
      rfl
    · rw [hv, hp]
      rfl
  | mac =>
    obtain ⟨hlo, hhi⟩ := hd rfl
    have hx := hsum ⟨hlo, hhi⟩
    have hv : Fits 50 (t.finalize.acc d + p).toInt := by
      rw [hx]
      exact ⟨by omega, by omega⟩
    have hover : overflows p (t.finalize.acc d)
        (BitVec.ofInt 56 (clampTo (positiveRail false) (t.finalize.acc d + p).toInt)) false =
        false := by
      rw [Bool.eq_false_iff, ne_eq, overflows_clamped, hx]
      omega
    have hraises := hover ▸ @raises_macVlSm (t.flush false).sr
      (BitVec.ofInt 56 (clampTo (positiveRail false) (t.finalize.acc d + p).toInt)) p
      (t.finalize.acc d)
    refine .plain ht (.inl rfl) hraises rfl id ?_ ?_ hv
    · rw [hstep]
      simp only [Alu.accumulate, Alu.after_bind, Alu.value_loadAcc, Alu.after_loadAcc, ht.acc_eq d,
        mask56_add, Alu.value_saturate_on hon hv, Alu.after_saturate_on hon hv, Alu.after_storeAcc,
        Alu.after_setPending]
      rfl
    · rw [hx, hp]
      rfl
  | macr =>
    obtain ⟨hlo, hhi⟩ := hd rfl
    have hx := hsum ⟨hlo, hhi⟩
    obtain ⟨hv, hfits, hgrid⟩ := toInt_rounded (convergent t.finalize)
      (z := (t.finalize.acc d + p).toInt) (by rw [hx]; exact ⟨by omega, by omega⟩)
    have hzero := roundTo_nonneg_iff (convergent t.finalize) (t.finalize.acc d + p).toInt
    generalize hr : BitVec.ofInt 56 (roundTo (convergent t.finalize)
      (t.finalize.acc d + p).toInt) = r at hv
    rw [← hv] at hfits hgrid
    have hraises := @raises_macVlSm (t.flush false).sr
      (BitVec.ofInt 56 (clampTo (positiveRail true) r.toInt)) p (t.finalize.acc d)
    refine ⟨t, r, _, _, none, .of_flush ht (.inl rfl) hraises ?_ ?_ hfits (fun _ => hgrid) ?_⟩
    · rw [hstep]
      simp only [Alu.accumulate, Alu.after_bind, Alu.value_loadAcc, Alu.after_loadAcc, ht.acc_eq d,
        mask56_add, value_emitRnd56, hround, hr, Alu.value_saturateRnd_on hon hfits hgrid,
        Alu.after_saturateRnd_on hon hfits hgrid, Alu.after_storeAcc, Alu.after_setPending]
      rfl
    · rw [hv, hx, hp]
      rfl
    · rw [overflows_clamped, hv, RoundsToZero, ← hp, ← hx]
      omega

end Multiply

/-! RND. -/

theorem ending_rnd {t : AluState σ} (ht : t.Settles) (hs : t.finalize.Saturating) (d : Accumulator)
    (hd : Fits 48 (t.finalize.acc d).toInt) : (rnd d).Ending t := by
  obtain ⟨hlo, hhi⟩ := hd
  obtain ⟨hv, hfits, hgrid⟩ := toInt_rounded (convergent t.finalize) (z := (t.finalize.acc d).toInt)
    ⟨by omega, by omega⟩
  have hnonneg := roundTo_nonneg_iff (convergent t.finalize) (t.finalize.acc d).toInt
  have hround := rndValue_value hs.unscaled (t.finalize.acc d)
  rw [finalize_sr] at hround
  have hon : flag (t.flush false).sr Sr.sm = true := by
    rw [← finalize_sr]
    exact hs.on
  generalize hr : BitVec.ofInt 56 (roundTo (convergent t.finalize) (t.finalize.acc d).toInt) = r
    at hv hround
  rw [← hv] at hfits hgrid
  have hover : (extractBitI64 ((t.finalize.acc d).setWidth 64) 55 ^^^
      extractBitI64 (Alu.clamped true r) 55) &&& extractBitI64 (Alu.clamped true r) 55 =
      bit 32 false := by
    have h55 (w : BitVec 56) : extractBitI64 (w.setWidth 64) 55 = bit 32 w.msb := extract_55 w
    have hneg := clamp_neg_iff true r.toInt
    rw [Alu.clamped, h55, h55, bit_xor, bit_and, BitVec.msb_eq_toInt, BitVec.msb_eq_toInt,
      toInt_clamped]
    refine congrArg (bit 32) ?_
    rw [Bool.eq_false_iff]
    simp only [ne_eq, Bool.and_eq_true, Bool.xor_iff_ne, decide_eq_decide, decide_eq_true_eq]
    omega
  refine ⟨t.flush false, r, _, false, none, .of_flush ht (.inr rfl)
    (raises_nzVlSm (Alu.clamped true r) false) ?_ ?_ hfits (fun _ => hgrid)
    (iff_of_false Bool.false_ne_true id)⟩
  · simp only [step, code, Alu.emitParallelAlu, Alu.emitAluRnd, Alu.after_bind, Alu.value_loadAcc,
      Alu.after_loadAcc, ht.acc_eq d, Alu.value_loadSr, Alu.after_loadSr, hround,
      Alu.value_saturateRnd_on hon hfits hgrid, Alu.after_saturateRnd_on hon hfits hgrid,
      Alu.after_storeAcc, Alu.after_setPending, hover]
    rfl
  · exact hv

/-- The accumulators an operation reads have 48 bits. -/
def Operable (op : SatOp) (s : DspState σ) : Prop := ∀ d ∈ op.operands, Fits 48 (s.acc d).toInt

instance (op : SatOp) (s : DspState σ) : Decidable (op.Operable s) :=
  inferInstanceAs (Decidable (∀ d ∈ op.operands, _))

theorem ending {t : AluState σ} (ht : t.Settles) (hs : t.finalize.Saturating) {op : SatOp}
    (hop : op.Valid) (hfits : op.Operable t.finalize) : op.Ending t := by
  have hwide {d : Accumulator} (h : Fits 48 (t.finalize.acc d).toInt) :
      Fits 49 (t.finalize.acc d).toInt := by
    obtain ⟨hlo, hhi⟩ := h
    exact ⟨by omega, by omega⟩
  cases op with
  | sum isSub src d =>
    have hd : d ∈ (sum isSub src d).operands := by
      cases src <;> simp [operands]
    have hsrc (e : Accumulator) (h : src = .acc e) : Fits 48 (t.finalize.acc e).toInt :=
      hfits e (by subst h; simp [operands])
    exact ends_sum ht hs isSub hop d (fits_exactSum (hwide (hfits d hd)) (fits_source src hsrc))
  | adcSbc isSub hi lo d =>
    have hpair : Fits 48 ((Source.pair hi lo).value t.finalize).toInt :=
      fits_source (.pair hi lo) fun e h => by cases h
    exact ends_adcSbc ht hs isSub hop d rfl rfl
      (fits_exactSum (hwide (hfits d (by simp [operands]))) hpair)
  | addlSubl isSub src d =>
    exact ends_addlSubl ht hs isSub src d (hfits src (by simp [operands]))
      (hfits d (by simp [operands]))
  | addrSubr isSub src d =>
    exact ends_addrSubr ht hs isSub src d (hfits src (by simp [operands]))
      (hfits d (by simp [operands]))
  | incDec isSub d =>
    exact ends_incDec ht hs isSub d
      (fits_exactSum (hwide (hfits d (by simp [operands]))) (by decide))
  | neg d => exact ending_neg ht hs d (hfits d (by simp [operands]))
  | abs d => exact ending_abs ht hs d (hfits d (by simp [operands]))
  | asl d => exact ending_asl ht hs d (hfits d (by simp [operands]))
  | aslOne src d => exact ending_aslOne ht hs src d (hfits src (by simp [operands]))
  | rnd d => exact ending_rnd ht hs d (hfits d (by simp [operands]))
  | multiply op negate factors d =>
    exact ending_multiply ht hs op negate hop fun h => hfits d (by simp [operands, h])

/-! What an end says of the state. -/

theorem RoundsToZero.exact_eq {op : SatOp} {s : DspState σ} (h : op.RoundsToZero s) :
    op.exact s = 0 := by
  cases op with
  | multiply op negate factors d =>
    cases op with
    | macr =>
      obtain ⟨hx, hp, hsum⟩ := h
      change roundTo (convergent s) ((s.acc d).toInt + signedProduct s negate factors) = 0
      rw [roundTo]
      split <;> omega
    | mpy => cases h
    | mpyr => cases h
    | mac => cases h
  | _ => cases h

section Ended

variable {op : SatOp} {t u : AluState σ} {v : BitVec 56} {flags : PendingFlags} {ov : Bool}
  {carry : Option Bool}

theorem Ends.settled (h : op.Ends t u v flags ov carry) : (op.step t).Settles := by
  rw [h.step]
  exact h.settles.finish h.raises _

/-- The bits of SR after the operation. -/
theorem Ends.srFlag (h : op.Ends t u v flags ov carry) {k : Nat} (hk : k ∉ lazyFlags) :
    flag ((op.step t).finalize.registers Reg.sr) k =
      if k = Sr.c then carry.getD (flag (u.flush false).sr Sr.c)
      else vlFlags (u.flush false).sr (ov || !decide (Fits 48 v.toInt)) k := by
  rw [finalize_sr, h.step]
  exact h.settles.flag_finish h.raises _ false hk

/-- Clamping changes what does not fit. -/
theorem Ends.changes (h : op.Ends t u v flags ov carry) :
    op.clamped t.finalize ≠ op.exact t.finalize ↔ ¬ Fits 48 v.toInt := by
  have hgrid := h.grid
  rw [clamped, ← h.value, not_iff_not, clampTo, positiveRail, Fits]
  cases hr : op.rounds with
  | false =>
    rw [if_neg Bool.false_ne_true]
    omega
  | true =>
    have hunit := hgrid hr
    rw [if_pos rfl]
    omega

theorem Ends.clamps_iff (h : op.Ends t u v flags ov carry) :
    op.Clamps t.finalize (op.step t).finalize ↔ ¬ op.RoundsToZero t.finalize := by
  have hv := h.srFlag (k := Sr.v) (by decide)
  have hl := h.srFlag (k := Sr.l) (by decide)
  rw [if_neg (by decide), vlFlags, if_pos rfl] at hv
  rw [if_neg (by decide), vlFlags, if_neg (by decide), if_pos rfl,
    h.kept Sr.l (List.mem_cons_self ..), ← finalize_sr, ← hv] at hl
  have hstored : ((op.step t).finalize.acc op.dest).toInt = op.clamped t.finalize := by
    rw [finalize_acc h.settled.coherent, h.step, finish_acc h.raises, Function.update_self,
      Alu.clamped, widen_narrow, toInt_clamped, h.value, clamped]
  have hchanges := h.changes
  rw [← h.overflow]
  constructor
  · intro hclamps hov
    have hfits : Fits 48 v.toInt := by
      rw [h.value, (h.overflow.mp hov).exact_eq]
      decide
    have hoverflow := hclamps.overflow
    rw [hv, hov, Bool.true_or, hchanges] at hoverflow
    exact hoverflow.mp rfl hfits
  · intro hov
    refine ⟨hstored, ?_, hl⟩
    rw [hv, hchanges, Bool.eq_false_iff.mpr hov, Bool.false_or, Bool.not_eq_true',
      decide_eq_false_iff_not]

theorem Ends.saturating (h : op.Ends t u v flags ov carry) (hs : t.finalize.Saturating) :
    (op.step t).finalize.Saturating := by
  have hcontrol {k : Nat} (hk : k ∈ controlBits) :
      flag ((op.step t).finalize.registers Reg.sr) k =
        flag (t.finalize.registers Reg.sr) k := by
    have hout : k ∉ lazyFlags ∧ k ≠ Sr.c ∧ k ≠ Sr.v ∧ k ≠ Sr.l ∧
        flag (regMasks Reg.sr) k = true := by
      revert k
      decide
    obtain ⟨hlazy, hc, hv, hl, hmask⟩ := hout
    rw [h.srFlag hlazy, if_neg hc, vlFlags, if_neg hv, if_neg hl, hmask, Bool.and_true,
      h.kept k (List.mem_cons_of_mem _ hk), finalize_sr]
  refine ⟨?_, ⟨?_, ?_⟩, fun r hr => ?_⟩
  · rw [hcontrol (by decide), hs.on]
  · rw [hcontrol (by decide), hs.unscaled.1]
  · rw [hcontrol (by decide), hs.unscaled.2]
  · have hsr := (data_outside hr).2
    rw [finalize_data hr, h.step, finish_registers h.raises hsr, h.registers r hsr,
      ← finalize_data hr]
    exact hs.words r hr

end Ended

/-- Compiled code: the operations one after the other, on operands that have 48 bits. -/
inductive Reaches (s : DspState σ) : AluState σ → Prop
  | enter : Reaches s (enter s)
  | step {t : AluState σ} {op : SatOp} (run : Reaches s t) (valid : op.Valid)
      (operable : op.Operable t.finalize) : Reaches s (op.step t)

theorem Reaches.settled {s : DspState σ} (hs : s.Saturating) {t : AluState σ} (h : Reaches s t) :
    t.Settles ∧ t.finalize.Saturating := by
  induction h with
  | enter => exact ⟨.enter s, hs⟩
  | step run valid operable ih =>
    obtain ⟨u, v, flags, ov, carry, hends⟩ := ending ih.1 ih.2 valid operable
    exact ⟨hends.settled, hends.saturating ih.2⟩

theorem clamps_iff {t : AluState σ} (ht : t.Settles) (hs : t.finalize.Saturating) {op : SatOp}
    (hop : op.Valid) (hfits : op.Operable t.finalize) :
    op.Clamps t.finalize (op.step t).finalize ↔ ¬ op.RoundsToZero t.finalize := by
  obtain ⟨u, v, flags, ov, carry, hends⟩ := ending ht hs hop hfits
  exact hends.clamps_iff

end SatOp

/-- Anywhere in compiled code, an operation stores the clamped exact result with V and L to match,
except where a rounded multiplication takes a negative sum to zero. -/
theorem saturation_exact {s : DspState σ} (hs : s.Saturating) {t : AluState σ}
    (ht : SatOp.Reaches s t) {op : SatOp} (hop : op.Valid) (hfits : op.Operable t.finalize) :
    op.Clamps t.finalize (op.step t).finalize ↔ ¬ op.RoundsToZero t.finalize := by
  obtain ⟨hsettles, hsaturating⟩ := ht.settled hs
  exact SatOp.clamps_iff hsettles hsaturating hop hfits

/-- The largest value of 48 bits and one more. -/
theorem saturation_exact_inc :
    let s := DspState.ofRegs [(Reg.a1, 0x7FFFFF), (Reg.a0, 0xFFFFFF), (Reg.sr, 0x100000)]
    (SatOp.incDec false .a).Clamps s (SatOp.step (enter s) (.incDec false .a)).finalize := by
  intro s
  have hs : s.Saturating := ⟨by decide, by decide, by decide⟩
  have hop : (SatOp.incDec false .a).Valid := trivial
  exact (saturation_exact hs .enter hop (by decide)).mpr id

/-- Small negative numbers, rounded to zero: nothing is clamped, but V is set. -/
theorem macr_overflows :
    let s := DspState.ofRegs [(Reg.a2, 0xFF), (Reg.a1, 0xFFFFFF), (Reg.a0, 0xFFFFFF), (Reg.x0, 1),
      (Reg.y0, 0xFFFFFF), (Reg.sr, 0x100000)]
    let op : SatOp := .multiply .macr false (.regs Reg.x0 Reg.y0) .a
    ¬ op.Clamps s (op.step (enter s)).finalize := by
  intro s op hclamps
  have hs : s.Saturating := ⟨by decide, by decide, by decide⟩
  have hzero : op.RoundsToZero s := ⟨by decide, by decide, by decide⟩
  have hop : op.Valid := ⟨by decide, by decide⟩
  exact (SatOp.clamps_iff (.enter s) hs hop (by decide)).mp hclamps hzero

end Dsp56300
