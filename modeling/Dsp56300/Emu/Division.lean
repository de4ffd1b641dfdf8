import Dsp56300.Emu.AluEffects
import Dsp56300.Lib.Division

/-! Division by iterated DIV. -/

namespace Dsp56300

open Emitter AluState Lib.Bits Lib.Words SrUpdate

variable {σ : Type}

/-! One DIV. -/

section Step

variable (m : BitVec 24) (v : BitVec 56) (c : Bool)

/-- The new accumulator: doubled, moved towards zero by the divisor, with the old C below. -/
def divResult : BitVec 56 :=
  (if v.msb ^^ m.msb then (v <<< 1) + wordAcc m else (v <<< 1) - wordAcc m) ||| bit 56 c

/-- The registers DIV divides by. -/
def divisors : List RegIdx := [Reg.x0, Reg.y0, Reg.x1, Reg.y1]

theorem divisors_outside {r : RegIdx} (h : r ∈ divisors) : DspState.Outside r ∧ r ≠ Reg.sr := by
  revert r
  decide

/-- SR after a DIV. -/
def divSr (sr : Word) : Word :=
  store (orVl (clear ((1#32 <<< Sr.c) ||| (1#32 <<< Sr.v)) sr ||| bit 32 (!(divResult m v c).msb))
    (bit 32 (v.msb ^^ (v <<< 1).msb)))

theorem flag_divSr_c (sr : Word) : flag (divSr m v c sr) Sr.c = !(divResult m v c).msb := by
  simp +decide [divSr]

theorem flag_divSr_v (sr : Word) : flag (divSr m v c sr) Sr.v = (v.msb ^^ (v <<< 1).msb) := by
  simp +decide [divSr]

end Step

theorem execute_div (s : DspState σ) {r : RegIdx} (hr : r ∈ divisors) (d : Accumulator) :
    s.execute (.div r d) = (((enter s).setAcc d ((divResult ((s.registers r).setWidth 24) (s.acc d)
      (flag (s.registers Reg.sr) Sr.c)).setWidth 64)).setSr (divSr ((s.registers r).setWidth 24)
        (s.acc d) (flag (s.registers Reg.sr) Sr.c) (s.registers Reg.sr))).finalize := by
  obtain ⟨hout, hsr⟩ := divisors_outside hr
  have h55 (w : BitVec 56) : extractBitI64 (w.setWidth 64) 55 = bit 32 w.msb := extract_55 w
  have hshift : mask56 ((s.acc d).setWidth 64 <<< 1) = (s.acc d <<< 1).setWidth 64 :=
    asl_value (s.acc d) (n := 1) (by decide)
  have hsign : ((s.registers r) >>> 23) &&& 1 = bit 32 ((s.registers r).setWidth 24).msb := by
    rw [show (1 : Word) = 1#32 from rfl, and_one]
    simp [BitVec.msb_eq_getLsbD_last]
  have hwide : ((bit 32 (flag (s.registers Reg.sr) Sr.c)).setWidth 64 : BitVec 64) =
      (bit 56 (flag (s.registers Reg.sr) Sr.c)).setWidth 64 := by
    rw [setWidth_bit (by decide) (by decide), setWidth_bit (by decide) (by decide)]
  have hres : mask56 (if bit 32 ((s.acc d).msb ^^ ((s.registers r).setWidth 24).msb) ≠ 0 then
      (s.acc d <<< 1).setWidth 64 + (wordAcc ((s.registers r).setWidth 24)).setWidth 64
      else (s.acc d <<< 1).setWidth 64 - (wordAcc ((s.registers r).setWidth 24)).setWidth 64) |||
      (bit 32 (flag (s.registers Reg.sr) Sr.c)).setWidth 64 =
      (divResult ((s.registers r).setWidth 24) (s.acc d)
        (flag (s.registers Reg.sr) Sr.c)).setWidth 64 := by
    rw [divResult, hwide, BitVec.setWidth_or]
    rcases (s.acc d).msb ^^ ((s.registers r).setWidth 24).msb with _ | _
    · rw [if_neg (by decide), if_neg (by decide), mask56_sub]
    · rw [if_pos (by decide), if_pos rfl, mask56_add]
  have hcarry (b : Bool) : (1 : Word) - bit 32 b = bit 32 (!b) := one_sub_bit b
  rw [DspState.execute_eq, DataPath.emit]
  simp only [Alu.emitDiv, Alu.after_bind, Alu.value_loadOuter _ hout hsr,
    Alu.after_loadOuter _ hsr, enter_dsp, Alu.value_loadAcc, Alu.after_loadAcc, enter_acc,
    DspState.reloadAcc_eq, hsign, h55, bit_xor, hshift, val24ToAcc56_eq, Alu.value_loadSr,
    Alu.after_loadSr, flush_settled (enter_pendingFlags s), enter_sr, extractBit_eq, hres, hcarry,
    Alu.after_storeAcc, Alu.value_clearSrFlags, Alu.after_clearSrFlags, Alu.after_storeSr]
  rw [flush_settled rfl, storeSr_settled _ rfl, setAcc_sr, enter_sr, divSr]

/-! The run of DIV as a division of numbers. -/

section Numbers

variable {m : BitVec 24} {v : BitVec 56} {c : Bool}

/-- Nothing is below the shifted value for the carry to meet. -/
theorem or_bit_eq_add {x : BitVec 56} (h : x.getLsbD 0 = false) :
    x ||| bit 56 c = x + bit 56 c := by
  rw [BitVec.add_eq_or_of_and_eq_zero]
  apply BitVec.eq_of_getLsbD_eq
  intro i hi
  rw [BitVec.getLsbD_and, Lib.Words.getLsbD_bit]
  rcases i with _ | i
  · rw [h, Bool.false_and, BitVec.getLsbD_zero]
  · simp

theorem low_bit_add (x y : BitVec 56) (hx : x.getLsbD 0 = false) (hy : y.getLsbD 0 = false) :
    (x + y).getLsbD 0 = false ∧ (x - y).getLsbD 0 = false := by
  rw [BitVec.getLsbD, Nat.testBit_zero] at *
  simp only [decide_eq_false_iff_not] at *
  rw [BitVec.getLsbD, Nat.testBit_zero, BitVec.toNat_add, BitVec.toNat_sub]
  simp only [decide_eq_false_iff_not]
  omega

/-- DIV by a positive divisor is a step of non-restoring division. -/
theorem toInt_divResult (hm : 0 ≤ m.toInt) (hlo : -(2 ^ 24 * m.toInt) ≤ v.toInt)
    (hhi : v.toInt < 2 ^ 24 * m.toInt + 2 ^ 24) :
    (divResult m v c).toInt = Lib.Division.step 24 m.toInt v.toInt c := by
  obtain ⟨_, hmhi⟩ := fits_toInt m
  have hc : c.toNat ≤ 1 := Bool.toNat_le c
  have hdouble : (v <<< 1).toInt = v.toInt * 2 ^ 1 :=
    toInt_shiftLeft_of_fits (by decide) ⟨by omega, by omega⟩
  have hword := toInt_wordAcc m
  have hsign : (v.msb ^^ m.msb) = decide (v.toInt < 0) := by
    rw [BitVec.msb_eq_toInt, BitVec.msb_eq_toInt, decide_eq_false (Int.not_lt.mpr hm),
      Bool.xor_false]
  have hlow : (v <<< 1).getLsbD 0 = false := by simp
  have hlow' : (wordAcc m).getLsbD 0 = false := getLsbD_wordAcc m (by decide)
  have hbit : (bit 56 c).toInt = c.toNat := by
    rw [toInt_bit c (by decide), bmod_eq_self (by decide) ⟨by omega, by omega⟩]
  obtain ⟨hadd, hsub⟩ := low_bit_add (v <<< 1) (wordAcc m) hlow hlow'
  rw [divResult, hsign, Lib.Division.step]
  by_cases hn : v.toInt < 0
  · have hsum : (v <<< 1 + wordAcc m).toInt = 2 * v.toInt + 2 ^ 24 * m.toInt := by
      rw [BitVec.toInt_add, hdouble, hword, bmod_eq_self (by decide) ⟨by omega, by omega⟩]
      omega
    rw [if_pos (decide_eq_true hn), if_pos hn, or_bit_eq_add hadd, BitVec.toInt_add, hsum, hbit,
      bmod_eq_self (by decide) ⟨by omega, by omega⟩]
  · have hdiff : (v <<< 1 - wordAcc m).toInt = 2 * v.toInt - 2 ^ 24 * m.toInt := by
      rw [BitVec.toInt_sub, hdouble, hword, bmod_eq_self (by decide) ⟨by omega, by omega⟩]
      omega
    rw [if_neg (by rw [decide_eq_false hn]; decide), if_neg hn, or_bit_eq_add hsub,
      BitVec.toInt_add, hdiff, hbit, bmod_eq_self (by decide) ⟨by omega, by omega⟩]
    omega

/-- The doubled register does not overflow. -/
theorem divOverflow_none (hlo : -2 ^ 54 ≤ v.toInt) (hhi : v.toInt < 2 ^ 54) :
    (v.msb ^^ (v <<< 1).msb) = false := by
  have hdouble : (v <<< 1).toInt = v.toInt * 2 ^ 1 :=
    toInt_shiftLeft_of_fits (by decide) ⟨by omega, by omega⟩
  have hsame : v.msb = (v <<< 1).msb := by
    rw [BitVec.msb_eq_toInt, BitVec.msb_eq_toInt, hdouble, decide_eq_decide]
    omega
  rw [hsame, Bool.xor_self]

end Numbers

section Run

variable {s : DspState σ} {r : RegIdx} (hr : r ∈ divisors) {d : Accumulator}

include hr

/-- One DIV on the registers. -/
theorem execute_div_effects (t : DspState σ) (d : Accumulator) :
    (t.execute (.div r d)).acc d = divResult ((t.registers r).setWidth 24) (t.acc d)
        (flag (t.registers Reg.sr) Sr.c) ∧
      flag ((t.execute (.div r d)).registers Reg.sr) Sr.c =
        !((t.execute (.div r d)).acc d).msb ∧
      flag ((t.execute (.div r d)).registers Reg.sr) Sr.v =
        ((t.acc d).msb ^^ (t.acc d <<< 1).msb) ∧
      (t.execute (.div r d)).registers r = t.registers r := by
  obtain ⟨hout, hsr⟩ := divisors_outside hr
  have hacc : (t.execute (.div r d)).acc d = divResult ((t.registers r).setWidth 24) (t.acc d)
      (flag (t.registers Reg.sr) Sr.c) := by
    rw [execute_div t hr, finalize_acc (((Coherent.enter t).setAcc _ _).setSr _), setSr_acc,
      setAcc_acc, widen_narrow]
  refine ⟨hacc, ?_, ?_, ?_⟩
  · rw [hacc, execute_div t hr, finalize_sr, flush_settled rfl, setSr_sr, flag_divSr_c]
  · rw [execute_div t hr, finalize_sr, flush_settled rfl, setSr_sr, flag_divSr_v]
  · rw [execute_div t hr, finalize_registers hout, flush_settled rfl]
    exact DspState.setReg_other _ _ hsr

variable (hs : (s.registers r).toNat < 2 ^ 23)
  (hd : (s.acc d).toNat < (s.registers r).toNat * 2 ^ 24)

include hs hd

omit hr hd in
theorem divisor_toInt : ((s.registers r).setWidth 24).toInt = (s.registers r).toNat := by
  rw [BitVec.toInt_eq_toNat_cond, BitVec.toNat_setWidth]
  split <;> omega

omit hd in
/-- One DIV by a divisor in range is a step of the division. -/
theorem div_step {t : DspState σ} (ht : t.registers r = s.registers r)
    (hlo : -(2 ^ 24 * ((s.registers r).toNat : Int)) ≤ (t.acc d).toInt)
    (hhi : (t.acc d).toInt < 2 ^ 24 * ((s.registers r).toNat : Int) + 2 ^ 24) :
    ((t.execute (.div r d)).acc d).toInt = Lib.Division.step 24 (s.registers r).toNat
        (t.acc d).toInt (flag (t.registers Reg.sr) Sr.c) ∧
      flag ((t.execute (.div r d)).registers Reg.sr) Sr.c =
        decide (0 ≤ ((t.execute (.div r d)).acc d).toInt) ∧
      flag ((t.execute (.div r d)).registers Reg.sr) Sr.v = false ∧
      (t.execute (.div r d)).registers r = s.registers r := by
  obtain ⟨hacc, hcarry, hover, hreg⟩ := execute_div_effects hr t d
  have hword := divisor_toInt hs
  refine ⟨?_, ?_, ?_, hreg.trans ht⟩
  · rw [hacc, ht, toInt_divResult (by omega) (by rwa [hword]) (by rwa [hword]), hword]
  · rw [hcarry, BitVec.msb_eq_toInt, ← decide_not, decide_eq_decide, Int.not_lt]
  · rw [hover, divOverflow_none (by omega) (by omega)]

/-- The register after some of the 24 steps. -/
theorem div_run (hc : flag (s.registers Reg.sr) Sr.c = false) {i : Nat} (hi : i < 24) :
    ∃ m q, Lib.Division.Divided 24 (s.acc d).toNat (s.registers r).toNat (i + 1)
        ((s.repeated (.div r d) (i + 1)).acc d).toInt
        (flag ((s.repeated (.div r d) (i + 1)).registers Reg.sr) Sr.c) m q ∧
      (s.repeated (.div r d) (i + 1)).registers r = s.registers r ∧
      flag ((s.repeated (.div r d) (i + 1)).registers Reg.sr) Sr.v = false := by
  have hpos : (s.acc d).toInt = (s.acc d).toNat := by
    rw [BitVec.toInt_eq_toNat_cond]
    split <;> omega
  induction i with
  | zero =>
    obtain ⟨hacc, hcarry, hover, hreg⟩ := div_step hr hs (t := s) (d := d) rfl (by omega) (by omega)
    rw [hpos, hc] at hacc
    have hfirst := Lib.Division.divided_one (n := 24) (d := (s.acc d).toNat)
      (s := (s.registers r).toNat) (by decide) (by omega) (by omega)
    rw [← hacc, ← hcarry] at hfirst
    exact ⟨_, _, hfirst, hreg, hover⟩
  | succ i ih =>
    obtain ⟨m, q, hdiv, hreg, _⟩ := ih (by omega)
    have hq := hdiv.digits
    have hx := hdiv.register
    have hlow := hdiv.low
    have hhigh := hdiv.high
    have hpow : (2 : Int) ^ (i + 1) ≤ 2 ^ 24 := pow_le_pow_right₀ (by decide) (by omega)
    obtain ⟨hacc, hcarry, hover, hreg'⟩ := div_step hr hs hreg (d := d) (by omega) (by omega)
    have hnext := Lib.Division.divided_succ (by omega) hi hdiv
    rw [← hacc, ← hcarry] at hnext
    rw [DspState.repeated_succ]
    exact ⟨_, _, hnext, hreg', hover⟩

end Run

/-- 24 steps of DIV divide: A0 holds the quotient by the doubled divisor, A2 and A1 the remainder
less the divisor, and no step overflows. -/
structure Divides (s : DspState σ) (r : RegIdx) (d : Accumulator) : Prop where
  quotient : (((s.repeated (.div r d) 24).acc d).extractLsb' 0 24).toNat =
    (s.acc d).toNat / (2 * (s.registers r).toNat)
  balance : ((s.acc d).toNat : Int) = 2 * (s.registers r).toNat *
      (((s.repeated (.div r d) 24).acc d).extractLsb' 0 24).toNat + (s.registers r).toNat +
      (((s.repeated (.div r d) 24).acc d).extractLsb' 24 32).toInt
  low : -((s.registers r).toNat : Int) ≤
    (((s.repeated (.div r d) 24).acc d).extractLsb' 24 32).toInt
  high : (((s.repeated (.div r d) 24).acc d).extractLsb' 24 32).toInt < (s.registers r).toNat
  noOverflow : ∀ i, 1 ≤ i → i ≤ 24 →
    flag ((s.repeated (.div r d) i).registers Reg.sr) Sr.v = false

theorem div_divides {s : DspState σ} {r : RegIdx} (hr : r ∈ divisors) {d : Accumulator}
    (hs : (s.registers r).toNat < 2 ^ 23)
    (hd : (s.acc d).toNat < (s.registers r).toNat * 2 ^ 24)
    (hc : flag (s.registers Reg.sr) Sr.c = false) : Divides s r d := by
  obtain ⟨m, q, hdiv, _, _⟩ := div_run hr hs hd hc (i := 23) (by decide)
  obtain ⟨hq, hm, hbalance, hlow, hhigh, hquot⟩ := hdiv.quotient
  have hq' := low_toNat ((s.repeated (.div r d) 24).acc d)
  have hm' := high_toInt ((s.repeated (.div r d) 24).acc d)
  rw [hq] at hq'
  rw [hm] at hm'
  refine ⟨?_, ?_, ?_, ?_, fun i h1 hi => ?_⟩
  · apply Int.ofNat_inj.mp
    rw [hq', ← hquot]
    push_cast
    rfl
  · rw [hq', hm', ← hbalance]
  · rw [hm']
    exact hlow
  · rw [hm']
    exact hhigh
  · obtain ⟨j, rfl⟩ : ∃ j, i = j + 1 := ⟨i - 1, by omega⟩
    obtain ⟨_, _, _, _, hover⟩ := div_run hr hs hd hc (i := j) (by omega)
    exact hover

/-- 7 divided by 3. -/
theorem div_divides_seven :
    Divides (DspState.ofRegs [(Reg.a0, 7), (Reg.x0, 3)]) Reg.x0 .a :=
  div_divides (by decide) (by decide) (by decide) (by decide)

end Dsp56300
