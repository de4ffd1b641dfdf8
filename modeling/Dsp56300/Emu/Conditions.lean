import Dsp56300.Emu.DataPath
import Dsp56300.Lib.Words

/-! The bits of SR after an update, one by one, and the conditions that read them. -/

namespace Dsp56300

open Emitter Lib.Bits Lib.Words SrUpdate

variable {σ : Type}

/-- A bit of SR. -/
def flag (sr : Word) (k : Nat) : Bool := sr.getLsbD k

/-! Words of one bit. -/

namespace Emitter

theorem ofBool_eq (b : Bool) : Emitter.ofBool b = bit 32 b := rfl

theorem extractBit_eq (w : Word) (k : Nat) : extractBit w k = bit 32 (flag w k) :=
  (and_one _).trans (by simp [flag])

theorem extractBitI64_eq (x : BitVec 64) {n : Word} {k : Nat} (hn : n.toNat = k) (hk : k < 64) :
    extractBitI64 x n = bit 32 (x.getLsbD k) := by
  subst hn
  rw [extractBitI64, ushr, Nat.mod_eq_of_lt hk]
  exact (and_one _).trans (by simp)

end Emitter

/-! An accumulator value is 56 bits of a wider word. -/

theorem mask56_eq (x : BitVec 64) : mask56 x = (x.setWidth 56).setWidth 64 :=
  and_lowMask rfl (by decide) x

@[simp] theorem mask56_narrow (x : BitVec 64) : (mask56 x).setWidth 56 = x.setWidth 56 := by
  rw [mask56_eq, BitVec.setWidth_setWidth_of_le _ (by decide), BitVec.setWidth_eq]

@[simp] theorem widen_narrow (v : BitVec 56) : (v.setWidth 64).setWidth 56 = v := by
  rw [BitVec.setWidth_setWidth_of_le _ (by decide), BitVec.setWidth_eq]

@[simp] theorem mask56_widen (v : BitVec 56) : mask56 (v.setWidth 64) = v.setWidth 64 := by
  rw [mask56_eq, widen_narrow]

theorem widen_eq_zero (v : BitVec 56) : v.setWidth 64 = 0 ↔ v = 0 :=
  setWidth_eq_zero_iff (by decide) v

/-! Each operation on SR, bit by bit. -/

@[simp] theorem flag_or (u v : Word) (k : Nat) : flag (u ||| v) k = (flag u k || flag v k) :=
  BitVec.getLsbD_or

@[simp] theorem flag_bit (b : Bool) (k : Nat) : flag (bit 32 b) k = (decide (k = 0) && b) := by
  rw [flag, Lib.Words.getLsbD_bit, Bool.and_comm (x := b)]
  simp

@[simp] theorem flag_one (k : Nat) : flag 1#32 k = decide (k = 0) := by
  simp [flag]

/-- The bits SR has. -/
@[simp] theorem flag_regMasks (k : Nat) :
    flag (regMasks Reg.sr) k = decide (k < 24 ∧ k ≠ 12 ∧ k ≠ 18) := by
  by_cases hk : k < 24
  · have hall : ∀ j : Fin 24,
        flag (regMasks Reg.sr) j = decide (j.val < 24 ∧ j.val ≠ 12 ∧ j.val ≠ 18) := by
      decide
    exact hall ⟨k, hk⟩
  · have hlt : (regMasks Reg.sr).toNat < 2 ^ k :=
      Nat.lt_of_lt_of_le (by decide : _ < 2 ^ 24) (Nat.pow_le_pow_right (by decide) (by omega))
    rw [flag, BitVec.getLsbD, Nat.testBit_lt_two_pow hlt]
    simp [hk]

@[simp] theorem flag_single {f : Nat} (hf : f < 32) (k : Nat) :
    flag (1#32 <<< f) k = decide (k = f) := by
  rw [flag, Lib.Bits.getLsbD_bit, decide_eq_true hf, Bool.true_and]
  simp [eq_comm]

theorem flag_shiftToBit (b : Bool) {f : Nat} (hf : f < 32) (k : Nat) :
    flag (shiftToBit (bit 32 b) f) k = (decide (k = f) && b) := by
  rw [shiftToBit, flag, BitVec.getLsbD_shiftLeft, Lib.Words.getLsbD_bit]
  grind

@[simp] theorem flag_store (w : Word) (k : Nat) :
    flag (store w) k = (flag w k && flag (regMasks Reg.sr) k) := BitVec.getLsbD_and

@[simp] theorem flag_clear (m w : Word) (k : Nat) :
    flag (clear m w) k = (flag w k && !flag m k) := by
  rw [flag, clear, BitVec.getLsbD_and, BitVec.getLsbD_not]
  rcases hw : w.getLsbD k with _ | _
  · simp [flag, hw]
  · rw [decide_eq_true (BitVec.lt_of_getLsbD hw), Bool.true_and]
    simp [flag, hw]

@[simp] theorem flag_orVl (sr : Word) (b : Bool) (k : Nat) :
    flag (orVl sr (bit 32 b)) k = (flag sr k || (decide (k = Sr.v) || decide (k = Sr.l)) && b) := by
  rw [orVl, flag_or, flag_or, flag_shiftToBit b (by decide), flag_shiftToBit b (by decide),
    Bool.or_assoc, Bool.and_or_distrib_right]

theorem bit_test_iff (sr : Word) {k : Nat} (hk : k < 32) :
    sr &&& (1#32 <<< k) = 0 ↔ flag sr k = false := by
  have h := and_bit_ne_zero_iff sr hk
  rw [flag]
  rcases hf : sr.getLsbD k with _ | _
  · simp [hf] at h
    simp [h]
  · simp [hf] at h
    simp [h]

/-! The extension bits of an accumulator. -/

/-- The lowest bit of the extension in a scaling mode: the bits from it on agree where the value
fits the scaled word. -/
def signBit (sr : Word) : Option Nat := (roundingBit sr).map (· + 23)

/-- E: the integer part is in use. -/
def extended (sr : Word) (v : BitVec 56) : Bool :=
  match signBit sr with
  | some k => !decide (Fits (k + 1) v.toInt)
  | none => false

/-- U: the two bits at the binary point agree. -/
def unnormalized (sr : Word) (v : BitVec 56) : Bool :=
  match signBit sr with
  | some k => v.getLsbD k == v.getLsbD (k - 1)
  | none => false

section Extension

variable (acc : BitVec 64)

/-- A2 and A1 as the flags read them. -/
def reg0 : Word := ((acc.sshiftRight 48) &&& 0xFF).setWidth 32

def reg1 : Word := ((acc.sshiftRight 24) &&& 0xFFFFFF).setWidth 32

theorem reg0_toNat : (reg0 acc).toNat = (acc.setWidth 56).toNat / 2 ^ 48 := by
  rw [reg0, field_toNat (k := 8) rfl (by decide), shifted_toNat (by decide), BitVec.toNat_setWidth]
  omega

theorem reg1_toNat : (reg1 acc).toNat = (acc.setWidth 56).toNat / 2 ^ 24 % 2 ^ 24 := by
  rw [reg1, field_toNat (k := 24) rfl (by decide), shifted_toNat (by decide),
    BitVec.toNat_setWidth]
  omega

/-- The bits from `48 - j` on, put together from both. -/
theorem high_toNat {j : Nat} (hj : j ≤ 24) :
    (((reg0 acc) <<< j) ||| ((reg1 acc) >>> (24 - j))).toNat =
      (acc.setWidth 56).toNat / 2 ^ (48 - j) := by
  have h0 := reg0_toNat acc
  have h1 := reg1_toNat acc
  have hv := (acc.setWidth 56).isLt
  have hpow : (2 : Nat) ^ 24 = 2 ^ (24 - j) * 2 ^ j := by rw [← Nat.pow_add, Nat.sub_add_cancel hj]
  have hpow' : (2 : Nat) ^ (48 - j) = 2 ^ 24 * 2 ^ (24 - j) := by rw [← Nat.pow_add]; congr 1; omega
  have hle : 2 ^ j ≤ 2 ^ 24 := Nat.pow_le_pow_right (by decide) hj
  have hb : ((reg1 acc) >>> (24 - j)).toNat = (reg1 acc).toNat / 2 ^ (24 - j) := by
    rw [BitVec.toNat_ushiftRight, Nat.shiftRight_eq_div_pow]
  have hblt : ((reg1 acc) >>> (24 - j)).toNat < 2 ^ j := by
    rw [hb, Nat.div_lt_iff_lt_mul (Nat.two_pow_pos _), Nat.mul_comm, ← hpow, h1]
    exact Nat.mod_lt _ (Nat.two_pow_pos 24)
  have halt : (reg0 acc).toNat * 2 ^ j < 2 ^ 32 := by
    have h8 : (reg0 acc).toNat < 2 ^ 8 := by omega
    calc (reg0 acc).toNat * 2 ^ j
        < 2 ^ 8 * 2 ^ j := Nat.mul_lt_mul_of_pos_right h8 (Nat.two_pow_pos j)
      _ ≤ 2 ^ 8 * 2 ^ 24 := Nat.mul_le_mul_left _ hle
      _ = 2 ^ 32 := rfl
  have hsplit : (acc.setWidth 56).toNat / 2 ^ 24 =
      2 ^ (24 - j) * ((reg0 acc).toNat * 2 ^ j) + (reg1 acc).toNat := by
    rw [Nat.mul_left_comm, ← hpow, h0, h1]
    omega
  rw [shiftLeft_or_toNat hblt halt, hb, hpow', ← Nat.div_div_eq_div_mul, hsplit,
    Nat.mul_add_div (Nat.two_pow_pos _)]

theorem getLsbD_of_high {x : Word} {k : Nat} (hx : x.toNat = (acc.setWidth 56).toNat / 2 ^ k)
    (j : Nat) : x.getLsbD j = (acc.setWidth 56).getLsbD (j + k) := by
  rw [BitVec.getLsbD, BitVec.getLsbD, hx, Nat.testBit_div_two_pow]

theorem reg1_getLsbD {k : Nat} (hk : k < 24) :
    (reg1 acc).getLsbD k = (acc.setWidth 56).getLsbD (k + 24) := by
  rw [BitVec.getLsbD, BitVec.getLsbD, reg1_toNat, Nat.testBit_mod_two_pow, decide_eq_true hk,
    Bool.true_and, Nat.testBit_div_two_pow]

/-- The test of E on a field of the bits from `k` on. -/
theorem extended_field {k : Nat} (hk : k < 56) {x m : Word}
    (hx : x.toNat = (acc.setWidth 56).toNat / 2 ^ k) (hm : m.toNat = 2 ^ (56 - k) - 1) :
    (decide (x ≠ 0) && decide (x ≠ m)) = !decide (Fits (k + 1) (acc.setWidth 56).toInt) := by
  rw [← Bool.decide_and, ← decide_not, decide_eq_decide, fits_iff_high _ hk, ← hx, ← hm, not_or,
    ne_eq, ne_eq, ← BitVec.toNat_inj, ← BitVec.toNat_inj]
  rfl

/-- The test of U on two bits. -/
theorem unnormalized_field {j k : Nat} {x m : Word} (hj : j < 32) (hk : k < 32)
    (hm : m = 1#32 <<< j ||| 1#32 <<< k) :
    (decide (x &&& m = 0) || decide (x &&& m = m)) = (x.getLsbD j == x.getLsbD k) := by
  rw [← Bool.decide_or, beq_eq_decide]
  exact decide_eq_decide.mpr (and_pair_iff hj hk hm x)

/-- E and U as the flag update computes them. -/
def euBits (sr : Word) : Bool × Bool :=
  if sr &&& ((1#32 <<< Sr.s0) ||| (1#32 <<< Sr.s1)) = 0 then
    let valE := ((reg0 acc <<< 1) ||| (reg1 acc >>> 23)) &&& 0x1FF
    let bits := reg1 acc &&& 0xC00000
    (valE ≠ 0 && valE ≠ 0x1FF, bits = 0 || bits = 0xC00000)
  else DspState.jitUpdateNz.euScaled sr (reg0 acc) (reg1 acc)

theorem and_of_lt {x m : Word} {k : Nat} (hm : m.toNat = 2 ^ k - 1) (hx : x.toNat < 2 ^ k) :
    x &&& m = x := by
  apply BitVec.eq_of_toNat_eq
  rw [and_toNat hm, Nat.mod_eq_of_lt hx]

/-- The scaling field of SR. -/
theorem scaling_toNat (sr : Word) :
    ((sr >>> Sr.s0) &&& 3).toNat = (flag sr Sr.s0).toNat + 2 * (flag sr Sr.s1).toNat := by
  have hd : sr.toNat / 2 ^ Sr.s1 = sr.toNat / 2 ^ Sr.s0 / 2 := by
    rw [Nat.div_div_eq_div_mul]
    rfl
  rw [and_toNat (q := 3) (j := 2) rfl, BitVec.toNat_ushiftRight, Nat.shiftRight_eq_div_pow, flag,
    flag, BitVec.getLsbD, BitVec.getLsbD, Nat.toNat_testBit, Nat.toNat_testBit, hd]
  omega

theorem unscaled_iff (sr : Word) : sr &&& ((1#32 <<< Sr.s0) ||| (1#32 <<< Sr.s1)) = 0 ↔
    flag sr Sr.s0 = false ∧ flag sr Sr.s1 = false := by
  rw [← not_iff_not, ← ne_eq, and_ne_zero_iff, not_and_or, Bool.not_eq_false, Bool.not_eq_false]
  constructor
  · rintro ⟨j, hj, hm⟩
    rw [BitVec.getLsbD_or, Lib.Bits.getLsbD_bit, Lib.Bits.getLsbD_bit] at hm
    simp only [Bool.or_eq_true, Bool.and_eq_true, decide_eq_true_eq] at hm
    rcases hm with ⟨_, rfl⟩ | ⟨_, rfl⟩
    · exact .inl hj
    · exact .inr hj
  · rintro (h | h)
    · exact ⟨Sr.s0, h, rfl⟩
    · exact ⟨Sr.s1, h, rfl⟩

theorem signBit_eq (sr : Word) : signBit sr = match flag sr Sr.s1, flag sr Sr.s0 with
    | false, false => some 47
    | false, true => some 48
    | true, false => some 46
    | true, true => none := by
  rw [signBit, roundingBit, flag, flag]
  cases sr.getLsbD Sr.s1 <;> cases sr.getLsbD Sr.s0 <;> rfl

theorem euBits_eq (sr : Word) :
    euBits acc sr = (extended sr (acc.setWidth 56), unnormalized sr (acc.setWidth 56)) := by
  have hv := (acc.setWidth 56).isLt
  have hmode := scaling_toNat sr
  have hk := signBit_eq sr
  rcases h0 : flag sr Sr.s0 with _ | _ <;> rcases h1 : flag sr Sr.s1 with _ | _
  all_goals
    rw [h0, h1] at hk hmode
    rw [extended, unnormalized, hk]
  · have hval : ((reg0 acc <<< 1) ||| (reg1 acc >>> 23)).toNat = _ :=
      high_toNat acc (j := 1) (by decide)
    rw [euBits, if_pos ((unscaled_iff sr).mpr ⟨h0, h1⟩)]
    refine Prod.ext ?_ ?_
    · refine extended_field acc (k := 47) (by decide) ?_ rfl
      rw [and_of_lt (k := 9) rfl (by omega), hval]
    · refine (unnormalized_field (j := 23) (k := 22) (by decide) (by decide) rfl).trans ?_
      rw [reg1_getLsbD acc (by decide), reg1_getLsbD acc (by decide)]
  · have hval : ((reg0 acc <<< 2) ||| (reg1 acc >>> 22)).toNat = _ :=
      high_toNat acc (j := 2) (by decide)
    rw [euBits, if_neg fun h => by simp [((unscaled_iff sr).mp h).2] at h1,
      DspState.jitUpdateNz.euScaled, hmode]
    refine Prod.ext ?_ ?_
    · refine extended_field acc (k := 46) (by decide) ?_ rfl
      rw [and_of_lt (k := 10) rfl (by omega), hval]
    · refine (unnormalized_field (j := 22) (k := 21) (by decide) (by decide) rfl).trans ?_
      rw [reg1_getLsbD acc (by decide), reg1_getLsbD acc (by decide)]
  · have hval : ((reg0 acc <<< 1) ||| (reg1 acc >>> 23)).toNat = _ :=
      high_toNat acc (j := 1) (by decide)
    rw [euBits, if_neg fun h => by simp [((unscaled_iff sr).mp h).1] at h0,
      DspState.jitUpdateNz.euScaled, hmode]
    refine Prod.ext ?_ ?_
    · refine extended_field acc (k := 48) (by decide) ?_ rfl
      exact reg0_toNat acc
    · refine (unnormalized_field (j := 1) (k := 0) (by decide) (by decide) rfl).trans ?_
      rw [getLsbD_of_high acc hval, getLsbD_of_high acc hval]
  · rw [euBits, if_neg fun h => by simp [((unscaled_iff sr).mp h).1] at h0,
      DspState.jitUpdateNz.euScaled, hmode]
    rfl

/-- SR with E, U, N and Z as given. -/
def nzBits (sr : Word) (eu : Bool × Bool) (n z : Bool) : Word :=
  let newSr := sr &&& ~~~((1#32 <<< Sr.e) ||| (1#32 <<< Sr.u) ||| (1#32 <<< Sr.n) |||
    (1#32 <<< Sr.z))
  let newSr := if eu.1 then newSr ||| (1#32 <<< Sr.e) else newSr
  let newSr := if eu.2 then newSr ||| (1#32 <<< Sr.u) else newSr
  let newSr := if n then newSr ||| (1#32 <<< Sr.n) else newSr
  if z then newSr ||| (1#32 <<< Sr.z) else newSr

theorem flag_ite_or (b : Bool) (w : Word) {f : Nat} (hf : f < 32) (k : Nat) :
    flag (if b then w ||| (1#32 <<< f) else w) k = (flag w k || b && decide (k = f)) := by
  cases b
  · simp
  · simp [flag_or, flag_single hf]

theorem flag_nzBits (sr : Word) (eu : Bool × Bool) (n z : Bool) (k : Nat) :
    flag (nzBits sr eu n z) k =
      if k = Sr.e then eu.1 else if k = Sr.u then eu.2 else if k = Sr.n then n
      else if k = Sr.z then z else flag sr k := by
  rw [nzBits, flag_ite_or _ _ (by decide), flag_ite_or _ _ (by decide), flag_ite_or _ _ (by decide),
    flag_ite_or _ _ (by decide)]
  have hc := flag_clear ((1#32 <<< Sr.e) ||| (1#32 <<< Sr.u) ||| (1#32 <<< Sr.n) |||
    (1#32 <<< Sr.z)) sr k
  rw [clear] at hc
  rw [hc, flag_or, flag_or, flag_or, flag_single (by decide), flag_single (by decide),
    flag_single (by decide), flag_single (by decide)]
  split_ifs with he hu hn hz
  · simp +decide [he]
  · simp +decide [hu]
  · simp +decide [hn]
  · simp +decide [hz]
  · simp [he, hu, hn, hz]

/-- E, U, N and Z follow the accumulator, the rest of SR stays. -/
@[simp] theorem flag_jitUpdateNz (sr : Word) (k : Nat) :
    flag (DspState.jitUpdateNz sr acc) k =
      if k = Sr.e then extended sr (acc.setWidth 56)
      else if k = Sr.u then unnormalized sr (acc.setWidth 56)
      else if k = Sr.n then (acc.setWidth 56).msb
      else if k = Sr.z then decide (acc.setWidth 56 = 0)
      else flag sr k := by
  have heq : DspState.jitUpdateNz sr acc = nzBits sr (euBits acc sr)
      ((acc.sshiftRight 55) &&& 1 ≠ 0) (acc &&& 0x00FFFFFFFFFFFFFF = 0) := rfl
  have hn : decide ((acc.sshiftRight 55) &&& 1 ≠ 0) = (acc.setWidth 56).msb := by
    rw [Bool.eq_iff_iff, decide_eq_true_eq, show (1 : BitVec 64) = 1#64 from rfl, and_one]
    simp [BitVec.msb_eq_getLsbD_last, BitVec.getElem_sshiftRight]
  have hz : decide (acc &&& 0x00FFFFFFFFFFFFFF = 0) = decide (acc.setWidth 56 = 0) :=
    decide_eq_decide.mpr (by rw [← widen_eq_zero, ← mask56_eq, mask56])
  rw [heq, flag_nzBits, euBits_eq, hn, hz]

end Extension

/-! The updates of C, V and L. -/

theorem getLsbD_55 (x : BitVec 64) : x.getLsbD 55 = (x.setWidth 56).msb := by
  simp [BitVec.msb_eq_getLsbD_last]

/-- The overflow of a sum or difference, by signs. -/
def overflows (s d r : BitVec 56) (isSub : Bool) : Bool :=
  if isSub then (s.msb ^^ d.msb) && (r.msb ^^ d.msb) else (s.msb ^^ r.msb) && (d.msb ^^ r.msb)

@[simp] theorem flag_updateVcl (source dest result : BitVec 64) (isSub : Bool) (sr : Word)
    (k : Nat) :
    flag (updateVcl source dest result isSub sr) k =
      if k = Sr.c then result.getLsbD 56
      else if k = Sr.v then
        overflows (source.setWidth 56) (dest.setWidth 56) (result.setWidth 56) isSub
      else if k = Sr.l then
        flag sr Sr.l || overflows (source.setWidth 56) (dest.setWidth 56) (result.setWidth 56) isSub
      else flag sr k && flag (regMasks Reg.sr) k := by
  have hb (x : BitVec 64) : extractBitI64 x 55 = bit 32 (x.setWidth 56).msb := by
    rw [extractBitI64_eq x (k := 55) rfl (by decide), getLsbD_55]
  have hov : (if isSub then (extractBitI64 source 55 ^^^ extractBitI64 dest 55) &&&
      (extractBitI64 (mask56 result) 55 ^^^ extractBitI64 dest 55)
      else (extractBitI64 source 55 ^^^ extractBitI64 (mask56 result) 55) &&&
        (extractBitI64 dest 55 ^^^ extractBitI64 (mask56 result) 55)) =
      bit 32 (overflows (source.setWidth 56) (dest.setWidth 56) (result.setWidth 56) isSub) := by
    cases isSub
    · simp only [hb, bit_xor, bit_and, mask56_narrow, overflows, Bool.false_eq_true, if_false]
    · simp only [hb, bit_xor, bit_and, mask56_narrow, overflows, if_true]
  rw [updateVcl]
  simp only [hov]
  rw [flag_store, extractBitI64_eq result (k := 56) rfl (by decide), flag_orVl, flag_or, flag_clear,
    flag_bit, flag_or, flag_single (by decide), flag_single (by decide)]
  split_ifs with hc hv hl
  · simp +decide [hc]
  · simp +decide [hv]
  · simp +decide [hl]
  · simp +decide [hc, hv, hl]

@[simp] theorem flag_setVlOverflow (b : Bool) (sr : Word) (k : Nat) :
    flag (setVlOverflow (bit 32 b) sr) k =
      if k = Sr.v then b else if k = Sr.l then flag sr Sr.l || b
      else flag sr k && flag (regMasks Reg.sr) k := by
  rw [setVlOverflow, flag_store, flag_orVl, flag_clear, flag_single (by decide)]
  split_ifs with hv hl
  · simp +decide [hv]
  · simp +decide [hl]
  · simp +decide [hv, hl]

@[simp] theorem flag_orVlSr_zero (sr : Word) (k : Nat) :
    flag (orVlSr 0#32 sr) k = (flag sr k && flag (regMasks Reg.sr) k) := by
  have h0 : 0#32 = bit 32 false := rfl
  rw [orVlSr, flag_store, h0, flag_orVl, Bool.and_false, Bool.or_false]

@[simp] theorem flag_clearVFlag (sr : Word) (k : Nat) :
    flag (clearVFlag sr) k =
      if k = Sr.v then false else flag sr k && flag (regMasks Reg.sr) k := by
  rw [clearVFlag, flag_store, flag_clear, flag_single (by decide)]
  split_ifs with hv
  · simp [hv]
  · simp [hv]

@[simp] theorem flag_updateNzMaybe (acc : BitVec 64) (sr : Word) (k : Nat) :
    flag (updateNzMaybe acc false sr) k =
      (flag (DspState.jitUpdateNz sr acc) k && flag (regMasks Reg.sr) k) := by
  rw [updateNzMaybe, if_neg (by decide), flag_store]

/-! The conditions. -/

namespace CondCode

/-- A condition as a truth value of the bits of SR. -/
def test (code : CondCode) (sr : Word) : Bool :=
  let normal := flag sr Sr.z || (!flag sr Sr.u && !flag sr Sr.e)
  let less := flag sr Sr.n ^^ flag sr Sr.v
  match code with
  | .cc => !flag sr Sr.c
  | .cs => flag sr Sr.c
  | .eq => flag sr Sr.z
  | .ne => !flag sr Sr.z
  | .pl => !flag sr Sr.n
  | .mi => flag sr Sr.n
  | .ge => !less
  | .lt => less
  | .gt => !(flag sr Sr.z || less)
  | .le => flag sr Sr.z || less
  | .nn => !normal
  | .nr => normal
  | .ec => !flag sr Sr.e
  | .es => flag sr Sr.e
  | .lc => !flag sr Sr.l
  | .ls => flag sr Sr.l

theorem eval_eq (code : CondCode) (sr : Word) : code.eval sr = bit 32 (code.test sr) := by
  have h1 : (1 : Word) = bit 32 true := rfl
  cases code <;> simp only [eval, test, extractBit_eq, h1, bit_xor, bit_or, bit_and, Bool.xor_true]

theorem eval_ne_zero (code : CondCode) (sr : Word) : code.eval sr ≠ 0 ↔ code.test sr = true := by
  rw [eval_eq]
  cases code.test sr <;> decide

end CondCode

end Dsp56300
