import Dsp56300.Emu.State
import Dsp56300.Lib.Bits
import Dsp56300.Lib.Rounding

/-! Rounding of a 56-bit accumulator. -/

namespace Dsp56300

open Lib.Bits Lib.Rounding

variable {σ : Type}

namespace DspState

/-- Round a 56-bit accumulator value A2:A1:A0: convergent rounding when RM is clear, two's
complement rounding when it is set, in three scaling modes. -/
def jitRnd56 (s : DspState σ) (val : BitVec 64) : BitVec 64 :=
  let sr := s.registers Reg.sr
  let convergent := sr &&& (1#32 <<< Sr.rm) = 0
  let (r2, r1, r0) :=
    if sr &&& (1#32 <<< Sr.s0) ≠ 0 then
      let sum := val + (1#64 <<< 24)
      let s0 : Word := (sum &&& 0xFFFFFF).setWidth 32
      let s1 : Word := ((sum.sshiftRight 24) &&& 0xFFFFFF).setWidth 32
      let s2 : Word := ((sum.sshiftRight 48) &&& 0xFF).setWidth 32
      let s1 := if convergent ∧ s0 = 0 ∧ s1 &&& 1 = 0 then s1 &&& (0xFFFFFF - 0x3) else s1
      (s2, s1 &&& 0xFFFFFE, (0 : Word))
    else if sr &&& (1#32 <<< Sr.s1) ≠ 0 then
      let sum := val + (1#64 <<< 22)
      let s0 : Word := (sum &&& 0xFFFFFF).setWidth 32
      let s1 : Word := ((sum.sshiftRight 24) &&& 0xFFFFFF).setWidth 32
      let s2 : Word := ((sum.sshiftRight 48) &&& 0xFF).setWidth 32
      let s0 := if convergent ∧ s0 &&& 0x7FFFFF = 0 then 0 else s0
      (s2, s1, s0 &&& 0x800000)
    else
      let sum := val + (1#64 <<< 23)
      let s0 : Word := (sum &&& 0xFFFFFF).setWidth 32
      let s1 : Word := ((sum.sshiftRight 24) &&& 0xFFFFFF).setWidth 32
      let s2 : Word := ((sum.sshiftRight 48) &&& 0xFF).setWidth 32
      let s1 := if convergent ∧ s0 = 0 then s1 &&& 0xFFFFFE else s1
      (s2, s1, (0 : Word))
  (r2.setWidth 64 <<< 48) ||| (r1.setWidth 64 <<< 24) ||| r0.setWidth 64

end DspState

/-! The three pieces of a sum, and what the pieces of a result make. -/

theorem field_toNat {q : BitVec 64} {k : Nat} (hq : q.toNat = 2 ^ k - 1) (hk : k ≤ 32)
    (x : BitVec 64) : ((x &&& q).setWidth 32).toNat = x.toNat % 2 ^ k := by
  rw [BitVec.toNat_setWidth, and_toNat hq]
  have hmod := Nat.mod_lt x.toNat (Nat.two_pow_pos k)
  exact Nat.mod_eq_of_lt (hmod.trans_le (Nat.pow_le_pow_right (by decide) hk))

/-- An arithmetic shift that leaves the masked bits inside the word is a division. -/
theorem shifted_toNat {n k : Nat} (h : n + k ≤ 64) (x : BitVec 64) :
    (x.sshiftRight n).toNat % 2 ^ k = x.toNat / 2 ^ n % 2 ^ k := by
  apply Nat.eq_of_testBit_eq
  intro i
  rw [Nat.testBit_mod_two_pow, Nat.testBit_mod_two_pow, Nat.testBit_div_two_pow]
  by_cases hi : i < k
  · have hb := BitVec.getLsbD_sshiftRight (x := x) (s := n) (i := i)
    rw [if_pos (by omega), decide_eq_false (by omega), Bool.not_false, Bool.true_and] at hb
    simp only [BitVec.getLsbD] at hb
    rw [hb, Nat.add_comm]
  · simp [hi]

theorem pack_toNat {r2 r1 r0 : Word} (h2 : r2.toNat < 2 ^ 8) (h1 : r1.toNat < 2 ^ 24)
    (h0 : r0.toNat < 2 ^ 24) :
    ((r2.setWidth 64 <<< 48) ||| (r1.setWidth 64 <<< 24) ||| r0.setWidth 64).toNat =
      r2.toNat * 2 ^ 48 + r1.toNat * 2 ^ 24 + r0.toNat := by
  have e2 : (r2.setWidth 64).toNat = r2.toNat := BitVec.toNat_setWidth_of_le (by decide)
  have e1 : (r1.setWidth 64).toNat = r1.toNat := BitVec.toNat_setWidth_of_le (by decide)
  have e0 : (r0.setWidth 64).toNat = r0.toNat := BitVec.toNat_setWidth_of_le (by decide)
  rw [BitVec.or_assoc, BitVec.toNat_or, BitVec.toNat_or, BitVec.toNat_shiftLeft,
    BitVec.toNat_shiftLeft, e2, e1, e0, Nat.shiftLeft_eq, Nat.shiftLeft_eq,
    Nat.mod_eq_of_lt (by omega), Nat.mod_eq_of_lt (by omega), Nat.mul_comm r1.toNat,
    ← Nat.two_pow_add_eq_or_of_lt h0, Nat.mul_comm r2.toNat,
    ← Nat.two_pow_add_eq_or_of_lt (by omega : 2 ^ 24 * r1.toNat + r0.toNat < 2 ^ 48)]
  omega

/-- The sum on the circle of 56-bit values, in pieces of 8, 24 and 24 bits. -/
theorem pieces_toNat (val c : BitVec 64) (t : Nat)
    (ht : t = (val.toNat % 2 ^ 56 + c.toNat) % 2 ^ 56) :
    (((val + c) &&& 0xFFFFFF).setWidth 32).toNat = t % 2 ^ 24 ∧
      ((((val + c).sshiftRight 24) &&& 0xFFFFFF).setWidth 32).toNat = t / 2 ^ 24 % 2 ^ 24 ∧
      ((((val + c).sshiftRight 48) &&& 0xFF).setWidth 32).toNat = t / 2 ^ 48 := by
  have hs := BitVec.toNat_add val c
  rw [field_toNat (k := 24) rfl (by decide), field_toNat (k := 24) rfl (by decide),
    field_toNat (k := 8) rfl (by decide), shifted_toNat (by decide), shifted_toNat (by decide)]
  refine ⟨?_, ?_, ?_⟩ <;> omega

section Modes

variable {s : DspState σ} {val : BitVec 64}

/-- What the rounding constants and masks of a mode should compute. -/
def rounded (s : DspState σ) (h : Nat) (val : BitVec 64) : Nat :=
  if s.registers Reg.sr &&& (1#32 <<< Sr.rm) = 0 then halfEven (2 ^ 56) h (val.toNat % 2 ^ 56)
  else halfUp (2 ^ 56) h (val.toNat % 2 ^ 56)

theorem zero_toNat : (0 : Word).toNat = 0 := rfl

theorem jitRnd56_scaleDown (hs : s.registers Reg.sr &&& (1#32 <<< Sr.s0) ≠ 0) :
    (s.jitRnd56 val).toNat = rounded s (2 ^ 24) val := by
  simp only [DspState.jitRnd56, if_pos hs, rounded, halfEven, halfUp]
  obtain ⟨h0, h1, h2⟩ := pieces_toNat val (1#64 <<< 24) _ rfl
  have hlt := Nat.mod_lt (val.toNat % 2 ^ 56 + 2 ^ 24) (by decide : 2 ^ 56 > 0)
  have hc : (1#64 <<< 24).toNat = 2 ^ 24 := rfl
  rw [hc] at h0 h1 h2
  generalize (val.toNat % 2 ^ 56 + 2 ^ 24) % 2 ^ 56 = t at h0 h1 h2 hlt ⊢
  generalize ((val + (1#64 <<< 24)) &&& 0xFFFFFF).setWidth 32 = s0 at h0 ⊢
  generalize (((val + (1#64 <<< 24)).sshiftRight 24) &&& 0xFFFFFF).setWidth 32 = s1 at h1 ⊢
  generalize (((val + (1#64 <<< 24)).sshiftRight 48) &&& 0xFF).setWidth 32 = s2 at h2 ⊢
  have hm (v : Word) (hv : v.toNat < 2 ^ 24) : (v &&& 0xFFFFFE).toNat = v.toNat / 2 * 2 :=
    and_field_toNat (p := 0xFFFFFF) (q := 1) (k := 1) rfl rfl (by decide) hv
  have hz : s0 = 0 ∧ s1 &&& 1 = 0 ↔ t % (2 * 2 ^ 24) = 0 := by
    rw [← BitVec.toNat_inj, ← BitVec.toNat_inj, and_toNat (q := 1) (j := 1) rfl, h0, h1, zero_toNat]
    omega
  have hm1 := hm s1 (by omega)
  simp only [hz]
  by_cases hconv : s.registers Reg.sr &&& (1#32 <<< Sr.rm) = 0
  · rw [if_pos hconv]
    by_cases htie : t % (2 * 2 ^ 24) = 0
    · have hm4 : (s1 &&& (0xFFFFFF - 0x3)).toNat = s1.toNat / 4 * 4 :=
        and_field_toNat (p := 0xFFFFFF) (q := 3) (n := 24) (k := 2) rfl rfl (by decide) (by omega)
      have hm2 := hm (s1 &&& (0xFFFFFF - 0x3)) (by omega)
      rw [if_pos ⟨hconv, htie⟩, if_pos htie, pack_toNat (by omega) (by omega) (by decide),
        zero_toNat]
      omega
    · rw [if_neg fun h => htie h.2, if_neg htie, pack_toNat (by omega) (by omega) (by decide),
        zero_toNat]
      omega
  · rw [if_neg fun h => hconv h.1, if_neg hconv, pack_toNat (by omega) (by omega) (by decide),
      zero_toNat]
    omega

theorem jitRnd56_scaleUp (hs0 : s.registers Reg.sr &&& (1#32 <<< Sr.s0) = 0)
    (hs1 : s.registers Reg.sr &&& (1#32 <<< Sr.s1) ≠ 0) :
    (s.jitRnd56 val).toNat = rounded s (2 ^ 22) val := by
  simp only [DspState.jitRnd56, if_neg (not_not.mpr hs0), if_pos hs1, rounded, halfEven, halfUp]
  obtain ⟨h0, h1, h2⟩ := pieces_toNat val (1#64 <<< 22) _ rfl
  have hlt := Nat.mod_lt (val.toNat % 2 ^ 56 + 2 ^ 22) (by decide : 2 ^ 56 > 0)
  have hc : (1#64 <<< 22).toNat = 2 ^ 22 := rfl
  rw [hc] at h0 h1 h2
  generalize (val.toNat % 2 ^ 56 + 2 ^ 22) % 2 ^ 56 = t at h0 h1 h2 hlt ⊢
  generalize ((val + (1#64 <<< 22)) &&& 0xFFFFFF).setWidth 32 = s0 at h0 ⊢
  generalize (((val + (1#64 <<< 22)).sshiftRight 24) &&& 0xFFFFFF).setWidth 32 = s1 at h1 ⊢
  generalize (((val + (1#64 <<< 22)).sshiftRight 48) &&& 0xFF).setWidth 32 = s2 at h2 ⊢
  have hz : s0 &&& 0x7FFFFF = 0 ↔ t % (2 * 2 ^ 22) = 0 := by
    rw [← BitVec.toNat_inj, and_toNat (q := 0x7FFFFF) (j := 23) rfl, h0, zero_toNat]
    omega
  have hm : (s0 &&& 0x800000).toNat = s0.toNat / 2 ^ 23 * 2 ^ 23 :=
    and_field_toNat (p := 0xFFFFFF) (q := 0x7FFFFF) (n := 24) rfl rfl (by decide) (by omega)
  simp only [hz]
  by_cases hconv : s.registers Reg.sr &&& (1#32 <<< Sr.rm) = 0
  · rw [if_pos hconv]
    by_cases htie : t % (2 * 2 ^ 22) = 0
    · have hm0 : ((0 : Word) &&& 0x800000).toNat = 0 := rfl
      rw [if_pos ⟨hconv, htie⟩, if_pos htie, pack_toNat (by omega) (by omega) (by omega), hm0]
      omega
    · rw [if_neg fun h => htie h.2, if_neg htie, pack_toNat (by omega) (by omega) (by omega)]
      omega
  · rw [if_neg fun h => hconv h.1, if_neg hconv, pack_toNat (by omega) (by omega) (by omega)]
    omega

theorem jitRnd56_unscaled (hs0 : s.registers Reg.sr &&& (1#32 <<< Sr.s0) = 0)
    (hs1 : s.registers Reg.sr &&& (1#32 <<< Sr.s1) = 0) :
    (s.jitRnd56 val).toNat = rounded s (2 ^ 23) val := by
  simp only [DspState.jitRnd56, if_neg (not_not.mpr hs0), if_neg (not_not.mpr hs1), rounded,
    halfEven, halfUp]
  obtain ⟨h0, h1, h2⟩ := pieces_toNat val (1#64 <<< 23) _ rfl
  have hlt := Nat.mod_lt (val.toNat % 2 ^ 56 + 2 ^ 23) (by decide : 2 ^ 56 > 0)
  have hc : (1#64 <<< 23).toNat = 2 ^ 23 := rfl
  rw [hc] at h0 h1 h2
  generalize (val.toNat % 2 ^ 56 + 2 ^ 23) % 2 ^ 56 = t at h0 h1 h2 hlt ⊢
  generalize ((val + (1#64 <<< 23)) &&& 0xFFFFFF).setWidth 32 = s0 at h0 ⊢
  generalize (((val + (1#64 <<< 23)).sshiftRight 24) &&& 0xFFFFFF).setWidth 32 = s1 at h1 ⊢
  generalize (((val + (1#64 <<< 23)).sshiftRight 48) &&& 0xFF).setWidth 32 = s2 at h2 ⊢
  have hz : s0 = 0 ↔ t % (2 * 2 ^ 23) = 0 := by
    rw [← BitVec.toNat_inj, h0, zero_toNat]
    omega
  have hm : (s1 &&& 0xFFFFFE).toNat = s1.toNat / 2 * 2 :=
    and_field_toNat (p := 0xFFFFFF) (q := 1) (n := 24) (k := 1) rfl rfl (by decide) (by omega)
  simp only [hz]
  by_cases hconv : s.registers Reg.sr &&& (1#32 <<< Sr.rm) = 0
  · rw [if_pos hconv]
    by_cases htie : t % (2 * 2 ^ 23) = 0
    · rw [if_pos ⟨hconv, htie⟩, if_pos htie, pack_toNat (by omega) (by omega) (by decide),
        zero_toNat]
      omega
    · rw [if_neg fun h => htie h.2, if_neg htie, pack_toNat (by omega) (by omega) (by decide),
        zero_toNat]
      omega
  · rw [if_neg fun h => hconv h.1, if_neg hconv, pack_toNat (by omega) (by omega) (by decide),
      zero_toNat]
    omega

end Modes

/-- The bit the unit of rounding has in a scaling mode; none in the reserved mode. -/
def roundingBit (sr : Word) : Option Nat :=
  match sr.getLsbD Sr.s1, sr.getLsbD Sr.s0 with
  | false, false => some 24
  | false, true => some 25
  | true, false => some 23
  | true, true => none

theorem jitRnd56_toNat {s : DspState σ} {k : Nat} (hk : roundingBit (s.registers Reg.sr) = some k)
    (val : BitVec 64) :
    23 ≤ k ∧ k ≤ 25 ∧ (s.jitRnd56 val).toNat = rounded s (2 ^ (k - 1)) val := by
  have hs0 := and_bit_ne_zero_iff (s.registers Reg.sr) (k := Sr.s0) (by decide)
  have hs1 := and_bit_ne_zero_iff (s.registers Reg.sr) (k := Sr.s1) (by decide)
  unfold roundingBit at hk
  cases h1 : (s.registers Reg.sr).getLsbD Sr.s1 <;> cases h0 : (s.registers Reg.sr).getLsbD Sr.s0
  all_goals
    rw [h0] at hs0 hk
    rw [h1] at hs1 hk
    simp only [Bool.false_eq_true, iff_false, iff_true, not_not] at hs0 hs1
  · obtain rfl := Option.some.inj hk
    exact ⟨by decide, by decide, jitRnd56_unscaled hs0 hs1⟩
  · obtain rfl := Option.some.inj hk
    exact ⟨by decide, by decide, jitRnd56_scaleDown hs0⟩
  · obtain rfl := Option.some.inj hk
    exact ⟨by decide, by decide, jitRnd56_scaleUp hs0 hs1⟩
  · cases hk

/-- Outside the reserved mode, the bits below the unit are cleared, the result is within half a
unit, and a tie goes to the even multiple or up as RM says. -/
theorem jitRnd56_rounds {s : DspState σ} {k : Nat} (hk : roundingBit (s.registers Reg.sr) = some k)
    (val : BitVec 64) :
    (s.jitRnd56 val).toNat < 2 ^ 56 ∧
      (∀ j < k, (s.jitRnd56 val).getLsbD j = false) ∧
      (∃ d : Int, |d| ≤ 2 ^ (k - 1) ∧
        ((s.jitRnd56 val).toNat : Int) ≡ (val.toNat % 2 ^ 56 : Nat) + d [ZMOD 2 ^ 56]) ∧
      (val.toNat % 2 ^ 56 % 2 ^ k = 2 ^ (k - 1) →
        ((s.registers Reg.sr).getLsbD Sr.rm = false → 2 ^ (k + 1) ∣ (s.jitRnd56 val).toNat) ∧
        ((s.registers Reg.sr).getLsbD Sr.rm = true →
          (s.jitRnd56 val).toNat ≡ val.toNat % 2 ^ 56 + 2 ^ (k - 1) [MOD 2 ^ 56])) := by
  obtain ⟨hge, hle, hr⟩ := jitRnd56_toNat hk val
  have hrm := and_bit_ne_zero_iff (s.registers Reg.sr) (k := Sr.rm) (by decide)
  have hh : 0 < 2 ^ (k - 1) := Nat.two_pow_pos _
  have hunit : 2 * 2 ^ (k - 1) = 2 ^ k := by
    rw [← Nat.pow_succ', Nat.succ_eq_add_one, Nat.sub_add_cancel (by omega)]
  have hunit2 : 4 * 2 ^ (k - 1) = 2 ^ (k + 1) := by
    rw [Nat.pow_succ, ← hunit]
    omega
  have hdvd : 2 * 2 ^ (k - 1) ∣ 2 ^ 56 := hunit ▸ Nat.pow_dvd_pow 2 (by omega)
  have hmul : 2 ^ k ∣ (s.jitRnd56 val).toNat := by
    rw [hr, rounded, ← hunit]
    split
    · exact halfEven_dvd
    · exact halfUp_dvd
  refine ⟨?_, fun j hj => ?_, ?_, fun ht => ⟨fun h => ?_, fun h => ?_⟩⟩
  · rw [hr, rounded]
    split
    · exact halfEven_lt (by decide)
    · exact halfUp_lt (by decide)
  · obtain ⟨c, hc⟩ := hmul
    rw [BitVec.getLsbD, hc, Nat.testBit_two_pow_mul, decide_eq_false (by omega), Bool.false_and]
  · have hnear : Near (2 ^ 56) (2 ^ (k - 1)) (val.toNat % 2 ^ 56) (s.jitRnd56 val).toNat := by
      rw [hr, rounded]
      split
      · exact halfEven_near hh
      · exact halfUp_near hh
    obtain ⟨d, hd, hmod⟩ := hnear
    exact ⟨d, by simpa using hd, by simpa using hmod⟩
  · rw [h] at hrm
    simp only [Bool.false_eq_true, iff_false, not_not] at hrm
    rw [hr, rounded, if_pos hrm, ← hunit2]
    exact halfEven_tie hdvd hh (hunit ▸ ht)
  · rw [hr, rounded, if_neg (hrm.mpr h)]
    exact halfUp_tie hdvd hh (hunit ▸ ht)


/-- Unscaled and convergent, a tie above an even A1 goes down. -/
theorem jitRnd56_rounds_tie :
    let s : DspState Unit := (DspState.new ⟨[], [], []⟩ ⟨fun _ => 0, ()⟩).setReg Reg.sr 0
    2 ^ 25 ∣ (s.jitRnd56 0x400000800000).toNat :=
  ((jitRnd56_rounds (s := (DspState.new ⟨[], [], []⟩ ⟨fun _ => 0, ()⟩ : DspState Unit).setReg
    Reg.sr 0) (k := 24) rfl 0x400000800000).2.2.2 (by decide)).1 rfl

end Dsp56300
