import Dsp56300.Emu.AddressUpdate

/-! The modulo mode: updates inside a buffer whose length need not be a power of two. -/

namespace Dsp56300

open Lib.Bits

variable {σ : Type}

/-- Modulo addressing with the modulus `n`: reserved and multiple-wrap values of M are excluded. -/
structure ModuloMode (m : Word) (n : Nat) : Prop where
  nonzero : m ≠ 0
  small : m ≤ 0x7FFFFF
  single : m &&& 0xC000 ≠ 0x8000
  modulus : n = m.toNat + 1

/-- `2 ^ k` is the least power of two that is not below `n`. -/
structure LeastPower (k n : Nat) : Prop where
  le : n ≤ 2 ^ k
  least : ∀ a < k, 2 ^ a < n

theorem LeastPower.lt_iff {k n a : Nat} (h : LeastPower k n) (ha : a ≤ k) : 2 ^ a < n ↔ a < k := by
  constructor
  · intro hlt
    rcases Nat.lt_or_eq_of_le ha with h' | h'
    · exact h'
    · rw [h'] at hlt
      exact absurd h.le (Nat.not_le.mpr hlt)
  · exact h.least a

theorem ModuloMode.lt {m : Word} {n : Nat} (h : ModuloMode m n) : n ≤ 2 ^ 23 := by
  have hs : m.toNat ≤ 0x7FFFFF := h.small
  rw [h.modulus]
  omega

theorem LeastPower.le_23 {k n : Nat} (h : LeastPower k n) (hn : n ≤ 2 ^ 23) : k ≤ 23 := by
  by_contra hk
  have := h.least 23 (by omega)
  omega

/-- The doubling loop ends at the least power of two that holds the modulus. -/
theorem bufferBounds_eq {k n : Nat} {modulo : Word} (hn : modulo.toNat = n) (hk : LeastPower k n)
    (hk' : k ≤ 23) (fuel a : Nat) (ha : a ≤ k) (hf : k < fuel + a) :
    bufferBounds modulo fuel ((1 : Word) <<< a, (0xFFFFFF : Word) <<< a) =
      ((1 : Word) <<< k, (0xFFFFFF : Word) <<< k) := by
  induction fuel generalizing a with
  | zero => omega
  | succ fuel ih =>
    have hpow : ((1 : Word) <<< a).toNat = 2 ^ a := by
      have hlt : 2 ^ a < 2 ^ 32 := Nat.pow_lt_pow_right (by decide) (by omega)
      rw [BitVec.toNat_shiftLeft]
      simpa [Nat.shiftLeft_eq] using Nat.mod_eq_of_lt hlt
    have hiff : (1 : Word) <<< a < modulo ↔ a < k := by
      rw [BitVec.lt_def, hpow, hn, hk.lt_iff ha]
    unfold bufferBounds
    by_cases hlt : a < k
    · rw [if_pos (hiff.mpr hlt), ← BitVec.shiftLeft_add, ← BitVec.shiftLeft_add]
      exact ih (a + 1) hlt (by omega)
    · have he : a = k := by omega
      rw [if_neg (fun h => hlt (hiff.mp h)), he]

theorem block_le {r k : Nat} (hk : k ≤ 24) (hr : r < 2 ^ 24) :
    r / 2 ^ k * 2 ^ k + 2 ^ k ≤ 2 ^ 24 := by
  have hpow : 2 ^ (24 - k) * 2 ^ k = 2 ^ 24 := by
    rw [← Nat.pow_add, Nat.sub_add_cancel hk]
  rw [← hpow] at hr
  have hlt := (Nat.div_lt_iff_lt_mul (Nat.two_pow_pos k)).mpr hr
  rw [← Nat.succ_mul, ← hpow]
  exact Nat.mul_le_mul_right _ hlt

/-- A 24-bit address cut to the start of its block. -/
theorem lobound_toNat {r : Word} (hr : r.toNat < 2 ^ 24) {k : Nat} (hk : k ≤ 23) :
    (r &&& (((0xFFFFFF : Word) <<< k) &&& 0xFFFFFF)).toNat = r.toNat / 2 ^ k * 2 ^ k := by
  have hq : (BitVec.ofNat 32 (2 ^ k - 1)).toNat = 2 ^ k - 1 := by
    have hlt : 2 ^ k < 2 ^ 32 := Nat.pow_lt_pow_right (by decide) (by omega)
    rw [BitVec.toNat_ofNat, Nat.mod_eq_of_lt (by omega)]
  rw [← and_not_toNat hq]
  congr 1
  apply BitVec.eq_of_getLsbD_eq
  intro i hi
  have hmask (j : Nat) : (0xFFFFFF : Word).getLsbD j = decide (j < 24) :=
    Nat.testBit_two_pow_sub_one 24 j
  have hlow : (BitVec.ofNat 32 (2 ^ k - 1)).getLsbD i = decide (i < k) := by
    rw [BitVec.getLsbD, hq, Nat.testBit_two_pow_sub_one]
  simp only [BitVec.getLsbD_and, BitVec.getLsbD_not, BitVec.getLsbD_shiftLeft, hmask, hlow, hi,
    decide_true, Bool.true_and]
  by_cases h24 : i < 24
  · have hsub : i - k < 24 := by omega
    simp [h24, hsub]
  · have hz : r.getLsbD i = false := by
      apply Nat.testBit_lt_two_pow
      exact Nat.lt_of_lt_of_le hr (Nat.pow_le_pow_right (by decide) (by omega))
    rw [hz, Bool.false_and, Bool.false_and]

theorem toInt_of_small {v : Word} (h : v.toNat < 2 ^ 31) : v.toInt = v.toNat := by
  rw [BitVec.toInt_eq_toNat_cond, if_pos (by omega)]

/-- A 24-bit result survives the mask. -/
theorem masked_toNat {v : Word} {z : Int} (hv : v.toInt = z) (hz : 0 ≤ z) (hz' : z < 2 ^ 24) :
    ((v &&& 0xFFFFFF).toNat : Int) = z := by
  rw [BitVec.toInt_eq_toNat_cond] at hv
  rw [toNat_mask24]
  have := v.isLt
  split_ifs at hv <;> omega

/-- The correction at the bounds of a buffer that starts at `lo`. -/
theorem corrected_toNat {lo n off : Nat} {r d modulo lobound hibound : Word}
    (hlo : lo + n ≤ 2 ^ 24) (hoff : off < n) (hr : r.toNat = lo + off) (hm : modulo.toNat = n)
    (hl : lobound.toNat = lo) (hh : hibound.toNat = lo + n - 1)
    (hd : -n ≤ d.toInt) (hd' : d.toInt < n) :
    let moved := r + d
    let corrected :=
      if (0 : Word).slt d ∧ hibound.slt moved then moved - modulo
      else if d.slt 0 ∧ moved.slt lobound then moved + modulo
      else moved
    ((corrected &&& 0xFFFFFF).toNat : Int) = lo + (off + d.toInt) % n := by
  dsimp only
  have hmoved : (r + d).toInt = lo + off + d.toInt := by
    rw [BitVec.toInt_add, toInt_of_small (by omega), hr]
    push_cast
    exact Int.bmod_eq_of_le (by omega) (by omega)
  have hmod : modulo.toInt = n := by
    rw [toInt_of_small (by omega), hm]
  have hz : (0 : Word).toInt = 0 := rfl
  simp only [BitVec.slt_iff_toInt_lt, hmoved, hz, toInt_of_small (v := lobound) (by omega),
    toInt_of_small (v := hibound) (by omega), hl, hh]
  by_cases hup : 0 < d.toInt ∧ ((lo + n - 1 : Nat) : Int) < lo + off + d.toInt
  · have hv : (r + d - modulo).toInt = lo + off + d.toInt - n := by
      rw [BitVec.toInt_sub, hmoved, hmod]
      exact Int.bmod_eq_of_le (by omega) (by omega)
    have hmod : (off + d.toInt) % n = off + d.toInt - n := by
      rw [← Int.sub_emod_right]
      exact Int.emod_eq_of_lt (by omega) (by omega)
    rw [if_pos hup, masked_toNat hv (by omega) (by omega), hmod]
    omega
  · rw [if_neg hup]
    by_cases hdown : d.toInt < 0 ∧ lo + off + d.toInt < (lo : Int)
    · have hv : (r + d + modulo).toInt = lo + off + d.toInt + n := by
        rw [BitVec.toInt_add, hmoved, hmod]
        exact Int.bmod_eq_of_le (by omega) (by omega)
      have hmod : (off + d.toInt) % n = off + d.toInt + n := by
        rw [← Int.add_emod_right]
        exact Int.emod_eq_of_lt (by omega) (by omega)
      rw [if_pos hdown, masked_toNat hv (by omega) (by omega), hmod]
      omega
    · have hmod : (off + d.toInt) % n = off + d.toInt := Int.emod_eq_of_lt (by omega) (by omega)
      rw [if_neg hdown, masked_toNat hmoved (by omega) (by omega), hmod]
      omega

namespace DspState

variable {s : DspState σ} {i : Fin 8} {n k : Nat}

theorem updateRn_eq_modulo (hm : ModuloMode (s.registers (Reg.mAt i) &&& 0xFFFFFF) n) (d : Word) :
    s.updateRn i d = s.updateRnModulo i d := by
  have hmask : regMasks Reg.m0 = 0xFFFFFF ∧ regMasks Reg.r0 = 0xFFFFFF := ⟨rfl, rfl⟩
  have hlinear : s.registers (Reg.mAt i) &&& 0xFFFFFF ≠ 0xFFFFFF := by
    intro h
    exact absurd (h ▸ hm.small) (by decide)
  unfold updateRn
  simp only [hmask, hlinear, hm.nonzero, hm.single, hm.small, if_false, if_true]

/-- Updates of an address in a buffer by less than its length, and by its whole length. -/
theorem updateRnModulo_toNat (hm : ModuloMode (s.registers (Reg.mAt i) &&& 0xFFFFFF) n)
    (hk : LeastPower k n) (hr : (s.registers (Reg.rAt i)).toNat < 2 ^ 24)
    (hoff : (s.registers (Reg.rAt i)).toNat % 2 ^ k < n) {d : Word} (hd : -n ≤ d.toInt)
    (hd' : d.toInt ≤ n) :
    let r := (s.registers (Reg.rAt i)).toNat
    let new := ((s.updateRnModulo i d).registers (Reg.rAt i)).toNat
    (d.toInt ≠ n → (new : Int) = (r / 2 ^ k * 2 ^ k : Nat) + ((r % 2 ^ k : Nat) + d.toInt) % n) ∧
    (d.toInt = n → new = (r + n) % 2 ^ 24) := by
  have hmask : regMasks Reg.m0 = 0xFFFFFF ∧ regMasks Reg.r0 = 0xFFFFFF := ⟨rfl, rfl⟩
  have hn := hm.lt
  have hk' := hk.le_23 hn
  have hmodulo : ((s.registers (Reg.mAt i) &&& 0xFFFFFF) + 1).toNat = n := by
    rw [BitVec.toNat_add, hm.modulus]
    have : (s.registers (Reg.mAt i) &&& 0xFFFFFF).toNat ≤ 0x7FFFFF := hm.small
    exact Nat.mod_eq_of_lt (by change _ + 1 < _; omega)
  have hbounds : bufferBounds ((s.registers (Reg.mAt i) &&& 0xFFFFFF) + 1) 32 (1, 0xFFFFFF) =
      ((1 : Word) <<< k, (0xFFFFFF : Word) <<< k) :=
    bufferBounds_eq hmodulo hk hk' 32 0 (Nat.zero_le k) (by omega)
  have hlo := lobound_toNat hr hk'
  have hlo' : (s.registers (Reg.rAt i)).toNat / 2 ^ k * 2 ^ k + n ≤ 2 ^ 24 :=
    Nat.le_trans (Nat.add_le_add_left hk.le _) (block_le (by omega) hr)
  unfold updateRnModulo
  simp only [hmask, hbounds, setReg_same]
  generalize (s.registers (Reg.mAt i) &&& 0xFFFFFF) + 1 = modulo at hmodulo ⊢
  generalize s.registers (Reg.rAt i) &&& (((0xFFFFFF : Word) <<< k) &&& 0xFFFFFF) = lobound at hlo ⊢
  generalize s.registers (Reg.rAt i) = r at hr hoff hlo hlo' ⊢
  have hmod : modulo.toInt = n := by
    rw [toInt_of_small (by omega), hmodulo]
  have hpos : 0 < n := Nat.lt_of_le_of_lt (Nat.zero_le _) hoff
  have hslt : ¬ modulo.slt d := by
    rw [BitVec.slt_iff_toInt_lt, hmod]
    omega
  have hh : ((lobound + modulo - 1) &&& 0xFFFFFF).toNat = r.toNat / 2 ^ k * 2 ^ k + n - 1 := by
    have h1 : (1 : Word).toNat = 1 := rfl
    rw [toNat_mask24, BitVec.toNat_sub, BitVec.toNat_add, hlo, hmodulo, h1]
    omega
  simp only [hslt, Bool.false_eq_true, if_false]
  refine ⟨fun hne => ?_, fun he => ?_⟩
  · have hdm : d ≠ modulo := fun h => hne (h ▸ hmod)
    rw [if_pos hdm]
    have hsplit : r.toNat = r.toNat / 2 ^ k * 2 ^ k + r.toNat % 2 ^ k := by
      rw [Nat.mul_comm, Nat.div_add_mod]
    exact corrected_toNat hlo' hoff hsplit hmodulo hlo hh hd (by omega)
  · have hdm : d = modulo := BitVec.eq_of_toInt_eq (he.trans hmod.symm)
    rw [if_neg (not_not_intro hdm), toNat_mask24, BitVec.toNat_add, hdm, hmodulo,
      Nat.mod_mod_of_dvd _ (by decide)]

/-- Modulo updates by less than the buffer's length, either way, or by all of it downwards, turn
around the buffer. Up by all of it the address is not corrected at all. -/
theorem updateRn_modulo (hm : ModuloMode (s.registers (Reg.mAt i) &&& 0xFFFFFF) n)
    (hk : LeastPower k n) (hr : (s.registers (Reg.rAt i)).toNat < 2 ^ 24)
    (hoff : (s.registers (Reg.rAt i)).toNat % 2 ^ k < n) {d : Word} (hd : -n ≤ d.toInt)
    (hd' : d.toInt ≤ n) :
    let r := (s.registers (Reg.rAt i)).toNat
    let lo := r / 2 ^ k * 2 ^ k
    let new := ((s.updateRn i d).registers (Reg.rAt i)).toNat
    (d.toInt ≠ n → lo ≤ new ∧ new < lo + n ∧ (new : Int) - lo = (r - lo + d.toInt) % n) ∧
    (d.toInt = n → new = (r + n) % 2 ^ 24) := by
  obtain ⟨hturn, hwhole⟩ := updateRnModulo_toNat hm hk hr hoff hd hd'
  rw [updateRn_eq_modulo hm]
  dsimp only
  refine ⟨fun hne => ?_, hwhole⟩
  have hpos : (0 : Int) < n := by omega
  have hnew := hturn hne
  have hsplit := Nat.div_add_mod (s.registers (Reg.rAt i)).toNat (2 ^ k)
  rw [Nat.mul_comm] at hsplit
  have hoffset : ((s.registers (Reg.rAt i)).toNat : Int) -
      ((s.registers (Reg.rAt i)).toNat / 2 ^ k * 2 ^ k : Nat) =
      ((s.registers (Reg.rAt i)).toNat % 2 ^ k : Nat) := by omega
  rw [hoffset]
  have hlow := Int.emod_nonneg
    (((s.registers (Reg.rAt i)).toNat % 2 ^ k : Nat) + d.toInt) hpos.ne'
  have hhigh := Int.emod_lt_of_pos
    (((s.registers (Reg.rAt i)).toNat % 2 ^ k : Nat) + d.toInt) hpos
  exact ⟨by omega, by omega, by omega⟩

theorem modulo_five : ModuloMode 4 5 ∧ LeastPower 3 5 :=
  ⟨⟨by decide, by decide, by decide, by decide⟩, ⟨by decide, by decide⟩⟩

/-- Modulo 5 from the last address of the buffer at $10: four down, to its start. -/
theorem updateRn_modulo_five :
    let s : DspState Unit := ((new ⟨[], [], []⟩ ⟨fun _ => 0, ()⟩).setReg Reg.m0 4).setReg Reg.r0
      0x14
    (0x10 : Nat) ≤ ((s.updateRn 0 (-4)).registers Reg.r0).toNat :=
  ((updateRn_modulo (s := ((new ⟨[], [], []⟩ ⟨fun _ => 0, ()⟩).setReg Reg.m0 4).setReg Reg.r0 0x14)
    (i := 0) (d := -4) modulo_five.1 modulo_five.2 (by decide) (by decide) (by decide)
    (by decide)).1 (by decide)).1

/-- Modulo 5 from address 0: five up leaves the buffer. -/
theorem whole_buffer_up_leaves :
    let s : DspState Unit := (new ⟨[], [], []⟩ ⟨fun _ => 0, ()⟩).setReg Reg.m0 4
    ModuloMode (s.registers Reg.m0 &&& 0xFFFFFF) 5 ∧ LeastPower 3 5 ∧ s.registers Reg.r0 = 0 ∧
      (5 : Word).toInt = 5 ∧ 5 ≠ 2 ^ 3 ∧ ¬ ((s.updateRn 0 5).registers Reg.r0).toNat < 5 :=
  ⟨modulo_five.1, modulo_five.2, rfl, by decide, by decide, by decide⟩

end DspState

end Dsp56300
