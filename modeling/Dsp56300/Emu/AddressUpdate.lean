import Dsp56300.Emu.HwStack
import Dsp56300.Lib.Bits
import Dsp56300.Lib.Blocks

/-! Address-register updates under the modes of the M registers. -/

namespace Dsp56300

open Lib.Bits Lib.Blocks

variable {σ : Type}

namespace Reg

def rAt (numreg : Fin 8) : RegIdx := Fin.ofNat 64 (r0.val + numreg.val)

def mAt (numreg : Fin 8) : RegIdx := Fin.ofNat 64 (m0.val + numreg.val)

theorem mAt_ne_rAt : ∀ i : Fin 8, mAt i ≠ rAt i := by decide

end Reg

/-- Reverse the low 24 bits of a value. -/
def bitrev24 (v : Word) : Word := v.reverse >>> 8

/-- The buffer of a modulus: the first power of two that holds it, and the mask of its address. -/
def bufferBounds (modulo : Word) : Nat → Word × Word → Word × Word
  | 0, bounds => bounds
  | fuel + 1, (bufsize, bufmask) =>
    if bufsize < modulo then bufferBounds modulo fuel (bufsize <<< 1, bufmask <<< 1)
    else (bufsize, bufmask)

/-- `while modifier > bufsize`: one buffer up. -/
def stepBuffersUp (bufsize : Word) : Nat → Word × Word → Word × Word
  | 0, p => p
  | fuel + 1, (r, modifier) =>
    if bufsize.slt modifier then stepBuffersUp bufsize fuel (r + bufsize, modifier - bufsize)
    else (r, modifier)

/-- `while modifier < -bufsize`: one buffer down. -/
def stepBuffersDown (bufsize : Word) : Nat → Word × Word → Word × Word
  | 0, p => p
  | fuel + 1, (r, modifier) =>
    if modifier.slt (-bufsize) then stepBuffersDown bufsize fuel (r - bufsize, modifier + bufsize)
    else (r, modifier)

namespace DspState

/-- Modulo address update. -/
def updateRnModulo (s : DspState σ) (numreg : Fin 8) (modifier : Word) : DspState σ :=
  let rMask := regMasks Reg.r0
  let modulo := (s.registers (Reg.mAt numreg) &&& regMasks Reg.m0) + 1
  let origModifier := modifier
  -- the modulus has 24 bits, so 32 doublings are enough
  let (bufsize, bufmask) := bufferBounds modulo 32 (1, rMask)
  let bufmask := bufmask &&& rMask
  let lobound := s.registers (Reg.rAt numreg) &&& bufmask
  let hibound := (lobound + modulo - 1) &&& rMask
  let rReg := s.registers (Reg.rAt numreg)
  let (rReg, modifier) :=
    if modulo.slt origModifier then
      -- each round takes one or more off the modifier
      let p := stepBuffersUp bufsize modifier.toNat (rReg, modifier)
      stepBuffersDown bufsize modifier.toNat p
    else (rReg, modifier)
  let rReg := rReg + modifier
  -- an add corrects past the high bound only, a subtract below the low bound only
  let rReg :=
    if origModifier ≠ modulo then
      if (0 : Word).slt modifier ∧ hibound.slt rReg then rReg - modulo
      else if modifier.slt 0 ∧ rReg.slt lobound then rReg + modulo
      else rReg
    else rReg
  s.setReg (Reg.rAt numreg) (rReg &&& rMask)

/-- Update address register Rn based on the mode in its M register. -/
def updateRn (s : DspState σ) (numreg : Fin 8) (modifier : Word) : DspState σ :=
  let rMask := regMasks Reg.r0
  let mReg := s.registers (Reg.mAt numreg) &&& regMasks Reg.m0
  let rVal := s.registers (Reg.rAt numreg)
  if mReg = regMasks Reg.m0 then
    s.setReg (Reg.rAt numreg) ((rVal + modifier) &&& rMask)
  else if mReg = 0 then
    -- bit-reverse: reversed carry for an add, reversed borrow for a subtract
    let revR := bitrev24 (rVal &&& rMask)
    let revN := bitrev24 (modifier.abs &&& rMask)
    let revNew := (if 0 ≤ modifier.toInt then revR + revN else revR - revN) &&& rMask
    s.setReg (Reg.rAt numreg) (bitrev24 revNew)
  else if mReg &&& 0xC000 = 0x8000 then
    -- multiple wrap-around: a power of two in bits 13:0
    let modulo := (mReg &&& 0x3FFF) + 1
    let base := rVal &&& ~~~(modulo - 1)
    let offset := rVal &&& (modulo - 1)
    let newOffset := (offset + modifier) &&& (modulo - 1)
    s.setReg (Reg.rAt numreg) ((base ||| newOffset) &&& rMask)
  else if mReg ≤ 0x7FFFFF then s.updateRnModulo numreg modifier
  else s -- reserved values of M

/-- The update as compiled code makes it: the linear mode inline, the others by a call. -/
def emitUpdateRn (s : DspState σ) (numreg : Fin 8) (modifier : Word) : DspState σ :=
  if s.registers (Reg.mAt numreg) = regMasks Reg.m0 then
    s.setReg (Reg.rAt numreg) ((s.registers (Reg.rAt numreg) + modifier) &&& regMasks Reg.r0)
  else s.updateRn numreg modifier

end DspState

/-! Bit reversal. -/

theorem getLsbD_bitrev24 (v : Word) (i : Nat) :
    (bitrev24 v).getLsbD i = (decide (i < 24) && v.getLsbD (23 - i)) := by
  rw [bitrev24, BitVec.getLsbD_ushiftRight, BitVec.getLsbD_reverse, BitVec.getMsbD_eq_getLsbD]
  by_cases h : i < 24
  · have h8 : 8 + i < 32 := by omega
    have hi : 32 - 1 - (8 + i) = 23 - i := by omega
    rw [decide_eq_true h, decide_eq_true h8, hi]
  · have h8 : ¬ 8 + i < 32 := by omega
    rw [decide_eq_false h, decide_eq_false h8, Bool.false_and, Bool.false_and]

theorem bitrev24_zero : bitrev24 0 = 0 := by
  apply BitVec.eq_of_getLsbD_eq
  intro i _
  rw [getLsbD_bitrev24]
  simp

theorem bitrev24_lt (v : Word) : (bitrev24 v).toNat < 2 ^ 24 := by
  rw [bitrev24, BitVec.toNat_ushiftRight, Nat.shiftRight_eq_div_pow]
  have := v.reverse.isLt
  omega

theorem bitrev24_bitrev24 {v : Word} (hv : v.toNat < 2 ^ 24) : bitrev24 (bitrev24 v) = v := by
  apply BitVec.eq_of_getLsbD_eq
  intro i _
  rw [getLsbD_bitrev24, getLsbD_bitrev24]
  by_cases h : i < 24
  · have h' : 23 - i < 24 := by omega
    have hi : 23 - (23 - i) = i := by omega
    rw [decide_eq_true h, decide_eq_true h', hi, Bool.true_and, Bool.true_and]
  · have hz : v.getLsbD i = false := by
      apply Nat.testBit_lt_two_pow
      exact Nat.lt_of_lt_of_le hv (Nat.pow_le_pow_right (by decide) (by omega))
    rw [decide_eq_false h, Bool.false_and, hz]

/-- A way to read an address under which an update is a turn around a block of addresses. -/
structure TurnMode where
  read : Word → Word
  block : Nat
  length : Word → Nat
  read_lt : ∀ v : Word, v.toNat < 2 ^ 24 → (read v).toNat < 2 ^ 24
  read_read : ∀ v : Word, v.toNat < 2 ^ 24 → read (read v) = v
  block_dvd : block ∣ 2 ^ 24
  length_neg : ∀ d : Word, -2 ^ 23 ≤ d.toInt → d.toInt < 2 ^ 23 → block ∣ length d + length (-d)

namespace TurnMode

variable (t : TurnMode) {r d e : Word}

/-- The address `r` updated by `d`. -/
def step (d r : Word) : Word := t.read (BitVec.ofNat 32 (turn t.block (t.length d) (t.read r).toNat))

theorem block_pos : 0 < t.block := Nat.pos_of_dvd_of_pos t.block_dvd (by decide)

theorem turned_lt (hr : r.toNat < 2 ^ 24) (n : Nat) : turn t.block n (t.read r).toNat < 2 ^ 24 :=
  turn_lt t.block_pos t.block_dvd (t.read_lt r hr)

theorem turned_toNat (hr : r.toNat < 2 ^ 24) (n : Nat) :
    (BitVec.ofNat 32 (turn t.block n (t.read r).toNat)).toNat =
      turn t.block n (t.read r).toNat := by
  have h := t.turned_lt hr n
  rw [BitVec.toNat_ofNat, Nat.mod_eq_of_lt (by omega)]

theorem step_lt (hr : r.toNat < 2 ^ 24) : (t.step d r).toNat < 2 ^ 24 := by
  apply t.read_lt
  rw [t.turned_toNat hr]
  exact t.turned_lt hr _

/-- Two updates are one turn by both lengths. -/
theorem step_step (hr : r.toNat < 2 ^ 24) : t.step e (t.step d r) =
    t.read (BitVec.ofNat 32 (turn t.block (t.length d + t.length e) (t.read r).toNat)) := by
  have hlt := t.turned_lt hr (t.length d)
  rw [← t.turned_toNat hr] at hlt
  rw [step, step, t.read_read _ hlt, t.turned_toNat hr, turn_turn t.block_pos]

theorem step_comm (hr : r.toNat < 2 ^ 24) : t.step e (t.step d r) = t.step d (t.step e r) := by
  rw [t.step_step hr, t.step_step hr, Nat.add_comm]

theorem step_neg (hr : r.toNat < 2 ^ 24) (hd : -2 ^ 23 ≤ d.toInt) (hd' : d.toInt < 2 ^ 23) :
    t.step (-d) (t.step d r) = r := by
  rw [t.step_step hr, turn_of_dvd (t.length_neg d hd hd'), BitVec.ofNat_toNat,
    BitVec.setWidth_eq, t.read_read r hr]

/-- A word and its negative are a full turn of any smaller power of two. -/
theorem dvd_add_neg {j : Nat} (hj : j ≤ 32) (d : Word) : 2 ^ j ∣ d.toNat + (-d).toNat := by
  have h : d.toNat + (-d).toNat = 0 ∨ d.toNat + (-d).toNat = 2 ^ 32 := by
    rw [BitVec.toNat_neg]
    have := d.isLt
    omega
  rcases h with h | h
  · rw [h]
    exact dvd_zero _
  · rw [h]
    exact Nat.pow_dvd_pow 2 hj

/-- Around `2 ^ j` addresses: all of them in the linear mode, a buffer in multiple-wrap. -/
def wrap (j : Nat) (hj : j ≤ 24) : TurnMode where
  read v := v
  block := 2 ^ j
  length d := d.toNat
  read_lt _ h := h
  read_read _ _ := rfl
  block_dvd := Nat.pow_dvd_pow 2 hj
  length_neg d _ _ := dvd_add_neg (by omega) d

theorem wrap_step_toNat {j : Nat} (hj : j ≤ 24) (hr : r.toNat < 2 ^ 24) :
    ((wrap j hj).step d r).toNat = turn (2 ^ j) d.toNat r.toNat :=
  (wrap j hj).turned_toNat hr d.toNat

/-- The reversed magnitude of a modifier, with its sign. -/
def reversed (d : Word) : Word :=
  let n := bitrev24 (d.abs &&& 0xFFFFFF)
  if 0 ≤ d.toInt then n else -n

theorem reversed_neg {d : Word} (hd : -2 ^ 23 ≤ d.toInt) (hd' : d.toInt < 2 ^ 23) :
    reversed (-d) = -reversed d := by
  have hneg : (-d).toInt = -d.toInt := by
    rw [BitVec.toInt_neg]
    exact Int.bmod_eq_of_le (by omega) (by omega)
  have habs : (-d).abs = d.abs := by
    apply BitVec.eq_of_toNat_eq
    rw [BitVec.toInt_eq_toNat_cond] at hd hd'
    have := d.isLt
    simp only [BitVec.toNat_abs, BitVec.msb_eq_decide, BitVec.toNat_neg, decide_eq_true_eq]
    split_ifs at * <;> omega
  unfold reversed
  rw [habs, hneg]
  rcases lt_trichotomy d.toInt 0 with h | h | h
  · rw [if_pos (by omega), if_neg (by omega), BitVec.neg_neg]
  · have h0 : d = 0 := BitVec.eq_of_toInt_eq (by simpa using h)
    have hz : d.abs &&& 0xFFFFFF = 0 := by
      rw [h0]
      decide
    rw [if_pos (by omega), if_pos (by omega), hz, bitrev24_zero]
    rfl
  · rw [if_neg (by omega), if_pos (by omega)]

/-- All addresses, read from the other end. -/
def reverse : TurnMode where
  read := bitrev24
  block := 2 ^ 24
  length d := (reversed d).toNat
  read_lt v _ := bitrev24_lt v
  read_read _ h := bitrev24_bitrev24 h
  block_dvd := dvd_refl _
  length_neg d hd hd' := by
    rw [reversed_neg hd hd']
    exact dvd_add_neg (by decide) _

end TurnMode

namespace DspState

open TurnMode

variable {s : DspState σ} {i : Fin 8} {d : Word}

theorem updateRn_linear (hm : s.registers (Reg.mAt i) &&& 0xFFFFFF = 0xFFFFFF)
    (hr : (s.registers (Reg.rAt i)).toNat < 2 ^ 24) (d : Word) : s.updateRn i d =
      s.setReg (Reg.rAt i) ((wrap 24 (Nat.le_refl 24)).step d (s.registers (Reg.rAt i))) := by
  have hmask : regMasks Reg.m0 = 0xFFFFFF ∧ regMasks Reg.r0 = 0xFFFFFF := ⟨rfl, rfl⟩
  unfold updateRn
  simp only [hmask, hm, if_true]
  congr 1
  apply BitVec.eq_of_toNat_eq
  rw [toNat_mask24, wrap_step_toNat _ hr, BitVec.toNat_add, Nat.mod_mod_of_dvd _ (by decide),
    turn_of_lt hr]

theorem updateRn_reverse (hm : s.registers (Reg.mAt i) &&& 0xFFFFFF = 0)
    (hr : (s.registers (Reg.rAt i)).toNat < 2 ^ 24) (d : Word) : s.updateRn i d =
      s.setReg (Reg.rAt i) (reverse.step d (s.registers (Reg.rAt i))) := by
  have hmask : regMasks Reg.m0 = 0xFFFFFF ∧ regMasks Reg.r0 = 0xFFFFFF := ⟨rfl, rfl⟩
  have h0 : (0 : Word) ≠ 0xFFFFFF := by decide
  have hr' : s.registers (Reg.rAt i) &&& 0xFFFFFF = s.registers (Reg.rAt i) := by
    apply BitVec.eq_of_toNat_eq
    rw [toNat_mask24, Nat.mod_eq_of_lt hr]
  unfold updateRn
  simp only [hmask, hm, h0, if_false, if_true, hr']
  congr 1
  rw [step]
  congr 1
  apply BitVec.eq_of_toNat_eq
  have hadd : (if 0 ≤ d.toInt then bitrev24 (s.registers (Reg.rAt i)) + bitrev24 (d.abs &&& 0xFFFFFF)
      else bitrev24 (s.registers (Reg.rAt i)) - bitrev24 (d.abs &&& 0xFFFFFF)) =
      bitrev24 (s.registers (Reg.rAt i)) + reversed d := by
    unfold reversed
    split
    · rfl
    · exact BitVec.sub_eq_add_neg _ _
  rw [hadd, toNat_mask24, BitVec.toNat_add, Nat.mod_mod_of_dvd _ (by decide)]
  exact ((reverse.turned_toNat hr _).trans (turn_of_lt (bitrev24_lt _) _)).symm

theorem updateRn_wrap {j : Nat} (hm : s.registers (Reg.mAt i) &&& 0xFFFFFF &&& 0xC000 = 0x8000)
    (hj : (s.registers (Reg.mAt i) &&& 0xFFFFFF &&& 0x3FFF).toNat = 2 ^ j - 1) (hj' : j ≤ 24)
    (hr : (s.registers (Reg.rAt i)).toNat < 2 ^ 24) (d : Word) : s.updateRn i d =
      s.setReg (Reg.rAt i) ((wrap j hj').step d (s.registers (Reg.rAt i))) := by
  have hmask : regMasks Reg.m0 = 0xFFFFFF ∧ regMasks Reg.r0 = 0xFFFFFF := ⟨rfl, rfl⟩
  have hlinear : s.registers (Reg.mAt i) &&& 0xFFFFFF ≠ 0xFFFFFF := by
    intro h
    rw [h] at hm
    exact absurd hm (by decide)
  have hreverse : s.registers (Reg.mAt i) &&& 0xFFFFFF ≠ 0 := by
    intro h
    rw [h] at hm
    exact absurd hm (by decide)
  unfold updateRn
  simp only [hmask, hlinear, hreverse, hm, if_false, if_true, BitVec.add_sub_cancel]
  congr 1
  apply BitVec.eq_of_toNat_eq
  generalize s.registers (Reg.mAt i) &&& 0xFFFFFF &&& 0x3FFF = q at hj ⊢
  generalize s.registers (Reg.rAt i) = r at hr ⊢
  have hlt := (wrap j hj').turned_lt hr d.toNat
  have hdvd : 2 ^ j ∣ 2 ^ 32 := Nat.pow_dvd_pow 2 (by omega)
  have hoffset : ((r &&& q) + d).toNat % 2 ^ j = (r.toNat % 2 ^ j + d.toNat) % 2 ^ j := by
    rw [BitVec.toNat_add, Nat.mod_mod_of_dvd _ hdvd, and_toNat hj]
  have hjoin := join_toNat hj r ((r &&& q) + d) (by
    rw [hoffset]
    exact Nat.lt_of_lt_of_le hlt (by decide))
  rw [toNat_mask24, hjoin, hoffset, wrap_step_toNat hj' hr]
  exact Nat.mod_eq_of_lt hlt

/-- The modes whose updates are turns: linear, bit-reverse, multiple wrap over a power of two. -/
inductive Turning (m : Word) : Prop where
  | linear (h : m = 0xFFFFFF)
  | reverse (h : m = 0)
  | wrap (j : Nat) (h : m &&& 0xC000 = 0x8000) (hj : (m &&& 0x3FFF).toNat + 1 = 2 ^ j)

theorem wrap_le {m : Word} {j : Nat} (hj : (m &&& 0x3FFF).toNat + 1 = 2 ^ j) : j ≤ 24 := by
  by_contra hn
  have hle : 2 ^ 25 ≤ 2 ^ j := Nat.pow_le_pow_right (by decide) (by omega)
  have hlt : (m &&& 0x3FFF).toNat ≤ 0x3FFF := Nat.and_le_right
  omega

theorem Turning.mode {m : Word} (h : Turning m) : ∃ t : TurnMode, ∀ (s : DspState σ) (i : Fin 8),
    s.registers (Reg.mAt i) &&& 0xFFFFFF = m → (s.registers (Reg.rAt i)).toNat < 2 ^ 24 →
      ∀ d, s.updateRn i d = s.setReg (Reg.rAt i) (t.step d (s.registers (Reg.rAt i))) := by
  cases h with
  | linear h => exact ⟨_, fun s i hm hr d => updateRn_linear (hm.trans h) hr d⟩
  | reverse h => exact ⟨_, fun s i hm hr d => updateRn_reverse (hm.trans h) hr d⟩
  | wrap j h hj =>
    refine ⟨_, fun s i hm hr d => updateRn_wrap ?_ ?_ (wrap_le hj) hr d⟩
    · rw [hm, h]
    · rw [hm]
      omega

/-- The turn of the bit-reverse mode, in numbers. -/
theorem reversed_turn (r : Word) {d : Word} (hd : -2 ^ 23 ≤ d.toInt) (hd' : d.toInt < 2 ^ 23) :
    BitVec.ofNat 32 (turn (2 ^ 24) (reversed d).toNat (bitrev24 r).toNat) =
      BitVec.ofInt 32 (((bitrev24 r).toNat +
        d.toInt.sign * (bitrev24 (BitVec.ofNat 32 d.toInt.natAbs)).toNat) % 2 ^ 24) := by
  have habs : d.abs &&& 0xFFFFFF = BitVec.ofNat 32 d.toInt.natAbs := by
    apply BitVec.eq_of_toNat_eq
    rw [BitVec.toInt_eq_toNat_cond] at hd hd' ⊢
    have := d.isLt
    rw [toNat_mask24, BitVec.toNat_abs, BitVec.msb_eq_decide, BitVec.toNat_ofNat]
    simp only [decide_eq_true_eq]
    split_ifs at * <;> omega
  have hlt := bitrev24_lt (BitVec.ofNat 32 d.toInt.natAbs)
  rw [turn_of_lt (bitrev24_lt r), ← BitVec.ofInt_natCast]
  congr 1
  push_cast
  unfold reversed
  rw [habs]
  dsimp only
  have hz (h : d.toInt = 0) : bitrev24 (BitVec.ofNat 32 d.toInt.natAbs) = 0 := by
    rw [h]
    exact bitrev24_zero
  generalize bitrev24 (BitVec.ofNat 32 d.toInt.natAbs) = n at hlt hz ⊢
  rcases lt_trichotomy d.toInt 0 with h | h | h
  · rw [if_neg (by omega), Int.sign_eq_neg_one_of_neg h, BitVec.toNat_neg]
    push_cast
    omega
  · rw [if_pos (by omega), hz h, Int.sign_eq_zero_iff_zero.mpr h, Int.zero_mul]
    rfl
  · rw [if_pos (by omega), Int.sign_eq_one_of_pos h, Int.one_mul]

/-- Updates in the linear, bit-reverse and multiple-wrap modes: the opposite update undoes one, any
two commute, bit-reverse adds in the reversed domain, multiple wrap spares the bits above the
modulus. -/
theorem updateRn_turns {s : DspState σ} {i : Fin 8}
    (hm : Turning (s.registers (Reg.mAt i) &&& 0xFFFFFF))
    (hr : (s.registers (Reg.rAt i)).toNat < 2 ^ 24) {d e : Word} (hd : -2 ^ 23 ≤ d.toInt)
    (hd' : d.toInt < 2 ^ 23) :
    let mReg := s.registers (Reg.mAt i) &&& 0xFFFFFF
    let r := s.registers (Reg.rAt i)
    let t := s.updateRn i d
    t.updateRn i (-d) = s ∧ t.updateRn i e = (s.updateRn i e).updateRn i d ∧
    (mReg = 0 → t.registers (Reg.rAt i) = bitrev24 (BitVec.ofInt 32 (((bitrev24 r).toNat +
      d.toInt.sign * (bitrev24 (BitVec.ofNat 32 d.toInt.natAbs)).toNat) % 2 ^ 24))) ∧
    (mReg &&& 0xC000 = 0x8000 →
      t.registers (Reg.rAt i) &&& ~~~(mReg &&& 0x3FFF) = r &&& ~~~(mReg &&& 0x3FFF)) := by
  obtain ⟨t, ht⟩ := hm.mode (σ := σ)
  have hmset (v : Word) : (s.setReg (Reg.rAt i) v).registers (Reg.mAt i) &&& 0xFFFFFF =
      s.registers (Reg.mAt i) &&& 0xFFFFFF := by
    rw [setReg_other _ _ (Reg.mAt_ne_rAt i)]
  have htwo (d e : Word) : (s.updateRn i d).updateRn i e =
      s.setReg (Reg.rAt i) (t.step e (t.step d (s.registers (Reg.rAt i)))) := by
    rw [ht s i rfl hr, ht _ i (hmset _) (by rw [setReg_same]; exact t.step_lt hr), setReg_same,
      setReg_setReg]
  refine ⟨?_, ?_, ?_, ?_⟩
  · rw [htwo, t.step_neg hr hd hd']
    exact congrArg (fun f => { s with registers := f }) (Function.update_eq_self _ _)
  · rw [htwo, htwo, t.step_comm hr]
  · intro h0
    rw [updateRn_reverse h0 hr, setReg_same, ← reversed_turn _ hd hd']
    rfl
  · intro hw
    cases hm with
    | linear h => exact absurd (h ▸ hw) (by decide)
    | reverse h => exact absurd (h ▸ hw) (by decide)
    | wrap j h hj =>
      have hj' := wrap_le hj
      have hq : (s.registers (Reg.mAt i) &&& 0xFFFFFF &&& 0x3FFF).toNat = 2 ^ j - 1 := by omega
      apply BitVec.eq_of_toNat_eq
      rw [updateRn_wrap h hq hj' hr, setReg_same, and_not_toNat hq, and_not_toNat hq,
        wrap_step_toNat hj' hr, turn_div (Nat.two_pow_pos j)]

/-- Bit-reverse from $001234: -N with N = 3 gives $001236. -/
theorem updateRn_turns_reverse :
    let s : DspState Unit := ((new ⟨[], [], []⟩ ⟨fun _ => 0, ()⟩).setReg Reg.m0 0).setReg Reg.r0
      0x001234
    (s.updateRn 0 (-3)).updateRn 0 3 = s :=
  (updateRn_turns (s := ((new ⟨[], [], []⟩ ⟨fun _ => 0, ()⟩).setReg Reg.m0 0).setReg Reg.r0
    0x001234) (i := 0) (d := -3) (e := 0) (.reverse rfl) (by decide) (by decide) (by decide)).1

end DspState

end Dsp56300
