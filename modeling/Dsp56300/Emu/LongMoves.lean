import Dsp56300.Emu.Limiting
import Dsp56300.Emu.MemoryPaths
import Dsp56300.Emu.AddressUpdate

/-! Moves between a pair of words, one of X and one of Y memory, and the register pairs. -/

namespace Dsp56300

open Emitter Lib.Bits Lib.Words Lib.Programs

variable {σ : Type}

/-! The code. -/

namespace Alu

/-- The limited word of an accumulator, and bit 24 of the answer, which tells that it was not
clamped. The accumulator goes to memory first; what is pending stays so. -/
def readAccu24Inner (d : Accumulator) : Alu σ (Word × Word) := do
  let t ← get
  let (raw, dsp) := (t.dsp.flushAccToMemory d (t.acc d)).jitReadAccu24 d
  set { t with dsp }
  return (mask24 raw, ushr raw 24)

def readAccu24 (d : Accumulator) : Alu σ Word := return (← readAccu24Inner d).1

/-- If limited, the low word is that of the rail; if not, it is A0 or B0. -/
def readLRegLimited (d : Accumulator) (loReg : RegIdx) : Alu σ (Word × Word) := do
  let (saveLx, noLimit) ← readAccu24Inner d
  let bit23 := ushr saveLx 23 &&& 1
  let limitedLy : Word := if bit23 ≠ 0 then 0 else 0x00FFFFFF
  let lo ← loadReg loReg
  return (saveLx, if noLimit ≠ 0 then lo else limitedLy)

/-- A register pair as a source: A10, B10, X, Y, A, B, AB, BA. -/
def readLReg (numreg : Word) : Alu σ (Word × Word) :=
  match numreg.toNat with
  | 0 => return (← loadReg Reg.a1, ← loadReg Reg.a0)
  | 1 => return (← loadReg Reg.b1, ← loadReg Reg.b0)
  | 2 => return (← loadReg Reg.x1, ← loadReg Reg.x0)
  | 3 => return (← loadReg Reg.y1, ← loadReg Reg.y0)
  | 4 => readLRegLimited .a Reg.a0
  | 5 => readLRegLimited .b Reg.b0
  | 6 => return (← readAccu24 .a, ← readAccu24 .b)
  | _ => return (← readAccu24 .b, ← readAccu24 .a)

/-- Replace A1 and A0 of an accumulator, preserving A2. -/
def writeAccLoMid (d : Accumulator) (midVal loVal : Word) : Alu σ Unit := do
  let cur ← loadAcc d
  let a2Preserved := cur &&& 0x00FF000000000000
  let lxM := midVal.setWidth 64 &&& 0x00FFFFFF
  let lyM := loVal.setWidth 64 &&& 0x00FFFFFF
  storeAcc d (a2Preserved ||| ((lxM <<< 24) ||| lyM))

/-- The extension byte of a word: its sign. -/
def signExtBit23 (val : Word) : Word := (0 - (ushr val 23 &&& 1)) &&& 0xFF

/-- A register pair as a destination. -/
def writeLReg (numreg lx ly : Word) : Alu σ Unit :=
  match numreg.toNat with
  | 0 => writeAccLoMid .a lx ly
  | 1 => writeAccLoMid .b lx ly
  | 2 => do
    storeReg Reg.x1 lx
    storeReg Reg.x0 ly
  | 3 => do
    storeReg Reg.y1 lx
    storeReg Reg.y0 ly
  | 4 => storeAcc .a (Emitter.packAcc (signExtBit23 lx) lx ly)
  | 5 => storeAcc .b (Emitter.packAcc (signExtBit23 lx) lx ly)
  | 6 => do
    storeAcc .a (val24ToAcc56 lx)
    storeAcc .b (val24ToAcc56 ly)
  | _ => do
    storeAcc .b (val24ToAcc56 lx)
    storeAcc .a (val24ToAcc56 ly)

end Alu

/-- The operations a long move is made of. -/
def longOps : Code.Handler Op (AluState σ)
  | _, .readLReg numreg, t => (Alu.readLReg numreg).run t
  | _, .writeLReg numreg lx ly, t => (Alu.writeLReg numreg lx ly).run t
  | _, .updateRn numreg modifier, t =>
    ((), { t with dsp := t.dsp.emitUpdateRn (Fin.ofNat 8 numreg) modifier })
  | _, .readMem space addr, t =>
    let (v, world) := t.dsp.map.readMem space addr t.dsp.world
    (v, { t with dsp := { t.dsp with world } })
  | _, .writeMem space addr v, t =>
    ((), { t with dsp := { t.dsp with world := t.dsp.map.writeMem space addr v t.dsp.world } })
  | _, .readMemDyn space addr, t =>
    let (v, world) := t.dsp.map.readMemDyn space addr t.dsp.world
    (v, { t with dsp := { t.dsp with world } })
  | _, .writeMemDyn space addr v, t => ((), { t with dsp := t.dsp.writeMemDyn space addr v })
  | _, op, t => aluOps _ op t

/-! The source. -/

/-- The word pair of a long move, X first. -/
def longPair (p : Word × Word) : BitVec 48 := p.1.setWidth 24 ++ p.2.setWidth 24

/-- An accumulator through the shifter as a long word: halved, unchanged or doubled. -/
def scaledLong (k : Nat) (v : BitVec 56) : Int := v.toInt * 2 ^ 24 / 2 ^ k

/-- The pair that names an accumulator. -/
def longNum : Accumulator → Word
  | .a => 4
  | .b => 5

theorem scaledLong_high (k : Nat) (v : BitVec 56) :
    scaledLong k v / 2 ^ 24 = v.toInt / 2 ^ k := by
  have h24 : (0 : Int) ≤ 2 ^ 24 := by decide
  have hk : (0 : Int) < 2 ^ k := Int.pow_pos (by decide)
  rw [scaledLong, Int.ediv_ediv_of_nonneg hk.le, Int.mul_comm (2 ^ k),
    ← Int.ediv_ediv_of_nonneg h24, Int.mul_ediv_cancel _ (by decide)]

theorem fits_scaledLong (k : Nat) (v : BitVec 56) :
    Fits 48 (scaledLong k v) ↔ Fits 24 (v.toInt / 2 ^ k) := by
  rw [← scaledLong_high, fits_div (by decide)]

/-- The low word of the accumulator is that of the scaled value. -/
def LowAgrees (k : Nat) (v : BitVec 56) : Prop :=
  match k with
  | 25 => v.setWidth 24 = if v.getLsbD 24 then 0xFFFFFF#24 else 0#24
  | 23 => v.setWidth 24 = 0#24
  | _ => True

theorem lowAgrees_iff {scaling k : Nat} (hk : Scales scaling k) (v : BitVec 56) :
    ((v.toNat % 2 ^ 24 : Nat) : Int) = scaledLong k v % 2 ^ 24 ↔ LowAgrees k v := by
  have hlow (c : BitVec 24) : v.setWidth 24 = c ↔ v.toNat % 2 ^ 24 = c.toNat := by
    rw [← BitVec.toNat_inj, BitVec.toNat_setWidth]
  have hv : v.toInt % 2 ^ 56 = v.toNat := by
    rw [BitVec.toInt_eq_toNat_cond]
    split <;> omega
  rcases hk with ⟨_, rfl⟩ | ⟨_, rfl⟩ | ⟨_, rfl⟩
  · refine ⟨fun _ => trivial, fun _ => ?_⟩
    rw [scaledLong, Int.mul_ediv_cancel _ (by decide)]
    omega
  · have hbit : v.getLsbD 24 = decide (v.toNat / 2 ^ 24 % 2 = 1) := by
      rw [BitVec.getLsbD, Nat.testBit_eq_decide_div_mod_eq]
    rw [LowAgrees, hlow, hbit, scaledLong]
    by_cases hodd : v.toNat / 2 ^ 24 % 2 = 1
    · rw [if_pos (decide_eq_true hodd), show (0xFFFFFF#24).toNat = 2 ^ 24 - 1 from rfl]
      omega
    · rw [if_neg (by simpa using hodd), show (0#24).toNat = 0 from rfl]
      omega
  · rw [LowAgrees, hlow, scaledLong, show (0#24).toNat = 0 from rfl]
    omega

theorem longPair_toInt (p : Word × Word) :
    (longPair p).toInt = 2 ^ 24 * (p.1.setWidth 24).toInt + (p.2.toNat % 2 ^ 24 : Nat) := by
  rw [longPair, BitVec.toInt_append, if_neg (by decide), BitVec.toNat_setWidth]

namespace Alu

variable (t : AluState σ) (d : Accumulator)

/-- What the limiter is called on. -/
def limiterState : DspState σ := t.dsp.flushAccToMemory d (t.acc d)

theorem limiterState_acc : (limiterState t d).acc d = (t.acc d).setWidth 56 :=
  DspState.acc_flush _

theorem limiterState_sr : (limiterState t d).registers Reg.sr = t.sr :=
  DspState.flush_registers (by decide) _

theorem longRead_high : (value (readLReg (longNum d)) t).1 =
    mask24 ((limiterState t d).jitReadAccu24 d).1 := by cases d <;> rfl

theorem longRead_low : (value (readLReg (longNum d)) t).2 =
    if ushr ((limiterState t d).jitReadAccu24 d).1 24 ≠ 0 then extractAccLo (t.acc d)
    else if ushr (mask24 ((limiterState t d).jitReadAccu24 d).1) 23 &&& 1 ≠ 0 then 0
    else 0x00FFFFFF := by cases d <;> rfl

theorem after_longRead : after (readLReg (longNum d)) t =
    { t with dsp := ((limiterState t d).jitReadAccu24 d).2 } := by cases d <;> rfl

/-- The pair an accumulator is read as, and L. -/
structure LongRead (t : AluState σ) (d : Accumulator) (k : Nat) : Prop where
  pair : (longPair (value (readLReg (longNum d)) t)).toInt =
    saturate 48 (scaledLong k ((t.acc d).setWidth 56))
  limit : flag (after (readLReg (longNum d)) t).sr Sr.l =
    (flag t.sr Sr.l || !decide (Fits 48 (scaledLong k ((t.acc d).setWidth 56))))

variable {t d} {k : Nat} (hk : roundingBit t.sr = some k)

include hk in
theorem limiterState_roundingBit :
    roundingBit ((limiterState t d).registers Reg.sr) = some k := (limiterState_sr t d).symm ▸ hk

include hk in
theorem limiter_value_whole : (((limiterState t d).jitReadAccu24 d).1.setWidth 24).toInt =
      saturate 24 (((t.acc d).setWidth 56).toInt / 2 ^ k) ∧
    ((limiterState t d).jitReadAccu24 d).1.toNat / 2 ^ 24 =
      (decide (Fits 24 (((t.acc d).setWidth 56).toInt / 2 ^ k))).toNat := by
  have hbit := limiterState_roundingBit (d := d) hk
  rw [← limiterState_acc t d]
  exact ⟨limited_value (DspState.inWidth_flush _) hbit, limited_whole (DspState.inWidth_flush _) hbit⟩

theorem bit23_iff (raw : Word) :
    ushr (mask24 raw) 23 &&& 1 ≠ 0 ↔ (raw.setWidth 24).toInt < 0 := by
  have hbit : (ushr (mask24 raw) 23 &&& 1).toNat = raw.toNat % 2 ^ 24 / 2 ^ 23 % 2 ^ 1 := by
    rw [and_toNat (q := 1) (j := 1) rfl, ushr, show (23 : Word).toNat % 32 = 23 from rfl,
      BitVec.toNat_ushiftRight, Nat.shiftRight_eq_div_pow, mask24, and_toNat (j := 24) rfl]
  have hzero (x : Word) : x = 0 ↔ x.toNat = 0 := (BitVec.toNat_inj (y := 0)).symm
  rw [ne_eq, hzero, hbit, BitVec.toInt_eq_toNat_cond, BitVec.toNat_setWidth]
  split <;> omega

theorem bit24_iff (raw : Word) : ushr raw 24 ≠ 0 ↔ raw.toNat / 2 ^ 24 ≠ 0 := by
  have hshift : (ushr raw 24).toNat = raw.toNat / 2 ^ 24 := by
    rw [ushr, show (24 : Word).toNat % 32 = 24 from rfl, BitVec.toNat_ushiftRight,
      Nat.shiftRight_eq_div_pow]
  rw [← hshift, ne_eq, ne_eq, ← BitVec.toNat_inj]
  exact Iff.rfl

theorem mask24_setWidth (raw : Word) : (mask24 raw).setWidth 24 = raw.setWidth 24 := by
  apply BitVec.eq_of_toNat_eq
  rw [BitVec.toNat_setWidth, BitVec.toNat_setWidth, mask24, and_toNat (j := 24) rfl, Nat.mod_mod]

include hk in
/-- Cut: the pair is the rail. -/
theorem longPair_limited (h : ¬ Fits 48 (scaledLong k ((t.acc d).setWidth 56))) :
    (longPair (value (readLReg (longNum d)) t)).toInt =
      saturate 48 (scaledLong k ((t.acc d).setWidth 56)) := by
  obtain ⟨hvalue, hwhole⟩ := limiter_value_whole (d := d) hk
  have hcut := fits_scaledLong k ((t.acc d).setWidth 56)
  have hhigh := scaledLong_high k ((t.acc d).setWidth 56)
  rw [decide_eq_false (hcut.not.mp h), Bool.toNat_false] at hwhole
  rw [saturate_of_not_fits (hcut.not.mp h), ← hhigh] at hvalue
  have hsign := bit23_iff ((limiterState t d).jitReadAccu24 d).1
  rw [hvalue] at hsign
  rw [longPair_toInt, longRead_high, longRead_low, if_neg ((bit24_iff _).not.mpr (by omega)),
    mask24_setWidth, hvalue, saturate, if_neg h]
  by_cases hneg : scaledLong k ((t.acc d).setWidth 56) < 0
  · have hneg' : scaledLong k ((t.acc d).setWidth 56) / 2 ^ 24 < 0 := by omega
    rw [if_pos hneg, if_pos hneg', if_pos (hsign.mpr (by rw [if_pos hneg']; decide))]
    decide
  · have hneg' : ¬ scaledLong k ((t.acc d).setWidth 56) / 2 ^ 24 < 0 := by omega
    rw [if_neg hneg, if_neg hneg', if_neg (hsign.not.mpr (by rw [if_neg hneg']; decide))]
    decide

include hk in
/-- Whole: the high word is scaled, the low word is not. -/
theorem longPair_whole (h : Fits 48 (scaledLong k ((t.acc d).setWidth 56))) :
    (longPair (value (readLReg (longNum d)) t)).toInt =
      2 ^ 24 * (scaledLong k ((t.acc d).setWidth 56) / 2 ^ 24) +
        (((t.acc d).setWidth 56).toNat % 2 ^ 24 : Nat) := by
  obtain ⟨hvalue, hwhole⟩ := limiter_value_whole (d := d) hk
  have hfits := (fits_scaledLong k _).mp h
  rw [decide_eq_true hfits, Bool.toNat_true] at hwhole
  rw [saturate, if_pos hfits, ← scaledLong_high] at hvalue
  have hlow : (extractAccLo (t.acc d)).toNat % 2 ^ 24 =
      ((t.acc d).setWidth 56).toNat % 2 ^ 24 := by
    rw [extractAccLo, field_toNat (k := 24) rfl (by decide), BitVec.toNat_setWidth]
    omega
  rw [longPair_toInt, longRead_high, longRead_low, if_pos ((bit24_iff _).mpr (by omega)),
    mask24_setWidth, hvalue, hlow]

include hk in
/-- The pair is exact where the value is cut, or where the low word happens to agree. -/
theorem longRead_iff : LongRead t d k ↔
    (Fits 48 (scaledLong k ((t.acc d).setWidth 56)) → LowAgrees k ((t.acc d).setWidth 56)) := by
  have hagrees := lowAgrees_iff (scales_of_roundingBit hk) ((t.acc d).setWidth 56)
  have hlimit : flag (after (readLReg (longNum d)) t).sr Sr.l =
      (flag t.sr Sr.l || !decide (Fits 48 (scaledLong k ((t.acc d).setWidth 56)))) := by
    have hlim := limited_limit (s := limiterState t d) (d := d) (DspState.inWidth_flush _)
      (limiterState_roundingBit hk)
    rw [limiterState_acc, limiterState_sr] at hlim
    rw [after_longRead, decide_eq_decide.mpr (fits_scaledLong k _)]
    exact hlim
  rw [← hagrees]
  constructor
  · intro hread hfits
    have hpair := hread.pair
    rw [longPair_whole hk hfits, saturate, if_pos hfits] at hpair
    omega
  · intro h
    refine ⟨?_, hlimit⟩
    by_cases hfits : Fits 48 (scaledLong k ((t.acc d).setWidth 56))
    · have hlow := h hfits
      rw [longPair_whole hk hfits, saturate, if_pos hfits]
      omega
    · exact longPair_limited hk hfits

end Alu

/-! The destination. -/

theorem signExtBit23_toNat {v : Word} (hv : v.toNat < 2 ^ 24) :
    (Alu.signExtBit23 v).toNat = if v.toNat < 2 ^ 23 then 0 else 255 := by
  have hbit : (ushr v 23 &&& 1).toNat = v.toNat / 2 ^ 23 % 2 ^ 1 := by
    rw [and_toNat (q := 1) (j := 1) rfl, ushr, show (23 : Word).toNat % 32 = 23 from rfl,
      BitVec.toNat_ushiftRight, Nat.shiftRight_eq_div_pow]
  have hzero : (0 : Word).toNat = 0 := rfl
  rw [Alu.signExtBit23, and_toNat (j := 8) rfl, BitVec.toNat_sub, hbit, hzero]
  split <;> omega

/-- The extension makes the long word a number of 56 bits. -/
theorem packAcc_long {lx ly : Word} (hx : lx.toNat < 2 ^ 24) (hy : ly.toNat < 2 ^ 24) :
    ((Emitter.packAcc (Alu.signExtBit23 lx) lx ly).setWidth 56).toInt =
      (longPair (lx, ly)).toInt := by
  have hext := signExtBit23_toNat hx
  have hlt : (Alu.signExtBit23 lx).toNat < 2 ^ 8 := by
    rw [hext]
    split <;> decide
  have hpack : (Emitter.packAcc (Alu.signExtBit23 lx) lx ly).toNat = _ := pack_toNat hlt hx hy
  have hword : (lx.setWidth 24).toNat = lx.toNat := by
    rw [BitVec.toNat_setWidth, Nat.mod_eq_of_lt hx]
  rw [longPair_toInt, BitVec.toInt_eq_toNat_cond, BitVec.toInt_eq_toNat_cond (lx.setWidth 24),
    BitVec.toNat_setWidth, hpack, hext, hword, Nat.mod_eq_of_lt hy]
  by_cases hneg : lx.toNat < 2 ^ 23
  · rw [if_pos hneg, if_pos (by omega), if_pos (by omega)]
    omega
  · rw [if_neg hneg, if_neg (by omega), if_neg (by omega)]
    omega

/-! The moves. -/

namespace AluState

variable (t : AluState σ) (opcode nextWord : Word)

/-- A long move with nothing in the ALU. -/
def longMove : AluState σ := ((emitPm4x opcode .move nextWord).run longOps t).2

/-- The operand is at an effective address, not a 6-bit absolute one. -/
def LongEa : Prop := (opcode >>> 14) &&& 1 ≠ 0

instance : Decidable (LongEa opcode) := inferInstanceAs (Decidable (_ ≠ _))

/-- The address of the operand, and what computing it leaves. -/
def longAddress : Word × AluState σ :=
  if LongEa opcode then
    let r := (emitParallelEa ((opcode >>> 8) &&& 0x3F) nextWord).run longOps t
    (r.1.1, r.2)
  else ((opcode >>> 8) &&& 0x3F, t)

/-- The pair the opcode names. -/
def longField : Word := ((opcode >>> 16) &&& 3) ||| (((opcode >>> 19) &&& 1) <<< 2)

/-- The two states have the same accumulators, memory and SR. -/
structure SameData (u : AluState σ) : Prop where
  acc : u.acc = t.acc
  map : u.dsp.map = t.dsp.map
  world : u.dsp.world = t.dsp.world
  sr : u.sr = t.sr

end AluState

/-- The operations of an address computation. -/
def Addressing : ∀ γ : Type, Op γ → Prop
  | _, .loadReg idx => Fin.ofNat 64 idx ≠ Reg.sr
  | _, .storeReg idx _ => DspState.Outside (Fin.ofNat 64 idx) ∧ Fin.ofNat 64 idx ≠ Reg.sr
  | _, .updateRn _ _ | _, .setCycles _ | _, .setInstLen _ => True
  | _, _ => False

theorem DspState.updateRnModulo_setReg (s : DspState σ) (i : Fin 8) (modifier : Word) :
    ∃ v, s.updateRnModulo i modifier = s.setReg (Reg.rAt i) v := ⟨_, rfl⟩

theorem DspState.updateRn_setReg (s : DspState σ) (i : Fin 8) (modifier : Word) :
    ∃ v, s.updateRn i modifier = s.setReg (Reg.rAt i) v := by
  unfold updateRn
  dsimp only
  split
  · exact ⟨_, rfl⟩
  · split
    · exact ⟨_, rfl⟩
    · split
      · exact ⟨_, rfl⟩
      · split
        · exact s.updateRnModulo_setReg i modifier
        · exact ⟨_, (setReg_self s _).symm⟩

theorem DspState.emitUpdateRn_setReg (s : DspState σ) (i : Fin 8) (modifier : Word) :
    ∃ v, s.emitUpdateRn i modifier = s.setReg (Reg.rAt i) v := by
  unfold emitUpdateRn
  split
  · exact ⟨_, rfl⟩
  · exact s.updateRn_setReg i modifier

theorem addressing_keeps (t : AluState σ) (γ : Type) (e : Op γ) (u : AluState σ)
    (he : Addressing γ e) (h : t.SameData u) : t.SameData (longOps γ e u).2 := by
  cases e with
  | loadReg idx =>
    have hafter : (longOps _ (.loadReg idx) u).2 = u := Alu.after_loadOuter u he
    rw [hafter]
    exact h
  | storeReg idx v =>
    have hafter := Alu.after_storeOuter u he.1 he.2 v
    have hset : (longOps _ (.storeReg idx v) u).2 = _ := hafter
    rw [hset]
    exact ⟨h.acc, h.map, h.world, (AluState.setOuter_sr u _ he.2).trans h.sr⟩
  | updateRn numreg modifier =>
    obtain ⟨v, hv⟩ := u.dsp.emitUpdateRn_setReg (Fin.ofNat 8 numreg) modifier
    have hsr : Reg.sr ≠ Reg.rAt (Fin.ofNat 8 numreg) := by
      generalize Fin.ofNat 8 numreg = i
      revert i
      decide
    have hset : (longOps _ (.updateRn numreg modifier) u).2 =
        { u with dsp := u.dsp.setReg (Reg.rAt (Fin.ofNat 8 numreg)) v } := by
      rw [← hv]
      rfl
    rw [hset]
    exact ⟨h.acc, h.map, h.world, (DspState.setReg_other _ _ hsr).trans h.sr⟩
  | setCycles n => exact h
  | setInstLen n => exact h
  | _ => exact absurd he id

/-- An address register is neither SR nor a part of an accumulator. -/
theorem addressReg_other {k : Nat} (hk : k < 8) :
    (DspState.Outside (Fin.ofNat 64 (Reg.r0.val + k)) ∧ Fin.ofNat 64 (Reg.r0.val + k) ≠ Reg.sr) ∧
      Fin.ofNat 64 (Reg.n0.val + k) ≠ Reg.sr := by
  have hall : ∀ i : Fin 8, (DspState.Outside (Fin.ofNat 64 (Reg.r0.val + i.val)) ∧
      Fin.ofNat 64 (Reg.r0.val + i.val) ≠ Reg.sr) ∧
        Fin.ofNat 64 (Reg.n0.val + i.val) ≠ Reg.sr := by decide
  exact hall ⟨k, hk⟩

theorem emitCalcEaExt_addressing (eaMode nextWord : Word) :
    (emitCalcEaExt eaMode nextWord).All Addressing := by
  have hk : (eaMode &&& 7).toNat < 8 := by
    rw [and_toNat (j := 3) rfl]
    exact Nat.mod_lt _ (by decide)
  obtain ⟨hr, hn⟩ := addressReg_other hk
  have hload : (loadReg (Reg.r0.val + (eaMode &&& 7).toNat)).All Addressing :=
    ⟨hr.2, fun _ => trivial⟩
  have hstore (v : Word) : (storeReg (Reg.r0.val + (eaMode &&& 7).toNat) v).All Addressing :=
    ⟨hr, fun _ => trivial⟩
  have hnn : (loadNnSigned (eaMode &&& 7).toNat).All Addressing :=
    Code.all_bind ⟨hn, fun _ => trivial⟩ fun _ => trivial
  have hupdate (v : Word) : (emitUpdateRn (eaMode &&& 7).toNat v).All Addressing :=
    ⟨trivial, fun _ => trivial⟩
  have hcycles : (setCycles 1).All Addressing := ⟨trivial, fun _ => trivial⟩
  have hret (r : Word × Bool) : (pure r : Emit (Word × Bool)).All Addressing := trivial
  unfold emitCalcEaExt
  dsimp only
  split
  · exact Code.all_bind hload fun _ => Code.all_bind hnn fun _ =>
      Code.all_bind (hupdate _) fun _ => hret _
  · exact Code.all_bind hload fun _ => Code.all_bind hnn fun _ =>
      Code.all_bind (hupdate _) fun _ => hret _
  · exact Code.all_bind hload fun _ => Code.all_bind (hupdate _) fun _ => hret _
  · exact Code.all_bind hload fun _ => Code.all_bind (hupdate _) fun _ => hret _
  · exact Code.all_bind hload fun _ => hret _
  · exact Code.all_bind hcycles fun _ => Code.all_bind hload fun _ => Code.all_bind hnn fun _ =>
      Code.all_bind (hupdate _) fun _ => Code.all_bind hload fun _ =>
        Code.all_bind (hstore _) fun _ => hret _
  · exact Code.all_bind hcycles fun _ => hret _
  · exact Code.all_bind hcycles fun _ => Code.all_bind (hupdate _) fun _ =>
      Code.all_bind hload fun _ => hret _

theorem emitParallelEa_addressing (eaField nextWord : Word) :
    (emitParallelEa eaField nextWord).All Addressing := by
  refine Code.all_bind (emitCalcEaExt_addressing _ _) fun ea => ?_
  split
  · exact ⟨trivial, fun _ => trivial⟩
  · exact trivial

namespace AluState

variable {t : AluState σ} {opcode nextWord : Word}

theorem longAddress_sameData (opcode nextWord : Word) :
    t.SameData (t.longAddress opcode nextWord).2 := by
  have hsame : t.SameData t := ⟨rfl, rfl, rfl, rfl⟩
  unfold longAddress
  split
  · exact (emitParallelEa_addressing _ nextWord).run (addressing_keeps t) hsame
  · exact hsame

/-- Write a word of the operand. -/
def longWrite (opcode : Word) (space : MemSpace) (addr v : Word) (t : AluState σ) : AluState σ :=
  if LongEa opcode then { t with dsp := t.dsp.writeMemDyn space addr v }
  else { t with dsp := { t.dsp with world := t.dsp.map.writeMem space addr v t.dsp.world } }

/-- Read a word of the operand. -/
def longRead (opcode : Word) (space : MemSpace) (addr : Word) (t : AluState σ) :
    Word × World σ :=
  if LongEa opcode then t.dsp.map.readMemDyn space addr t.dsp.world
  else t.dsp.map.readMem space addr t.dsp.world

theorem run_parallelMove (t : AluState σ) :
    ((emitParallelAlu .move).run longOps t).2 = t := rfl

theorem run_writeLReg (numreg lx ly : Word) (t : AluState σ) :
    ((Code.call (.writeLReg numreg lx ly) : Emit Unit).run longOps t).2 =
      Alu.after (Alu.writeLReg numreg lx ly) t := rfl

theorem longMove_store (h : (opcode >>> 15) &&& 1 ≠ 1) : t.longMove opcode nextWord =
    let ea := t.longAddress opcode nextWord
    let r := (Alu.readLReg (longField opcode)).run ea.2
    longWrite opcode .y ea.1 r.1.2 (longWrite opcode .x ea.1 r.1.1 r.2) := by
  unfold longMove emitPm4x
  dsimp only
  by_cases hea : LongEa opcode
  · rw [if_pos (show opcode >>> 14 &&& 1 ≠ 0 from hea), Code.run_bind, if_neg h]
    simp only [longAddress, longWrite, if_pos hea]
    rfl
  · rw [if_neg (show ¬ opcode >>> 14 &&& 1 ≠ 0 from hea), if_neg h]
    simp only [longAddress, longWrite, if_neg hea]
    rfl

theorem longMove_load (h : (opcode >>> 15) &&& 1 = 1) : t.longMove opcode nextWord =
    let ea := t.longAddress opcode nextWord
    let x := longRead opcode .x ea.1 ea.2
    let u := { ea.2 with dsp := { ea.2.dsp with world := x.2 } }
    let y := longRead opcode .y ea.1 u
    Alu.after (Alu.writeLReg (longField opcode) x.1 y.1)
      { u with dsp := { u.dsp with world := y.2 } } := by
  unfold longMove emitPm4x
  dsimp only
  by_cases hea : LongEa opcode
  · rw [if_pos (show opcode >>> 14 &&& 1 ≠ 0 from hea), Code.run_bind, if_pos h, Code.run_bind,
      Code.run_bind, Code.run_bind]
    simp only [longAddress, longRead, if_pos hea, run_parallelMove, run_writeLReg]
    rfl
  · rw [if_neg (show ¬ opcode >>> 14 &&& 1 ≠ 0 from hea), if_pos h, Code.run_bind, Code.run_bind,
      Code.run_bind]
    simp only [longAddress, longRead, if_neg hea, run_parallelMove, run_writeLReg]
    rfl

end AluState

/-- Two cells apart stand at an address of X and Y memory. -/
structure LongOperand (map : MemoryMap σ) (addr : Word) (m n : Nat) : Prop where
  x : map.place .x addr = .cell m
  y : map.place .y addr = .cell n
  apart : m ≠ n
  reachX : map.Reachable .x addr
  reachY : map.Reachable .y addr

namespace AluState

variable {t : AluState σ} {opcode : Word} {space : MemSpace} {addr : Word}

/-- A store changes memory only, and there the place it is to. -/
theorem longWrite_place (hs : space ≠ .p) (h : t.dsp.map.Reachable space addr) (v : Word) :
    (longWrite opcode space addr v t).acc = t.acc ∧
      (longWrite opcode space addr v t).dsp.map = t.dsp.map ∧
      (longWrite opcode space addr v t).dsp.world =
        (t.dsp.map.place space addr).write addr v t.dsp.world := by
  unfold longWrite
  split
  · obtain ⟨sink, hw⟩ := t.dsp.writeMemDyn_xy hs h v
    rw [hw]
    exact ⟨rfl, rfl, rfl⟩
  · rw [MemoryMap.writeMem_eq _ h]
    exact ⟨rfl, rfl, rfl⟩

theorem longRead_place (h : t.dsp.map.Reachable space addr) :
    longRead opcode space addr t = (t.dsp.map.place space addr).read addr t.dsp.world := by
  unfold longRead
  split
  · exact MemoryMap.readMemDyn_eq _ h
  · exact MemoryMap.readMem_eq _ h

/-- What a long store of an accumulator leaves. -/
structure Stored (t u : AluState σ) (d : Accumulator) (m n : Nat) : Prop where
  acc : u.acc = t.acc
  map : u.dsp.map = t.dsp.map
  x : u.dsp.world.heap m = mask24 (Alu.value (Alu.readLReg (longNum d)) t).1
  y : u.dsp.world.heap n = mask24 (Alu.value (Alu.readLReg (longNum d)) t).2

theorem longMove_stored {nextWord : Word} {d : Accumulator} {m n : Nat}
    (hw : (opcode >>> 15) &&& 1 ≠ 1) (hd : longField opcode = longNum d)
    (ho : LongOperand t.dsp.map (t.longAddress opcode nextWord).1 m n) :
    Stored (t.longAddress opcode nextWord).2 (t.longMove opcode nextWord) d m n := by
  have hsame := t.longAddress_sameData opcode nextWord
  rw [longMove_store hw, hd]
  generalize t.longAddress opcode nextWord = ea at hsame ho
  obtain ⟨addr, t'⟩ := ea
  change Stored t' (longWrite opcode .y addr (Alu.value (Alu.readLReg (longNum d)) t').2
    (longWrite opcode .x addr (Alu.value (Alu.readLReg (longNum d)) t').1
      (Alu.after (Alu.readLReg (longNum d)) t'))) d m n
  rw [Alu.after_longRead]
  have hmap : ((Alu.limiterState t' d).jitReadAccu24 d).2.map = t.dsp.map := by
    rw [← hsame.map]
    cases d <;> rfl
  generalize ((Alu.limiterState t' d).jitReadAccu24 d).2 = dsp at hmap
  obtain ⟨hax, hmx, hwx⟩ := @longWrite_place σ { t' with dsp } opcode .x addr (by decide)
     (hmap.symm ▸ ho.reachX) (Alu.value (Alu.readLReg (longNum d)) t').1
  generalize longWrite opcode .x addr _ _ = tx at hax hmx hwx
  replace hmx : tx.dsp.map = t.dsp.map := hmx.trans hmap
  obtain ⟨hay, hmy, hwy⟩ := @longWrite_place σ tx opcode .y addr (by decide)
     (hmx.symm ▸ ho.reachY) (Alu.value (Alu.readLReg (longNum d)) t').2
  generalize longWrite opcode .y addr _ _ = ty at hay hmy hwy
  rw [hmap, ho.x] at hwx
  rw [hmx, ho.y, hwx] at hwy
  refine ⟨hay.trans hax, hmy.trans (hmx.trans hsame.map.symm), ?_, ?_⟩
  · rw [hwy, (Place.write_frame n addr _ _).2.1 m ho.apart, (Place.write_frame m addr _ _).1]
    rfl
  · rw [hwy, (Place.write_frame n addr _ _).1]
    rfl

/-- A long load of an accumulator extends the word pair it reads. -/
theorem longMove_loaded {nextWord : Word} {d : Accumulator} {m n : Nat}
    (hw : (opcode >>> 15) &&& 1 = 1) (hd : longField opcode = longNum d)
    (ho : LongOperand t.dsp.map (t.longAddress opcode nextWord).1 m n) :
    let x := mask24 (t.dsp.world.heap m)
    let y := mask24 (t.dsp.world.heap n)
    (t.longMove opcode nextWord).acc =
      Function.update t.acc d (Emitter.packAcc (Alu.signExtBit23 x) x y) := by
  have hsame := t.longAddress_sameData opcode nextWord
  rw [longMove_load hw, hd]
  generalize t.longAddress opcode nextWord = ea at hsame ho
  obtain ⟨addr, t'⟩ := ea
  have hx : longRead opcode .x addr t' = (mask24 (t.dsp.world.heap m), t'.dsp.world) := by
    rw [longRead_place (hsame.map.symm ▸ ho.reachX), hsame.map, ho.x, ← hsame.world]
    rfl
  have hy : longRead opcode .y addr t' = (mask24 (t.dsp.world.heap n), t'.dsp.world) := by
    rw [longRead_place (hsame.map.symm ▸ ho.reachY), hsame.map, ho.y, ← hsame.world]
    rfl
  dsimp only
  rw [hx]
  dsimp only
  rw [hy]
  have hacc : t'.acc = t.acc := hsame.acc
  rw [← hacc]
  cases d <;> rfl

/-- Wherever it is stored to, an accumulator is loaded back as it was. -/
def StoredBack (t : AluState σ) (d : Accumulator) : Prop :=
  ∀ (store load word word' : Word) (m n : Nat),
    (store >>> 15) &&& 1 = 0 → (load >>> 15) &&& 1 = 1 →
    longField store = longNum d → longField load = longNum d →
    LongOperand t.dsp.map (t.longAddress store word).1 m n →
    ((t.longMove store word).longAddress load word').1 = (t.longAddress store word).1 →
    ∀ e, (((t.longMove store word).longMove load word').acc e).setWidth 56 =
      (t.acc e).setWidth 56

theorem longPair_mask24 (x y : Word) : longPair (mask24 x, mask24 y) = longPair (x, y) := by
  rw [longPair, Alu.mask24_setWidth, Alu.mask24_setWidth]
  rfl

/-- Without scaling, what fits comes back. -/
theorem storedBack {d : Accumulator} (hk : roundingBit t.sr = some 24)
    (hfits : Fits 48 ((t.acc d).setWidth 56).toInt) : t.StoredBack d := by
  intro store load word word' m n hs hl hds hdl ho haddr e
  have hsame := t.longAddress_sameData store word
  have hstored := longMove_stored (by rw [hs]; decide) hds ho
  have hmap : (t.longMove store word).dsp.map = t.dsp.map := hstored.map.trans hsame.map
  have hloaded := @longMove_loaded σ (t.longMove store word) load word' d m n hl hdl
    (haddr.symm ▸ hmap.symm ▸ ho)
  dsimp only at hloaded
  rw [hloaded, hstored.acc, hsame.acc, hstored.x, hstored.y]
  by_cases he : e = d
  · have hscaled : scaledLong 24 ((t.acc e).setWidth 56) = ((t.acc e).setWidth 56).toInt :=
      Int.mul_ediv_cancel _ (by decide)
    subst he
    have hsr : roundingBit (t.longAddress store word).2.sr = some 24 := hsame.sr.symm ▸ hk
    have hread := (Alu.longRead_iff (d := e) hsr).mpr fun _ => trivial
    have hpair := hread.pair
    rw [hsame.acc, hscaled, saturate, if_pos hfits] at hpair
    rw [Function.update_self]
    apply BitVec.eq_of_toInt_eq
    have hlt (v : Word) : (mask24 v).toNat < 2 ^ 24 := mask24_lt v
    rw [packAcc_long (hlt _) (hlt _), longPair_mask24, longPair_mask24]
    exact hpair
  · rw [Function.update_of_ne he]

end AluState

/-- Long moves of an accumulator: the pair it is read as and L, and the way there and back. -/
structure LongMoves (t : AluState σ) (d : Accumulator) (k : Nat) : Prop
    extends Alu.LongRead t d k where
  back : k = 24 → Fits 48 ((t.acc d).setWidth 56).toInt → t.StoredBack d

/-- The low word is not scaled: the pair is exact where the value is cut to the rail, and else where
the low word happens to be that of the scaled value, as it is without scaling. -/
theorem long_moves_exact {t : AluState σ} {d : Accumulator} {k : Nat}
    (hk : roundingBit t.sr = some k) : LongMoves t d k ↔
      (Fits 48 (scaledLong k ((t.acc d).setWidth 56)) →
        LowAgrees k ((t.acc d).setWidth 56)) := by
  rw [← Alu.longRead_iff hk]
  refine ⟨fun h => h.toLongRead, fun h => ⟨h, fun h24 hfits => ?_⟩⟩
  subst h24
  exact AluState.storedBack hk hfits

/-- Unscaled, $00:400000:000001 is read as the pair it holds, and comes back. -/
theorem long_moves_exact_off :
    let t := AluState.enter (DspState.ofRegs [(Reg.sr, 0), (Reg.a1, 0x400000), (Reg.a0, 1)])
    LongMoves t .a 24 ∧ longPair (Alu.value (Alu.readLReg (longNum .a)) t) = 0x400000000001 := by
  intro t
  have hk : roundingBit t.sr = some 24 := by decide
  have h : LongMoves t .a 24 := (long_moves_exact hk).mpr fun _ => trivial
  refine ⟨h, BitVec.eq_of_toInt_eq (h.pair.trans ?_)⟩
  decide

/-- Scaling up, $00:000001:000001 is read as $000002:000001. -/
theorem long_low_unscaled :
    let t := AluState.enter (DspState.ofRegs [(Reg.sr, 0x800), (Reg.a1, 1), (Reg.a0, 1)])
    roundingBit t.sr = some 23 ∧
      longPair (Alu.value (Alu.readLReg (longNum .a)) t) = 0x000002000001 ∧
      scaledLong 23 ((t.acc .a).setWidth 56) = 0x000002000002 ∧ ¬ LongMoves t .a 23 := by
  have hpair : (longPair (Alu.value (Alu.readLReg (longNum .a)) (AluState.enter
      (DspState.ofRegs [(Reg.sr, 0x800), (Reg.a1, 1), (Reg.a0, 1)])))) = 0x000002000001 := by
    decide
  refine ⟨by decide, hpair, by decide, fun h => ?_⟩
  have hexact := h.pair
  rw [hpair] at hexact
  exact absurd hexact (by decide)

end Dsp56300
