import Dsp56300.Emu.EmitBlock
import Dsp56300.Emu.InstructionLength

/-! What code inside a native loop may do, and the screens that are to keep it so. -/

namespace Dsp56300

set_option synthInstance.maxSize 1000

open Lib.Programs Lib.Programs.Code

/-- What a native loop rests on: LA, and LF and FV of SR. -/
structure LoopFrame where
  la : BitVec 24
  lf : Bool
  fv : Bool

namespace LoopFrame

/-- As far as `v` is the word in register `idx`, it is that of the frame. -/
structure Agrees (t : LoopFrame) (idx : Nat) (v : Word) : Prop where
  la : idx = Reg.la.val → v.setWidth 24 = t.la
  lf : idx = Reg.sr.val → v.getLsbD Sr.lf = t.lf
  fv : idx = Reg.sr.val → v.getLsbD Sr.fv = t.fv

/-- A frame that `v` agrees with in nothing. -/
def against (v : Word) : LoopFrame := ⟨~~~(v.setWidth 24), !v.getLsbD Sr.lf, !v.getLsbD Sr.fv⟩

end LoopFrame

namespace Emitter

set_option linter.constructorNameAsVariable false

/-- SR behind ANDI: MR, CCR, or another register. -/
def andiSr (imm dest : Byte) (sr : Word) : Word :=
  match dest.toNat with
  | 0 => sr &&& ((imm.setWidth 32 <<< 8) ||| 0xFF00FF)
  | 1 => sr &&& (imm.setWidth 32 ||| 0xFFFF00)
  | _ => sr

/-- SR behind ORI. -/
def oriSr (imm dest : Byte) (sr : Word) : Word :=
  match dest.toNat with
  | 0 => sr ||| (imm.setWidth 32 <<< 8)
  | 1 => sr ||| imm.setWidth 32
  | _ => sr

/-- Reads of LA and SR answer what the frame holds. -/
def Op.Answers (t : LoopFrame) : (γ : Type) → Op γ → γ → Prop
  | _, .loadReg idx, v | _, .readRegForMove idx, v => t.Agrees idx v
  | _, _, _ => True

/-- Operations that arm no core fault, write no P memory, set neither PC nor the power state, and
leave SP and the frame alone. A move to or from SSH, and a move to SP, spills a fault budget. -/
def Op.Spares (t : LoopFrame) : (γ : Type) → Op γ → Prop
  | _, .storePc _ | _, .storePowerState _ | _, .armFaultBudget _ | _, .spillFaultBudget _
  | _, .stackPush _ _ _ | _, .stackPop _ | _, .readSsh | _, .writeSp _ => False
  | _, .writeMem space _ _ | _, .writeMemDyn space _ _ => space ≠ .p
  | _, .readRegForMove idx => idx ≠ Reg.ssh.val
  | _, .writeRegForMove idx v => idx ≠ Reg.ssh.val ∧ idx ≠ Reg.sp.val ∧ t.Agrees idx v
  | _, .storeReg idx v => idx ≠ Reg.sp.val ∧ t.Agrees idx v
  | _, .data (.andi imm dest) => ∀ sr, t.Agrees Reg.sr.val sr →
      t.Agrees Reg.sr.val (andiSr imm dest sr)
  | _, .data (.ori imm dest) => ∀ sr, t.Agrees Reg.sr.val sr →
      t.Agrees Reg.sr.val (oriSr imm dest sr)
  | _, _ => True

/-- Code fit for a native loop, whatever the state. -/
def Confined {α : Type} (x : Emit α) : Prop := ∀ t : LoopFrame, x.AllOn (Op.Answers t) (Op.Spares t)

/-! Code that is fit for a native loop. -/

/-- Numbers below those of the control registers. -/
class DataReg (idx : Nat) : Prop where
  lt : idx < 0x30

/-- Registers that can be read without popping the stack. -/
class Readable (idx : Nat) : Prop where
  ssh : idx ≠ Reg.ssh.val

/-- Registers that can be written without moving the stack or the frame. -/
class Writable (idx : Nat) : Prop where
  ssh : idx ≠ Reg.ssh.val
  sp : idx ≠ Reg.sp.val
  la : idx ≠ Reg.la.val
  sr : idx ≠ Reg.sr.val

class Harmless {α : Type} (x : Emit α) : Prop where
  confined : Confined x

variable {α β : Type} {x y : Emit α} {f : α → Emit β}

instance (a : α) : Harmless (pure a : Emit α) where
  confined _ := trivial

instance [hx : Harmless x] [hf : ∀ a, Harmless (f a)] : Harmless (x >>= f) where
  confined t := allOn_bind (hx.confined t) fun a => (hf a).confined t

instance {c : Prop} [Decidable c] [hx : Harmless x] [hy : Harmless y] :
    Harmless (if c then x else y) := by
  split
  · exact hx
  · exact hy

theorem harmless_call {γ : Type} {e : Op γ} (h : ∀ t, Op.Spares t γ e) : Harmless (call e) where
  confined t := allOn_call.mpr (h t)

instance {idx : Nat} [h : DataReg idx] : Writable idx := by
  have hlt := h.lt
  have hssh : Reg.ssh.val = 0x3C := rfl
  have hsp : Reg.sp.val = 0x3B := rfl
  have hla : Reg.la.val = 0x3E := rfl
  have hsr : Reg.sr.val = 0x39 := rfl
  exact ⟨by omega, by omega, by omega, by omega⟩

instance {idx : Nat} [h : Writable idx] : Readable idx := ⟨h.ssh⟩

theorem Writable.agrees {idx : Nat} (h : Writable idx) (t : LoopFrame) (v : Word) :
    t.Agrees idx v :=
  ⟨fun he => absurd he h.la, fun he => absurd he h.sr, fun he => absurd he h.sr⟩

section Operations

variable (n idx : Nat) (v : Word) (d : Accumulator) (space : MemSpace)

instance : Harmless (setCycles n) := harmless_call fun _ => trivial

instance : Harmless (setInstLen n) := harmless_call fun _ => trivial

instance : Harmless (call (.setDecodeLen n : Op _)) := harmless_call fun _ => trivial

instance : Harmless (call (.setFaultAnchorBump n : Op _)) := harmless_call fun _ => trivial

instance : Harmless (loadReg idx) := harmless_call fun _ => trivial

instance [h : Writable idx] : Harmless (storeReg idx v) :=
  harmless_call fun t => ⟨h.sp, h.agrees t v⟩

instance : Harmless (loadAcc d) := harmless_call fun _ => trivial

instance (v : BitVec 64) : Harmless (storeAcc d v) := harmless_call fun _ => trivial

instance [h : Readable idx] : Harmless (readRegForMove idx) := harmless_call fun _ => h.ssh

instance [h : Writable idx] : Harmless (writeRegForMove idx v) :=
  harmless_call fun t => ⟨h.ssh, h.sp, h.agrees t v⟩

instance (lx ly : Word) : Harmless (call (.writeLReg v lx ly : Op _)) :=
  harmless_call fun _ => trivial

instance : Harmless (call (.readLReg v : Op _)) := harmless_call fun _ => trivial

instance (addr : Word) : Harmless (readMem space addr) := harmless_call fun _ => trivial

instance (addr : Word) : Harmless (readMemDyn space addr) := harmless_call fun _ => trivial

instance (addr : Word) [h : Fact (space ≠ .p)] : Harmless (writeMem space addr v) :=
  harmless_call fun _ => h.out

instance (addr : Word) [h : Fact (space ≠ .p)] : Harmless (writeMemDyn space addr v) :=
  harmless_call fun _ => h.out

instance (cc : CondCode) : Harmless (evalCcBool cc) := harmless_call fun _ => trivial

instance : Harmless (emitUpdateRn n v) := harmless_call fun _ => trivial

instance (inter : Nat) : Harmless (emitAddInterrupt inter) := harmless_call fun _ => trivial

instance : Harmless (call (.writeSsl v : Op _)) := harmless_call fun _ => trivial

instance : Fact (MemSpace.x ≠ .p) := ⟨by decide⟩

instance : Fact (MemSpace.y ≠ .p) := ⟨by decide⟩

instance (bit : Word) : Fact (MemSpace.xy bit ≠ .p) := ⟨xy_ne_p bit⟩

end Operations

/-! Numbers of data and address registers. -/

section Numbers

variable (v : Word)

theorem and_toNat_le (v m : Word) : (v &&& m).toNat ≤ m.toNat := by
  rw [BitVec.toNat_and]
  exact Nat.and_le_right

theorem dataReg_of_lt {base k n : Nat} (h : base + n ≤ 0x30) (hk : k < n) : DataReg (base + k) :=
  ⟨by omega⟩

theorem dataReg_add {base k : Nat} {m : Word} (h : base + m.toNat < 0x30)
    (hk : k ≤ m.toNat) : DataReg (base + k) := ⟨by omega⟩

instance : DataReg (Reg.r0.val + (v &&& 7).toNat) :=
  dataReg_add (by decide) (and_toNat_le v 7)

instance : DataReg (Reg.n0.val + (v &&& 7).toNat) :=
  dataReg_add (by decide) (and_toNat_le v 7)

instance : DataReg (Reg.a.val + (v &&& 1).toNat) := dataReg_add (by decide) (and_toNat_le v 1)

instance : DataReg (Reg.x0.val + (v &&& 1).toNat) := dataReg_add (by decide) (and_toNat_le v 1)

instance : DataReg (Reg.y0.val + (v &&& 1).toNat) := dataReg_add (by decide) (and_toNat_le v 1)

instance : DataReg (v &&& 0x1F).toNat where
  lt := Nat.lt_of_le_of_lt (and_toNat_le v 0x1F) (by decide)

/-- The register field of a Pm4 or Pm5 move has five bits. -/
instance (u : Word) : DataReg ((u &&& 7) ||| (v &&& (3 <<< 3))).toNat where
  lt := by
    have hu : (u &&& (7 : Nat)).toNat < 2 ^ 5 :=
      Nat.lt_of_le_of_lt (and_toNat_le u _) (by decide)
    have hv : (v &&& (3 <<< 3 : Nat)).toNat < 2 ^ 5 :=
      Nat.lt_of_le_of_lt (and_toNat_le v _) (by decide)
    rw [BitVec.toNat_or]
    exact Nat.lt_of_lt_of_le (Nat.or_lt_two_pow hu hv) (by decide)

instance {c : Prop} [Decidable c] {i j : Nat} [hi : DataReg i] [hj : DataReg j] :
    DataReg (if c then i else j) := by
  split
  · exact hi
  · exact hj

end Numbers

/-! Emitters of moves, tests and data operations. -/

section Emitters

variable (ea b : Byte) (w : Bool) (space : MemSpace) (d : Accumulator)
  (opcode nextWord v : Word) (alu : ParallelAlu)

instance (n : Nat) : Harmless (loadNnSigned n) := by
  unfold loadNnSigned
  infer_instance

instance : Harmless (emitCalcEaExt v nextWord) := by
  unfold emitCalcEaExt
  split <;> infer_instance

instance : Harmless (emitCalcEa v) := by
  unfold emitCalcEa
  infer_instance

instance (e : Word × Bool) : Harmless (readEa space e) := by
  unfold readEa
  infer_instance

instance (s : Option RegIdx) : Harmless (controlWord s nextWord) := by
  cases s <;> unfold controlWord <;> infer_instance

instance : Harmless (emitParallelAlu alu) := harmless_call fun _ => trivial

instance : Harmless (updateCarryFromBit v b) := harmless_call fun _ => trivial

instance (acc : Option (RegIdx × RegIdx)) : Harmless (tccAcc acc) := by
  cases acc <;> unfold tccAcc <;> infer_instance

instance : Harmless (emitParallelEa v nextWord) := by
  unfold emitParallelEa
  infer_instance

instance {write : Word → Emit Unit} [∀ v, Harmless (write v)] (r : Option Word) :
    Harmless (writeBack write r) := by
  cases r <;> unfold writeBack <;> infer_instance

instance (bits : Word) (r0 r1 : RegIdx) [h0 : DataReg r0.val] [h1 : DataReg r1.val] :
    DataReg (pairReg r0 r1 bits) := by
  unfold pairReg
  split
  · exact h0
  · exact h1
  · exact ⟨by decide⟩
  · exact ⟨by decide⟩

instance : DataReg Reg.x0.val := ⟨by decide⟩
instance : DataReg Reg.x1.val := ⟨by decide⟩
instance : DataReg Reg.y0.val := ⟨by decide⟩
instance : DataReg Reg.y1.val := ⟨by decide⟩

instance : Harmless (emitPm0 opcode alu nextWord) := by
  unfold emitPm0
  dsimp only
  infer_instance

instance : Harmless (emitPm1 opcode alu nextWord) := by
  unfold emitPm1
  dsimp only
  infer_instance

instance (updateCcr : Bool) : Harmless (dataPath (.ifcc opcode alu updateCcr)) :=
  harmless_call fun _ => trivial

instance : Harmless (emitPm22 opcode alu) := by
  unfold emitPm22
  infer_instance

instance : Harmless (emitPm3 opcode alu) := by
  unfold emitPm3
  dsimp only
  infer_instance

instance : Harmless (emitPm2 opcode alu) := by
  unfold emitPm2
  infer_instance

instance : Harmless (emitPm4x opcode alu nextWord) := by
  unfold emitPm4x
  dsimp only
  infer_instance

instance : Harmless (emitPm5 opcode alu nextWord) := by
  unfold emitPm5
  dsimp only
  infer_instance

instance : Harmless (emitPm4 opcode alu nextWord) := by
  unfold emitPm4
  infer_instance

instance : Harmless (emitPm8 opcode alu) := by
  unfold emitPm8
  dsimp only
  infer_instance

end Emitters

end Emitter

namespace Instruction

open Emitter

/-- A register that holds part of the loop frame. -/
def holdsFrame (r : Byte) : Bool := r.toNat = Reg.la.val || r.toNat = Reg.sr.val

/-- What the screens let through: moves into LA and SR, bit operations on LA and on LF and FV,
AND and OR to MR that change LF, and the stack through a move with a long displacement. -/
def slipsThrough : Instruction → Bool
  | .movecImm _ dest => holdsFrame dest
  | .movecReg src dst w => src ≠ dst && holdsFrame (if w then dst else src)
  | .movecEa _ n w _ | .movecAa _ n w _ | .movemEa _ n w | .movemAa _ n w => w && holdsFrame n
  | .movep0 _ r w _ | .movepQqR _ r w _ => !w && holdsFrame r
  | .moveLongDisp _ w _ n =>
    n.toNat = Reg.ssh.val || (w && (n.toNat = Reg.sp.val || holdsFrame n))
  | .bclrReg r b | .bsetReg r b | .bchgReg r b =>
    (r.toNat = Reg.la.val && b.toNat < 24) ||
      (r.toNat = Reg.sr.val && (b.toNat = Sr.lf || b.toNat = Sr.fv))
  | .andI imm dest => dest = 0 && !imm.getLsbD 7
  | .orI imm dest => dest = 0 && imm.getLsbD 7
  | _ => false

end Instruction

namespace Emitter

open Instruction

theorem harmless_data {len cycles : Nat} {path : DataPath}
    (h : ∀ t, Op.Spares t Unit (.data path)) : Harmless (emitData len cycles path) := by
  have : Harmless (dataPath path) := harmless_call h
  unfold emitData
  infer_instance

section Emitters

variable (ea b : Byte) (w : Bool) (space : MemSpace) (nextWord v : Word) (op : BitOp)

instance [Fact (space ≠ .p)] : Harmless (emitBitOpMem space v b op) := by
  unfold emitBitOpMem
  infer_instance

instance : Harmless (emitBitOpMem space v b .test) := by
  unfold emitBitOpMem
  dsimp only [applyBitOp, writeBack]
  infer_instance

instance [Fact (space ≠ .p)] : Harmless (emitBitOpEa space ea b op nextWord) := by
  unfold emitBitOpEa
  infer_instance

instance : Harmless (emitBitOpEa space ea b .test nextWord) := by
  unfold emitBitOpEa
  dsimp only [applyBitOp, writeBack]
  infer_instance

instance [Readable b.toNat] : Harmless (readRegForStore b) := by
  unfold readRegForStore
  infer_instance

instance : Harmless emitNop := by
  unfold emitNop
  infer_instance

instance : Harmless emitReset := by
  unfold emitReset
  infer_instance

instance (n : Nat) : Harmless (emitNopLike n) := by
  unfold emitNopLike
  infer_instance

instance (s1 : Option RegIdx) (s2 d : Accumulator) (unsigned : Bool) :
    Harmless (emitExtract s1 s2 d nextWord unsigned) := by
  unfold emitExtract
  have (control : Word) : Harmless (dataPath (.extract control s2 d unsigned)) :=
    harmless_call fun _ => trivial
  infer_instance

instance (s1 : Option RegIdx) (s2 : RegIdx) (d : Accumulator) :
    Harmless (emitInsert s1 s2 d nextWord) := by
  unfold emitInsert
  have (control : Word) : Harmless (dataPath (.insert control s2 d)) :=
    harmless_call fun _ => trivial
  infer_instance

instance (d : Accumulator) : Harmless (emitVsl d ea b nextWord) := by
  unfold emitVsl
  infer_instance

instance [h : Harmless (emitBitOpMem space (ppAddr b) ea op)] :
    Harmless (emitBitOpPp space b ea op) := h

instance [h : Harmless (emitBitOpMem space (qqAddr b) ea op)] :
    Harmless (emitBitOpQq space b ea op) := h

instance [h : Harmless (emitBitOpMem space (b.setWidth 32) ea op)] :
    Harmless (emitBitOpAa space b ea op) := h

instance (opcode : Word) (moveType : ParallelMoveType) (alu : ParallelAlu) :
    Harmless (emitParallel opcode moveType alu nextWord) := by
  unfold emitParallel
  cases moveType <;> infer_instance

end Emitters

theorem readable_of_stackish {r : Byte} (h : mayArmStackFault.stackish r = false) :
    Readable r.toNat :=
  ⟨(stackish_eq_false.mp h).2.1⟩

theorem holdsFrame_eq_false {r : Byte} :
    holdsFrame r = false ↔ r.toNat ≠ Reg.la.val ∧ r.toNat ≠ Reg.sr.val := by
  simp [holdsFrame]

theorem writable_of_holdsFrame {r : Byte} (h : mayArmStackFault.stackish r = false)
    (hl : holdsFrame r = false) : Writable r.toNat := by
  obtain ⟨hsp, hssh, -⟩ := stackish_eq_false.mp h
  obtain ⟨hla, hsr⟩ := holdsFrame_eq_false.mp hl
  exact ⟨hssh, hsp, hla, hsr⟩

/-- A register moved to itself. -/
theorem harmless_moveReg_self {r : Byte} (h : mayArmStackFault.stackish r = false) :
    Harmless (moveReg r r) := by
  obtain ⟨hsp, hssh, -⟩ := stackish_eq_false.mp h
  refine ⟨fun t => ⟨hssh, fun v hv => ?_⟩⟩
  exact ⟨⟨hssh, hsp, hv⟩, fun _ _ => trivial⟩

/-- A bit operation that `slipsThrough` does not name keeps what the frame holds. -/
theorem applyBitOp_agrees {t : LoopFrame} {r b : Byte} {v u : Word} {op : BitOp}
    (hla : r.toNat = Reg.la.val → 24 ≤ b.toNat)
    (hsr : r.toNat = Reg.sr.val → b.toNat ≠ Sr.lf ∧ b.toNat ≠ Sr.fv)
    (hv : t.Agrees r.toNat v) (hu : applyBitOp v b op = some u) : t.Agrees r.toNat u := by
  have hbit (i : Nat) (hi : i ≠ b.toNat) : u.getLsbD i = v.getLsbD i := by
    have hone : (1#32 <<< b.toNat).getLsbD i = false := by
      rw [BitVec.getLsbD_shiftLeft, BitVec.getLsbD_one]
      grind
    cases op with
    | clear =>
      obtain rfl := Option.some.inj hu
      show (v &&& ~~~(1#32 <<< b.toNat)).getLsbD i = _
      rw [BitVec.getLsbD_and, BitVec.getLsbD_not, hone]
      by_cases h32 : i < 32
      · simp [h32]
      · rw [BitVec.getLsbD_of_ge v i (by omega), Bool.false_and]
    | set =>
      obtain rfl := Option.some.inj hu
      show (v ||| (1#32 <<< b.toNat)).getLsbD i = _
      rw [BitVec.getLsbD_or, hone, Bool.or_false]
    | toggle =>
      obtain rfl := Option.some.inj hu
      show (v ^^^ (1#32 <<< b.toNat)).getLsbD i = _
      rw [BitVec.getLsbD_xor, hone, Bool.xor_false]
    | test => cases hu
  refine ⟨fun he => ?_, fun he => ?_, fun he => ?_⟩
  · rw [← hv.la he]
    apply BitVec.eq_of_getLsbD_eq
    intro i hi
    have hb := hla he
    rw [BitVec.getLsbD_setWidth, BitVec.getLsbD_setWidth, hbit i (by omega)]
  · rw [hbit _ (hsr he).1.symm, hv.lf he]
  · rw [hbit _ (hsr he).2.symm, hv.fv he]

theorem readBitReg_allOn {α : Type} {t : LoopFrame} {r : Byte} {op : BitOp} {f : Word → Emit α}
    (hr : r.toNat ≠ Reg.ssh.val)
    (hf : ∀ v, t.Agrees r.toNat v → (f v).AllOn (Op.Answers t) (Op.Spares t)) :
    (readBitReg r op >>= f).AllOn (Op.Answers t) (Op.Spares t) := by
  unfold readBitReg
  rw [if_neg (fun h => hr h.1)]
  split
  · exact ⟨hr, hf⟩
  · exact ⟨trivial, hf⟩

theorem writeBitReg_allOn {t : LoopFrame} {r : Byte} {u : Word}
    (hr : mayArmStackFault.stackish r = false) (hu : t.Agrees r.toNat u) :
    (writeBitReg r u).AllOn (Op.Answers t) (Op.Spares t) := by
  obtain ⟨hsp, hssh, hssl⟩ := stackish_eq_false.mp hr
  unfold writeBitReg
  rw [if_neg hssh, if_neg hssl, if_neg hsp]
  split
  · exact allOn_call.mpr ⟨hssh, hsp, hu⟩
  · exact allOn_call.mpr ⟨hsp, hu⟩

theorem harmless_bitOpReg {r b : Byte} {op : BitOp} (hr : mayArmStackFault.stackish r = false)
    (hkeep : ∀ (t : LoopFrame) v u, t.Agrees r.toNat v → applyBitOp v b op = some u →
      t.Agrees r.toNat u) : Harmless (emitBitOpReg r b op) := by
  refine ⟨fun t => ⟨trivial, fun _ _ => ⟨trivial, fun _ _ => ?_⟩⟩⟩
  apply readBitReg_allOn (stackish_eq_false.mp hr).2.1
  intro v hv
  apply allOn_bind
  · cases hu : applyBitOp v b op with
    | none => exact trivial
    | some u => exact writeBitReg_allOn hr (hkeep t v u hv hu)
  · intro _
    split
    · exact allOn_call.mpr trivial
    · exact trivial

theorem harmless_bitOpReg_of_slips {r b : Byte} {op : BitOp}
    (hr : mayArmStackFault.stackish r = false) (hslip : (bsetReg r b).slipsThrough = false) :
    Harmless (emitBitOpReg r b op) := by
  simp only [slipsThrough, Bool.or_eq_false_iff, Bool.and_eq_false_iff, decide_eq_false_iff_not]
    at hslip
  refine harmless_bitOpReg hr fun t v u hv hu => applyBitOp_agrees ?_ ?_ hv hu
  · intro hla
    exact Nat.le_of_not_lt (hslip.1.resolve_left (not_not.mpr hla))
  · intro hsr
    exact hslip.2.resolve_left (not_not.mpr hsr)

/-- AND to MR keeps LF where bit 7 of the mask is set; FV is in the extended mode register. -/
theorem andiSr_agrees {t : LoopFrame} {imm dest : Byte} {sr : Word}
    (hslip : (andI imm dest).slipsThrough = false) (h : t.Agrees Reg.sr.val sr) :
    t.Agrees Reg.sr.val (andiSr imm dest sr) := by
  have hsr : ¬ Reg.sr.val = Reg.la.val := by decide
  unfold andiSr
  split
  · rename_i h0
    have hdest : dest = 0 := BitVec.eq_of_toNat_eq h0
    have himm : imm.getLsbD 7 = true := by simpa [slipsThrough, hdest] using hslip
    refine ⟨fun he => absurd he hsr, fun _ => ?_, fun _ => ?_⟩
    · rw [← h.lf rfl]
      simp [Sr.lf, himm]
    · rw [← h.fv rfl]
      simp [Sr.fv]
  · refine ⟨fun he => absurd he hsr, fun _ => ?_, fun _ => ?_⟩
    · rw [← h.lf rfl]
      simp [Sr.lf]
    · rw [← h.fv rfl]
      simp [Sr.fv]
  · exact h

theorem oriSr_agrees {t : LoopFrame} {imm dest : Byte} {sr : Word}
    (hslip : (orI imm dest).slipsThrough = false) (h : t.Agrees Reg.sr.val sr) :
    t.Agrees Reg.sr.val (oriSr imm dest sr) := by
  have hsr : ¬ Reg.sr.val = Reg.la.val := by decide
  unfold oriSr
  split
  · rename_i h0
    have hdest : dest = 0 := BitVec.eq_of_toNat_eq h0
    have himm : imm[7] = false := by simpa [slipsThrough, hdest] using hslip
    refine ⟨fun he => absurd he hsr, fun _ => ?_, fun _ => ?_⟩
    · rw [← h.lf rfl]
      simp [Sr.lf, himm]
    · rw [← h.fv rfl]
      simp [Sr.fv]
  · refine ⟨fun he => absurd he hsr, fun _ => ?_, fun _ => ?_⟩
    · rw [← h.lf rfl]
      simp [Sr.lf]
    · rw [← h.fv rfl]
      simp [Sr.fv]
  · exact h

theorem harmless_body {inst : Instruction} (hop : inst.OperandsOk)
    (harm : inst.mayArmStackFault = false) (hrep : inst.isRepInstruction = false)
    (hdo : inst.isDoInstruction = false) (hterm : inst.isBlockTerminator = false)
    (hp : inst.writesPMemory = false) (hslip : inst.slipsThrough = false) (pc nextWord : Word) :
    Harmless (emitInstructionBody inst pc nextWord) := by
  cases inst with
  | movecImm imm dest =>
    have := writable_of_holdsFrame harm hslip
    dsimp only [emitInstructionBody, emitMovecImm]
    infer_instance
  | movecReg src dst w =>
    obtain ⟨hsrc, hdst⟩ := Bool.or_eq_false_iff.mp harm
    have hs := readable_of_stackish hsrc
    have hd := readable_of_stackish hdst
    by_cases heq : src = dst
    · subst heq
      have := harmless_moveReg_self hsrc
      dsimp only [emitInstructionBody, emitMovecReg]
      infer_instance
    · have hframe : holdsFrame (if w then dst else src) = false := by
        simpa [slipsThrough, heq] using hslip
      dsimp only [emitInstructionBody, emitMovecReg, moveReg]
      cases w with
      | false =>
        have := writable_of_holdsFrame hsrc hframe
        simp only [Bool.false_eq_true, ↓reduceIte]
        infer_instance
      | true =>
        have := writable_of_holdsFrame hdst hframe
        simp only [↓reduceIte]
        infer_instance
  | movecEa ea n w space =>
    have : Fact (space ≠ .p) := ⟨hop⟩
    have := readable_of_stackish harm
    cases w with
    | false =>
      simp only [emitInstructionBody, emitMovecEa, Bool.false_eq_true, ↓reduceIte]
      infer_instance
    | true =>
      have := writable_of_holdsFrame harm hslip
      simp only [emitInstructionBody, emitMovecEa, ↓reduceIte]
      infer_instance
  | movecAa addr n w space =>
    have : Fact (space ≠ .p) := ⟨hop⟩
    have := readable_of_stackish harm
    cases w with
    | false =>
      simp only [emitInstructionBody, emitMovecAa, Bool.false_eq_true, ↓reduceIte]
      infer_instance
    | true =>
      have := writable_of_holdsFrame harm hslip
      simp only [emitInstructionBody, emitMovecAa, ↓reduceIte]
      infer_instance
  | movemEa ea n w =>
    cases w with
    | false => exact Bool.noConfusion hp
    | true =>
      have := writable_of_holdsFrame harm hslip
      simp only [emitInstructionBody, emitMovemEa, ↓reduceIte]
      infer_instance
  | movemAa addr n w =>
    cases w with
    | false => exact Bool.noConfusion hp
    | true =>
      have := writable_of_holdsFrame harm hslip
      simp only [emitInstructionBody, emitMovemAa, ↓reduceIte]
      infer_instance
  | movep0 p r w space =>
    have : Fact (space ≠ .p) := ⟨hop⟩
    have := readable_of_stackish harm
    cases w with
    | false =>
      have := writable_of_holdsFrame harm hslip
      simp only [emitInstructionBody, emitMovep0, Bool.false_eq_true, ↓reduceIte]
      infer_instance
    | true =>
      simp only [emitInstructionBody, emitMovep0, ↓reduceIte]
      infer_instance
  | movepQqR q r w space =>
    have : Fact (space ≠ .p) := ⟨hop⟩
    have := readable_of_stackish harm
    cases w with
    | false =>
      have := writable_of_holdsFrame harm hslip
      simp only [emitInstructionBody, emitMovepQqR, Bool.false_eq_true, ↓reduceIte]
      infer_instance
    | true =>
      simp only [emitInstructionBody, emitMovepQqR, ↓reduceIte]
      infer_instance
  | movep1 p ea w space =>
    have : Fact (space ≠ .p) := ⟨hop⟩
    cases w with
    | false => exact Bool.noConfusion hp
    | true =>
      simp only [emitInstructionBody, emitMovep1, ↓reduceIte]
      infer_instance
  | movepQqPea q ea w space =>
    have : Fact (space ≠ .p) := ⟨hop⟩
    cases w with
    | false => exact Bool.noConfusion hp
    | true =>
      simp only [emitInstructionBody, emitMovepQqPea, ↓reduceIte]
      infer_instance
  | movep23 p ea w perspace easpace =>
    have : Fact (perspace ≠ .p) := ⟨hop.1⟩
    have : Fact (easpace ≠ .p) := ⟨hop.2⟩
    dsimp only [emitInstructionBody, emitMovep23]
    cases w <;> infer_instance
  | movepQq q ea w qqspace easpace =>
    have : Fact (qqspace ≠ .p) := ⟨hop.1⟩
    have : Fact (easpace ≠ .p) := ⟨hop.2⟩
    dsimp only [emitInstructionBody, emitMovepQq]
    infer_instance
  | moveLongDisp space w a n =>
    have : Fact (space ≠ .p) := ⟨hop⟩
    simp only [slipsThrough, Bool.or_eq_false_iff, decide_eq_false_iff_not] at hslip
    have : Readable n.toNat := ⟨hslip.1⟩
    dsimp only [emitInstructionBody, emitMoveLongDisp, emitMoveDisp]
    cases w with
    | false =>
      simp only [Bool.false_eq_true, ↓reduceIte]
      infer_instance
    | true =>
      simp only [Bool.true_and, Bool.or_eq_false_iff, decide_eq_false_iff_not] at hslip
      obtain ⟨hla, hsr⟩ := holdsFrame_eq_false.mp hslip.2.2
      have : Writable n.toNat := ⟨hslip.1, hslip.2.1, hla, hsr⟩
      simp only [↓reduceIte]
      infer_instance
  | moveShortDisp space offset w a n =>
    have : Fact (space ≠ .p) := ⟨hop.1⟩
    have : DataReg n.toNat := ⟨Nat.lt_trans hop.2 (by decide)⟩
    dsimp only [emitInstructionBody, emitMoveShortDisp, emitMoveDisp]
    infer_instance
  | bclrReg r b => exact harmless_bitOpReg_of_slips harm hslip
  | bsetReg r b => exact harmless_bitOpReg_of_slips harm hslip
  | bchgReg r b => exact harmless_bitOpReg_of_slips harm hslip
  | btstReg r b => exact harmless_bitOpReg harm fun _ _ _ _ hu => nomatch hu
  | andI imm dest => exact harmless_data fun _ _ h => andiSr_agrees hslip h
  | orI imm dest => exact harmless_data fun _ _ h => oriSr_agrees hslip h
  | lua ea d =>
    have : DataReg d.toNat := ⟨Nat.lt_trans hop (by decide)⟩
    have : DataReg (Reg.r0.val + (ea &&& 7).toNat) :=
      dataReg_of_lt (n := 8) (by decide) (Nat.lt_of_le_of_lt Nat.and_le_right (by decide))
    dsimp only [emitInstructionBody, emitLua]
    infer_instance
  | lraRn a d =>
    have : DataReg d.toNat := ⟨Nat.lt_trans hop (by decide)⟩
    dsimp only [emitInstructionBody, emitLraRn]
    infer_instance
  | lraDisp d =>
    have : DataReg d.toNat := ⟨Nat.lt_trans hop (by decide)⟩
    dsimp only [emitInstructionBody, emitLraDisp]
    infer_instance
  | luaRel aa a d n =>
    have : DataReg (Reg.n0.val + d.toNat) := dataReg_of_lt (by decide) hop
    have : DataReg (Reg.r0.val + d.toNat) := dataReg_of_lt (by decide) hop
    dsimp only [emitInstructionBody, emitLuaRel]
    infer_instance
  | tcc cond acc r =>
    have : Harmless (tccR r) := by
      cases r with
      | none => exact inferInstanceAs (Harmless (pure ()))
      | some r =>
        have : DataReg (Reg.r0.val + r.2.toNat) := dataReg_of_lt (by decide) (hop r.1 r.2 rfl)
        unfold tccR
        infer_instance
    dsimp only [emitInstructionBody, emitTcc]
    infer_instance
  | _ =>
    first
    | exact Bool.noConfusion hterm
    | exact Bool.noConfusion hrep
    | exact Bool.noConfusion hdo
    | exact Bool.noConfusion harm
    | exact harmless_data fun _ => trivial
    | (dsimp only [emitInstructionBody]; infer_instance)
    | (have : Fact (_ ≠ MemSpace.p) := ⟨hop⟩; dsimp only [emitInstructionBody]; infer_instance)

/-! Code that is not. -/

/-- Code that reaches, from every frame, an operation it should not. -/
class Disrupts {α : Type} (x : Emit α) : Prop where
  reaches : ∀ t : LoopFrame, ¬ x.AllOn (Op.Answers t) (Op.Spares t)

theorem exists_agrees (t : LoopFrame) (idx : Nat) : ∃ v, t.Agrees idx v := by
  by_cases hla : idx = Reg.la.val
  · have hsr : ¬ idx = Reg.sr.val := by
      rw [hla]
      decide
    refine ⟨t.la.setWidth 32, fun _ => ?_, fun he => absurd he hsr, fun he => absurd he hsr⟩
    exact BitVec.setWidth_setWidth_of_le _ (by decide)
  · refine ⟨(BitVec.ofBool t.lf).setWidth 32 <<< Sr.lf ||| (BitVec.ofBool t.fv).setWidth 32 <<< Sr.fv,
      fun he => absurd he hla, fun _ => ?_, fun _ => ?_⟩
    · cases t.lf <;> cases t.fv <;> rfl
    · cases t.lf <;> cases t.fv <;> rfl

/-- Every operation has an answer. -/
theorem exists_answer (t : LoopFrame) (γ : Type) (op : Op γ) : ∃ v, Op.Answers t γ op v := by
  cases op with
  | loadReg idx | readRegForMove idx => exact exists_agrees t idx
  | loadInterruptState => exact ⟨.none, trivial⟩
  | _ => exact ⟨default, trivial⟩

section Disrupts

set_option linter.constructorNameAsVariable false

variable {α β : Type} {x : Emit α} {f : α → Emit β}

/-- No operation of the code is tracked. -/
theorem always_untracked (x : Emit α) : Always (fun _ _ _ => ()) (fun _ _ => True) x () :=
  always_of_forall (fun _ _ => trivial) x ()

instance [hx : Disrupts x] : Disrupts (x >>= f) where
  reaches t h := hx.reaches t h.of_bind

instance [hf : ∀ a, Disrupts (f a)] : Disrupts (x >>= f) where
  reaches t h := by
    obtain ⟨a, -, -, ha⟩ := h.continue (exists_answer t) (always_untracked x)
    exact (hf a).reaches t ha

instance (v : Word) : Disrupts (storePc v) where
  reaches _ h := h.1

instance (st : PowerState) : Disrupts (call (.storePowerState st : Op _)) where
  reaches _ h := h.1

instance (addr v : Word) : Disrupts (writeMemDyn .p addr v) where
  reaches _ h := h.1 rfl

theorem disrupts_taken {len : Nat} {arm : Emit Unit} (harm : Disrupts arm) :
    Disrupts (emitTaken true len arm) :=
  inferInstanceAs (Disrupts (arm >>= fun _ => setInstLen 0))

instance (cc : CondCode) (len : Nat) {arm : Emit Unit} [h : Disrupts arm] :
    Disrupts (evalCcBool cc >>= fun taken => emitTaken taken len arm) where
  reaches t ha := (disrupts_taken h).reaches t (ha.2 true trivial)

instance (nextWord : Word) (branch : BitTestBranch) : Disrupts (emitBitTestTaken nextWord branch) := by
  cases branch <;> unfold emitBitTestTaken <;> infer_instance

end Disrupts

theorem not_confined_of_disrupts {α : Type} {x : Emit α} (h : Disrupts x) : ¬ Confined x :=
  fun hx => h.reaches ⟨0, false, false⟩ (hx _)

/-- Some frame disagrees with a word written to LA or SR. -/
theorem holdsFrame_disagrees {t : LoopFrame} {r : Byte} {v : Word} (hr : holdsFrame r = true)
    (hla : v.setWidth 24 ≠ t.la) (hlf : v.getLsbD Sr.lf ≠ t.lf) : ¬ t.Agrees r.toNat v := by
  intro h
  simp only [holdsFrame, Bool.or_eq_true, decide_eq_true_eq] at hr
  rcases hr with he | he
  · exact hla (h.la he)
  · exact hlf (h.lf he)

theorem against_disagrees {r : Byte} {v : Word} (hr : holdsFrame r = true) :
    ¬ (LoopFrame.against v).Agrees r.toNat v := by
  apply holdsFrame_disagrees hr
  · intro h
    have hbit := congrArg (fun w : BitVec 24 => w.getLsbD 0) h
    simp [LoopFrame.against] at hbit
  · simp [LoopFrame.against]

/-- Code that writes `v` to LA or SR, against that frame. -/
theorem write_against {r : Byte} {v : Word} (hr : holdsFrame r = true) :
    ¬ (writeRegForMove r.toNat v).AllOn (Op.Answers (.against v)) (Op.Spares (.against v)) :=
  fun h => against_disagrees hr h.1.2.2

/-- The immediate of a mode-6 operand is the extension word. -/
theorem emitCalcEaExt_immediate (eaMode nextWord : Word) :
    Always (fun _ _ _ => ()) (fun ea _ => ea.2 = true → ea.1 = nextWord)
      (emitCalcEaExt eaMode nextWord) () := by
  unfold emitCalcEaExt
  dsimp only
  split <;> simp [loadReg, storeReg, setCycles, loadNnSigned, emitUpdateRn]

theorem readEa_write_against {space : MemSpace} {ea : Word × Bool} {r : Byte} {v : Word}
    (hr : holdsFrame r = true) (hv : ea.2 = true → ea.1 = v) :
    ¬ (readEa space ea >>= fun v => writeRegForMove r.toNat v).AllOn
      (Op.Answers (.against v)) (Op.Spares (.against v)) := by
  unfold readEa
  split
  · rename_i himm
    rw [hv himm]
    exact write_against hr
  · exact fun h => write_against hr (h.2 v trivial)

theorem disrupts_spill {n : Nat} (h : n = Reg.ssh.val) : Disrupts (readRegForMove n) where
  reaches _ ha := ha.1 h

theorem disrupts_stack {n : Nat} (h : n = Reg.ssh.val ∨ n = Reg.sp.val) (v : Word) :
    Disrupts (writeRegForMove n v) where
  reaches _ ha := h.elim ha.1.1 ha.1.2.1

/-- A bit test whose operand may read `v`. -/
theorem readBitTestOperand_allOn {α : Type} {t : LoopFrame} {addr : BitTestAddr} {f : Word → Emit α}
    {v : Word} (haddr : ∀ r, addr = .reg r → r.toNat ≠ Reg.ssh.val) (hv : ∀ idx, t.Agrees idx v)
    (h : (readBitTestOperand addr >>= f).AllOn (Op.Answers t) (Op.Spares t)) :
    (f v).AllOn (Op.Answers t) (Op.Spares t) := by
  cases addr with
  | pp | qq | aa => exact h.2 v trivial
  | reg r =>
    have hread : readBitTestOperand (.reg r) = loadReg r.toNat := if_neg (haddr r rfl)
    rw [hread] at h
    exact h.2 v (hv _)
  | ea space eaMode =>
    have hread : readBitTestOperand (.ea space eaMode) =
        emitCalcEa (eaMode.setWidth 32) >>= fun ea => readMemDyn space ea.1 := rfl
    rw [hread, bind_bind] at h
    obtain ⟨ea, -, -, hea⟩ := h.continue (exists_answer t) (always_untracked _)
    exact hea.2 v trivial

theorem allOnes_bit {b : Nat} (hb : b < 32) : BitVec.allOnes 32 &&& ((1 : Word) <<< b) ≠ 0 := by
  rw [BitVec.allOnes_and]
  intro h
  have hbit := congrArg (fun w : Word => w.getLsbD b) h
  simp [hb] at hbit

theorem not_confined_bitTestBranch {addr : BitTestAddr} {b : Byte} {nextWord : Word}
    {testSet : Bool} {branch : BitTestBranch}
    (haddr : ∀ r, addr = .reg r → r.toNat ≠ Reg.ssh.val) (hb : b.toNat < 2 ^ 5) :
    ¬ Confined (emitBitTestBranch addr b nextWord testSet branch) := by
  intro h
  have htaken (t : LoopFrame) : ¬ (emitTaken true 2 (emitBitTestTaken nextWord branch)).AllOn
      (Op.Answers t) (Op.Spares t) := (disrupts_taken inferInstance).reaches t
  cases testSet with
  | false =>
    have hv (idx : Nat) : (⟨0, false, false⟩ : LoopFrame).Agrees idx 0 :=
      ⟨fun _ => rfl, fun _ => rfl, fun _ => rfl⟩
    have hpred := (h ⟨0, false, false⟩).2 () trivial
    unfold emitBitTestPredicate at hpred
    rw [bind_bind] at hpred
    have hcond := readBitTestOperand_allOn haddr hv hpred
    have hzero : (0 : Word) &&& ((1 : Word) <<< b.toNat) = 0 := BitVec.zero_and
    simp only [ret_bind, Bool.false_eq_true, ↓reduceIte, hzero, decide_true] at hcond
    exact htaken _ hcond
  | true =>
    have hv (idx : Nat) : (⟨BitVec.allOnes 24, true, true⟩ : LoopFrame).Agrees idx
        (BitVec.allOnes 32) := by
      refine ⟨fun _ => ?_, fun _ => ?_, fun _ => ?_⟩ <;> decide
    have hpred := (h ⟨BitVec.allOnes 24, true, true⟩).2 () trivial
    unfold emitBitTestPredicate at hpred
    rw [bind_bind] at hpred
    have hcond := readBitTestOperand_allOn haddr hv hpred
    simp only [ret_bind, ↓reduceIte, allOnes_bit hb, ne_eq, not_false_eq_true, decide_true]
      at hcond
    exact htaken _ hcond

theorem sshOrSp_of_stackish {r : Byte} (h : mayArmStackFault.stackish r = false) :
    isStackFaultCapable.sshOrSp r = false := by
  obtain ⟨hsp, hssh, -⟩ := stackish_eq_false.mp h
  simpa [isStackFaultCapable.sshOrSp, mayArmStackFault.stackish] using
    ⟨(Bool.or_eq_false_iff.mp (Bool.or_eq_false_iff.mp h).1).2,
      (Bool.or_eq_false_iff.mp (Bool.or_eq_false_iff.mp h).1).1⟩

theorem not_stackFaultCapable {inst : Instruction} (h : inst.mayArmStackFault = false) :
    inst.isStackFaultCapable = false := by
  cases inst with
  | btstReg | bsetReg | bchgReg | bclrReg | movecImm | movecEa | movecAa | movemEa | movemAa =>
    exact sshOrSp_of_stackish h
  | movecReg src dst w =>
    obtain ⟨hs, hd⟩ := Bool.or_eq_false_iff.mp h
    exact Bool.or_eq_false_iff.mpr ⟨sshOrSp_of_stackish hs, sshOrSp_of_stackish hd⟩
  | _ => rfl

theorem ssh_of_stackish {r : Byte} {addr : BitTestAddr} (h : mayArmStackFault.stackish r = false)
    (haddr : addr = .reg r) : ∀ r', addr = .reg r' → r'.toNat ≠ Reg.ssh.val := by
  rintro r' hr
  obtain rfl := BitTestAddr.reg.inj (haddr.symm.trans hr)
  exact (stackish_eq_false.mp h).2.1

/-- Whatever ends a block and arms no fault sets PC or the power state on some path. -/
theorem not_confined_terminator {inst : Instruction} (hop : inst.OperandsOk)
    (harm : inst.mayArmStackFault = false) (hdo : inst.isDoInstruction = false)
    (hterm : inst.isBlockTerminator = true) (pc nextWord : Word) :
    ¬ Confined (emitInstructionBody inst pc nextWord) := by
  unfold isBlockTerminator at hterm
  rw [not_stackFaultCapable harm, Bool.false_or] at hterm
  cases inst with
  | jclrReg | jsetReg | jsclrReg | jssetReg | brclrReg | brsetReg | bsclrReg | bssetReg =>
    dsimp only [emitInstructionBody]
    exact not_confined_bitTestBranch (ssh_of_stackish harm rfl) hop
  | jclrPp | jclrQq | jclrAa | jclrEa | jsetPp | jsetQq | jsetAa | jsetEa | jsclrPp | jsclrQq
  | jsclrAa | jsclrEa | jssetPp | jssetQq | jssetAa | jssetEa | brclrPp | brclrQq | brclrAa
  | brclrEa | brsetPp | brsetQq | brsetAa | brsetEa | bsclrPp | bsclrQq | bsclrAa | bsclrEa
  | bssetPp | bssetQq | bssetAa | bssetEa =>
    dsimp only [emitInstructionBody]
    exact not_confined_bitTestBranch (fun _ h => BitTestAddr.noConfusion h) hop
  | _ =>
    first
    | exact Bool.noConfusion hterm
    | exact Bool.noConfusion harm
    | exact Bool.noConfusion hdo
    | (apply not_confined_of_disrupts
       dsimp only [emitInstructionBody, emitBcc, emitBccLong, emitBra, emitBraLong, emitBsr,
         emitBsrLong, emitBccRn, emitBraRn, emitBsrRn, emitBscc, emitBsccLong, emitBsccRn,
         emitBrkcc, emitJcc, emitJccEa, emitJmp, emitJmpEa, emitJsr, emitJsrEa, emitJscc,
         emitJsccEa, emitWait, emitStop]
       infer_instance)

theorem not_confined_writesPMemory {inst : Instruction} (hp : inst.writesPMemory = true)
    (pc nextWord : Word) : ¬ Confined (emitInstructionBody inst pc nextWord) := by
  apply not_confined_of_disrupts
  cases inst with
  | movemEa ea n w =>
    cases w with
    | true => exact Bool.noConfusion hp
    | false =>
      simp only [emitInstructionBody, emitMovemEa, Bool.false_eq_true, ↓reduceIte]
      infer_instance
  | movemAa addr n w =>
    cases w with
    | true => exact Bool.noConfusion hp
    | false =>
      simp only [emitInstructionBody, emitMovemAa, Bool.false_eq_true, ↓reduceIte]
      infer_instance
  | movep1 p ea w space =>
    cases w with
    | true => exact Bool.noConfusion hp
    | false =>
      simp only [emitInstructionBody, emitMovep1, Bool.false_eq_true, ↓reduceIte]
      infer_instance
  | movepQqPea q ea w space =>
    cases w with
    | true => exact Bool.noConfusion hp
    | false =>
      simp only [emitInstructionBody, emitMovepQqPea, Bool.false_eq_true, ↓reduceIte]
      infer_instance
  | _ => exact Bool.noConfusion hp

theorem move_against {space : MemSpace} {addr : Word} {r : Byte} (hr : holdsFrame r = true) :
    ¬ (readMem space addr >>= writeRegForMove r.toNat).AllOn (Op.Answers (.against 0))
      (Op.Spares (.against 0)) := fun h => write_against hr (h.2 0 trivial)

theorem moveDyn_against {space : MemSpace} {addr : Word} {r : Byte} (hr : holdsFrame r = true) :
    ¬ (readMemDyn space addr >>= writeRegForMove r.toNat).AllOn (Op.Answers (.against 0))
      (Op.Spares (.against 0)) := fun h => write_against hr (h.2 0 trivial)

/-- A frame that a word read from another register breaks when it is written to LA or SR. -/
theorem moveReg_breaks {src dst : Byte} (hne : src ≠ dst) (hr : holdsFrame dst = true) :
    ¬ (moveReg src dst).AllOn (Op.Answers ⟨BitVec.allOnes 24, false, false⟩)
      (Op.Spares ⟨BitVec.allOnes 24, false, false⟩) := by
  have hnat : src.toNat ≠ dst.toNat := fun he => hne (BitVec.eq_of_toNat_eq he)
  simp only [holdsFrame, Bool.or_eq_true, decide_eq_true_eq] at hr
  intro h
  rcases hr with hla | hsr
  · have hsrc : src.toNat ≠ Reg.la.val := fun he => hnat (he.trans hla.symm)
    have hv := (h.2 0 ⟨fun he => absurd he hsrc, fun _ => rfl, fun _ => rfl⟩).1.2.2
    exact absurd (hv.la hla) (by decide)
  · have hsrc : src.toNat ≠ Reg.sr.val := fun he => hnat (he.trans hsr.symm)
    have hv := (h.2 (BitVec.allOnes 32)
      ⟨fun _ => by decide, fun he => absurd he hsrc, fun he => absurd he hsrc⟩).1.2.2
    exact absurd (hv.lf hsr) (by decide)

/-- A bit operation changes the bit it names, for some word. -/
theorem applyBitOp_flips {b : Byte} {op : BitOp} (hop : op ≠ .test) (hb : b.toNat < 32) :
    ∃ v u, applyBitOp v b op = some u ∧ u.getLsbD b.toNat ≠ v.getLsbD b.toNat := by
  cases op with
  | clear =>
    refine ⟨BitVec.allOnes 32, _, rfl, ?_⟩
    rw [BitVec.allOnes_and, BitVec.getLsbD_not, BitVec.getLsbD_allOnes]
    simp [hb]
  | set =>
    refine ⟨0, _, rfl, ?_⟩
    simp [hb]
  | toggle =>
    refine ⟨0, _, rfl, ?_⟩
    simp [hb]
  | test => exact absurd rfl hop

theorem not_confined_bitOpReg {r b : Byte} {op : BitOp} (hop : op ≠ .test)
    (hr : mayArmStackFault.stackish r = false)
    (hslip : (bsetReg r b).slipsThrough = true) : ¬ Confined (emitBitOpReg r b op) := by
  simp only [slipsThrough, Bool.or_eq_true, Bool.and_eq_true, decide_eq_true_eq] at hslip
  obtain ⟨hsp, hssh, hssl⟩ := stackish_eq_false.mp hr
  have hacc : isFullAcc r = false := by
    simp only [isFullAcc, Bool.or_eq_false_iff, decide_eq_false_iff_not]
    rcases hslip with ⟨he, -⟩ | ⟨he, -⟩ <;> rw [he] <;> decide
  have hb : b.toNat < 32 := by
    rcases hslip with ⟨-, hb⟩ | ⟨-, hb | hb⟩
    · omega
    · rw [hb]
      decide
    · rw [hb]
      decide
  obtain ⟨v, u, hu, hflip⟩ := applyBitOp_flips hop hb
  have hread : readBitReg r op = loadReg r.toNat := by
    unfold readBitReg
    rw [if_neg (fun h => hop h.2), hacc, if_neg Bool.false_ne_true]
  have hwrite : writeBitReg r u = storeReg r.toNat u := by
    unfold writeBitReg
    rw [if_neg hssh, if_neg hssl, if_neg hsp, hacc, if_neg Bool.false_ne_true]
  intro h
  let t : LoopFrame := ⟨v.setWidth 24, v.getLsbD Sr.lf, v.getLsbD Sr.fv⟩
  have hx := (((h t).2 () trivial).2 () trivial)
  rw [hread] at hx
  have hy : (writeBack (writeBitReg r) (applyBitOp v b op)).AllOn (Op.Answers t) (Op.Spares t) :=
    AllOn.of_bind (hx.2 v ⟨fun _ => rfl, fun _ => rfl, fun _ => rfl⟩)
  have hagree : t.Agrees r.toNat u := by
    have hz : (writeBack (writeBitReg r) (some u)).AllOn (Op.Answers t) (Op.Spares t) := hu ▸ hy
    dsimp only [writeBack] at hz
    rw [hwrite] at hz
    exact hz.1.2
  rcases hslip with ⟨hla, hlt⟩ | ⟨hsr, hlf | hfv⟩
  · have hbit := congrArg (fun w : BitVec 24 => w.getLsbD b.toNat) (hagree.la hla)
    simp only [t, BitVec.getLsbD_setWidth, hlt, decide_true, Bool.true_and] at hbit
    exact hflip hbit
  · rw [hlf] at hflip
    exact hflip (hagree.lf hsr)
  · rw [hfv] at hflip
    exact hflip (hagree.fv hsr)

theorem not_spares_andi {imm dest : Byte} (hslip : (andI imm dest).slipsThrough = true) :
    ¬ Op.Spares ⟨0, true, true⟩ Unit (.data (.andi imm dest)) := by
  simp only [slipsThrough, Bool.and_eq_true, decide_eq_true_eq, Bool.not_eq_true'] at hslip
  obtain ⟨rfl, hbit⟩ := hslip
  intro h
  have hsr : ¬ Reg.sr.val = Reg.la.val := by decide
  have hlf := (h (BitVec.allOnes 32) ⟨fun he => absurd he hsr, fun _ => by decide,
    fun _ => by decide⟩).lf rfl
  dsimp only [andiSr] at hlf
  rw [BitVec.allOnes_and] at hlf
  have himm : imm[7] = true := by simpa [Sr.lf] using hlf
  exact Bool.noConfusion (hbit.symm.trans himm)

theorem not_spares_ori {imm dest : Byte} (hslip : (orI imm dest).slipsThrough = true) :
    ¬ Op.Spares ⟨0, false, false⟩ Unit (.data (.ori imm dest)) := by
  simp only [slipsThrough, Bool.and_eq_true, decide_eq_true_eq] at hslip
  obtain ⟨rfl, hbit⟩ := hslip
  intro h
  have hsr : ¬ Reg.sr.val = Reg.la.val := by decide
  have hlf := (h 0 ⟨fun he => absurd he hsr, fun _ => rfl, fun _ => rfl⟩).lf rfl
  have himm : imm[7] = false := by simpa [oriSr, Sr.lf] using hlf
  exact Bool.noConfusion (hbit.symm.trans himm)

theorem not_confined_slip {inst : Instruction} (harm : inst.mayArmStackFault = false)
    (hslip : inst.slipsThrough = true) (pc nextWord : Word) :
    ¬ Confined (emitInstructionBody inst pc nextWord) := by
  cases inst with
  | movecImm imm dest =>
    exact fun h => write_against hslip (((h _).2 () trivial).2 () trivial)
  | movecReg src dst w =>
    obtain ⟨hne, hframe⟩ := (Bool.and_eq_true _ _).mp hslip
    have hne : src ≠ dst := of_decide_eq_true hne
    intro h
    have hmove := (((h ⟨BitVec.allOnes 24, false, false⟩).2 () trivial).2 () trivial).2 () trivial
    cases w with
    | false => exact moveReg_breaks hne.symm hframe (AllOn.of_bind hmove)
    | true => exact moveReg_breaks hne hframe (AllOn.of_bind hmove)
  | movecEa ea n w space =>
    obtain ⟨rfl, hframe⟩ := (Bool.and_eq_true _ _).mp hslip
    intro h
    have hcalc := ((h (.against nextWord)).2 () trivial).2 () trivial
    obtain ⟨a, -, ha, hrest⟩ := AllOn.continue (exists_answer _)
      (emitCalcEaExt_immediate (ea.setWidth 32) nextWord) hcalc
    exact readEa_write_against hframe ha hrest
  | movecAa addr n w space =>
    obtain ⟨rfl, hframe⟩ := (Bool.and_eq_true _ _).mp hslip
    exact fun h => move_against hframe (((h _).2 () trivial).2 () trivial)
  | movemEa ea n w =>
    obtain ⟨rfl, hframe⟩ := (Bool.and_eq_true _ _).mp hslip
    intro h
    have hcalc := ((h (.against 0)).2 () trivial).2 () trivial
    obtain ⟨a, -, -, hrest⟩ := AllOn.continue (exists_answer _)
      (always_untracked (emitCalcEaExt (ea.setWidth 32) nextWord)) hcalc
    exact moveDyn_against hframe hrest
  | movemAa addr n w =>
    obtain ⟨rfl, hframe⟩ := (Bool.and_eq_true _ _).mp hslip
    exact fun h => moveDyn_against hframe (((h _).2 () trivial).2 () trivial)
  | movep0 p r w space =>
    obtain ⟨hw, hframe⟩ := (Bool.and_eq_true _ _).mp hslip
    cases w with
    | true => exact Bool.noConfusion hw
    | false => exact fun h => move_against hframe (((h _).2 () trivial).2 () trivial)
  | movepQqR q r w space =>
    obtain ⟨hw, hframe⟩ := (Bool.and_eq_true _ _).mp hslip
    cases w with
    | true => exact Bool.noConfusion hw
    | false => exact fun h => move_against hframe (((h _).2 () trivial).2 () trivial)
  | moveLongDisp space w a n =>
    simp only [slipsThrough, Bool.or_eq_true, Bool.and_eq_true, decide_eq_true_eq] at hslip
    dsimp only [emitInstructionBody, emitMoveLongDisp, emitMoveDisp]
    cases w with
    | false =>
      have := disrupts_spill (hslip.resolve_right fun h => Bool.false_ne_true h.1)
      apply not_confined_of_disrupts
      simp only [Bool.false_eq_true, ↓reduceIte]
      infer_instance
    | true =>
      simp only [true_and] at hslip
      rcases or_assoc.mpr hslip with hstack | hframe
      · have := disrupts_stack hstack
        apply not_confined_of_disrupts
        simp only [↓reduceIte]
        infer_instance
      · obtain ⟨rn, hrn⟩ := exists_agrees (.against 0) (Reg.r0.val + a.toNat)
        exact fun h => moveDyn_against hframe ((((h _).2 () trivial).2 () trivial).2 rn hrn)
  | bclrReg r b => exact not_confined_bitOpReg BitOp.noConfusion harm hslip
  | bsetReg r b => exact not_confined_bitOpReg BitOp.noConfusion harm hslip
  | bchgReg r b => exact not_confined_bitOpReg BitOp.noConfusion harm hslip
  | andI imm dest =>
    exact fun h => not_spares_andi hslip (((h _).2 () trivial).2 () trivial).1
  | orI imm dest =>
    exact fun h => not_spares_ori hslip (((h _).2 () trivial).2 () trivial).1
  | _ => exact Bool.noConfusion hslip

/-- Where no fault is armed and no loop begun, the code is fit for a native loop if and only if the
instruction neither ends a block nor writes P memory nor slips through. -/
theorem emitInstruction_confined {inst : Instruction} (hop : inst.OperandsOk)
    (harm : inst.mayArmStackFault = false) (hrep : inst.isRepInstruction = false)
    (hdo : inst.isDoInstruction = false) (pc nextWord : Word) :
    Confined (emitInstruction inst pc nextWord) ↔ inst.slipsThrough = false ∧
      inst.isBlockTerminator = false ∧ inst.writesPMemory = false := by
  have hbody : Confined (emitInstruction inst pc nextWord) ↔
      Confined (emitInstructionBody inst pc nextWord) :=
    ⟨fun h t => (h t).2 () trivial, fun h t => ⟨trivial, fun _ _ => h t⟩⟩
  rw [hbody]
  constructor
  · intro h
    refine ⟨?_, ?_, ?_⟩ <;> by_contra hc <;> rw [Bool.not_eq_false] at hc
    · exact not_confined_slip harm hc pc nextWord h
    · exact not_confined_terminator hop harm hdo hc pc nextWord h
    · exact not_confined_writesPMemory hc pc nextWord h
  · rintro ⟨hslip, hterm, hp⟩
    exact (harmless_body hop harm hrep hdo hterm hp hslip pc nextWord).confined

end Emitter

/-- The screens an instruction passes to be inlined: as a plain instruction of a DO body, as the
target of a REP in one, or as the target of a REP in a block. -/
inductive Screen where
  | body
  | bodyRep
  | blockRep

/-- What each screen accepts. -/
inductive Inlined (p : Pram) : Screen → Instruction → Prop where
  | body {fuel depth la pc count : Nat} {skips : List Nat}
      (hscan : p.bodyScan fuel depth la pc count skips = some true) (hpc : pc ≤ la)
      (hskip : (p.instAt pc).forwardSkipTarget pc (p.nextWord pc) = none)
      (hdo : (p.instAt pc).isDoInstruction = false)
      (hrep : (p.instAt pc).isRepInstruction = false) : Inlined p .body (p.instAt pc)
  | bodyRep {fuel depth la pc count : Nat} {skips : List Nat}
      (hscan : p.bodyScan fuel depth la pc count skips = some true) (hpc : pc ≤ la)
      (hskip : (p.instAt pc).forwardSkipTarget pc (p.nextWord pc) = none)
      (hdo : (p.instAt pc).isDoInstruction = false)
      (hrep : (p.instAt pc).isRepInstruction = true) : Inlined p .bodyRep (p.instAt (pc + 1))
  | blockRep (pc : Nat) (hrep : (p.instAt pc).isRepInstruction = true)
      (hback : Pram.repFallsBack (decode (p.nextWord pc)) = false) :
      Inlined p .blockRep (decode (p.nextWord pc))

theorem Pram.instAt_operandsOk (p : Pram) (pc : Nat) : (p.instAt pc).OperandsOk :=
  decode_operandsOk _

namespace Inlined

open Instruction Pram Emitter

variable {p : Pram} {inst : Instruction}

/-- What the body scan asks of the instruction at hand. -/
theorem screened_of_scan {fuel depth la pc count : Nat} {skips : List Nat}
    (hscan : p.bodyScan fuel depth la pc count skips = some true) (hpc : pc ≤ la)
    (hskip : (p.instAt pc).forwardSkipTarget pc (p.nextWord pc) = none)
    (hdo : (p.instAt pc).isDoInstruction = false) : unsafeInBody (p.instAt pc) = false ∧
      ((p.instAt pc).isRepInstruction = true → unsafeRepTarget (p.instAt (pc + 1)) = false) := by
  cases fuel with
  | zero => simp [bodyScan] at hscan
  | succ fuel =>
    simp only [bodyScan, hpc, ↓reduceIte, hskip, hdo, Bool.false_eq_true] at hscan
    split at hscan
    · simp at hscan
    · split at hscan
      · simp at hscan
      · rename_i hsafe
        refine ⟨Bool.not_eq_true _ ▸ hsafe, fun hrep => ?_⟩
        simp only [hrep, ↓reduceIte] at hscan
        split at hscan
        · simp at hscan
        · rename_i htarget
          simp only [Bool.or_eq_true, not_or, Bool.not_eq_true] at htarget
          exact htarget.1.2

/-- What is inlined is fit for a native loop if and only if it does not slip through, and in a
block, where no other screen stands, neither ends the block nor writes P memory. -/
theorem confined_iff {screen : Screen} (h : Inlined p screen inst) (pc nextWord : Word) :
    Confined (emitInstruction inst pc nextWord) ↔ inst.slipsThrough = false ∧
      (screen = .blockRep → inst.isBlockTerminator = false ∧ inst.writesPMemory = false) := by
  cases h with
  | body hscan hpc hskip hdo hrep =>
    have hsafe := (screened_of_scan hscan hpc hskip hdo).1
    simp only [unsafeInBody, Bool.or_eq_false_iff] at hsafe
    obtain ⟨⟨⟨hterm, -⟩, hp⟩, harm⟩ := hsafe
    rw [emitInstruction_confined (p.instAt_operandsOk _) harm hrep hdo]
    simp [hterm, hp]
  | bodyRep hscan hpc hskip hdo hrep =>
    have hsafe := (screened_of_scan hscan hpc hskip hdo).2 hrep
    simp only [unsafeRepTarget, Bool.or_eq_false_iff] at hsafe
    obtain ⟨⟨⟨⟨⟨hterm, -⟩, hp⟩, harm⟩, hrep'⟩, hdo'⟩ := hsafe
    rw [emitInstruction_confined (p.instAt_operandsOk _) harm hrep' hdo']
    simp [hterm, hp]
  | blockRep pc hrep hback =>
    simp only [repFallsBack, Bool.or_eq_false_iff] at hback
    obtain ⟨⟨harm, hrep'⟩, hdo'⟩ := hback
    rw [emitInstruction_confined (decode_operandsOk _) harm hrep' hdo']
    simp

theorem decode_move_ssh : decode 0x0A70FC = .moveLongDisp .x true 0 0x3C := by
  rw [decode_at 135 rfl (by decide) (by decide) (by decide)]
  rfl

theorem decode_jmp : decode 0x0C0000 = .jmp 0 := by
  rw [decode_at 100 rfl (by decide) (by decide) (by decide)]
  rfl

theorem decode_rep : decode 0x0605A0 = .repImm 5 := by
  rw [decode_at 170 rfl (by decide) (by decide) (by decide)]
  rfl

/-- A DO body of one move to SSH at 2, and a REP of a jump at 4. -/
def slippingPram : Pram := ⟨8, fun
  | 2 => 0x0A70FC
  | 4 => 0x0605A0
  | 5 => 0x0C0000
  | _ => 0⟩

/-- A DO body of one instruction that the body screen passes. -/
theorem scan_single {pc : Nat} (hinst : p.instAt pc = inst) (hend : pc < p.spaceEnd)
    (hskip : inst.forwardSkipTarget pc (p.nextWord pc) = none) (hdo : inst.isDoInstruction = false)
    (hrep : inst.isRepInstruction = false) (hsafe : unsafeInBody inst = false) :
    p.bodyScan 2 0 (pc + instructionLength inst - 1) pc 0 [] = some true := by
  have hlen := instructionLength_pos inst
  have hpc : pc ≤ pc + instructionLength inst - 1 := by omega
  have hla : pc + instructionLength inst = pc + instructionLength inst - 1 + 1 := by omega
  have hlast : ¬ pc + instructionLength inst ≤ pc + instructionLength inst - 1 := by omega
  simpa [bodyScan, hinst, hskip, hdo, hrep, hsafe, hpc, hlast, Nat.not_le.mpr hend, popSkips,
    maxInlineLen] using hla

theorem slipping_body : Inlined slippingPram .body (.moveLongDisp .x true 0 0x3C) := by
  have hinst : slippingPram.instAt 2 = .moveLongDisp .x true 0 0x3C :=
    (congrArg decode (by rfl : slippingPram.word 2 = 0x0A70FC)).trans decode_move_ssh
  have hscan := scan_single hinst (by decide) rfl rfl rfl rfl
  have h := Inlined.body hscan (by decide) (by rw [hinst]; rfl) (by rw [hinst]; rfl)
    (by rw [hinst]; rfl)
  rwa [hinst] at h

theorem slipping_rep : Inlined slippingPram .blockRep (.jmp 0) := by
  have hrep : slippingPram.instAt 4 = .repImm 5 :=
    (congrArg decode (by rfl : slippingPram.word 4 = 0x0605A0)).trans decode_rep
  have htarget : decode (slippingPram.nextWord 4) = .jmp 0 :=
    (congrArg decode (by rfl : slippingPram.nextWord 4 = 0x0C0000)).trans decode_jmp
  have h := Inlined.blockRep (p := slippingPram) 4 (by rw [hrep]; rfl)
    (by rw [htarget]; rfl)
  rwa [htarget] at h

/-- The move pushes on the stack, and the jump sets PC. -/
theorem screens_leak : (Inlined slippingPram .body (.moveLongDisp .x true 0 0x3C) ∧
      ¬ Confined (emitInstruction (.moveLongDisp .x true 0 0x3C) 2 0)) ∧
    Inlined slippingPram .blockRep (.jmp 0) ∧ ¬ Confined (emitInstruction (.jmp 0) 5 0) := by
  refine ⟨⟨slipping_body, fun h => ?_⟩, slipping_rep, fun h => ?_⟩
  · have hop : (moveLongDisp .x true 0 0x3C).OperandsOk := MemSpace.noConfusion
    exact Bool.noConfusion ((emitInstruction_confined hop rfl rfl rfl 2 0).mp h).1
  · have hop : (jmp 0).OperandsOk := trivial
    exact Bool.noConfusion ((emitInstruction_confined hop rfl rfl rfl 5 0).mp h).2.1

theorem slipping_body_confined_iff :
    Inlined slippingPram .body (.moveLongDisp .x true 0 0x3C) ∧
      (Confined (emitInstruction (.moveLongDisp .x true 0 0x3C) 2 0) ↔
        (moveLongDisp .x true 0 0x3C).slipsThrough = false ∧
          (Screen.body = .blockRep → (moveLongDisp .x true 0 0x3C).isBlockTerminator = false ∧
            (moveLongDisp .x true 0 0x3C).writesPMemory = false)) :=
  ⟨slipping_body, confined_iff slipping_body 2 0⟩

end Inlined

end Dsp56300
