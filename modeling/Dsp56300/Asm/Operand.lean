import Dsp56300.Asm.Ast
import Mathlib.Data.Finmap

namespace Dsp56300.Asm

/-- Label and EQU names to their numeric values. -/
abbrev SymbolTable := Finmap (fun _ : String => I64)

structure EncodeError where
  msg : String
  deriving DecidableEq, Repr

abbrev Result (α : Type) := Except EncodeError α

def encErr {α : Type} (msg : String) : Result α := .error ⟨msg⟩

/-- Assembled output: one or two 24-bit words. -/
structure EncodedInstruction where
  word0 : Word
  word1 : Option Word
  deriving DecidableEq, Repr

/-- Single-word instruction. -/
def word (w0 : Word) : EncodedInstruction := ⟨w0 &&& 0xFFFFFF, none⟩

/-- Two-word instruction. -/
def words (w0 w1 : Word) : EncodedInstruction := ⟨w0 &&& 0xFFFFFF, some (w1 &&& 0xFFFFFF)⟩

/-- Build an encoded instruction from a primary word and an optional extension word. -/
def withExt (w0 : Word) : Option Word → EncodedInstruction
  | some v => words w0 v
  | none => word w0

/-- The number of words the instruction occupies. -/
def EncodedInstruction.size (e : EncodedInstruction) : Word := if e.word1.isSome then 2 else 1

def EncodedInstruction.toList (e : EncodedInstruction) : List Word := e.word0 :: e.word1.toList

/-- `u32 as i64`. -/
def i64 (v : Word) : I64 := v.setWidth 64

/-- A flag at bit `k` of an opcode. -/
def flag (c : Bool) (k : Nat) : Word := if c then 1#32 <<< k else 0

def Sign.k : Sign → Bool
  | .plus => false
  | .minus => true

/-- Evaluate an expression: every intermediate result is cut to 32 bits. -/
def eval (expr : Expr) (sym : SymbolTable) (pc : Word) : Result Word :=
  match expr with
  | .literal v | .frac v => .ok (u32 v)
  | .symbol name =>
    match sym.lookup name with
    | some v => .ok (u32 v)
    | none => encErr s!"undefined symbol '{name}'"
  | .currentPc => .ok pc
  | .binOp op lhs rhs => do
    let l := i64 (← eval lhs sym pc)
    let r := i64 (← eval rhs sym pc)
    match op with
    | .add => .ok (u32 (l + r))
    | .sub => .ok (u32 (l - r))
    | .mul => .ok (u32 (l * r))
    | .div => if r = 0 then encErr "division by zero" else .ok (u32 (l.sdiv r))
    | .shl => .ok (u32 (l <<< (r &&& 63)))
    | .shr => .ok (u32 (l >>> (r &&& 63)))
    | .bitAnd => .ok (u32 (l &&& r))
    | .bitOr => .ok (u32 (l ||| r))
  | .unaryOp op operand => do
    let v := i64 (← eval operand sym pc)
    match op with
    | .neg => .ok (u32 (-v))
    | .bitNot => .ok (u32 (~~~v))

/-- The 6-bit effective address field and the extension word. -/
def encodeEa (ea : EffectiveAddress) (sym : SymbolTable) (pc : Word) :
    Result (Byte × Option Word) :=
  match ea with
  | .postDecN n => .ok (n.setWidth 8, none)
  | .postIncN n => .ok (0x08 ||| n.setWidth 8, none)
  | .postDec n => .ok (0x10 ||| n.setWidth 8, none)
  | .postInc n => .ok (0x18 ||| n.setWidth 8, none)
  | .noUpdate n => .ok (0x20 ||| n.setWidth 8, none)
  | .indexedN n => .ok (0x28 ||| n.setWidth 8, none)
  | .absAddr e | .forceLongAbsAddr e => do
    let v ← eval e sym pc
    .ok (0x30, some (v &&& 0xFFFFFF))
  | .immediate e => do
    let v ← eval e sym pc
    .ok (0x34, some (v &&& 0xFFFFFF))
  | .preDec n => .ok (0x38 ||| n.setWidth 8, none)

def astSpaceBit : MemorySpace → Word
  | .y => 1
  | _ => 0

/-- Map 16-bit DSP56001 peripheral addresses $FF80-$FFFF to their 24-bit equivalents. -/
def normalizePeriphAddr (pa : Word) : Word :=
  if 0xFF80 ≤ pa ∧ pa < 0x10000 then pa ||| 0xFF0000 else pa

/-- 12-bit loop count as its low byte and high nibble. -/
def packLoopCount (count : Word) : Word × Word := (count &&& 0xFF, (count >>> 8) &&& 0xF)

/-- 5-bit register index as bits 4:3 and bits 2:0. -/
def pm4RegSplit (regIdx : Word) : Word × Word :=
  let v := regIdx &&& 0x1F
  ((v >>> 3) &&& 3, v &&& 7)

/-- L-move register index as bit 2 and bits 1:0. -/
def lRegSplit (lregIdx : Word) : Word × Word := ((lregIdx >>> 2) &&& 1, lregIdx &&& 3)

/-- 7-bit displacement as its high six bits and its low bit. -/
def packXyImmOffset (off7 : Word) : Word × Word := ((off7 >>> 1) &&& 0x3F, off7 &&& 1)

section RegisterFields

variable (reg : Register)

/-- `reg.index() as u32`. -/
def Register.bits : Word := BitVec.ofNat 32 reg.index.val

/-- 5-bit register field: names only x0..b, r0-r7, n0-n7 ($04-$1F). -/
def pm5RegBits : Result Word :=
  let idx := reg.bits
  if reg.isLComposite ∨ ¬ (0x04 ≤ idx ∧ idx ≤ 0x1F) then
    encErr s!"register {reg.debug} is not encodable in a 5-bit register field"
  else .ok idx

/-- 6-bit register field: names all registers $04-$3F. -/
def reg6Bits : Result Word :=
  let idx := reg.bits
  if reg.isLComposite ∨ idx < 0x04 then
    encErr s!"register {reg.debug} is not encodable in a 6-bit register field"
  else .ok idx

/-- MOVEC ddddd operand: a program-controller register ($20-$3F). -/
def movecDdddd : Result Word :=
  if reg.isLComposite then encErr "L-move register not valid in movec"
  else
    let idx := reg.bits
    if idx < 0x20 then
      encErr ("movec register must be a program-controller register (m0-m7, ep, vba, sc, sz, sr, " ++
        s!"omr, sp, ssh, ssl, la, lc), not {reg.debug}")
    else .ok (idx &&& 0x1F)

/-- 3-bit sss encoding. -/
def regToSss : Result Word :=
  match reg with
  | .a1 => .ok 2
  | .b1 => .ok 3
  | .x0 => .ok 4
  | .y0 => .ok 5
  | .x1 => .ok 6
  | .y1 => .ok 7
  | _ => encErr "shift register must be a1/b1/x0/y0/x1/y1"

/-- 3-bit qqq encoding: 2 and 3 name a0 and b0. -/
def regToQqq : Result Word :=
  match reg with
  | .a0 => .ok 2
  | .b0 => .ok 3
  | .x0 => .ok 4
  | .y0 => .ok 5
  | .x1 => .ok 6
  | .y1 => .ok 7
  | _ => encErr "insert source must be a0/b0/x0/y0/x1/y1"

/-- 2-bit QQ and JJ encoding, with the message the caller gives. -/
def qqBits (msg : String) : Result Word :=
  match reg with
  | .x0 => .ok 0
  | .y0 => .ok 1
  | .x1 => .ok 2
  | .y1 => .ok 3
  | _ => encErr msg

def regToQq : Result Word := qqBits reg "source must be x0/y0/x1/y1"

/-- QQ encoding of the MulShift instructions, in an order of its own. -/
def mulShiftQq : Result Word :=
  match reg with
  | .y1 => .ok 0
  | .x0 => .ok 1
  | .y0 => .ok 2
  | .x1 => .ok 3
  | _ => encErr "mul_shift source must be x0/y0/x1/y1"

/-- L-move register number; the accumulator parts name their accumulator. -/
def lRegIdx : Result Word :=
  match reg with
  | .a10 => .ok 0
  | .b10 => .ok 1
  | .regX => .ok 2
  | .regY => .ok 3
  | .a | .a0 | .a1 | .a2 => .ok 4
  | .b | .b0 | .b1 | .b2 => .ok 5
  | .ab => .ok 6
  | .ba => .ok 7
  | _ => encErr "invalid L-move register"

/-- 2-bit code of the X side of a double move. -/
def xDoubleBits (msg : String) : Result Word :=
  match reg with
  | .x0 => .ok 0
  | .x1 => .ok 1
  | .a => .ok 2
  | .b => .ok 3
  | _ => encErr msg

/-- 2-bit code of the Y side of a double move. -/
def yDoubleBits (msg : String) : Result Word :=
  match reg with
  | .y0 => .ok 0
  | .y1 => .ok 1
  | .a => .ok 2
  | .b => .ok 3
  | _ => encErr msg

def pm1D1Bits (isX : Bool) : Result Word :=
  if isX then xDoubleBits reg "pm1 x d1 must be x0/x1/a/b"
  else yDoubleBits reg "pm1 y d2 must be y0/y1/a/b"

def pm1AccBit : Result Word :=
  match reg with
  | .a => .ok 0
  | .b => .ok 1
  | _ => encErr "pm1 source/dest must be a or b"

/-- The x0/x1 destination of a Class II move. -/
def xBit (msg : String) : Result Word :=
  match reg with
  | .x0 => .ok 0
  | .x1 => .ok 1
  | _ => encErr msg

/-- The y0/y1 destination of a Class I move. -/
def yBit (msg : String) : Result Word :=
  match reg with
  | .y0 => .ok 0
  | .y1 => .ok 1
  | _ => encErr msg

end RegisterFields

/-- QQQQ encoding of a register pair. -/
def regsToQqqq (s1 s2 : Register) : Result Word :=
  match s1, s2 with
  | .x0, .x0 => .ok 0x0
  | .y0, .y0 => .ok 0x1
  | .x1, .x0 => .ok 0x2
  | .y1, .y0 => .ok 0x3
  | .x0, .y1 => .ok 0x4
  | .y0, .x0 => .ok 0x5
  | .x1, .y0 => .ok 0x6
  | .y1, .x1 => .ok 0x7
  | .x1, .x1 => .ok 0x8
  | .y1, .y1 => .ok 0x9
  | .x0, .x1 => .ok 0xA
  | .y0, .y1 => .ok 0xB
  | .y1, .x0 => .ok 0xC
  | .x0, .y0 => .ok 0xD
  | .y0, .x1 => .ok 0xE
  | .x1, .y1 => .ok 0xF
  | _, _ => encErr "invalid QQQQ register pair"

end Dsp56300.Asm
