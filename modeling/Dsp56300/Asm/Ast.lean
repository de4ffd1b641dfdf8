import Dsp56300.Core.ParallelAlu

namespace Dsp56300.Asm

set_option linter.constructorNameAsVariable false

/-- The `i64` of assembler expressions. -/
abbrev I64 := BitVec 64

/-- Number of an address register; every `u8` the parser puts in such a place is below 8. -/
abbrev RegNum := BitVec 3

/-- `v as u32`. -/
def u32 {n : Nat} (v : BitVec n) : Word := v.setWidth 32

/-- Memory space specifier. -/
inductive MemorySpace where
  | x | y | p | l
  deriving DecidableEq, Repr

inductive BinOp where
  | add | sub | mul | div | shl | shr | bitAnd | bitOr
  deriving DecidableEq, Repr

inductive UnaryOp where
  | neg | bitNot
  deriving DecidableEq, Repr

/-- Expression (for immediates, addresses, EQU values). -/
inductive Expr where
  | literal (v : I64)
  /-- Fractional literal (Q23 value). -/
  | frac (v : I64)
  | symbol (name : String)
  | currentPc
  | binOp (op : BinOp) (lhs rhs : Expr)
  | unaryOp (op : UnaryOp) (operand : Expr)
  deriving DecidableEq

namespace Expr

/-- Evaluate a constant expression; `none` where symbols or the pc occur. -/
def tryEvalConst : Expr → Option I64
  | .literal v | .frac v => some v
  | .binOp op lhs rhs => do
    let l ← lhs.tryEvalConst
    let r ← rhs.tryEvalConst
    match op with
    | .add => some (l + r)
    | .sub => some (l - r)
    | .mul => some (l * r)
    -- the source panics on the one overflowing quotient, which wraps here
    | .div => if r = 0 then none else some (l.sdiv r)
    | .shl => some (l <<< (r &&& 63))
    | .shr => some (l.sshiftRight' (r &&& 63))
    | .bitAnd => some (l &&& r)
    | .bitOr => some (l ||| r)
  | .unaryOp op operand => do
    let v ← operand.tryEvalConst
    match op with
    | .neg => some (-v)
    | .bitNot => some (~~~v)
  | .symbol _ | .currentPc => none

def asU32 (e : Expr) : Option Word := e.tryEvalConst.map u32

/-- The expression can be evaluated without a symbol table. -/
def isLiteral (e : Expr) : Bool := e.tryEvalConst.isSome

def isBareLit : Expr → Bool
  | .literal _ => true
  | _ => false

def isFrac : Expr → Bool
  | .frac _ => true
  | _ => false

end Expr

/-- Register operand. -/
inductive Register where
  | x0 | x1 | y0 | y1 | a0 | a1 | a2 | b0 | b1 | b2 | a | b
  | r (n : RegNum)
  | n (n : RegNum)
  | m (n : RegNum)
  | ep | vba | sc | sz | sr | omr | sp | ssh | ssl | la | lc | mr | ccr
  -- composite registers of the L moves
  | a10 | b10 | regX | regY | ab | ba
  deriving DecidableEq, Repr

namespace Register

/-- The 6-bit register index used in opcodes; mr and ccr are sub-fields of sr, and the L-move
composites have no index. -/
def index : Register → RegIdx
  | .x0 => Reg.x0
  | .x1 => Reg.x1
  | .y0 => Reg.y0
  | .y1 => Reg.y1
  | .a0 => Reg.a0
  | .a1 => Reg.a1
  | .a2 => Reg.a2
  | .b0 => Reg.b0
  | .b1 => Reg.b1
  | .b2 => Reg.b2
  | .a => Reg.a
  | .b => Reg.b
  | .r k => Reg.r0 + ⟨k.toNat, by omega⟩
  | .n k => Reg.n0 + ⟨k.toNat, by omega⟩
  | .m k => Reg.m0 + ⟨k.toNat, by omega⟩
  | .ep => Reg.ep
  | .vba => Reg.vba
  | .sc => Reg.sc
  | .sz => Reg.sz
  | .sr => Reg.sr
  | .omr => Reg.omr
  | .sp => Reg.sp
  | .ssh => Reg.ssh
  | .ssl => Reg.ssl
  | .la => Reg.la
  | .lc => Reg.lc
  | .mr | .ccr => Reg.sr
  | .a10 | .b10 | .regX | .regY | .ab | .ba => Reg.null

/-- A data ALU register: the short immediate is MSB-justified for the full ones. -/
def isDataAlu : Register → Bool
  | .x0 | .x1 | .y0 | .y1 | .a0 | .a1 | .a2 | .b0 | .b1 | .b2 | .a | .b => true
  | _ => false

/-- The registers whose short immediate goes to the most significant byte. -/
def isMsbReg : Register → Bool
  | .a | .b | .x0 | .x1 | .y0 | .y1 => true
  | _ => false

def isLComposite : Register → Bool
  | .a10 | .b10 | .regX | .regY | .ab | .ba => true
  | _ => false

/-- Program-controller and AGU-modifier registers, reachable only through MOVEC. -/
def isMovecOnly (r : Register) : Bool := !r.isLComposite && r.index ≥ 0x20

/-- The `Debug` text of the register, as error messages print it. -/
def debug : Register → String
  | .x0 => "X0" | .x1 => "X1" | .y0 => "Y0" | .y1 => "Y1"
  | .a0 => "A0" | .a1 => "A1" | .a2 => "A2" | .b0 => "B0" | .b1 => "B1" | .b2 => "B2"
  | .a => "A" | .b => "B"
  | .r k => s!"R({k.toNat})"
  | .n k => s!"N({k.toNat})"
  | .m k => s!"M({k.toNat})"
  | .ep => "Ep" | .vba => "Vba" | .sc => "Sc" | .sz => "Sz" | .sr => "Sr" | .omr => "Omr"
  | .sp => "Sp" | .ssh => "Ssh" | .ssl => "Ssl" | .la => "La" | .lc => "Lc"
  | .mr => "Mr" | .ccr => "Ccr"
  | .a10 => "A10" | .b10 => "B10" | .regX => "RegX" | .regY => "RegY" | .ab => "Ab" | .ba => "Ba"

end Register

/-- Effective address mode. -/
inductive EffectiveAddress where
  | postDecN (n : RegNum)
  | postIncN (n : RegNum)
  | postDec (n : RegNum)
  | postInc (n : RegNum)
  | noUpdate (n : RegNum)
  | indexedN (n : RegNum)
  | absAddr (e : Expr)
  /-- `>$xxxx`: bypasses the short forms. -/
  | forceLongAbsAddr (e : Expr)
  | immediate (e : Expr)
  | preDec (n : RegNum)

/-- Target for bit manipulation instructions. -/
inductive BitTarget where
  /-- An address whose pp/qq/aa class the encoder finds. -/
  | addr (space : MemorySpace) (addr : Expr)
  | ea (space : MemorySpace) (ea : EffectiveAddress)
  | reg (r : Register)

/-- Source of a loop or repeat count (`LoopSource` and `RepSource` of the source). -/
inductive CountSource where
  | imm (e : Expr)
  | reg (r : Register)
  | aa (space : MemorySpace) (addr : Expr)
  | ea (space : MemorySpace) (ea : EffectiveAddress)

inductive Sign where
  | plus | minus
  deriving DecidableEq, Repr

/-- Parallel data move portion. -/
inductive ParallelMove where
  | none
  | regToReg (src dst : Register)
  | eaUpdate (ea : EffectiveAddress) (dst : RegNum)
  | immToReg (imm : Expr) (dst : Register) (forceLong : Bool)
  | xyMem (space : MemorySpace) (ea : EffectiveAddress) (reg : Register) (write : Bool)
  | xyAbs (space : MemorySpace) (addr : Expr) (reg : Register) (write forceShort : Bool)
  | lMem (ea : EffectiveAddress) (reg : Register) (write : Bool)
  | lAbs (addr : Expr) (reg : Register) (write forceShort : Bool)
  | lImm (imm : Expr) (reg : Register)
  | xReg (ea : EffectiveAddress) (xReg s2 d2 : Register) (write : Bool)
  | xImmReg (imm : Expr) (xReg s2 d2 : Register)
  | regY (s1 d1 : Register) (ea : EffectiveAddress) (yReg : Register) (write : Bool)
  | regYImm (s1 d1 : Register) (imm : Expr) (yReg : Register)
  | xyDouble (xEa : EffectiveAddress) (xReg : Register) (yEa : EffectiveAddress) (yReg : Register)
      (xWrite yWrite : Bool)
  | pm0 (acc : Register) (space : MemorySpace) (ea : EffectiveAddress) (dataReg : Register)
  | ifcc (cc : CondCode)
  | ifccU (cc : CondCode)

/-- A fully parsed instruction. The assembler's `Acc`, `CondCode` and `MulShiftMnem` list the
values of the core's enumerations in the same order. -/
inductive Instruction where
  | nop | rts | rti | reset | stop | wait | endDo | illegal
  | inc (d : Accumulator)
  | dec (d : Accumulator)
  -- Arithmetic with immediate
  | addImm (imm : Expr) (d : Accumulator)
  | addLong (imm : Expr) (d : Accumulator)
  | subImm (imm : Expr) (d : Accumulator)
  | subLong (imm : Expr) (d : Accumulator)
  | cmpImm (imm : Expr) (d : Accumulator)
  | cmpLong (imm : Expr) (d : Accumulator)
  | andImm (imm : Expr) (d : Accumulator)
  | andLong (imm : Expr) (d : Accumulator)
  | orLong (imm : Expr) (d : Accumulator)
  | orImm (imm : Expr) (d : Accumulator)
  | eorImm (imm : Expr) (d : Accumulator)
  | eorLong (imm : Expr) (d : Accumulator)
  | andI (imm : Expr) (dest : BitVec 2)
  | orI (imm : Expr) (dest : BitVec 2)
  -- Shifts with immediate
  | aslImm (shift : Expr) (src dst : Accumulator)
  | asrImm (shift : Expr) (src dst : Accumulator)
  | lslImm (shift : Expr) (dst : Accumulator)
  | lsrImm (shift : Expr) (dst : Accumulator)
  | aslReg (shiftReg : Register) (src dst : Accumulator)
  | asrReg (shiftReg : Register) (src dst : Accumulator)
  | lslReg (shiftReg : Register) (dst : Accumulator)
  | lsrReg (shiftReg : Register) (dst : Accumulator)
  -- Branches
  | bcc (cc : CondCode) (target : Expr) (forceLong : Bool)
  | bccRn (cc : CondCode) (rn : RegNum)
  | bra (target : Expr) (forceLong : Bool)
  | braRn (rn : RegNum)
  | bsr (target : Expr) (forceLong : Bool)
  | bsrRn (rn : RegNum)
  | bscc (cc : CondCode) (target : Expr) (forceLong : Bool)
  | bsccRn (cc : CondCode) (rn : RegNum)
  | brkcc (cc : CondCode)
  | jcc (cc : CondCode) (target : Expr)
  | jccEa (cc : CondCode) (ea : EffectiveAddress)
  | jmp (target : Expr) (forceShort : Bool)
  | jmpEa (ea : EffectiveAddress)
  | jscc (cc : CondCode) (target : Expr)
  | jsccEa (cc : CondCode) (ea : EffectiveAddress)
  | jsr (target : Expr) (forceShort : Bool)
  | jsrEa (ea : EffectiveAddress)
  -- Bit manipulation
  | bchg (bit : Expr) (target : BitTarget)
  | bclr (bit : Expr) (target : BitTarget)
  | bset (bit : Expr) (target : BitTarget)
  | btst (bit : Expr) (target : BitTarget)
  -- Bit branch
  | jclr (bit : Expr) (target : BitTarget) (addr : Expr)
  | jset (bit : Expr) (target : BitTarget) (addr : Expr)
  | jsclr (bit : Expr) (target : BitTarget) (addr : Expr)
  | jsset (bit : Expr) (target : BitTarget) (addr : Expr)
  | brclr (bit : Expr) (target : BitTarget) (addr : Expr)
  | brset (bit : Expr) (target : BitTarget) (addr : Expr)
  | bsclr (bit : Expr) (target : BitTarget) (addr : Expr)
  | bsset (bit : Expr) (target : BitTarget) (addr : Expr)
  -- Loop
  | do_ (source : CountSource) (endAddr : Expr)
  | doForever (endAddr : Expr)
  | dor (source : CountSource) (endAddr : Expr)
  | dorForever (endAddr : Expr)
  | rep (source : CountSource)
  -- Move (non-parallel)
  | movecReg (src dst : Register) (w : Bool)
  | movecAa (space : MemorySpace) (addr : Expr) (reg : Register) (w : Bool)
  | movecEa (space : MemorySpace) (ea : EffectiveAddress) (reg : Register) (w : Bool)
  | movecImm (imm : Expr) (reg : Register)
  | movemEa (ea : EffectiveAddress) (reg : Register) (w : Bool)
  | movemAa (addr : Expr) (reg : Register) (w : Bool)
  | movep23 (periphSpace : MemorySpace) (periphAddr : Expr) (eaSpace : MemorySpace)
      (ea : EffectiveAddress) (w : Bool)
  | movep23Imm (periphSpace : MemorySpace) (periphAddr imm : Expr)
  | movepXQq (periphAddr : Expr) (eaSpace : MemorySpace) (ea : EffectiveAddress) (w : Bool)
  | movepXQqImm (periphAddr imm : Expr)
  | movep1 (periphSpace : MemorySpace) (periphAddr : Expr) (ea : EffectiveAddress) (w : Bool)
  | movep0 (periphSpace : MemorySpace) (periphAddr : Expr) (reg : Register) (w : Bool)
  | moveLongDisp (space : MemorySpace) (offsetReg : RegNum) (offset : Expr) (reg : Register)
      (w : Bool)
  | moveShortDisp (space : MemorySpace) (offsetReg : RegNum) (offset : Expr) (reg : Register)
      (w : Bool)
  -- Multiply
  | mulShift (mnem : MulShiftOp) (sign : Sign) (src : Register) (shift : Expr) (dst : Accumulator)
  | mpyI (sign : Sign) (imm : Expr) (src : Register) (dst : Accumulator)
  | mpyrI (sign : Sign) (imm : Expr) (src : Register) (dst : Accumulator)
  | macI (sign : Sign) (imm : Expr) (src : Register) (dst : Accumulator)
  | macrI (sign : Sign) (imm : Expr) (src : Register) (dst : Accumulator)
  | dmac (ss : BitVec 2) (sign : Sign) (s1 s2 : Register) (dst : Accumulator)
  | macSU (su : Bool) (sign : Sign) (s1 s2 : Register) (dst : Accumulator)
  | mpySU (su : Bool) (sign : Sign) (s1 s2 : Register) (dst : Accumulator)
  | div (src : Register) (dst : Accumulator)
  | cmpU (src : Register) (dst : Accumulator)
  | norm (src : RegNum) (dst : Accumulator)
  -- Address
  | lua (ea : EffectiveAddress) (dst : Register)
  /-- The one register number the parser does not bound by 8 is `dst`. -/
  | luaRel (base : RegNum) (offset : Expr) (dstIsN : Bool) (dst : Byte)
  | lraRn (src : RegNum) (dst : Register)
  | lraDisp (target : Expr) (dst : Register)
  -- Specialized
  | clb (s d : Accumulator)
  | normf (src : Register) (d : Accumulator)
  | merge (src : Register) (d : Accumulator)
  | extractReg (s1 : Register) (s2 d : Accumulator)
  | extractImm (co : Expr) (s2 d : Accumulator)
  | extractuReg (s1 : Register) (s2 d : Accumulator)
  | extractuImm (co : Expr) (s2 d : Accumulator)
  | insertReg (s1 s2 : Register) (d : Accumulator)
  | insertImm (co : Expr) (s2 : Register) (d : Accumulator)
  | vsl (s : Accumulator) (iBit : BitVec 1) (ea : EffectiveAddress)
  | debug
  | debugcc (cc : CondCode)
  | trap
  | trapcc (cc : CondCode)
  | pflush
  | pflushun
  | pfree
  | plockEa (ea : EffectiveAddress)
  | plockr (target : Expr)
  | punlockEa (ea : EffectiveAddress)
  | punlockr (target : Expr)
  -- Transfer conditional
  | tcc (cc : CondCode) (acc : Option (Register × Register)) (r : Option (RegNum × RegNum))
  -- Parallel ALU + move
  | parallel (alu : ParallelAlu) (pmove : ParallelMove)

/-- Assembler directives. -/
inductive Directive where
  | org (space : MemorySpace) (addr : Expr)
  | dc (values : List Expr)
  | ds (size : Expr)
  | equ (name : String) (value : Expr)
  | end_
  | section_ (name : String)
  | endSec
  | xref (names : List String)
  | xdef (names : List String)
  | include_ (path : String)
  /-- `psect name space:start:end` (define) or `psect name` (switch). -/
  | psect (name : String) (range : Option (MemorySpace × Expr × Expr))
  /-- Advance the pc to the next multiple. -/
  | align (alignment : Expr)

/-- A single line of assembly. -/
inductive Statement where
  | label (name : String)
  | instruction (label : Option String) (inst : Instruction)
  | directive (label : Option String) (dir : Directive)
  | empty

/-- The statements of a complete assembly program, includes expanded. -/
abbrev Program := List Statement

/-- Origin of a source line: its file (empty at the top level), its number and its text. -/
structure SourceOrigin where
  file : String
  line : Nat
  text : String

/-- A program as it is parsed, with the origin of each statement. -/
structure SourceProgram where
  statements : List Statement
  sourceLines : List SourceOrigin

end Dsp56300.Asm
