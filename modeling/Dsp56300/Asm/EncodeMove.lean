import Dsp56300.Asm.Operand
import Dsp56300.Disasm.Format

namespace Dsp56300.Asm

set_option linter.constructorNameAsVariable false

/-! Plain parallel moves, which the control-register moves fall back to. -/

/-- Immediate to a PM4-encodable register: the PM3 short form when the literal fits. -/
def encodePlainImmToReg (imm : Expr) (dst : Register) (aluByte : Word) (sym : SymbolTable)
    (pc : Word) : Result EncodedInstruction := do
  let v24 := (← eval imm sym pc) &&& 0xFFFFFF
  let regIdx ← pm5RegBits dst
  let pm3 : Option Word :=
    if imm.isBareLit ∧ v24 ≤ 0xFF then some v24
    else if imm.isLiteral ∧ dst.isMsbReg ∧ v24 &&& 0xFFFF = 0 then some (v24 >>> 16)
    else if imm.isFrac ∧ ¬ dst.isDataAlu ∧ v24 ≤ 0xFF then some v24
    else none
  match pm3 with
  | some byte => .ok (word ((regIdx ||| 0x20) <<< 16 ||| (byte &&& 0xFF) <<< 8 ||| aluByte))
  | none =>
    let (hi, lo) := pm4RegSplit regIdx
    .ok (words (1#32 <<< 22 ||| hi <<< 20 ||| lo <<< 16 ||| 1#32 <<< 15 ||| 1#32 <<< 14 |||
      0x34#32 <<< 8 ||| aluByte) v24)

def encodeParallelXyMem (space : MemorySpace) (ea : EffectiveAddress) (reg : Register)
    (write : Bool) (aluByte : Word) (sym : SymbolTable) (pc : Word) :
    Result EncodedInstruction := do
  let (eaBits, ext) ← encodeEa ea sym pc
  let regIdx ← pm5RegBits reg
  let (hi, lo) := pm4RegSplit regIdx
  .ok (withExt (1#32 <<< 22 ||| hi <<< 20 ||| astSpaceBit space <<< 19 ||| lo <<< 16 |||
    flag write 15 ||| 1#32 <<< 14 ||| u32 eaBits <<< 8 ||| aluByte) ext)

/-- The 1-word aa form is taken when forced or for a literal address of 6 bits. -/
def useShortAbs (addr : Expr) (forceShort : Bool) (addrVal : Word) : Bool :=
  forceShort || (addr.asU32.isSome && addrVal &&& 0xFFFFFF ≤ 0x3F)

def encodeParallelXyAbs (space : MemorySpace) (addr : Expr) (reg : Register)
    (write forceShort : Bool) (aluByte : Word) (sym : SymbolTable) (pc : Word) :
    Result EncodedInstruction := do
  let addrVal ← eval addr sym pc
  let regIdx ← pm5RegBits reg
  let (hi, lo) := pm4RegSplit regIdx
  if useShortAbs addr forceShort addrVal then
    .ok (word (1#32 <<< 22 ||| hi <<< 20 ||| astSpaceBit space <<< 19 ||| lo <<< 16 |||
      flag write 15 ||| (addrVal &&& 0x3F) <<< 8 ||| aluByte))
  else
    .ok (words (1#32 <<< 22 ||| hi <<< 20 ||| astSpaceBit space <<< 19 ||| lo <<< 16 |||
      flag write 15 ||| 1#32 <<< 14 ||| 0x30#32 <<< 8 ||| aluByte) (addrVal &&& 0xFFFFFF))

/-! Control-register moves. -/

def encodeMovecReg (src dst : Register) (_w : Bool) : Result EncodedInstruction :=
  if src.isLComposite ∨ dst.isLComposite then encErr "L-move register not valid in movec"
  else
    let srcIdx := src.bits
    let dstIdx := dst.bits
    -- no control register accessed: the plain MOVE encoding
    if srcIdx < 0x20 ∧ dstIdx < 0x20 then do
      let s ← pm5RegBits src
      let d ← pm5RegBits dst
      .ok (word (0x200000 ||| s <<< 13 ||| d <<< 8))
    else if srcIdx ≥ 0x20 then
      .ok (word (0x0440A0 ||| (dstIdx &&& 0x3F) <<< 8 ||| (srcIdx &&& 0x1F)))
    else
      .ok (word (0x0440A0 ||| 1#32 <<< 15 ||| (srcIdx &&& 0x3F) <<< 8 ||| (dstIdx &&& 0x1F)))

def encodeMovecAa (space : MemorySpace) (addr : Expr) (reg : Register) (w : Bool)
    (sym : SymbolTable) (pc : Word) : Result EncodedInstruction :=
  if ¬ reg.isLComposite ∧ reg.index < 0x20 then
    encodeParallelXyAbs space addr reg w false 0 sym pc
  else do
    let regIdx ← movecDdddd reg
    let a ← eval addr sym pc
    if a > 0x3F then
      .ok (words (0x054020 ||| 0x30#32 <<< 8 ||| flag w 15 ||| astSpaceBit space <<< 6 ||| regIdx)
        (a &&& 0xFFFFFF))
    else
      .ok (word (0x050020 ||| (a &&& 0x3F) <<< 8 ||| flag w 15 ||| astSpaceBit space <<< 6 |||
        regIdx))

def encodeMovecEa (space : MemorySpace) (ea : EffectiveAddress) (reg : Register) (w : Bool)
    (sym : SymbolTable) (pc : Word) : Result EncodedInstruction :=
  if ¬ reg.isLComposite ∧ reg.index < 0x20 then encodeParallelXyMem space ea reg w 0 sym pc
  else do
    let regIdx ← movecDdddd reg
    let (eaBits, ext) ← encodeEa ea sym pc
    .ok (withExt (0x054020 ||| u32 eaBits <<< 8 ||| flag w 15 ||| astSpaceBit space <<< 6 |||
      regIdx) ext)

def encodeMovecImm (imm : Expr) (reg : Register) (sym : SymbolTable) (pc : Word) :
    Result EncodedInstruction :=
  if ¬ reg.isLComposite ∧ reg.index < 0x20 then encodePlainImmToReg imm reg 0 sym pc
  else do
    let regIdx ← movecDdddd reg
    let v ← eval imm sym pc
    .ok (word (0x0500A0 ||| (v &&& 0xFF) <<< 8 ||| regIdx))

/-! Program-memory moves. -/

def encodeMovemEa (ea : EffectiveAddress) (reg : Register) (w : Bool) (sym : SymbolTable)
    (pc : Word) : Result EncodedInstruction := do
  let (eaBits, ext) ← encodeEa ea sym pc
  let regIdx ← reg6Bits reg
  .ok (withExt (0x074080 ||| u32 eaBits <<< 8 ||| flag w 15 ||| regIdx) ext)

def encodeMovemAa (addr : Expr) (reg : Register) (w : Bool) (sym : SymbolTable) (pc : Word) :
    Result EncodedInstruction := do
  let a ← eval addr sym pc
  let regIdx ← reg6Bits reg
  if a > 0x3F then
    .ok (words (0x074080 ||| 0x30#32 <<< 8 ||| flag w 15 ||| regIdx) (a &&& 0xFFFFFF))
  else
    .ok (word (0x070000 ||| (a &&& 0x3F) <<< 8 ||| flag w 15 ||| regIdx))

/-! Peripheral moves. -/

/-- The pp and qq forms with an effective address, once the peripheral address is known. -/
def encodeMovep23Periph (periphSpace : MemorySpace) (pa : Word) (eaSpace : MemorySpace)
    (ea : EffectiveAddress) (w : Bool) (sym : SymbolTable) (pc : Word) :
    Result EncodedInstruction := do
  let (eaBits, ext) ← encodeEa ea sym pc
  if pa ≥ 0xFFFFC0 then
    .ok (withExt (0x084080 ||| astSpaceBit periphSpace <<< 16 ||| u32 eaBits <<< 8 ||| flag w 15 |||
      astSpaceBit eaSpace <<< 6 ||| ((pa - 0xFFFFC0) &&& 0x3F)) ext)
  else
    let base : Word := if periphSpace = .x then 0x074000 else 0x070080
    .ok (withExt (base ||| u32 eaBits <<< 8 ||| flag w 15 ||| astSpaceBit eaSpace <<< 6 |||
      ((pa - 0xFFFF80) &&& 0x3F)) ext)

/-- Where only the second of two absolute operands is a peripheral address, the operands swap
their roles; the source recurses, and the swapped address cannot recurse again. -/
def encodeMovep23 (periphSpace : MemorySpace) (periphAddr : Expr) (eaSpace : MemorySpace)
    (ea : EffectiveAddress) (w : Bool) (sym : SymbolTable) (pc : Word) :
    Result EncodedInstruction := do
  let pa := normalizePeriphAddr (← eval periphAddr sym pc)
  if pa < 0xFFFF80 then
    let swap (eaExpr : Expr) : Result EncodedInstruction := do
      let eaVal := normalizePeriphAddr (← eval eaExpr sym pc)
      if eaVal ≥ 0xFFFF80 then
        encodeMovep23Periph eaSpace eaVal periphSpace (.forceLongAbsAddr periphAddr) true sym pc
      else encErr "movep peripheral address must be >= $ffff80"
    match ea with
    | .absAddr e | .forceLongAbsAddr e => swap e
    | _ => encErr "movep peripheral address must be >= $ffff80"
  else encodeMovep23Periph periphSpace pa eaSpace ea w sym pc

def encodeMovep23Imm (periphSpace : MemorySpace) (periphAddr imm : Expr) (sym : SymbolTable)
    (pc : Word) : Result EncodedInstruction := do
  let pa := normalizePeriphAddr (← eval periphAddr sym pc)
  let v ← eval imm sym pc
  if pa ≥ 0xFFFFC0 then
    .ok (words (0x084080 ||| astSpaceBit periphSpace <<< 16 ||| 0x34#32 <<< 8 ||| 1#32 <<< 15 |||
      ((pa - 0xFFFFC0) &&& 0x3F)) (v &&& 0xFFFFFF))
  else if pa ≥ 0xFFFF80 then
    let base : Word := if periphSpace = .x then 0x074000 else 0x070080
    .ok (words (base ||| 0x34#32 <<< 8 ||| 1#32 <<< 15 ||| ((pa - 0xFFFF80) &&& 0x3F))
      (v &&& 0xFFFFFF))
  else encErr "movep immediate target must be peripheral address"

/-- 6-bit qq offset of a peripheral address ($FFFF80-$FFFFBF). -/
def periphOffsetQq (addr : Word) : Result Word :=
  let addr := normalizePeriphAddr addr
  if 0xFFFF80 ≤ addr ∧ addr < 0xFFFFC0 then .ok (addr - 0xFFFF80)
  else encErr "peripheral address must be in $ffff80-$ffffbf for qq form"

def encodeMovepXqq (periphAddr : Expr) (eaSpace : MemorySpace) (ea : EffectiveAddress) (w : Bool)
    (sym : SymbolTable) (pc : Word) : Result EncodedInstruction := do
  let pa ← eval periphAddr sym pc
  let offset ← periphOffsetQq pa
  let (eaBits, ext) ← encodeEa ea sym pc
  .ok (withExt (0x074000 ||| u32 eaBits <<< 8 ||| flag w 15 ||| astSpaceBit eaSpace <<< 6 |||
    (offset &&& 0x3F)) ext)

def encodeMovepXqqImm (periphAddr imm : Expr) (sym : SymbolTable) (pc : Word) :
    Result EncodedInstruction := do
  let pa ← eval periphAddr sym pc
  let offset ← periphOffsetQq pa
  let v ← eval imm sym pc
  .ok (words (0x074000 ||| 0x34#32 <<< 8 ||| 1#32 <<< 15 ||| (offset &&& 0x3F)) (v &&& 0xFFFFFF))

/-- P: memory to or from a peripheral; the qq form has its direction at bit 14. -/
def encodeMovep1 (periphSpace : MemorySpace) (periphAddr : Expr) (ea : EffectiveAddress) (w : Bool)
    (sym : SymbolTable) (pc : Word) : Result EncodedInstruction := do
  let pa := normalizePeriphAddr (← eval periphAddr sym pc)
  let (eaBits, ext) ← encodeEa ea sym pc
  if pa ≥ 0xFFFFC0 then
    .ok (withExt (0x084040 ||| astSpaceBit periphSpace <<< 16 ||| u32 eaBits <<< 8 ||| flag w 15 |||
      ((pa - 0xFFFFC0) &&& 0x3F)) ext)
  else if pa ≥ 0xFFFF80 then
    .ok (withExt (0x008000 ||| u32 eaBits <<< 8 ||| flag w 14 ||| astSpaceBit periphSpace <<< 6 |||
      ((pa - 0xFFFF80) &&& 0x3F)) ext)
  else encErr "movep peripheral address must be >= $ffff80 for P:ea form"

/-- Register to or from a peripheral; bit 5 of a qq offset stands at opcode bit 6. -/
def encodeMovep0 (periphSpace : MemorySpace) (periphAddr : Expr) (reg : Register) (w : Bool)
    (sym : SymbolTable) (pc : Word) : Result EncodedInstruction := do
  let pa := normalizePeriphAddr (← eval periphAddr sym pc)
  let regIdx ← reg6Bits reg
  if pa ≥ 0xFFFFC0 then
    .ok (word (0x084000 ||| astSpaceBit periphSpace <<< 16 ||| regIdx <<< 8 ||| flag w 15 |||
      ((pa - 0xFFFFC0) &&& 0x3F)))
  else if pa ≥ 0xFFFF80 then
    let offset := pa - 0xFFFF80
    let base : Word := if periphSpace = .x then 0x044080 else 0x044020
    .ok (word (base ||| regIdx <<< 8 ||| flag w 15 ||| ((offset >>> 5) &&& 1) <<< 6 |||
      (offset &&& 0x1F)))
  else encErr "movep peripheral address must be >= $ffff80 for R form"

/-! Displacement moves. -/

def encodeMoveLongDisp (space : MemorySpace) (offsetReg : RegNum) (offset : Expr) (reg : Register)
    (w : Bool) (sym : SymbolTable) (pc : Word) : Result EncodedInstruction := do
  let off ← eval offset sym pc
  let regIdx ← reg6Bits reg
  let base : Word := if space = .x then 0x0A7080 else 0x0B7080
  .ok (words (base ||| u32 offsetReg <<< 8 ||| flag w 6 ||| regIdx) (off &&& 0xFFFFFF))

def encodeMoveShortDisp (space : MemorySpace) (offsetReg : RegNum) (offset : Expr) (reg : Register)
    (w : Bool) (sym : SymbolTable) (pc : Word) : Result EncodedInstruction := do
  let off7 := (← eval offset sym pc) &&& 0x7F
  let regIdx := reg.bits
  if reg.isLComposite ∨ ¬ (0x04 ≤ regIdx ∧ regIdx ≤ 0x0F) then
    encErr (s!"register {reg.debug} is not encodable in the short-displacement move register " ++
      "field")
  else
    let (hi, lo) := packXyImmOffset off7
    .ok (word (0x020080 ||| hi <<< 11 ||| u32 offsetReg <<< 8 ||| lo <<< 6 |||
      flag (space = .y) 5 ||| flag w 4 ||| (regIdx &&& 0xF)))

/-! Parallel instructions. -/

def encodeParallelLMem (ea : EffectiveAddress) (reg : Register) (write : Bool) (aluByte : Word)
    (sym : SymbolTable) (pc : Word) : Result EncodedInstruction := do
  let (eaBits, ext) ← encodeEa ea sym pc
  let (bit2, bits10) := lRegSplit (← lRegIdx reg)
  .ok (withExt (1#32 <<< 22 ||| bit2 <<< 19 ||| bits10 <<< 16 ||| flag write 15 ||| 1#32 <<< 14 |||
    u32 eaBits <<< 8 ||| aluByte) ext)

def encodeParallelLAbs (addr : Expr) (reg : Register) (write forceShort : Bool) (aluByte : Word)
    (sym : SymbolTable) (pc : Word) : Result EncodedInstruction := do
  let addrVal ← eval addr sym pc
  let (bit2, bits10) := lRegSplit (← lRegIdx reg)
  if useShortAbs addr forceShort addrVal then
    .ok (word (1#32 <<< 22 ||| bit2 <<< 19 ||| bits10 <<< 16 ||| flag write 15 |||
      (addrVal &&& 0x3F) <<< 8 ||| aluByte))
  else
    .ok (words (1#32 <<< 22 ||| bit2 <<< 19 ||| bits10 <<< 16 ||| flag write 15 ||| 1#32 <<< 14 |||
      0x30#32 <<< 8 ||| aluByte) (addrVal &&& 0xFFFFFF))

/-- The 2-bit MM codes of the double moves: only (Rn)+Nn, (Rn)-, (Rn)+ and (Rn). -/
def isPm8Mode (eaBits : Byte) : Bool :=
  let mmm := (u32 eaBits >>> 3) &&& 0x7
  1 ≤ mmm && mmm ≤ 4

/-- Dual X:Y move; bit 2 of the Y address register is implicit, the complement of the X one. -/
def encodeParallelXyDouble (xEa : EffectiveAddress) (xReg : Register) (yEa : EffectiveAddress)
    (yReg : Register) (xWrite yWrite : Bool) (aluByte : Word) (sym : SymbolTable) (pc : Word) :
    Result EncodedInstruction := do
  let xRegBits ← xDoubleBits xReg "pm8 x register must be x0/x1/a/b"
  let yRegBits ← yDoubleBits yReg "pm8 y register must be y0/y1/a/b"
  let (xEaBits, xExt) ← encodeEa xEa sym pc
  let (yEaBits, yExt) ← encodeEa yEa sym pc
  if ¬ isPm8Mode xEaBits ∨ ¬ isPm8Mode yEaBits then
    encErr "dual X:Y move supports only (Rn)+Nn, (Rn)-, (Rn)+, (Rn) addressing"
  else
    let w0 := 1#32 <<< 23 ||| flag yWrite 22 ||| ((u32 yEaBits >>> 3) &&& 0x3) <<< 20 |||
      xRegBits <<< 18 ||| yRegBits <<< 16 ||| flag xWrite 15 ||| (u32 yEaBits &&& 0x3) <<< 13 |||
      (u32 xEaBits &&& 0x1F) <<< 8 ||| aluByte
    if xExt.isSome ∨ yExt.isSome then .ok (words w0 ((xExt.or yExt).getD 0)) else .ok (word w0)

def encodeParallelPm1XEa (ea : EffectiveAddress) (xReg s2 d2 : Register) (write : Bool)
    (aluByte : Word) (sym : SymbolTable) (pc : Word) : Result EncodedInstruction := do
  let (eaBits, ext) ← encodeEa ea sym pc
  let d1 ← pm1D1Bits xReg true
  let s2Bit ← pm1AccBit s2
  let d2Bit ← yBit d2 "pm1 x d2 must be y0/y1"
  .ok (withExt (1#32 <<< 20 ||| d1 <<< 18 ||| s2Bit <<< 17 ||| d2Bit <<< 16 ||| flag write 15 |||
    u32 eaBits <<< 8 ||| aluByte) ext)

def encodeParallelPm1XImm (imm : Expr) (xReg s2 d2 : Register) (aluByte : Word) (sym : SymbolTable)
    (pc : Word) : Result EncodedInstruction := do
  let v ← eval imm sym pc
  let d1 ← pm1D1Bits xReg true
  let s2Bit ← pm1AccBit s2
  let d2Bit ← yBit d2 "pm1 x imm d2 must be y0/y1"
  .ok (words (1#32 <<< 20 ||| d1 <<< 18 ||| s2Bit <<< 17 ||| d2Bit <<< 16 ||| 1#32 <<< 15 |||
    0x34#32 <<< 8 ||| aluByte) (v &&& 0xFFFFFF))

def encodeParallelPm1YEa (s1 d1 : Register) (ea : EffectiveAddress) (yReg : Register)
    (write : Bool) (aluByte : Word) (sym : SymbolTable) (pc : Word) :
    Result EncodedInstruction := do
  let (eaBits, ext) ← encodeEa ea sym pc
  let s1Bit ← pm1AccBit s1
  let d1Bit ← xBit d1 "pm1 y d1 must be x0/x1"
  let d2 ← pm1D1Bits yReg false
  .ok (withExt (1#32 <<< 20 ||| s1Bit <<< 19 ||| d1Bit <<< 18 ||| d2 <<< 16 ||| flag write 15 |||
    1#32 <<< 14 ||| u32 eaBits <<< 8 ||| aluByte) ext)

def encodeParallelPm1YImm (s1 d1 : Register) (imm : Expr) (yReg : Register) (aluByte : Word)
    (sym : SymbolTable) (pc : Word) : Result EncodedInstruction := do
  let v ← eval imm sym pc
  let s1Bit ← pm1AccBit s1
  let d1Bit ← xBit d1 "pm1 y imm d1 must be x0/x1"
  let d2 ← pm1D1Bits yReg false
  .ok (words (1#32 <<< 20 ||| s1Bit <<< 19 ||| d1Bit <<< 18 ||| d2 <<< 16 ||| 1#32 <<< 15 |||
    1#32 <<< 14 ||| 0x34#32 <<< 8 ||| aluByte) (v &&& 0xFFFFFF))

/-- Accumulator to memory and x0 or y0 to the accumulator; the data register has no field. -/
def encodeParallelPm0 (acc : Register) (space : MemorySpace) (ea : EffectiveAddress)
    (_dataReg : Register) (aluByte : Word) (sym : SymbolTable) (pc : Word) :
    Result EncodedInstruction := do
  let (eaBits, ext) ← encodeEa ea sym pc
  let accBit ← pm1AccBit acc
  .ok (withExt (0x080000 ||| accBit <<< 16 ||| flag (space = .y) 15 ||| u32 eaBits <<< 8 |||
    aluByte) ext)

/-- Immediate to a register: control registers take the MOVEC immediate encodings. -/
def encodeImmToReg (imm : Expr) (dst : Register) (forceLong : Bool) (aluByte : Word)
    (sym : SymbolTable) (pc : Word) : Result EncodedInstruction := do
  let v24 := (← eval imm sym pc) &&& 0xFFFFFF
  if dst.isMovecOnly then
    if aluByte ≠ 0 then encErr "parallel ALU op not allowed with control-register immediate move"
    else
      let code := dst.bits &&& 0x1F
      if (imm.isBareLit ∨ imm.isFrac) ∧ v24 ≤ 0xFF ∧ ¬ forceLong then
        .ok (word (0x0500A0 ||| v24 <<< 8 ||| code))
      else .ok (words (0x05F420 ||| code) v24)
  else encodePlainImmToReg imm dst aluByte sym pc

def noParallelAlu (aluByte : Word) (inst : Result EncodedInstruction) : Result EncodedInstruction :=
  if aluByte ≠ 0 then encErr "parallel ALU op not allowed with control-register move" else inst

def encodeParallelMove (aluByte : Word) (pmove : ParallelMove) (sym : SymbolTable) (pc : Word) :
    Result EncodedInstruction :=
  match pmove with
  | .none => .ok (word (0x200000 ||| aluByte))
  | .regToReg src dst =>
    if src.isMovecOnly ∨ dst.isMovecOnly then
      noParallelAlu aluByte (encodeMovecReg src dst true)
    else do
      let srcIdx ← pm5RegBits src
      let dstIdx ← pm5RegBits dst
      .ok (word (0x200000 ||| srcIdx <<< 13 ||| dstIdx <<< 8 ||| aluByte))
  | .eaUpdate ea _ => do
    let (eaBits, _) ← encodeEa ea sym pc
    .ok (word (0x204000 ||| (u32 eaBits &&& 0x1F) <<< 8 ||| aluByte))
  | .immToReg imm dst forceLong => encodeImmToReg imm dst forceLong aluByte sym pc
  | .xyMem space ea reg write =>
    if reg.isMovecOnly then noParallelAlu aluByte (encodeMovecEa space ea reg write sym pc)
    else encodeParallelXyMem space ea reg write aluByte sym pc
  | .xyAbs space addr reg write forceShort =>
    if reg.isMovecOnly then noParallelAlu aluByte (encodeMovecAa space addr reg write sym pc)
    else encodeParallelXyAbs space addr reg write forceShort aluByte sym pc
  | .xyDouble xEa xReg yEa yReg xWrite yWrite =>
    encodeParallelXyDouble xEa xReg yEa yReg xWrite yWrite aluByte sym pc
  | .lMem ea reg write => encodeParallelLMem ea reg write aluByte sym pc
  | .lAbs addr reg write forceShort =>
    encodeParallelLAbs addr reg write forceShort aluByte sym pc
  | .lImm _ _ => encErr "immediate move to an L register is not a valid instruction"
  | .xReg ea xReg s2 d2 write => encodeParallelPm1XEa ea xReg s2 d2 write aluByte sym pc
  | .xImmReg imm xReg s2 d2 => encodeParallelPm1XImm imm xReg s2 d2 aluByte sym pc
  | .regY s1 d1 ea yReg write => encodeParallelPm1YEa s1 d1 ea yReg write aluByte sym pc
  | .regYImm s1 d1 imm yReg => encodeParallelPm1YImm s1 d1 imm yReg aluByte sym pc
  | .pm0 acc space ea dataReg => encodeParallelPm0 acc space ea dataReg aluByte sym pc
  | .ifcc cc => .ok (word (0x202000 ||| cc.bits <<< 8 ||| aluByte))
  | .ifccU cc => .ok (word (0x203000 ||| cc.bits <<< 8 ||| aluByte))

def encodeParallel (alu : ParallelAlu) (pmove : ParallelMove) (sym : SymbolTable) (pc : Word) :
    Result EncodedInstruction :=
  match alu.encode with
  | none => encErr s!"undefined ALU operation: '{alu.toText}'"
  | some aluByte => encodeParallelMove (u32 aluByte) pmove sym pc

end Dsp56300.Asm
