import Dsp56300.Asm.EncodeMove

namespace Dsp56300.Asm

set_option linter.constructorNameAsVariable false

/-! Branches and jumps. -/

/-- 9-bit displacement split into the field `aaaa0aaaaa`. -/
def encodeDisp9 (disp : Word) : Word := (disp &&& 0x1E0) <<< 1 ||| (disp &&& 0x1F)

/-- The displacement fits the short form, without wrapping around the address space. -/
def fitsShortBranch (addr pc : Word) : Bool :=
  let disp := (addr - pc).toInt
  decide (disp ≥ -256) && decide (disp ≤ 255)

def encodeRelBranch (target : Expr) (pc : Word) (sym : SymbolTable) (forceLong : Bool)
    (shortBase longBase : Word) : Result EncodedInstruction := do
  let addr ← eval target sym pc
  let rel24 := (addr - pc) &&& 0xFFFFFF
  if ¬ forceLong ∧ target.isLiteral ∧ fitsShortBranch addr pc then
    .ok (word (shortBase ||| encodeDisp9 (rel24 &&& 0x1FF)))
  else .ok (words longBase rel24)

def encodeBcc (cc : CondCode) (target : Expr) (pc : Word) (sym : SymbolTable) (forceLong : Bool) :
    Result EncodedInstruction :=
  encodeRelBranch target pc sym forceLong (0x050400 ||| cc.bits <<< 12) (0x0D1040 ||| cc.bits)

def encodeBra (target : Expr) (pc : Word) (sym : SymbolTable) (forceLong : Bool) :
    Result EncodedInstruction :=
  encodeRelBranch target pc sym forceLong 0x050C00 0x0D10C0

def encodeBsr (target : Expr) (pc : Word) (sym : SymbolTable) (forceLong : Bool) :
    Result EncodedInstruction :=
  encodeRelBranch target pc sym forceLong 0x050800 0x0D1080

def encodeBscc (cc : CondCode) (target : Expr) (pc : Word) (sym : SymbolTable) (forceLong : Bool) :
    Result EncodedInstruction :=
  encodeRelBranch target pc sym forceLong (0x050000 ||| cc.bits <<< 12) (0x0D1000 ||| cc.bits)

/-- Jmp/Jsr: short 12-bit form or long 24-bit form. -/
def encodeJmpJsr (target : Expr) (forceShort : Bool) (shortBase longBase : Word)
    (sym : SymbolTable) (pc : Word) : Result EncodedInstruction := do
  let addr ← eval target sym pc
  if forceShort ∨ (target.isLiteral ∧ addr < 0x1000) then
    .ok (word (shortBase ||| (addr &&& 0xFFF)))
  else .ok (words longBase (addr &&& 0xFFFFFF))

/-- The short form of a jump to an effective address, where it has one. -/
def shortJump (ea : EffectiveAddress) (sym : SymbolTable) (pc : Word) : Result (Option Word) :=
  match ea with
  | .absAddr target => do
    let addr ← eval target sym pc
    if target.isLiteral ∧ addr < 0x1000 then .ok (some (addr &&& 0xFFF)) else .ok none
  | _ => .ok none

/-- Jcc/Jscc: short absolute where possible, else the effective address. -/
def encodeJccEa (cc : CondCode) (ea : EffectiveAddress) (shortBase longBase : Word)
    (sym : SymbolTable) (pc : Word) : Result EncodedInstruction := do
  match ← shortJump ea sym pc with
  | some addr => .ok (word (shortBase ||| cc.bits <<< 12 ||| addr))
  | none =>
    let (eaBits, ext) ← encodeEa ea sym pc
    .ok (withExt (longBase ||| u32 eaBits <<< 8 ||| cc.bits) ext)

def encodePlockEa (ea : EffectiveAddress) (base : Word) (sym : SymbolTable) (pc : Word) :
    Result EncodedInstruction := do
  let (eaBits, ext) ← encodeEa ea sym pc
  .ok (withExt (base ||| (u32 eaBits &&& 0x3F) <<< 8) ext)

def encodePlockRel (target : Expr) (base : Word) (sym : SymbolTable) (pc : Word) :
    Result EncodedInstruction := do
  let addr ← eval target sym pc
  .ok (words base ((addr - pc) &&& 0xFFFFFF))

/-! Bit operations. -/

/-- Bchg, bclr, bset and btst: `opBits` is 2, 0, 1 or 3. -/
def encodeBitOp (opBits : Word) (bit : Expr) (target : BitTarget) (sym : SymbolTable)
    (pc : Word) : Result EncodedInstruction := do
  let numbit ← eval bit sym pc
  let hi := (opBits >>> 1) &&& 1
  let lo := opBits &&& 1
  match target with
  | .reg reg =>
    let regIdx ← reg6Bits reg
    .ok (word (0x0AC000 ||| hi <<< 16 ||| regIdx <<< 8 ||| 1#32 <<< 6 ||| lo <<< 5 |||
      (numbit &&& 0x1F)))
  | .addr space addr =>
    let addrVal := normalizePeriphAddr (← eval addr sym pc)
    let s := astSpaceBit space
    if addrVal ≥ 0xFFFFC0 then
      .ok (word (0x0A8000 ||| hi <<< 16 ||| ((addrVal - 0xFFFFC0) &&& 0x3F) <<< 8 ||| s <<< 6 |||
        lo <<< 5 ||| (numbit &&& 0x1F)))
    else if addrVal ≥ 0xFFFF80 then
      .ok (word (0x010000 ||| hi <<< 14 ||| ((addrVal - 0xFFFF80) &&& 0x3F) <<< 8 ||| s <<< 6 |||
        lo <<< 5 ||| (numbit &&& 0x1F)))
    else if addrVal < 0x40 then
      .ok (word (0x0A0000 ||| hi <<< 16 ||| (addrVal &&& 0x3F) <<< 8 ||| s <<< 6 ||| lo <<< 5 |||
        (numbit &&& 0x1F)))
    else
      .ok (words (0x0A4000 ||| hi <<< 16 ||| 0x30#32 <<< 8 ||| s <<< 6 ||| lo <<< 5 |||
        (numbit &&& 0x1F)) (addrVal &&& 0xFFFFFF))
  | .ea space ea =>
    let (eaBits, ext) ← encodeEa ea sym pc
    .ok (withExt (0x0A4000 ||| hi <<< 16 ||| u32 eaBits <<< 8 ||| astSpaceBit space <<< 6 |||
      lo <<< 5 ||| (numbit &&& 0x1F)) ext)

/-- Bit-test branches have no absolute-long or immediate form: their extension word is the
branch target. -/
def rejectBitBranchMode6Ea : EffectiveAddress → Result Unit
  | .absAddr _ | .forceLongAbsAddr _ | .immediate _ =>
    encErr "bit branch address must be a short absolute or I/O short address"
  | _ => .ok ()

/-- Brclr, brset, bsclr and bsset. -/
def encodeBitBranchRel (opCode numbit extWord : Word) (target : BitTarget) (sym : SymbolTable)
    (pc : Word) : Result EncodedInstruction :=
  let setBit := opCode &&& 1
  let bs : Word := if opCode ≥ 6 then 1 else 0
  match target with
  | .addr space addr => do
    let addrVal ← eval addr sym pc
    let s := astSpaceBit space
    if addrVal ≥ 0xFFFFC0 then
      .ok (words (0x0CC000 ||| bs <<< 16 ||| ((addrVal - 0xFFFFC0) &&& 0x3F) <<< 8 ||| s <<< 6 |||
        setBit <<< 5 ||| numbit) extWord)
    else if addrVal ≥ 0xFFFF80 then
      .ok (words (0x048000 ||| bs <<< 7 ||| ((addrVal - 0xFFFF80) &&& 0x3F) <<< 8 ||| s <<< 6 |||
        setBit <<< 5 ||| numbit) extWord)
    else if addrVal < 0x40 then
      .ok (words (0x0C8000 ||| bs <<< 16 ||| (addrVal &&& 0x3F) <<< 8 ||| 1#32 <<< 7 ||| s <<< 6 |||
        setBit <<< 5 ||| numbit) extWord)
    else encErr "bit branch address must be in pp, qq, or aa range"
  | .ea space ea => do
    rejectBitBranchMode6Ea ea
    let (eaBits, _) ← encodeEa ea sym pc
    .ok (words (0x0C8000 ||| bs <<< 16 ||| u32 eaBits <<< 8 ||| astSpaceBit space <<< 6 |||
      setBit <<< 5 ||| numbit) extWord)
  | .reg reg => do
    let regIdx ← reg6Bits reg
    .ok (words (0x0CC080 ||| bs <<< 16 ||| regIdx <<< 8 ||| setBit <<< 5 ||| numbit) extWord)

/-- Jclr, jset, jsclr and jsset. -/
def encodeBitBranchAbs (opCode numbit extWord : Word) (target : BitTarget) (sym : SymbolTable)
    (pc : Word) : Result EncodedInstruction :=
  let setBit := opCode &&& 1
  let js := flag (opCode &&& 2 ≠ 0) 16
  match target with
  | .addr space addr => do
    let addrVal := normalizePeriphAddr (← eval addr sym pc)
    let s := astSpaceBit space
    if addrVal ≥ 0xFFFFC0 then
      .ok (words (0x0A8080 ||| js ||| ((addrVal - 0xFFFFC0) &&& 0x3F) <<< 8 ||| s <<< 6 |||
        setBit <<< 5 ||| numbit) extWord)
    else if addrVal ≥ 0xFFFF80 then
      .ok (words (0x018080 ||| flag (opCode &&& 2 ≠ 0) 14 |||
        ((addrVal - 0xFFFF80) &&& 0x3F) <<< 8 ||| s <<< 6 ||| setBit <<< 5 ||| numbit) extWord)
    else if addrVal < 0x40 then
      .ok (words (0x0A0080 ||| js ||| (addrVal &&& 0x3F) <<< 8 ||| s <<< 6 ||| setBit <<< 5 |||
        numbit) extWord)
    else encErr "bit branch address must be in pp, qq, or aa range"
  | .ea space ea => do
    rejectBitBranchMode6Ea ea
    let (eaBits, _) ← encodeEa ea sym pc
    .ok (words (0x0A4080 ||| js ||| u32 eaBits <<< 8 ||| astSpaceBit space <<< 6 |||
      setBit <<< 5 ||| numbit) extWord)
  | .reg reg => do
    let regIdx ← reg6Bits reg
    .ok (words (0x0AC000 ||| js ||| regIdx <<< 8 ||| setBit <<< 5 ||| numbit) extWord)

/-- Bit branches: codes 0 to 3 take an absolute target, 4 to 7 a relative one. -/
def encodeBitBranch (opCode : Word) (bit : Expr) (target : BitTarget) (addr : Expr) (pc : Word)
    (sym : SymbolTable) : Result EncodedInstruction := do
  let numbit := (← eval bit sym pc) &&& 0x1F
  let addrVal ← eval addr sym pc
  if opCode ≥ 4 then
    encodeBitBranchRel opCode numbit ((addrVal - pc) &&& 0xFFFFFF) target sym pc
  else encodeBitBranchAbs opCode numbit (addrVal &&& 0xFFFFFF) target sym pc

/-! Loops. -/

/-- DO and DOR: `off` is 0x00 and 0x10, `extWord` the end address, absolute or relative. -/
def encodeDoDorInner (source : CountSource) (extWord off : Word) (mnem : String)
    (sym : SymbolTable) (pc : Word) : Result EncodedInstruction :=
  let aa (space : MemorySpace) (addr : Expr) : Result EncodedInstruction := do
    let a ← eval addr sym pc
    if a ≤ 0x3F then
      .ok (words (0x060000 ||| off ||| (a &&& 0x3F) <<< 8 ||| astSpaceBit space <<< 6) extWord)
    else encErr s!"{mnem}: absolute address exceeds 6-bit aa range ($0000-$003f)"
  match source with
  | .imm imm => do
    let v ← eval imm sym pc
    let (lo, hi) := packLoopCount v
    .ok (words (0x060080 ||| off ||| lo <<< 8 ||| hi) extWord)
  | .reg reg => do
    let idx ← reg6Bits reg
    .ok (words (0x06C000 ||| off ||| idx <<< 8) extWord)
  | .aa space addr => aa space addr
  | .ea space ea =>
    match ea with
    | .absAddr e | .forceLongAbsAddr e => aa space e
    | .immediate _ => encErr s!"{mnem}: immediate ea is not valid"
    | _ => do
      let (eaBits, _) ← encodeEa ea sym pc
      .ok (words (0x064000 ||| off ||| u32 eaBits <<< 8 ||| astSpaceBit space <<< 6) extWord)

def encodeDo (source : CountSource) (endAddr : Expr) (sym : SymbolTable) (pc : Word) :
    Result EncodedInstruction := do
  let endA := ((← eval endAddr sym pc) - 1) &&& 0xFFFFFF
  encodeDoDorInner source endA 0x00 "do" sym pc

def encodeDor (source : CountSource) (endAddr : Expr) (pc : Word) (sym : SymbolTable) :
    Result EncodedInstruction := do
  let endA := ((← eval endAddr sym pc) - 1) &&& 0xFFFFFF
  encodeDoDorInner source ((endA - pc) &&& 0xFFFFFF) 0x10 "dor" sym pc

def encodeRep (source : CountSource) (sym : SymbolTable) (pc : Word) :
    Result EncodedInstruction :=
  let aa (space : MemorySpace) (addr : Expr) : Result EncodedInstruction := do
    let a ← eval addr sym pc
    if a ≤ 0x3F then .ok (word (0x060020 ||| (a &&& 0x3F) <<< 8 ||| astSpaceBit space <<< 6))
    else encErr "rep: absolute address exceeds 6-bit aa range ($0000-$003f)"
  match source with
  | .imm imm => do
    let v ← eval imm sym pc
    let (lo, hi) := packLoopCount v
    .ok (word (0x0600A0 ||| lo <<< 8 ||| hi))
  | .reg reg => do
    let idx ← reg6Bits reg
    .ok (word (0x06C020 ||| idx <<< 8))
  | .aa space addr => aa space addr
  | .ea space ea =>
    match ea with
    | .absAddr e | .forceLongAbsAddr e => aa space e
    | .immediate _ => encErr "rep: immediate ea is not valid"
    | _ => do
      let (eaBits, _) ← encodeEa ea sym pc
      .ok (word (0x064020 ||| u32 eaBits <<< 8 ||| astSpaceBit space <<< 6))

/-! Multiplies, compares and transfers. -/

def encodeMpyi (sign : Sign) (imm : Expr) (src : Register) (dst : Accumulator) (sym : SymbolTable)
    (pc : Word) : Result EncodedInstruction := do
  let v ← eval imm sym pc
  let qq ← qqBits src "mpyi source must be x0/y0/x1/y1"
  .ok (words (0x0141C0 ||| qq <<< 4 ||| dst.bit <<< 3 ||| flag sign.k 2) (v &&& 0xFFFFFF))

/-- The other immediate multiplies: kind 1 is mpyri, 2 maci, 3 macri. -/
def encodeImmMul (sign : Sign) (imm : Expr) (src : Register) (dst : Accumulator) (kind : Word)
    (sym : SymbolTable) (pc : Word) : Result EncodedInstruction := do
  let v ← eval imm sym pc
  let qq ← regToQq src
  .ok (words (0x0141C0 ||| qq <<< 4 ||| dst.bit <<< 3 ||| flag sign.k 2 ||| kind) (v &&& 0xFFFFFF))

/-- The two ss bits stand at positions 8 and 6. -/
def encodeDmac (ss : BitVec 2) (sign : Sign) (s1 s2 : Register) (dst : Accumulator) :
    Result EncodedInstruction := do
  let qqqq ← regsToQqqq s1 s2
  .ok (word (0x012480 ||| ((u32 ss >>> 1) &&& 1) <<< 8 ||| (u32 ss &&& 1) <<< 6 ||| dst.bit <<< 5 |||
    flag sign.k 4 ||| qqqq))

def encodeMacMpySu (isMac su : Bool) (sign : Sign) (s1 s2 : Register) (dst : Accumulator) :
    Result EncodedInstruction := do
  let qqqq ← regsToQqqq s1 s2
  let base : Word := if isMac then 0x012680 else 0x012780
  .ok (word (base ||| flag (!su) 6 ||| dst.bit <<< 5 ||| flag sign.k 4 ||| qqqq))

def encodeDiv (src : Register) (dst : Accumulator) : Result EncodedInstruction := do
  let jj ← qqBits src "div source must be x0/y0/x1/y1"
  .ok (word (0x018040 ||| jj <<< 4 ||| dst.bit <<< 3))

/-- 3-bit ggg code of cmpu: 0 names the other accumulator. -/
def cmpuGgg (src : Register) (dst : Accumulator) : Result Word :=
  match src with
  | .a | .b =>
    if (src = .a ∧ dst = .b) ∨ (src = .b ∧ dst = .a) then .ok 0
    else encErr "cmpu: can't compare accumulator with itself"
  | .x0 => .ok 4
  | .y0 => .ok 5
  | .x1 => .ok 6
  | .y1 => .ok 7
  | _ => encErr "cmpu source must be a/b/x0/y0/x1/y1"

def encodeCmpu (src : Register) (dst : Accumulator) : Result EncodedInstruction := do
  let ggg ← cmpuGgg src dst
  .ok (word (0x0C1FF0 ||| (ggg &&& 7) <<< 1 ||| dst.bit))

/-- Index of a register pair in the Tcc table. -/
def tccIdx (s1 d1 : Register) : Option Nat :=
  registersTcc.findIdx? (fun pair => pair.1 = s1.index ∧ pair.2 = d1.index)

def encodeTcc (cc : CondCode) (acc : Option (Register × Register))
    (r : Option (RegNum × RegNum)) : Result EncodedInstruction :=
  let rSrcBits : Word := (r.map fun p => u32 p.1).getD 0
  let rDstBits : Word := (r.map fun p => u32 p.2).getD 0
  match acc with
  | none => .ok (word (0x020000 ||| cc.bits <<< 12 ||| 1#32 <<< 11 ||| rSrcBits <<< 8 ||| rDstBits))
  | some (s1, d1) =>
    match tccIdx s1 d1 with
    | none => encErr "invalid tcc register pair"
    | some i =>
      .ok (word (0x020000 ||| cc.bits <<< 12 ||| flag r.isSome 16 ||| rSrcBits <<< 8 |||
        BitVec.ofNat 32 i <<< 3 ||| rDstBits))

def MulShiftOp.bits : MulShiftOp → Word
  | .mpy => 0
  | .mpyr => 1
  | .mac => 2
  | .macr => 3

def encodeMulShift (mnem : MulShiftOp) (sign : Sign) (src : Register) (shift : Expr)
    (dst : Accumulator) (sym : SymbolTable) (pc : Word) : Result EncodedInstruction := do
  let qq ← mulShiftQq src
  let n ← eval shift sym pc
  if n > 31 then encErr "mul_shift: shift amount must be 0-31"
  else
    .ok (word (0x010000 ||| n <<< 8 ||| 3#32 <<< 6 ||| qq <<< 4 ||| dst.bit <<< 3 |||
      flag sign.k 2 ||| MulShiftOp.bits mnem))

/-! Immediate arithmetic. -/

/-- 6-bit immediate ALU instruction (short form). -/
def encodeImmAlu (imm : Expr) (d : Accumulator) (opBits : Word) (sym : SymbolTable) (pc : Word) :
    Result EncodedInstruction := do
  let v ← eval imm sym pc
  .ok (word (0x014080 ||| opBits ||| (v &&& 0x3F) <<< 8 ||| d.bit <<< 3))

/-- 24-bit immediate ALU instruction (long form). -/
def encodeLongAlu (imm : Expr) (d : Accumulator) (opBits : Word) (sym : SymbolTable) (pc : Word) :
    Result EncodedInstruction := do
  let v ← eval imm sym pc
  .ok (words (0x0140C0 ||| opBits ||| d.bit <<< 3) (v &&& 0xFFFFFF))

/-- Andi and ori to one of the control bytes. -/
def encodeCtlImm (base : Word) (imm : Expr) (dest : BitVec 2) (sym : SymbolTable) (pc : Word) :
    Result EncodedInstruction := do
  let v ← eval imm sym pc
  .ok (word (base ||| (v &&& 0xFF) <<< 8 ||| (u32 dest &&& 3)))

/-- Asl and asr by an immediate. -/
def encodeShiftImm (base : Word) (shift : Expr) (src dst : Accumulator) (sym : SymbolTable)
    (pc : Word) : Result EncodedInstruction := do
  let ii ← eval shift sym pc
  .ok (word (base ||| src.bit <<< 7 ||| (ii &&& 0x3F) <<< 1 ||| dst.bit))

/-- Lsl and lsr by an immediate. -/
def encodeLogicalShiftImm (base : Word) (shift : Expr) (dst : Accumulator) (sym : SymbolTable)
    (pc : Word) : Result EncodedInstruction := do
  let ii ← eval shift sym pc
  .ok (word (base ||| (ii &&& 0x1F) <<< 1 ||| dst.bit))

/-- Asl and asr by a register. -/
def encodeShiftReg (base : Word) (shiftReg : Register) (src dst : Accumulator) :
    Result EncodedInstruction := do
  let sss ← regToSss shiftReg
  .ok (word (base ||| src.bit <<< 4 ||| (sss &&& 7) <<< 1 ||| dst.bit))

/-- Lsl and lsr by a register. -/
def encodeLogicalShiftReg (base : Word) (shiftReg : Register) (dst : Accumulator) :
    Result EncodedInstruction := do
  let sss ← regToSss shiftReg
  .ok (word (base ||| (sss &&& 7) <<< 1 ||| dst.bit))

/-- Instructions that are one base word and an effective address at bits 13:8. -/
def encodeBaseEa (base : Word) (ea : EffectiveAddress) (sym : SymbolTable) (pc : Word) :
    Result EncodedInstruction := do
  let (eaBits, ext) ← encodeEa ea sym pc
  .ok (withExt (base ||| u32 eaBits <<< 8) ext)

/-- Jcc and jscc to a 12-bit address. -/
def encodeJccShort (base : Word) (cc : CondCode) (target : Expr) (sym : SymbolTable) (pc : Word) :
    Result EncodedInstruction := do
  let addr ← eval target sym pc
  .ok (word (base ||| cc.bits <<< 12 ||| (addr &&& 0xFFF)))

/-- Normf and merge. -/
def encodeSssAcc (base : Word) (src : Register) (d : Accumulator) : Result EncodedInstruction := do
  let sss ← regToSss src
  .ok (word (base ||| sss <<< 1 ||| d.bit))

/-- Extract and extractu by a register. -/
def encodeExtractReg (base : Word) (s1 : Register) (s2 d : Accumulator) :
    Result EncodedInstruction := do
  let sss ← regToSss s1
  .ok (word (base ||| s2.bit <<< 4 ||| sss <<< 1 ||| d.bit))

/-- Extract and extractu by a control word. -/
def encodeExtractImm (base : Word) (co : Expr) (s2 d : Accumulator) (sym : SymbolTable)
    (pc : Word) : Result EncodedInstruction := do
  let coVal := (← eval co sym pc) &&& 0xFFFFFF
  .ok (words (base ||| s2.bit <<< 4 ||| d.bit) coVal)

def encodeLua (ea : EffectiveAddress) (dst : Register) (sym : SymbolTable) (pc : Word) :
    Result EncodedInstruction := do
  let (eaBits, ext) ← encodeEa ea sym pc
  let regIdx ← pm5RegBits dst
  .ok (withExt (0x044000 ||| (u32 eaBits &&& 0x1F) <<< 8 ||| regIdx) ext)

def encodeLuaRel (base : RegNum) (offset : Expr) (dstIsN : Bool) (dst : Byte) (sym : SymbolTable)
    (pc : Word) : Result EncodedInstruction := do
  let aa7 := (← eval offset sym pc) &&& 0x7F
  .ok (word (0x040000 ||| ((aa7 >>> 4) &&& 7) <<< 11 ||| u32 base <<< 8 ||| (aa7 &&& 0xF) <<< 4 |||
    flag dstIsN 3 ||| u32 dst))

def encodeLraDisp (target : Expr) (dst : Register) (sym : SymbolTable) (pc : Word) :
    Result EncodedInstruction := do
  let addr ← eval target sym pc
  let d ← pm5RegBits dst
  .ok (words (0x044040 ||| d) ((addr - pc) &&& 0xFFFFFF))

def encodeVsl (s : Accumulator) (iBit : BitVec 1) (ea : EffectiveAddress) (sym : SymbolTable)
    (pc : Word) : Result EncodedInstruction := do
  let (eaBits, ext) ← encodeEa ea sym pc
  .ok (withExt (0x0AC0C0 ||| s.bit <<< 16 ||| (u32 eaBits &&& 0x3F) <<< 8 ||| u32 iBit <<< 4) ext)

/-- Encode a single instruction into binary. -/
def encode (inst : Instruction) (pc : Word) (sym : SymbolTable) : Result EncodedInstruction :=
  match inst with
  | .nop => .ok (word 0x000000)
  | .rts => .ok (word 0x00000C)
  | .rti => .ok (word 0x000004)
  | .reset => .ok (word 0x000084)
  | .stop => .ok (word 0x000087)
  | .wait => .ok (word 0x000086)
  | .endDo => .ok (word 0x00008C)
  | .illegal => .ok (word 0x000005)
  | .inc d => .ok (word (0x000008 ||| d.bit))
  | .dec d => .ok (word (0x00000A ||| d.bit))
  | .addImm imm d => encodeImmAlu imm d 0x00 sym pc
  | .addLong imm d => encodeLongAlu imm d 0x00 sym pc
  | .subImm imm d => encodeImmAlu imm d 0x04 sym pc
  | .subLong imm d => encodeLongAlu imm d 0x04 sym pc
  | .cmpImm imm d => encodeImmAlu imm d 0x05 sym pc
  | .cmpLong imm d => encodeLongAlu imm d 0x05 sym pc
  | .andImm imm d => encodeImmAlu imm d 0x06 sym pc
  | .andLong imm d => encodeLongAlu imm d 0x06 sym pc
  | .orImm imm d => encodeImmAlu imm d 0x02 sym pc
  | .orLong imm d => encodeLongAlu imm d 0x02 sym pc
  | .eorImm imm d => encodeImmAlu imm d 0x03 sym pc
  | .eorLong imm d => encodeLongAlu imm d 0x03 sym pc
  | .andI imm dest => encodeCtlImm 0x0000B8 imm dest sym pc
  | .orI imm dest => encodeCtlImm 0x0000F8 imm dest sym pc
  | .aslImm shift src dst => encodeShiftImm 0x0C1D00 shift src dst sym pc
  | .asrImm shift src dst => encodeShiftImm 0x0C1C00 shift src dst sym pc
  | .lslImm shift dst => encodeLogicalShiftImm 0x0C1E80 shift dst sym pc
  | .lsrImm shift dst => encodeLogicalShiftImm 0x0C1EC0 shift dst sym pc
  | .aslReg shiftReg src dst => encodeShiftReg 0x0C1E40 shiftReg src dst
  | .asrReg shiftReg src dst => encodeShiftReg 0x0C1E60 shiftReg src dst
  | .lslReg shiftReg dst => encodeLogicalShiftReg 0x0C1E10 shiftReg dst
  | .lsrReg shiftReg dst => encodeLogicalShiftReg 0x0C1E30 shiftReg dst
  | .bcc cc target forceLong => encodeBcc cc target pc sym forceLong
  | .bccRn cc rn => .ok (word (0x0D1840 ||| u32 rn <<< 8 ||| cc.bits))
  | .bra target forceLong => encodeBra target pc sym forceLong
  | .braRn rn => .ok (word (0x0D18C0 ||| u32 rn <<< 8))
  | .bsr target forceLong => encodeBsr target pc sym forceLong
  | .bsrRn rn => .ok (word (0x0D1880 ||| u32 rn <<< 8))
  | .bscc cc target forceLong => encodeBscc cc target pc sym forceLong
  | .bsccRn cc rn => .ok (word (0x0D1800 ||| u32 rn <<< 8 ||| cc.bits))
  | .brkcc cc => .ok (word (0x000210 ||| cc.bits))
  | .jcc cc target => encodeJccShort 0x0E0000 cc target sym pc
  | .jccEa cc ea => encodeJccEa cc ea 0x0E0000 0x0AC0A0 sym pc
  | .jmp target forceShort => encodeJmpJsr target forceShort 0x0C0000 0x0AF080 sym pc
  | .jmpEa ea => encodeBaseEa 0x0AC080 ea sym pc
  | .jscc cc target => encodeJccShort 0x0F0000 cc target sym pc
  | .jsccEa cc ea => encodeJccEa cc ea 0x0F0000 0x0BC0A0 sym pc
  | .jsr target forceShort => encodeJmpJsr target forceShort 0x0D0000 0x0BF080 sym pc
  | .jsrEa ea => encodeBaseEa 0x0BC080 ea sym pc
  | .bchg bit target => encodeBitOp 0b10 bit target sym pc
  | .bclr bit target => encodeBitOp 0b00 bit target sym pc
  | .bset bit target => encodeBitOp 0b01 bit target sym pc
  | .btst bit target => encodeBitOp 0b11 bit target sym pc
  | .jclr bit target addr => encodeBitBranch 0b000 bit target addr pc sym
  | .jset bit target addr => encodeBitBranch 0b001 bit target addr pc sym
  | .jsclr bit target addr => encodeBitBranch 0b010 bit target addr pc sym
  | .jsset bit target addr => encodeBitBranch 0b011 bit target addr pc sym
  | .brclr bit target addr => encodeBitBranch 0b100 bit target addr pc sym
  | .brset bit target addr => encodeBitBranch 0b101 bit target addr pc sym
  | .bsclr bit target addr => encodeBitBranch 0b110 bit target addr pc sym
  | .bsset bit target addr => encodeBitBranch 0b111 bit target addr pc sym
  | .do_ source endAddr => encodeDo source endAddr sym pc
  | .doForever endAddr => do
    let la := ((← eval endAddr sym pc) - 1) &&& 0xFFFFFF
    .ok (words 0x000203 la)
  | .dor source endAddr => encodeDor source endAddr pc sym
  | .dorForever endAddr => do
    let addr := (← eval endAddr sym pc) - 1
    .ok (words 0x000202 ((addr - pc) &&& 0xFFFFFF))
  | .rep source => encodeRep source sym pc
  | .movecReg src dst w => encodeMovecReg src dst w
  | .movecAa space addr reg w => encodeMovecAa space addr reg w sym pc
  | .movecEa space ea reg w => encodeMovecEa space ea reg w sym pc
  | .movecImm imm reg => encodeMovecImm imm reg sym pc
  | .movemEa ea reg w => encodeMovemEa ea reg w sym pc
  | .movemAa addr reg w => encodeMovemAa addr reg w sym pc
  | .movep23 periphSpace periphAddr eaSpace ea w =>
    encodeMovep23 periphSpace periphAddr eaSpace ea w sym pc
  | .movep23Imm periphSpace periphAddr imm => encodeMovep23Imm periphSpace periphAddr imm sym pc
  | .movepXQq periphAddr eaSpace ea w => encodeMovepXqq periphAddr eaSpace ea w sym pc
  | .movepXQqImm periphAddr imm => encodeMovepXqqImm periphAddr imm sym pc
  | .movep1 periphSpace periphAddr ea w => encodeMovep1 periphSpace periphAddr ea w sym pc
  | .movep0 periphSpace periphAddr reg w => encodeMovep0 periphSpace periphAddr reg w sym pc
  | .moveLongDisp space offsetReg offset reg w =>
    encodeMoveLongDisp space offsetReg offset reg w sym pc
  | .moveShortDisp space offsetReg offset reg w =>
    encodeMoveShortDisp space offsetReg offset reg w sym pc
  | .mulShift mnem sign src shift dst => encodeMulShift mnem sign src shift dst sym pc
  | .mpyI sign imm src dst => encodeMpyi sign imm src dst sym pc
  | .mpyrI sign imm src dst => encodeImmMul sign imm src dst 0x01 sym pc
  | .macI sign imm src dst => encodeImmMul sign imm src dst 0x02 sym pc
  | .macrI sign imm src dst => encodeImmMul sign imm src dst 0x03 sym pc
  | .dmac ss sign s1 s2 dst => encodeDmac ss sign s1 s2 dst
  | .macSU su sign s1 s2 dst => encodeMacMpySu true su sign s1 s2 dst
  | .mpySU su sign s1 s2 dst => encodeMacMpySu false su sign s1 s2 dst
  | .div src dst => encodeDiv src dst
  | .cmpU src dst => encodeCmpu src dst
  | .norm src dst => .ok (word (0x01D815 ||| u32 src <<< 8 ||| dst.bit <<< 3))
  | .lua ea dst => encodeLua ea dst sym pc
  | .luaRel base offset dstIsN dst => encodeLuaRel base offset dstIsN dst sym pc
  | .lraRn src dst => do
    let d ← pm5RegBits dst
    .ok (word (0x04C000 ||| u32 src <<< 8 ||| d))
  | .lraDisp target dst => encodeLraDisp target dst sym pc
  | .clb s d => .ok (word (0x0C1E00 ||| s.bit <<< 1 ||| d.bit))
  | .normf src d => encodeSssAcc 0x0C1E20 src d
  | .merge src d => encodeSssAcc 0x0C1B80 src d
  | .extractReg s1 s2 d => encodeExtractReg 0x0C1A00 s1 s2 d
  | .extractImm co s2 d => encodeExtractImm 0x0C1800 co s2 d sym pc
  | .extractuReg s1 s2 d => encodeExtractReg 0x0C1A80 s1 s2 d
  | .extractuImm co s2 d => encodeExtractImm 0x0C1880 co s2 d sym pc
  | .insertReg s1 s2 d => do
    let sss ← regToSss s1
    let qqq ← regToQqq s2
    .ok (word (0x0C1B00 ||| qqq <<< 4 ||| sss <<< 1 ||| d.bit))
  | .insertImm co s2 d => do
    let qqq ← regToQqq s2
    let coVal := (← eval co sym pc) &&& 0xFFFFFF
    .ok (words (0x0C1900 ||| qqq <<< 4 ||| d.bit) coVal)
  | .debug => .ok (word 0x000200)
  | .debugcc cc => .ok (word (0x000300 ||| cc.bits))
  | .trap => .ok (word 0x000006)
  | .trapcc cc => .ok (word (0x000010 ||| cc.bits))
  | .vsl s iBit ea => encodeVsl s iBit ea sym pc
  | .pflush => .ok (word 0x000003)
  | .pflushun => .ok (word 0x000001)
  | .pfree => .ok (word 0x000002)
  | .plockEa ea => encodePlockEa ea 0x0BC081 sym pc
  | .plockr target => encodePlockRel target 0x00000F sym pc
  | .punlockEa ea => encodePlockEa ea 0x0AC081 sym pc
  | .punlockr target => encodePlockRel target 0x00000E sym pc
  | .tcc cc acc r => encodeTcc cc acc r
  | .parallel alu pmove => encodeParallel alu pmove sym pc

end Dsp56300.Asm
