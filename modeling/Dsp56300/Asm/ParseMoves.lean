import Dsp56300.Asm.ParseOperands

/-! Parsers of parallel instructions and of moves. -/

namespace Dsp56300.Asm

open Lib.LineParsers LineParser

set_option linter.constructorNameAsVariable false

/-! Second halves of dual moves. -/

/-- The rest of a dual move: `xWrite` where the X move is a read from memory. -/
def parseDualMoveRest (xReg : Register) (xSpace : MemorySpace) (xEa : EffectiveAddress)
    (xWrite : Bool) : Parse ParallelMove := do
  if ← nextIs (· = .yMem) then
    discard parseMemspace
    let yEa ← parseEaOrAbsSimple
    expectComma
    let yReg ← parseReg
    return .xyDouble xEa xReg yEa yReg xWrite true
  let s2 ← parseReg
  expectComma
  if ← nextIs (· = .yMem) then
    discard parseMemspace
    let yEa ← parseEaOrAbsSimple
    return .xyDouble xEa xReg yEa s2 xWrite false
  let d2 ← parseReg
  -- Pm0: acc,space:(ea) data_reg,acc (only in the write form)
  if !xWrite && xReg = d2 && (xReg = .a || xReg = .b) then
    return .pm0 xReg xSpace xEa s2
  if xSpace = .x then
    return .xReg xEa xReg s2 d2 xWrite
  fail (.custom "unexpected dual move after Y memory read")

/-- `reg,space:` or `space:` with a register-based address, single. -/
def memMove (space : MemorySpace) (ea : EffectiveAddress) (reg : Register) (write : Bool) :
    ParallelMove :=
  if space = .l then .lMem ea reg write else .xyMem space ea reg write

/-- The same with an absolute address. -/
def absMove (space : MemorySpace) (addr : Expr) (reg : Register) (write forceShort : Bool) :
    ParallelMove :=
  if space = .l then .lAbs addr reg write forceShort
  else .xyAbs space addr reg write forceShort

/-- The memory space that `peek` has found. -/
def parseMemspaceFound : Parse (MemorySpace × Bool) := orFail parseMemspaceEx .expectedFound

def parseParallelMemFirst : Parse ParallelMove := do
  let (space, forceShort) ← parseMemspaceFound
  if !forceShort && (← atEaStart) then
    let ea ← parseEa
    expectComma
    let reg ← parseReg
    if !(← atEol) then
      return ← parseDualMoveRest reg space ea true
    return memMove space ea reg true
  -- x:$xxxx,reg or x:<addr,reg
  let addr ← parseExprOp
  expectComma
  let reg ← parseReg
  if !(← atEol) then
    return ← parseDualMoveRest reg space (.absAddr addr) true
  return absMove space addr reg true forceShort

/-- `#imm,reg` or `#imm,reg s2,d2`. -/
def parseParallelImm : Parse ParallelMove := do
  let (imm, forceLong) ← parseImmOpWithForce
  expectComma
  let dst ← parseReg
  if !(← atEol) then
    let s2 ← parseReg
    expectComma
    let d2 ← parseReg
    return .xImmReg imm dst s2 d2
  if dst.isLComposite then
    return .lImm imm dst
  -- the control registers cannot be encoded in the register field
  if forceLong && dst.index < 0x20 then
    return .xyMem .x (.immediate imm) dst true
  return .immToReg imm dst forceLong

/-- `(ea),rN`, or the bare `(ea)`, which names the register. -/
def parseParallelUpdate : Parse ParallelMove := do
  let ea ← parseEa
  if !(← atEol) && (← nextIs (· = .comma)) then
    expectComma
    match ← parseReg with
    | .r n => return .eaUpdate ea n
    | _ => fail (.custom "EA update destination must be R register")
  else
    match eaRegNum ea with
    | some n => return .eaUpdate ea n
    | none => fail (.custom "cannot infer register from EA")

/-- `reg,...`, after the register. -/
def parseParallelRegFirst (reg : Register) : Parse ParallelMove := do
  expectComma
  if ← nextIs fun t => t = .xMem || t = .yMem || t = .lMem then
    let (space, forceShort) ← parseMemspaceFound
    if !forceShort && (← atEaStart) then
      let ea ← parseEa
      if !(← atEol) then
        return ← parseDualMoveRest reg space ea false
      return memMove space ea reg false
    let addr ← parseExprOp
    if !(← atEol) then
      return ← parseDualMoveRest reg space (.absAddr addr) false
    return absMove space addr reg false forceShort
  let dst ← parseReg
  if !(← atEol) then
    if ← nextIs (· = .yMem) then
      discard parseMemspace
      let yEa ← parseEaOrAbsSimple
      expectComma
      let d2 ← parseReg
      return .regY reg dst yEa d2 true
    if ← isHash then
      let imm ← parseImmOp
      expectComma
      let d2 ← parseReg
      return .regYImm reg dst imm d2
    -- s1,d1 d2,y:(ea)
    let d2 ← parseReg
    expectComma
    if !(← nextIs (· = .yMem)) then
      fail (.custom "expected y: in Pm1 Class II move")
    discard parseMemspace
    let yEa ← parseEaOrAbsSimple
    return .regY reg dst yEa d2 false
  return .regToReg reg dst

def parseParallelMove : Parse ParallelMove := do
  if ← isHash then
    return ← parseParallelImm
  if ← nextIs fun t => t = .xMem || t = .yMem || t = .lMem then
    return ← parseParallelMemFirst
  if ← atEaStart then
    return ← parseParallelUpdate
  -- IFcc / IFcc.U
  match ← select fun t => (t.name.bind (stripPrefix "if")).bind parseCc with
  | some cc =>
    if ← eatBoth .dot (.ident "u") then return .ifccU cc
    else return .ifcc cc
  | none =>
    match ← select fun t => t.name.bind parseRegister with
    | some reg => parseParallelRegFirst reg
    | none => fail (.custom "unexpected token in parallel move")

/-! The ALU part. -/

/-- Source operand of a parallel ALU operation. -/
inductive AluSrc where
  | acc (d : Accumulator)
  | xyPair (hi lo : RegIdx)
  | reg (r : RegIdx)

def aluSrcName (name : String) : Option AluSrc :=
  match toAsciiLowercase name with
  | "a" => some (.acc .a)
  | "b" => some (.acc .b)
  | "x" => some (.xyPair Reg.x1 Reg.x0)
  | "y" => some (.xyPair Reg.y1 Reg.y0)
  | "x0" => some (.reg Reg.x0)
  | "x1" => some (.reg Reg.x1)
  | "y0" => some (.reg Reg.y0)
  | "y1" => some (.reg Reg.y1)
  | _ => none

def jjName : String → Option RegIdx
  | "x0" => some Reg.x0
  | "x1" => some Reg.x1
  | "y0" => some Reg.y0
  | "y1" => some Reg.y1
  | _ => none

def tryAcc : Parse (Option Accumulator) := select fun t => t.name.bind accName

def tryAluSrc : Parse (Option AluSrc) := select fun t => t.name.bind aluSrcName

def tryComma : Parse Bool := eat .comma

/-- A register x0/y0/x1/y1. -/
def tryJjReg : Parse (Option RegIdx) := select fun t => t.name.bind jjName

/-- Operations on an accumulator. -/
def unaryAlu : String → Option (Accumulator → ParallelAlu)
  | "tst" => some .tst
  | "rnd" => some .rnd
  | "clr" => some .clr
  | "not" => some .not
  | "asr" => some .asr
  | "lsr" => some .lsr
  | "abs" => some .abs
  | "ror" => some .ror
  | "asl" => some .asl
  | "lsl" => some .lsl
  | "neg" => some .neg
  | "rol" => some .rol
  | _ => none

/-- Operations with a source and a destination. -/
def binaryAlus : List String :=
  ["tfr", "add", "sub", "cmp", "cmpm", "addr", "subr", "addl", "subl", "adc", "sbc", "or", "eor",
    "and", "max", "maxm"]

def accAlu (src d : Accumulator) : String → Option ParallelAlu
  | "tfr" => some (.tfrAcc src d)
  | "add" => some (.addAcc src d)
  | "sub" => some (.subAcc src d)
  | "cmp" => some (.cmpAcc src d)
  | "cmpm" => some (.cmpmAcc src d)
  | "addr" => some (.addr src d)
  | "subr" => some (.subr src d)
  | "addl" => some (.addl src d)
  | "subl" => some (.subl src d)
  | "max" => some .max
  | "maxm" => some .maxm
  | _ => none

def pairAlu (hi lo : RegIdx) (d : Accumulator) : String → Option ParallelAlu
  | "add" => some (.addXY hi lo d)
  | "sub" => some (.subXY hi lo d)
  | "adc" => some (.adc hi lo d)
  | "sbc" => some (.sbc hi lo d)
  | _ => none

def regAlu (src : RegIdx) (d : Accumulator) : String → Option ParallelAlu
  | "add" => some (.addReg src d)
  | "tfr" => some (.tfrReg src d)
  | "or" => some (.or src d)
  | "eor" => some (.eor src d)
  | "sub" => some (.subReg src d)
  | "cmp" => some (.cmpReg src d)
  | "and" => some (.and src d)
  | "cmpm" => some (.cmpmReg src d)
  | _ => none

def mulAlu : String → Option (Bool → RegIdx → RegIdx → Accumulator → ParallelAlu)
  | "mpy" => some .mpy
  | "mpyr" => some .mpyr
  | "mac" => some .mac
  | "macr" => some .macr
  | _ => none

/-- `mnemonic src,d`: the kind of the source chooses the operation. -/
def parseBinaryAlu (mnemonic : String) : Parse ParallelAlu := do
  let src ← orFail tryAluSrc (.custom "expected ALU source operand")
  if !(← tryComma) then
    fail (.custom "expected ','")
  let d ← orFail tryAcc (.custom "expected accumulator destination")
  match src with
  | .acc src =>
    orFail (pure (accAlu src d mnemonic))
      (.custom s!"'{mnemonic}' does not accept accumulator source")
  | .xyPair hi lo =>
    orFail (pure (pairAlu hi lo d mnemonic))
      (.custom s!"'{mnemonic}' does not accept x/y pair source")
  | .reg src =>
    orFail (pure (regAlu src d mnemonic)) (.custom s!"'{mnemonic}' does not accept register source")

/-- `mnemonic s1,s2,d`, with a sign or not: the pair is encoded in one of its two orders. -/
def parseMulAlu (make : Bool → RegIdx → RegIdx → Accumulator → ParallelAlu) :
    Parse ParallelAlu := do
  let negate := (← select plusOrMinus) = some .minus
  let s1 ← orFail tryJjReg (.custom "expected source register (x0/y0/x1/y1)")
  if !(← tryComma) then
    fail (.custom "expected ','")
  let s2 ← orFail tryJjReg (.custom "expected source register (x0/y0/x1/y1)")
  if !(← tryComma) then
    fail (.custom "expected ','")
  let d ← orFail tryAcc (.custom "expected accumulator destination")
  if (make negate s1 s2 d).encode.isSome then return make negate s1 s2 d
  else if (make negate s2 s1 d).encode.isSome then return make negate s2 s1 d
  else fail (.custom "invalid multiply register pair")

def parseAlu (mnemonic : String) : Parse ParallelAlu := do
  if mnemonic = "move" then
    return .move
  match unaryAlu mnemonic with
  | some op => return op (← orFail tryAcc (.custom "expected accumulator"))
  | none =>
    if mnemonic ∈ binaryAlus then
      return ← parseBinaryAlu mnemonic
    match mulAlu mnemonic with
    | some make => parseMulAlu make
    | none => fail (.custom s!"unknown parallel ALU mnemonic: '{mnemonic}'")

def parseParallelFromAlu (mnemonic : String) : Parse Instruction := do
  let alu ← parseAlu mnemonic
  if ← atEol then return .parallel alu .none
  else return .parallel alu (← parseParallelMove)

/-! Moves without a parallel part. -/

def parseMovec : Parse Instruction := do
  if ← isHash then
    let (imm, forceLong) ← parseImmOpWithForce
    expectComma
    let reg ← parseReg
    let short := !forceLong && imm.asU32.any (· ≤ 0xFF)
    return if short then .movecImm imm reg else .movecEa .x (.immediate imm) reg true
  if ← atXOrY then
    let (space, _) ← parseMemspaceFound
    if ← atEaStart then
      let ea ← parseEa
      expectComma
      return .movecEa space ea (← parseReg) true
    let forceLong ← checkForceLongAddr
    let addr ← parseExprOp
    expectComma
    let reg ← parseReg
    return if forceLong then .movecEa space (.absAddr addr) reg true
      else .movecAa space addr reg true
  let reg1 ← parseReg
  expectComma
  if ← atXOrY then
    let (space, _) ← parseMemspaceFound
    if ← atEaStart then
      return .movecEa space (← parseEa) reg1 false
    let forceLong ← checkForceLongAddr
    let addr ← parseExprOp
    return if forceLong then .movecEa space (.absAddr addr) reg1 false
      else .movecAa space addr reg1 false
  return .movecReg reg1 (← parseReg) true

def parseMovem : Parse Instruction := do
  if ← eat .pMem then
    if ← atEaStart then
      let ea ← parseEa
      expectComma
      return .movemEa ea (← parseReg) true
    let forceLong ← checkForceLongAddr
    let addr ← parseExprOp
    expectComma
    let reg ← parseReg
    return if forceLong then .movemEa (.absAddr addr) reg true else .movemAa addr reg true
  let reg ← parseReg
  expectComma
  skipPmem
  if ← atEaStart then
    return .movemEa (← parseEa) reg false
  let forceLong ← checkForceLongAddr
  let addr ← parseExprOp
  return if forceLong then .movemEa (.absAddr addr) reg false else .movemAa addr reg false

def expectMemspace : Parse MemorySpace := orFail parseMemspace (.custom "expected memory space")

/-- The encoder finds which address is the peripheral's. -/
def parseMovep : Parse Instruction := do
  if ← isHash then
    let imm ← parseImmOp
    expectComma
    let space ← expectMemspace
    return .movep23Imm space (← parseExprOp) imm
  if ← nextIs fun t => t = .xMem || t = .yMem || t = .pMem then
    let (space1, _) ← parseMemspaceFound
    if space1 = .p then
      let ea ← parseEaOrAbs
      expectComma
      let space2 ← expectMemspace
      return .movep1 space2 (← parseExprOp) ea true
    if ← atEaStart then
      let ea ← parseEa
      expectComma
      let space2 ← expectMemspace
      return .movep23 space2 (← parseExprOp) space1 ea true
    let addr1 ← parseExprOp
    expectComma
    if ← eat .pMem then
      return .movep1 space1 addr1 (← parseEaOrAbs) false
    if ← atXOrY then
      let (space2, _) ← parseMemspaceFound
      return .movep23 space1 addr1 space2 (← parseEaOrAbsSimple) false
    return .movep0 space1 addr1 (← parseReg) false
  let reg ← parseReg
  expectComma
  let space ← expectMemspace
  return .movep0 space (← parseExprOp) reg true

def parseSignedLiteralOffset : Parse Expr := do
  let sign ← orFail (select plusOrMinus) (.custom "expected + or - in offset expression")
  match ← parseExprOp with
  | .literal v => return .literal (if sign = .plus then v else -v)
  | _ => fail (.custom "offset must be literal")

def makeMoveXyInstr (space : MemorySpace) (rn : RegNum) (offset : Expr) (reg : Register)
    (w forceLong : Bool) : Instruction :=
  let offI := match offset with
    | .literal v => (v.setWidth 32).toInt
    | _ => 2 ^ 31 - 1
  if !forceLong && (-64 ≤ offI && offI ≤ 63) && reg.index < 16 then
    .moveShortDisp space rn offset reg w
  else .moveLongDisp space rn offset reg w

/-- `space:(rN + offset)`. -/
def parseDisplaced : Parse (MemorySpace × RegNum × Expr × Bool) := do
  let (space, _) ← parseMemspaceFound
  let forceLong ← checkForceLongAddr
  expect .lParen
  let rn ← parseRn
  let offset ← parseSignedLiteralOffset
  expect .rParen
  return (space, rn, offset, forceLong)

def parseMoveXy : Parse Instruction := do
  let (space, rn, offset, forceLong) ← parseDisplaced
  expectComma
  let reg ← parseReg
  return makeMoveXyInstr space rn offset reg true forceLong

def parseMoveRegFirst : Parse Instruction := do
  let reg ← parseReg
  expectComma
  if ← atXOrY then
    let (space, rn, offset, forceLong) ← parseDisplaced
    return makeMoveXyInstr space rn offset reg false forceLong
  fail (.custom "unexpected target for move")

def parseMove : Parse Instruction := do
  if ← atXOrY then
    return ← parseMoveXy
  if ((← peek).bind fun t => t.name.bind parseRegister).isSome then
    return ← parseMoveRegFirst
  if ← atEol then
    return .parallel .move .none
  fail (.custom "unexpected operand for move")

def parseMoveOrParallel : Parse Instruction :=
  parseMove.orElse fun _ => parseParallelFromAlu "move"

end Dsp56300.Asm
