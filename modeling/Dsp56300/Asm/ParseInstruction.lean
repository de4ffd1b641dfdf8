import Dsp56300.Asm.ParseMoves

/-! The parsers of instructions, by mnemonic. -/

namespace Dsp56300.Asm

open Lib.LineParsers LineParser

set_option linter.constructorNameAsVariable false

/-- `#imm,d`, or the parallel form. -/
def parseImmAluOrParallel (mnem : String) (makeShort makeLong : Expr → Accumulator → Instruction) :
    Parse Instruction := do
  if ← isHash then
    let (imm, forceLong) ← parseImmOpWithForce
    expectComma
    let d ← parseAccOp
    let short := !forceLong && imm.asU32.any (· ≤ 0x3F)
    return if short then makeShort imm d else makeLong imm d
  parseParallelFromAlu mnem

def parseLslLsr (mnem : String) (makeImm : Expr → Accumulator → Instruction)
    (makeReg : Register → Accumulator → Instruction) : Parse Instruction := do
  if ← isHash then
    let shift ← parseImmOp
    expectComma
    return makeImm shift (← parseAccOp)
  match ← tryParseSssReg with
  | some reg => return makeReg reg (← parseAccOp)
  | none => parseParallelFromAlu mnem

def parseShift (mnem : String) (makeImm : Expr → Accumulator → Accumulator → Instruction)
    (makeReg : Register → Accumulator → Accumulator → Instruction) : Parse Instruction := do
  if ← isHash then
    let shift ← parseImmOp
    expectComma
    let src ← parseAccOp
    expectComma
    return makeImm shift src (← parseAccOp)
  match ← tryParseSssReg with
  | some reg =>
    let src ← parseAccOp
    expectComma
    return makeReg reg src (← parseAccOp)
  | none => parseParallelFromAlu mnem

/-- A branch to a register or a label (`parse_bra_bsr`, and `parse_bcc` with its condition). -/
def parseBranch (makeRn : RegNum → Instruction) (makeLabel : Expr → Bool → Instruction) :
    Parse Instruction := do
  skipPmem
  discard eatForceShort
  let forceLong ← checkForceLongAddr
  match ← tryParseRn with
  | some rn => return makeRn rn
  | none => return makeLabel (← parseExprOp) forceLong

def parseJcc (make : EffectiveAddress → Instruction) : Parse Instruction := do
  skipPmem
  discard eatForceShort
  let forceLong ← checkForceLongAddr
  if ← atEaStart then
    return make (← parseEa)
  let target ← parseExprOp
  return make (if forceLong then .forceLongAbsAddr target else .absAddr target)

def parseJmpOrJsr (makeTarget : Expr → Bool → Instruction)
    (makeEa : EffectiveAddress → Instruction) : Parse Instruction := do
  skipPmem
  let forceShort ← eatForceShort
  let forceLong ← checkForceLongAddr
  if ← atEaStart then
    return makeEa (← parseEa)
  if forceLong then
    return makeEa (.forceLongAbsAddr (← parseExprOp))
  return makeTarget (← parseExprOp) forceShort

/-- The destinations of ANDI and ORI. -/
def controlDest : String → Option (BitVec 2)
  | "mr" => some 0
  | "ccr" => some 1
  | "omr" | "com" => some 2
  | "eom" => some 3
  | _ => none

def parseAndiOri (make : Expr → BitVec 2 → Instruction) : Parse Instruction := do
  let imm ← parseImmOp
  expectComma
  let dest ← orFail (select fun t => t.name.bind controlDest)
    (.custom "expected mr, ccr, omr/com, or eom")
  return make imm dest

def parseBitOp (make : Expr → BitTarget → Instruction) : Parse Instruction := do
  let bit ← parseImmOp
  expectComma
  return make bit (← parseBitTarget)

def parseBitBranch (make : Expr → BitTarget → Expr → Instruction) : Parse Instruction := do
  let bit ← parseImmOp
  expectComma
  let target ← parseBitTarget
  expectComma
  skipPmem
  return make bit target (← parseExprOp)

def tccPair (src dst : Register) : Parse (RegNum × RegNum) :=
  match src, dst with
  | .r srcN, .r dstN => return (srcN, dstN)
  | _, _ => fail (.custom "tcc second pair must be R registers")

def parseTcc (cc : CondCode) : Parse Instruction := do
  let firstSrc ← parseReg
  expectComma
  let firstDst ← parseReg
  -- R registers alone
  match firstSrc, firstDst, ← atEol with
  | .r srcN, .r dstN, true => return .tcc cc none (some (srcN, dstN))
  | _, _, true => return .tcc cc (some (firstSrc, firstDst)) none
  | _, _, false =>
    let src2 ← parseReg
    expectComma
    let dst2 ← parseReg
    return .tcc cc (some (firstSrc, firstDst)) (some (← tccPair src2 dst2))

/-- The shift form `S,#n,D`; nothing is taken where the second operand is no `#n`. -/
def tryParseMulShift (mnem : MulShiftOp) : Parse (Option Instruction) := do
  let operands ← attempt do
    let sign ← parseSign
    match (← next).bind fun t => t.name.bind parseRegister with
    | some src =>
      if !(← eat .comma) then
        return none
      if !(← isHash) then
        return none
      return some (sign, src)
    | none => return none
  match operands with
  | none => return none
  | some (sign, src) =>
    let shift ← parseImmOp
    expectComma
    return some (.mulShift mnem sign src shift (← parseAccOp))

def mulShiftMnem : String → Option MulShiftOp
  | "mpy" => some .mpy
  | "mpyr" => some .mpyr
  | "mac" => some .mac
  | "macr" => some .macr
  | _ => none

/-- The mnemonic is a stem and a condition. -/
def stemCc (stem mnem : String) : Option CondCode := (stripPrefix stem mnem).bind parseCc

def parseConditional (mnem : String) : Parse Instruction := do
  if let some cc := stemCc "debug" mnem then
    return .debugcc cc
  if let some cc := stemCc "trap" mnem then
    return .trapcc cc
  if let some cc := stemCc "brk" mnem then
    return .brkcc cc
  if let some cc := stemCc "bs" mnem then
    return ← parseBranch (.bsccRn cc) (.bscc cc)
  if let some cc := stemCc "b" mnem then
    return ← parseBranch (.bccRn cc) (.bcc cc)
  if let some cc := stemCc "js" mnem then
    return ← parseJcc (.jsccEa cc)
  if let some cc := stemCc "j" mnem then
    return ← parseJcc (.jccEa cc)
  if let some cc := stemCc "t" mnem then
    return ← parseTcc cc
  match mulShiftMnem mnem with
  | some msm =>
    match ← tryParseMulShift msm with
    | some inst => return inst
    | none => parseParallelFromAlu mnem
  | none => parseParallelFromAlu mnem

/-- `#imm,src,dst` with a sign. -/
def parseImmMul (make : Sign → Expr → Register → Accumulator → Instruction) :
    Parse Instruction := do
  let sign ← parseSign
  let imm ← parseImmOp
  expectComma
  let src ← parseReg
  expectComma
  return make sign imm src (← parseAccOp)

/-- `s1,s2,dst` with a sign. -/
def parseRegMul (make : Sign → Register → Register → Accumulator → Instruction) :
    Parse Instruction := do
  let sign ← parseSign
  let s1 ← parseReg
  expectComma
  let s2 ← parseReg
  expectComma
  return make sign s1 s2 (← parseAccOp)

/-- `src,dst`. -/
def parseRegAcc (make : Register → Accumulator → Instruction) : Parse Instruction := do
  let src ← parseReg
  expectComma
  return make src (← parseAccOp)

def parseLuaRelDest (base : RegNum) (offset : Expr) : Parse Instruction := do
  match ← select Token.name with
  | some name =>
    match (stripPrefix "r" name).bind parseU8, (stripPrefix "n" name).bind parseU8 with
    | some n, _ => return .luaRel base offset false n
    | none, some n => return .luaRel base offset true n
    | none, none => fail (.custom "expected rN or nN destination")
  | none => fail (.custom "expected rN or nN destination")

def parseLua : Parse Instruction := do
  expect .lParen
  let base ← parseRn
  match ← next with
  | some .plus =>
    match ← selectNn with
    | some nn =>
      if nn ≠ base then
        nnMismatch
      expect .rParen
      expectComma
      return .lua (.indexedN base) (← parseReg)
    | none =>
      let offset ← parseExprOp
      expect .rParen
      expectComma
      parseLuaRelDest base offset
  | some .minus =>
    match ← parseExprOp with
    | .literal v =>
      expect .rParen
      expectComma
      parseLuaRelDest base (.literal (-v))
    | _ => fail (.custom "offset must be literal")
  | some .rParen =>
    let ea ← match ← select plusOrMinus with
      | some .plus => parsePostModify base (.postIncN base) (.postInc base)
      | some .minus => parsePostModify base (.postDecN base) (.postDec base)
      | none => pure (.noUpdate base)
    expectComma
    return .lua ea (← parseReg)
  | _ => fail (.custom "expected ')' or '+' or '-'")

def parseLra : Parse Instruction := do
  match ← tryParseRn with
  | some rn =>
    expectComma
    return .lraRn rn (← parseReg)
  | none =>
    let target ← parseExprOp
    expectComma
    return .lraDisp target (← parseReg)

/-- EXTRACT, EXTRACTU and INSERT: an immediate or a register, then a source of the kind that the
instruction has. -/
def parseExtractOrInsert {α : Type} (parseS2 : Parse α)
    (makeImm : Expr → α → Accumulator → Instruction)
    (makeReg : Register → α → Accumulator → Instruction) : Parse Instruction := do
  if ← eat .hash then
    let co ← parseExprOp
    expectComma
    let s2 ← parseS2
    expectComma
    return makeImm co s2 (← parseAccOp)
  let s1 ← parseReg
  expectComma
  let s2 ← parseS2
  expectComma
  return makeReg s1 s2 (← parseAccOp)

/-- DO and DOR. -/
def parseDo (makeForever : Expr → Instruction) (make : CountSource → Expr → Instruction) :
    Parse Instruction := do
  match ← select fun t => t.name.filter fun s => toAsciiLowercase s = "forever" with
  | some _ =>
    expectComma
    skipPmem
    return makeForever (← parseExprOp)
  | none =>
    let source ← parseCountSource
    expectComma
    skipPmem
    return make source (← parseExprOp)

def parseNorm : Parse Instruction := do
  match ← parseReg with
  | .r n =>
    expectComma
    return .norm n (← parseAccOp)
  | _ => fail (.custom "norm source must be R register")

def parseVsl : Parse Instruction := do
  let s ← parseAccOp
  expectComma
  let iBit ← match ← parseExprOp with
    | .literal 0 => pure 0
    | .literal 1 => pure 1
    | _ => fail (.custom "vsl bit must be 0 or 1")
  expectComma
  discard (eat .lMem)
  return .vsl s iBit (← parseEaOrAbs)

def parseClb : Parse Instruction := do
  let s ← parseAccOp
  expectComma
  return .clb s (← parseAccOp)

def parseTarget (make : Expr → Instruction) : Parse Instruction := do
  skipPmem
  return make (← parseExprOp)

def parseInstructionWithMnemonic (mnem : String) : Parse Instruction :=
  match mnem with
  | "nop" => return .nop
  | "rts" => return .rts
  | "rti" => return .rti
  | "reset" => return .reset
  | "stop" => return .stop
  | "wait" => return .wait
  | "enddo" => return .endDo
  | "ill" | "illegal" => return .illegal
  | "inc" => return .inc (← parseAccOp)
  | "dec" => return .dec (← parseAccOp)
  | "add" => parseImmAluOrParallel "add" .addImm .addLong
  | "sub" => parseImmAluOrParallel "sub" .subImm .subLong
  | "cmp" => parseImmAluOrParallel "cmp" .cmpImm .cmpLong
  | "and" => parseImmAluOrParallel "and" .andImm .andLong
  | "or" => parseImmAluOrParallel "or" .orImm .orLong
  | "eor" => parseImmAluOrParallel "eor" .eorImm .eorLong
  | "andi" => parseAndiOri .andI
  | "ori" => parseAndiOri .orI
  | "asl" => parseShift "asl" .aslImm .aslReg
  | "asr" => parseShift "asr" .asrImm .asrReg
  | "lsl" => parseLslLsr "lsl" .lslImm .lslReg
  | "lsr" => parseLslLsr "lsr" .lsrImm .lsrReg
  | "jmp" => parseJmpOrJsr .jmp .jmpEa
  | "jsr" => parseJmpOrJsr .jsr .jsrEa
  | "bra" => parseBranch .braRn .bra
  | "bsr" => parseBranch .bsrRn .bsr
  | "bchg" => parseBitOp .bchg
  | "bclr" => parseBitOp .bclr
  | "bset" => parseBitOp .bset
  | "btst" => parseBitOp .btst
  | "jclr" => parseBitBranch .jclr
  | "jset" => parseBitBranch .jset
  | "jsclr" => parseBitBranch .jsclr
  | "jsset" => parseBitBranch .jsset
  | "brclr" => parseBitBranch .brclr
  | "brset" => parseBitBranch .brset
  | "bsclr" => parseBitBranch .bsclr
  | "bsset" => parseBitBranch .bsset
  | "do" => parseDo .doForever .do_
  | "dor" => parseDo .dorForever .dor
  | "rep" => return .rep (← parseCountSource)
  | "movec" => parseMovec
  | "movem" => parseMovem
  | "movep" => parseMovep
  | "move" => parseMoveOrParallel
  | "mpyi" => parseImmMul .mpyI
  | "mpyri" => parseImmMul .mpyrI
  | "maci" => parseImmMul .macI
  | "macri" => parseImmMul .macrI
  | "dmacss" => parseRegMul (.dmac 0)
  | "dmacsu" => parseRegMul (.dmac 2)
  | "dmacuu" => parseRegMul (.dmac 3)
  | "macsu" => parseRegMul (.macSU true)
  | "macuu" => parseRegMul (.macSU false)
  | "mpysu" => parseRegMul (.mpySU true)
  | "mpyuu" => parseRegMul (.mpySU false)
  | "div" => parseRegAcc .div
  | "cmpu" => parseRegAcc .cmpU
  | "norm" => parseNorm
  | "lua" => parseLua
  | "lra" => parseLra
  | "clb" => parseClb
  | "normf" => parseRegAcc .normf
  | "merge" => parseRegAcc .merge
  | "extract" => parseExtractOrInsert parseAccOp .extractImm .extractReg
  | "extractu" => parseExtractOrInsert parseAccOp .extractuImm .extractuReg
  | "insert" => parseExtractOrInsert parseReg .insertImm .insertReg
  | "vsl" => parseVsl
  | "debug" => return .debug
  | "trap" => return .trap
  | "pflush" => return .pflush
  | "pflushun" => return .pflushun
  | "pfree" => return .pfree
  | "plock" => return .plockEa (← parseEaOrAbsSimple)
  | "plockr" => parseTarget .plockr
  | "punlock" => return .punlockEa (← parseEaOrAbsSimple)
  | "punlockr" => parseTarget .punlockr
  | other => parseConditional other

end Dsp56300.Asm
