import Dsp56300.Asm.Expressions
import Dsp56300.Disasm.Format

/-! Parsers of operands. -/

namespace Dsp56300.Asm

open Lib.LineParsers LineParser

set_option linter.constructorNameAsVariable false

/-! Names. -/

/-- `str::strip_prefix`. -/
def stripPrefix (pre s : String) : Option String :=
  if pre.toList.isPrefixOf s.toList then some (String.ofList (s.toList.drop pre.toList.length))
  else none

/-- `str::parse::<u8>`. -/
def parseU8 (s : String) : Option Byte :=
  let digits := if s.toList.head? = some '+' then s.toList.tail else s.toList
  if digits ≠ [] ∧ digits.all Char.isDigit then
    let v := digits.foldl (fun v c => 10 * v + digitValue c) 0
    if v < 256 then some (BitVec.ofNat 8 v) else none
  else none

/-- The number of an address register that is named by a letter and a number below 8. -/
def regNumber (letter name : String) : Option RegNum :=
  ((stripPrefix letter name).bind parseU8).bind fun n => if n < 8 then some (n.setWidth 3) else none

def nnFromStr (name : String) : Option RegNum := regNumber "n" name

/-- Parse a condition code name. -/
def parseCc (name : String) : Option CondCode :=
  let nameLc := toAsciiLowercase name
  (ccNames.zip CondCode.all).lookup nameLc

/-! Leaf parsers. -/

/-- The name in an identifier. -/
def Token.name : Token → Option String
  | .ident s => some s
  | _ => none

/-- `select!` of an identifier, then a function of its name that may fail. -/
def parseNamed {α : Type} (f : String → Option α) (expected : String) : Parse α := do
  match ← next with
  | some (.ident s) =>
    match f s with
    | some a => return a
    | none => fail (.custom expected)
  | _ => fail .expectedFound

def parseReg : Parse Register := parseNamed parseRegister "expected register"

def parseRn : Parse RegNum := parseNamed (regNumber "r") "expected rN register"

/-- The accumulator of a name, in either case. -/
def accName (s : String) : Option Accumulator :=
  if toAsciiLowercase s = "a" then some .a
  else if toAsciiLowercase s = "b" then some .b
  else none

def parseAccOp : Parse Accumulator := do
  match ← next with
  | some t =>
    match t.name.bind accName with
    | some d => return d
    | none => fail .expectedFound
  | none => fail .expectedFound

def expectComma : Parse Unit := expect .comma

def atEol : Parse Bool := atEnd

/-- The next token is one of these; it is not taken. -/
def nextIs (f : Token → Bool) : Parse Bool := do return ((← peek).map f).getD false

def isHash : Parse Bool := nextIs (· = .hash)

def atEaStart : Parse Bool := nextIs fun t => t = .lParen || t = .minus

def atXOrY : Parse Bool := nextIs fun t => t = .xMem || t = .yMem

/-- Both tokens, or none of them. -/
def eatBoth (t u : Token) : Parse Bool := do
  return (← attempt do
    if ← eat t then
      if ← eat u then return some ()
    return none).isSome

/-! Effective addresses. -/

/-- The number of an index register. -/
def selectNn : Parse (Option RegNum) := select fun t => t.name.bind nnFromStr

def nnMismatch {α : Type} : Parse α :=
  fail (.custom "nN index must match rN base register in EA")

/-- What is after `(rN)+` or `(rN)-`: the index register of the same number, or nothing. -/
def parsePostModify (base : RegNum) (withN withoutN : EffectiveAddress) :
    Parse EffectiveAddress := do
  match ← selectNn with
  | some nn => if nn ≠ base then nnMismatch else return withN
  | none => return withoutN

def plusOrMinus : Token → Option Sign
  | .plus => some .plus
  | .minus => some .minus
  | _ => none

def parseEa : Parse EffectiveAddress := do
  if ← eatBoth .minus .lParen then
    let n ← parseRn
    expect .rParen
    return .preDec n
  -- all other modes start with '('
  expect .lParen
  let n ← parseRn
  match ← next with
  | some .plus =>
    match ← selectNn with
    | some nn =>
      if nn ≠ n then nnMismatch
      else
        expect .rParen
        return .indexedN nn
    | none => fail (.custom "expected nN or ')' after '+'")
  | some .rParen =>
    match ← select plusOrMinus with
    | some .plus => parsePostModify n (.postIncN n) (.postInc n)
    | some .minus => parsePostModify n (.postDecN n) (.postDec n)
    | none => return .noUpdate n
  | _ => fail (.custom "expected '+', '-', or ')' in EA")

def checkForceLongAddr : Parse Bool := eat .gt

def eatForceShort : Parse Bool := eat .lt

/-- An effective address that may be register-based or an absolute address. -/
def parseEaOrAbs : Parse EffectiveAddress := do
  if ← atEaStart then parseEa
  else if ← checkForceLongAddr then return .forceLongAbsAddr (← parseExprOp)
  else return .absAddr (← parseExprOp)

/-- The same without the force-long form. -/
def parseEaOrAbsSimple : Parse EffectiveAddress := do
  if ← atEaStart then parseEa
  else return .absAddr (← parseExprOp)

/-- The register number of an effective address. -/
def eaRegNum : EffectiveAddress → Option RegNum
  | .postDecN n | .postIncN n | .postDec n | .postInc n | .noUpdate n | .indexedN n | .preDec n =>
    some n
  | .absAddr _ | .forceLongAbsAddr _ | .immediate _ => none

/-! Immediates. -/

/-- A character literal: a string literal of one byte. -/
def charLiteral : Token → Option I64
  | .stringLit s =>
    match s.toList with
    | [c] => if c.toNat < 128 then some (BitVec.ofNat 64 c.toNat) else none
    | _ => none
  | _ => none

/-- `#>` or `#<`. -/
def forceMark : Token → Option Bool
  | .gt => some true
  | .lt => some false
  | _ => none

/-- Parse `#expr` or `#>expr` or `#<expr`, returning the expression and whether it is long. -/
def parseImmOpWithForce : Parse (Expr × Bool) := do
  expect .hash
  let forceLong := (← select forceMark).getD false
  match ← select charLiteral with
  | some v => return (.literal v, forceLong)
  | none => return (← parseExprOp, forceLong)

def parseImmOp : Parse Expr := do return (← parseImmOpWithForce).1

/-! Memory spaces. -/

def memorySpace : Token → Option MemorySpace
  | .xMem => some .x
  | .yMem => some .y
  | .pMem => some .p
  | .lMem => some .l
  | _ => none

/-- A memory space, and whether it has the force-short modifier `<` or `<<`. -/
def parseMemspaceEx : Parse (Option (MemorySpace × Bool)) := do
  match ← select memorySpace with
  | none => return none
  | some space =>
    let forceShort ← eat .lt
    if forceShort then discard (eat .lt)
    return some (space, forceShort)

def parseMemspace : Parse (Option MemorySpace) := do return (← parseMemspaceEx).map Prod.fst

def skipPmem : Parse Unit := discard (eat .pMem)

/-! Registers that choose a form. -/

/-- An R0-R7 register, taken if it is the next token. -/
def tryParseRn : Parse (Option RegNum) :=
  select fun t => match t.name.bind parseRegister with
    | some (.r n) => some n
    | _ => none

/-- A register a1/b1/x0/y0/x1/y1 followed by a comma, or nothing. -/
def tryParseSssReg : Parse (Option Register) := attempt do
  match (← next).bind fun t => t.name.bind parseRegister with
  | some reg =>
    if reg ∈ [Register.a1, .b1, .x0, .y0, .x1, .y1] then
      if ← eat .comma then return some reg
    return none
  | none => return none

/-! Bit targets and loop counts. -/

def parseBitTarget : Parse BitTarget := do
  match ← parseMemspace with
  | some space =>
    if space ≠ .x ∧ space ≠ .y then
      fail (.custom "expected x: or y: for bit target")
    if ← atEaStart then
      return .ea space (← parseEa)
    if ← eat .hash then
      return .ea space (.immediate (← parseExprOp))
    let forceLong ← checkForceLongAddr
    let addr ← parseExprOp
    if forceLong then return .ea space (.absAddr addr)
    else return .addr space addr
  | none => return .reg (← parseReg)

/-- Source of a loop or repeat count. -/
def parseCountSource : Parse CountSource := do
  if ← isHash then
    return .imm (← parseImmOp)
  match ← parseMemspace with
  | some space =>
    if space ≠ .x ∧ space ≠ .y then
      fail (.custom "expected x: or y:")
    if ← atEaStart then
      return .ea space (← parseEa)
    let forceLong ← checkForceLongAddr
    let addr ← parseExprOp
    if forceLong then return .ea space (.absAddr addr)
    else return .aa space addr
  | none => return .reg (← parseReg)

/-- The sign before a product; plus where there is none. -/
def parseSign : Parse Sign := do return (← select plusOrMinus).getD .plus

end Dsp56300.Asm
