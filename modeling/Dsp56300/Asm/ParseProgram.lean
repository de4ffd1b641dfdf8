import Dsp56300.Asm.ParseInstruction

/-! The parsers of statements and programs. -/

namespace Dsp56300.Asm

open Lib.LineParsers LineParser

set_option linter.constructorNameAsVariable false

def parseIdent : Parse String := orFail (select Token.name) (.custom "expected identifier")

def parseStringLit : Parse String :=
  orFail (select fun
    | .stringLit s => some s
    | _ => none) (.custom "expected string literal")

/-! Lists with commas. -/

section Lists

variable {α : Type}

/-- What follows the first item of a list. -/
def moreItems (p : Parse α) : Nat → Parse (List α)
  | 0 => fail .spent
  | fuel + 1 => do
    if ← eat .comma then
      let a ← p
      return a :: (← moreItems p fuel)
    else return []

theorem moreItems_sufficient {p : Parse α} (hp : ∀ ts, p.run ts ≠ .error .spent) {n : Nat}
    {ts : List Token} (h : ts.length < n) : Sufficient .spent (moreItems p) n ts := by
  induction n generalizing ts with
  | zero => exact absurd h (Nat.not_lt_zero _)
  | succ n ih =>
    obtain ⟨⟨eaten, rest⟩, heat⟩ := @eat_ok Token Rich Token.isNewline _ .comma ts
    refine .succ (fun _ => rfl) (.bind (.of_const (heat ▸ nofun)) fun eaten' rest' h' => ?_)
    cases heat.symm.trans h'
    cases eaten with
    | false => exact .of_const nofun
    | true =>
      rw [eat_true heat, List.length_cons] at h
      refine .bind (.of_const (hp rest)) fun a rest' hrest => ?_
      have hle := (p.suffix hrest).length_le
      exact .bind (ih (by omega)) fun _ _ _ => .of_const nofun

/-- One item or more. -/
def parseList (p : Parse α) (hp : ∀ ts, p.run ts ≠ .error .spent) : Parse (List α) := do
  let first ← p
  return first :: (← bounded .spent (moreItems p) (moreItems_sufficient hp))

end Lists

theorem parseIdent_done (ts : List Token) : parseIdent.run ts ≠ .error .spent := by
  obtain h | ⟨_, _, _, _, _, h⟩ := @select_cases Token Rich _ Token.isNewline Token.name ts
  · have hrun : parseIdent.run ts = _ := bind_ok h
    exact hrun ▸ nofun
  · have hrun : parseIdent.run ts = _ := bind_ok h
    exact hrun ▸ nofun

def parseIdentList : Parse (List String) := parseList parseIdent parseIdent_done

/-- `space:start:end`; the end is 0 where it is left out. -/
def parseRange : Parse (Option (MemorySpace × Expr × Expr)) := do
  match ← parseMemspace with
  | some space =>
    let start ← parseExprOp
    if ← eat .colon then return some (space, start, ← parseExprOp)
    else return some (space, start, .literal 0)
  | none => return none

def parseDirectiveOrInstruction (mnemonic : String) (label : Option String) : Parse Statement :=
  match toAsciiLowercase mnemonic with
  | "org" => do
    let space ← orFail parseMemspace (.custom "expected memory space after ORG")
    return .directive label (.org space (← parseExprOp))
  | "dc" => return .directive label (.dc (← parseList parseExprOp bounded_done))
  | "ds" => return .directive label (.ds (← parseExprOp))
  | "equ" => do
    let name ← orFail (pure label) (.custom "equ requires a label")
    return .directive none (.equ name (← parseExprOp))
  | "end" => return .directive label .end_
  | "section" => return .directive label (.section_ (← parseIdent))
  | "endsec" => return .directive label .endSec
  | "xref" => return .directive label (.xref (← parseIdentList))
  | "xdef" | "global" => return .directive label (.xdef (← parseIdentList))
  | "include" => return .directive label (.include_ (← parseStringLit))
  | "psect" => do
    let name ← parseIdent
    return .directive label (.psect name (← parseRange))
  | "align" => return .directive label (.align (← parseExprOp))
  | mnemonic => return .instruction label (← parseInstructionWithMnemonic mnemonic)

/-- A statement, after its label if it has one. -/
def parseAfterLabel (label : Option String) : Parse Statement := do
  if ← atEol then
    return match label with
      | some l => .label l
      | none => .empty
  match ← select Token.name with
  | some mnemonic => parseDirectiveOrInstruction mnemonic label
  | none => fail (.custom "expected mnemonic or directive")

def parseStatement : Parse Statement := do
  if ← atEol then
    return .empty
  match ← select Token.name with
  | some name =>
    if ← eat .colon then
      if ← atEol then return .label name
      else parseAfterLabel (some name)
    else
      (parseDirectiveOrInstruction name none).orElse fun firstErr => do
        -- the name as a label; the first error is that of the real mnemonic
        if ← atEol then
          return .label name
        match ← select Token.name with
        | some mnem =>
          (parseDirectiveOrInstruction mnem (some name)).orElse fun _ => fail firstErr
        | none => fail firstErr
  | none => parseAfterLabel none

/-- The newlines at the start of the tokens, and what is after them. -/
def skipNewlines : List Token → Nat × List Token
  | [] => (0, [])
  | t :: ts =>
    if t.isNewline then
      let (count, rest) := skipNewlines ts
      (count + 1, rest)
    else (0, t :: ts)

/-- Take the newlines between statements. The first one ends the line of the statement before it,
except at the start; each other one stands for a blank line, and gives an empty statement. -/
def consumeNewlines (isLeading : Bool) (ts : List Token) : List Statement × List Token :=
  let (count, rest) := skipNewlines ts
  (List.replicate (if isLeading then count else count - 1) .empty, rest)

/-- The loop of the program parser, with a bound on its turns. -/
def parseStatements : Nat → List Token → Except Rich Program
  | 0, _ => .error .spent
  | _ + 1, [] => .ok []
  | fuel + 1, t :: ts => do
    let (stmt, rest) ← parseStatement.run (t :: ts)
    let (empties, rest) := consumeNewlines false rest
    let stmts ← parseStatements fuel rest
    .ok (stmt :: (empties ++ stmts))

def programParser (ts : List Token) : Except Rich Program := do
  let (empties, rest) := consumeNewlines true ts
  let stmts ← parseStatements (ts.length + 1) rest
  .ok (empties ++ stmts)

/-- `str::lines`: a line ends with a line feed, which may have a carriage return before it. -/
def textLines (text : List Char) : List String :=
  go text []
where
  /-- The line so far, backwards. -/
  go : List Char → List Char → List String
    | [], [] => []
    | [], line => [String.ofList line.reverse]
    | '\n' :: rest, line =>
      let line := match line with
        | '\r' :: line => line
        | line => line
      String.ofList line.reverse :: go rest []
    | c :: rest, line => go rest (c :: line)

/-- The source lines of a parsed program: statement `i` is taken to stand on line `i`. -/
def withSourceLines (source : List Char) (statements : List Statement) : SourceProgram :=
  let lines := textLines source
  ⟨statements, (List.range statements.length).map fun i => ⟨"", i + 1, lines.getD i ""⟩⟩

/-- Parse a complete assembly source into a program. Of an error only one of its causes is kept. -/
def parse (fracValue : List Char → I64) (unmatched : List Char → Nat) (source : List Char) :
    Except Rich SourceProgram := do
  let statements ← programParser (tokens fracValue unmatched source)
  .ok (withSourceLines source statements)

end Dsp56300.Asm
