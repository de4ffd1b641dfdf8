import Dsp56300.Asm.Ast
import Mathlib.Data.List.Basic

/-! The lexer of the assembler: longest matches of the token patterns. -/

namespace Dsp56300.Asm

/-- A single token produced by the lexer. -/
inductive Token where
  -- memory space prefixes
  | xMem | yMem | pMem | lMem
  | hex (v : Word)
  /-- Fractional literal (Q23 value). -/
  | frac (v : I64)
  | dec (v : Word)
  | hash | comma | lParen | rParen | plus | minus | colon | gt | lt | star | pipe | ampersand
  | tilde | slash | dot
  | stringLit (s : String)
  | newline | newlineCrLf
  | comment
  | ident (s : String)
  deriving DecidableEq

/-- The tokens at which a line ends. -/
def Token.isNewline : Token → Bool
  | .newline | .newlineCrLf => true
  | _ => false

/-- The text of a token in error messages. -/
def Token.display : Token → String
  | .xMem => "x:"
  | .yMem => "y:"
  | .pMem => "p:"
  | .lMem => "l:"
  | .hex v => "$" ++ String.ofList (Nat.toDigits 16 v.toNat)
  | .frac v => s!"<frac:{v.toInt}>"
  | .dec v => s!"{v.toNat}"
  | .hash => "#"
  | .comma => ","
  | .lParen => "("
  | .rParen => ")"
  | .plus => "+"
  | .minus => "-"
  | .colon => ":"
  | .gt => ">"
  | .lt => "<"
  | .star => "*"
  | .pipe => "|"
  | .ampersand => "&"
  | .tilde => "~"
  | .slash => "/"
  | .dot => "."
  | .stringLit s => s!"'{s}'"
  | .newline | .newlineCrLf => "\\n"
  | .comment => ";..."
  | .ident s => s

/-- What the lexer makes of a stretch of text. -/
inductive Item where
  | token (t : Token)
  | blank
  /-- No pattern matches, or the callback of the one that does fails. -/
  | unmatched
  deriving DecidableEq

/-- A stretch of the source. -/
structure Lexeme where
  item : Item
  text : List Char
  deriving DecidableEq

/-- A pattern with its callback, which is given the matched text. -/
structure Rule where
  /-- Length of the longest match at the start of a text. -/
  longest : List Char → Option Nat
  item : List Char → Item

/-! Patterns. -/

/-- One character or more. -/
def longestRun (p : Char → Bool) (text : List Char) : Option Nat :=
  match (text.takeWhile p).length with
  | 0 => none
  | n => some n

/-- A character, then a match of another pattern. -/
def longestAfter (c : Char) (longest : List Char → Option Nat) : List Char → Option Nat
  | [] => none
  | d :: text => if d = c then (longest text).map (· + 1) else none

def longestText (pattern text : List Char) : Option Nat :=
  if pattern.isPrefixOf text then some pattern.length else none

/-- `[^q]*q`. -/
def longestClosed (q : Char) (text : List Char) : Option Nat :=
  let n := (text.takeWhile (· ≠ q)).length
  if n < text.length then some (n + 1) else none

/-- `[0-9]*\.[0-9]+`. -/
def longestFrac (text : List Char) : Option Nat :=
  let n := (text.takeWhile Char.isDigit).length
  (longestAfter '.' (longestRun Char.isDigit) (text.drop n)).map (n + ·)

def isHexDigit (c : Char) : Bool := c.isDigit || ('a' ≤ c && c ≤ 'f') || ('A' ≤ c && c ≤ 'F')

def isIdentStart (c : Char) : Bool := c.isAlpha || c = '_'

def isIdentRest (c : Char) : Bool := c.isAlphanum || c = '_'

def longestIdent (text : List Char) : Option Nat :=
  if (text.head?.map isIdentStart).getD false then longestRun isIdentRest text else none

/-! Callbacks. -/

def digitValue (c : Char) : Nat :=
  if c.isDigit then c.toNat - 48 else if c.isUpper then c.toNat - 55 else c.toNat - 87

/-- `u32::from_str_radix` of digits: an error past `u32::MAX`. -/
def parseU32 (radix : Nat) (digits : List Char) : Option Word :=
  let v := digits.foldl (fun v c => radix * v + digitValue c) 0
  if v < 2 ^ 32 then some (BitVec.ofNat 32 v) else none

/-- The item of a token that a callback may refuse. -/
def Item.ofToken : Option Token → Item
  | some t => .token t
  | none => .unmatched

/-- A token of one spelling. -/
def literalRule (text : List Char) (t : Token) : Rule := ⟨longestText text, fun _ => .token t⟩

/-- A memory space prefix, in either case. -/
def memRule (lower upper : Char) (t : Token) : Rule :=
  ⟨fun text => (longestText [lower, ':'] text).or (longestText [upper, ':'] text),
    fun _ => .token t⟩

def stringRule (q : Char) : Rule :=
  ⟨longestAfter q (longestClosed q), fun text =>
    .token (.stringLit (String.ofList (text.tail.dropLast)))⟩

section Lexing

variable (fracValue : List Char → I64) (unmatched : List Char → Nat)

/-- The patterns of `Token`, and the blanks that are skipped. `fracValue` is the rounded
floating-point value of a fractional literal. -/
def rules : List Rule :=
  [⟨longestRun fun c => c = ' ' || c = '\t', fun _ => .blank⟩,
    memRule 'x' 'X' .xMem, memRule 'y' 'Y' .yMem, memRule 'p' 'P' .pMem, memRule 'l' 'L' .lMem,
    ⟨longestAfter '$' (longestRun isHexDigit), fun text =>
      .ofToken ((parseU32 16 text.tail).map .hex)⟩,
    ⟨longestFrac, fun text => .token (.frac (fracValue text))⟩,
    ⟨longestRun Char.isDigit, fun text => .ofToken ((parseU32 10 text).map .dec)⟩,
    literalRule ['#'] .hash, literalRule [','] .comma, literalRule ['('] .lParen,
    literalRule [')'] .rParen, literalRule ['+'] .plus, literalRule ['-'] .minus,
    literalRule [':'] .colon, literalRule ['>'] .gt, literalRule ['<'] .lt,
    literalRule ['*'] .star, literalRule ['|'] .pipe, literalRule ['&'] .ampersand,
    literalRule ['~'] .tilde, literalRule ['/'] .slash, literalRule ['.'] .dot,
    stringRule '\'', stringRule '"',
    literalRule ['\n'] .newline, literalRule ['\r', '\n'] .newlineCrLf,
    ⟨longestAfter ';' fun text => some (text.takeWhile (· ≠ '\n')).length,
      fun _ => .token .comment⟩,
    ⟨longestIdent, fun text => .token (.ident (String.ofList text))⟩]

/-- The longest match of the rules; the first of them where several are as long. -/
def longestMatch (text : List Char) : List Rule → Option (Nat × Rule)
  | [] => none
  | rule :: rest =>
    match rule.longest text, longestMatch text rest with
    | none, other => other
    | some n, none => some (n, rule)
    | some n, some (m, other) => if m ≤ n then some (n, rule) else some (m, other)

/-- The item at the start of a text, and its length. Where no pattern matches, `unmatched` says how
much of the text makes the error: one character at least. -/
def lexItem (text : List Char) : Item × Nat :=
  match longestMatch text (rules fracValue) with
  | some (n, rule) => (rule.item (text.take n), n)
  | none => (.unmatched, max 1 (min (unmatched text) text.length))

/-- The lexemes of a text that is at most so long. -/
def lexFrom : Nat → List Char → List Lexeme
  | 0, _ => []
  | _, [] => []
  | fuel + 1, c :: text =>
    let (item, n) := lexItem fracValue unmatched (c :: text)
    ⟨item, (c :: text).take n⟩ :: lexFrom fuel ((c :: text).drop n)

/-- `Token::lexer`, with the texts of the items and with the blanks. -/
def lex (source : List Char) : List Lexeme := lexFrom fracValue unmatched source.length source

/-- The token of a lexeme that the parser is given: errors are dropped, and so are comments. -/
def Lexeme.kept (l : Lexeme) : Option Token :=
  match l.item with
  | .token .comment => none
  | .token t => some t
  | _ => none

/-- The tokens the statement parser is given. -/
def tokens (source : List Char) : List Token := (lex fracValue unmatched source).filterMap Lexeme.kept

end Lexing

end Dsp56300.Asm
