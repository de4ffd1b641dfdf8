import Dsp56300.Core.Instruction

namespace Dsp56300

/-- P-space addresses to label names. -/
abbrev SymbolTable := Word → Option String

def regName (r : Nat) : String := registerNames.getD r "?"

def accName : Accumulator → String
  | .a => regName Reg.a.val
  | .b => regName Reg.b.val

def ccNames : List String :=
  ["cc", "ge", "ne", "pl", "nn", "ec", "lc", "gt", "cs", "lt", "eq", "mi", "nr", "es", "ls", "le"]

def CondCode.name (c : CondCode) : String := ccNames.getD c.bits.toNat ""

/-- Register names of the L: parallel moves. -/
def registersLmove : List String := ["a10", "b10", "x", "y", "a", "b", "ab", "ba"]

/-- Lower-case hexadecimal, padded with zeros to `width` digits. -/
def hex (width : Nat) {w : Nat} (v : BitVec w) : String :=
  let digits := String.ofList (Nat.toDigits 16 v.toNat)
  "".pushn '0' (width - digits.length) ++ digits

def dec {w : Nat} (v : BitVec w) : String := toString v.toNat

def signextend (bits : Nat) (v : Word) : Int := ((v <<< (32 - bits)).sshiftRight (32 - bits)).toInt

/-- Marks an immediate that would fit the short form, so that it stays long. -/
def immPrefix (value shortMax : Word) : String := if value ≤ shortMax then "#>" else "#"

/-- Marks a branch displacement that would fit the 9-bit short form. -/
def branchLongPrefix (disp24 : Word) : String :=
  let s := (if disp24 &&& 0x800000 ≠ 0 then disp24 ||| ~~~0xFFFFFF else disp24).toInt
  if -256 ≤ s ∧ s ≤ 255 then ">" else ""

/-- Mode 6 and not immediate: 110_0xx. -/
def isEaAbsolute (eaMode : Word) : Bool := (eaMode >>> 3) &&& 7 = 6 && (eaMode >>> 2) &&& 1 = 0

/-- Marks a jump target that would fit the 12-bit short form. -/
def jumpEaAddrPrefix (eaMode nextWord : Word) : String :=
  if isEaAbsolute eaMode && nextWord < 0x1000 then ">" else ""

/-- Addresses the assembler would encode as aa, qq or pp. -/
def hasShortAddr (nextWord : Word) : Bool :=
  nextWord ≤ 0x3F || (0xFFFF80 ≤ nextWord && nextWord ≤ 0xFFFFBF) || nextWord ≥ 0xFFFFC0

/-- Marks an absolute address that would fit a shorter form. -/
def eaAddrPrefix (eaMode nextWord : Word) : String :=
  if isEaAbsolute eaMode && hasShortAddr nextWord then ">" else ""

def fmtDisp (val : Int) : String := if val ≥ 0 then s!"+{val}" else s!"-{-val}"

/-- An effective address: its text, whether it is an immediate, and whether it takes the
extension word. -/
def calcEa (eaMode nextWord : Word) : String × Bool × Bool :=
  let n := eaMode &&& 7
  match ((eaMode >>> 3) &&& 7).toNat with
  | 0 => (s!"(r{dec n})-n{dec n}", false, false)
  | 1 => (s!"(r{dec n})+n{dec n}", false, false)
  | 2 => (s!"(r{dec n})-", false, false)
  | 3 => (s!"(r{dec n})+", false, false)
  | 4 => (s!"(r{dec n})", false, false)
  | 5 => (s!"(r{dec n}+n{dec n})", false, false)
  | 6 =>
    if (eaMode >>> 2) &&& 1 = 0 then (s!"${hex 4 nextWord}", false, true)
    else (s!"${hex 6 nextWord}", true, true)
  | _ => (s!"-(r{dec n})", false, false)

def spaceName (s : Word) : String := if s ≠ 0 then "y" else "x"

def spaceChar (s : MemSpace) : String := if s = .y then "y" else "x"

def ppAddr (offset : Byte) : Word := 0xFFFFC0 + offset.setWidth 32

def qqAddr (offset : Byte) : Word := 0xFFFF80 + offset.setWidth 32

/-- A P-space target: its symbol, or its address in `width` digits. -/
def fmtTarget (width : Nat) (addr : Word) (symbols : SymbolTable) : String :=
  match symbols addr with
  | some name => name
  | none => s!"${hex width addr}"

/-- Display name of a register pair used as X or Y source. -/
def xyPairName (hi : RegIdx) : String := if hi = Reg.x1 then "x" else "y"

def signText (negate : Bool) : String := if negate then "-" else "+"

namespace ParallelAlu

/-- An accumulator-to-accumulator operation. -/
def accText (mnemonic : String) (src d : Accumulator) : String :=
  s!"{mnemonic} {accName src},{accName d}"

def oneAccText (mnemonic : String) (d : Accumulator) : String := s!"{mnemonic} {accName d}"

def pairText (mnemonic : String) (hi : RegIdx) (d : Accumulator) : String :=
  s!"{mnemonic} {xyPairName hi},{accName d}"

def regText (mnemonic : String) (src : RegIdx) (d : Accumulator) : String :=
  s!"{mnemonic} {regName src.val},{accName d}"

def mulText (mnemonic : String) (negate : Bool) (s1 s2 : RegIdx) (d : Accumulator) : String :=
  s!"{mnemonic} {signText negate}{regName s1.val},{regName s2.val},{accName d}"

/-- The text of a parallel ALU operation. -/
def toText : ParallelAlu → String
  | .move => "move"
  | .tfrAcc src d => accText "tfr" src d
  | .addr src d => accText "addr" src d
  | .tst d => oneAccText "tst" d
  | .cmpAcc src d => accText "cmp" src d
  | .subr src d => accText "subr" src d
  | .cmpmAcc src d => accText "cmpm" src d
  | .addAcc src d => accText "add" src d
  | .rnd d => oneAccText "rnd" d
  | .addl src d => accText "addl" src d
  | .clr d => oneAccText "clr" d
  | .subAcc src d => accText "sub" src d
  | .max => "max a,b"
  | .maxm => "maxm a,b"
  | .subl src d => accText "subl" src d
  | .not d => oneAccText "not" d
  | .addXY hi _ d => pairText "add" hi d
  | .adc hi _ d => pairText "adc" hi d
  | .subXY hi _ d => pairText "sub" hi d
  | .sbc hi _ d => pairText "sbc" hi d
  | .asr d => oneAccText "asr" d
  | .lsr d => oneAccText "lsr" d
  | .abs d => oneAccText "abs" d
  | .ror d => oneAccText "ror" d
  | .asl d => oneAccText "asl" d
  | .lsl d => oneAccText "lsl" d
  | .neg d => oneAccText "neg" d
  | .rol d => oneAccText "rol" d
  | .addReg src d => regText "add" src d
  | .tfrReg src d => regText "tfr" src d
  | .or src d => regText "or" src d
  | .eor src d => regText "eor" src d
  | .subReg src d => regText "sub" src d
  | .cmpReg src d => regText "cmp" src d
  | .and src d => regText "and" src d
  | .cmpmReg src d => regText "cmpm" src d
  | .mpy k s1 s2 d => mulText "mpy" k s1 s2 d
  | .mpyr k s1 s2 d => mulText "mpyr" k s1 s2 d
  | .mac k s1 s2 d => mulText "mac" k s1 s2 d
  | .macr k s1 s2 d => mulText "macr" k s1 s2 d
  | .undefined => "undefined"

end ParallelAlu

end Dsp56300
