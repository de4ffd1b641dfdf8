import Dsp56300.Asm.Encode

namespace Dsp56300.Asm

set_option linter.constructorNameAsVariable false

/-- An encode error at a 1-based source line. -/
structure AssembleError where
  line : Nat
  err : EncodeError
  deriving DecidableEq, Repr

abbrev AsmResult (α : Type) := Except AssembleError α

/-- Map an encode error to an assemble error at the given line. -/
def atLine {α : Type} (line : Nat) : Result α → AsmResult α
  | .ok v => .ok v
  | .error err => .error ⟨line, err⟩

def evalAt (expr : Expr) (sym : SymbolTable) (pc : Word) (line : Nat) : AsmResult Word :=
  atLine line (eval expr sym pc)

/-! Static size estimates. -/

def eaExtSize : EffectiveAddress → Word
  | .absAddr _ | .forceLongAbsAddr _ | .immediate _ => 1
  | _ => 0

/-- The literal is below `bound` as a 24-bit value. -/
def literalBelow (e : Expr) (bound : Word) : Bool :=
  match e.asU32 with
  | some v => v &&& 0xFFFFFF < bound
  | none => false

/-- Estimate of the immediate-to-register moves. -/
def immToRegExtSize (imm : Expr) (dst : Register) (forceLong : Bool) : Word :=
  if forceLong then 1
  else
    match imm.asU32 with
    | some v =>
      let v24 := v &&& 0xFFFFFF
      if (imm.isBareLit ∧ v24 ≤ 0xFF) ∨ (dst.isMsbReg ∧ v24 &&& 0xFFFF = 0)
          ∨ (imm.isFrac ∧ ¬ dst.isDataAlu ∧ v24 ≤ 0xFF) then 0 else 1
    | none => 1

def pmoveExtSize : ParallelMove → Word
  | .none | .regToReg _ _ => 0
  | .xImmReg _ _ _ _ | .regYImm _ _ _ _ => 1
  | .xyAbs _ addr _ _ forceShort | .lAbs addr _ _ forceShort =>
    if forceShort || literalBelow addr 0x40 then 0 else 1
  | .immToReg imm dst forceLong => immToRegExtSize imm dst forceLong
  | .eaUpdate ea _ => eaExtSize ea
  | .xyMem _ ea _ _ | .lMem ea _ _ | .xReg ea _ _ _ _ | .regY _ _ ea _ _ | .pm0 _ _ ea _ =>
    eaExtSize ea
  | .lImm _ _ => 1
  | .xyDouble xEa _ yEa _ _ _ => if eaExtSize xEa < eaExtSize yEa then eaExtSize yEa else eaExtSize xEa
  | .ifcc _ | .ifccU _ => 0

def bitTargetSize : BitTarget → Word
  | .ea _ ea => 1 + eaExtSize ea
  | _ => 1

def jmpSize (target : Expr) (forceShort : Bool) : Word :=
  if forceShort || literalBelow target 0x1000 then 1 else 2

def jccEaSize (ea : EffectiveAddress) : Word :=
  match ea with
  | .absAddr e => if literalBelow e 0x1000 then 1 else 1 + eaExtSize ea
  | _ => 1 + eaExtSize ea

/-- The size of an instruction in words as far as it is known without symbols. -/
def instructionSize : Instruction → Word
  | .jmp target forceShort | .jsr target forceShort => jmpSize target forceShort
  | .addLong _ _ | .subLong _ _ | .cmpLong _ _ | .andLong _ _ | .orLong _ _ | .eorLong _ _
  | .mpyI _ _ _ _ | .mpyrI _ _ _ _ | .macI _ _ _ _ | .macrI _ _ _ _ | .do_ _ _ | .doForever _
  | .dor _ _ | .dorForever _ | .jclr _ _ _ | .jset _ _ _ | .jsclr _ _ _ | .jsset _ _ _
  | .brclr _ _ _ | .brset _ _ _ | .bsclr _ _ _ | .bsset _ _ _ | .moveLongDisp _ _ _ _ _
  | .movep23Imm _ _ _ | .movepXQqImm _ _ | .lraDisp _ _ | .extractImm _ _ _ | .extractuImm _ _ _
  | .insertImm _ _ _ | .plockr _ | .punlockr _ => 2
  | .bcc _ _ _ | .bra _ _ | .bsr _ _ | .bscc _ _ _ => 2
  | .jccEa _ ea | .jsccEa _ ea => jccEaSize ea
  | .jmpEa ea | .jsrEa ea | .lua ea _ | .plockEa ea | .punlockEa ea | .vsl _ _ ea
  | .movecEa _ ea _ _ | .movemEa ea _ _ | .movep1 _ _ ea _ | .movep23 _ _ _ ea _
  | .movepXQq _ _ ea _ => 1 + eaExtSize ea
  | .bchg _ target | .bclr _ target | .bset _ target | .btst _ target => bitTargetSize target
  | .parallel _ pmove => 1 + pmoveExtSize pmove
  | _ => 1

/-- Determine the size of an instruction: trial-encode where symbols are known, else estimate. -/
def encodedSize (inst : Instruction) (pc : Word) (priorSymbols : Option SymbolTable) : Word :=
  match priorSymbols with
  | some syms =>
    match encode inst pc syms with
    | .ok enc => enc.size
    | .error _ => instructionSize inst
  | none => instructionSize inst

/-! Pass 1: label addresses and EQU values. -/

/-- Per-psect state tracked during assembly. -/
structure PsectState where
  space : MemorySpace
  pc : Word
  deriving DecidableEq, Repr

abbrev Psects := Finmap (fun _ : String => PsectState)

/-- Save the current pc into the active psect (if any). -/
def savePsect (psects : Psects) (current : Option String) (pc : Word) : Psects :=
  match current with
  | some name =>
    match psects.lookup name with
    | some state => psects.insert name { state with pc := pc }
    | none => psects
  | none => psects

def Statement.labelName : Statement → Option String
  | .instruction l _ | .directive l _ => l
  | .label name => some name
  | .empty => none

/-- `pc.div_ceil(n) * n`, unless `n` is 0. -/
def alignUp (pc n : Word) : Word := if n = 0 then pc else ((pc / n) + if pc % n = 0 then 0 else 1) * n

/-- State of the pass-1 walk. -/
structure Pass1 where
  symbols : SymbolTable
  pc : Word
  psects : Psects
  currentPsect : Option String

def Pass1.init : Pass1 := ⟨∅, 0, ∅, none⟩

def dsTooLarge {α : Type} (line : Nat) : AsmResult α := .error ⟨line, ⟨"ds size out of range"⟩⟩

def Pass1.psect (s : Pass1) (name : String) (range : Option (MemorySpace × Expr × Expr))
    (line : Nat) : AsmResult Pass1 :=
  let psects := savePsect s.psects s.currentPsect s.pc
  match range with
  | some (space, start, _) => do
    let startVal ← evalAt start s.symbols s.pc line
    .ok { s with psects := psects.insert name ⟨space, startVal⟩, pc := startVal,
                 currentPsect := some name }
  | none =>
    match psects.lookup name with
    | some state => .ok { s with psects := psects, pc := state.pc, currentPsect := some name }
    | none => .ok { s with psects := psects, currentPsect := some name }

def Pass1.directive (s : Pass1) (dir : Directive) (line : Nat) : AsmResult Pass1 :=
  match dir with
  | .org _ addr => do
    let pc ← evalAt addr s.symbols s.pc line
    .ok { s with pc := pc }
  | .dc values => .ok { s with pc := s.pc + BitVec.ofNat 32 values.length }
  | .ds size => do
    let n ← evalAt size s.symbols s.pc line
    if n > 0xFFFFFF then dsTooLarge line else .ok { s with pc := s.pc + n }
  | .equ name value => do
    let v ← evalAt value s.symbols s.pc line
    .ok { s with symbols := s.symbols.insert name (i64 v) }
  | .psect name range => s.psect name range line
  | .align alignment => do
    let n ← evalAt alignment s.symbols s.pc line
    .ok { s with pc := alignUp s.pc n }
  | .end_ | .section_ _ | .endSec | .xref _ | .xdef _ | .include_ _ => .ok s

def Pass1.define (s : Pass1) : Option String → Pass1
  | some name => { s with symbols := s.symbols.insert name (i64 s.pc) }
  | none => s

/-- One statement of pass 1, its label first. -/
def Pass1.step (prior : Option SymbolTable) (s : Pass1) (stmt : Statement) (line : Nat) :
    AsmResult Pass1 :=
  let s := s.define stmt.labelName
  match stmt with
  | .empty | .label _ => .ok s
  | .directive _ dir => s.directive dir line
  | .instruction _ inst => .ok { s with pc := s.pc + encodedSize inst s.pc prior }

def Statement.isEnd : Statement → Bool
  | .directive _ .end_ => true
  | _ => false

/-- The statements from `line` on, up to and including an `end`. -/
def Pass1.run (prior : Option SymbolTable) (s : Pass1) : Program → Nat → AsmResult Pass1
  | [], _ => .ok s
  | stmt :: rest, line => do
    let s ← s.step prior stmt line
    if stmt.isEnd then .ok s else Pass1.run prior s rest (line + 1)

/-- Walk statements collecting label addresses and EQU values. -/
def resolveSymbolsOnce (program : Program) (priorSymbols : Option SymbolTable) :
    AsmResult SymbolTable := do
  let s ← Pass1.init.run priorSymbols program 1
  .ok s.symbols

/-- Refine `symbols` until a pass repeats it, at most `rounds` times. -/
def refineSymbols (program : Program) : Nat → SymbolTable → AsmResult SymbolTable
  | 0, symbols => .ok symbols
  | rounds + 1, symbols => do
    let refined ← resolveSymbolsOnce program (some symbols)
    if refined = symbols then .ok symbols else refineSymbols program rounds refined

/-- Resolve symbols by iterating pass 1 until instruction sizes converge. -/
def resolveSymbols (program : Program) : AsmResult SymbolTable := do
  let symbols ← resolveSymbolsOnce program none
  refineSymbols program 10 symbols

end Dsp56300.Asm
