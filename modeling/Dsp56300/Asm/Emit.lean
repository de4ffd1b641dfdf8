import Dsp56300.Asm.Symbols

namespace Dsp56300.Asm

set_option linter.constructorNameAsVariable false

/-- Assembled output segment. -/
structure Segment where
  space : MemorySpace
  org : Word
  words : List Word
  deriving DecidableEq, Repr

/-- Memory space, address and encoded words of a source line. -/
structure ListingLine where
  space : MemorySpace
  addr : Word
  words : List Word
  deriving DecidableEq, Repr

/-- Words saved for a psect that is not current: their origin and the words. -/
abbrev PsectWords := Finmap (fun _ : String => Word × List Word)

/-- An order in which a hash map hands out its entries. -/
structure IterOrder where
  entries : PsectWords → List (Sigma fun _ : String => Word × List Word)
  coe_entries : ∀ m, (entries m : Multiset _) = m.entries

/-- Result of assembling a program, its per-statement listing among it. -/
structure AssembleResult where
  segments : List Segment
  symbols : SymbolTable
  listing : List (Option ListingLine)

/-- State of the emission walk. -/
structure Emit where
  segments : List Segment
  space : MemorySpace
  pc : Word
  words : List Word
  org : Word
  psects : Psects
  psectWords : PsectWords
  currentPsect : Option String

namespace Emit

def init : Emit := ⟨[], .p, 0, [], 0, ∅, ∅, none⟩

def flush (s : Emit) : Emit :=
  if s.words = [] then s
  else { s with segments := s.segments ++ [⟨s.space, s.org, s.words⟩], words := [] }

/-- Append words at the current position. -/
def push (s : Emit) (ws : List Word) : Emit :=
  { s with words := s.words ++ ws, pc := s.pc + BitVec.ofNat 32 ws.length }

/-- The words of a `dc`, each evaluated at its own address. -/
def dcWords (sym : SymbolTable) (line : Nat) : List Expr → Word → AsmResult (List Word)
  | [], _ => .ok []
  | val :: vals, pc => do
    let v ← evalAt val sym pc line
    let ws ← dcWords sym line vals (pc + 1)
    .ok ((v &&& 0xFFFFFF) :: ws)

/-- Leave the current psect, its words saved under its name; outside psects the words go out. -/
def leavePsect (s : Emit) : Emit :=
  match s.currentPsect with
  | some cur =>
    { s with psects := savePsect s.psects s.currentPsect s.pc,
             psectWords := s.psectWords.insert cur (s.org, s.words), words := [] }
  | none => s.flush

/-- Declare a psect with its range and make it current. -/
def declarePsect (s : Emit) (name : String) (space : MemorySpace) (startVal : Word) : Emit :=
  { s with psects := s.psects.insert name ⟨space, startVal⟩, space := space, pc := startVal,
           org := startVal, currentPsect := some name }

/-- Switch to a psect; one that was never declared leaves pc, origin and space as they are. -/
def enterPsect (s : Emit) (name : String) : Emit :=
  match s.psects.lookup name with
  | some state =>
    match s.psectWords.lookup name with
    | some (org, words) =>
      { s with space := state.space, pc := state.pc, org := org, words := words,
               psectWords := s.psectWords.erase name, currentPsect := some name }
    | none =>
      { s with space := state.space, pc := state.pc, org := state.pc, currentPsect := some name }
  | none => { s with currentPsect := some name }

/-- Move to the next multiple of `n`; the words before the gap go out. -/
def alignTo (s : Emit) (n : Word) : Emit :=
  let aligned := alignUp s.pc n
  if aligned ≠ s.pc then { s.flush with pc := aligned, org := aligned } else s

def directive (s : Emit) (sym : SymbolTable) (dir : Directive) (line : Nat) :
    AsmResult (Emit × Option ListingLine) :=
  match dir with
  | .org space addr => do
    let pc ← evalAt addr sym s.pc line
    .ok ({ s.flush with space := space, pc := pc, org := pc }, some ⟨space, pc, []⟩)
  | .dc values => do
    let ws ← dcWords sym line values s.pc
    .ok (s.push ws, some ⟨s.space, s.pc, ws⟩)
  | .ds size => do
    let n ← evalAt size sym s.pc line
    if n > 0xFFFFFF then dsTooLarge line
    else .ok (s.push (List.replicate n.toNat 0), some ⟨s.space, s.pc, []⟩)
  | .psect name range =>
    match range with
    | some (space, start, _) => do
      let startVal ← evalAt start sym s.pc line
      .ok (s.leavePsect.declarePsect name space startVal, none)
    | none => .ok (s.leavePsect.enterPsect name, none)
  | .align alignment => do
    let n ← evalAt alignment sym s.pc line
    .ok (s.alignTo n, none)
  | .equ _ _ | .end_ | .section_ _ | .endSec | .xref _ | .xdef _ | .include_ _ => .ok (s, none)

/-- One statement of the emission, with its listing line. -/
def step (sym : SymbolTable) (s : Emit) (stmt : Statement) (line : Nat) :
    AsmResult (Emit × Option ListingLine) :=
  match stmt with
  | .empty | .label _ => .ok (s, none)
  | .directive _ dir => s.directive sym dir line
  | .instruction _ inst => do
    let encoded ← atLine line (encode inst s.pc sym)
    let ws := encoded.toList
    .ok (s.push ws, some ⟨s.space, s.pc, ws⟩)

/-- The statements from `line` on; the lines after an `end` are listed empty. -/
def run (sym : SymbolTable) (s : Emit) : Program → Nat → AsmResult (Emit × List (Option ListingLine))
  | [], _ => .ok (s, [])
  | stmt :: rest, line => do
    let (s', entry) ← s.step sym stmt line
    if stmt.isEnd then .ok (s', entry :: rest.map fun _ => none)
    else
      let (t, entries) ← run sym s' rest (line + 1)
      .ok (t, entry :: entries)

/-- The segment of words saved for a psect, in the space the psect was declared with. -/
def savedSegment (s : Emit) (saved : Sigma fun _ : String => Word × List Word) : Option Segment :=
  if saved.2.2 = [] then none
  else (s.psects.lookup saved.1).map fun state => ⟨state.space, saved.2.1, saved.2.2⟩

/-- All segments: those already out, the current words, and what the psects still hold. -/
def finish (s : Emit) (order : IterOrder) : List Segment :=
  s.flush.segments ++ (order.entries s.psectWords).filterMap s.savedSegment

end Emit

/-- Pass 2: encode the instructions with the resolved symbol table. -/
def emitSegments (order : IterOrder) (program : Program) (symbols : SymbolTable) :
    AsmResult AssembleResult := do
  let (s, listing) ← Emit.init.run symbols program 1
  .ok ⟨s.finish order, symbols, listing⟩

/-- Assemble a parsed program, includes expanded. -/
def assemble (order : IterOrder) (program : Program) : AsmResult AssembleResult := do
  let symbols ← resolveSymbols program
  emitSegments order program symbols

end Dsp56300.Asm
