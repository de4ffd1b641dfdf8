import Dsp56300.Emu.CodeCache
import Dsp56300.Emu.Interrupts
import Dsp56300.Lib.Loops

namespace Dsp56300

open Lib.Loops

variable {σ φ : Type}

/-- Whether the instruction's compiled code depends on PC. -/
def instructionUsesPc : Instruction → Bool
  | .bra _ | .braLong | .braRn _ | .bcc _ _ | .bccLong _ | .bccRn _ _ | .bsr _ | .bsrLong
  | .bsrRn _ | .bscc _ _ | .bsccLong _ | .bsccRn _ _ | .jsr _ | .jsrEa _ | .jscc _ _ | .jsccEa _ _
  | .doImm _ | .doReg _ | .doAa _ _ | .doEa _ _ | .doForever | .dorImm _ | .dorReg _ | .dorAa _ _
  | .dorEa _ _ | .dorForever | .lraRn _ _ | .lraDisp _ | .brclrEa _ _ _ | .brclrAa _ _ _
  | .brclrPp _ _ _ | .brclrQq _ _ _ | .brclrReg _ _ | .brsetEa _ _ _ | .brsetAa _ _ _
  | .brsetPp _ _ _ | .brsetQq _ _ _ | .brsetReg _ _ | .bsclrEa _ _ _ | .bsclrAa _ _ _
  | .bsclrPp _ _ _ | .bsclrQq _ _ _ | .bsclrReg _ _ | .bssetEa _ _ _ | .bssetAa _ _ _
  | .bssetPp _ _ _ | .bssetQq _ _ _ | .bssetReg _ _ | .jsclrEa _ _ _ | .jsclrAa _ _ _
  | .jsclrPp _ _ _ | .jsclrQq _ _ _ | .jsclrReg _ _ | .jssetEa _ _ _ | .jssetAa _ _ _
  | .jssetPp _ _ _ | .jssetQq _ _ _ | .jssetReg _ _ => true
  | _ => false

/-- Key of the single-instruction cache: PC and next word only where the code depends on them. -/
def instrKey (pc opcode nextWord : Word) : Word × Word × Word :=
  let inst := decode opcode
  (if instructionUsesPc inst then pc else 0, opcode,
    if instructionLength inst > 1 then nextWord else 0)

abbrev InstrCache (φ : Type) := Word × Word × Word → Option (φ × Word)

/-- The engine as the run loop uses it: both compilers, and compiled code as a function of the
state that returns the cycles it took. The emitter has no access to the run loop's budget, so
compiled code neither reads nor changes it. -/
structure Translator (σ φ : Type) where
  compileBlock : Compiler σ φ
  compileInstruction : Instruction → Word → Word → MemoryMap σ → φ
  call : φ → DspState σ → DspState σ × Nat
  call_budget : ∀ f s n, call f { s with cycleBudget := n } =
    ({ (call f s).1 with cycleBudget := n }, (call f s).2)

/-- The state of a run: the core, the block cache with its translations, and the cache of single
instructions. -/
structure Machine (σ φ : Type) where
  dsp : DspState σ
  jit : JitEngine φ
  instrCache : InstrCache φ

/-- Get a cached compiled instruction, or compile and cache it. -/
def getOrCompileInstruction (e : Translator σ φ) (cache : InstrCache φ) (pc opcode nextWord : Word)
    (map : MemoryMap σ) : (φ × Word) × InstrCache φ :=
  let key := instrKey pc opcode nextWord
  match cache key with
  | some entry => (entry, cache)
  | none =>
    let inst := decode opcode
    let entry := (e.compileInstruction inst pc nextWord map,
      BitVec.ofNat 32 (instructionLength inst))
    (entry, Function.update cache key (some entry))

/-- REP forms: in an armed window they are charged with their target. -/
def isRep : Instruction → Bool
  | .repImm _ | .repReg _ | .repAa _ _ | .repEa _ _ => true
  | _ => false

namespace DspState

/-- The armed core fault is delivered before an instruction that exceeds the budget. -/
def armedGate (s : DspState σ) (opcode instLen : Word) : Option (DspState σ) :=
  if s.interrupts.state = .armed ∧ ¬ s.loopRep then
    let cost := if isRep (decode opcode) then 2 else instLen
    let remaining := s.interrupts.faultBudget
    if instLen = 0 ∨ cost > remaining then none
    else some (s.setInterrupts { s.interrupts with faultBudget := remaining - cost })
  else some s

/-- An interrupt that the current level lets through is pending. -/
def canWake (s : DspState σ) : Bool :=
  s.interrupts.hasPending && (List.finRange Interrupt.count).any fun i =>
    s.interrupts.pending i && (s.interrupts.ipl i = 3 || s.interrupts.ipl i ≥ s.iplSr)

/-- Blocks cannot run: the pipeline, a REP context or an address outside PRAM needs steps. -/
def needsStep (s : DspState σ) (pramSize : Nat) : Bool :=
  s.interrupts.state ≠ .none || s.loopRep || s.pc.toNat ≥ pramSize

end DspState

namespace Machine

variable (e : Translator σ φ)

/-- The word at PC and the one after it. -/
def fetch (s : DspState σ) : (Word × Word) × DspState σ :=
  let (opcode, w) := s.map.readPram s.pc s.world
  let (nextWord, w) := s.map.readPram (maskPc (s.pc + 1)) w
  ((opcode, nextWord), { s with world := w })

/-- A fetched instruction: annulled for an armed fault, or executed, PC advanced and the interrupt
pipeline ticked. -/
def execute (s : DspState σ) (opcode : Word) (func : φ) (instLen : Word) : DspState σ × Nat :=
  match s.armedGate opcode instLen with
  | none =>
    let s := s.deliverArmedFault
    ({ s with cycleCount := s.cycleCount + 2 }, 2)
  | some s =>
    let (s, consumed) := e.call func { s with pcAdvance := instLen }
    let s := s.advancePc.processPendingInterrupts
    ({ s with cycleCount := s.cycleCount + BitVec.ofNat 32 consumed }, consumed)

/-- Execute exactly one instruction at the current PC. -/
def stepOne (m : Machine σ φ) : Machine σ φ × Nat :=
  let ((opcode, nextWord), s) := fetch m.dsp
  let ((func, instLen), cache) :=
    getOrCompileInstruction e m.instrCache s.pc opcode nextWord s.map
  let (s, consumed) := execute e s opcode func instLen
  ({ m with dsp := s, instrCache := cache }, consumed)

def spend (m : Machine σ φ) (consumed : Nat) : Machine σ φ :=
  { m with dsp := { m.dsp with cycleBudget := m.dsp.cycleBudget - consumed } }

/-- What the run loop does after a block: mode warnings, the loop end it fell through, and the
interrupt pipeline. -/
def afterBlock (s : DspState σ) : DspState σ :=
  s.checkUnimplementedModes.advanceDo.processPendingInterrupts

/-- Call the cached block at PC. -/
def callBlock (m : Machine σ φ) : Machine σ φ :=
  match m.jit.cache.get m.dsp.pc.toNat with
  | none => m
  | some block =>
    let (s, consumed) := e.call block.func m.dsp
    let s := { s with exitRequested := false, cycleCount := s.cycleCount + BitVec.ofNat 32 consumed,
                      cycleBudget := s.cycleBudget - consumed }
    { m with dsp := afterBlock s }

/-- Dispatch the block at PC. -/
def runBlock (m : Machine σ φ) : Machine σ φ :=
  let (s, jit) := m.dsp.dispatchBlock m.jit e.compileBlock
  { m with dsp := s, jit := jit }.callBlock e

/-- One dispatch of an awake core. -/
def dispatch (m : Machine σ φ) : Machine σ φ :=
  if m.dsp.needsStep m.jit.pramSize then
    let (m, consumed) := m.stepOne e
    m.spend consumed
  else m.runBlock e

def sleep (m : Machine σ φ) : Machine σ φ := { m with dsp := { m.dsp with cycleBudget := 0 } }

/-- What one iteration of the run loop does: STOP and a WAIT that nothing ends lose the budget. -/
def turn (m : Machine σ φ) : Machine σ φ :=
  match m.dsp.powerState with
  | .stop => m.sleep
  | .wait =>
    if m.dsp.canWake then { m with dsp := { m.dsp with powerState := .normal } }.dispatch e
    else m.sleep
  | .normal => m.dispatch e

/-- One iteration of the run loop, or nothing where it is left. -/
def iterate (m : Machine σ φ) : Option (Machine σ φ) :=
  if m.dsp.cycleBudget > 0 ∧ m.dsp.haltRequested = false then some (m.turn e) else none

def grant (cycles : Int) (m : Machine σ φ) : Machine σ φ :=
  { m with dsp := { m.dsp with cycleBudget := m.dsp.cycleBudget + cycles } }

/-- Running for `cycles` more cycles ends in `t`. -/
def Runs (cycles : Int) (m t : Machine σ φ) : Prop := Ends (iterate e) (m.grant cycles) t

end Machine

end Dsp56300
