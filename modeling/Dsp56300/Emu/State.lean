import Dsp56300.Core.Decode
import Dsp56300.Emu.Memory
import Dsp56300.Emu.Dirty

namespace Dsp56300

/-! The sizes of the finite tables. -/

instance neZeroHalves : NeZero 2 := ⟨by decide⟩

instance neZeroSlots : NeZero 16 := ⟨by decide⟩

instance neZeroSources : NeZero 128 := ⟨by decide⟩

/-- WAIT halts the core, STOP all clocks. -/
inductive PowerState where
  | normal | wait | stop
  deriving DecidableEq, Repr

/-- Interrupt pipeline state. `long`: a call was found at the vector and the context
stacked. `armed`: a core fault waits for its shadow word budget to run out.
`parked`: a fault that armed while another was in flight counts down. -/
inductive InterruptState where
  | none | fast | long | armed | parked
  deriving DecidableEq, Repr

/-- No fault shadow budget recorded. -/
def invalidFaultBudget : Word := 0xFFFFFFFF

namespace Interrupt

/-- Total number of interrupt sources. -/
abbrev count : Nat := 128

abbrev reset : Fin count := 0
abbrev stackError : Fin count := 1
abbrev illegal : Fin count := 2
abbrev trap : Fin count := 4

/-- The slot offset (low 8 bits of the vector address) of source `i`. -/
def vectorAddr (i : Fin count) : Word := BitVec.ofNat 32 (i.val * 2)

end Interrupt

structure InterruptPipeline where
  state : InterruptState
  pendingBits : Fin 2 → BitVec 64
  pipelineStage : Nat
  vectorAddr : Word
  savedPc : Word
  ipl : Fin Interrupt.count → Int
  iplToRaise : Byte
  /-- Stream words that may still execute before the pending core fault. -/
  faultBudget : Word
  parkedCountdown : Nat
  parkedSpWrite : Bool

namespace InterruptPipeline

/-- Core interrupts are IPL 3 by default, everything else is disabled. -/
def new : InterruptPipeline where
  state := .none
  pendingBits := fun _ => 0
  pipelineStage := 0
  vectorAddr := 0xFFFF
  savedPc := 0xFFFF
  ipl := fun i => if i = Interrupt.reset ∨ i = Interrupt.illegal ∨ i = Interrupt.stackError ∨
    i = Interrupt.trap then 3 else -1
  iplToRaise := 0
  faultBudget := invalidFaultBudget
  parkedCountdown := 0
  parkedSpWrite := false

/-- The word of `pendingBits` that holds source `i`. -/
def wordOf (i : Fin Interrupt.count) : Fin 2 := ⟨i.val / 64, Nat.div_lt_of_lt_mul i.isLt⟩

def hasPending (p : InterruptPipeline) : Bool := p.pendingBits 0 ≠ 0 || p.pendingBits 1 ≠ 0

def pending (p : InterruptPipeline) (i : Fin Interrupt.count) : Bool :=
  p.pendingBits (wordOf i) &&& (1#64 <<< (i.val % 64)) ≠ 0

def setPending (p : InterruptPipeline) (i : Fin Interrupt.count) : InterruptPipeline :=
  let bits := p.pendingBits (wordOf i) ||| (1#64 <<< (i.val % 64))
  { p with pendingBits := Function.update p.pendingBits (wordOf i) bits }

def clearPending (p : InterruptPipeline) (i : Fin Interrupt.count) : InterruptPipeline :=
  let bits := p.pendingBits (wordOf i) &&& ~~~(1#64 <<< (i.val % 64))
  { p with pendingBits := Function.update p.pendingBits (wordOf i) bits }

/-- Post a pending interrupt. -/
def add (p : InterruptPipeline) (inter : Nat) : InterruptPipeline :=
  if h : inter < Interrupt.count then
    if p.ipl ⟨inter, h⟩ = -1 then p else p.setPending ⟨inter, h⟩
  else p

end InterruptPipeline

/-- DSP56300 state. `stack 0` holds the SSH slots, `stack 1` the SSL slots. -/
structure DspState (σ : Type) where
  pc : Word
  pcAdvance : Word
  memWriteSink : Word
  cycleCount : Word
  registers : RegIdx → Word
  stack : Fin 2 → Fin 16 → Word
  loopRep : Bool
  pcOnRep : Bool
  interrupts : InterruptPipeline
  cycleBudget : Int
  haltRequested : Bool
  exitRequested : Bool
  faultBudgetHint : Word
  powerState : PowerState
  pramDirty : PramDirtyBitmap
  map : MemoryMap σ
  warnedBits : Word
  unimplReported : Word
  world : World σ

variable {σ : Type}

namespace DspState

/-- Reset values of the register file: linear addressing in the M registers, and the
SR and OMR reset patterns. -/
def resetRegisters (r : RegIdx) : Word :=
  if 0x20 ≤ r.val ∧ r.val < 0x28 then regMasks Reg.m0
  else if r = Reg.sr then 0xC00300
  else if r = Reg.omr then 0x0300
  else 0

/-- Create a new DSP state with the given memory map. -/
def new (map : MemoryMap σ) (world : World σ) : DspState σ where
  pc := 0
  pcAdvance := 0
  memWriteSink := 0
  cycleCount := 0
  registers := resetRegisters
  stack := fun _ _ => 0
  loopRep := false
  pcOnRep := false
  interrupts := .new
  cycleBudget := 0
  haltRequested := false
  exitRequested := false
  faultBudgetHint := invalidFaultBudget
  powerState := .normal
  pramDirty := .new map.pSpaceEnd.toNat
  map := map
  warnedBits := 0
  unimplReported := 0
  world := world

def setReg (s : DspState σ) (r : RegIdx) (v : Word) : DspState σ :=
  { s with registers := Function.update s.registers r v }

def setSlot (s : DspState σ) (half : Fin 2) (idx : Fin 16) (v : Word) : DspState σ :=
  { s with stack := Function.update s.stack half (Function.update (s.stack half) idx v) }

@[simp] theorem setReg_same (s : DspState σ) (r : RegIdx) (v : Word) :
    (s.setReg r v).registers r = v := by simp [setReg]

@[simp] theorem setReg_other (s : DspState σ) {r q : RegIdx} (v : Word) (h : q ≠ r) :
    (s.setReg r v).registers q = s.registers q := by simp [setReg, h]

theorem setReg_setReg (s : DspState σ) (r : RegIdx) (v w : Word) :
    (s.setReg r v).setReg r w = s.setReg r w := by
  simp only [setReg, Function.update_idem]

@[simp] theorem setReg_stack (s : DspState σ) (r : RegIdx) (v : Word) :
    (s.setReg r v).stack = s.stack := rfl

@[simp] theorem setReg_interrupts (s : DspState σ) (r : RegIdx) (v : Word) :
    (s.setReg r v).interrupts = s.interrupts := rfl

@[simp] theorem setReg_pc (s : DspState σ) (r : RegIdx) (v : Word) :
    (s.setReg r v).pc = s.pc := rfl

@[simp] theorem setSlot_pc (s : DspState σ) (h : Fin 2) (i : Fin 16) (v : Word) :
    (s.setSlot h i v).pc = s.pc := rfl

@[simp] theorem setSlot_registers (s : DspState σ) (h : Fin 2) (i : Fin 16) (v : Word) :
    (s.setSlot h i v).registers = s.registers := rfl

theorem setSlot_stack (s : DspState σ) (h : Fin 2) (i : Fin 16) (v : Word) :
    (s.setSlot h i v).stack =
      Function.update s.stack h (Function.update (s.stack h) i v) := rfl

@[simp] theorem setSlot_interrupts (s : DspState σ) (h : Fin 2) (i : Fin 16) (v : Word) :
    (s.setSlot h i v).interrupts = s.interrupts := rfl

end DspState

end Dsp56300
