import Dsp56300.Emu.Stack

namespace Dsp56300

/-- The jump-to-subroutine instructions: one at the vector makes an interrupt long. -/
def isSubroutineCall : Instruction → Bool
  | .jsr _ | .jsrEa _ | .jscc _ _ | .jsccEa _ _ | .bsr _ | .bsrLong | .bsrRn _ | .bscc _ _
  | .bsccLong _ | .bsccRn _ _ | .jsclrEa _ _ _ | .jsclrAa _ _ _ | .jsclrPp _ _ _ | .jsclrQq _ _ _
  | .jsclrReg _ _ | .jssetEa _ _ _ | .jssetAa _ _ _ | .jssetPp _ _ _ | .jssetQq _ _ _
  | .jssetReg _ _ | .bsclrEa _ _ _ | .bsclrAa _ _ _ | .bsclrPp _ _ _ | .bsclrQq _ _ _
  | .bsclrReg _ _ | .bssetEa _ _ _ | .bssetAa _ _ _ | .bssetPp _ _ _ | .bssetQq _ _ _
  | .bssetReg _ _ => true
  | _ => false

namespace InterruptPipeline

/-- The arbitration loop over the sources still to visit, with the best source so far
and its level. Level 3 ends the search. -/
def arbitrate (p : InterruptPipeline) (iplSr : Int) :
    List (Fin Interrupt.count) → Option (Fin Interrupt.count) → Int → Option (Fin Interrupt.count)
  | [], index, _ => index
  | i :: is, index, iplToRaise =>
    if ¬ p.pending i then arbitrate p iplSr is index iplToRaise
    else if p.ipl i = 3 then some i
    else if p.ipl i < iplSr then arbitrate p iplSr is index iplToRaise
    else if p.ipl i > iplToRaise then arbitrate p iplSr is (some i) (p.ipl i)
    else arbitrate p iplSr is index iplToRaise

/-- A core fault is pending behind the one in flight. -/
def faultPending (p : InterruptPipeline) : Bool :=
  p.pending Interrupt.illegal || p.pending Interrupt.stackError || p.pending Interrupt.trap

end InterruptPipeline

namespace DspState

variable {σ : Type}

def setInterrupts (s : DspState σ) (p : InterruptPipeline) : DspState σ := { s with interrupts := p }

/-- Stack the context and raise the level if the word at the vector is a call. -/
def detectLongInterrupt (s : DspState σ) (instr : Word) : DspState σ :=
  if isSubroutineCall (decode instr) ∧ s.interrupts.state ≠ .long then
    let s := s.setInterrupts { s.interrupts with state := .long }
    let s := s.stackPush s.interrupts.savedPc (s.registers Reg.sr)
    let clearMask : Word := (1#32 <<< Sr.lf) ||| (1#32 <<< Sr.s1) ||| (1#32 <<< Sr.s0) |||
      (1#32 <<< Sr.i0) ||| (1#32 <<< Sr.i1) ||| (1#32 <<< Sr.sa)
    let s := s.setReg Reg.sr (s.registers Reg.sr &&& ~~~clearMask)
    s.setReg Reg.sr (s.registers Reg.sr ||| (s.interrupts.iplToRaise.setWidth 32 <<< Sr.i0))
  else s

/-- Fetch the word at PC and look for a call in it. -/
def fetchVector (s : DspState σ) : DspState σ :=
  let (instr, world) := s.map.readMemory .p s.pc s.world
  { s with world := world }.detectLongInterrupt instr

/-- Annul the instruction at PC, which becomes the saved PC, and start the vector fetch. -/
def deliverArmedFault (s : DspState σ) : DspState σ :=
  let s := s.setInterrupts { s.interrupts with savedPc := s.pc }
  let s := { s with pc := s.interrupts.vectorAddr }
  let s := s.setInterrupts { s.interrupts with state := .fast, faultBudget := invalidFaultBudget }
  let s := s.fetchVector
  s.setInterrupts { s.interrupts with pipelineStage := 3 }

/-- The vector address of source `i`: VBA[23:8] over the slot offset. -/
def vectorOf (s : DspState σ) (i : Fin Interrupt.count) : Word :=
  (s.registers Reg.vba &&& 0xFFFF00) ||| Interrupt.vectorAddr i

/-- Deliver the first pending level 3 source; its own stream budget does not apply. -/
def deliverParkedFault (s : DspState σ) : DspState σ :=
  match (List.finRange Interrupt.count).find?
      fun i => s.interrupts.pending i && s.interrupts.ipl i = 3 with
  | none => s.setInterrupts { s.interrupts with state := .none }
  | some idx =>
    let s := s.setInterrupts (s.interrupts.clearPending idx)
    let s := s.setInterrupts { s.interrupts with vectorAddr := s.vectorOf idx, iplToRaise := 3 }
    s.deliverArmedFault

/-- The level interrupts must reach, SR bits I1 and I0. -/
def iplSr (s : DspState σ) : Int := ((s.registers Reg.sr >>> Sr.i0) &&& 3).toNat

/-- Clear the winner's pending bit and start the pipeline; a core fault with a known
budget is armed instead. -/
def dispatch (s : DspState σ) (idx : Fin Interrupt.count) : DspState σ :=
  let s := s.setInterrupts (s.interrupts.clearPending idx)
  let newIpl := min (s.interrupts.ipl idx + 1) 3
  let s := s.setInterrupts { s.interrupts with
    vectorAddr := s.vectorOf idx, iplToRaise := BitVec.ofInt 8 newIpl }
  if (idx = Interrupt.stackError ∨ idx = Interrupt.illegal ∨ idx = Interrupt.trap) ∧
      s.interrupts.faultBudget ≠ invalidFaultBudget then
    s.setInterrupts { s.interrupts with state := .armed }
  else s.setInterrupts { s.interrupts with pipelineStage := 5, state := .fast }

/-- Find the highest-priority unmasked source and dispatch it. -/
def arbitrate (s : DspState σ) : DspState σ :=
  if ¬ s.interrupts.hasPending then s
  else
    match s.interrupts.arbitrate s.iplSr (List.finRange Interrupt.count) none (-1) with
    | none => s
    | some idx => s.dispatch idx

/-- A parked core fault counts down completions; an SP write holds it at three or more. -/
def countParked (p : InterruptPipeline) : InterruptPipeline :=
  let p := if p.parkedCountdown > 0 then { p with parkedCountdown := p.parkedCountdown - 1 } else p
  if p.parkedSpWrite then
    { p with parkedSpWrite := false, parkedCountdown := max p.parkedCountdown 3 }
  else p

def tickParked (s : DspState σ) : DspState σ :=
  let s := s.setInterrupts (countParked s.interrupts)
  if s.interrupts.parkedCountdown = 0 then s.deliverParkedFault else s

def nextStage (s : DspState σ) : DspState σ :=
  s.setInterrupts { s.interrupts with pipelineStage := s.interrupts.pipelineStage - 1 }

/-- One stage of a fast pipeline. Only a completed pipeline with no fault behind it
lets the tick go on to arbitration (the flag). -/
def tickFast (s : DspState σ) : DspState σ × Bool :=
  match s.interrupts.pipelineStage with
  | 5 => (s.nextStage, false)
  | 4 =>
    let s := s.setInterrupts { s.interrupts with savedPc := s.pc }
    let s := { s with pc := s.interrupts.vectorAddr }
    (s.fetchVector.nextStage, false)
  | 3 =>
    let s := if s.pc = maskPc (s.interrupts.vectorAddr + 1) then s.fetchVector else s
    (s.nextStage, false)
  | 2 =>
    let s := if s.interrupts.state ≠ .long ∧ s.pc = maskPc (s.interrupts.vectorAddr + 2) then
      { s with pc := s.interrupts.savedPc } else s
    (s.nextStage, false)
  | 1 => (s.nextStage, false)
  | 0 =>
    let s := s.setInterrupts { s.interrupts with savedPc := 0xFFFF, vectorAddr := 0xFFFF }
    if s.interrupts.faultPending then
      (s.setInterrupts { s.interrupts with
        state := .parked, parkedCountdown := 3, parkedSpWrite := false }, false)
    else (s.setInterrupts { s.interrupts with state := .none }, true)
  | _ => (s, false)

/-- What follows the fast pipeline in a tick: a parked or armed fault owns it. -/
def tickIdle (s : DspState σ) : DspState σ :=
  if s.interrupts.state = .parked then s.tickParked
  else if s.interrupts.state = .armed then s
  else s.arbitrate

/-- One completion's worth of interrupt processing. REP is not interruptible. -/
def processPendingInterrupts (s : DspState σ) : DspState σ :=
  if s.loopRep then s
  else if s.interrupts.state = .fast then
    if s.tickFast.2 then s.tickFast.1.tickIdle else s.tickFast.1
  else s.tickIdle

end DspState

end Dsp56300
