import Dsp56300.Emu.InlineBody
import Dsp56300.Emu.PMemory

namespace Dsp56300

open Instruction

/-- The P memory of a memory map, as the translator sees it. -/
def MemoryMap.pram {σ : Type} (map : MemoryMap σ) (w : World σ) : Pram :=
  ⟨map.pSpaceEnd.toNat, map.pWord w⟩

/-- The translator between two instructions of a block; the innermost open skip is the head. -/
structure BlockState where
  pc : Nat
  count : Nat
  openSkips : List Nat
  emitted : List Emitted

/-- What one iteration of the block loop comes to. -/
inductive Iteration where
  | next (s : BlockState)
  | done (s : BlockState) (endedWithTerminator : Bool)

/-- Close the forward skips that merge here. -/
def BlockState.closeSkips (s : BlockState) : BlockState :=
  { s with openSkips := popSkips s.pc s.openSkips }

@[simp] theorem BlockState.closeSkips_pc (s : BlockState) : s.closeSkips.pc = s.pc := rfl

@[simp] theorem BlockState.closeSkips_count (s : BlockState) : s.closeSkips.count = s.count := rfl

@[simp] theorem BlockState.closeSkips_emitted (s : BlockState) :
    s.closeSkips.emitted = s.emitted := rfl

def Iteration.state : Iteration → BlockState
  | .next s | .done s _ => s

/-- The block `emitBlock` builds. -/
structure EmittedBlock where
  endPc : Nat
  endsOpen : Bool
  emitted : List Emitted
  openSkips : List Nat

namespace Pram

/-- The walk over the skip region [pc, target) of a straight-line forward branch: its number
of instructions, or `none` when it cannot be compiled as a structured skip. -/
def skipRegionScan (p : Pram) (target pc count : Nat) (skips : List Nat) : Option Nat :=
  if pc < target then
    let skips := popSkips pc skips
    let inst := p.instAt pc
    match inst.forwardSkipTarget pc (p.nextWord pc) with
    | some inner =>
      if inner < pc + instructionLength inst || inner > skips.headD target then none
      else p.skipRegionScan target (pc + instructionLength inst) (count + 1) (inner :: skips)
    | none =>
      if inst.isDoInstruction || inst.isRepInstruction || inst.isBlockTerminator ||
          inst.writesPMemory then none
      else p.skipRegionScan target (pc + instructionLength inst) (count + 1) skips
  else if pc ≠ target || skips.any (· ≠ target) then none
  else some count
termination_by target - pc
decreasing_by all_goals have := instructionLength_pos (p.instAt pc); omega

def straightlineSkipRegionLen (p : Pram) (branchPc branchLen target stopPc : Nat) : Option Nat :=
  if target < branchPc + branchLen || target ≥ stopPc || target > p.spaceEnd then none
  else p.skipRegionScan target (branchPc + branchLen) 0 []

/-- The forward skip at the current instruction, when it is compiled as one: a nested one
always is, an outermost one if its region can be and fits the budget. -/
def acceptedSkip (p : Pram) (maxLen stopPc : Nat) (s : BlockState) : Option Nat :=
  let inst := p.instAt s.pc
  (inst.forwardSkipTarget s.pc (p.nextWord s.pc)).filter fun target =>
    !s.openSkips.isEmpty ||
      (p.straightlineSkipRegionLen s.pc (instructionLength inst) target stopPc).any
        fun n => s.count + 1 + n ≤ maxLen

/-- Whether a REP falls back to the legacy loop: its target may arm a fault or is a loop. -/
def repFallsBack (target : Instruction) : Bool :=
  target.mayArmStackFault || target.isRepInstruction || target.isDoInstruction

/-- The REP arm of the block loop. -/
def emitRep (p : Pram) (stopPc : Nat) (s : BlockState) : Iteration :=
  let inst := p.instAt s.pc
  if repFallsBack (decode (p.nextWord s.pc)) then
    .done { s with
      pc := s.pc + instructionLength inst
      emitted := s.emitted ++ [⟨s.pc, inst⟩] } true
  else
    let t : BlockState := { s with
      pc := p.afterRep s.pc
      count := s.count + 2
      emitted := s.emitted ++ p.emitRepInline inst s.pc }
    if t.pc ≥ stopPc then .done t false else .next t

/-- The DO arm of the block loop. -/
def emitDo (p : Pram) (stopPc : Nat) (s : BlockState) : Option Iteration := do
  let inst := p.instAt s.pc
  let la := inst.computeDoLa s.pc (p.nextWord s.pc)
  let inlineable ← if inst.isDoForever then some false
    else p.isDoBodyInlineable (s.pc + 2) la stopPc
  if inlineable then
    let es ← p.emitDoInline inst s.pc la
    let bodyCount ← p.countBodyInstructions (walkFuel (s.pc + 2) la) (s.pc + 2) la
    let t : BlockState := { s with
      pc := la + 1
      count := s.count + (1 + bodyCount)
      emitted := s.emitted ++ es }
    some (if t.pc ≥ stopPc then .done t false else .next t)
  else
    some (.done { s with
      pc := s.pc + instructionLength inst
      emitted := s.emitted ++ [⟨s.pc, inst⟩] } true)

/-- The plain arm of the block loop. -/
def emitPlain (p : Pram) (stopPc : Nat) (s : BlockState) : Iteration :=
  let inst := p.instAt s.pc
  let t : BlockState := { s with
    pc := s.pc + instructionLength inst
    count := s.count + 1
    emitted := s.emitted ++ [⟨s.pc, inst⟩] }
  if inst.isBlockTerminator || t.pc ≥ stopPc || inst.writesPMemory then .done t true else .next t

/-- The instruction budget or P memory has run out. -/
def exhausted (p : Pram) (maxLen : Nat) (s : BlockState) : Bool :=
  s.count ≥ maxLen || s.pc ≥ p.spaceEnd

@[simp] theorem exhausted_closeSkips (p : Pram) (maxLen : Nat) (s : BlockState) :
    p.exhausted maxLen s.closeSkips = p.exhausted maxLen s := rfl

/-- The instruction at `s`, compiled by the arm that takes it. -/
def emitNext (p : Pram) (maxLen stopPc : Nat) (s : BlockState) : Option Iteration :=
  let inst := p.instAt s.pc
  match p.acceptedSkip maxLen stopPc s with
  | some target =>
    some (.next {
      pc := s.pc + instructionLength inst
      count := s.count + 1
      openSkips := target :: s.openSkips
      emitted := s.emitted ++ [⟨s.pc, inst⟩] })
  | none =>
    if inst.isRepInstruction then some (p.emitRep stopPc s)
    else if inst.isDoInstruction then p.emitDo stopPc s
    else some (p.emitPlain stopPc s)

/-- One iteration of the block loop. -/
def emitIteration (p : Pram) (maxLen stopPc : Nat) (s : BlockState) : Option Iteration :=
  if p.exhausted maxLen s.closeSkips then some (.done s.closeSkips false)
  else p.emitNext maxLen stopPc s.closeSkips

/-- The block loop; `none` when the fuel runs out. -/
def emitLoop (p : Pram) (maxLen stopPc : Nat) : Nat → BlockState → Option EmittedBlock
  | 0, _ => none
  | fuel + 1, s => do
    match ← p.emitIteration maxLen stopPc s with
    | .next t => p.emitLoop maxLen stopPc fuel t
    | .done t endedWithTerminator => some ⟨t.pc, !endedWithTerminator, t.emitted, t.openSkips⟩

def blockStart (startPc : Nat) : BlockState := ⟨startPc, 0, [], []⟩

/-- Build the block at `startPc`: its end, whether it ends open, and what it holds. -/
def emitBlock (p : Pram) (startPc maxLen stopPc : Nat) : Option EmittedBlock :=
  p.emitLoop maxLen stopPc (p.spaceEnd - startPc + 1) (blockStart startPc)

end Pram

end Dsp56300
