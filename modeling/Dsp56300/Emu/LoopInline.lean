import Dsp56300.Emu.InstructionClass

namespace Dsp56300

open Instruction

/-- P memory as the translator reads it: its end and its words. -/
structure Pram where
  spaceEnd : Nat
  word : Nat → Word

/-- An instruction the translator emits code for, and the address it was read at. -/
structure Emitted where
  pc : Nat
  inst : Instruction

/-- Close the forward skips whose merge target is `pc`; the innermost is the head. -/
def popSkips (pc : Nat) (skips : List Nat) : List Nat := skips.dropWhile (· = pc)

namespace Pram

def instAt (p : Pram) (pc : Nat) : Instruction := decode (p.word pc)

/-- The word behind `pc`, read at the masked address. -/
def nextWord (p : Pram) (pc : Nat) : Word := p.word (maskPc (BitVec.ofNat 32 (pc + 1))).toNat

/-- The address behind a REP at `pc` and the instruction it repeats. -/
def afterRep (p : Pram) (pc : Nat) : Nat := pc + 1 + instructionLength (p.instAt (pc + 1))

def maxNestingDepth : Nat := 8

def maxInlineLen : Nat := 64

/-- The checks on a DO body made before it is walked. -/
def bodyFits (p : Pram) (depth bodyStart la outerStopPc : Nat) : Bool :=
  depth ≤ maxNestingDepth && la < p.spaceEnd && la + 1 < outerStopPc && bodyStart ≤ la

/-- Number of instructions in the DO body [bodyPc, la]. -/
def countBodyInstructions (p : Pram) : (fuel bodyPc la : Nat) → Option Nat
  | 0, _, _ => none
  | fuel + 1, bodyPc, la =>
    if bodyPc ≤ la then
      let inst := p.instAt bodyPc
      if inst.isDoInstruction then do
        let innerLa := inst.computeDoLa bodyPc (p.nextWord bodyPc)
        let innerCount ← p.countBodyInstructions fuel (bodyPc + 2) innerLa
        let rest ← p.countBodyInstructions fuel (innerLa + 1) la
        some (1 + innerCount + rest)
      else if inst.isRepInstruction then
        let repInst := decode (p.nextWord bodyPc)
        (2 + ·) <$> p.countBodyInstructions fuel (bodyPc + 1 + instructionLength repInst) la
      else (1 + ·) <$> p.countBodyInstructions fuel (bodyPc + instructionLength inst) la
    else some 0

/-- Whether a repeated instruction may not be inlined in a DO body. -/
def unsafeRepTarget (inst : Instruction) : Bool :=
  inst.isBlockTerminator || inst.needsExitCheck || inst.writesPMemory || inst.mayArmStackFault ||
    inst.isRepInstruction || inst.isDoInstruction

/-- Whether an instruction may not stand in an inlined DO body. -/
def unsafeInBody (inst : Instruction) : Bool :=
  inst.isBlockTerminator || inst.needsExitCheck || inst.writesPMemory || inst.mayArmStackFault

/-- The walk over a DO body that decides whether it can be inlined; `none` when the
fuel runs out. -/
def bodyScan (p : Pram) :
    (fuel depth la bodyPc count : Nat) → (skips : List Nat) → Option Bool
  | 0, _, _, _, _, _ => none
  | fuel + 1, depth, la, bodyPc, count, skips =>
    if bodyPc ≤ la then
      let skips := popSkips bodyPc skips
      if bodyPc ≥ p.spaceEnd then some false
      else
        let inst := p.instAt bodyPc
        let len := instructionLength inst
        match inst.forwardSkipTarget bodyPc (p.nextWord bodyPc) with
        | some target =>
          if target < bodyPc + len || target > la || skips.head?.any (target > ·) then some false
          else p.bodyScan fuel depth la (bodyPc + len) (count + 1) (target :: skips)
        | none =>
          if inst.isDoInstruction then
            let innerLa := inst.computeDoLa bodyPc (p.nextWord bodyPc)
            if !skips.isEmpty || inst.isDoForever || innerLa ≥ la then some false
            else if !p.bodyFits (depth + 1) (bodyPc + 2) innerLa (la + 1) then some false
            else do
              let inner ← p.bodyScan fuel (depth + 1) innerLa (bodyPc + 2) 0 []
              if !inner then some false
              else
                let innerCount ← p.countBodyInstructions fuel (bodyPc + 2) innerLa
                p.bodyScan fuel depth la (innerLa + 1) (count + (1 + innerCount)) skips
          else if unsafeInBody inst then some false
          else if inst.isRepInstruction then
            if !skips.isEmpty || bodyPc + 1 ≥ p.spaceEnd ||
                unsafeRepTarget (p.instAt (bodyPc + 1)) || p.afterRep bodyPc > la + 1 then
              some false
            else p.bodyScan fuel depth la (p.afterRep bodyPc) (count + 2) skips
          else p.bodyScan fuel depth la (bodyPc + len) (count + 1) skips
    else some (bodyPc = la + 1 && skips.isEmpty && count ≤ maxInlineLen)

/-- Enough fuel to walk [bodyStart, la]. -/
def walkFuel (bodyStart la : Nat) : Nat := la + 2 - bodyStart

/-- Whether the DO body [bodyStart, la] can be inlined. -/
def isDoBodyInlineable (p : Pram) (bodyStart la outerStopPc : Nat) : Option Bool :=
  if p.bodyFits 0 bodyStart la outerStopPc then
    p.bodyScan (walkFuel bodyStart la) 0 la bodyStart 0 []
  else some false

/-- What inlining a REP emits: the REP and the instruction it repeats. -/
def emitRepInline (p : Pram) (repInst : Instruction) (repPc : Nat) : List Emitted :=
  [⟨repPc, repInst⟩, ⟨repPc + 1, p.instAt (repPc + 1)⟩]

/-- What inlining the DO body [bodyPc, la] emits. -/
def emitDoBody (p : Pram) : (fuel bodyPc la : Nat) → Option (List Emitted)
  | 0, _, _ => none
  | fuel + 1, bodyPc, la =>
    if bodyPc ≤ la then
      let inst := p.instAt bodyPc
      let len := instructionLength inst
      if (inst.forwardSkipTarget bodyPc (p.nextWord bodyPc)).isSome then
        (⟨bodyPc, inst⟩ :: ·) <$> p.emitDoBody fuel (bodyPc + len) la
      else if inst.isDoInstruction then do
        let innerLa := inst.computeDoLa bodyPc (p.nextWord bodyPc)
        let inner ← p.emitDoBody fuel (bodyPc + 2) innerLa
        let rest ← p.emitDoBody fuel (innerLa + 1) la
        some (⟨bodyPc, inst⟩ :: inner ++ rest)
      else if inst.isRepInstruction then
        (p.emitRepInline inst bodyPc ++ ·) <$> p.emitDoBody fuel (p.afterRep bodyPc) la
      else (⟨bodyPc, inst⟩ :: ·) <$> p.emitDoBody fuel (bodyPc + len) la
    else some []

/-- What inlining a DO loop emits: the DO and its body. -/
def emitDoInline (p : Pram) (doInst : Instruction) (doPc la : Nat) : Option (List Emitted) :=
  (⟨doPc, doInst⟩ :: ·) <$> p.emitDoBody (walkFuel (doPc + 2) la) (doPc + 2) la

end Pram

end Dsp56300
