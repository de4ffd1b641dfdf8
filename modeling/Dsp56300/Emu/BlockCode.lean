import Dsp56300.Emu.EmitBlock
import Dsp56300.Emu.InstructionLength
import Dsp56300.Lib.Paths

/-! The code of a block, and what a path through it leaves in `pc_advance`. -/

namespace Dsp56300

namespace Emitter

set_option linter.constructorNameAsVariable false

/-- Whether the code of an operation spills or arms a fault budget. -/
def Op.armsFault : {γ : Type} → Op γ → Bool
  | _, .readRegForMove idx => idx = Reg.ssh.val
  | _, .writeRegForMove idx _ => idx = Reg.ssh.val || idx = Reg.sp.val
  | _, .stackPush _ _ _ | _, .stackPop _ | _, .armFaultBudget _ | _, .spillFaultBudget _ => true
  | _, _ => false

/-- Operations on nothing, counting `fault_arm_sites`. -/
def countSites : Lib.Programs.Code.Handler Op Nat
  | _, op, n => (op.silent, if op.armsFault then n + 1 else n)

/-- By how much the emission of code moves `fault_arm_sites`. -/
def faultArmSites {α : Type} (x : Emit α) : Nat := (x.run countSites 0).2

/-- The condition of a bit-test skip, with its cycles and its length. -/
def skipBit (addr : BitTestAddr) (bitNum : Byte) (testSet : Bool) (cycles : Nat) : Emit Bool := do
  setCycles cycles
  setInstLen 2
  emitBitTestPredicate addr bitNum testSet

/-- Branch-taken predicate for an instruction `forwardSkipTarget` accepted. -/
def emitSkipPredicate : Instruction → Emit Bool
  | .brclrEa space ea b => skipBit (.ea space ea) b false 5
  | .brclrAa space a b => skipBit (.aa space a) b false 5
  | .brclrPp space p b => skipBit (.pp space p) b false 5
  | .brclrQq space q b => skipBit (.qq space q) b false 5
  | .brclrReg r b => skipBit (.reg r) b false 5
  | .brsetEa space ea b => skipBit (.ea space ea) b true 5
  | .brsetAa space a b => skipBit (.aa space a) b true 5
  | .brsetPp space p b => skipBit (.pp space p) b true 5
  | .brsetQq space q b => skipBit (.qq space q) b true 5
  | .brsetReg r b => skipBit (.reg r) b true 5
  | .jclrEa space ea b => skipBit (.ea space ea) b false 4
  | .jclrAa space a b => skipBit (.aa space a) b false 4
  | .jclrPp space p b => skipBit (.pp space p) b false 4
  | .jclrQq space q b => skipBit (.qq space q) b false 4
  | .jclrReg r b => skipBit (.reg r) b false 4
  | .jsetEa space ea b => skipBit (.ea space ea) b true 4
  | .jsetAa space a b => skipBit (.aa space a) b true 4
  | .jsetPp space p b => skipBit (.pp space p) b true 4
  | .jsetQq space q b => skipBit (.qq space q) b true 4
  | .jsetReg r b => skipBit (.reg r) b true 4
  | .bcc cc _ => do
    setCycles 4
    setInstLen 1
    evalCcBool cc
  | .bccLong cc => do
    setCycles 5
    setInstLen 2
    evalCcBool cc
  | _ => return false -- unreachable in the source

/-- The count of a REP. -/
def emitRepLcValue : Instruction → Emit Word
  | .repImm count => return count.setWidth 32
  | .repReg r => do
    let val ← readRegForMove r.toNat
    return maskLc val
  | .repAa space addr => readMem space (addr.setWidth 32)
  | .repEa space ea => do
    let ea ← emitCalcEa (ea.setWidth 32)
    readMemDyn space ea.1
  | _ => return 0 -- unreachable in the source

/-- The count of a DO. -/
def emitDoLcValue : Instruction → Emit Word
  | .doImm count | .dorImm count => return count.setWidth 32
  | .doReg r | .dorReg r => do
    let val ← readRegForMove r.toNat
    return maskLc val
  | .doAa space addr | .dorAa space addr => do
    let memVal ← readMem space (addr.setWidth 32)
    return maskLc memVal
  | .doEa space ea | .dorEa space ea => do
    let ea ← emitCalcEa (ea.setWidth 32)
    let memVal ← readMemDyn space ea.1
    return maskLc memVal
  | _ => return 0 -- unreachable in the source

/-- Set-up of an inlined REP: TEMP and LC; the count decides whether the target runs at all. -/
def emitRepInlineSetup (repInst : Instruction) : Emit Word := do
  let oldLc ← loadReg Reg.lc.val
  storeReg Reg.temp.val oldLc
  setCycles 5
  let lcVal ← emitRepLcValue repInst
  storeReg Reg.lc.val lcVal
  return lcVal

/-- One iteration of an inlined REP: the count is the one read at its top, whatever the target
writes. -/
def emitRepIteration (inst : Instruction) (pc nextWord : Word) : Emit Unit := do
  let lcCur ← loadReg Reg.lc.val
  emitInstruction inst pc nextWord
  storeReg Reg.lc.val (maskLc (lcCur - 1))

/-- What follows an inlined REP: LC from TEMP. -/
def emitRepRestore : Emit Unit := do
  let savedLc ← loadReg Reg.temp.val
  storeReg Reg.lc.val savedLc

/-- Set-up of an inlined DO. -/
def emitDoInlineSetup (doInst : Instruction) (doPc la : Nat) : Emit Word := do
  setInstLen 2
  setCycles 5
  let lcVal ← emitDoLcValue doInst
  emitDoSetup (BitVec.ofNat 32 la) lcVal (BitVec.ofNat 32 (doPc + 2)) false
  return lcVal

/-- The annulled arm of an inlined DO: its set-up undone, and LA+1 stored as by a branch. -/
def emitDoInlineAnnul (la : Nat) : Emit Unit := do
  emitEnddoCleanup
  storePc (maskPc (BitVec.ofNat 32 (la + 1)))
  setInstLen 0

def emitLcDecrement : Emit Unit := do
  let lc ← loadReg Reg.lc.val
  storeReg Reg.lc.val (maskLc (lc - 1))

/-- The two arms of the first call after a REP: annulled, with LC restored and PC behind the
target, or on the target. -/
def emitRepFirstCall (repPc lc : Word) : Emit Unit :=
  if lc = 0 then do
    .call (.storeLoopRep false)
    let saved ← loadReg Reg.temp.val
    storeReg Reg.lc.val saved
    storePc (repPc + 2)
  else do
    .call (.storePcOnRep false)
    storePc (repPc + 1)

/-- The first call after a REP that is not inlined, compiled behind it. -/
def emitRepFirstCallArm (repPc : Word) : Emit Unit := do
  let lc ← loadReg Reg.lc.val
  emitRepFirstCall repPc lc
  setInstLen 0

end Emitter

open Instruction Emitter Lib.Paths Lib.Programs.Code

/-- A conditional branch compiled as a forward skip, and where it merges. -/
structure SkipBranch where
  inst : Instruction
  pc : Nat
  nextWord : Word
  target : Nat
  forward : inst.forwardSkipTarget pc nextWord = some target

/-- The stretches of code a block is made of. Where a test follows a stretch at once, the stretch
is named with the outcome. -/
inductive BlockAct where
  | instruction (opcode pc nextWord : Word)
  | skip (branch : SkipBranch) (taken : Bool)
  | repSetup (repInst : Instruction) (annul : Bool)
  | repIteration (opcode pc nextWord : Word)
  | repRestore
  | repLegacy (opcode pc nextWord : Word)
  | doSetup (doInst : Instruction) (doPc la : Nat) (annul : Bool)
  | doAnnul (la : Nat)
  | lcDecrement
  | enddoCleanup
  | storePcAdvance (endedWithTerminator : Bool) (pc : Nat)

/-- The ways out of a block; an early one has the address the run loop resumes at. -/
inductive BlockExit where
  | exitRequested (resumePc : Nat)
  | faultArmed (resumePc : Nat)
  | quantumSpent (resumePc : Nat)
  | finalize

abbrev BlockCode := Prog BlockAct BlockExit

/-- A forward skip that is open, and the code before it. -/
structure OpenSkip where
  branch : SkipBranch
  before : BlockCode

/-- Code under construction: the innermost open arm, and the skips around it. -/
structure Builder where
  code : BlockCode := .nop
  openSkips : List OpenSkip := []

namespace Builder

def emit (b : Builder) (code : BlockCode) : Builder := { b with code := .seq b.code code }

def openSkip (b : Builder) (branch : SkipBranch) : Builder := ⟨.nop, ⟨branch, b.code⟩ :: b.openSkips⟩

/-- Close the skips that merge at `pc`: one arm is empty, the other is what was built since. -/
def mergeAt (pc : Nat) (b : Builder) : Builder := go b.code b.openSkips
where
  go (code : BlockCode) : List OpenSkip → Builder
    | [] => ⟨code, []⟩
    | o :: os =>
      if o.branch.target = pc then
        let arms := .branch (.act (.skip o.branch true)) (.seq (.act (.skip o.branch false)) code)
        go (.seq o.before arms) os
      else ⟨code, o :: os⟩

/-- The end of the block: PC and `pc_advance`, and the final spill. -/
def finish (b : Builder) (endedWithTerminator : Bool) (pc : Nat) : BlockCode :=
  .seq b.code (.seq (.act (.storePcAdvance endedWithTerminator pc)) (.exit .finalize))

end Builder

/-- A way out that a path may take or pass. -/
def bail (e : BlockExit) : BlockCode := .branch (.exit e) .nop

/-- The code of an inlined DO: header, annulment or native loop, loop-end cleanup. -/
def doLoopCode (doInst : Instruction) (doPc la : Nat) (body : BlockCode) : BlockCode :=
  let bodyStart := doPc + 2
  let header annul := .seq (.act (.doSetup doInst doPc la annul)) (bail (.faultArmed bodyStart))
  let iteration := .seq body (.seq (.act .lcDecrement) (bail (.quantumSpent bodyStart)))
  .branch (.seq (header true) (.act (.doAnnul la)))
    (.seq (header false) (.seq (.loop iteration) (.act .enddoCleanup)))

namespace Pram

def instructionCode (p : Pram) (pc : Nat) : BlockCode :=
  .act (.instruction (p.word pc) (BitVec.ofNat 32 pc) (p.nextWord pc))

/-- The fault-arming sites the emission of an instruction meets. -/
def faultArmSites (p : Pram) (pc : Nat) : Nat :=
  Emitter.faultArmSites (emitInstruction (p.instAt pc) (BitVec.ofNat 32 pc) (p.nextWord pc))

/-- The code of an inlined REP: annulled, or a native loop over the target. -/
def repInlineCode (p : Pram) (repInst : Instruction) (repPc : Nat) : BlockCode :=
  let target := .repIteration (p.word (repPc + 1)) (BitVec.ofNat 32 (repPc + 1))
    (p.nextWord (repPc + 1))
  .seq (.branch (.act (.repSetup repInst true))
    (.seq (.act (.repSetup repInst false)) (.loop (.act target)))) (.act .repRestore)

/-- The code of the inlined DO body [bodyPc, la]. -/
def bodyCode (p : Pram) : (fuel bodyPc la : Nat) → Builder → Option BlockCode
  | 0, _, _, _ => none
  | fuel + 1, bodyPc, la, b =>
    if bodyPc ≤ la then
      let b := b.mergeAt bodyPc
      let inst := p.instAt bodyPc
      match h : inst.forwardSkipTarget bodyPc (p.nextWord bodyPc) with
      | some target =>
        p.bodyCode fuel (bodyPc + instructionLength inst) la
          (b.openSkip ⟨inst, bodyPc, p.nextWord bodyPc, target, h⟩)
      | none =>
        if inst.isDoInstruction then do
          let innerLa := inst.computeDoLa bodyPc (p.nextWord bodyPc)
          let inner ← p.bodyCode fuel (bodyPc + 2) innerLa {}
          p.bodyCode fuel (innerLa + 1) la (b.emit (doLoopCode inst bodyPc innerLa inner))
        else if inst.isRepInstruction then
          p.bodyCode fuel (p.afterRep bodyPc) la (b.emit (p.repInlineCode inst bodyPc))
        else
          p.bodyCode fuel (bodyPc + instructionLength inst) la (b.emit (p.instructionCode bodyPc))
    else some b.code

/-- The code of an instruction outside loops: where its emission met a fault-arming site, or it
writes a peripheral, a way out follows, unless it ends the block. -/
def plainCode (p : Pram) (pc : Nat) : BlockCode :=
  let inst := p.instAt pc
  let next := pc + instructionLength inst
  if inst.isBlockTerminator then p.instructionCode pc
  else .seq (p.instructionCode pc)
    (.seq (if p.faultArmSites pc = 0 then .nop else bail (.faultArmed next))
      (if inst.needsExitCheck then bail (.exitRequested next) else .nop))

/-- The code of a REP outside loops. -/
def repCode (p : Pram) (pc : Nat) : BlockCode :=
  if repFallsBack (decode (p.nextWord pc)) then
    .act (.repLegacy (p.word pc) (BitVec.ofNat 32 pc) (p.nextWord pc))
  else p.repInlineCode (p.instAt pc) pc

/-- The code of a DO outside loops. -/
def doCode (p : Pram) (stopPc pc : Nat) : Option BlockCode := do
  let inst := p.instAt pc
  let la := inst.computeDoLa pc (p.nextWord pc)
  let inlineable ← if inst.isDoForever then some false else p.isDoBodyInlineable (pc + 2) la stopPc
  if inlineable then
    let body ← p.bodyCode (walkFuel (pc + 2) la) (pc + 2) la {}
    some (doLoopCode inst pc la body)
  else some (p.instructionCode pc)

/-- The code `emitNext` adds at `s`. -/
def codeNext (p : Pram) (maxLen stopPc : Nat) (s : BlockState) (b : Builder) : Option Builder :=
  let inst := p.instAt s.pc
  match h : p.acceptedSkip maxLen stopPc s with
  | some target =>
    some (b.openSkip ⟨inst, s.pc, p.nextWord s.pc, target, (Option.filter_eq_some_iff.mp h).1⟩)
  | none =>
    if inst.isRepInstruction then some (b.emit (p.repCode s.pc))
    else if inst.isDoInstruction then b.emit <$> p.doCode stopPc s.pc
    else some (b.emit (p.plainCode s.pc))

/-- The block loop, with the code it builds. -/
def codeLoop (p : Pram) (maxLen stopPc : Nat) : Nat → BlockState → Builder → Option BlockCode
  | 0, _, _ => none
  | fuel + 1, s, b =>
    let b := b.mergeAt s.pc
    if p.exhausted maxLen s.closeSkips then some (b.finish false s.pc)
    else do
      let b ← p.codeNext maxLen stopPc s.closeSkips b
      match ← p.emitNext maxLen stopPc s.closeSkips with
      | .next t => p.codeLoop maxLen stopPc fuel t b
      | .done t endedWithTerminator => some (b.finish endedWithTerminator t.pc)

/-- The code of the block at `startPc`, from `emit_block` to `finalize_and_return`. -/
def blockCode (p : Pram) (startPc maxLen stopPc : Nat) : Option BlockCode :=
  p.codeLoop maxLen stopPc (p.spaceEnd - startPc + 1) (blockStart startPc) {}

end Pram

end Dsp56300
