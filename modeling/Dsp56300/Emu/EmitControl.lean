import Dsp56300.Emu.Emitter

namespace Dsp56300.Emitter

open Lib.Programs

set_option linter.constructorNameAsVariable false

def emitNop : Emit Unit := do
  setInstLen 1
  setCycles 1

/-- Just length and cycles. -/
def emitNopLike (len : Nat) : Emit Unit := do
  setInstLen len
  setCycles 1

def emitAddInterrupt (inter : Nat) : Emit Unit := .call (.addInterrupt inter)

def emitArmFaultBudget (words : Nat) : Emit Unit := .call (.armFaultBudget words)

def emitIllegal : Emit Unit := do
  setInstLen 1
  setCycles 5
  emitAddInterrupt Interrupt.illegal.val
  emitArmFaultBudget 0

def emitTrapcc (cc : CondCode) : Emit Unit := do
  let taken ← evalCcBool cc
  if taken then
    emitAddInterrupt Interrupt.trap.val
    emitArmFaultBudget 0

/-- Push (return address, SR), unless an interrupt made the call's frame already. -/
def emitInterruptAwareStackPush (retAddr : Word) : Emit Unit := do
  let intState ← .call .loadInterruptState
  if intState = .long then .call (.storeInterruptState .fast)
  else
    let srVal ← loadReg Reg.sr.val
    .call (.stackPush retAddr srVal (.lessDecodeLen 9))

/-- The two arms of a conditional branch: the taken one ends with length 0, the other sets the
length of the instruction. -/
def emitTaken (taken : Bool) (len : Nat) (arm : Emit Unit) : Emit Unit :=
  if taken then do
    arm
    setInstLen 0
  else setInstLen len

def emitJmp (addr : Word) : Emit Unit := do
  setInstLen 0
  setCycles 3
  storePc addr

def emitJcc (cc : CondCode) (addr : Word) : Emit Unit := do
  setCycles 4
  let taken ← evalCcBool cc
  emitTaken taken 1 (storePc addr)

def emitJsr (addr pc : Word) : Emit Unit := do
  setInstLen 0
  setCycles 3
  emitInterruptAwareStackPush (maskPc (pc + 1))
  storePc addr

def emitRts : Emit Unit := do
  setInstLen 0
  setCycles 3
  let popped ← .call (.stackPop (.lessDecodeLen 3))
  storePc popped.1

def emitRti : Emit Unit := do
  setInstLen 0
  setCycles 3
  let popped ← .call (.stackPop (.lessDecodeLen 3))
  storePc popped.1
  storeReg Reg.sr.val popped.2

def emitBra (offset pc : Word) : Emit Unit := do
  setInstLen 0
  setCycles 4
  storePc (maskPc (pc + offset))

def emitBcc (cc : CondCode) (offset pc : Word) : Emit Unit := do
  setCycles 4
  let taken ← evalCcBool cc
  emitTaken taken 1 (storePc (maskPc (pc + offset)))

def emitBraLong (pc nextWord : Word) : Emit Unit := do
  setInstLen 0
  setCycles 4
  storePc (maskPc (pc + nextWord))

def emitBccLong (cc : CondCode) (pc nextWord : Word) : Emit Unit := do
  setCycles 5
  let taken ← evalCcBool cc
  emitTaken taken 2 (storePc (maskPc (pc + nextWord)))

def emitBsr (offset pc : Word) : Emit Unit := do
  setInstLen 0
  setCycles 4
  emitInterruptAwareStackPush (maskPc (pc + 1))
  storePc (maskPc (pc + offset))

def emitBsrLong (pc nextWord : Word) : Emit Unit := do
  setInstLen 0
  setCycles 5
  emitInterruptAwareStackPush (maskPc (pc + 2))
  storePc (maskPc (pc + nextWord))

def emitBscc (cc : CondCode) (offset pc : Word) : Emit Unit := do
  setCycles 4
  let taken ← evalCcBool cc
  emitTaken taken 1 do
    emitInterruptAwareStackPush (maskPc (pc + 1))
    storePc (maskPc (pc + offset))

def emitBsccLong (cc : CondCode) (pc nextWord : Word) : Emit Unit := do
  setCycles 5
  let taken ← evalCcBool cc
  emitTaken taken 2 do
    emitInterruptAwareStackPush (maskPc (pc + 2))
    storePc (maskPc (pc + nextWord))

/-- PC-relative target through an address register. -/
def rnTarget (rn : Byte) (pc : Word) : Emit Word := do
  let rnVal ← loadReg (Reg.r0.val + rn.toNat)
  return maskPc (pc + rnVal)

def emitBsccRn (cc : CondCode) (rn : Byte) (pc : Word) : Emit Unit := do
  setCycles 4
  let taken ← evalCcBool cc
  emitTaken taken 1 do
    emitInterruptAwareStackPush (maskPc (pc + 1))
    let target ← rnTarget rn pc
    storePc target

def emitBraRn (rn : Byte) (pc : Word) : Emit Unit := do
  setInstLen 0
  setCycles 4
  let target ← rnTarget rn pc
  storePc target

def emitBccRn (cc : CondCode) (rn : Byte) (pc : Word) : Emit Unit := do
  setCycles 4
  let taken ← evalCcBool cc
  emitTaken taken 1 do
    let target ← rnTarget rn pc
    storePc target

def emitBsrRn (rn : Byte) (pc : Word) : Emit Unit := do
  setInstLen 0
  setCycles 4
  emitInterruptAwareStackPush (maskPc (pc + 1))
  let target ← rnTarget rn pc
  storePc target

def emitJmpEa (eaMode : Byte) (nextWord : Word) : Emit Unit := do
  setInstLen 0
  setCycles 3
  let ea ← emitCalcEaExt (eaMode.setWidth 32) nextWord
  storePc ea.1

/-- Words from a call through an EA to its return address. -/
def retOffset (eaMode : Byte) : Nat := if (eaMode >>> 3) &&& 7 = 6 then 2 else 1

def emitJsrEa (eaMode : Byte) (pc nextWord : Word) : Emit Unit := do
  setInstLen 0
  setCycles 3
  let ea ← emitCalcEaExt (eaMode.setWidth 32) nextWord
  emitInterruptAwareStackPush (maskPc (pc + BitVec.ofNat 32 (retOffset eaMode)))
  storePc ea.1

def emitJccEa (cc : CondCode) (eaMode : Byte) (nextWord : Word) : Emit Unit := do
  setCycles 4
  let ea ← emitCalcEaExt (eaMode.setWidth 32) nextWord
  let taken ← evalCcBool cc
  emitTaken taken (instLenForEa eaMode) (storePc ea.1)

def emitJscc (cc : CondCode) (addr pc : Word) : Emit Unit := do
  setCycles 4
  let taken ← evalCcBool cc
  emitTaken taken 1 do
    emitInterruptAwareStackPush (maskPc (pc + 1))
    storePc addr

def emitJsccEa (cc : CondCode) (eaMode : Byte) (pc nextWord : Word) : Emit Unit := do
  setCycles 4
  let ea ← emitCalcEaExt (eaMode.setWidth 32) nextWord
  let taken ← evalCcBool cc
  emitTaken taken (retOffset eaMode) do
    emitInterruptAwareStackPush (maskPc (pc + BitVec.ofNat 32 (retOffset eaMode)))
    storePc ea.1

def emitWait : Emit Unit := do
  setInstLen 1
  setCycles 10
  .call (.storePowerState .wait)

def emitReset : Emit Unit := do
  setInstLen 1
  setCycles 7

def emitStop : Emit Unit := do
  setInstLen 1
  setCycles 10
  .call (.storePowerState .stop)

/-- Addressing mode of a bit-test branch. -/
inductive BitTestAddr where
  | pp (space : MemSpace) (ppOffset : Byte)
  | qq (space : MemSpace) (qqOffset : Byte)
  | aa (space : MemSpace) (addr : Byte)
  | reg (regIdx : Byte)
  | ea (space : MemSpace) (eaMode : Byte)

/-- What a bit-test branch does when its condition is met. -/
inductive BitTestBranch where
  | jump
  | jumpSub (pc : Word)
  | branch (pc : Word)
  | branchSub (pc : Word)

/-- The operand of a bit test; an SSH operand pops the stack. -/
def readBitTestOperand : BitTestAddr → Emit Word
  | .pp space ppOffset => readMem space (0xFFFFC0 + ppOffset.setWidth 32)
  | .qq space qqOffset => readMem space (0xFFFF80 + qqOffset.setWidth 32)
  | .aa space addr => readMem space (addr.setWidth 32)
  | .reg regIdx =>
    if regIdx.toNat = Reg.ssh.val then do
      .call (.spillFaultBudget .pop)
      .call .readSsh
    else loadReg regIdx.toNat
  | .ea space eaMode => do
    let ea ← emitCalcEa (eaMode.setWidth 32)
    readMemDyn space ea.1

/-- Whether a bit-test branch is taken: read the operand, test the bit. -/
def emitBitTestPredicate (addr : BitTestAddr) (bitNum : Byte) (testSet : Bool) : Emit Bool := do
  let val ← readBitTestOperand addr
  let masked := val &&& ((1 : Word) <<< bitNum.toNat)
  return if testSet then masked ≠ 0 else masked = 0

/-- The taken arm of a bit-test branch. -/
def emitBitTestTaken (nextWord : Word) : BitTestBranch → Emit Unit
  | .jump => storePc nextWord
  | .jumpSub pc => do
    emitInterruptAwareStackPush (maskPc (pc + 2))
    storePc nextWord
  | .branch pc => storePc (maskPc (pc + nextWord))
  | .branchSub pc => do
    emitInterruptAwareStackPush (maskPc (pc + 2))
    storePc (maskPc (pc + nextWord))

def emitBitTestBranch (addr : BitTestAddr) (bitNum : Byte) (nextWord : Word) (testSet : Bool)
    (branch : BitTestBranch) : Emit Unit := do
  setCycles (match branch with | .jump | .jumpSub _ => 4 | .branch _ | .branchSub _ => 5)
  let cond ← emitBitTestPredicate addr bitNum testSet
  emitTaken cond 2 (emitBitTestTaken nextWord branch)

/-! Loops, as single instructions. -/

def maskLc (val : Word) : Word := val &&& regMasks Reg.lc

def emitRepSetup : Emit Unit := do
  let oldLc ← loadReg Reg.lc.val
  storeReg Reg.temp.val oldLc
  .call (.storeLoopRep true)
  .call (.storePcOnRep true)

def emitRepImm (count : BitVec 16) : Emit Unit := do
  setInstLen 1
  setCycles 5
  emitRepSetup
  storeReg Reg.lc.val (count.setWidth 32)

def emitRepReg (regIdx : Byte) : Emit Unit := do
  setInstLen 1
  setCycles 5
  emitRepSetup
  let lcVal ← readRegForMove regIdx.toNat
  storeReg Reg.lc.val (maskLc lcVal)

def emitRepAa (space : MemSpace) (addr : Byte) : Emit Unit := do
  setInstLen 1
  setCycles 5
  emitRepSetup
  let memVal ← readMem space (addr.setWidth 32)
  storeReg Reg.lc.val memVal

def emitRepEa (space : MemSpace) (eaMode : Byte) : Emit Unit := do
  setInstLen 1
  setCycles 5
  emitRepSetup
  let ea ← emitCalcEa (eaMode.setWidth 32)
  let memVal ← readMemDyn space ea.1
  storeReg Reg.lc.val memVal

def lfFvMask : Word := (1 <<< Sr.lf) ||| (1 <<< Sr.fv)

/-- Pop (PC, SR) for the loop flags of SR, then pop (LA, LC). -/
def emitEnddoCleanup : Emit Unit := do
  let frame ← .call (.stackPop (.words 5))
  let srVal ← loadReg Reg.sr.val
  storeReg Reg.sr.val ((srVal &&& ~~~lfFvMask) ||| (frame.2 &&& lfFvMask))
  let outer ← .call (.stackPop (.words 5))
  storeReg Reg.la.val outer.1
  storeReg Reg.lc.val outer.2

def emitEnddo : Emit Unit := do
  setInstLen 1
  setCycles 1
  emitEnddoCleanup

/-- Push (LA, LC), set LA, push (loop start, SR), set the loop flags and LC. -/
def emitDoSetup (laVal lcVal retPc : Word) (forever : Bool) : Emit Unit := do
  let oldLa ← loadReg Reg.la.val
  let oldLc ← loadReg Reg.lc.val
  .call (.stackPush oldLa oldLc (.words 3))
  storeReg Reg.la.val laVal
  let srVal ← loadReg Reg.sr.val
  .call (.stackPush (maskPc retPc) srVal (.words 3))
  storeReg Reg.sr.val (if forever then srVal ||| lfFvMask
    else (srVal ||| (1 <<< Sr.lf)) &&& ~~~((1 : Word) <<< Sr.fv))
  storeReg Reg.lc.val lcVal

/-- A DO whose count is 0 is undone, and control goes to LA+1 as a branch. -/
def emitDoAnnulCheck (lcVal la : Word) : Emit Unit :=
  if lcVal = 0 then do
    emitEnddoCleanup
    storePc (maskPc (la + 1))
    setInstLen 0
  else pure ()

def emitDoTail (laVal lcVal pc la : Word) : Emit Unit := do
  emitDoSetup laVal lcVal (pc + 2) false
  emitDoAnnulCheck lcVal la

def computeLa (pc nextWord : Word) (relative : Bool) : Word :=
  if relative then maskPc (pc + nextWord) else nextWord &&& regMasks Reg.la

def emitDoOrDorImm (count : BitVec 16) (pc nextWord : Word) (relative : Bool) : Emit Unit := do
  setInstLen 2
  setCycles 5
  let la := computeLa pc nextWord relative
  emitDoTail la (count.setWidth 32) pc la

def emitDoOrDorForever (pc nextWord : Word) (relative : Bool) : Emit Unit := do
  setInstLen 2
  setCycles (if relative then 5 else 4)
  let lcVal ← loadReg Reg.lc.val
  emitDoSetup (computeLa pc nextWord relative) lcVal (pc + 2) true

def emitDoOrDorReg (regIdx : Byte) (pc nextWord : Word) (relative : Bool) : Emit Unit := do
  setInstLen 2
  setCycles 5
  let la := computeLa pc nextWord relative
  let val ← readRegForMove regIdx.toNat
  emitDoTail la (maskLc val) pc la

def emitDoOrDorAa (space : MemSpace) (addr : Byte) (pc nextWord : Word) (relative : Bool) :
    Emit Unit := do
  setInstLen 2
  setCycles 5
  let la := computeLa pc nextWord relative
  let memVal ← readMem space (addr.setWidth 32)
  emitDoTail la (maskLc memVal) pc la

def emitDoOrDorEa (space : MemSpace) (eaMode : Byte) (pc nextWord : Word) (relative : Bool) :
    Emit Unit := do
  setInstLen 2
  setCycles 5
  let la := computeLa pc nextWord relative
  let ea ← emitCalcEa (eaMode.setWidth 32)
  let memVal ← readMemDyn space ea.1
  emitDoTail la (maskLc memVal) pc la

def emitBrkcc (cc : CondCode) : Emit Unit := do
  setCycles 5
  let taken ← evalCcBool cc
  emitTaken taken 1 do
    let la ← loadReg Reg.la.val
    emitEnddoCleanup
    storePc (maskPc (la + 1))

/-! Instances see through the emitters of one instruction. -/

attribute [reducible]
  emitNop emitIllegal emitWait emitReset emitStop emitRepImm emitRepReg emitRepAa emitRepEa
  emitEnddo emitBrkcc emitJcc emitBcc emitBscc emitBsccRn emitBccRn emitJscc emitDoOrDorImm
  emitDoOrDorForever emitDoOrDorReg emitDoOrDorAa emitDoOrDorEa emitBitTestBranch emitBccLong
  emitBsccLong emitJccEa emitJmp emitJsr emitRts emitRti emitBra emitBraLong emitBsr emitBsrLong
  emitBraRn emitBsrRn emitJmpEa emitJsrEa emitNopLike emitJsccEa

end Dsp56300.Emitter
