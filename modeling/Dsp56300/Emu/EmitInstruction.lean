import Dsp56300.Emu.EmitControl
import Dsp56300.Emu.EmitMoves

namespace Dsp56300.Emitter

open Lib.Programs

set_option linter.constructorNameAsVariable false

/-- A 24-bit value at the A1 position, sign-extended into A2. -/
def val24ToAcc56 (v : Word) : BitVec 64 :=
  ((v.setWidth 64 <<< 24) <<< 16).sshiftRight 16 &&& 0x00FFFFFFFFFFFFFF

/-- Length and cycles of a data instruction, then its data path. -/
def emitData (len cycles : Nat) (path : DataPath) : Emit Unit := do
  setInstLen len
  setCycles cycles
  dataPath path

def emitAddImm (imm : Byte) (d : Accumulator) : Emit Unit :=
  emitData 1 1 (.accAddsub (val24ToAcc56 (imm.setWidth 32)) d false true)

def emitSubImm (imm : Byte) (d : Accumulator) : Emit Unit :=
  emitData 1 1 (.accAddsub (val24ToAcc56 (imm.setWidth 32)) d true true)

def emitInc (d : Accumulator) : Emit Unit := emitData 1 1 (.accAddsub 1 d false true)

def emitDec (d : Accumulator) : Emit Unit := emitData 1 1 (.accAddsub 1 d true true)

def emitAddLong (d : Accumulator) (nextWord : Word) : Emit Unit :=
  emitData 2 2 (.accAddsub (val24ToAcc56 nextWord) d false true)

def emitSubLong (d : Accumulator) (nextWord : Word) : Emit Unit :=
  emitData 2 2 (.accAddsub (val24ToAcc56 nextWord) d true true)

def emitCmpLong (d : Accumulator) (nextWord : Word) : Emit Unit :=
  emitData 2 2 (.accAddsub (val24ToAcc56 nextWord) d true false)

def emitCmpImm (imm : Byte) (d : Accumulator) : Emit Unit :=
  emitData 1 1 (.accAddsub (val24ToAcc56 (imm.setWidth 32)) d true false)

def emitLogicalOpAcc (d : Accumulator) (src : Word) (instLen : Nat) (op : LogicalOp) : Emit Unit :=
  emitData instLen instLen (.logicalOpAcc d src op)

def emitMpyiFamily (k : Bool) (d : Accumulator) (src : RegIdx) (nextWord : Word)
    (accumulate round : Bool) : Emit Unit :=
  emitData 2 2 (.mpyiFamily k d src nextWord accumulate round)

/-- The control word of a bit-field instruction: a register, or the next word. -/
def controlWord (s1 : Option RegIdx) (nextWord : Word) : Emit Word :=
  match s1 with
  | some r => loadReg r.val
  | none => pure nextWord

def emitExtract (s1 : Option RegIdx) (s2 d : Accumulator) (nextWord : Word) (unsigned : Bool) :
    Emit Unit := do
  setInstLen (if s1.isSome then 1 else 2)
  setCycles (if s1.isSome then 1 else 2)
  let control ← controlWord s1 nextWord
  dataPath (.extract control s2 d unsigned)

def emitInsert (s1 : Option RegIdx) (s2 : RegIdx) (d : Accumulator) (nextWord : Word) :
    Emit Unit := do
  setInstLen (if s1.isSome then 1 else 2)
  setCycles (if s1.isSome then 1 else 2)
  let control ← controlWord s1 nextWord
  dataPath (.insert control s2 d)

def tccAcc : Option (RegIdx × RegIdx) → Emit Unit
  | some (src, dst) =>
    let dstAcc : Accumulator := if dst = Reg.a then .a else .b
    if src = Reg.a ∨ src = Reg.b then do
      let val ← loadAcc (if src = Reg.a then .a else .b)
      storeAcc dstAcc val
    else do
      let val ← loadReg src.val
      storeAcc dstAcc (val24ToAcc56 val)
  | none => pure ()

def tccR : Option (Byte × Byte) → Emit Unit
  | some (src, dst) => do
    let v ← loadReg (Reg.r0.val + src.toNat)
    storeReg (Reg.r0.val + dst.toNat) v
  | none => pure ()

/-- Transfer conditionally: an accumulator from a register, an address register from another. -/
def emitTcc (cc : CondCode) (acc : Option (RegIdx × RegIdx)) (r : Option (Byte × Byte)) :
    Emit Unit := do
  setInstLen 1
  setCycles 1
  let taken ← evalCcBool cc
  if taken then
    tccAcc acc
    tccR r

/-- A bit modification, or nothing where the bit is only tested. -/
def applyBitOp (val : Word) (bitNum : Byte) : BitOp → Option Word
  | .clear => some (val &&& ~~~((1 : Word) <<< bitNum.toNat))
  | .set => some (val ||| ((1 : Word) <<< bitNum.toNat))
  | .toggle => some (val ^^^ ((1 : Word) <<< bitNum.toNat))
  | .test => none

def updateCarryFromBit (val : Word) (bitNum : Byte) : Emit Unit :=
  dataPath (.updateCarryFromBit val bitNum)

def writeBack (write : Word → Emit Unit) : Option Word → Emit Unit
  | some result => write result
  | none => pure ()

/-- A bit operation on a fixed address. -/
def emitBitOpMem (space : MemSpace) (addr : Word) (bitNum : Byte) (op : BitOp) : Emit Unit := do
  setInstLen 1
  setCycles 2
  let val ← readMem space addr
  updateCarryFromBit val bitNum
  writeBack (writeMem space addr) (applyBitOp val bitNum op)

def emitBitOpPp (space : MemSpace) (ppOffset bitNum : Byte) (op : BitOp) : Emit Unit :=
  emitBitOpMem space (ppAddr ppOffset) bitNum op

def emitBitOpQq (space : MemSpace) (qqOffset bitNum : Byte) (op : BitOp) : Emit Unit :=
  emitBitOpMem space (qqAddr qqOffset) bitNum op

def emitBitOpAa (space : MemSpace) (addr bitNum : Byte) (op : BitOp) : Emit Unit :=
  emitBitOpMem space (addr.setWidth 32) bitNum op

def isFullAcc (regIdx : Byte) : Bool := regIdx.toNat = Reg.a.val || regIdx.toNat = Reg.b.val

/-- The operand of a bit operation on a register: BTST pops SSH, a full accumulator is read like
a move source. -/
def readBitReg (regIdx : Byte) (op : BitOp) : Emit Word :=
  if regIdx.toNat = Reg.ssh.val ∧ op = .test then do
    .call (.spillFaultBudget .pop)
    .call .readSsh
  else if isFullAcc regIdx then readRegForMove regIdx.toNat
  else loadReg regIdx.toNat

/-- SSH and SSL are rewritten in the top slot, SP through its helper. -/
def writeBitReg (regIdx : Byte) (result : Word) : Emit Unit :=
  if regIdx.toNat = Reg.ssh.val then do
    .call (.spillFaultBudget .pop)
    .call (.writeSshTos result)
  else if regIdx.toNat = Reg.ssl.val then .call (.writeSsl result)
  else if regIdx.toNat = Reg.sp.val then do
    .call (.spillFaultBudget .spWrite)
    .call (.writeSp result)
  else if isFullAcc regIdx then writeRegForMove regIdx.toNat result
  else storeReg regIdx.toNat result

def emitBitOpReg (regIdx bitNum : Byte) (op : BitOp) : Emit Unit := do
  setInstLen 1
  setCycles 2
  let val ← readBitReg regIdx op
  writeBack (writeBitReg regIdx) (applyBitOp val bitNum op)
  -- An SR target is modified by the operation itself.
  if regIdx.toNat ≠ Reg.sr.val ∨ op = .test then updateCarryFromBit val bitNum

def emitBitOpEa (space : MemSpace) (eaMode bitNum : Byte) (op : BitOp) (nextWord : Word) :
    Emit Unit := do
  setInstLen (instLenForEa eaMode)
  setCycles 2
  let ea ← emitCalcEaExt (eaMode.setWidth 32) nextWord
  let val ← readMemDyn space ea.1
  updateCarryFromBit val bitNum
  writeBack (writeMemDyn space ea.1) (applyBitOp val bitNum op)

/-- The code of one instruction, by constructor. -/
def emitInstructionBody (inst : Instruction) (pc nextWord : Word) : Emit Unit :=
  let bitTest (addr : BitTestAddr) (bitNum : Byte) (testSet : Bool) (branch : BitTestBranch) :=
    emitBitTestBranch addr bitNum nextWord testSet branch
  match inst with
  | .nop => emitNop
  | .addImm imm d => emitAddImm imm d
  | .subImm imm d => emitSubImm imm d
  | .inc d => emitInc d
  | .dec d => emitDec d
  | .andI imm dest => emitData 1 3 (.andi imm dest)
  | .orI imm dest => emitData 1 3 (.ori imm dest)
  | .jmp addr => emitJmp addr
  | .jcc cc addr => emitJcc cc addr
  | .jsr addr => emitJsr addr pc
  | .rts => emitRts
  | .rti => emitRti
  | .bra addr => emitBra addr pc
  | .bcc cc addr => emitBcc cc addr pc
  | .movecImm imm dest => emitMovecImm imm dest
  | .movecReg src dst w => emitMovecReg src dst w
  | .bclrPp space p b => emitBitOpPp space p b .clear
  | .bclrQq space q b => emitBitOpQq space q b .clear
  | .bsetPp space p b => emitBitOpPp space p b .set
  | .bsetQq space q b => emitBitOpQq space q b .set
  | .btstPp space p b => emitBitOpPp space p b .test
  | .btstQq space q b => emitBitOpQq space q b .test
  | .bclrReg r b => emitBitOpReg r b .clear
  | .bsetReg r b => emitBitOpReg r b .set
  | .jclrPp space p b => bitTest (.pp space p) b false .jump
  | .jclrQq space q b => bitTest (.qq space q) b false .jump
  | .jsetPp space p b => bitTest (.pp space p) b true .jump
  | .jsetQq space q b => bitTest (.qq space q) b true .jump
  | .doImm count => emitDoOrDorImm count pc nextWord false
  | .doForever => emitDoOrDorForever pc nextWord false
  | .repImm count => emitRepImm count
  | .endDo => emitEnddo
  | .movep0 p r w space => emitMovep0 space p r w
  | .movep1 p ea w space => emitMovep1 space p ea w nextWord
  | .movep23 p ea w perspace easpace => emitMovep23 p ea w perspace easpace nextWord
  | .addLong d => emitAddLong d nextWord
  | .subLong d => emitSubLong d nextWord
  | .cmpLong d => emitCmpLong d nextWord
  | .cmpImm imm d => emitCmpImm imm d
  | .andImm imm d => emitLogicalOpAcc d (imm.setWidth 32) 1 .and
  | .andLong d => emitLogicalOpAcc d nextWord 2 .and
  | .orImm imm d => emitLogicalOpAcc d (imm.setWidth 32) 1 .or
  | .orLong d => emitLogicalOpAcc d nextWord 2 .or
  | .eorImm imm d => emitLogicalOpAcc d (imm.setWidth 32) 1 .eor
  | .eorLong d => emitLogicalOpAcc d nextWord 2 .eor
  | .braLong => emitBraLong pc nextWord
  | .bccLong cc => emitBccLong cc pc nextWord
  | .bsrLong => emitBsrLong pc nextWord
  | .bsr addr => emitBsr addr pc
  | .bccRn cc rn => emitBccRn cc rn pc
  | .braRn rn => emitBraRn rn pc
  | .bsrRn rn => emitBsrRn rn pc
  | .bscc cc addr => emitBscc cc addr pc
  | .bsccLong cc => emitBsccLong cc pc nextWord
  | .bsccRn cc rn => emitBsccRn cc rn pc
  | .brkcc cc => emitBrkcc cc
  | .moveLongDisp space w offreg numreg => emitMoveLongDisp space w offreg numreg nextWord
  | .tcc cc acc r => emitTcc cc acc r
  | .lua ea dst => emitLua ea dst
  | .luaRel aa addrReg dst destIsN => emitLuaRel aa addrReg dst destIsN
  | .lraRn addrReg dst => emitLraRn addrReg dst pc
  | .lraDisp dst => emitLraDisp dst pc nextWord
  | .doReg r => emitDoOrDorReg r pc nextWord false
  | .repReg r => emitRepReg r
  | .jmpEa ea => emitJmpEa ea nextWord
  | .jsrEa ea => emitJsrEa ea pc nextWord
  | .jccEa cc ea => emitJccEa cc ea nextWord
  | .movecEa ea numreg w space => emitMovecEa ea numreg w space nextWord
  | .movecAa addr numreg w space => emitMovecAa addr numreg w space
  | .movemEa ea numreg w => emitMovemEa ea numreg w nextWord
  | .aslImm shift s d => emitData 1 1 (.aslImm shift s d)
  | .asrImm shift s d => emitData 1 1 (.asrImm shift s d)
  | .aslReg src s d => emitData 1 1 (.aslReg src s d)
  | .asrReg src s d => emitData 1 1 (.asrReg src s d)
  | .jclrReg r b => bitTest (.reg r) b false .jump
  | .jsetReg r b => bitTest (.reg r) b true .jump
  | .bclrAa space a b => emitBitOpAa space a b .clear
  | .bsetAa space a b => emitBitOpAa space a b .set
  | .btstAa space a b => emitBitOpAa space a b .test
  | .btstReg r b => emitBitOpReg r b .test
  | .bchgPp space p b => emitBitOpPp space p b .toggle
  | .bchgQq space q b => emitBitOpQq space q b .toggle
  | .bchgAa space a b => emitBitOpAa space a b .toggle
  | .bchgReg r b => emitBitOpReg r b .toggle
  | .jclrAa space a b => bitTest (.aa space a) b false .jump
  | .jsetAa space a b => bitTest (.aa space a) b true .jump
  | .jsclrPp space p b => bitTest (.pp space p) b false (.jumpSub pc)
  | .jsclrQq space q b => bitTest (.qq space q) b false (.jumpSub pc)
  | .jsclrAa space a b => bitTest (.aa space a) b false (.jumpSub pc)
  | .jsclrReg r b => bitTest (.reg r) b false (.jumpSub pc)
  | .jssetPp space p b => bitTest (.pp space p) b true (.jumpSub pc)
  | .jssetQq space q b => bitTest (.qq space q) b true (.jumpSub pc)
  | .jssetAa space a b => bitTest (.aa space a) b true (.jumpSub pc)
  | .jssetReg r b => bitTest (.reg r) b true (.jumpSub pc)
  | .brclrEa space ea b => bitTest (.ea space ea) b false (.branch pc)
  | .brclrAa space a b => bitTest (.aa space a) b false (.branch pc)
  | .brclrPp space p b => bitTest (.pp space p) b false (.branch pc)
  | .brclrQq space q b => bitTest (.qq space q) b false (.branch pc)
  | .brclrReg r b => bitTest (.reg r) b false (.branch pc)
  | .brsetEa space ea b => bitTest (.ea space ea) b true (.branch pc)
  | .brsetAa space a b => bitTest (.aa space a) b true (.branch pc)
  | .brsetPp space p b => bitTest (.pp space p) b true (.branch pc)
  | .brsetQq space q b => bitTest (.qq space q) b true (.branch pc)
  | .brsetReg r b => bitTest (.reg r) b true (.branch pc)
  | .bsclrEa space ea b => bitTest (.ea space ea) b false (.branchSub pc)
  | .bsclrAa space a b => bitTest (.aa space a) b false (.branchSub pc)
  | .bsclrPp space p b => bitTest (.pp space p) b false (.branchSub pc)
  | .bsclrQq space q b => bitTest (.qq space q) b false (.branchSub pc)
  | .bsclrReg r b => bitTest (.reg r) b false (.branchSub pc)
  | .bssetEa space ea b => bitTest (.ea space ea) b true (.branchSub pc)
  | .bssetAa space a b => bitTest (.aa space a) b true (.branchSub pc)
  | .bssetPp space p b => bitTest (.pp space p) b true (.branchSub pc)
  | .bssetQq space q b => bitTest (.qq space q) b true (.branchSub pc)
  | .bssetReg r b => bitTest (.reg r) b true (.branchSub pc)
  | .jscc cc addr => emitJscc cc addr pc
  | .doAa space a => emitDoOrDorAa space a pc nextWord false
  | .doEa space ea => emitDoOrDorEa space ea pc nextWord false
  | .dorImm count => emitDoOrDorImm count pc nextWord true
  | .dorReg r => emitDoOrDorReg r pc nextWord true
  | .dorForever => emitDoOrDorForever pc nextWord true
  | .dorAa space a => emitDoOrDorAa space a pc nextWord true
  | .dorEa space ea => emitDoOrDorEa space ea pc nextWord true
  | .repAa space a => emitRepAa space a
  | .repEa space ea => emitRepEa space ea
  | .moveShortDisp space offset w offreg numreg => emitMoveShortDisp offset w offreg numreg space
  | .movemAa addr numreg w => emitMovemAa addr numreg w
  | .lslImm shift d => emitData 1 1 (.lslImm shift d)
  | .lsrImm shift d => emitData 1 1 (.lsrImm shift d)
  | .lslReg src d => emitData 1 1 (.lslReg src d)
  | .lsrReg src d => emitData 1 1 (.lsrReg src d)
  | .cmpU src d => emitData 1 1 (.cmpu src d)
  | .mulShift op shift src d k => emitData 1 1 (.mulShift op shift src d k)
  | .mpyI k d src => emitMpyiFamily k d src nextWord false false
  | .mpyrI k d src => emitMpyiFamily k d src nextWord false true
  | .macI k d src => emitMpyiFamily k d src nextWord true false
  | .macrI k d src => emitMpyiFamily k d src nextWord true true
  | .dmac ss k d s1 s2 => emitData 1 1 (.dmac ss k d s1 s2)
  | .macSU s k d s1 s2 => emitData 1 1 (.macSu s k d s1 s2)
  | .mpySU s k d s1 s2 => emitData 1 1 (.mpySu s k d s1 s2)
  | .div src d => emitData 1 1 (.div src d)
  | .norm r d => emitData 1 5 (.norm r d)
  | .bclrEa space ea b => emitBitOpEa space ea b .clear nextWord
  | .bsetEa space ea b => emitBitOpEa space ea b .set nextWord
  | .btstEa space ea b => emitBitOpEa space ea b .test nextWord
  | .bchgEa space ea b => emitBitOpEa space ea b .toggle nextWord
  | .jclrEa space ea b => bitTest (.ea space ea) b false .jump
  | .jsetEa space ea b => bitTest (.ea space ea) b true .jump
  | .jsclrEa space ea b => bitTest (.ea space ea) b false (.jumpSub pc)
  | .jssetEa space ea b => bitTest (.ea space ea) b true (.jumpSub pc)
  | .jsccEa cc ea => emitJsccEa cc ea pc nextWord
  | .movepQq q ea w qqspace easpace => emitMovepQq q ea w qqspace easpace nextWord
  | .movepQqPea q ea w space => emitMovepQqPea q ea w space nextWord
  | .movepQqR q r w space => emitMovepQqR q r w space
  | .reset => emitReset
  | .stop => emitStop
  | .parallel alu moveType opcode => emitParallel opcode moveType alu nextWord
  | .wait => emitWait
  | .illegal => emitIllegal
  | .clb s d => emitData 1 1 (.clb s d)
  | .normf src d => emitData 1 1 (.normf src d)
  | .merge src d => emitData 1 1 (.merge src d)
  | .extractReg s1 s2 d => emitExtract (some s1) s2 d nextWord false
  | .extractImm s2 d => emitExtract none s2 d nextWord false
  | .extractuReg s1 s2 d => emitExtract (some s1) s2 d nextWord true
  | .extractuImm s2 d => emitExtract none s2 d nextWord true
  | .insertReg s1 s2 d => emitInsert (some s1) s2 d nextWord
  | .insertImm s2 d => emitInsert none s2 d nextWord
  | .vsl s ea iBit => emitVsl s ea iBit nextWord
  | .debug => emitNopLike 1
  | .debugcc _ => do
    setInstLen 1
    setCycles 5
  | .trap => do
    setInstLen 1
    setCycles 9
    emitAddInterrupt Interrupt.trap.val
    emitArmFaultBudget 0
  | .trapcc cc => do
    setInstLen 1
    setCycles 9
    emitTrapcc cc
  | .pflush | .pflushun | .pfree => emitNopLike (instructionLength inst)
  | .plockr | .punlockr => do
    setInstLen (instructionLength inst)
    setCycles 4
  | .plockEa ea | .punlockEa ea => do
    setInstLen (instLenForEa ea)
    setCycles 2
    let _ ← emitCalcEaExt (ea.setWidth 32) nextWord
  | .unimplemented _ _ | .unknown _ => do
    setInstLen (instructionLength inst)
    setCycles 2

def emitInstruction (inst : Instruction) (pc nextWord : Word) : Emit Unit := do
  .call (.setDecodeLen (instructionLength inst))
  emitInstructionBody inst pc nextWord

/-! Instances see through the emitters of one instruction. -/

attribute [reducible]
  emitTcc emitBitOpMem emitBitOpReg emitBitOpEa emitData emitExtract emitInsert emitAddImm
  emitSubImm emitInc emitDec emitAddLong emitSubLong emitCmpLong emitCmpImm emitLogicalOpAcc
  emitMpyiFamily emitBitOpPp emitBitOpQq emitBitOpAa

end Dsp56300.Emitter
