import Dsp56300.Core.Decode
import Dsp56300.Emu.Interrupts
import Dsp56300.Lib.Programs

namespace Dsp56300.Emitter

set_option linter.constructorNameAsVariable false

open Lib.Programs

/-- Bit operation type for the bclr/bset/btst/bchg family. -/
inductive BitOp where
  | clear | set | toggle | test
  deriving DecidableEq, Repr

/-- Logical operation type for the AND/OR/EOR family. -/
inductive LogicalOp where
  | and | or | eor
  deriving DecidableEq, Repr

/-- Stack-error fault class, selecting the shadow budget. -/
inductive FaultClass where
  | pop | push | spWrite
  deriving DecidableEq, Repr

/-- Stream words a stack fault leaves to execute: a constant, or one less the length of the
instruction being emitted. -/
inductive FaultBudget where
  | words (n : Nat)
  | lessDecodeLen (n : Nat)
  deriving DecidableEq, Repr

/-- The data paths of alu.rs and logical.rs: code between accumulators, registers and condition
codes, named by its emitter and taking what the emitter takes. -/
inductive DataPath where
  | accAddsub (src : BitVec 64) (d : Accumulator) (isSub store : Bool)
  | logicalOpAcc (d : Accumulator) (src : Word) (op : LogicalOp)
  | parallelAlu (alu : ParallelAlu)
  | ifcc (opcode : Word) (alu : ParallelAlu) (updateCcr : Bool)
  | andi (imm dest : Byte)
  | ori (imm dest : Byte)
  | aslImm (shift : Byte) (s d : Accumulator)
  | asrImm (shift : Byte) (s d : Accumulator)
  | aslReg (src : RegIdx) (s d : Accumulator)
  | asrReg (src : RegIdx) (s d : Accumulator)
  | lslImm (shift : Byte) (d : Accumulator)
  | lsrImm (shift : Byte) (d : Accumulator)
  | lslReg (src : RegIdx) (d : Accumulator)
  | lsrReg (src : RegIdx) (d : Accumulator)
  | cmpu (src : RegIdx) (d : Accumulator)
  | mulShift (op : MulShiftOp) (shift : Byte) (src : RegIdx) (d : Accumulator) (k : Bool)
  | mpyiFamily (k : Bool) (d : Accumulator) (src : RegIdx) (nextWord : Word)
      (accumulate round : Bool)
  | dmac (ss : Byte) (k : Bool) (d : Accumulator) (s1 s2 : RegIdx)
  | macSu (s : Byte) (k : Bool) (d : Accumulator) (s1 s2 : RegIdx)
  | mpySu (s : Byte) (k : Bool) (d : Accumulator) (s1 s2 : RegIdx)
  | div (src : RegIdx) (d : Accumulator)
  | norm (rregIdx : Byte) (d : Accumulator)
  | normf (src : RegIdx) (d : Accumulator)
  | clb (s d : Accumulator)
  | merge (src : RegIdx) (d : Accumulator)
  | extract (control : Word) (s2 d : Accumulator) (unsigned : Bool)
  | insert (control : Word) (s2 : RegIdx) (d : Accumulator)
  | updateCarryFromBit (val : Word) (bitNum : Byte)

/-- What emitted code does, with the answers it computes on. Register numbers are the plain sums
the source indexes with; `setDecodeLen` and `setFaultAnchorBump` set fields of the emitter that
later fault budgets read. -/
inductive Op : Type → Type where
  | setDecodeLen (len : Nat) : Op Unit
  | setInstLen (len : Nat) : Op Unit
  | setCycles (n : Nat) : Op Unit
  | storePc (v : Word) : Op Unit
  | loadReg (idx : Nat) : Op Word
  | storeReg (idx : Nat) (v : Word) : Op Unit
  | loadAcc (d : Accumulator) : Op (BitVec 64)
  | storeAcc (d : Accumulator) (v : BitVec 64) : Op Unit
  | readRegForMove (idx : Nat) : Op Word
  | writeRegForMove (idx : Nat) (v : Word) : Op Unit
  | readLReg (numreg : Word) : Op (Word × Word)
  | writeLReg (numreg lx ly : Word) : Op Unit
  | readMem (space : MemSpace) (addr : Word) : Op Word
  | writeMem (space : MemSpace) (addr v : Word) : Op Unit
  | readMemDyn (space : MemSpace) (addr : Word) : Op Word
  | writeMemDyn (space : MemSpace) (addr v : Word) : Op Unit
  | updateRn (numreg : Nat) (modifier : Word) : Op Unit
  | evalCcBool (cc : CondCode) : Op Bool
  | stackPush (ssh ssl : Word) (budget : FaultBudget) : Op Unit
  | stackPop (budget : FaultBudget) : Op (Word × Word)
  | loadInterruptState : Op InterruptState
  | storeInterruptState (state : InterruptState) : Op Unit
  | storePowerState (state : PowerState) : Op Unit
  | storeLoopRep (on : Bool) : Op Unit
  | storePcOnRep (on : Bool) : Op Unit
  | addInterrupt (inter : Nat) : Op Unit
  | armFaultBudget (words : Nat) : Op Unit
  | spillFaultBudget (fault : FaultClass) : Op Unit
  | setFaultAnchorBump (n : Nat) : Op Unit
  | readSsh : Op Word
  | writeSshTos (v : Word) : Op Unit
  | writeSsl (v : Word) : Op Unit
  | writeSp (v : Word) : Op Unit
  | data (path : DataPath) : Op Unit

/-- The answer of an operation on nothing. -/
def Op.silent : {γ : Type} → Op γ → γ
  | _, .loadReg _ | _, .readRegForMove _ | _, .readMem _ _ | _, .readMemDyn _ _ | _, .readSsh => 0
  | _, .loadAcc _ => 0
  | _, .readLReg _ | _, .stackPop _ => (0, 0)
  | _, .evalCcBool _ => false
  | _, .loadInterruptState => .none
  | _, .setDecodeLen _ | _, .setInstLen _ | _, .setCycles _ | _, .storePc _ | _, .storeReg _ _
  | _, .storeAcc _ _ | _, .writeRegForMove _ _ | _, .writeLReg _ _ _ | _, .writeMem _ _ _
  | _, .writeMemDyn _ _ _ | _, .updateRn _ _ | _, .stackPush _ _ _ | _, .storeInterruptState _
  | _, .storePowerState _ | _, .storeLoopRep _ | _, .storePcOnRep _ | _, .addInterrupt _
  | _, .armFaultBudget _ | _, .spillFaultBudget _ | _, .setFaultAnchorBump _ | _, .writeSshTos _
  | _, .writeSsl _ | _, .writeSp _ | _, .data _ => ()

/-- Emitted code: a tree of operations whose run-time answers select the branches. -/
abbrev Emit := Code Op

def setInstLen (len : Nat) : Emit Unit := .call (.setInstLen len)

def setCycles (n : Nat) : Emit Unit := .call (.setCycles n)

def storePc (v : Word) : Emit Unit := .call (.storePc (maskPc v))

def loadReg (idx : Nat) : Emit Word := .call (.loadReg idx)

def storeReg (idx : Nat) (v : Word) : Emit Unit := .call (.storeReg idx v)

def loadAcc (d : Accumulator) : Emit (BitVec 64) := .call (.loadAcc d)

def storeAcc (d : Accumulator) (v : BitVec 64) : Emit Unit := .call (.storeAcc d v)

def readRegForMove (idx : Nat) : Emit Word := .call (.readRegForMove idx)

def writeRegForMove (idx : Nat) (v : Word) : Emit Unit := .call (.writeRegForMove idx v)

def readMem (space : MemSpace) (addr : Word) : Emit Word := .call (.readMem space addr)

def writeMem (space : MemSpace) (addr v : Word) : Emit Unit := .call (.writeMem space addr v)

def readMemDyn (space : MemSpace) (addr : Word) : Emit Word := .call (.readMemDyn space addr)

def writeMemDyn (space : MemSpace) (addr v : Word) : Emit Unit := .call (.writeMemDyn space addr v)

def evalCcBool (cc : CondCode) : Emit Bool := .call (.evalCcBool cc)

def dataPath (path : DataPath) : Emit Unit := .call (.data path)

/-- Instruction length for an EA-mode encoding: mode 6 uses a second word. -/
@[reducible] def instLenForEa (eaMode : Byte) : Nat := if eaMode >>> 3 = 6 then 2 else 1

/-- Load an N register and sign-extend it from 24 bits. -/
def loadNnSigned (numreg : Nat) : Emit Word := do
  let nn ← loadReg (Reg.n0.val + numreg)
  return (nn <<< 8).sshiftRight 8

def emitUpdateRn (numreg : Nat) (modifier : Word) : Emit Unit := .call (.updateRn numreg modifier)

/-- Effective address of a 6-bit EA mode field, and whether it is an immediate. -/
def emitCalcEaExt (eaMode nextWord : Word) : Emit (Word × Bool) :=
  let numreg := (eaMode &&& 7).toNat
  match ((eaMode >>> 3) &&& 7).toNat with
  | 0 => do -- (Rn)-Nn
    let rn ← loadReg (Reg.r0.val + numreg)
    let nn ← loadNnSigned numreg
    emitUpdateRn numreg (-nn)
    return (rn, false)
  | 1 => do -- (Rn)+Nn
    let rn ← loadReg (Reg.r0.val + numreg)
    let nn ← loadNnSigned numreg
    emitUpdateRn numreg nn
    return (rn, false)
  | 2 => do -- (Rn)-
    let rn ← loadReg (Reg.r0.val + numreg)
    emitUpdateRn numreg (-1)
    return (rn, false)
  | 3 => do -- (Rn)+
    let rn ← loadReg (Reg.r0.val + numreg)
    emitUpdateRn numreg 1
    return (rn, false)
  | 4 => do -- (Rn)
    let rn ← loadReg (Reg.r0.val + numreg)
    return (rn, false)
  | 5 => do -- (Rn+Nn): the update is undone
    setCycles 1
    let rn ← loadReg (Reg.r0.val + numreg)
    let nn ← loadNnSigned numreg
    emitUpdateRn numreg nn
    let addr ← loadReg (Reg.r0.val + numreg)
    storeReg (Reg.r0.val + numreg) rn
    return (addr, false)
  | 6 => do -- absolute, or immediate where RRR is not 0
    setCycles 1
    return (nextWord, numreg != 0)
  | _ => do -- -(Rn)
    setCycles 1
    emitUpdateRn numreg (-1)
    let newRn ← loadReg (Reg.r0.val + numreg)
    return (newRn, false)

def emitCalcEa (eaMode : Word) : Emit (Word × Bool) := emitCalcEaExt eaMode 0

/-- Outside mode 6 the extension word is not used. -/
theorem emitCalcEaExt_congr {eaMode : Word} (h : (eaMode >>> 3) &&& 7 ≠ 6) (u v : Word) :
    emitCalcEaExt eaMode u = emitCalcEaExt eaMode v := by
  have h6 : ((eaMode >>> 3) &&& 7).toNat ≠ 6 := fun he => h (BitVec.eq_of_toNat_eq he)
  unfold emitCalcEaExt
  split <;> first | rfl | contradiction

end Dsp56300.Emitter
