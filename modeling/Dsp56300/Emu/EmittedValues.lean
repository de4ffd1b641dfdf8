import Dsp56300.Emu.BlockCode
import Dsp56300.Emu.OpRules

/-! What the emitter stores fits: accumulators get 56 bits, PC gets 24. -/

namespace Dsp56300

namespace Emitter

open Lib.Programs Lib.Programs.Code

set_option linter.constructorNameAsVariable false

/-- Code that stores only what fits, as long as accumulators hold what fits. -/
class Fitting {α : Type} (x : Emit α) : Prop where
  allOn : x.AllOn (fun _ op => op.Yields) fun _ op => op.Fits

variable {α β γ : Type} {x y : Emit α} {f : α → Emit β}

instance (a : α) : Fitting (pure a : Emit α) where
  allOn := trivial

instance [hx : Fitting x] [hf : ∀ a, Fitting (f a)] : Fitting (x >>= f) where
  allOn := allOn_bind hx.allOn fun a => (hf a).allOn

instance {c : Prop} [Decidable c] [hx : Fitting x] [hy : Fitting y] :
    Fitting (if c then x else y) := by
  split
  · exact hx
  · exact hy

theorem fitting_call {op : Op γ} (h : op.Fits) : Fitting (call op) where
  allOn := allOn_call.mpr h

section Operations

variable (idx k : Nat) (v : Word) (d : Accumulator) (space : MemSpace) (addr : Word)

instance : Fitting (setCycles k) := fitting_call trivial

instance : Fitting (setInstLen k) := fitting_call trivial

instance : Fitting (storePc v) := fitting_call (is24_masked v)

instance : Fitting (loadReg idx) := fitting_call trivial

instance : Fitting (storeReg idx v) := fitting_call trivial

instance : Fitting (loadAcc d) := fitting_call trivial

instance : Fitting (readRegForMove idx) := fitting_call trivial

instance : Fitting (writeRegForMove idx v) := fitting_call trivial

instance : Fitting (readMem space addr) := fitting_call trivial

instance : Fitting (writeMem space addr v) := fitting_call trivial

instance : Fitting (readMemDyn space addr) := fitting_call trivial

instance : Fitting (writeMemDyn space addr v) := fitting_call trivial

instance (code : CondCode) : Fitting (evalCcBool code) := fitting_call trivial

instance (path : DataPath) : Fitting (dataPath path) := fitting_call trivial

instance : Fitting (emitUpdateRn idx v) := fitting_call trivial

instance : Fitting (emitAddInterrupt k) := fitting_call trivial

instance : Fitting (emitArmFaultBudget k) := fitting_call trivial

instance : Fitting (call (.readLReg v : Op _)) := fitting_call trivial

instance (lx ly : Word) : Fitting (call (.writeLReg v lx ly : Op _)) := fitting_call trivial

instance (ssh ssl : Word) (b : FaultBudget) : Fitting (call (.stackPush ssh ssl b : Op _)) :=
  fitting_call trivial

instance (b : FaultBudget) : Fitting (call (.stackPop b : Op _)) := fitting_call trivial

instance : Fitting (call .loadInterruptState) := fitting_call trivial

instance (st : InterruptState) : Fitting (call (.storeInterruptState st : Op _)) :=
  fitting_call trivial

instance (st : PowerState) : Fitting (call (.storePowerState st : Op _)) := fitting_call trivial

instance (on : Bool) : Fitting (call (.storeLoopRep on : Op _)) := fitting_call trivial

instance (on : Bool) : Fitting (call (.storePcOnRep on : Op _)) := fitting_call trivial

instance : Fitting (call (.setDecodeLen k : Op _)) := fitting_call trivial

instance : Fitting (call (.setFaultAnchorBump k : Op _)) := fitting_call trivial

instance (fault : FaultClass) : Fitting (call (.spillFaultBudget fault : Op _)) :=
  fitting_call trivial

instance : Fitting (call .readSsh) := fitting_call trivial

instance : Fitting (call (.writeSshTos v : Op _)) := fitting_call trivial

instance : Fitting (call (.writeSsl v : Op _)) := fitting_call trivial

instance : Fitting (call (.writeSp v : Op _)) := fitting_call trivial

/-- A stored accumulator is a widened word, -/
instance : Fitting (storeAcc d (val24ToAcc56 v)) := fitting_call (packs_val24ToAcc56 v)

/-- or one that was loaded, -/
instance (d' : Accumulator) : Fitting (loadAcc d >>= storeAcc d') where
  allOn := ⟨trivial, fun _ hv => ⟨hv, fun _ _ => trivial⟩⟩

end Operations

/-! Emitters. -/

section Emitters

variable (ea p numreg b : Byte) (w : Bool) (space : MemSpace) (code : CondCode) (d : Accumulator)
  (opcode pc nextWord v : Word) (alu : ParallelAlu)

instance (k : Nat) : Fitting (loadNnSigned k) := by
  unfold loadNnSigned
  infer_instance

instance : Fitting (emitCalcEaExt v nextWord) := by
  unfold emitCalcEaExt
  split <;> infer_instance

instance : Fitting (emitCalcEa v) := by
  unfold emitCalcEa
  infer_instance

instance (e : Word × Bool) : Fitting (readEa space e) := by
  unfold readEa
  infer_instance

instance : Fitting (readRegForStore numreg) := by
  unfold readRegForStore
  infer_instance

instance : Fitting (moveReg p b) := by
  unfold moveReg
  infer_instance

instance : Fitting (emitInterruptAwareStackPush v) := by
  unfold emitInterruptAwareStackPush
  infer_instance

instance : Fitting (rnTarget b pc) := by
  unfold rnTarget
  infer_instance

instance : Fitting (emitParallelAlu alu) := by
  unfold emitParallelAlu
  infer_instance

instance : Fitting emitRepSetup := by
  unfold emitRepSetup
  infer_instance

instance : Fitting emitEnddoCleanup := by
  unfold emitEnddoCleanup
  infer_instance

instance (l c r : Word) (f : Bool) : Fitting (emitDoSetup l c r f) := by
  unfold emitDoSetup
  infer_instance

instance : Fitting (emitMoveDisp space w p b v) := by
  unfold emitMoveDisp
  infer_instance

instance (s : Option RegIdx) : Fitting (controlWord s nextWord) := by
  cases s <;> unfold controlWord <;> infer_instance

instance (acc : Option (RegIdx × RegIdx)) : Fitting (tccAcc acc) := by
  cases acc <;> unfold tccAcc <;> infer_instance

instance (r : Option (Byte × Byte)) : Fitting (tccR r) := by
  cases r <;> unfold tccR <;> infer_instance

instance {write : Word → Emit Unit} [∀ v, Fitting (write v)] (r : Option Word) :
    Fitting (writeBack write r) := by
  cases r <;> unfold writeBack <;> infer_instance

instance : Fitting (updateCarryFromBit v b) := by
  unfold updateCarryFromBit
  infer_instance

instance (op : BitOp) : Fitting (readBitReg b op) := by
  unfold readBitReg
  infer_instance

instance : Fitting (writeBitReg b v) := by
  unfold writeBitReg
  infer_instance

instance (lc la : Word) : Fitting (emitDoAnnulCheck lc la) := by
  unfold emitDoAnnulCheck
  infer_instance

instance (l c a : Word) : Fitting (emitDoTail l c pc a) := by
  unfold emitDoTail
  infer_instance

instance : Fitting (emitTrapcc code) := by
  unfold emitTrapcc
  infer_instance

instance (taken : Bool) (len : Nat) {arm : Emit Unit} [ha : Fitting arm] :
    Fitting (emitTaken taken len arm) := by
  unfold emitTaken
  infer_instance

instance (a : BitTestAddr) : Fitting (readBitTestOperand a) := by
  cases a <;> unfold readBitTestOperand <;> infer_instance

instance (a : BitTestAddr) : Fitting (emitBitTestPredicate a b w) := by
  unfold emitBitTestPredicate
  infer_instance

instance (branch : BitTestBranch) : Fitting (emitBitTestTaken nextWord branch) := by
  cases branch <;> unfold emitBitTestTaken <;> infer_instance

instance (eaField : Word) : Fitting (emitParallelEa eaField nextWord) := by
  unfold emitParallelEa
  infer_instance

instance : Fitting (emitPm1 opcode alu nextWord) := by
  unfold emitPm1
  infer_instance

instance : Fitting (emitPm3 opcode alu) := by
  unfold emitPm3
  infer_instance

instance : Fitting (emitPm2 opcode alu) := by
  unfold emitPm2 emitPm22
  infer_instance

instance : Fitting (emitPm5 opcode alu nextWord) := by
  unfold emitPm5
  infer_instance

instance : Fitting (emitPm4 opcode alu nextWord) := by
  unfold emitPm4 emitPm4x
  infer_instance

instance : Fitting (emitPm8 opcode alu) := by
  unfold emitPm8
  infer_instance

/-- Where the ALU wins over the move, what is stored is one of the accumulators loaded. -/
instance : Fitting (emitPm0 opcode alu nextWord) where
  allOn := by
    unfold emitPm0
    refine allOn_bind Fitting.allOn fun ea => allOn_bind Fitting.allOn fun saveAcc =>
      allOn_bind Fitting.allOn fun saveXy0 => ?_
    refine allOn_call_bind.mpr ⟨trivial, fun pre _ => allOn_bind Fitting.allOn fun _ => ?_⟩
    refine allOn_call_bind.mpr ⟨trivial, fun post hpost => ?_⟩
    refine allOn_bind Fitting.allOn fun _ => allOn_bind Fitting.allOn fun _ => ?_
    exact allOn_call_bind.mpr ⟨trivial, fun cur hcur => allOn_call.mpr (Packs.ite hpost hcur)⟩

instance (moveType : ParallelMoveType) : Fitting (emitParallel opcode moveType alu nextWord) := by
  unfold emitParallel
  cases moveType <;> infer_instance

end Emitters

section Instructions

variable (inst : Instruction) (pc nextWord : Word)

instance : Fitting (emitInstructionBody inst pc nextWord) := by
  cases inst <;>
    dsimp only [emitInstructionBody] <;> infer_instance

instance : Fitting (emitInstruction inst pc nextWord) := by
  unfold emitInstruction
  infer_instance

/-! What a block emits in place of an instruction. -/

instance (a : BitTestAddr) (b : Byte) (w : Bool) (n : Nat) : Fitting (skipBit a b w n) := by
  unfold skipBit
  infer_instance

instance : Fitting (emitSkipPredicate inst) := by
  unfold emitSkipPredicate
  split <;> infer_instance

instance : Fitting (emitRepLcValue inst) := by
  unfold emitRepLcValue
  split <;> infer_instance

instance : Fitting (emitDoLcValue inst) := by
  unfold emitDoLcValue
  split <;> infer_instance

instance : Fitting (emitRepInlineSetup inst) := by
  unfold emitRepInlineSetup
  infer_instance

instance : Fitting (emitRepIteration inst pc nextWord) := by
  unfold emitRepIteration
  infer_instance

instance : Fitting emitRepRestore := by
  unfold emitRepRestore
  infer_instance

instance (doPc la : Nat) : Fitting (emitDoInlineSetup inst doPc la) := by
  unfold emitDoInlineSetup
  infer_instance

instance (la : Nat) : Fitting (emitDoInlineAnnul la) := by
  unfold emitDoInlineAnnul
  infer_instance

instance : Fitting emitLcDecrement := by
  unfold emitLcDecrement
  infer_instance

instance : Fitting (emitRepFirstCallArm pc) := by
  unfold emitRepFirstCallArm emitRepFirstCall
  infer_instance

end Instructions

end Emitter

end Dsp56300
