import Dsp56300.Emu.BlockCode
import Dsp56300.Emu.JitStack

/-! The shadow budgets of core faults: what compiled code records where the stack fails. -/

namespace Dsp56300

namespace Emitter

open Lib.Programs Lib.Programs.Code

set_option linter.constructorNameAsVariable false

/-- The fields of the emitter that shadow budgets depend on. -/
structure FaultAnchor where
  decodeLen : Nat := 1
  anchorBump : Nat := 0

/-- Stream words allowed behind a fault in a helper. -/
def FaultClass.budget (a : FaultAnchor) : FaultClass → Word
  | .pop => BitVec.ofNat 32 (6 + a.anchorBump)
  | .push => BitVec.ofNat 32 (9 - max a.decodeLen 1)
  | .spWrite => BitVec.ofNat 32 (6 - max a.decodeLen 1)

/-- Stream words allowed behind a fault in an inlined push or pop. -/
def FaultBudget.value (a : FaultAnchor) : FaultBudget → Word
  | .words n => BitVec.ofNat 32 n
  | .lessDecodeLen n => BitVec.ofNat 32 (n - max a.decodeLen 1)

/-- The helpers that record whatever budget is spilled. -/
def Op.RecordsHint : {γ : Type} → Op γ → Prop
  | _, .readSsh | _, .writeSshTos _ | _, .writeSp _ => True
  | _, _ => False

/-- Whether the last operation was a spill. -/
def justSpilled : Tracks Op Bool
  | _, .spillFaultBudget _, _ => true
  | _, _, _ => false

/-- Such a helper is called right behind a spill. -/
def SpillsFirst (γ : Type) (op : Op γ) (spilled : Bool) : Prop := op.RecordsHint → spilled = true

/-- Code that spills a budget before every helper that records one. -/
class Anchored {α : Type} (x : Emit α) : Prop where
  meets : ∀ b, x.Meets justSpilled SpillsFirst b

variable {α β γ : Type} {x y : Emit α} {f : α → Emit β}

instance (a : α) : Anchored (pure a : Emit α) where
  meets _ := trivial

instance [hx : Anchored x] [hf : ∀ a, Anchored (f a)] : Anchored (x >>= f) where
  meets b := meets_bind (hx.meets b) fun a => (hf a).meets

instance {c : Prop} [Decidable c] [hx : Anchored x] [hy : Anchored y] :
    Anchored (if c then x else y) := by
  split
  · exact hx
  · exact hy

/-- A helper and the spill in front of it. -/
instance (fault : FaultClass) (op : Op γ) :
    Anchored (Code.call (.spillFaultBudget fault) >>= fun _ => Code.call op) where
  meets _ := ⟨fun h => h.elim, fun _ => ⟨fun _ => rfl, fun _ => trivial⟩⟩

theorem anchored_call {op : Op γ} (h : ¬ op.RecordsHint) : Anchored (call op) where
  meets _ := ⟨fun hr => absurd hr h, fun _ => trivial⟩

section Operations

variable (idx k : Nat) (v : Word) (d : Accumulator) (space : MemSpace) (addr : Word)

instance : Anchored (setCycles k) := anchored_call id

instance : Anchored (setInstLen k) := anchored_call id

instance : Anchored (storePc v) := anchored_call id

instance : Anchored (loadReg idx) := anchored_call id

instance : Anchored (storeReg idx v) := anchored_call id

instance : Anchored (loadAcc d) := anchored_call id

instance (v : BitVec 64) : Anchored (storeAcc d v) := anchored_call id

instance : Anchored (readRegForMove idx) := anchored_call id

instance : Anchored (writeRegForMove idx v) := anchored_call id

instance : Anchored (readMem space addr) := anchored_call id

instance : Anchored (writeMem space addr v) := anchored_call id

instance : Anchored (readMemDyn space addr) := anchored_call id

instance : Anchored (writeMemDyn space addr v) := anchored_call id

instance (cc : CondCode) : Anchored (evalCcBool cc) := anchored_call id

instance (path : DataPath) : Anchored (dataPath path) := anchored_call id

instance : Anchored (emitUpdateRn idx v) := anchored_call id

instance : Anchored (emitAddInterrupt k) := anchored_call id

instance : Anchored (emitArmFaultBudget k) := anchored_call id

instance : Anchored (call (.readLReg v : Op _)) := anchored_call id

instance (lx ly : Word) : Anchored (call (.writeLReg v lx ly : Op _)) := anchored_call id

instance (ssh ssl : Word) (b : FaultBudget) : Anchored (call (.stackPush ssh ssl b : Op _)) :=
  anchored_call id

instance (b : FaultBudget) : Anchored (call (.stackPop b : Op _)) := anchored_call id

instance : Anchored (call .loadInterruptState) := anchored_call id

instance (st : InterruptState) : Anchored (call (.storeInterruptState st : Op _)) :=
  anchored_call id

instance (st : PowerState) : Anchored (call (.storePowerState st : Op _)) := anchored_call id

instance (on : Bool) : Anchored (call (.storeLoopRep on : Op _)) := anchored_call id

instance (on : Bool) : Anchored (call (.storePcOnRep on : Op _)) := anchored_call id

instance : Anchored (call (.setDecodeLen k : Op _)) := anchored_call id

instance : Anchored (call (.setFaultAnchorBump k : Op _)) := anchored_call id

instance : Anchored (call (.writeSsl v : Op _)) := anchored_call id

end Operations

/-! Emitters. -/

section Emitters

variable (ea p numreg b : Byte) (w : Bool) (space : MemSpace) (cc : CondCode) (d : Accumulator)
  (opcode pc nextWord v : Word) (alu : ParallelAlu)

instance (k : Nat) : Anchored (loadNnSigned k) := by
  unfold loadNnSigned
  infer_instance

instance : Anchored (emitCalcEaExt v nextWord) := by
  unfold emitCalcEaExt
  split <;> infer_instance

instance : Anchored (emitCalcEa v) := by
  unfold emitCalcEa
  infer_instance

instance (e : Word × Bool) : Anchored (readEa space e) := by
  unfold readEa
  infer_instance

instance : Anchored (readRegForStore numreg) := by
  unfold readRegForStore
  infer_instance

instance : Anchored (moveReg p b) := by
  unfold moveReg
  infer_instance

instance : Anchored (emitInterruptAwareStackPush v) := by
  unfold emitInterruptAwareStackPush
  infer_instance

instance : Anchored (rnTarget b pc) := by
  unfold rnTarget
  infer_instance

instance : Anchored (emitParallelAlu alu) := by
  unfold emitParallelAlu
  infer_instance

instance : Anchored emitRepSetup := by
  unfold emitRepSetup
  infer_instance

instance : Anchored emitEnddoCleanup := by
  unfold emitEnddoCleanup
  infer_instance

instance (l c r : Word) (f : Bool) : Anchored (emitDoSetup l c r f) := by
  unfold emitDoSetup
  infer_instance

instance : Anchored (emitMoveDisp space w p b v) := by
  unfold emitMoveDisp
  infer_instance

instance (s : Option RegIdx) : Anchored (controlWord s nextWord) := by
  cases s <;> unfold controlWord <;> infer_instance

instance (acc : Option (RegIdx × RegIdx)) : Anchored (tccAcc acc) := by
  cases acc <;> unfold tccAcc <;> infer_instance

instance (r : Option (Byte × Byte)) : Anchored (tccR r) := by
  cases r <;> unfold tccR <;> infer_instance

instance {write : Word → Emit Unit} [∀ v, Anchored (write v)] (r : Option Word) :
    Anchored (writeBack write r) := by
  cases r <;> unfold writeBack <;> infer_instance

instance : Anchored (updateCarryFromBit v b) := by
  unfold updateCarryFromBit
  infer_instance

instance (op : BitOp) : Anchored (readBitReg b op) := by
  unfold readBitReg
  infer_instance

instance : Anchored (writeBitReg b v) := by
  unfold writeBitReg
  infer_instance

instance (lc la : Word) : Anchored (emitDoAnnulCheck lc la) := by
  unfold emitDoAnnulCheck
  infer_instance

instance (l c a : Word) : Anchored (emitDoTail l c pc a) := by
  unfold emitDoTail
  infer_instance

instance : Anchored (emitTrapcc cc) := by
  unfold emitTrapcc
  infer_instance

instance (taken : Bool) (len : Nat) {arm : Emit Unit} [ha : Anchored arm] :
    Anchored (emitTaken taken len arm) := by
  unfold emitTaken
  infer_instance

instance (a : BitTestAddr) : Anchored (readBitTestOperand a) := by
  cases a <;> unfold readBitTestOperand <;> infer_instance

instance (a : BitTestAddr) : Anchored (emitBitTestPredicate a b w) := by
  unfold emitBitTestPredicate
  infer_instance

instance (branch : BitTestBranch) : Anchored (emitBitTestTaken nextWord branch) := by
  cases branch <;> unfold emitBitTestTaken <;> infer_instance

instance (eaField : Word) : Anchored (emitParallelEa eaField nextWord) := by
  unfold emitParallelEa
  infer_instance

instance : Anchored (emitPm0 opcode alu nextWord) := by
  unfold emitPm0
  infer_instance

instance : Anchored (emitPm1 opcode alu nextWord) := by
  unfold emitPm1
  infer_instance

instance : Anchored (emitPm2 opcode alu) := by
  unfold emitPm2 emitPm22 emitPm3
  infer_instance

instance : Anchored (emitPm3 opcode alu) := by
  unfold emitPm3
  infer_instance

instance : Anchored (emitPm5 opcode alu nextWord) := by
  unfold emitPm5
  infer_instance

instance : Anchored (emitPm4 opcode alu nextWord) := by
  unfold emitPm4 emitPm4x
  infer_instance

instance : Anchored (emitPm8 opcode alu) := by
  unfold emitPm8
  infer_instance

instance (moveType : ParallelMoveType) : Anchored (emitParallel opcode moveType alu nextWord) := by
  unfold emitParallel
  cases moveType <;> infer_instance

end Emitters

section Instructions

variable (inst : Instruction) (pc nextWord : Word)

instance : Anchored (emitInstructionBody inst pc nextWord) := by
  cases inst <;>
    dsimp only [emitInstructionBody] <;> infer_instance

instance : Anchored (emitInstruction inst pc nextWord) := by
  unfold emitInstruction
  infer_instance

/-! What a block emits in place of an instruction. -/

instance (a : BitTestAddr) (b : Byte) (w : Bool) (n : Nat) : Anchored (skipBit a b w n) := by
  unfold skipBit
  infer_instance

instance : Anchored (emitSkipPredicate inst) := by
  unfold emitSkipPredicate
  split <;> infer_instance

instance : Anchored (emitRepLcValue inst) := by
  unfold emitRepLcValue
  split <;> infer_instance

instance : Anchored (emitDoLcValue inst) := by
  unfold emitDoLcValue
  split <;> infer_instance

instance : Anchored (emitRepInlineSetup inst) := by
  unfold emitRepInlineSetup
  infer_instance

instance : Anchored (emitRepIteration inst pc nextWord) := by
  unfold emitRepIteration
  infer_instance

instance : Anchored emitRepRestore := by
  unfold emitRepRestore
  infer_instance

instance (doPc la : Nat) : Anchored (emitDoInlineSetup inst doPc la) := by
  unfold emitDoInlineSetup
  infer_instance

instance (la : Nat) : Anchored (emitDoInlineAnnul la) := by
  unfold emitDoInlineAnnul
  infer_instance

instance : Anchored emitLcDecrement := by
  unfold emitLcDecrement
  infer_instance

instance : Anchored (emitRepFirstCallArm pc) := by
  unfold emitRepFirstCallArm emitRepFirstCall
  infer_instance

end Instructions

end Emitter

end Dsp56300
