import Dsp56300.Emu.BlockCode
import Dsp56300.Emu.InstructionCode

/-! The cycles that emitted code charges. -/

namespace Dsp56300.Emitter

open Lib.Programs Lib.Programs.Code

set_option linter.constructorNameAsVariable false

variable {α β : Type}

/-- The cycles charged so far. -/
def charge : Tracks Op Nat
  | _, .setCycles n, t => t + n
  | _, _, t => t

/-- The cycles charged where code is emitted: those of its operations, on nothing. -/
def cycles (x : Emit α) : Nat := (x.run (fun _ op t => (op.silent, charge _ op t)) 0).2

/-- Every path through the code charges `n` cycles. -/
class Costs (x : Emit α) (n : outParam Nat) : Prop where
  paths : ∀ t, Always charge (fun _ u => u = t + n) x t

theorem Costs.cycles {x : Emit α} {n : Nat} (h : Costs x n) : cycles x = n := by
  have hrun := @Always.run Op α Nat Nat charge (fun _ op t => (op.silent, charge _ op t)) id _ x 0
    (fun _ _ _ => rfl) (h.paths 0)
  exact hrun.trans (Nat.zero_add n)

variable {x y : Emit α} {f : α → Emit β} {m n : Nat}

instance (a : α) : Costs (pure a : Emit α) 0 where
  paths _ := rfl

instance [hx : Costs x m] [hf : ∀ a, Costs (f a) n] : Costs (x >>= f) (m + n) where
  paths t := by
    rw [always_bind]
    apply (hx.paths t).mono
    rintro a u rfl
    rw [← Nat.add_assoc]
    exact (hf a).paths _

/-- Arms that cost the same. -/
class Balanced (m n : Nat) : Prop where
  eq : m = n

instance : Balanced n n := ⟨rfl⟩

instance {c : Prop} [Decidable c] [hx : Costs x m] [hy : Costs y n] [hb : Balanced m n] :
    Costs (if c then x else y) m := by
  obtain rfl := hb.eq
  split
  · exact hx
  · exact hy

/-- Every path through the code charges the same. -/
class Steady (x : Emit α) : Prop where
  costs : ∃ n, Costs x n

instance [hx : Costs x n] : Steady x := ⟨n, hx⟩

/-- Arms chosen where the code is emitted may differ. -/
instance {c : Prop} [Decidable c] [hx : Steady x] [hy : Steady y] :
    Steady (if c then x else y) := by
  split
  · exact hx
  · exact hy

instance {x : Emit Unit} {f : Unit → Emit β} [hx : Costs x m] [hf : Steady (f ())] :
    Steady (x >>= f) := by
  obtain ⟨n, hn⟩ := hf.costs
  have hf' : ∀ u, Costs (f u) n := fun _ => hn
  exact ⟨m + n, inferInstance⟩

theorem costs_cycles (x : Emit α) [hx : Steady x] : Costs x (cycles x) := by
  obtain ⟨n, hn⟩ := hx.costs
  rw [hn.cycles]
  exact hn

theorem costs_call {γ : Type} {e : Op γ} (h : ∀ t, charge γ e t = t) : Costs (call e) 0 where
  paths t := fun _ => h t

section Operations

variable (idx k : Nat) (v : Word) (d : Accumulator) (space : MemSpace) (addr : Word)

instance : Costs (setCycles k) k where
  paths _ := fun _ => rfl

instance : Costs (setInstLen k) 0 := costs_call fun _ => rfl

instance : Costs (storePc v) 0 := costs_call fun _ => rfl

instance : Costs (loadReg idx) 0 := costs_call fun _ => rfl

instance : Costs (storeReg idx v) 0 := costs_call fun _ => rfl

instance : Costs (loadAcc d) 0 := costs_call fun _ => rfl

instance (v : BitVec 64) : Costs (storeAcc d v) 0 := costs_call fun _ => rfl

instance : Costs (readRegForMove idx) 0 := costs_call fun _ => rfl

instance : Costs (writeRegForMove idx v) 0 := costs_call fun _ => rfl

instance : Costs (readMem space addr) 0 := costs_call fun _ => rfl

instance : Costs (writeMem space addr v) 0 := costs_call fun _ => rfl

instance : Costs (readMemDyn space addr) 0 := costs_call fun _ => rfl

instance : Costs (writeMemDyn space addr v) 0 := costs_call fun _ => rfl

instance (cc : CondCode) : Costs (evalCcBool cc) 0 := costs_call fun _ => rfl

instance (path : DataPath) : Costs (dataPath path) 0 := costs_call fun _ => rfl

instance : Costs (emitUpdateRn idx v) 0 := costs_call fun _ => rfl

instance : Costs (emitAddInterrupt k) 0 := costs_call fun _ => rfl

instance : Costs (emitArmFaultBudget k) 0 := costs_call fun _ => rfl

instance : Costs (call (.readLReg v : Op _)) 0 := costs_call fun _ => rfl

instance (lx ly : Word) : Costs (call (.writeLReg v lx ly : Op _)) 0 := costs_call fun _ => rfl

instance (ssh ssl : Word) (b : FaultBudget) : Costs (call (.stackPush ssh ssl b : Op _)) 0 :=
  costs_call fun _ => rfl

instance (b : FaultBudget) : Costs (call (.stackPop b : Op _)) 0 := costs_call fun _ => rfl

instance : Costs (call .loadInterruptState) 0 := costs_call fun _ => rfl

instance (st : InterruptState) : Costs (call (.storeInterruptState st : Op _)) 0 :=
  costs_call fun _ => rfl

instance (st : PowerState) : Costs (call (.storePowerState st : Op _)) 0 := costs_call fun _ => rfl

instance (on : Bool) : Costs (call (.storeLoopRep on : Op _)) 0 := costs_call fun _ => rfl

instance (on : Bool) : Costs (call (.storePcOnRep on : Op _)) 0 := costs_call fun _ => rfl

instance : Costs (call (.setDecodeLen k : Op _)) 0 := costs_call fun _ => rfl

instance (fault : FaultClass) : Costs (call (.spillFaultBudget fault : Op _)) 0 :=
  costs_call fun _ => rfl

instance : Costs (call (.setFaultAnchorBump k : Op _)) 0 := costs_call fun _ => rfl

instance : Costs (call .readSsh) 0 := costs_call fun _ => rfl

instance : Costs (call (.writeSshTos v : Op _)) 0 := costs_call fun _ => rfl

instance : Costs (call (.writeSsl v : Op _)) 0 := costs_call fun _ => rfl

instance : Costs (call (.writeSp v : Op _)) 0 := costs_call fun _ => rfl

end Operations

/-! Emitters. -/

/-- What an address mode costs: one cycle for an index, an extension word or a predecrement. -/
def eaCycles (eaMode : Word) : Nat :=
  match ((eaMode >>> 3) &&& 7).toNat with
  | 0 | 1 | 2 | 3 | 4 => 0
  | _ => 1

section Emitters

variable (ea p numreg b : Byte) (w : Bool) (space : MemSpace) (cc : CondCode) (d : Accumulator)
  (opcode pc nextWord v : Word) (alu : ParallelAlu)

instance (k : Nat) : Costs (loadNnSigned k) 0 := by
  unfold loadNnSigned
  infer_instance

instance : Costs (emitCalcEaExt v nextWord) (eaCycles v) := by
  unfold emitCalcEaExt eaCycles
  split <;> simp_all only <;> infer_instance

instance : Costs (emitCalcEa v) (eaCycles v) := by
  unfold emitCalcEa
  infer_instance

instance (e : Word × Bool) : Costs (readEa space e) 0 := by
  unfold readEa
  infer_instance

instance : Costs (readRegForStore numreg) 0 := by
  unfold readRegForStore
  infer_instance

instance : Costs (moveReg p b) 0 := by
  unfold moveReg
  infer_instance

instance : Costs (emitInterruptAwareStackPush v) 0 := by
  unfold emitInterruptAwareStackPush
  infer_instance

instance : Costs (rnTarget b pc) 0 := by
  unfold rnTarget
  infer_instance

instance : Costs (emitParallelAlu alu) 0 := by
  unfold emitParallelAlu
  infer_instance

instance : Costs emitRepSetup 0 := by
  unfold emitRepSetup
  infer_instance

instance : Costs emitEnddoCleanup 0 := by
  unfold emitEnddoCleanup
  infer_instance

instance (l c r : Word) (f : Bool) : Costs (emitDoSetup l c r f) 0 := by
  unfold emitDoSetup
  infer_instance

instance : Costs (emitMoveDisp space w p b v) 0 := by
  unfold emitMoveDisp
  infer_instance

instance (s : Option RegIdx) : Costs (controlWord s nextWord) 0 := by
  cases s <;> unfold controlWord <;> infer_instance

instance (acc : Option (RegIdx × RegIdx)) : Costs (tccAcc acc) 0 := by
  cases acc <;> unfold tccAcc <;> infer_instance

instance (r : Option (Byte × Byte)) : Costs (tccR r) 0 := by
  cases r <;> unfold tccR <;> infer_instance

instance {write : Word → Emit Unit} [∀ v, Costs (write v) 0] (r : Option Word) :
    Costs (writeBack write r) 0 := by
  cases r <;> unfold writeBack <;> infer_instance

instance : Costs (updateCarryFromBit v b) 0 := by
  unfold updateCarryFromBit
  infer_instance

instance (op : BitOp) : Costs (readBitReg b op) 0 := by
  unfold readBitReg
  infer_instance

instance : Costs (writeBitReg b v) 0 := by
  unfold writeBitReg
  infer_instance

instance (lc la : Word) : Costs (emitDoAnnulCheck lc la) 0 := by
  unfold emitDoAnnulCheck
  infer_instance

instance (l c a : Word) : Costs (emitDoTail l c pc a) 0 := by
  unfold emitDoTail
  infer_instance

instance : Costs (emitTrapcc cc) 0 := by
  unfold emitTrapcc
  infer_instance

instance (taken : Bool) (len : Nat) {arm : Emit Unit} [ha : Costs arm n] [hb : Balanced n 0] :
    Costs (emitTaken taken len arm) 0 := by
  obtain rfl := hb.eq
  unfold emitTaken
  infer_instance

/-- What the operand of a bit test costs: its address mode. -/
def BitTestAddr.cycles : BitTestAddr → Nat
  | .ea _ eaMode => eaCycles (eaMode.setWidth 32)
  | _ => 0

instance (a : BitTestAddr) : Costs (readBitTestOperand a) a.cycles := by
  cases a <;> unfold readBitTestOperand BitTestAddr.cycles <;> infer_instance

instance (a : BitTestAddr) : Costs (emitBitTestPredicate a b w) (a.cycles + 0) := by
  unfold emitBitTestPredicate
  infer_instance

instance (branch : BitTestBranch) : Costs (emitBitTestTaken nextWord branch) 0 := by
  cases branch <;> unfold emitBitTestTaken <;> infer_instance

end Emitters

/-! Parallel moves. -/

section Parallel

variable (opcode nextWord : Word) (alu : ParallelAlu)

instance (eaField : Word) : Costs (emitParallelEa eaField nextWord) (eaCycles eaField + 0) := by
  unfold emitParallelEa
  infer_instance

instance : Steady (emitPm0 opcode alu nextWord) := by
  unfold emitPm0
  infer_instance

instance : Steady (emitPm1 opcode alu nextWord) := by
  unfold emitPm1
  infer_instance

instance : Steady (emitPm2 opcode alu) := by
  unfold emitPm2 emitPm22 emitPm3
  infer_instance

instance : Steady (emitPm3 opcode alu) := by
  unfold emitPm3
  infer_instance

instance : Steady (emitPm5 opcode alu nextWord) := by
  unfold emitPm5
  infer_instance

instance : Steady (emitPm4 opcode alu nextWord) := by
  unfold emitPm4 emitPm4x
  infer_instance

instance : Steady (emitPm8 opcode alu) := by
  unfold emitPm8
  infer_instance

instance (moveType : ParallelMoveType) : Steady (emitParallel opcode moveType alu nextWord) := by
  unfold emitParallel
  cases moveType <;> infer_instance

end Parallel

section Instructions

variable (inst : Instruction) (pc nextWord : Word)

instance : Steady (emitInstructionBody inst pc nextWord) := by
  cases inst <;>
    dsimp only [emitInstructionBody] <;> infer_instance

instance : Steady (emitInstruction inst pc nextWord) := by
  unfold emitInstruction
  infer_instance

/-- What the code of one instruction returns, on any machine. -/
theorem compileInstruction_cycles {σ : Type} (h : Handler Op σ) (s : σ) :
    (compileInstruction h inst pc nextWord s).2.totalCycles =
      cycles (emitInstruction inst pc nextWord) := by
  have hc := (costs_cycles (emitInstruction inst pc nextWord)).paths 0
  have hr := @Always.run Op Unit (σ × Vars) Nat charge (withVars h) (fun s => s.2.totalCycles) _ _
    (s, {}) (fun _ e _ => by cases e <;> rfl) hc
  exact hr.trans (Nat.zero_add _)

/-! What a block emits in place of an instruction costs what the instruction does. -/

theorem cycles_eq (x : Emit α) [hx : Costs x n] : cycles x = n := hx.cycles

/-- A skip costs what its branch costs, taken or not. -/
theorem emitSkipPredicate_cycles {target p : Nat}
    (h : inst.forwardSkipTarget p nextWord = some target) :
    cycles (emitSkipPredicate inst) = cycles (emitInstruction inst pc nextWord) := by
  cases inst <;> first
    | contradiction
    | rfl
    | simp only [emitSkipPredicate, skipBit, emitInstruction, emitInstructionBody,
        emitBitTestBranch, cycles_eq, Nat.zero_add, Nat.add_zero]

/-- So does the set-up of an inlined REP, -/
theorem emitRepInlineSetup_cycles (h : inst.isRepInstruction = true) :
    cycles (emitRepInlineSetup inst) = cycles (emitInstruction inst pc nextWord) := by
  cases inst <;> first
    | contradiction
    | rfl
    | simp only [emitRepInlineSetup, emitRepLcValue, emitInstruction, emitInstructionBody,
        emitRepEa, cycles_eq, Nat.zero_add, Nat.add_zero]

/-- and of an inlined DO. -/
theorem emitDoInlineSetup_cycles (hd : inst.isDoInstruction = true)
    (hf : inst.isDoForever = false) (doPc la : Nat) :
    cycles (emitDoInlineSetup inst doPc la) = cycles (emitInstruction inst pc nextWord) := by
  cases inst <;> first
    | contradiction
    | simp only [emitDoInlineSetup, emitDoLcValue, emitInstruction, emitInstructionBody,
        emitDoOrDorImm, emitDoOrDorReg, emitDoOrDorAa, emitDoOrDorEa, cycles_eq, Nat.zero_add,
        Nat.add_zero]

/-- An iteration of an inlined REP costs what its target costs. -/
theorem emitRepIteration_cycles :
    cycles (emitRepIteration inst pc nextWord) = cycles (emitInstruction inst pc nextWord) := by
  have h := costs_cycles (emitInstruction inst pc nextWord)
  simp only [emitRepIteration, cycles_eq, Nat.zero_add, Nat.add_zero]

end Instructions

end Dsp56300.Emitter
