import Dsp56300.Core.DecodeFields
import Dsp56300.Emu.EmitInstruction

/-! The word count that emitted code records. -/

namespace Dsp56300.Emitter

open Lib.Programs Lib.Programs.Code

set_option linter.constructorNameAsVariable false

variable {α β : Type}

/-- What a run of emitted code has recorded: the length last set, and whether PC was stored. -/
structure Recorded where
  instLen : Nat
  branched : Bool

def record : Tracks Op Recorded
  | _, .setInstLen len, r => { r with instLen := len }
  | _, .storePc _, r => { r with branched := true }
  | _, _, r => r

/-- Code that neither sets the length nor stores PC. -/
class Quiet (x : Emit α) : Prop where
  keeps : ∀ (post : α → Recorded → Prop) r, (∀ a, post a r) → Always record post x r

/-- Code that leaves the length alone, and either stores no PC or stores one and sets it to 0. -/
class Annuls (x : Emit α) : Prop where
  keeps : ∀ n, Always record (fun _ r => r = ⟨n, false⟩ ∨ r = ⟨0, true⟩) x ⟨n, false⟩

/-- Code that stores PC and leaves the length alone. -/
class Branches (x : Emit α) : Prop where
  keeps : ∀ n b, Always record (fun _ r => r = ⟨n, true⟩) x ⟨n, b⟩

/-- Code that ends with the length `len`, or with 0 where it stored PC. -/
class Records (len : Nat) (x : Emit α) : Prop where
  keeps : ∀ n, Always record (fun _ r => r.instLen = if r.branched then 0 else len) x ⟨n, false⟩

variable {x y : Emit α} {f : α → Emit β} {len : Nat}

instance (a : α) : Quiet (pure a : Emit α) where
  keeps _ _ h := h a

instance [hx : Quiet x] [hf : ∀ a, Quiet (f a)] : Quiet (x >>= f) where
  keeps post r h := by
    rw [always_bind]
    apply hx.keeps
    intro a
    exact (hf a).keeps post r h

instance {c : Prop} [Decidable c] [hx : Quiet x] [hy : Quiet y] : Quiet (if c then x else y) := by
  split
  · exact hx
  · exact hy

instance [hx : Quiet x] : Annuls x where
  keeps _ := hx.keeps _ _ fun _ => .inl rfl

instance [hx : Quiet x] [hf : ∀ a, Annuls (f a)] : Annuls (x >>= f) where
  keeps n := by
    rw [always_bind]
    apply hx.keeps
    intro a
    exact (hf a).keeps n

instance [hx : Branches x] [hf : ∀ a, Quiet (f a)] : Branches (x >>= f) where
  keeps n b := by
    rw [always_bind]
    apply (hx.keeps n b).mono
    rintro a r rfl
    exact (hf a).keeps _ _ fun _ => rfl

instance [hx : Quiet x] [hf : ∀ a, Branches (f a)] : Branches (x >>= f) where
  keeps n b := by
    rw [always_bind]
    apply hx.keeps
    intro a
    exact (hf a).keeps n b

instance (v : Word) : Branches (storePc v) where
  keeps _ _ := fun _ => rfl

/-- The last length set stands until PC is stored. -/
instance {f : Unit → Emit β} [hf : Annuls (f ())] : Records len (setInstLen len >>= f) where
  keeps n := by
    rw [always_bind]
    intro _
    apply (hf.keeps len).mono
    rintro _ r (rfl | rfl) <;> rfl

/-- Unconditional branches set the length to 0 first. -/
instance {f : Unit → Emit β} [hf : Branches (f ())] : Records len (setInstLen 0 >>= f) where
  keeps n := by
    rw [always_bind]
    intro _
    apply (hf.keeps 0 false).mono
    rintro _ r rfl
    rfl

/-- A length that is set again does not matter. -/
instance {k : Nat} {f : Unit → Emit β} [hf : Records len (f ())] :
    Records len (setInstLen k >>= f) where
  keeps n := by
    rw [always_bind]
    intro _
    exact hf.keeps k

instance [hx : Quiet x] [hf : ∀ a, Records len (f a)] : Records len (x >>= f) where
  keeps n := by
    rw [always_bind]
    apply hx.keeps
    intro a
    exact (hf a).keeps n

instance {c : Prop} [Decidable c] [hx : Records len x] [hy : Records len y] :
    Records len (if c then x else y) := by
  split
  · exact hx
  · exact hy

instance (taken : Bool) {arm : Emit Unit} [ha : Branches arm] :
    Records len (emitTaken taken len arm) where
  keeps n := by
    unfold emitTaken
    cases taken with
    | false => exact fun _ => rfl
    | true =>
      rw [if_pos rfl, always_bind]
      apply (ha.keeps n false).mono
      rintro _ r rfl _
      rfl

/-! Operations that record nothing. -/

section Operations

theorem quiet_call {γ : Type} {e : Op γ} (h : ∀ r, record γ e r = r) : Quiet (call e) where
  keeps post r hp := by
    rw [always_call, h]
    exact hp

instance (n : Nat) : Quiet (setCycles n) := quiet_call fun _ => rfl

instance (idx : Nat) : Quiet (loadReg idx) := quiet_call fun _ => rfl

instance (idx : Nat) (v : Word) : Quiet (storeReg idx v) := quiet_call fun _ => rfl

instance (d : Accumulator) : Quiet (loadAcc d) := quiet_call fun _ => rfl

instance (d : Accumulator) (v : BitVec 64) : Quiet (storeAcc d v) := quiet_call fun _ => rfl

instance (idx : Nat) : Quiet (readRegForMove idx) := quiet_call fun _ => rfl

instance (idx : Nat) (v : Word) : Quiet (writeRegForMove idx v) := quiet_call fun _ => rfl

instance (space : MemSpace) (addr : Word) : Quiet (readMem space addr) := quiet_call fun _ => rfl

instance (space : MemSpace) (addr v : Word) : Quiet (writeMem space addr v) :=
  quiet_call fun _ => rfl

instance (space : MemSpace) (addr : Word) : Quiet (readMemDyn space addr) := quiet_call fun _ => rfl

instance (space : MemSpace) (addr v : Word) : Quiet (writeMemDyn space addr v) :=
  quiet_call fun _ => rfl

instance (cc : CondCode) : Quiet (evalCcBool cc) := quiet_call fun _ => rfl

instance (path : DataPath) : Quiet (dataPath path) := quiet_call fun _ => rfl

instance (numreg : Nat) (v : Word) : Quiet (emitUpdateRn numreg v) := quiet_call fun _ => rfl

instance (inter : Nat) : Quiet (emitAddInterrupt inter) := quiet_call fun _ => rfl

instance (words : Nat) : Quiet (emitArmFaultBudget words) := quiet_call fun _ => rfl

instance (n : Word) : Quiet (call (.readLReg n : Op _)) := quiet_call fun _ => rfl

instance (n lx ly : Word) : Quiet (call (.writeLReg n lx ly : Op _)) := quiet_call fun _ => rfl

instance (ssh ssl : Word) (b : FaultBudget) : Quiet (call (.stackPush ssh ssl b : Op _)) :=
  quiet_call fun _ => rfl

instance (b : FaultBudget) : Quiet (call (.stackPop b : Op _)) := quiet_call fun _ => rfl

instance : Quiet (call .loadInterruptState) := quiet_call fun _ => rfl

instance (st : InterruptState) : Quiet (call (.storeInterruptState st : Op _)) :=
  quiet_call fun _ => rfl

instance (st : PowerState) : Quiet (call (.storePowerState st : Op _)) := quiet_call fun _ => rfl

instance (on : Bool) : Quiet (call (.storeLoopRep on : Op _)) := quiet_call fun _ => rfl

instance (on : Bool) : Quiet (call (.storePcOnRep on : Op _)) := quiet_call fun _ => rfl

instance (len : Nat) : Quiet (call (.setDecodeLen len : Op _)) := quiet_call fun _ => rfl

instance (fault : FaultClass) : Quiet (call (.spillFaultBudget fault : Op _)) :=
  quiet_call fun _ => rfl

instance (n : Nat) : Quiet (call (.setFaultAnchorBump n : Op _)) := quiet_call fun _ => rfl

instance : Quiet (call .readSsh) := quiet_call fun _ => rfl

instance (v : Word) : Quiet (call (.writeSshTos v : Op _)) := quiet_call fun _ => rfl

instance (v : Word) : Quiet (call (.writeSsl v : Op _)) := quiet_call fun _ => rfl

instance (v : Word) : Quiet (call (.writeSp v : Op _)) := quiet_call fun _ => rfl

end Operations

/-! Emitters. -/

section Emitters

variable (ea p numreg b : Byte) (w : Bool) (space : MemSpace) (cc : CondCode) (d : Accumulator)
  (opcode pc nextWord v : Word) (alu : ParallelAlu)

instance (n : Nat) : Quiet (loadNnSigned n) := by
  unfold loadNnSigned
  infer_instance

instance : Quiet (emitCalcEaExt v nextWord) := by
  unfold emitCalcEaExt
  split <;> infer_instance

instance : Quiet (emitCalcEa v) := by
  unfold emitCalcEa
  infer_instance

instance (e : Word × Bool) : Quiet (readEa space e) := by
  unfold readEa
  infer_instance

instance : Quiet (readRegForStore numreg) := by
  unfold readRegForStore
  infer_instance

instance : Quiet (moveReg p b) := by
  unfold moveReg
  infer_instance

instance : Quiet (emitInterruptAwareStackPush v) := by
  unfold emitInterruptAwareStackPush
  infer_instance

instance : Quiet (rnTarget b pc) := by
  unfold rnTarget
  infer_instance

instance : Quiet (emitParallelAlu alu) := by
  unfold emitParallelAlu
  infer_instance

instance : Quiet emitRepSetup := by
  unfold emitRepSetup
  infer_instance

instance : Quiet emitEnddoCleanup := by
  unfold emitEnddoCleanup
  infer_instance

instance (l c r : Word) (f : Bool) : Quiet (emitDoSetup l c r f) := by
  unfold emitDoSetup
  infer_instance

instance : Quiet (emitMoveDisp space w p b v) := by
  unfold emitMoveDisp
  infer_instance

instance (a : BitTestAddr) : Quiet (readBitTestOperand a) := by
  cases a <;> unfold readBitTestOperand <;> infer_instance

instance (a : BitTestAddr) : Quiet (emitBitTestPredicate a b w) := by
  unfold emitBitTestPredicate
  infer_instance

instance (branch : BitTestBranch) : Branches (emitBitTestTaken nextWord branch) := by
  cases branch <;> unfold emitBitTestTaken <;> infer_instance

instance (s : Option RegIdx) : Quiet (controlWord s nextWord) := by
  cases s <;> unfold controlWord <;> infer_instance

instance (acc : Option (RegIdx × RegIdx)) : Quiet (tccAcc acc) := by
  cases acc <;> unfold tccAcc <;> infer_instance

instance (r : Option (Byte × Byte)) : Quiet (tccR r) := by
  cases r <;> unfold tccR <;> infer_instance

instance {write : Word → Emit Unit} [∀ v, Quiet (write v)] (r : Option Word) :
    Quiet (writeBack write r) := by
  cases r <;> unfold writeBack <;> infer_instance

instance : Quiet (updateCarryFromBit v b) := by
  unfold updateCarryFromBit
  infer_instance

instance (op : BitOp) : Quiet (readBitReg b op) := by
  unfold readBitReg
  infer_instance

instance : Quiet (writeBitReg b v) := by
  unfold writeBitReg
  infer_instance

instance (lc la : Word) : Annuls (emitDoAnnulCheck lc la) where
  keeps n := by
    unfold emitDoAnnulCheck
    split
    · rw [always_bind]
      apply Quiet.keeps
      intro _
      rw [always_bind]
      intro _ _
      exact .inr rfl
    · exact .inl rfl

instance (l c a : Word) : Annuls (emitDoTail l c pc a) := by
  unfold emitDoTail
  infer_instance

instance : Quiet (emitTrapcc cc) := by
  unfold emitTrapcc
  infer_instance

end Emitters

/-! Parallel moves: an extension word under a condition. -/

/-- Code that sets the length to 2 where `c` holds, and leaves it alone otherwise. -/
class Extends (c : Prop) [Decidable c] (x : Emit α) : Prop where
  keeps : ∀ n, Always record (fun _ r => r = ⟨if c then 2 else n, false⟩) x ⟨n, false⟩

section Parallel

variable (opcode nextWord : Word) (alu : ParallelAlu)

instance (eaField : Word) {f : Word × Bool → Emit α} [hf : ∀ a, Quiet (f a)] :
    Extends ((eaField >>> 3) &&& 7 = 6) (emitParallelEa eaField nextWord >>= f) where
  keeps n := by
    rw [always_bind]
    unfold emitParallelEa
    rw [always_bind]
    apply Quiet.keeps
    intro ea
    split
    · intro _
      exact (hf ea).keeps _ _ fun _ => rfl
    · exact (hf ea).keeps _ _ fun _ => rfl

instance {c : Prop} [Decidable c] {f : Unit → Emit β} [hf : Extends c (f ())] :
    Records (if c then 2 else 1) (setInstLen 1 >>= f) where
  keeps n := by
    rw [always_bind]
    intro _
    apply (hf.keeps 1).mono
    rintro _ r rfl
    rfl

instance {c : Prop} [Decidable c] [hx : Quiet x] [hf : ∀ a, Extends c (f a)] :
    Extends c (x >>= f) where
  keeps n := by
    rw [always_bind]
    apply hx.keeps
    intro a
    exact (hf a).keeps n

theorem extends_and {c c' : Prop} [Decidable c] [Decidable c'] (hn : ¬ c' → Quiet x)
    (hc : c' → Extends c x) : Extends (c' ∧ c) x where
  keeps n := by
    by_cases h : c'
    · simp only [h, true_and]
      exact (hc h).keeps n
    · simp only [h, false_and, ↓reduceIte]
      exact (hn h).keeps _ _ fun _ => rfl

instance : Extends ((((opcode >>> 8) &&& 0x3F) >>> 3) &&& 7 = 6) (emitPm0 opcode alu nextWord) := by
  unfold emitPm0
  infer_instance

instance : Extends ((((opcode >>> 8) &&& 0x3F) >>> 3) &&& 7 = 6) (emitPm1 opcode alu nextWord) := by
  unfold emitPm1
  infer_instance

/-- Bit 14 of a Pm4 or Pm5 move selects an effective address. -/
abbrev HasEa : Prop := (opcode >>> 14) &&& 1 = 1

theorem hasEa_iff : HasEa opcode ↔ (opcode >>> 14) &&& 1 ≠ 0 := by
  have h : ((opcode >>> 14) &&& 1).toNat = (opcode >>> 14).toNat % 2 := by
    rw [BitVec.toNat_and]
    exact Nat.and_one_is_mod _
  have h1 : HasEa opcode ↔ ((opcode >>> 14) &&& 1).toNat = 1 := BitVec.toNat_inj.symm
  have h0 : (opcode >>> 14) &&& 1 = 0 ↔ ((opcode >>> 14) &&& 1).toNat = 0 := BitVec.toNat_inj.symm
  rw [h1, Ne, h0, h]
  omega

instance : Extends (HasEa opcode ∧ (((opcode >>> 8) &&& 0x3F) >>> 3) &&& 7 = 6)
    (emitPm5 opcode alu nextWord) := by
  unfold emitPm5
  dsimp only
  apply extends_and
  · intro h
    rw [if_pos (not_not.mp (mt (hasEa_iff opcode).mpr h))]
    infer_instance
  · intro h
    rw [if_neg ((hasEa_iff opcode).mp h)]
    infer_instance

instance : Extends (HasEa opcode ∧ (((opcode >>> 8) &&& 0x3F) >>> 3) &&& 7 = 6)
    (emitPm4 opcode alu nextWord) := by
  unfold emitPm4
  split
  · unfold emitPm4x
    dsimp only
    apply extends_and
    · intro h
      rw [if_neg (mt (hasEa_iff opcode).mpr h)]
      infer_instance
    · intro h
      rw [if_pos ((hasEa_iff opcode).mp h)]
      infer_instance
  · infer_instance

instance : Quiet (emitPm22 opcode alu) := by
  unfold emitPm22
  infer_instance

instance : Quiet (emitPm3 opcode alu) := by
  unfold emitPm3
  infer_instance

instance : Quiet (emitPm2 opcode alu) := by
  unfold emitPm2
  infer_instance

instance : Quiet (emitPm8 opcode alu) := by
  unfold emitPm8
  infer_instance

end Parallel

theorem mode_iff : ∀ ea : Byte, ea.toNat < 2 ^ 6 → ((ea >>> 3) &&& 7 = 6 ↔ ea >>> 3 = 6) := by
  decide

theorem emitParallel_records (opcode : Word) (moveType : ParallelMoveType) (alu : ParallelAlu)
    (nextWord : Word) :
    Records (instructionLength (.parallel alu moveType opcode))
      (emitParallel opcode moveType alu nextWord) := by
  cases moveType with
  | pm0 =>
    dsimp only [instructionLength, emitParallel]
    simp only [← mode_of_field]
    infer_instance
  | pm1 =>
    dsimp only [instructionLength, emitParallel]
    simp only [← mode_of_field]
    infer_instance
  | pm4 =>
    dsimp only [instructionLength, emitParallel]
    simp only [← mode_of_field]
    infer_instance
  | pm5 =>
    dsimp only [instructionLength, emitParallel]
    simp only [← mode_of_field]
    infer_instance
  | _ =>
    dsimp only [instructionLength, emitParallel]
    infer_instance

theorem emitExtract_records (s1 : Option RegIdx) (s2 d : Accumulator) (nextWord : Word)
    (unsigned : Bool) :
    Records (if s1.isSome then 1 else 2) (emitExtract s1 s2 d nextWord unsigned) := by
  unfold emitExtract
  infer_instance

theorem emitInsert_records (s1 : Option RegIdx) (s2 : RegIdx) (d : Accumulator) (nextWord : Word) :
    Records (if s1.isSome then 1 else 2) (emitInsert s1 s2 d nextWord) := by
  unfold emitInsert
  infer_instance

/-- The length recorded by the code of an instruction that stores no PC is its length. -/
theorem emitInstructionBody_records {inst : Instruction} (h : inst.EaOk) (pc nextWord : Word) :
    Records (instructionLength inst) (emitInstructionBody inst pc nextWord) := by
  cases inst with
  | parallel alu moveType opcode => exact emitParallel_records opcode moveType alu nextWord
  | vsl s ea b =>
    dsimp only [instructionLength, emitInstructionBody, emitVsl]
    simp only [← mode_iff ea h]
    infer_instance
  | extractReg s1 s2 d => exact emitExtract_records (some s1) s2 d nextWord false
  | extractImm s2 d => exact emitExtract_records none s2 d nextWord false
  | extractuReg s1 s2 d => exact emitExtract_records (some s1) s2 d nextWord true
  | extractuImm s2 d => exact emitExtract_records none s2 d nextWord true
  | insertReg s1 s2 d => exact emitInsert_records (some s1) s2 d nextWord
  | insertImm s2 d => exact emitInsert_records none s2 d nextWord
  | jsccEa cc ea =>
    dsimp only [instructionLength, emitInstructionBody, emitJsccEa, retOffset]
    simp only [← mode_iff ea h]
    infer_instance
  | _ =>
    dsimp only [instructionLength, emitInstructionBody]
    infer_instance

theorem emitInstruction_records (opcode pc nextWord : Word) :
    Records (instructionLength (decode opcode)) (emitInstruction (decode opcode) pc nextWord) := by
  have hb := emitInstructionBody_records (decode_eaOk opcode) pc nextWord
  unfold emitInstruction
  infer_instance

end Dsp56300.Emitter
