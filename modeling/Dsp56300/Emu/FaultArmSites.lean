import Dsp56300.Emu.BlockCode
import Dsp56300.Emu.Screening

/-! Fault-arming sites: those an instruction's emission counts, and those its code may run into. -/

namespace Dsp56300

set_option synthInstance.maxSize 1000

open Lib.Paths Lib.Programs Lib.Programs.Code

namespace Emitter

open Instruction

set_option linter.constructorNameAsVariable false

def Op.Unarmed (γ : Type) (op : Op γ) : Prop := op.armsFault = false

section Count

variable {α : Type} {x : Emit α}

theorem countSites_le (x : Emit α) (n : Nat) : n ≤ (x.run countSites n).2 := by
  induction x generalizing n with
  | ret a => exact Nat.le_refl n
  | op e k ih =>
    refine Nat.le_trans ?_ (ih _ _)
    dsimp only [countSites]
    split
    · exact Nat.le_succ n
    · exact Nat.le_refl n

/-- A site is counted before the code behind it. -/
theorem lt_countSites {γ : Type} {e : Op γ} (h : e.armsFault = true) (k : γ → Emit α) (n : Nat) :
    n < ((call e >>= k).run countSites n).2 := by
  refine Nat.lt_of_lt_of_le ?_ (countSites_le (k e.silent) _)
  simp only [countSites, if_pos h]
  exact Nat.lt_succ_self n

/-- Code that can arm nothing counts nothing. -/
theorem faultArmSites_of_all (h : x.All Op.Unarmed) : faultArmSites x = 0 := by
  have hop (γ : Type) (op : Op γ) (n : Nat) (hop : Op.Unarmed γ op) (hn : n = 0) :
      (countSites γ op n).2 = 0 := by
    subst hn
    exact if_neg (ne_true_of_eq_false hop)
  exact All.run (I := (· = 0)) hop h rfl

end Count

/-! Code that can arm nothing. -/

/-- Registers a move may go to without arming a fault. -/
class Unstacked (idx : Nat) : Prop where
  ssh : idx ≠ Reg.ssh.val
  sp : idx ≠ Reg.sp.val

class Siteless {α : Type} (x : Emit α) : Prop where
  all : x.All Op.Unarmed

variable {α β : Type} {x y : Emit α} {f : α → Emit β}

instance (a : α) : Siteless (pure a : Emit α) where
  all := trivial

instance [hx : Siteless x] [hf : ∀ a, Siteless (f a)] : Siteless (x >>= f) where
  all := all_bind hx.all fun a => (hf a).all

instance {c : Prop} [Decidable c] [hx : Siteless x] [hy : Siteless y] :
    Siteless (if c then x else y) := by
  split
  · exact hx
  · exact hy

theorem siteless_call {γ : Type} {e : Op γ} (h : e.armsFault = false) : Siteless (call e) where
  all := all_call.mpr h

instance {idx : Nat} [h : DataReg idx] : Unstacked idx := by
  have hlt := h.lt
  have hssh : Reg.ssh.val = 0x3C := rfl
  have hsp : Reg.sp.val = 0x3B := rfl
  exact ⟨by omega, by omega⟩

instance {idx : Nat} [h : Unstacked idx] : Readable idx := ⟨h.ssh⟩

section Operations

variable (n idx : Nat) (v : Word) (d : Accumulator) (space : MemSpace)

instance : Siteless (setCycles n) := siteless_call rfl

instance : Siteless (setInstLen n) := siteless_call rfl

instance : Siteless (call (.setDecodeLen n : Op _)) := siteless_call rfl

instance : Siteless (call (.setFaultAnchorBump n : Op _)) := siteless_call rfl

instance : Siteless (loadReg idx) := siteless_call rfl

instance : Siteless (storeReg idx v) := siteless_call rfl

instance : Siteless (loadAcc d) := siteless_call rfl

instance (v : BitVec 64) : Siteless (storeAcc d v) := siteless_call rfl

instance [h : Readable idx] : Siteless (readRegForMove idx) :=
  siteless_call (decide_eq_false h.ssh)

instance [h : Unstacked idx] : Siteless (writeRegForMove idx v) :=
  siteless_call (Bool.or_eq_false_iff.mpr ⟨decide_eq_false h.ssh, decide_eq_false h.sp⟩)

instance (lx ly : Word) : Siteless (call (.writeLReg v lx ly : Op _)) := siteless_call rfl

instance : Siteless (call (.readLReg v : Op _)) := siteless_call rfl

instance (addr : Word) : Siteless (readMem space addr) := siteless_call rfl

instance (addr : Word) : Siteless (readMemDyn space addr) := siteless_call rfl

instance (addr : Word) : Siteless (writeMem space addr v) := siteless_call rfl

instance (addr : Word) : Siteless (writeMemDyn space addr v) := siteless_call rfl

instance (cc : CondCode) : Siteless (evalCcBool cc) := siteless_call rfl

instance : Siteless (emitUpdateRn n v) := siteless_call rfl

instance (inter : Nat) : Siteless (emitAddInterrupt inter) := siteless_call rfl

instance : Siteless (call (.writeSsl v : Op _)) := siteless_call rfl

instance (path : DataPath) : Siteless (dataPath path) := siteless_call rfl

end Operations

section Emitters

variable (ea b : Byte) (w : Bool) (space : MemSpace) (opcode nextWord v : Word) (alu : ParallelAlu)

instance (n : Nat) : Siteless (loadNnSigned n) := by
  unfold loadNnSigned
  infer_instance

instance : Siteless (emitCalcEaExt v nextWord) := by
  unfold emitCalcEaExt
  split <;> infer_instance

instance : Siteless (emitCalcEa v) := by
  unfold emitCalcEa
  infer_instance

instance (e : Word × Bool) : Siteless (readEa space e) := by
  unfold readEa
  infer_instance

instance (s : Option RegIdx) : Siteless (controlWord s nextWord) := by
  cases s <;> unfold controlWord <;> infer_instance

instance : Siteless (emitParallelAlu alu) := siteless_call rfl

instance : Siteless (updateCarryFromBit v b) := siteless_call rfl

instance (acc : Option (RegIdx × RegIdx)) : Siteless (tccAcc acc) := by
  cases acc <;> unfold tccAcc <;> infer_instance

instance (r : Option (Byte × Byte)) : Siteless (tccR r) := by
  cases r <;> unfold tccR <;> infer_instance

instance {write : Word → Emit Unit} [∀ v, Siteless (write v)] (r : Option Word) :
    Siteless (writeBack write r) := by
  cases r <;> unfold writeBack <;> infer_instance

instance [Readable b.toNat] : Siteless (readRegForStore b) := by
  unfold readRegForStore
  infer_instance

instance : Siteless (emitParallelEa v nextWord) := by
  unfold emitParallelEa
  infer_instance

instance : Siteless (emitPm0 opcode alu nextWord) := by
  unfold emitPm0
  infer_instance

instance : Siteless (emitPm1 opcode alu nextWord) := by
  unfold emitPm1
  infer_instance

instance : Siteless (emitPm22 opcode alu) := by
  unfold emitPm22
  infer_instance

instance : Siteless (emitPm3 opcode alu) := by
  unfold emitPm3
  infer_instance

instance : Siteless (emitPm2 opcode alu) := by
  unfold emitPm2
  infer_instance

instance : Siteless (emitPm4x opcode alu nextWord) := by
  unfold emitPm4x
  infer_instance

instance : Siteless (emitPm5 opcode alu nextWord) := by
  unfold emitPm5
  infer_instance

instance : Siteless (emitPm4 opcode alu nextWord) := by
  unfold emitPm4
  infer_instance

instance : Siteless (emitPm8 opcode alu) := by
  unfold emitPm8
  infer_instance

instance (moveType : ParallelMoveType) : Siteless (emitParallel opcode moveType alu nextWord) := by
  unfold emitParallel
  cases moveType <;> infer_instance

end Emitters

section Moves

variable (src dst ea b : Byte) (w : Bool) (space : MemSpace) (nextWord v : Word) (op : BitOp)

instance [Readable src.toNat] [Unstacked dst.toNat] : Siteless (moveReg src dst) := by
  unfold moveReg
  infer_instance

instance [Unstacked src.toNat] : Siteless (emitMoveDisp space w ea src v) := by
  unfold emitMoveDisp
  infer_instance

instance [h : Unstacked src.toNat] : Siteless (readBitReg src op) := by
  unfold readBitReg
  rw [if_neg fun hs => h.ssh hs.1]
  infer_instance

instance [h : Unstacked src.toNat] : Siteless (writeBitReg src v) := by
  unfold writeBitReg
  rw [if_neg h.ssh, if_neg h.sp]
  infer_instance

end Moves

theorem unstacked_of_sshOrSp {r : Byte} (h : isStackFaultCapable.sshOrSp r = false) :
    Unstacked r.toNat := by
  obtain ⟨hssh, hsp⟩ := Bool.or_eq_false_iff.mp h
  exact ⟨of_decide_eq_false hssh, of_decide_eq_false hsp⟩

end Emitter

namespace Instruction

/-- The instructions that meet a site though no block ends at them: moves between memory or a
peripheral and SSH, and to SP. -/
def meetsFaultArmSite : Instruction → Bool
  | .movep0 _ r w _ | .movepQqR _ r w _ => r.toNat = Reg.ssh.val || (!w && r.toNat = Reg.sp.val)
  | .moveLongDisp _ w _ n => n.toNat = Reg.ssh.val || (w && n.toNat = Reg.sp.val)
  | _ => false

end Instruction

namespace Emitter

open Instruction

variable {inst : Instruction}

theorem siteless_body (hop : inst.OperandsOk) (hrep : inst.isRepInstruction = false)
    (hdo : inst.isDoInstruction = false) (hterm : inst.isBlockTerminator = false)
    (hmeets : inst.meetsFaultArmSite = false) (pc nextWord : Word) :
    Siteless (emitInstructionBody inst pc nextWord) := by
  have hfault : inst.isStackFaultCapable = false := (Bool.or_eq_false_iff.mp hterm).1
  cases inst with
  | movecReg src dst w =>
    obtain ⟨hsrc, hdst⟩ := Bool.or_eq_false_iff.mp hfault
    have := unstacked_of_sshOrSp hsrc
    have := unstacked_of_sshOrSp hdst
    dsimp only [emitInstructionBody]
    infer_instance
  | movecImm | movecEa | movecAa | movemEa | movemAa | bclrReg | bsetReg | bchgReg | btstReg =>
    have := unstacked_of_sshOrSp hfault
    dsimp only [emitInstructionBody]
    infer_instance
  | movep0 p r w space | movepQqR p r w space =>
    obtain ⟨hssh, hsp⟩ := Bool.or_eq_false_iff.mp hmeets
    have : Readable r.toNat := ⟨of_decide_eq_false hssh⟩
    dsimp only [emitInstructionBody]
    cases w with
    | false =>
      have : Unstacked r.toNat := ⟨of_decide_eq_false hssh, of_decide_eq_false hsp⟩
      infer_instance
    | true =>
      simp only [emitMovep0, emitMovepQqR, ↓reduceIte]
      infer_instance
  | moveLongDisp space w a n =>
    obtain ⟨hssh, hsp⟩ := Bool.or_eq_false_iff.mp hmeets
    have : Readable n.toNat := ⟨of_decide_eq_false hssh⟩
    dsimp only [emitInstructionBody]
    cases w with
    | true =>
      have : Unstacked n.toNat := ⟨of_decide_eq_false hssh, of_decide_eq_false hsp⟩
      infer_instance
    | false =>
      simp only [emitMoveLongDisp, emitMoveDisp, Bool.false_eq_true, ↓reduceIte]
      infer_instance
  | moveShortDisp space offset w a n =>
    have : DataReg n.toNat := ⟨Nat.lt_trans hop.2 (by decide)⟩
    dsimp only [emitInstructionBody]
    infer_instance
  | lua ea d | lraRn a d | lraDisp d =>
    have : DataReg d.toNat := ⟨Nat.lt_trans hop (by decide)⟩
    dsimp only [emitInstructionBody]
    infer_instance
  | _ =>
    first
    | exact Bool.noConfusion hterm
    | exact Bool.noConfusion hrep
    | exact Bool.noConfusion hdo
    | (dsimp only [emitInstructionBody]; infer_instance)

/-- The others meet a site whatever their operations answer. -/
theorem faultArmSites_pos (h : inst.meetsFaultArmSite = true) (pc nextWord : Word) :
    0 < faultArmSites (emitInstruction inst pc nextWord) := by
  cases inst with
  | movep0 p r w space | movepQqR p r w space =>
    cases w with
    | false =>
      have hsite : (Op.writeRegForMove r.toNat 0).armsFault = true := h
      exact lt_countSites hsite pure 0
    | true =>
      have hsite : (Op.readRegForMove r.toNat).armsFault = true := by
        rwa [meetsFaultArmSite, Bool.not_true, Bool.false_and, Bool.or_false] at h
      exact lt_countSites hsite (fun v => writeMem space _ v) 0
  | moveLongDisp space w a n =>
    cases w with
    | false =>
      have hsite : (Op.readRegForMove n.toNat).armsFault = true := by
        rwa [meetsFaultArmSite, Bool.false_and, Bool.or_false] at h
      exact lt_countSites hsite (fun v => writeMemDyn space (maskPc (0 + nextWord)) v) 0
    | true =>
      have hsite : (Op.writeRegForMove n.toNat 0).armsFault = true := h
      exact lt_countSites hsite pure 0
  | _ => cases h

/-- Where no block ends, the sites counted in the emission of an instruction tell whether any run
of its code can arm a fault, whatever its operations answer. -/
theorem faultArmSites_eq_zero_iff {opcode : Word}
    (hrep : (decode opcode).isRepInstruction = false)
    (hdo : (decode opcode).isDoInstruction = false)
    (hterm : (decode opcode).isBlockTerminator = false) (pc nextWord : Word) :
    faultArmSites (emitInstruction (decode opcode) pc nextWord) = 0 ↔
      (emitInstruction (decode opcode) pc nextWord).All Op.Unarmed := by
  refine ⟨fun hzero => ?_, faultArmSites_of_all⟩
  cases hmeets : (decode opcode).meetsFaultArmSite with
  | false =>
    have hbody := siteless_body (decode_operandsOk opcode) hrep hdo hterm hmeets pc nextWord
    exact ⟨rfl, fun _ => hbody.all⟩
  | true => exact absurd hzero (Nat.ne_of_gt (faultArmSites_pos hmeets pc nextWord))

end Emitter

end Dsp56300
