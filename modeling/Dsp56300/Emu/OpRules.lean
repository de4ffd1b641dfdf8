import Dsp56300.Emu.DataPathRules
import Dsp56300.Emu.Deferral

/-! Every emitted operation keeps what the operations it is made of keep. -/

namespace Dsp56300

open Emitter Lib.Bits Lib.Coupling

variable {σ α : Type}

namespace DspState

variable {s : DspState σ} {r : RegIdx} {v w : Word}

theorem setSlot_setReg (half : Fin 2) (i : Fin 16) :
    (s.setReg r v).setSlot half i w = (s.setSlot half i w).setReg r v := rfl

end DspState

/-! What the helpers and the inlined code of the stack leave alone. -/

section Aside

variable {r : RegIdx}

theorem aside_ne {q : RegIdx} (hr : r = Reg.sr ∨ ¬ DspState.Outside r) (hq : DspState.Outside q)
    (hsr : q ≠ Reg.sr) : q ≠ r := by
  rintro rfl
  exact hr.elim hsr fun h => h hq

/-- Code on other fields. -/
theorem aside_fields {f : DspState σ → α × DspState σ}
    (hf : ∀ s r v, f (s.setReg r v) = ((f s).1, (f s).2.setReg r v))
    (hs : ∀ s, DspState.SameCore s (f s).2) : Aside f :=
  ⟨fun r _ s v => hf s r v, fun s h => h.same (hs s)⟩

/-- A change of other fields that does not look at the registers. -/
theorem aside_change {f : DspState σ → DspState σ} (hf : ∀ s r v, f (s.setReg r v) = (f s).setReg r v)
    (hs : ∀ s, DspState.SameCore s (f s)) : Aside (Alu.change f) :=
  aside_fields (fun s r v => Prod.ext rfl (hf s r v)) hs

theorem aside_readMem (space : MemSpace) (addr : Word) :
    Aside (DspState.readMem (σ := σ) space addr) :=
  aside_fields (fun _ _ _ => rfl) fun _ => ⟨rfl, rfl, rfl, rfl, fun h => h.readMem space addr⟩

theorem aside_readMemDyn (space : MemSpace) (addr : Word) :
    Aside (DspState.readMemDyn (σ := σ) space addr) :=
  aside_fields (fun _ _ _ => rfl) fun _ => ⟨rfl, rfl, rfl, rfl, fun h => h.readMemDyn space addr⟩

theorem aside_writeMem (space : MemSpace) (addr v : Word) :
    Aside (Alu.change (DspState.writeMem (σ := σ) space addr v)) :=
  aside_change (fun _ _ _ => rfl) fun _ => ⟨rfl, rfl, rfl, rfl, fun h => h.writeMem space addr v⟩

section Memory

variable (s : DspState σ) (space : MemSpace) (addr v : Word)

theorem jitWriteMem_setReg (r : RegIdx) (w : Word) :
    (s.setReg r w).jitWriteMem space addr v = (s.jitWriteMem space addr v).setReg r w := by
  unfold DspState.jitWriteMem
  split
  · dsimp only
    split_ifs with ha hb hb
    · rfl
    · exact absurd ha hb
    · exact absurd hb ha
    · rfl
  · rfl

theorem jitWriteMem_sameCore : s.SameCore (s.jitWriteMem space addr v) := by
  unfold DspState.jitWriteMem
  split
  · dsimp only
    split
    · exact ⟨rfl, rfl, rfl, rfl, fun h => (h.readMemory .p addr).writeMemory .p addr _⟩
    · exact ⟨rfl, rfl, rfl, rfl, fun h => h.readMemory .p addr⟩
  · exact ⟨rfl, rfl, rfl, rfl, fun h => h.writeMemory space addr v⟩

/-- The inlined store, and the call behind it where RAM is not all there is. -/
theorem writeMemDyn_ram {base : Nat} {offset limit : Word} (hp : space ≠ .p)
    (hram : ramRegion (s.map.regions space) = some (base, offset, limit)) :
    s.writeMemDyn space addr v =
      if (emitClampedIndex addr limit).1 then
        let elem := emitBufferElemAddr base 0 offset (emitClampedIndex addr limit).2
        { s with
          world := { s.world with heap := Function.update s.world.heap elem (v &&& 0xFFFFFF) } }
      else if (s.map.regions space).length > 1 then
        { s with memWriteSink := v &&& 0xFFFFFF }.jitWriteMem space addr (v &&& 0xFFFFFF)
      else { s with memWriteSink := v &&& 0xFFFFFF } := by
  unfold DspState.writeMemDyn
  rw [if_neg hp, hram]
  cases hok : (emitClampedIndex addr limit).1 with
  | false => simp [hok]
  | true => simp [hok]

theorem aside_writeMemDyn :
    Aside (Alu.change fun s : DspState σ => s.writeMemDyn space addr v) := by
  by_cases hp : space = .p
  · have hcall (s : DspState σ) : s.writeMemDyn space addr v = s.jitWriteMem .p addr v := if_pos hp
    refine aside_change (fun s r w => ?_) fun s => ?_
    · rw [hcall, hcall, jitWriteMem_setReg]
    · rw [hcall]
      exact jitWriteMem_sameCore ..
  · refine aside_change (fun s r w => ?_) fun s => ?_
    · have hmap : (s.setReg r w).map = s.map := rfl
      cases hram : ramRegion (s.map.regions space) with
      | none =>
        unfold DspState.writeMemDyn
        rw [if_neg hp, if_neg hp, hmap, hram]
        exact jitWriteMem_setReg ..
      | some region =>
        rw [writeMemDyn_ram s _ _ _ hp hram,
          writeMemDyn_ram (s.setReg r w) _ _ _ hp (by rw [hmap, hram]), hmap]
        split
        · rfl
        · split
          · exact jitWriteMem_setReg { s with memWriteSink := v &&& 0xFFFFFF } ..
          · rfl
    · cases hram : ramRegion (s.map.regions space) with
      | none =>
        unfold DspState.writeMemDyn
        rw [if_neg hp, hram]
        exact jitWriteMem_sameCore ..
      | some region =>
        rw [writeMemDyn_ram s _ _ _ hp hram]
        split
        · exact ⟨rfl, rfl, rfl, rfl, fun h => h.store _ (is24_masked v)⟩
        · have hsink : s.SameCore { s with memWriteSink := v &&& 0xFFFFFF } := ⟨rfl, rfl, rfl, rfl, id⟩
          split
          · exact hsink.trans (jitWriteMem_sameCore ..)
          · exact hsink

end Memory

section Stack

variable (s : DspState σ) (words v w : Word)

theorem within_posted (h : s.Within) (c : Prop) [Decidable c] :
    (if c then s.postStackError else s).Within := by
  split
  · exact h.same s.sameCore_postStackError
  · exact h

theorem within_armed (h : s.Within) (c : Prop) [Decidable c] :
    (if c then (s.emitAddInterrupt Interrupt.stackError).emitArmFaultBudget words else s).Within := by
  split
  · exact h.same ⟨rfl, rfl, rfl, rfl, id⟩
  · exact h

theorem within_stackPop (h : s.Within) : s.stackPop.2.Within :=
  ((((within_posted s h _).setMasked Reg.sp _).setMasked Reg.sc _).mirrorSlots _)

theorem within_jitWriteSsh (h : s.Within) : (s.jitWriteSsh v).Within := by
  have hpushed := ((within_posted s h (s.registers Reg.sp &&& (1#32 <<< 4) = 0 ∧
    ((s.registers Reg.sp &&& 0xF) + 1) &&& (1#32 <<< 4) ≠ 0)).setMasked Reg.sp
      ((s.registers Reg.sp &&& (1#32 <<< 5)) ||| (s.registers Reg.sp &&& (1#32 <<< 4)) |||
        ((s.registers Reg.sp &&& 0xF) + 1))).setMasked Reg.sc
  unfold DspState.jitWriteSsh
  dsimp only
  refine DspState.Within.mirrorSlots ?_ _
  split
  · exact (hpushed _).setSlot 0 _ (is24_masked v)
  · exact hpushed _

/-! A write of SR or of a part of an accumulator passes what writes the stack and its registers. -/

section Passing

variable {s} {q : RegIdx} (hr : r = Reg.sr ∨ ¬ DspState.Outside r)

include hr

theorem registers_passing (hq : DspState.Outside q) (hsr : q ≠ Reg.sr) :
    (s.setReg r v).registers q = s.registers q := DspState.setReg_other _ _ (aside_ne hr hq hsr)

theorem setReg_passing (hq : DspState.Outside q) (hsr : q ≠ Reg.sr) :
    (s.setReg r v).setReg q w = (s.setReg q w).setReg r v :=
  DspState.setReg_comm (aside_ne hr hq hsr).symm

theorem mirrorSlots_passing (i : Fin 16) :
    (s.setReg r v).mirrorSlots i = (s.mirrorSlots i).setReg r v := by
  rw [DspState.mirrorSlots, setReg_passing _ _ hr (by decide) (by decide),
    setReg_passing _ _ hr (by decide) (by decide)]
  rfl

omit hr in
theorem posted_passing (c : Prop) [Decidable c] :
    (if c then (s.setReg r v).postStackError else s.setReg r v) =
      (if c then s.postStackError else s).setReg r v := by
  split <;> rfl

omit hr in
theorem armed_passing (c : Prop) [Decidable c] :
    (if c then ((s.setReg r v).emitAddInterrupt Interrupt.stackError).emitArmFaultBudget words
      else s.setReg r v) =
      (if c then (s.emitAddInterrupt Interrupt.stackError).emitArmFaultBudget words
        else s).setReg r v := by
  split <;> rfl

end Passing

theorem aside_jitReadSsh : Aside (DspState.jitReadSsh (σ := σ)) := by
  refine ⟨fun r hr s v => ?_, fun s h => within_stackPop s h⟩
  simp (disch := decide) only [DspState.jitReadSsh, DspState.stackPop, registers_passing _ hr,
    posted_passing, setReg_passing _ _ hr, mirrorSlots_passing _ hr]

theorem aside_jitWriteSsh : Aside (Alu.change fun s : DspState σ => s.jitWriteSsh v) := by
  refine ⟨fun r hr s w => ?_, fun s h => within_jitWriteSsh s v h⟩
  have hne := DspState.nibble_succ_ne_zero (s.registers Reg.sp)
  simp (disch := decide) only [Alu.change, DspState.jitWriteSsh, registers_passing _ hr,
    posted_passing, setReg_passing _ _ hr, hne, ne_eq, not_false_eq_true, if_true,
    DspState.setSlot_setReg, mirrorSlots_passing _ hr]

theorem aside_jitWriteSsl : Aside (Alu.change fun s : DspState σ => s.jitWriteSsl v) := by
  refine ⟨fun r hr s w => ?_, fun s h => ?_⟩
  · simp (disch := decide) only [Alu.change, DspState.jitWriteSsl, registers_passing _ hr,
      DspState.setSlot_setReg, setReg_passing _ _ hr]
  · exact (h.setSlot 1 _ (is24_masked v)).setMasked Reg.ssl v

theorem aside_jitWriteSp : Aside (Alu.change fun s : DspState σ => s.jitWriteSp v) := by
  have hnote (s : DspState σ) (r : RegIdx) (w : Word) :
      (s.setReg r w).noteSpWrite = s.noteSpWrite.setReg r w := by
    unfold DspState.noteSpWrite
    split_ifs with ha hb hb
    · rfl
    · exact absurd ha hb
    · exact absurd hb ha
    · rfl
  refine ⟨fun r hr s w => ?_, fun s h => ?_⟩
  · simp (disch := decide) only [Alu.change, DspState.jitWriteSp, hnote, registers_passing _ hr,
      posted_passing, setReg_passing _ _ hr, mirrorSlots_passing _ hr]
  · have hnoted : s.noteSpWrite.Within := by
      unfold DspState.noteSpWrite
      split
      · exact h.same ⟨rfl, rfl, rfl, rfl, id⟩
      · exact h
    exact ((within_posted _ hnoted _).setMasked Reg.sp v).mirrorSlots _

/-- SSH in place: an empty stack latches its error instead. -/
theorem aside_jitWriteSshTos : Aside (Alu.change fun s : DspState σ => s.jitWriteSshTos v) := by
  refine ⟨fun r hr s w => ?_, fun s h => ?_⟩
  · have hraised (c : Prop) [Decidable c] :
        (if c then (s.setReg r w).raiseStackError else s.setReg r w) =
          (if c then s.raiseStackError else s).setReg r w := by
      split <;> rfl
    by_cases hi : DspState.spIndex (s.registers Reg.sp) = 0
    · simp (disch := decide) only [Alu.change, DspState.jitWriteSshTos, registers_passing _ hr, hi,
        ne_eq, not_true_eq_false, if_false, hraised, setReg_passing _ _ hr, DspState.setReg_stack]
    · simp (disch := decide) only [Alu.change, DspState.jitWriteSshTos, registers_passing _ hr, hi,
        ne_eq, not_false_eq_true, if_true, DspState.setSlot_setReg, setReg_passing _ _ hr,
        DspState.setReg_stack]
  · unfold Alu.change DspState.jitWriteSshTos
    dsimp only
    refine DspState.Within.slot ?_ (.inl rfl) 0 _
    split
    · exact h.setSlot 0 _ (is24_masked v)
    · refine DspState.Within.setMasked ?_ Reg.sp _
      split
      · exact h.same s.sameCore_raiseStackError
      · exact h

theorem aside_emitStackPush :
    Aside (Alu.change fun s : DspState σ => s.emitStackPush v w words) := by
  refine ⟨fun r hr s x => ?_, fun s h => ?_⟩
  · simp (disch := decide) only [Alu.change, DspState.emitStackPush, DspState.storeReg,
      registers_passing _ hr, armed_passing, setReg_passing _ _ hr, DspState.setSlot_setReg]
  · have hstored {u : DspState σ} (hu : u.Within) (i : Fin 16) :
        ((((u.setSlot 0 i (v &&& 0xFFFFFF)).setSlot 1 i (w &&& 0xFFFFFF)).storeReg Reg.ssh
          v).storeReg Reg.ssl w).Within :=
      (((hu.setSlot 0 i (is24_masked v)).setSlot 1 i
        (is24_masked w)).setMasked Reg.ssh v).setMasked Reg.ssl w
    exact hstored (((within_armed s words h _).setMasked Reg.sp _).setMasked Reg.sc _) _

theorem aside_emitStackPop : Aside fun s : DspState σ => s.emitStackPop words := by
  refine ⟨fun r hr s x => ?_, fun s h => ?_⟩
  · simp (disch := decide) only [DspState.emitStackPop, DspState.storeReg,
      registers_passing _ hr, armed_passing, setReg_passing _ _ hr, DspState.setReg_stack]
  · exact ((((within_armed s words h _).setMasked Reg.sp _).setMasked Reg.sc _).setMasked Reg.ssh
      _).setMasked Reg.ssl _

end Stack

/-! Address registers. -/

theorem rAt_outside : ∀ i : Fin 8, DspState.Outside (Reg.rAt i) ∧ Reg.rAt i ≠ Reg.sr ∧
    regMasks (Reg.rAt i) = regMasks Reg.r0 := by decide

theorem mAt_outside : ∀ i : Fin 8, DspState.Outside (Reg.mAt i) ∧ Reg.mAt i ≠ Reg.sr := by decide

/-- Both states are left alone, or get the same Rn. -/
def SameUpdate (s u : DspState σ) (i : Fin 8) (s' u' : DspState σ) : Prop :=
  (s' = s ∧ u' = u) ∨ ∃ v, maskReg (Reg.rAt i) v = v ∧ s' = s.setReg (Reg.rAt i) v ∧
    u' = u.setReg (Reg.rAt i) v

section Update

variable {s u : DspState σ} {i : Fin 8} (modifier : Word)

theorem sameUpdate_masked (v : Word) : SameUpdate s u i
    (s.setReg (Reg.rAt i) (v &&& regMasks Reg.r0))
    (u.setReg (Reg.rAt i) (v &&& regMasks Reg.r0)) := by
  refine .inr ⟨_, ?_, rfl, rfl⟩
  rw [← (rAt_outside i).2.2]
  exact maskReg_maskReg ..

variable (hm : u.registers (Reg.mAt i) = s.registers (Reg.mAt i))
  (hr : u.registers (Reg.rAt i) = s.registers (Reg.rAt i))

include hm hr

theorem updateRnModulo_same :
    SameUpdate s u i (s.updateRnModulo i modifier) (u.updateRnModulo i modifier) := by
  have heq : ∃ v, s.updateRnModulo i modifier = s.setReg (Reg.rAt i) (v &&& regMasks Reg.r0) ∧
      u.updateRnModulo i modifier = u.setReg (Reg.rAt i) (v &&& regMasks Reg.r0) := by
    refine ⟨_, rfl, ?_⟩
    unfold DspState.updateRnModulo
    rw [hm, hr]
    rfl
  obtain ⟨v, hs, hu⟩ := heq
  rw [hs, hu]
  exact sameUpdate_masked v

/-- An update looks at Rn and Mn alone. -/
theorem updateRn_same :
    SameUpdate s u i (s.updateRn i modifier) (u.updateRn i modifier) := by
  have hreversed (v : Word) : maskReg (Reg.rAt i) (bitrev24 v) = bitrev24 v := by
    rw [maskReg, (rAt_outside i).2.2]
    exact and_of_lt (k := 24) rfl (bitrev24_lt v)
  have hmodulo := updateRnModulo_same modifier hm hr
  unfold DspState.updateRn
  rw [hm, hr]
  dsimp only
  split_ifs
  · exact sameUpdate_masked _
  · exact .inr ⟨_, hreversed _, rfl, rfl⟩
  · exact .inr ⟨_, hreversed _, rfl, rfl⟩
  · exact sameUpdate_masked _
  · exact hmodulo
  · exact .inl ⟨rfl, rfl⟩

theorem emitUpdateRn_same :
    SameUpdate s u i (s.emitUpdateRn i modifier) (u.emitUpdateRn i modifier) := by
  have hcalled := updateRn_same modifier hm hr
  unfold DspState.emitUpdateRn
  rw [hm, hr]
  split
  · exact sameUpdate_masked _
  · exact hcalled

end Update

theorem SameUpdate.within {s s' : DspState σ} {i : Fin 8} (hs : SameUpdate s s i s' s')
    (h : s.Within) : s'.Within := by
  obtain ⟨heq, -⟩ | ⟨w, hw, heq, -⟩ := hs
  · rw [heq]
    exact h
  · rw [heq]
    exact h.setReg hw

theorem aside_emitUpdateRn (i : Fin 8) (modifier : Word) :
    Aside (Alu.change fun s : DspState σ => s.emitUpdateRn i modifier) := by
  obtain ⟨hout, hsr, -⟩ := rAt_outside i
  obtain ⟨hmout, hmsr⟩ := mAt_outside i
  refine ⟨fun r hr s v => Prod.ext rfl ?_, fun s h => ?_⟩
  · obtain ⟨hs, hu⟩ | ⟨w, -, hs, hu⟩ := emitUpdateRn_same (s := s) (u := s.setReg r v) modifier
      (registers_passing _ hr hmout hmsr) (registers_passing _ hr hout hsr)
    · exact hu.trans (congrArg (·.setReg r v) hs.symm)
    · exact hu.trans ((setReg_passing _ _ hr hout hsr).trans (congrArg (·.setReg r v) hs.symm))
  · exact (emitUpdateRn_same (s := s) (u := s) (i := i) modifier rfl rfl).within h

/-! Fields that are simply written. -/

theorem aside_storePc {v : Word} (hv : Is24 v) :
    Aside (Alu.change fun s : DspState σ => { s with pc := v }) :=
  ⟨fun _ _ _ _ => rfl, fun _ h => ⟨h.registers, h.slots, hv, h.interrupts, h.memory⟩⟩

theorem aside_loadInterruptState : Aside fun s : DspState σ => (s.interrupts.state, s) :=
  aside_fields (fun _ _ _ => rfl) fun _ => ⟨rfl, rfl, rfl, rfl, id⟩

end Aside

namespace Alu.Rules

variable {now : Bool} {R : Bool → Bool → AluState σ → AluState σ → Prop} (h : Rules now R)
  {b m : Bool}

include h

theorem spillFaultBudget (anchor : FaultAnchor) (fault : FaultClass) :
    Couples (R b m) (Alu.spillFaultBudget anchor fault) anything (R b m) :=
  h.outer (aside_change (fun _ _ _ => rfl) fun _ => ⟨rfl, rfl, rfl, rfl, id⟩)

theorem readAccu24 (d : Accumulator) : Couples (R b m) (Alu.readAccu24 d) anything (R b m) :=
  (h.limit d).bind fun _ _ => couples_skip

theorem readRegForMove (anchor : FaultAnchor) {idx : RegIdx} (hr : Readable now idx) :
    Couples (R b m) (Alu.readRegForMove anchor idx) anything (R b m) :=
  .ite (fun _ => h.readAccu24 .a) fun _ => .ite (fun _ => h.readAccu24 .b) fun _ => .ite
    (fun _ => (h.spillFaultBudget anchor .pop).bind fun _ _ => h.helper aside_jitReadSsh)
    fun _ => .ite (fun _ => (h.loadReg hr).bind fun _ _ => couples_skip) fun _ => h.loadReg hr

/-- A move to SR has nothing of its own under way. -/
theorem storeAny (r : RegIdx) (v : Word) :
    Couples (R b false) (Alu.storeReg r v) anything (R b false) := by
  by_cases hr : r = Reg.sr
  · subst hr
    exact h.resettle (h.overwriteSr v)
  · exact h.storeOther v hr

theorem writeRegForMove (anchor : FaultAnchor) (idx : RegIdx) (v : Word) :
    Couples (R b false) (Alu.writeRegForMove anchor idx v) anything (R b false) :=
  .ite (fun _ => h.storeAcc .a (packs_val24ToAcc56 v)) fun _ =>
    .ite (fun _ => h.storeAcc .b (packs_val24ToAcc56 v)) fun _ => .ite
      (fun _ => (h.spillFaultBudget anchor .push).bind fun _ _ => h.helper (aside_jitWriteSsh v))
      fun _ => .ite (fun _ => h.helper (aside_jitWriteSsl v)) fun _ => .ite
        (fun _ => (h.spillFaultBudget anchor .spWrite).bind fun _ _ => h.helper (aside_jitWriteSp v))
        fun _ => h.storeAny idx v

theorem readLRegLimited (d : Accumulator) {lo : RegIdx} (hlo : lo ≠ Reg.sr) :
    Couples (R b m) (Alu.readLRegLimited d lo) anything (R b m) :=
  (h.limit d).bind fun _ _ => (h.loadOther hlo).bind fun _ _ => couples_skip

theorem readLReg (numreg : Word) : Couples (R b m) (Alu.readLReg numreg) anything (R b m) := by
  unfold Alu.readLReg
  split
  iterate 4
    exact (h.loadOther (by decide)).bind fun _ _ =>
      (h.loadOther (by decide)).bind fun _ _ => couples_skip
  · exact h.readLRegLimited .a (by decide)
  · exact h.readLRegLimited .b (by decide)
  · exact (h.readAccu24 .a).bind fun _ _ => (h.readAccu24 .b).bind fun _ _ => couples_skip
  · exact (h.readAccu24 .b).bind fun _ _ => (h.readAccu24 .a).bind fun _ _ => couples_skip

omit h in
theorem packs_joined (v w : Word) :
    Packs (((v.setWidth 64 &&& 0x00FFFFFF) <<< 24) ||| (w.setWidth 64 &&& 0x00FFFFFF)) := by
  have hlow (x : BitVec 64) : (x &&& 0x00FFFFFF).toNat < 2 ^ 32 :=
    Nat.lt_of_le_of_lt Nat.and_le_right (by decide)
  exact (Packs.shifted (k := 24) (hlow _) (by decide)).or (packs_of_low (hlow _))

theorem writeAccLoMid (d : Accumulator) (midVal loVal : Word) :
    Couples (R b m) (Alu.writeAccLoMid d midVal loVal) anything (R b m) :=
  (h.loadAcc d).bind fun _ hv => h.storeAcc d (hv.and.or (packs_joined midVal loVal))

theorem writeLReg (numreg lx ly : Word) :
    Couples (R b m) (Alu.writeLReg numreg lx ly) anything (R b m) := by
  have hsign (d : Accumulator) :
      Couples (R b m) (Alu.storeAcc d (Emitter.packAcc (signExtBit23 lx) lx ly)) anything (R b m) :=
    h.storeAcc d (packs_packAcc (Nat.lt_of_le_of_lt Nat.and_le_right (by decide)))
  unfold Alu.writeLReg
  split
  · exact h.writeAccLoMid .a lx ly
  · exact h.writeAccLoMid .b lx ly
  · exact (h.storeOther lx (by decide)).bind fun _ _ => h.storeOther ly (by decide)
  · exact (h.storeOther lx (by decide)).bind fun _ _ => h.storeOther ly (by decide)
  · exact hsign .a
  · exact hsign .b
  · exact (h.storeAcc .a (packs_val24ToAcc56 lx)).bind fun _ _ =>
      h.storeAcc .b (packs_val24ToAcc56 ly)
  · exact (h.storeAcc .b (packs_val24ToAcc56 lx)).bind fun _ _ =>
      h.storeAcc .a (packs_val24ToAcc56 ly)

theorem writeMemDyn (space : MemSpace) (addr v : Word) :
    Couples (R b m) (Alu.writeMemDyn space addr v) anything (R b m) :=
  .ite (fun _ => h.helper (aside_writeMemDyn space addr v))
    fun _ => h.outer (aside_writeMemDyn space addr v)

theorem evalCcBool {code : CondCode} (hc : now = true ∨ code.transparent = true) :
    Couples (R b m) (Alu.evalCcBool code) anything (R true m) := by
  refine h.readSr (fun x y hxy => ?_) fun _ => couples_skip
  have heval : code.eval x = code.eval y := by
    rcases hc with hn | hc
    · rw [hxy.same hn]
    · exact hxy.settled.eval hc
  simp only [heval]

end Alu.Rules

namespace Emitter.Op

/-- What the emitter knows of the values it stores: accumulators have 56 bits, PC has 24. -/
def Fits : {γ : Type} → Op γ → Prop
  | _, .storeAcc _ v => Packs v
  | _, .storePc v => Is24 v
  | _, _ => True

/-- What it relies on of the answers it computes on. -/
def Yields : {γ : Type} → Op γ → γ → Prop
  | _, .loadAcc _ => Packs
  | _, _ => anything

end Emitter.Op

namespace Alu.Rules

variable {now : Bool} {R : Bool → Bool → AluState σ → AluState σ → Prop} (h : Rules now R)
  {b : Bool}

include h

/-- One emitted operation: any, where E, U, N and Z are up to date, and one that is no hazard where
they are not. -/
theorem code {γ : Type} (anchor : FaultAnchor) (op : Op γ) (hop : op.Fits)
    (hz : now = true ∨ op.hazard = false) :
    Couples (R b false) (op.code (σ := σ) anchor) op.Yields (R b false) := by
  have hfield {f : DspState σ → DspState σ} (hf : ∀ s r v, f (s.setReg r v) = (f s).setReg r v)
      (hs : ∀ s, DspState.SameCore s (f s)) :
      Couples (R b false) (Alu.outer (change f)) anything (R b false) :=
    h.outer (aside_change hf hs)
  have hreadable {r : RegIdx} (hr : now = true ∨ decide (r = Reg.sr) = false) : Readable now r :=
    hr.imp_right of_decide_eq_false
  cases op with
  | setDecodeLen | setInstLen | setCycles | setFaultAnchorBump => exact couples_skip
  | storePc v => exact h.outer (aside_storePc hop)
  | loadReg idx => exact h.loadReg (hreadable hz)
  | storeReg idx v => exact h.storeAny _ v
  | loadAcc d => exact h.loadAcc d
  | storeAcc d v => exact h.storeAcc d hop
  | readRegForMove idx => exact h.readRegForMove anchor (hreadable hz)
  | writeRegForMove idx v => exact h.writeRegForMove anchor _ v
  | readLReg numreg => exact h.readLReg numreg
  | writeLReg numreg lx ly => exact h.writeLReg numreg lx ly
  | readMem space addr => exact h.outer (aside_readMem space addr)
  | writeMem space addr v => exact h.outer (aside_writeMem space addr v)
  | readMemDyn space addr => exact h.outer (aside_readMemDyn space addr)
  | writeMemDyn space addr v => exact h.writeMemDyn space addr v
  | updateRn numreg modifier => exact h.outer (aside_emitUpdateRn _ modifier)
  | evalCcBool code =>
    exact h.resettle (h.evalCcBool (hz.imp_right fun hz => by simpa [Op.hazard] using hz))
  | stackPush ssh ssl budget => exact h.outer (aside_emitStackPush _ ssh ssl)
  | stackPop budget => exact h.outer (aside_emitStackPop _)
  | loadInterruptState => exact h.outer aside_loadInterruptState
  | storeInterruptState => exact hfield (fun _ _ _ => rfl) fun _ => ⟨rfl, rfl, rfl, rfl, id⟩
  | storePowerState => exact hfield (fun _ _ _ => rfl) fun _ => ⟨rfl, rfl, rfl, rfl, id⟩
  | storeLoopRep => exact hfield (fun _ _ _ => rfl) fun _ => ⟨rfl, rfl, rfl, rfl, id⟩
  | storePcOnRep => exact hfield (fun _ _ _ => rfl) fun _ => ⟨rfl, rfl, rfl, rfl, id⟩
  | addInterrupt => exact hfield (fun _ _ _ => rfl) fun _ => ⟨rfl, rfl, rfl, rfl, id⟩
  | armFaultBudget => exact hfield (fun _ _ _ => rfl) fun _ => ⟨rfl, rfl, rfl, rfl, id⟩
  | spillFaultBudget fault => exact h.spillFaultBudget anchor fault
  | readSsh => exact h.helper aside_jitReadSsh
  | writeSshTos v => exact h.helper (aside_jitWriteSshTos v)
  | writeSsl v => exact h.helper (aside_jitWriteSsl v)
  | writeSp v => exact h.helper (aside_jitWriteSp v)
  | data path => exact h.emit path hz b

end Alu.Rules

end Dsp56300
