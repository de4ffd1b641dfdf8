import Dsp56300.Emu.StackMirror

namespace Dsp56300.DspState

variable {σ : Type}

/-! The stack operations the emitter inlines into compiled code. -/

/-- A register store of compiled code masks to the architectural width. -/
def storeReg (s : DspState σ) (r : RegIdx) (val : Word) : DspState σ := s.setReg r (maskReg r val)

/-- Compiled code posts an interrupt by setting its bit; the level is not consulted. -/
def emitAddInterrupt (s : DspState σ) (inter : Fin Interrupt.count) : DspState σ :=
  { s with interrupts := s.interrupts.setPending inter }

def emitArmFaultBudget (s : DspState σ) (words : Word) : DspState σ :=
  { s with interrupts := { s.interrupts with faultBudget := words } }

/-- The inlined push; `faultBudget` is the per-opcode constant of the emitting site. -/
def emitStackPush (s : DspState σ) (sshVal sslVal faultBudget : Word) : DspState σ :=
  let sp := s.registers Reg.sp
  let stackError := sp &&& 0x10
  let underflow := sp &&& 0x20
  let counter := sp &&& 0xF
  let newCounter := counter + 1
  let doError := stackError = 0 ∧ newCounter &&& 0x10 ≠ 0
  let s := if doError then
    (s.emitAddInterrupt Interrupt.stackError).emitArmFaultBudget faultBudget else s
  let s := s.storeReg Reg.sp ((underflow ||| stackError ||| newCounter) &&& 0x3F)
  let s := s.storeReg Reg.sc ((s.registers Reg.sc + 1) &&& 0x1F)
  let s := s.setSlot 0 (spIndex newCounter) (sshVal &&& 0xFFFFFF)
  let s := s.setSlot 1 (spIndex newCounter) (sslVal &&& 0xFFFFFF)
  (s.storeReg Reg.ssh sshVal).storeReg Reg.ssl sslVal

/-- The inlined pop: the popped pair comes from the slots, not from SSH and SSL. -/
def emitStackPop (s : DspState σ) (faultBudget : Word) : (Word × Word) × DspState σ :=
  let sp := s.registers Reg.sp
  let counter := sp &&& 0xF
  let ssh := s.stack 0 (spIndex counter)
  let ssl := s.stack 1 (spIndex counter)
  let stackError := sp &&& 0x10
  let underflow := sp &&& 0x20
  let newCounter := counter - 1
  let doError := stackError = 0 ∧ newCounter &&& 0x10 ≠ 0
  let s := if doError then
    (s.emitAddInterrupt Interrupt.stackError).emitArmFaultBudget faultBudget else s
  let s := s.storeReg Reg.sp ((underflow ||| stackError ||| newCounter) &&& 0x3F)
  let s := s.storeReg Reg.sc ((s.registers Reg.sc - 1) &&& 0x1F)
  let s := s.storeReg Reg.ssh (s.stack 0 (spIndex newCounter))
  let s := s.storeReg Reg.ssl (s.stack 1 (spIndex newCounter))
  ((ssh, ssl), s)

theorem emitStackPush_interrupts (s : DspState σ) (v w words : Word) :
    (s.emitStackPush v w words).interrupts = if s.PushFaults then
      { s.interrupts.setPending Interrupt.stackError with faultBudget := words }
      else s.interrupts := by
  simp only [emitStackPush, storeReg, setReg_interrupts, setSlot_interrupts,
    apply_ite DspState.interrupts]
  exact if_congr Iff.rfl rfl rfl

theorem emitStackPop_interrupts (s : DspState σ) (words : Word) :
    (s.emitStackPop words).2.interrupts = if s.PopFaults then
      { s.interrupts.setPending Interrupt.stackError with faultBudget := words }
      else s.interrupts := by
  simp only [emitStackPop, storeReg, setReg_interrupts, apply_ite DspState.interrupts]
  exact if_congr Iff.rfl rfl rfl

@[simp] theorem armed_registers (s : DspState σ) (c : Prop) [Decidable c] (words : Word) :
    (if c then (s.emitAddInterrupt Interrupt.stackError).emitArmFaultBudget words
      else s).registers = s.registers := by split <;> rfl

@[simp] theorem armed_stack (s : DspState σ) (c : Prop) [Decidable c] (words : Word) :
    (if c then (s.emitAddInterrupt Interrupt.stackError).emitArmFaultBudget words
      else s).stack = s.stack := by split <;> rfl

theorem nibble_succ_ne_zero (v : Word) : (v &&& 0xF) + 1 ≠ 0 := by
  intro h
  have hle : (v &&& 0xF).toNat ≤ 15 := Nat.and_le_right
  have hz : ((v &&& 0xF).toNat + 1) % 2 ^ 32 = 0 := congrArg BitVec.toNat h
  omega

theorem spIndex_nibble (v : Word) : spIndex (v &&& 0xF) = spIndex v := by
  simp only [spIndex, mask_mask]

/-- The two pushes agree on the hardware stack from any state at all. -/
theorem emitStackPush_stackPart (s : DspState σ) (v w words : Word) :
    (s.emitStackPush v w words).stackPart = (s.stackPush v w).stackPart := by
  have hne := nibble_succ_ne_zero (s.registers Reg.sp)
  have h01 : (0 : Fin 2) ≠ 1 := by decide
  simp (disch := decide) only [stackPart, emitStackPush, stackPush, storeReg, maskReg, mask_mask,
    setReg_other, setReg_same, setSlot_registers, armed_registers, post_registers, hne, ne_eq,
    not_false_eq_true, if_true, mirrorSlots_other, mirrorSlots_ssh, mirrorSlots_ssl, regMasks_sp,
    regMasks_sc, regMasks_ssh, regMasks_ssl, mirrorSlots_stack, setReg_stack, setSlot_stack,
    armed_stack, post_stack, Function.update_self, Function.update_of_ne h01]
  rfl

theorem emitStackPop_stackPart {s : DspState σ} (hw : ∀ half i, (s.stack half i).toNat < 2 ^ 24)
    (words : Word) : (s.emitStackPop words).2.stackPart = s.stackPop.2.stackPart := by
  have hm (half : Fin 2) (i : Fin 16) : s.stack half i &&& 0xFFFFFF = s.stack half i := by
    have hlt := hw half i
    apply BitVec.eq_of_toNat_eq
    rw [mask24, BitVec.toNat_setWidth, BitVec.toNat_setWidth]
    omega
  simp (disch := decide) only [stackPart, emitStackPop, stackPop, storeReg, maskReg, mask_mask,
    setReg_other, setReg_same, armed_registers, post_registers, mirrorSlots_other, mirrorSlots_ssh,
    mirrorSlots_ssl, regMasks_sp, regMasks_sc, regMasks_ssh, regMasks_ssl, mirrorSlots_stack,
    setReg_stack, armed_stack, post_stack, hm]
  rfl

/-- Under the mirror invariant the slots hold what SSH and SSL show. -/
theorem emitStackPop_pair {s : DspState σ}
    (hh : s.registers Reg.ssh = s.stack 0 (spIndex (s.registers Reg.sp)))
    (hl : s.registers Reg.ssl = s.stack 1 (spIndex (s.registers Reg.sp))) (words : Word) :
    (s.emitStackPop words).1 = s.stackPop.1 := by
  simp (disch := decide) only [emitStackPop, stackPop, setReg_other, post_registers,
    spIndex_nibble, hh, hl]

/-- With STACK_ERROR enabled the two ways of posting it set the same bits. -/
theorem setPending_eq_add {p : InterruptPipeline} (hi : p.ipl Interrupt.stackError ≠ -1) :
    p.add Interrupt.stackError = p.setPending Interrupt.stackError := by
  have hlt : (Interrupt.stackError : Fin Interrupt.count).val < Interrupt.count := by decide
  rw [InterruptPipeline.add, dif_pos hlt, if_neg hi]

/-- SSH and SSL show the slots SP names. -/
def Mirrors (s : DspState σ) : Prop :=
  s.registers Reg.ssh = s.stack 0 (spIndex (s.registers Reg.sp)) ∧
    s.registers Reg.ssl = s.stack 1 (spIndex (s.registers Reg.sp))

/-- Two ways the inlined operations part from the core's own. A slot wider than 24 bits is
cut when it becomes SSH, and a disabled STACK_ERROR is posted all the same. -/
theorem jit_stack_differs :
    let s : DspState Unit := ((new ⟨[], [], []⟩ ⟨fun _ => 0, ()⟩).setReg Reg.sp 1).setSlot 0 0
      0x1000000
    let t : DspState Unit := ((new ⟨[], [], []⟩ ⟨fun _ => 0, ()⟩).setReg Reg.sp 15).setInterrupts
      { InterruptPipeline.new with ipl := fun _ => -1 }
    s.Mirrors ∧ (s.emitStackPop 2).2.registers Reg.ssh ≠ s.stackPop.2.registers Reg.ssh ∧
    t.Mirrors ∧ (t.emitStackPush 0 0 8).interrupts.pending Interrupt.stackError ≠
      (t.stackPush 0 0).interrupts.pending Interrupt.stackError :=
  ⟨⟨rfl, rfl⟩, by decide, ⟨rfl, rfl⟩, by decide⟩

/-- From a mirrored state with 24-bit slots, compiled code and the core leave the same
stack and pop the same pair, set the fault budget in the same states, and, unless
STACK_ERROR is disabled, post it alike. -/
theorem jit_stack_agrees {s : DspState σ} (hm : s.Mirrors)
    (hw : ∀ half i, (s.stack half i).toNat < 2 ^ 24) (v w words : Word) :
    (s.emitStackPush v w words).stackPart = (s.stackPush v w).stackPart ∧
    (s.emitStackPop words).2.stackPart = s.stackPop.2.stackPart ∧
    (s.emitStackPop words).1 = s.stackPop.1 ∧
    (s.emitStackPush v w words).interrupts.faultBudget =
      (if s.PushFaults then words else s.interrupts.faultBudget) ∧
    (s.stackPush v w).interrupts.faultBudget =
      (if s.PushFaults then s.faultBudgetHint else s.interrupts.faultBudget) ∧
    (s.emitStackPop words).2.interrupts.faultBudget =
      (if s.PopFaults then words else s.interrupts.faultBudget) ∧
    s.stackPop.2.interrupts.faultBudget =
      (if s.PopFaults then s.faultBudgetHint else s.interrupts.faultBudget) ∧
    (s.interrupts.ipl Interrupt.stackError ≠ -1 →
      (s.emitStackPush v w words).interrupts.pendingBits =
        (s.stackPush v w).interrupts.pendingBits ∧
      (s.emitStackPop words).2.interrupts.pendingBits =
        s.stackPop.2.interrupts.pendingBits) := by
  refine ⟨emitStackPush_stackPart s v w words, emitStackPop_stackPart hw words,
    emitStackPop_pair hm.1 hm.2 words, ?_, ?_, ?_, ?_, fun hi => ⟨?_, ?_⟩⟩
  · rw [emitStackPush_interrupts, apply_ite InterruptPipeline.faultBudget]
  · rw [stackPush_interrupts, apply_ite InterruptPipeline.faultBudget]
    rfl
  · rw [emitStackPop_interrupts, apply_ite InterruptPipeline.faultBudget]
  · rw [stackPop_interrupts, apply_ite InterruptPipeline.faultBudget]
    rfl
  · rw [emitStackPush_interrupts, stackPush_interrupts]
    simp only [postStackError, raiseStackError, setPending_eq_add hi]
    split <;> rfl
  · rw [emitStackPop_interrupts, stackPop_interrupts]
    simp only [postStackError, raiseStackError, setPending_eq_add hi]
    split <;> rfl

/-- A full stack on a reset core: the push overflows into slot 0 and posts the error. -/
theorem jit_stack_agrees_full :
    let s : DspState Unit := (new ⟨[], [], []⟩ ⟨fun _ => 0, ()⟩).setReg Reg.sp 15
    s.PushFaults ∧ (s.emitStackPush 7 9 8).stackPart = (s.stackPush 7 9).stackPart :=
  ⟨by decide, (jit_stack_agrees (s := (new ⟨[], [], []⟩ ⟨fun _ => 0, ()⟩).setReg Reg.sp 15)
    ⟨rfl, rfl⟩ (fun _ _ => (by decide : 0 < 2 ^ 24)) 7 9 8).1⟩

end Dsp56300.DspState
