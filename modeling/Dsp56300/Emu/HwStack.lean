import Dsp56300.Emu.Interrupts
import Dsp56300.Lib.Runs

namespace Dsp56300

/-- What the hardware stack is: a six-bit pointer (a slot number under the sticky SE and
UF bits), a five-bit counter, and sixteen pairs of 24-bit words. -/
structure HwStack where
  sp : BitVec 6
  sc : BitVec 5
  slots : Fin 2 → Fin 16 → BitVec 24

namespace HwStack

def slotOf (sp : BitVec 6) : Fin 16 := (sp.setWidth 4).toFin

def setSlot (h : HwStack) (half : Fin 2) (idx : Fin 16) (v : BitVec 24) : HwStack :=
  { h with slots := Function.update h.slots half (Function.update (h.slots half) idx v) }

/-- The slot number counts up; its carry latches SE. -/
def up (sp : BitVec 6) : BitVec 6 := (sp &&& 0x30) ||| ((sp &&& 0xF) + 1)

/-- The slot number counts down; its borrow latches SE and UF. -/
def down (sp : BitVec 6) : BitVec 6 := (sp &&& 0x30) ||| ((sp &&& 0xF) - 1)

def grow (h : HwStack) : HwStack := { h with sp := up h.sp, sc := h.sc + 1 }

def pop (h : HwStack) : HwStack := { h with sp := down h.sp, sc := h.sc - 1 }

def pushHigh (h : HwStack) (v : BitVec 24) : HwStack := h.grow.setSlot 0 (slotOf (up h.sp)) v

def push (h : HwStack) (v w : BitVec 24) : HwStack := (h.pushHigh v).setSlot 1 (slotOf (up h.sp)) w

/-- Rewriting the top of an empty stack is an underflow. -/
def writeTop (h : HwStack) (v : BitVec 24) : HwStack :=
  if slotOf h.sp = 0 then { h with sp := h.sp ||| 0x30 } else h.setSlot 0 (slotOf h.sp) v

def writeLow (h : HwStack) (v : BitVec 24) : HwStack := h.setSlot 1 (slotOf h.sp) v

def writeSp (h : HwStack) (v : BitVec 6) : HwStack := { h with sp := v }

end HwStack

namespace DspState

variable {σ : Type}

/-- The part of the state the hardware stack lives in. -/
def stackPart (s : DspState σ) : Word × Word × Word × Word × (Fin 2 → Fin 16 → Word) :=
  (s.registers Reg.sp, s.registers Reg.sc, s.registers Reg.ssh, s.registers Reg.ssl, s.stack)

/-- The state holds the stack `h`, with SSH and SSL showing its top pair. -/
structure Represents (s : DspState σ) (h : HwStack) : Prop where
  sp : s.registers Reg.sp = h.sp.setWidth 32
  sc : s.registers Reg.sc = h.sc.setWidth 32
  ssh : s.registers Reg.ssh = (h.slots 0 (HwStack.slotOf h.sp)).setWidth 32
  ssl : s.registers Reg.ssl = (h.slots 1 (HwStack.slotOf h.sp)).setWidth 32
  slots : ∀ half i, s.stack half i = (h.slots half i).setWidth 32

theorem Represents.congr {s t : DspState σ} {h : HwStack} (hs : s.Represents h)
    (he : t.stackPart = s.stackPart) : t.Represents h := by
  simp only [stackPart, Prod.mk.injEq] at he
  obtain ⟨hp, hc, hh, hl, hk⟩ := he
  exact ⟨hp ▸ hs.sp, hc ▸ hs.sc, hh ▸ hs.ssh, hl ▸ hs.ssl, by rw [hk]; exact hs.slots⟩

theorem stackPart_setReg (s : DspState σ) {r : RegIdx} (v : Word)
    (hr : r ≠ Reg.sp ∧ r ≠ Reg.sc ∧ r ≠ Reg.ssh ∧ r ≠ Reg.ssl) :
    (s.setReg r v).stackPart = s.stackPart := by
  obtain ⟨hp, hc, hh, hl⟩ := hr
  simp [stackPart, setReg, hp.symm, hc.symm, hh.symm, hl.symm]

@[simp] theorem stackPart_setInterrupts (s : DspState σ) (p : InterruptPipeline) :
    (s.setInterrupts p).stackPart = s.stackPart := rfl

@[simp] theorem stackPart_postStackError (s : DspState σ) :
    s.postStackError.stackPart = s.stackPart := rfl

/-! The 32-bit pointer arithmetic of the source, over a six-bit pointer. -/

theorem up_spec : ∀ sp : BitVec 6,
    ((sp.setWidth 32 &&& (1#32 <<< 5)) ||| (sp.setWidth 32 &&& (1#32 <<< 4)) |||
      ((sp.setWidth 32 &&& 0xF) + 1)) &&& 0x3F = (HwStack.up sp).setWidth 32 ∧
    spIndex ((sp.setWidth 32 &&& 0xF) + 1) = HwStack.slotOf (HwStack.up sp) ∧
    (sp.setWidth 32 &&& 0xF) + 1 ≠ (0 : Word) := by decide

theorem down_spec : ∀ sp : BitVec 6,
    ((sp.setWidth 32 &&& (1#32 <<< 5)) ||| (sp.setWidth 32 &&& (1#32 <<< 4)) |||
      ((sp.setWidth 32 &&& 0xF) - 1)) &&& 0x3F = (HwStack.down sp).setWidth 32 ∧
    spIndex ((sp.setWidth 32 &&& 0xF) - 1) = HwStack.slotOf (HwStack.down sp) := by decide

theorem slotOf_spec : ∀ sp : BitVec 6,
    spIndex (sp.setWidth 32) = HwStack.slotOf sp ∧
    HwStack.slotOf (sp ||| 0x30) = HwStack.slotOf sp ∧
    (sp.setWidth 32 ||| (1#32 <<< 5) ||| (1#32 <<< 4)) &&& 0x3F =
      (sp ||| 0x30).setWidth 32 := by decide

theorem sc_spec : ∀ sc : BitVec 5,
    (sc.setWidth 32 + 1) &&& 0x1F = (sc + 1).setWidth 32 ∧
    (sc.setWidth 32 - 1) &&& 0x1F = (sc - 1).setWidth 32 := by decide

theorem mask24 (v : Word) : v &&& 0xFFFFFF = (v.setWidth 24).setWidth 32 := by
  apply BitVec.eq_of_toNat_eq
  rw [toNat_mask24, BitVec.toNat_setWidth, BitVec.toNat_setWidth]
  omega

theorem mask6 (v : Word) : v &&& 0x3F = (v.setWidth 6).setWidth 32 := by
  apply BitVec.eq_of_toNat_eq
  have h : (v &&& 0x3F).toNat = v.toNat % 2 ^ 6 := Nat.and_two_pow_sub_one_eq_mod v.toNat 6
  rw [h, BitVec.toNat_setWidth, BitVec.toNat_setWidth]
  omega

@[simp] theorem post_registers (s : DspState σ) (c : Prop) [Decidable c] :
    (if c then s.postStackError else s).registers = s.registers := by split <;> rfl

@[simp] theorem post_stack (s : DspState σ) (c : Prop) [Decidable c] :
    (if c then s.postStackError else s).stack = s.stack := by split <;> rfl

@[simp] theorem raise_registers (s : DspState σ) (c : Prop) [Decidable c] :
    (if c then s.raiseStackError else s).registers = s.registers := by split <;> rfl

@[simp] theorem raise_stack (s : DspState σ) (c : Prop) [Decidable c] :
    (if c then s.raiseStackError else s).stack = s.stack := by split <;> rfl

@[simp] theorem noteSpWrite_registers (s : DspState σ) :
    s.noteSpWrite.registers = s.registers := by unfold noteSpWrite; split <;> rfl

@[simp] theorem noteSpWrite_stack (s : DspState σ) :
    s.noteSpWrite.stack = s.stack := by unfold noteSpWrite; split <;> rfl

@[simp] theorem mirrorSlots_stack (s : DspState σ) (idx : Fin 16) :
    (s.mirrorSlots idx).stack = s.stack := rfl

@[simp] theorem mirrorSlots_ssh (s : DspState σ) (idx : Fin 16) :
    (s.mirrorSlots idx).registers Reg.ssh = s.stack 0 idx := by
  simp (disch := decide) only [mirrorSlots, setReg_other, setReg_same]

@[simp] theorem mirrorSlots_ssl (s : DspState σ) (idx : Fin 16) :
    (s.mirrorSlots idx).registers Reg.ssl = s.stack 1 idx := by
  simp only [mirrorSlots, setReg_same]

@[simp] theorem mirrorSlots_other (s : DspState σ) (idx : Fin 16) {r : RegIdx}
    (hh : r ≠ Reg.ssh) (hl : r ≠ Reg.ssl) :
    (s.mirrorSlots idx).registers r = s.registers r := by
  simp only [mirrorSlots, setReg_other _ _ hl, setReg_other _ _ hh]

/-- Reading the mirrors back from the slot SP names is all a stack operation has left
to do once pointer, counter and slots are right. -/
theorem Represents.mirror {s : DspState σ} {h : HwStack}
    (hp : s.registers Reg.sp = h.sp.setWidth 32) (hc : s.registers Reg.sc = h.sc.setWidth 32)
    (hk : ∀ half i, s.stack half i = (h.slots half i).setWidth 32) :
    (s.mirrorSlots (HwStack.slotOf h.sp)).Represents h where
  sp := by rwa [mirrorSlots_other _ _ (by decide) (by decide)]
  sc := by rwa [mirrorSlots_other _ _ (by decide) (by decide)]
  ssh := by rw [mirrorSlots_ssh, hk]
  ssl := by rw [mirrorSlots_ssl, hk]
  slots := hk

/-- Writing the low 24 bits of a word to a slot. -/
theorem slots_setSlot {s : DspState σ} {h : HwStack} (half : Fin 2) (idx : Fin 16) (v : Word)
    (hk : ∀ half i, s.stack half i = (h.slots half i).setWidth 32) :
    ∀ k i, (s.setSlot half idx (v &&& 0xFFFFFF)).stack k i =
      ((h.setSlot half idx (v.setWidth 24)).slots k i).setWidth 32 := by
  intro k i
  by_cases hf : k = half
  · subst hf
    by_cases hi : i = idx
    · subst hi
      simpa [setSlot, HwStack.setSlot] using mask24 v
    · simp [setSlot, HwStack.setSlot, hi, hk]
  · simp [setSlot, HwStack.setSlot, hf, hk]

theorem stackPush_represents {s : DspState σ} {h : HwStack} (hs : s.Represents h) (v w : Word) :
    (s.stackPush v w).Represents (h.push (v.setWidth 24) (w.setWidth 24)) := by
  obtain ⟨hsp, hidx, hne⟩ := up_spec h.sp
  simp only [stackPush, hs.sp, hidx, hne, ne_eq, not_false_eq_true, if_true]
  apply Represents.mirror (h := h.push (v.setWidth 24) (w.setWidth 24))
  · simp (disch := decide) only [setSlot_registers, setReg_other, setReg_same]
    exact hsp
  · simp (disch := decide) only [setSlot_registers, setReg_other, setReg_same, post_registers,
      hs.sc]
    exact (sc_spec h.sc).1
  · apply slots_setSlot (h := h.pushHigh (v.setWidth 24))
    apply slots_setSlot (h := h.grow)
    simp only [setReg_stack, post_stack]
    exact hs.slots

theorem jitWriteSsh_represents {s : DspState σ} {h : HwStack} (hs : s.Represents h) (v : Word) :
    (s.jitWriteSsh v).Represents (h.pushHigh (v.setWidth 24)) := by
  obtain ⟨hsp, hidx, hne⟩ := up_spec h.sp
  simp only [jitWriteSsh, hs.sp, hidx, hne, ne_eq, not_false_eq_true, if_true]
  apply Represents.mirror (h := h.pushHigh (v.setWidth 24))
  · simp (disch := decide) only [setSlot_registers, setReg_other, setReg_same]
    exact hsp
  · simp (disch := decide) only [setSlot_registers, setReg_other, setReg_same, post_registers,
      hs.sc]
    exact (sc_spec h.sc).1
  · apply slots_setSlot (h := h.grow)
    simp only [setReg_stack, post_stack]
    exact hs.slots

theorem stackPop_represents {s : DspState σ} {h : HwStack} (hs : s.Represents h) :
    s.stackPop.2.Represents h.pop := by
  obtain ⟨hsp, hidx⟩ := down_spec h.sp
  simp only [stackPop, hs.sp, hidx]
  apply Represents.mirror (h := h.pop)
  · simp (disch := decide) only [setReg_other, setReg_same]
    exact hsp
  · simp (disch := decide) only [setReg_other, setReg_same, post_registers, hs.sc]
    exact (sc_spec h.sc).2
  · simp only [setReg_stack, post_stack]
    exact hs.slots

/-- The popped pair is the pair at the top. -/
theorem stackPop_pair {s : DspState σ} {h : HwStack} (hs : s.Represents h) :
    s.stackPop.1 = ((h.slots 0 (HwStack.slotOf h.sp)).setWidth 32,
      (h.slots 1 (HwStack.slotOf h.sp)).setWidth 32) := by
  simp (disch := decide) only [stackPop, setReg_other, post_registers, hs.ssh, hs.ssl]

theorem jitWriteSshTos_represents {s : DspState σ} {h : HwStack} (hs : s.Represents h)
    (v : Word) : (s.jitWriteSshTos v).Represents (h.writeTop (v.setWidth 24)) := by
  obtain ⟨hidx, hor, hsp⟩ := slotOf_spec h.sp
  by_cases he : HwStack.slotOf h.sp = 0
  · simp only [jitWriteSshTos, HwStack.writeTop, hs.sp, hidx, he, ne_eq, not_true_eq_false,
      if_true, if_false]
    refine ⟨?_, ?_, ?_, ?_, ?_⟩
    · rw [setReg_other _ _ (by decide), setReg_same]
      exact hsp
    · simp (disch := decide) only [setReg_other, raise_registers]
      exact hs.sc
    · rw [setReg_same, setReg_stack, raise_stack, hor, he]
      exact hs.slots 0 0
    · simp (disch := decide) only [setReg_other, raise_registers, hor]
      exact hs.ssl
    · simp only [setReg_stack, raise_stack]
      exact hs.slots
  · simp only [jitWriteSshTos, HwStack.writeTop, hs.sp, hidx, he, ne_eq, not_false_eq_true, if_true,
      if_false]
    have hk := slots_setSlot 0 (HwStack.slotOf h.sp) v hs.slots
    refine ⟨?_, ?_, ?_, ?_, hk⟩
    · rw [setReg_other _ _ (by decide)]
      exact hs.sp
    · rw [setReg_other _ _ (by decide)]
      exact hs.sc
    · rw [setReg_same]
      exact hk 0 _
    · rw [setReg_other _ _ (by decide)]
      exact hs.ssl

theorem jitWriteSsl_represents {s : DspState σ} {h : HwStack} (hs : s.Represents h) (v : Word) :
    (s.jitWriteSsl v).Represents (h.writeLow (v.setWidth 24)) := by
  have hk := slots_setSlot 1 (HwStack.slotOf h.sp) v hs.slots
  simp only [jitWriteSsl, hs.sp, (slotOf_spec h.sp).1]
  refine ⟨?_, ?_, ?_, ?_, hk⟩
  · rw [setReg_other _ _ (by decide)]
    exact hs.sp
  · rw [setReg_other _ _ (by decide)]
    exact hs.sc
  · rw [setReg_other _ _ (by decide)]
    exact hs.ssh
  · rw [setReg_same, regMasks_ssl, mask24]
    simp [HwStack.writeLow, HwStack.setSlot]

theorem jitWriteSp_represents {s : DspState σ} {h : HwStack} (hs : s.Represents h) (v : Word) :
    (s.jitWriteSp v).Represents (h.writeSp (v.setWidth 6)) := by
  simp only [jitWriteSp, setReg_same, regMasks_sp, mask6, (slotOf_spec _).1]
  apply Represents.mirror (h := h.writeSp (v.setWidth 6))
  · rw [setReg_same]
    rfl
  · simp (disch := decide) only [setReg_other, post_registers, noteSpWrite_registers]
    exact hs.sc
  · simp only [setReg_stack, post_stack, noteSpWrite_stack]
    exact hs.slots

/-- The push carries into SE: the states a push posts a stack error in. -/
def PushFaults (s : DspState σ) : Prop :=
  s.registers Reg.sp &&& 0x10 = 0 ∧ ((s.registers Reg.sp &&& 0xF) + 1 : Word) &&& 0x10 ≠ 0

/-- The pop borrows from SE. -/
def PopFaults (s : DspState σ) : Prop :=
  s.registers Reg.sp &&& 0x10 = 0 ∧ ((s.registers Reg.sp &&& 0xF) - 1 : Word) &&& 0x10 ≠ 0

instance (s : DspState σ) : Decidable s.PushFaults := inferInstanceAs (Decidable (_ ∧ _))

instance (s : DspState σ) : Decidable s.PopFaults := inferInstanceAs (Decidable (_ ∧ _))

/-- All a push does to the pipeline is post a stack error. -/
theorem stackPush_interrupts (s : DspState σ) (v w : Word) :
    (s.stackPush v w).interrupts =
      if s.PushFaults then s.postStackError.interrupts else s.interrupts := by
  simp only [stackPush, mirrorSlots, setReg_interrupts, apply_ite DspState.interrupts,
    setSlot_interrupts, ite_self]
  exact if_congr Iff.rfl rfl rfl

theorem stackPop_interrupts (s : DspState σ) :
    s.stackPop.2.interrupts =
      if s.PopFaults then s.postStackError.interrupts else s.interrupts := by
  simp only [stackPop, mirrorSlots, setReg_interrupts, apply_ite DspState.interrupts]
  exact if_congr Iff.rfl rfl rfl

theorem jitWriteSsh_interrupts (s : DspState σ) (v : Word) :
    (s.jitWriteSsh v).interrupts =
      if s.PushFaults then s.postStackError.interrupts else s.interrupts := by
  simp only [jitWriteSsh, mirrorSlots, setReg_interrupts, apply_ite DspState.interrupts,
    setSlot_interrupts, ite_self]
  exact if_congr Iff.rfl rfl rfl

theorem push_room : ∀ sp : BitVec 6, HwStack.slotOf sp < 15 →
    ((sp.setWidth 32 &&& 0xF) + 1 : Word) &&& 0x10 = 0 := by decide

theorem pop_room : ∀ sp : BitVec 6, HwStack.slotOf sp ≠ 0 →
    ((sp.setWidth 32 &&& 0xF) - 1 : Word) &&& 0x10 = 0 := by decide

theorem Represents.room {s : DspState σ} {h : HwStack} (hs : s.Represents h)
    (hr : HwStack.slotOf h.sp < 15) : ¬ s.PushFaults := by
  intro hf
  apply hf.2
  rw [hs.sp]
  exact push_room h.sp hr

theorem Represents.filled {s : DspState σ} {h : HwStack} (hs : s.Represents h)
    (hr : HwStack.slotOf h.sp ≠ 0) : ¬ s.PopFaults := by
  intro hf
  apply hf.2
  rw [hs.sp]
  exact pop_room h.sp hr

end DspState

end Dsp56300
