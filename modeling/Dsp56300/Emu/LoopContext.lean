import Dsp56300.Emu.PcAdvance
import Dsp56300.Emu.RepPaths
import Dsp56300.Emu.JitStack

/-! The context of a hardware loop: LA, LC, the loop flags, and the frames stacked for it. -/

namespace Dsp56300

open Emitter

variable {σ : Type}

namespace HwStack

/-- `g` holds the entries of `h`, with anything above the top. -/
structure Covers (g h : HwStack) : Prop where
  sp : g.sp = h.sp
  sc : g.sc = h.sc
  slots : ∀ half i, i ≤ slotOf h.sp → g.slots half i = h.slots half i

variable {g h : HwStack} {v w : BitVec 24}

theorem Covers.refl (h : HwStack) : h.Covers h := ⟨rfl, rfl, fun _ _ _ => rfl⟩

theorem up_of_room : ∀ sp : BitVec 6, slotOf sp < 15 →
    down (up sp) = sp ∧ (slotOf (up sp)).val = (slotOf sp).val + 1 := by decide

theorem push_top (h : HwStack) (v w : BitVec 24) :
    (h.push v w).slots 0 (slotOf (up h.sp)) = v ∧ (h.push v w).slots 1 (slotOf (up h.sp)) = w := by
  simp [push, pushHigh, setSlot]

theorem push_below (h : HwStack) (v w : BitVec 24) (half : Fin 2) {i : Fin 16}
    (hi : i ≠ slotOf (up h.sp)) : (h.push v w).slots half i = h.slots half i := by
  have hhalf : half = 0 ∨ half = 1 := by omega
  rcases hhalf with rfl | rfl
  · simp [push, pushHigh, setSlot, grow, hi]
  · simp [push, pushHigh, setSlot, grow, hi]

/-- A push onto a stack with room covers what it covered. -/
theorem Covers.push (hg : g.Covers h) (hr : slotOf h.sp < 15) :
    (g.push v w).Covers (h.push v w) := by
  obtain ⟨-, hslot⟩ := up_of_room h.sp hr
  refine ⟨congrArg up hg.sp, congrArg (· + 1) hg.sc, fun half i hi => ?_⟩
  by_cases he : i = slotOf (up h.sp)
  · have hhalf : half = 0 ∨ half = 1 := by omega
    obtain ⟨h0, h1⟩ := h.push_top v w
    obtain ⟨g0, g1⟩ := g.push_top v w
    rw [hg.sp] at g0 g1
    rw [he]
    rcases hhalf with rfl | rfl
    · exact g0.trans h0.symm
    · exact g1.trans h1.symm
  · have hle : i ≤ slotOf h.sp := by
      have hle : i ≤ slotOf (up h.sp) := hi
      omega
    rw [push_below h v w half he, push_below g v w half (hg.sp ▸ he)]
    exact hg.slots half i hle

/-- A pop takes the pushed pair back. -/
theorem Covers.pop (hg : g.Covers (h.push v w)) (hr : slotOf h.sp < 15) :
    g.slots 0 (slotOf g.sp) = v ∧ g.slots 1 (slotOf g.sp) = w ∧ g.pop.Covers h := by
  obtain ⟨hdown, hslot⟩ := up_of_room h.sp hr
  have hsp : g.sp = up h.sp := hg.sp
  have hsc : g.sc = h.sc + 1 := hg.sc
  obtain ⟨h0, h1⟩ := h.push_top v w
  refine ⟨?_, ?_, ?_, ?_, fun half i hi => ?_⟩
  · rw [hsp]
    exact (hg.slots 0 _ le_rfl).trans h0
  · rw [hsp]
    exact (hg.slots 1 _ le_rfl).trans h1
  · change down g.sp = h.sp
    rw [hsp, hdown]
  · change g.sc - 1 = h.sc
    rw [hsc]
    exact BitVec.add_sub_cancel _ _
  · have hle : i ≤ slotOf (h.push v w).sp := by
      change i ≤ slotOf (up h.sp)
      omega
    have hne : i ≠ slotOf (up h.sp) := by omega
    exact (hg.slots half i hle).trans (push_below h v w half hne)

end HwStack

namespace DspState

open HwStack

variable {s t : DspState σ} {g h : HwStack}

/-! The stack operations of compiled code and of the core where neither end is reached. -/

theorem emitStackPush_represents (hs : s.Represents g) (v w words : Word) :
    (s.emitStackPush v w words).Represents (g.push (v.setWidth 24) (w.setWidth 24)) :=
  (stackPush_represents hs v w).congr (emitStackPush_stackPart s v w words)

theorem emitStackPop_represents (hs : s.Represents g) (words : Word) :
    (s.emitStackPop words).2.Represents g.pop :=
  (stackPop_represents hs).congr (emitStackPop_stackPart hs.bounds.2.2.2.2 words)

theorem emitStackPop_top (hs : s.Represents g) (words : Word) :
    (s.emitStackPop words).1 = ((g.slots 0 (slotOf g.sp)).setWidth 32,
      (g.slots 1 (slotOf g.sp)).setWidth 32) :=
  (emitStackPop_pair hs.bounds.1 hs.bounds.2.1 words).trans (stackPop_pair hs)

/-- What a push or a pop leaves besides the stack. -/
structure Beside (s t : DspState σ) : Prop where
  pc : t.pc = s.pc
  pcAdvance : t.pcAdvance = s.pcAdvance
  loopRep : t.loopRep = s.loopRep
  registers : ∀ r, r ≠ Reg.sp ∧ r ≠ Reg.sc ∧ r ≠ Reg.ssh ∧ r ≠ Reg.ssl →
    t.registers r = s.registers r

theorem emitStackPush_beside (s : DspState σ) (v w words : Word) :
    s.Beside (s.emitStackPush v w words) := by
  refine ⟨?_, ?_, ?_, fun r hr => ?_⟩
  · simp only [emitStackPush, storeReg, setReg, setSlot, apply_ite DspState.pc]
    split <;> rfl
  · simp only [emitStackPush, storeReg, setReg, setSlot, apply_ite DspState.pcAdvance]
    split <;> rfl
  · simp only [emitStackPush, storeReg, setReg, setSlot, apply_ite DspState.loopRep]
    split <;> rfl
  · obtain ⟨hp, hc, hh, hl⟩ := hr
    simp only [emitStackPush, storeReg, setReg_other _ _ hp, setReg_other _ _ hc,
      setReg_other _ _ hh, setReg_other _ _ hl, setSlot_registers, armed_registers]

theorem emitStackPop_beside (s : DspState σ) (words : Word) :
    s.Beside (s.emitStackPop words).2 := by
  refine ⟨?_, ?_, ?_, fun r hr => ?_⟩
  · simp only [emitStackPop, storeReg, setReg, apply_ite DspState.pc]
    split <;> rfl
  · simp only [emitStackPop, storeReg, setReg, apply_ite DspState.pcAdvance]
    split <;> rfl
  · simp only [emitStackPop, storeReg, setReg, apply_ite DspState.loopRep]
    split <;> rfl
  · obtain ⟨hp, hc, hh, hl⟩ := hr
    simp only [emitStackPop, storeReg, setReg_other _ _ hp, setReg_other _ _ hc,
      setReg_other _ _ hh, setReg_other _ _ hl, armed_registers]

theorem stackPop_beside (s : DspState σ) : s.Beside s.stackPop.2 := by
  refine ⟨?_, ?_, ?_, fun r hr => ?_⟩
  · simp only [stackPop, mirrorSlots, setReg, apply_ite DspState.pc]
    split <;> rfl
  · simp only [stackPop, mirrorSlots, setReg, apply_ite DspState.pcAdvance]
    split <;> rfl
  · simp only [stackPop, mirrorSlots, setReg, apply_ite DspState.loopRep]
    split <;> rfl
  · obtain ⟨hp, hc, hh, hl⟩ := hr
    simp only [stackPop, mirrorSlots_other _ _ hh hl, setReg_other _ _ hp, setReg_other _ _ hc,
      post_registers]

end DspState

/-- What a loop needs to find again: LA, LC, the loop flags, its frames, and whether a stack error
is posted. -/
structure LoopContext where
  la : Word
  lc : Word
  flags : Word
  stack : HwStack
  posted : Bool

namespace LoopContext

/-- The frames a DO stacks, and the context of its loop. -/
def enter (c : LoopContext) (la lc start sr : Word) : LoopContext where
  la := la
  lc := lc
  flags := 1#32 <<< Sr.lf
  stack := (c.stack.push (c.la.setWidth 24) (c.lc.setWidth 24)).push (start.setWidth 24)
    (sr.setWidth 24)
  posted := c.posted

/-- The stack has room for `n` more frames. -/
def Room (c : LoopContext) (n : Nat) : Prop := (HwStack.slotOf c.stack.sp).val + n ≤ 15

/-- LA and LC have their 24 bits. -/
def Wide (c : LoopContext) : Prop := c.la.toNat < 2 ^ 24 ∧ c.lc.toNat < 2 ^ 24

theorem Room.push {c : LoopContext} {n : Nat} (h : c.Room (n + 1)) (la : Word)
    (v w : BitVec 24) : { c with la := la, stack := c.stack.push v w : LoopContext }.Room n := by
  unfold Room at h
  obtain ⟨-, h1⟩ := HwStack.up_of_room c.stack.sp (by omega)
  change (HwStack.slotOf (HwStack.up c.stack.sp)).val + n ≤ 15
  omega

theorem Room.mono {c : LoopContext} {m n : Nat} (h : c.Room n) (hm : m ≤ n) : c.Room m := by
  unfold Room at h ⊢
  omega

theorem Room.enter {c : LoopContext} {n : Nat} (h : c.Room (n + 2)) (la lc start sr : Word) :
    (c.enter la lc start sr).Room n :=
  ((h.push la _ _).push la (start.setWidth 24) (sr.setWidth 24) :)

end LoopContext

namespace DspState

open HwStack

/-- The loop flags of SR. -/
def loopFlags (s : DspState σ) : Word := s.registers Reg.sr &&& lfFvMask

/-- The state is in a loop context, no REP live. -/
structure InContext (t : DspState σ) (c : LoopContext) : Prop where
  la : t.registers Reg.la = c.la
  lc : t.registers Reg.lc = c.lc
  flags : t.loopFlags = c.flags
  stack : ∃ g, t.Represents g ∧ g.Covers c.stack
  posted : t.interrupts.pending Interrupt.stackError = c.posted
  loopRep : t.loopRep = false

/-- Push (LA, LC), set LA, push (loop start, SR), set the loop flags and LC. -/
def doSetup (s : DspState σ) (laVal lcVal retPc : Word) : DspState σ :=
  let s := s.emitStackPush (s.registers Reg.la) (s.registers Reg.lc) 3
  let s := s.storeReg Reg.la laVal
  let srVal := s.registers Reg.sr
  let s := s.emitStackPush (maskPc retPc) srVal 3
  let s := s.storeReg Reg.sr ((srVal ||| (1 <<< Sr.lf)) &&& ~~~((1 : Word) <<< Sr.fv))
  s.storeReg Reg.lc lcVal

/-- Pop (loop start, SR) for the loop flags, then pop (LA, LC). -/
def enddoCleanup (s : DspState σ) : DspState σ :=
  let (frame, s) := s.emitStackPop 5
  let s := s.storeReg Reg.sr ((s.registers Reg.sr &&& ~~~lfFvMask) ||| (frame.2 &&& lfFvMask))
  let (outer, s) := s.emitStackPop 5
  (s.storeReg Reg.la outer.1).storeReg Reg.lc outer.2

/-! The loop flags through SR's mask and through a 24-bit slot. -/

theorem or_and_absorb (v m : Word) : (v ||| m) &&& m = m := by
  apply BitVec.eq_of_getLsbD_eq
  intro i _
  rw [BitVec.getLsbD_and, BitVec.getLsbD_or]
  cases m.getLsbD i <;> simp

theorem entered_flags (v : Word) :
    (((v ||| (1 <<< Sr.lf)) &&& ~~~((1 : Word) <<< Sr.fv)) &&& regMasks Reg.sr) &&& lfFvMask =
      1#32 <<< Sr.lf := by
  have hc : ~~~((1 : Word) <<< Sr.fv) &&& (regMasks Reg.sr &&& lfFvMask) = 1#32 <<< Sr.lf := by
    decide
  rw [BitVec.and_assoc, BitVec.and_assoc, hc]
  exact or_and_absorb v _

/-- The flags of the stacked SR come back, whatever SR is by then. -/
theorem restored_flags (v w : Word) :
    ((v &&& ~~~lfFvMask) ||| (w &&& lfFvMask)) &&& lfFvMask = w &&& lfFvMask := by
  apply BitVec.eq_of_getLsbD_eq
  intro i hi
  simp only [BitVec.getLsbD_and, BitVec.getLsbD_or, BitVec.getLsbD_not]
  cases lfFvMask.getLsbD i <;> simp

theorem stacked_flags (w : Word) : (w.setWidth 24).setWidth 32 &&& lfFvMask = w &&& lfFvMask := by
  have hc : (0xFFFFFF : Word) &&& lfFvMask = lfFvMask := by decide
  rw [← mask24, BitVec.and_assoc, hc]

theorem stacked_wide {v : Word} (hv : v.toNat < 2 ^ 24) : (v.setWidth 24).setWidth 32 = v := by
  apply BitVec.eq_of_toNat_eq
  rw [BitVec.toNat_setWidth, BitVec.toNat_setWidth]
  omega

theorem and_wide {v : Word} (hv : v.toNat < 2 ^ 24) : v &&& 0xFFFFFF = v :=
  (mask24 v).trans (stacked_wide hv)

variable {s t : DspState σ} {c : LoopContext}

/-- The stack of a context with room takes a frame. -/
theorem InContext.push (hs : s.InContext c) (hr : c.Room 1) (v w words : Word) :
    (s.emitStackPush v w words).InContext
      { c with stack := c.stack.push (v.setWidth 24) (w.setWidth 24) } := by
  obtain ⟨g, hg, hcov⟩ := hs.stack
  have hslot : slotOf c.stack.sp < 15 := by
    unfold LoopContext.Room at hr
    omega
  have hb := emitStackPush_beside s v w words
  have hi : (s.emitStackPush v w words).interrupts = s.interrupts :=
    (emitStackPush_interrupts s v w words).trans (if_neg (hg.room (hcov.sp ▸ hslot)))
  exact ⟨(hb.registers _ (by decide)).trans hs.la, (hb.registers _ (by decide)).trans hs.lc,
    (congrArg (· &&& lfFvMask) (hb.registers Reg.sr (by decide))).trans hs.flags,
    ⟨_, emitStackPush_represents hg v w words, hcov.push hslot⟩,
    (congrArg (InterruptPipeline.pending · _) hi).trans hs.posted, hb.loopRep.trans hs.loopRep⟩

/-- A register store beside the stack. -/
theorem InContext.stack_setReg (hs : s.InContext c) (r : RegIdx) (v : Word)
    (hr : r ≠ Reg.sp ∧ r ≠ Reg.sc ∧ r ≠ Reg.ssh ∧ r ≠ Reg.ssl) :
    ∃ g, (s.setReg r v).Represents g ∧ g.Covers c.stack := by
  obtain ⟨g, hg, hcov⟩ := hs.stack
  exact ⟨g, hg.congr (stackPart_setReg s v hr), hcov⟩

theorem InContext.setLa (hs : s.InContext c) (v : Word) :
    (s.setReg Reg.la v).InContext { c with la := v } := by
  refine ⟨setReg_same .., ?_, ?_, hs.stack_setReg _ _ (by decide), hs.posted, hs.loopRep⟩
  · rw [setReg_other _ _ (by decide)]
    exact hs.lc
  · rw [loopFlags, setReg_other _ _ (by decide)]
    exact hs.flags

theorem InContext.setLc (hs : s.InContext c) (v : Word) :
    (s.setReg Reg.lc v).InContext { c with lc := v } := by
  refine ⟨?_, setReg_same .., ?_, hs.stack_setReg _ _ (by decide), hs.posted, hs.loopRep⟩
  · rw [setReg_other _ _ (by decide)]
    exact hs.la
  · rw [loopFlags, setReg_other _ _ (by decide)]
    exact hs.flags

theorem InContext.setSr (hs : s.InContext c) {v flags : Word} (hv : v &&& lfFvMask = flags) :
    (s.setReg Reg.sr v).InContext { c with flags := flags } := by
  refine ⟨?_, ?_, ?_, hs.stack_setReg _ _ (by decide), hs.posted, hs.loopRep⟩
  · rw [setReg_other _ _ (by decide)]
    exact hs.la
  · rw [setReg_other _ _ (by decide)]
    exact hs.lc
  · rw [loopFlags, setReg_same]
    exact hv

/-- A DO enters its loop's context. -/
theorem InContext.doSetup (hs : s.InContext c) (hr : c.Room 2) (laVal lcVal retPc : Word) :
    (s.doSetup laVal lcVal retPc).InContext
      (c.enter (maskReg Reg.la laVal) (maskReg Reg.lc lcVal) (maskPc retPc)
        (s.registers Reg.sr)) := by
  have h1 := (hs.push (hr.mono (by decide)) (s.registers Reg.la) (s.registers Reg.lc) 3).setLa
    (maskReg Reg.la laVal)
  have h2 := (h1.push (hr.push _ _ _) (maskPc retPc) (s.registers Reg.sr) 3).setSr
    (entered_flags (s.registers Reg.sr))
  have h3 := h2.setLc (maskReg Reg.lc lcVal)
  have hsr : ((s.emitStackPush (s.registers Reg.la) (s.registers Reg.lc) 3).storeReg Reg.la
      laVal).registers Reg.sr = s.registers Reg.sr :=
    (setReg_other _ _ (by decide)).trans ((emitStackPush_beside s _ _ 3).registers _ (by decide))
  unfold DspState.doSetup LoopContext.enter
  dsimp only
  rw [hsr, ← hs.la, ← hs.lc]
  exact h3

/-- What the stack of a context with a frame on top holds there. -/
theorem InContext.top {v w : BitVec 24}
    (hs : s.InContext { c with stack := c.stack.push v w }) (hr : c.Room 1) :
    ∃ g, s.Represents g ∧ slotOf g.sp ≠ 0 ∧ g.slots 0 (slotOf g.sp) = v ∧
      g.slots 1 (slotOf g.sp) = w ∧ g.pop.Covers c.stack := by
  obtain ⟨g, hg, hcov⟩ := hs.stack
  have hslot : slotOf c.stack.sp < 15 := by
    unfold LoopContext.Room at hr
    omega
  obtain ⟨hv, hw, hpop⟩ := hcov.pop hslot
  obtain ⟨-, hup⟩ := HwStack.up_of_room c.stack.sp hslot
  have hsp : g.sp = up c.stack.sp := hcov.sp
  refine ⟨g, hg, ?_, hv, hw, hpop⟩
  rw [hsp]
  omega

theorem InContext.of_pop {v w : BitVec 24}
    (hs : s.InContext { c with stack := c.stack.push v w }) {g : HwStack} (hb : s.Beside t)
    (hi : t.interrupts = s.interrupts) (hg : t.Represents g) (hcov : g.Covers c.stack) :
    t.InContext c :=
  ⟨(hb.registers _ (by decide)).trans hs.la, (hb.registers _ (by decide)).trans hs.lc,
    (congrArg (· &&& lfFvMask) (hb.registers Reg.sr (by decide))).trans hs.flags, ⟨g, hg, hcov⟩,
    (congrArg (InterruptPipeline.pending · _) hi).trans hs.posted, hb.loopRep.trans hs.loopRep⟩

/-- A pop of the core takes the last frame off. -/
theorem InContext.pop {v w : BitVec 24}
    (hs : s.InContext { c with stack := c.stack.push v w }) (hr : c.Room 1) :
    s.stackPop.1 = (v.setWidth 32, w.setWidth 32) ∧ s.stackPop.2.InContext c := by
  obtain ⟨g, hg, hne, hv, hw, hpop⟩ := hs.top hr
  refine ⟨by rw [stackPop_pair hg, hv, hw], hs.of_pop (stackPop_beside s) ?_
    (stackPop_represents hg) hpop⟩
  exact (stackPop_interrupts s).trans (if_neg (hg.filled hne))

/-- So does a pop of compiled code. -/
theorem InContext.emitPop {v w : BitVec 24}
    (hs : s.InContext { c with stack := c.stack.push v w }) (hr : c.Room 1) (words : Word) :
    (s.emitStackPop words).1 = (v.setWidth 32, w.setWidth 32) ∧
      (s.emitStackPop words).2.InContext c := by
  obtain ⟨g, hg, hne, hv, hw, hpop⟩ := hs.top hr
  refine ⟨by rw [emitStackPop_top hg, hv, hw], hs.of_pop (emitStackPop_beside s words) ?_
    (emitStackPop_represents hg words) hpop⟩
  exact (emitStackPop_interrupts s words).trans (if_neg (hg.filled hne))

section Leaving

variable {la lc start sr : Word} (hs : s.InContext (c.enter la lc start sr)) (hr : c.Room 2)
  (hw : c.Wide) (hf : sr &&& lfFvMask = c.flags)
include hs hr hw hf

/-- The two pops of a loop end give the context of the DO back. -/
theorem InContext.unstack : s.unstackSr.unstackLoop.InContext c := by
  obtain ⟨hp, h1⟩ := InContext.pop
    (c := { c.enter la lc start sr with
      stack := c.stack.push (c.la.setWidth 24) (c.lc.setWidth 24) }) hs (hr.push la _ _)
  have hu : s.unstackSr.InContext { c.enter la lc start sr with
      flags := c.flags, stack := c.stack.push (c.la.setWidth 24) (c.lc.setWidth 24) } := by
    refine h1.setSr ((restored_flags _ _).trans ?_)
    rw [hp, stacked_flags, hf]
  obtain ⟨hq, h2⟩ := InContext.pop
    (c := { c.enter la lc start sr with flags := c.flags, stack := c.stack }) hu
    (hr.mono (by decide))
  unfold unstackLoop
  rw [hq, stacked_wide hw.1, stacked_wide hw.2]
  exact (h2.setLa c.la).setLc c.lc

/-- So do those of an annulled DO. -/
theorem InContext.cleanup : s.enddoCleanup.InContext c := by
  obtain ⟨hp, h1⟩ := InContext.emitPop
    (c := { c.enter la lc start sr with
      stack := c.stack.push (c.la.setWidth 24) (c.lc.setWidth 24) }) hs (hr.push la _ _) 5
  have hm : regMasks Reg.sr &&& lfFvMask = lfFvMask := by decide
  have hflags : maskReg Reg.sr (((s.emitStackPop 5).2.registers Reg.sr &&& ~~~lfFvMask) |||
      ((s.emitStackPop 5).1.2 &&& lfFvMask)) &&& lfFvMask = c.flags := by
    rw [maskReg, BitVec.and_assoc, hm, restored_flags, hp, stacked_flags, hf]
  have h2 := h1.setSr hflags
  obtain ⟨hq, h3⟩ := InContext.emitPop
    (c := { c.enter la lc start sr with flags := c.flags, stack := c.stack }) h2
    (hr.mono (by decide)) 5
  have hla : maskReg Reg.la c.la = c.la := and_wide hw.1
  have hlc : maskReg Reg.lc c.lc = c.lc := and_wide hw.2
  have h4 := (h3.setLa c.la).setLc c.lc
  unfold enddoCleanup storeReg
  dsimp only
  rw [hq, stacked_wide hw.1, stacked_wide hw.2, hla, hlc]
  exact h4

end Leaving

end DspState

end Dsp56300
