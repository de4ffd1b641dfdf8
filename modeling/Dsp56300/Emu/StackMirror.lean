import Dsp56300.Emu.HwStack

namespace Dsp56300.DspState

variable {σ : Type}

/-- SSH and SSL mirror the top pair of some well-formed hardware stack. -/
def Mirrored (s : DspState σ) : Prop := ∃ h, s.Represents h

theorem Mirrored.congr {s t : DspState σ} (hs : s.Mirrored) (he : t.stackPart = s.stackPart) :
    t.Mirrored := by
  obtain ⟨h, hs⟩ := hs
  exact ⟨h, hs.congr he⟩

theorem Mirrored.setReg {s : DspState σ} (hs : s.Mirrored) {r : RegIdx} (v : Word)
    (hr : r ≠ Reg.sp ∧ r ≠ Reg.sc ∧ r ≠ Reg.ssh ∧ r ≠ Reg.ssl) : (s.setReg r v).Mirrored :=
  hs.congr (stackPart_setReg s v hr)

theorem Mirrored.stackPush {s : DspState σ} (hs : s.Mirrored) (v w : Word) :
    (s.stackPush v w).Mirrored := by
  obtain ⟨h, hs⟩ := hs
  exact ⟨_, stackPush_represents hs v w⟩

theorem Mirrored.stackPop {s : DspState σ} (hs : s.Mirrored) : s.stackPop.2.Mirrored := by
  obtain ⟨h, hs⟩ := hs
  exact ⟨_, stackPop_represents hs⟩

/-- The reset state holds sixteen zero pairs. -/
theorem new_mirrored (map : MemoryMap σ) (world : World σ) : (new map world).Mirrored := by
  refine ⟨⟨0, 0, fun _ _ => 0⟩, ?_, ?_, ?_, ?_, ?_⟩ <;> first | rfl | (intro _ _; rfl)

theorem repTruncateArmedWindow_stackPart (s : DspState σ) :
    s.repTruncateArmedWindow.stackPart = s.stackPart := by
  unfold repTruncateArmedWindow
  split <;> rfl

theorem checkUnimplementedModes_stackPart (s : DspState σ) :
    s.checkUnimplementedModes.stackPart = s.stackPart := by
  simp only [checkUnimplementedModes]
  split <;> rfl

theorem advanceRep_stackPart (s : DspState σ) : s.advanceRep.stackPart = s.stackPart := by
  have hl (t : DspState σ) (v : Word) : (t.setReg Reg.lc v).stackPart = t.stackPart :=
    stackPart_setReg t v (by decide)
  simp only [advanceRep]
  split
  · rfl
  · split
    · split
      · exact hl s (s.registers Reg.lc - 1 &&& regMasks Reg.lc)
      · exact (repTruncateArmedWindow_stackPart _).trans ((hl _ _).trans
          (hl s (s.registers Reg.lc - 1 &&& regMasks Reg.lc)))
    · split
      · exact (repTruncateArmedWindow_stackPart _).trans (hl s (s.registers Reg.temp))
      · rfl

theorem Mirrored.advanceDo {s : DspState σ} (hs : s.Mirrored) : s.advanceDo.Mirrored := by
  simp only [DspState.advanceDo]
  split
  · split
    · refine .setReg (.setReg (.stackPop (.setReg (.stackPop (.setReg hs _ ?_)) _ ?_)) _ ?_) _ ?_
      all_goals decide
    · have hl := hs.setReg (r := Reg.lc) (s.registers Reg.lc - 1 &&& regMasks Reg.lc) (by decide)
      exact hl.congr rfl
  · exact hs

theorem Mirrored.advancePc {s : DspState σ} (hs : s.Mirrored) : s.advancePc.Mirrored := by
  apply Mirrored.advanceDo
  apply hs.congr
  calc s.checkUnimplementedModes.advanceRep.stackPart
      = s.checkUnimplementedModes.stackPart := advanceRep_stackPart _
    _ = s.stackPart := checkUnimplementedModes_stackPart s

/-- A long interrupt stacks its context; nothing else in a vector fetch touches the stack. -/
theorem Mirrored.detectLongInterrupt {s : DspState σ} (hs : s.Mirrored) (instr : Word) :
    (s.detectLongInterrupt instr).Mirrored := by
  simp only [DspState.detectLongInterrupt]
  split
  · refine .setReg (.setReg (.stackPush ?_ _ _) _ (by decide)) _ (by decide)
    exact hs.congr (stackPart_setInterrupts s _)
  · exact hs

theorem Mirrored.fetchVector {s : DspState σ} (hs : s.Mirrored) : s.fetchVector.Mirrored := by
  apply Mirrored.detectLongInterrupt
  exact hs.congr rfl

theorem Mirrored.deliverArmedFault {s : DspState σ} (hs : s.Mirrored) :
    s.deliverArmedFault.Mirrored := by
  refine Mirrored.congr (Mirrored.fetchVector ?_) (stackPart_setInterrupts _ _)
  exact hs.congr rfl

theorem Mirrored.tickFast {s : DspState σ} (hs : s.Mirrored) : s.tickFast.1.Mirrored := by
  simp only [DspState.tickFast]
  split
  · exact hs.congr rfl
  · refine Mirrored.congr (Mirrored.fetchVector ?_) (stackPart_setInterrupts _ _)
    exact hs.congr rfl
  · split
    · exact hs.fetchVector.congr rfl
    · exact hs.congr rfl
  · split <;> exact hs.congr rfl
  · exact hs.congr rfl
  · split <;> exact hs.congr rfl
  · exact hs

theorem Mirrored.deliverParkedFault {s : DspState σ} (hs : s.Mirrored) :
    s.deliverParkedFault.Mirrored := by
  simp only [DspState.deliverParkedFault]
  split
  · exact hs.congr rfl
  · exact Mirrored.deliverArmedFault (hs.congr rfl)

theorem Mirrored.tickIdle {s : DspState σ} (hs : s.Mirrored) : s.tickIdle.Mirrored := by
  simp only [DspState.tickIdle, DspState.tickParked, DspState.arbitrate, DspState.dispatch]
  split
  · split
    · exact Mirrored.deliverParkedFault (hs.congr (stackPart_setInterrupts s _))
    · exact hs.congr (stackPart_setInterrupts s _)
  · split
    · exact hs
    · split
      · exact hs
      · split
        · exact hs
        · split <;> exact hs.congr rfl

theorem Mirrored.processPendingInterrupts {s : DspState σ} (hs : s.Mirrored) :
    s.processPendingInterrupts.Mirrored := by
  unfold DspState.processPendingInterrupts
  split
  · exact hs
  · split
    · split
      · exact hs.tickFast.tickIdle
      · exact hs.tickFast
    · exact hs.tickIdle

/-- The operations on the hardware stack, and everything that delivers interrupts;
`other` is any step that leaves the stack and its registers alone. -/
inductive StackEvent where
  | stackPush (sshVal sslVal : Word)
  | stackPop
  | jitWriteSsh (value : Word)
  | jitReadSsh
  | jitWriteSshTos (value : Word)
  | jitWriteSsl (value : Word)
  | jitWriteSp (value : Word)
  | advancePc
  | processPendingInterrupts
  | deliverArmedFault
  | other

/-- `t` is what the event makes of `s`. -/
def stackStep (s : DspState σ) (e : StackEvent) (t : DspState σ) : Prop :=
  match e with
  | .stackPush v w => t = s.stackPush v w
  | .stackPop => t = s.stackPop.2
  | .jitWriteSsh v => t = s.jitWriteSsh v
  | .jitReadSsh => t = s.jitReadSsh.2
  | .jitWriteSshTos v => t = s.jitWriteSshTos v
  | .jitWriteSsl v => t = s.jitWriteSsl v
  | .jitWriteSp v => t = s.jitWriteSp v
  | .advancePc => t = s.advancePc
  | .processPendingInterrupts => t = s.processPendingInterrupts
  | .deliverArmedFault => t = s.deliverArmedFault
  | .other => t.stackPart = s.stackPart

theorem stackStep_mirrored (s : DspState σ) (e : StackEvent) (t : DspState σ)
    (hs : s.Mirrored) (he : stackStep s e t) : t.Mirrored := by
  obtain ⟨h, hr⟩ := id hs
  cases e with
  | stackPush v w => exact he ▸ hs.stackPush v w
  | stackPop => exact he ▸ hs.stackPop
  | jitWriteSsh v => exact he ▸ ⟨_, jitWriteSsh_represents hr v⟩
  | jitReadSsh => exact he ▸ hs.stackPop
  | jitWriteSshTos v => exact he ▸ ⟨_, jitWriteSshTos_represents hr v⟩
  | jitWriteSsl v => exact he ▸ ⟨_, jitWriteSsl_represents hr v⟩
  | jitWriteSp v => exact he ▸ ⟨_, jitWriteSp_represents hr v⟩
  | advancePc => exact he ▸ hs.advancePc
  | processPendingInterrupts => exact he ▸ hs.processPendingInterrupts
  | deliverArmedFault => exact he ▸ hs.deliverArmedFault
  | other => exact hs.congr he

/-- Representing any stack at all is the mirror invariant with the widths. -/
theorem Represents.bounds {s : DspState σ} {h : HwStack} (hs : s.Represents h) :
    s.registers Reg.ssh = s.stack 0 (spIndex (s.registers Reg.sp)) ∧
    s.registers Reg.ssl = s.stack 1 (spIndex (s.registers Reg.sp)) ∧
    (s.registers Reg.sp).toNat < 64 ∧ (s.registers Reg.sc).toNat < 32 ∧
    ∀ half i, (s.stack half i).toNat < 2 ^ 24 := by
  have hp := h.sp.isLt
  have hc := h.sc.isLt
  rw [hs.ssh, hs.ssl, hs.sp, hs.sc, (slotOf_spec h.sp).1, hs.slots, hs.slots]
  refine ⟨rfl, rfl, ?_, ?_, ?_⟩
  · rw [BitVec.toNat_setWidth]
    omega
  · rw [BitVec.toNat_setWidth]
    omega
  · intro half i
    have hk := (h.slots half i).isLt
    rw [hs.slots, BitVec.toNat_setWidth]
    omega

/-- In every state a run reaches from reset, SSH and SSL show the slots SP names, SP and
SC keep their six and five bits, and no slot is wider than 24. -/
theorem hardware_stack_mirrored (map : MemoryMap σ) (world : World σ) {es : List StackEvent}
    {s : DspState σ} (hr : Lib.Runs.Run stackStep (new map world) es s) :
    s.registers Reg.ssh = s.stack 0 (spIndex (s.registers Reg.sp)) ∧
    s.registers Reg.ssl = s.stack 1 (spIndex (s.registers Reg.sp)) ∧
    (s.registers Reg.sp).toNat < 64 ∧ (s.registers Reg.sc).toNat < 32 ∧
    ∀ half i, (s.stack half i).toNat < 2 ^ 24 := by
  obtain ⟨h, hs⟩ := hr.invariant stackStep_mirrored (new_mirrored map world)
  exact hs.bounds

/-- A push, an SP write that latches SE, and a pop, from a reset core with no memory. -/
theorem hardware_stack_mirrored_push_pop :
    let s := (((new ⟨[], [], []⟩ ⟨fun _ => 0, ()⟩).stackPush 0x123456 0xC00300).jitWriteSp
      0x12345F).stackPop.2
    s.registers Reg.ssh = s.stack 0 (spIndex (s.registers Reg.sp)) ∧
    s.registers Reg.ssl = s.stack 1 (spIndex (s.registers Reg.sp)) ∧
    (s.registers Reg.sp).toNat < 64 ∧ (s.registers Reg.sc).toNat < 32 ∧
    ∀ half i, (s.stack half i).toNat < 2 ^ 24 :=
  @hardware_stack_mirrored _ ⟨[], [], []⟩ ⟨fun _ => 0, ()⟩
    [.stackPush 0x123456 0xC00300, .jitWriteSp 0x12345F, .stackPop] _
    (.cons rfl (.cons rfl (.cons rfl (.nil _))))

end Dsp56300.DspState
