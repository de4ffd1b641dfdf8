import Dsp56300.Core.DecodeTable
import Dsp56300.Emu.Arbitration
import Dsp56300.Emu.CompiledBlocks
import Dsp56300.Emu.CoreWidths
import Dsp56300.Emu.HostRuns

/-! Widths are kept by every step alone, and what the steps rely on for it. -/

namespace Dsp56300

open Emitter Lib.Paths

variable {σ : Type}

/-- What compiled code calls that changes the core. -/
inductive Helper where
  | updateRn (numreg : Fin 8) (modifier : Word)
  | writeSsh (value : Word)
  | readSsh
  | writeSshTos (value : Word)
  | writeSsl (value : Word)
  | writeSp (value : Word)
  | readMem (space : MemSpace) (address : Word)
  | writeMem (space : MemSpace) (address value : Word)
  | readAccu24 (acc : Accumulator)

/-- The core behind a call. -/
def Helper.call (c : Helper) (s : DspState σ) : DspState σ :=
  match c with
  | .updateRn numreg modifier => s.updateRn numreg modifier
  | .writeSsh value => s.jitWriteSsh value
  | .readSsh => s.jitReadSsh.2
  | .writeSshTos value => s.jitWriteSshTos value
  | .writeSsl value => s.jitWriteSsl value
  | .writeSp value => s.jitWriteSp value
  | .readMem space address => { s with world := (s.map.readMemory space address s.world).2 }
  | .writeMem space address value => s.jitWriteMem space address value
  | .readAccu24 acc => (s.jitReadAccu24 acc).2

namespace DspState.Within

variable {s : DspState σ}

theorem readAccu24 (h : s.Within) (d : Accumulator) : (s.jitReadAccu24 d).2.Within := by
  obtain ⟨-, w, hw, heq, -⟩ :=
    DspState.jitReadAccu24_congr (u := s) (s := s) (d := d) rfl rfl rfl rfl
  rw [heq]
  exact h.setReg (sticky_stored h.stored hw)

theorem call (h : s.Within) (c : Helper) : (c.call s).Within := by
  cases c with
  | updateRn numreg modifier =>
    exact (updateRn_same (s := s) (u := s) (i := numreg) modifier rfl rfl).within h
  | writeSsh value => exact (aside_jitWriteSsh value).within s h
  | readSsh => exact aside_jitReadSsh.within s h
  | writeSshTos value => exact (aside_jitWriteSshTos value).within s h
  | writeSsl value => exact (aside_jitWriteSsl value).within s h
  | writeSp value => exact (aside_jitWriteSp value).within s h
  | readMem space address =>
    exact h.same ⟨rfl, rfl, rfl, rfl, fun hm => hm.readMemory space address⟩
  | writeMem space address value => exact h.same (jitWriteMem_sameCore ..)
  | readAccu24 acc => exact h.readAccu24 acc

end DspState.Within

/-- From a core within its widths every stretch of compiled code leads to one, whatever has been
emitted before it and is deferred, with 56 bits in each accumulator; so do the helpers it calls,
`advance_pc`, interrupts and their delivery. -/
theorem widths_step {s : DspState σ} (h : s.Within) :
    (∀ (code : BlockCode) left w, Path wholeBlock code (.start (.enter s)) left w →
      w.point.state.alu.dsp.Within ∧ w.finalize.point.state.Within ∧
        ∀ d, Packs (w.point.state.alu.acc d)) ∧
    (∀ c : Helper, (c.call s).Within) ∧
    s.advancePc.Within ∧ s.processPendingInterrupts.Within ∧ s.deliverArmedFault.Within ∧
    ∀ inter, (Machine.addInterrupt inter s).Within := by
  refine ⟨fun code left w hw => ?_, h.call, h.advancePc, h.processPendingInterrupts,
    h.deliverArmedFault, fun inter => h.setUnlatched (InterruptPipeline.add_latched ..)⟩
  obtain ⟨u, -, hmatches⟩ := hw.simulate (fun _ _ _ _ ha h => h.act ha)
    (fun _ _ _ _ he h => h.exit he) (Walk.matches_start h)
  have hvalid := hmatches.point.agrees.agrees.left
  exact ⟨hvalid.within, hvalid.finalize_within, hvalid.packed⟩

/-- What compiled code leaves of a core just reset. -/
theorem widths_step_reset :
    let s : DspState Unit := .new ⟨[], [], []⟩ ⟨fun _ => 0, ()⟩
    (∀ (code : BlockCode) left w, Path wholeBlock code (.start (.enter s)) left w →
      w.point.state.alu.dsp.Within ∧ w.finalize.point.state.Within ∧
        ∀ d, Packs (w.point.state.alu.acc d)) ∧
    (∀ c : Helper, (c.call s).Within) ∧
    s.advancePc.Within ∧ s.processPendingInterrupts.Within ∧ s.deliverArmedFault.Within ∧
    ∀ inter, (Machine.addInterrupt inter s).Within :=
  widths_step (DspState.within_new MemoryMap.holds_unmapped)

/-! Registers, PC and memory words alone are not enough: what a stack slot or a latch of the
interrupt pipeline has too much comes out of it. -/

/-- Registers, PC and memory words hold no more than their bits. -/
structure DspState.InRange (s : DspState σ) : Prop where
  registers : ∀ r, maskReg r (s.registers r) = s.registers r
  pc : Is24 s.pc
  heap : ∀ n, Is24 (s.world.heap n)

/-- A core just reset, with a call in the first word of P memory. -/
def callAtReset : DspState Unit :=
  .new ⟨[], [], [⟨0, 0x100, .buffer 0 0⟩]⟩ ⟨fun n => if n = 0 then 0x0D0000 else 0, ()⟩

/-- Two words are stacked, the lower one of 25 bits. -/
def wideSlot : DspState Unit := (callAtReset.setReg Reg.sp 2).setSlot 0 1 0x1000000

/-- An interrupt taken. -/
def interruptTaken (vectorAddr : Word) (iplToRaise : Byte) : DspState Unit :=
  callAtReset.setInterrupts { callAtReset.interrupts with vectorAddr, iplToRaise }

/-- A fast interrupt that is about to return. -/
def returnDue (savedPc : Word) : DspState Unit :=
  { callAtReset with pc := 2 }.setInterrupts { callAtReset.interrupts with
    state := .fast, pipelineStage := 2, vectorAddr := 0, savedPc }

theorem decode_jsr : decode 0x0D0000 = .jsr 0 := by
  rw [decode_at 114 rfl (by decide) (by decide) (by decide)]
  rfl

/-- A call at the vector raises the level that was latched. -/
theorem DspState.deliverArmedFault_sr {s : DspState σ}
    (h : isSubroutineCall (decode (s.map.readMemory .p s.interrupts.vectorAddr s.world).1) = true) :
    ∃ kept, s.deliverArmedFault.registers Reg.sr =
      kept ||| (s.interrupts.iplToRaise.setWidth 32 <<< Sr.i0) := by
  have hlatched (t : DspState σ) (v w : Word) :
      (t.stackPush v w).interrupts.iplToRaise = t.interrupts.iplToRaise := by
    have hadd := congrArg (·.2.2) (t.interrupts.add_latched Interrupt.stackError)
    rw [stackPush_interrupts]
    split
    · exact hadd
    · rfl
  have hfetched : ∃ t : DspState σ, t.interrupts.state = .fast ∧
      t.interrupts.iplToRaise = s.interrupts.iplToRaise ∧ s.deliverArmedFault.registers =
        (t.detectLongInterrupt (s.map.readMemory .p s.interrupts.vectorAddr s.world).1).registers :=
    ⟨{ s with
        pc := s.interrupts.vectorAddr
        interrupts := { s.interrupts with
          savedPc := s.pc, state := .fast, faultBudget := invalidFaultBudget }
        world := (s.map.readMemory .p s.interrupts.vectorAddr s.world).2 }, rfl, rfl, rfl⟩
  obtain ⟨t, hstate, hlevel, hregisters⟩ := hfetched
  have hlong : t.interrupts.state ≠ .long := by
    rw [hstate]
    decide
  rw [hregisters, detectLongInterrupt, if_pos ⟨h, hlong⟩, ← hlevel]
  simp only [setReg_same, setReg_interrupts, hlatched]
  exact ⟨_, rfl⟩

theorem inRange_reset : callAtReset.InRange := by
  refine ⟨by decide, by decide, fun n => ?_⟩
  change Is24 (if n = 0 then 0x0D0000 else 0)
  split <;> decide

theorem inRange_lost :
    (wideSlot.InRange ∧ ¬ (Helper.call .readSsh wideSlot).InRange) ∧
    ((interruptTaken 0x1000000 0).InRange ∧
      ¬ (interruptTaken 0x1000000 0).deliverArmedFault.InRange) ∧
    ((interruptTaken 0 16).InRange ∧ ¬ (interruptTaken 0 16).deliverArmedFault.InRange) ∧
    ((returnDue 0x1000000).InRange ∧ ¬ (returnDue 0x1000000).processPendingInterrupts.InRange) := by
  have hmemory := inRange_reset.heap
  have hpc := (interruptTaken 0x1000000 0).deliverArmedFault_spec.2.1
  have hcall : isSubroutineCall (decode
      ((interruptTaken 0 16).map.readMemory .p 0 (interruptTaken 0 16).world).1) = true := by
    have hword : ((interruptTaken 0 16).map.readMemory .p 0 (interruptTaken 0 16).world).1 =
        0x0D0000 := by decide
    rw [hword, decode_jsr]
    rfl
  refine ⟨⟨⟨by decide, by decide, hmemory⟩, fun h => ?_⟩,
    ⟨⟨by decide, by decide, hmemory⟩, fun h => ?_⟩, ⟨⟨by decide, by decide, hmemory⟩, fun h => ?_⟩,
    ⟨⟨by decide, by decide, hmemory⟩, fun h => ?_⟩⟩
  · exact absurd (h.registers Reg.ssh) (by decide)
  · have hp := h.pc
    rw [hpc] at hp
    exact absurd hp (by decide)
  · -- SR has no bit 12
    obtain ⟨kept, hsr⟩ := DspState.deliverArmedFault_sr hcall
    have hr := h.registers Reg.sr
    rw [hsr] at hr
    have hlevel : ((interruptTaken 0 16).interrupts.iplToRaise.setWidth 32 <<< Sr.i0 :
        Word).getLsbD 12 = true := by decide
    have hmask : (regMasks Reg.sr).getLsbD 12 = false := by decide
    have hbit := congrArg (·.getLsbD 12) hr
    simp only [maskReg, BitVec.getLsbD_and, BitVec.getLsbD_or, hlevel, hmask, Bool.or_true,
      Bool.and_false] at hbit
    exact absurd hbit (by decide)
  · exact absurd h.pc (by decide +kernel)

end Dsp56300
