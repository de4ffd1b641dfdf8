import Dsp56300.Emu.BlockCode

/-! Compiled code run on the state. -/

namespace Dsp56300

open Lib.Programs

variable {σ : Type}

namespace DspState

/-- The state without what only stepping uses: PC and its advance, the REP flags, the cycle count
and the warnings given. -/
def data (s : DspState σ) : DspState σ :=
  { s with pc := 0, pcAdvance := 0, loopRep := false, pcOnRep := false, cycleCount := 0,
           warnedBits := 0, unimplReported := 0 }

/-- The two states differ in nothing but the last advance, the cycle count and the warnings. -/
structure Same (s t : DspState σ) : Prop where
  data : s.data = t.data
  pc : s.pc = t.pc
  loopRep : s.loopRep = t.loopRep
  pcOnRep : s.pcOnRep = t.pcOnRep

end DspState

namespace Emitter

set_option linter.constructorNameAsVariable false

/-- Operations on the data: all but the branches, the REP flags and RTI's end of an interrupt. -/
def Op.Plain : {γ : Type} → Op γ → Prop
  | _, .storePc _ | _, .storeLoopRep _ | _, .storePcOnRep _ | _, .storeInterruptState _ => False
  | _, _ => True

/-- Registers are indexed with plain numbers. -/
def regAt (idx : Nat) : RegIdx := Fin.ofNat 64 idx

/-- Register writes by number, which can reach the slot REP saves LC in. -/
def Op.WritesTemp : {γ : Type} → Op γ → Prop
  | _, .storeReg idx _ | _, .writeRegForMove idx _ => regAt idx = Reg.temp
  | _, _ => False

/-- What the operations on the data do: accumulators, address registers, the stack, memory. They
read nothing that only stepping uses, and leave PC and the REP flags alone. -/
structure DataPaths (σ : Type) where
  run : Code.Handler Op (DspState σ)
  data : ∀ (γ : Type) (op : Op γ) (s t : DspState σ), s.data = t.data →
    (run γ op s).1 = (run γ op t).1 ∧ (run γ op s).2.data = (run γ op t).2.data
  pc : ∀ (γ : Type) (op : Op γ) (s : DspState σ), (run γ op s).2.pc = s.pc
  pcAdvance : ∀ (γ : Type) (op : Op γ) (s : DspState σ), (run γ op s).2.pcAdvance = s.pcAdvance
  loopRep : ∀ (γ : Type) (op : Op γ) (s : DspState σ), (run γ op s).2.loopRep = s.loopRep
  pcOnRep : ∀ (γ : Type) (op : Op γ) (s : DspState σ), (run γ op s).2.pcOnRep = s.pcOnRep
  state : ∀ (γ : Type) (op : Op γ) (s : DspState σ), op.Plain →
    (run γ op s).2.interrupts.state = s.interrupts.state
  temp : ∀ (γ : Type) (op : Op γ) (s : DspState σ), ¬ op.WritesTemp →
    (run γ op s).2.registers Reg.temp = s.registers Reg.temp

variable (d : DataPaths σ)

/-- Emitted operations on the state; the cycle counts and the fault anchors are not part of it. -/
def DataPaths.exec : Code.Handler Op (DspState σ)
  | _, .setDecodeLen _, s | _, .setCycles _, s | _, .setFaultAnchorBump _, s => ((), s)
  | _, .setInstLen len, s => ((), { s with pcAdvance := BitVec.ofNat 32 len })
  | _, .storePc v, s => ((), { s with pc := v })
  | _, .loadReg idx, s => (s.registers (regAt idx), s)
  | _, .storeReg idx v, s => ((), s.setReg (regAt idx) (maskReg (regAt idx) v))
  | _, .storeLoopRep on, s => ((), { s with loopRep := on })
  | _, .storePcOnRep on, s => ((), { s with pcOnRep := on })
  | γ, op, s => d.run γ op s

/-- Run code from a state. -/
def DataPaths.after (x : Emit Unit) (s : DspState σ) : DspState σ := (x.run d.exec s).2

end Emitter

open Emitter

namespace DspState

theorem registers_of_data {s t : DspState σ} (h : s.data = t.data) :
    s.registers = t.registers := by
  have hr : s.data.registers = t.data.registers := by rw [h]
  exact hr

theorem data_setReg {s t : DspState σ} (h : s.data = t.data) (r : RegIdx) (v : Word) :
    (s.setReg r v).data = (t.setReg r v).data := by
  have hs : (s.setReg r v).data = s.data.setReg r v := rfl
  have ht : (t.setReg r v).data = t.data.setReg r v := rfl
  rw [hs, ht, h]

end DspState

namespace Emitter.DataPaths

variable {d : DataPaths σ} {s t : DspState σ} {α : Type}

/-- Code cannot tell states of the same data apart. -/
theorem run_data (x : Emit α) (h : s.data = t.data) :
    (x.run d.exec s).1 = (x.run d.exec t).1 ∧
      (x.run d.exec s).2.data = (x.run d.exec t).2.data := by
  apply Code.run_rel (R := fun s t : DspState σ => s.data = t.data) _ x h
  intro γ op s t h
  cases op with
  | setDecodeLen | setCycles | setFaultAnchorBump | setInstLen | storePc | storeLoopRep
  | storePcOnRep => exact ⟨rfl, h⟩
  | loadReg idx => exact ⟨congrFun (DspState.registers_of_data h) _, h⟩
  | storeReg idx v => exact ⟨rfl, DspState.data_setReg h _ _⟩
  | _ => exact d.data _ _ s t h

/-- Plain code leaves PC, the REP flags and the interrupt in flight alone. -/
theorem run_control {x : Emit α} (hx : x.All fun _ op => op.Plain) (s : DspState σ) :
    (x.run d.exec s).2.pc = s.pc ∧ (x.run d.exec s).2.loopRep = s.loopRep ∧
      (x.run d.exec s).2.pcOnRep = s.pcOnRep ∧
      (x.run d.exec s).2.interrupts.state = s.interrupts.state := by
  let I (t : DspState σ) := t.pc = s.pc ∧ t.loopRep = s.loopRep ∧ t.pcOnRep = s.pcOnRep ∧
    t.interrupts.state = s.interrupts.state
  apply hx.run (I := I) _ ⟨rfl, rfl, rfl, rfl⟩
  rintro γ op t hop ⟨hpc, hrep, hon, hstate⟩
  cases op with
  | setDecodeLen | setCycles | setFaultAnchorBump | setInstLen | loadReg | storeReg =>
    exact ⟨hpc, hrep, hon, hstate⟩
  | storePc | storeLoopRep | storePcOnRep => exact hop.elim
  | _ =>
    exact ⟨(d.pc _ _ t).trans hpc, (d.loopRep _ _ t).trans hrep, (d.pcOnRep _ _ t).trans hon,
      (d.state _ _ t hop).trans hstate⟩

/-- Plain code of an instruction advances PC by its length. -/
theorem run_advance {opcode pc nextWord : Word}
    (hx : (emitInstruction (decode opcode) pc nextWord).All fun _ op => op.Plain)
    (s : DspState σ) :
    ((emitInstruction (decode opcode) pc nextWord).run d.exec s).2.pcAdvance =
      BitVec.ofNat 32 (instructionLength (decode opcode)) := by
  let R (t : DspState σ) (r : Recorded) := t.pcAdvance = BitVec.ofNat 32 r.instLen ∧
    r.branched = false
  have hR (γ : Type) (op : Op γ) (t : DspState σ) (r : Recorded) (hop : op.Plain)
      (h : R t r) : R (d.exec γ op t).2 (record γ op r) := by
    cases op with
    | setInstLen len => exact ⟨rfl, h.2⟩
    | storePc | storeLoopRep | storePcOnRep => exact hop.elim
    | setDecodeLen | setCycles | setFaultAnchorBump | loadReg | storeReg => exact h
    | _ => exact ⟨(d.pcAdvance _ _ t).trans h.1, h.2⟩
  have hrecords := (emitInstruction_records opcode pc nextWord).keeps s.pcAdvance.toNat
  obtain ⟨r, hlen, hadvance, hbranched⟩ := Code.Always.run_all hR hx hrecords
    ⟨(BitVec.setWidth_eq _).symm.trans (BitVec.ofNat_toNat 32 s.pcAdvance).symm, rfl⟩
  rw [hbranched] at hlen
  rw [hadvance, hlen]
  rfl

end Emitter.DataPaths

end Dsp56300
