import Dsp56300.Emu.RunLoop
import Mathlib.Tactic.SplitIfs

/-! What the core's own steps neither read nor change. -/

namespace Dsp56300

variable {σ : Type}

/-- The budget of a run, the sink of stray stores, the marks on P memory, the warnings given, and
the countdown of a parked fault. -/
structure Margin where
  cycleBudget : Int
  memWriteSink : Word
  pramDirty : PramDirtyBitmap
  warnedBits : Word
  unimplReported : Word
  parkedCountdown : Nat
  parkedSpWrite : Bool

namespace DspState

def margin (s : DspState σ) : Margin :=
  ⟨s.cycleBudget, s.memWriteSink, s.pramDirty, s.warnedBits, s.unimplReported,
    s.interrupts.parkedCountdown, s.interrupts.parkedSpWrite⟩

def withMargin (s : DspState σ) (m : Margin) : DspState σ :=
  { s with
    cycleBudget := m.cycleBudget
    memWriteSink := m.memWriteSink
    pramDirty := m.pramDirty
    warnedBits := m.warnedBits
    unimplReported := m.unimplReported
    interrupts := { s.interrupts with
      parkedCountdown := m.parkedCountdown, parkedSpWrite := m.parkedSpWrite } }

@[simp] theorem withMargin_margin (s : DspState σ) : s.withMargin s.margin = s := rfl

@[simp] theorem margin_withMargin (s : DspState σ) (m : Margin) : (s.withMargin m).margin = m := rfl

/-- `f` neither looks at the margin nor changes it. -/
def Inner (f : DspState σ → DspState σ) : Prop := ∀ s m, f (s.withMargin m) = (f s).withMargin m

namespace Inner

variable {f g : DspState σ → DspState σ} {s t : DspState σ} {m : Margin}

theorem id : Inner fun s : DspState σ => s := fun _ _ => rfl

theorem comp (hg : Inner g) (hf : Inner f) : Inner fun s => g (f s) := by
  intro s m
  exact (congrArg g (hf s m)).trans (hg (f s) m)

theorem ite {c : DspState σ → Prop} [DecidablePred c] (hc : ∀ s m, c (s.withMargin m) = c s)
    (hf : Inner f) (hg : Inner g) : Inner fun s => if c s then f s else g s := by
  intro s m
  simp only [hc, hf s m, hg s m]
  split <;> rfl

theorem of_eq (hg : Inner g) (h : t = s.withMargin m) : g t = (g s).withMargin m := by
  rw [h, hg]

theorem margin (hf : Inner f) (s : DspState σ) : (f s).margin = s.margin := by
  have h : f s = (f s).withMargin s.margin := hf s s.margin
  rw [h]
  rfl

end Inner

theorem inner_repTruncateArmedWindow : Inner (repTruncateArmedWindow (σ := σ)) :=
  .ite (fun _ _ => rfl) (fun _ _ => rfl) .id

theorem inner_advanceRep : Inner (advanceRep (σ := σ)) := by
  have hr := inner_repTruncateArmedWindow (σ := σ)
  refine .ite (fun _ _ => rfl) .id (.ite (fun _ _ => rfl) ?_ ?_)
  · exact .ite (fun _ _ => rfl) (fun _ _ => rfl) fun _ _ => hr.of_eq rfl
  · let retire (s : DspState σ) : DspState σ :=
      { { s with loopRep := false }.setReg Reg.lc (s.registers Reg.temp) with
        pcAdvance := s.pcAdvance + 1 }.repTruncateArmedWindow
    have ht : Inner fun s => if s.registers Reg.lc = 0 then retire s else s :=
      .ite (fun _ _ => rfl) (fun _ _ => hr.of_eq rfl) .id
    exact .comp (g := fun s => { s with pcOnRep := false }) (fun _ _ => rfl) ht

theorem inner_postStackError : Inner (postStackError (σ := σ)) := by
  intro s m
  simp only [postStackError, raiseStackError, InterruptPipeline.add]
  split_ifs <;> first | rfl | contradiction

theorem stackPop_withMargin (s : DspState σ) (m : Margin) :
    (s.withMargin m).stackPop = (s.stackPop.1, s.stackPop.2.withMargin m) := by
  simp only [stackPop, inner_postStackError s m]
  split_ifs <;> first | rfl | contradiction

theorem inner_stackPush (v w : Word) : Inner fun s : DspState σ => s.stackPush v w := by
  intro s m
  simp only [stackPush, inner_postStackError s m]
  split_ifs <;> first | rfl | contradiction

theorem inner_advanceDo : Inner (advanceDo (σ := σ)) := by
  let decLc (s : DspState σ) := s.setReg Reg.lc ((s.registers Reg.lc - 1) &&& regMasks Reg.lc)
  let unstackSr (s : DspState σ) := s.stackPop.2.setReg Reg.sr
    ((s.stackPop.2.registers Reg.sr &&& ~~~((1#32 <<< Sr.lf) ||| (1#32 <<< Sr.fv))) |||
      (s.stackPop.1.2 &&& ((1#32 <<< Sr.lf) ||| (1#32 <<< Sr.fv))))
  let unstackLoop (s : DspState σ) :=
    (s.stackPop.2.setReg Reg.la s.stackPop.1.1).setReg Reg.lc s.stackPop.1.2
  have hu : Inner unstackSr := by
    intro s m
    simp only [unstackSr, stackPop_withMargin]
    rfl
  have hl : Inner unstackLoop := by
    intro s m
    simp only [unstackLoop, stackPop_withMargin]
    rfl
  have hend : Inner fun s => unstackLoop (unstackSr (decLc s)) :=
    (hl.comp hu).comp (f := decLc) fun _ _ => rfl
  exact .ite (fun _ _ => rfl) (.ite (fun _ _ => rfl) hend fun _ _ => rfl) .id

/-- The rest of `advancePc` behind the warnings. -/
theorem inner_advance :
    Inner fun s : DspState σ =>
      advanceDo { s.advanceRep with pc := maskPc (s.advanceRep.pc + s.advanceRep.pcAdvance) } :=
  inner_advanceDo.comp (f := fun s => { s.advanceRep with pc := _ })
    (.comp (g := fun s => { s with pc := maskPc (s.pc + s.pcAdvance) }) (fun _ _ => rfl)
      inner_advanceRep)

theorem inner_detectLongInterrupt (instr : Word) :
    Inner fun s : DspState σ => s.detectLongInterrupt instr := by
  let enter (s : DspState σ) := s.setInterrupts { s.interrupts with state := .long }
  let save (s : DspState σ) := s.stackPush s.interrupts.savedPc (s.registers Reg.sr)
  let clear (s : DspState σ) := s.setReg Reg.sr (s.registers Reg.sr &&&
    ~~~((1#32 <<< Sr.lf) ||| (1#32 <<< Sr.s1) ||| (1#32 <<< Sr.s0) |||
      (1#32 <<< Sr.i0) ||| (1#32 <<< Sr.i1) ||| (1#32 <<< Sr.sa)))
  let level (s : DspState σ) := s.setReg Reg.sr
    (s.registers Reg.sr ||| (s.interrupts.iplToRaise.setWidth 32 <<< Sr.i0))
  have hs : Inner save := fun s m => inner_stackPush _ _ s m
  have hl : Inner fun s => level (clear s) := fun _ _ => rfl
  exact .ite (fun _ _ => rfl) (hl.comp (hs.comp (f := enter) fun _ _ => rfl)) .id

theorem inner_fetchVector : Inner (fetchVector (σ := σ)) := fun _ _ =>
  (inner_detectLongInterrupt _).of_eq rfl

theorem inner_deliverArmedFault : Inner (deliverArmedFault (σ := σ)) := by
  let redirect (s : DspState σ) : DspState σ :=
    let s := s.setInterrupts { s.interrupts with savedPc := s.pc }
    let s := { s with pc := s.interrupts.vectorAddr }
    s.setInterrupts { s.interrupts with state := .fast, faultBudget := invalidFaultBudget }
  have hf : Inner fun s => fetchVector (redirect s) := inner_fetchVector.comp fun _ _ => rfl
  exact .comp (g := fun s => s.setInterrupts { s.interrupts with pipelineStage := 3 })
    (fun _ _ => rfl) hf

theorem inner_deliverParkedFault : Inner (deliverParkedFault (σ := σ)) := by
  intro s m
  have hd := inner_deliverArmedFault (σ := σ)
  have hp : (s.withMargin m).interrupts.pending = s.interrupts.pending := rfl
  cases hf : (List.finRange Interrupt.count).find?
    fun i => s.interrupts.pending i && s.interrupts.ipl i = 3 with
  | none =>
    have hf' : (List.finRange Interrupt.count).find? (fun i =>
      (s.withMargin m).interrupts.pending i && (s.withMargin m).interrupts.ipl i = 3) = none := hf
    simp only [deliverParkedFault, hf, hf']
    rfl
  | some idx =>
    have hf' : (List.finRange Interrupt.count).find? (fun i =>
      (s.withMargin m).interrupts.pending i && (s.withMargin m).interrupts.ipl i = 3) =
        some idx := hf
    simp only [deliverParkedFault, hf, hf']
    exact hd.of_eq rfl

theorem inner_dispatch (idx : Fin Interrupt.count) : Inner fun s : DspState σ => s.dispatch idx :=
  .ite (fun _ _ => rfl) (fun _ _ => rfl) fun _ _ => rfl

/-- Arbitration looks at the pending bits and levels alone. -/
theorem arbitrate_congr {p q : InterruptPipeline} (hp : p.pending = q.pending) (hi : p.ipl = q.ipl)
    (iplSr : Int) (is : List (Fin Interrupt.count)) (index : Option (Fin Interrupt.count))
    (raise : Int) : p.arbitrate iplSr is index raise = q.arbitrate iplSr is index raise := by
  induction is generalizing index raise with
  | nil => rfl
  | cons i is ih => simp only [InterruptPipeline.arbitrate, hp, hi, ih]

theorem inner_arbitrate : Inner (arbitrate (σ := σ)) := by
  refine .ite (fun _ _ => rfl) .id ?_
  intro s m
  have hw := arbitrate_congr (p := (s.withMargin m).interrupts) (q := s.interrupts) rfl rfl s.iplSr
    (List.finRange Interrupt.count) none (-1)
  have hi : (s.withMargin m).iplSr = s.iplSr := rfl
  simp only [hi, hw]
  cases s.interrupts.arbitrate s.iplSr (List.finRange Interrupt.count) none (-1) with
  | none => rfl
  | some idx => exact inner_dispatch idx s m

theorem inner_nextStage : Inner (nextStage (σ := σ)) := fun _ _ => rfl

end DspState

end Dsp56300
