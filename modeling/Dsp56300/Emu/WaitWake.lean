import Dsp56300.Emu.Arbitration
import Dsp56300.Emu.Slicing

/-! WAIT ends for exactly the requests that arbitration would dispatch. -/

namespace Dsp56300

namespace InterruptPipeline

theorem hasPending_of_pending {p : InterruptPipeline} {i : Fin Interrupt.count}
    (hi : p.pending i = true) : p.hasPending = true := by
  have hne : p.pendingBits (wordOf i) ≠ 0 := by
    intro h0
    rw [pending_eq, h0] at hi
    simp at hi
  have hw : wordOf i = 0 ∨ wordOf i = 1 := by omega
  rcases hw with hw | hw
  · rw [hw] at hne
    rw [hasPending, decide_eq_true hne, Bool.true_or]
  · rw [hw] at hne
    rw [hasPending, decide_eq_true hne, Bool.or_true]

end InterruptPipeline

namespace DspState

open InterruptPipeline

variable {σ : Type} {s t : DspState σ}

/-- The source arbitration selects. -/
def selected (s : DspState σ) : Option (Fin Interrupt.count) :=
  s.interrupts.arbitrate s.iplSr (List.finRange Interrupt.count) none (-1)

theorem selected_eligible (hl : ∀ i, s.interrupts.ipl i ≤ 3) :
    s.selected.isSome ↔ ∃ i, s.interrupts.Eligible s.iplSr i := by
  constructor
  · intro h
    obtain ⟨i, hi⟩ := Option.isSome_iff_exists.mp h
    exact ⟨i, (wins_of_arbitrate hl s.iplSr_nonneg hi).1⟩
  · intro h
    obtain ⟨i, hi⟩ := h
    by_contra hn
    have hnone := Option.not_isSome_iff_eq_none.mp hn
    exact (arbitrate_none s.iplSr_nonneg _ none (-1) (fun _ => rfl) hnone).2 i
      (List.mem_finRange i) hi

/-- The any-test of WAIT accepts the sources that arbitration does. -/
theorem canWake_iff : s.canWake = true ↔ ∃ i, s.interrupts.Eligible s.iplSr i := by
  simp only [canWake, Bool.and_eq_true, List.any_eq_true, Bool.or_eq_true, decide_eq_true_eq,
    Eligible, ge_iff_le]
  constructor
  · intro h
    obtain ⟨-, i, -, hi⟩ := h
    exact ⟨i, hi⟩
  · intro h
    obtain ⟨i, hi⟩ := h
    exact ⟨hasPending_of_pending hi.1, i, List.mem_finRange i, hi⟩

/-- With no pipeline running, a tick outside REP is arbitration. -/
theorem processPendingInterrupts_idle (hs : s.interrupts.state = .none) (hr : s.loopRep = false) :
    s.processPendingInterrupts = s.arbitrate := by
  simp [processPendingInterrupts, tickIdle, hs, hr]

theorem arbitrate_selected (hl : ∀ i, s.interrupts.ipl i ≤ 3) {i : Fin Interrupt.count}
    (hi : s.selected = some i) : s.arbitrate = s.dispatch i := by
  have hp := (wins_of_arbitrate hl s.iplSr_nonneg hi).1.1
  unfold selected at hi
  simp only [arbitrate, hasPending_of_pending hp, hi, not_true_eq_false, if_false]

theorem arbitrate_unselected (hn : s.selected = none) : s.arbitrate = s := by
  unfold selected at hn
  simp only [arbitrate, hn, ite_self]

/-- A dispatch starts the pipeline. -/
theorem dispatch_started (s : DspState σ) (i : Fin Interrupt.count) :
    (s.dispatch i).interrupts.state ≠ .none := by
  obtain ⟨hv, -⟩ := dispatch_spec s i
  rcases hv.entered with (h | h) | ⟨-, h, -⟩
  · simp [h]
  · simp [h]
  · simp [h]

/-- A dispatch from an idle pipeline is of the selected source. -/
theorem arbitrate_eq_dispatch_iff (hl : ∀ i, s.interrupts.ipl i ≤ 3)
    (hs : s.interrupts.state = .none) (i : Fin Interrupt.count) :
    s.arbitrate = s.dispatch i ↔ s.selected = some i := by
  refine ⟨fun h => ?_, arbitrate_selected hl⟩
  cases hj : s.selected with
  | none =>
    rw [arbitrate_unselected hj] at h
    exact absurd (h ▸ hs) (dispatch_started s i)
  | some j =>
    -- the dispatch of `j` takes its request away, that of another source does not
    rw [arbitrate_selected hl hj] at h
    have hp := (wins_of_arbitrate hl s.iplSr_nonneg hj).1.1
    have hc := (dispatch_spec s i).2 j
    rw [← h, (dispatch_spec s j).2 j, hp] at hc
    by_cases hij : i = j
    · rw [hij]
    · simp [hij] at hc

/-- The requests, levels and SR of `s`, and no pipeline running. -/
structure SameSources (s u : DspState σ) : Prop where
  pendingBits : u.interrupts.pendingBits = s.interrupts.pendingBits
  ipl : u.interrupts.ipl = s.interrupts.ipl
  sr : u.registers Reg.sr = s.registers Reg.sr
  idle : u.interrupts.state = .none

theorem SameSources.selected {u : DspState σ} (hu : s.SameSources u) :
    u.selected = s.selected := by
  have hp : u.interrupts.pending = s.interrupts.pending := funext (pending_congr hu.pendingBits)
  rw [DspState.selected, DspState.selected, arbitrate_congr hp hu.ipl, iplSr, iplSr, hu.sr]

/-- What a completion does with the requests of `s`: REP holds them back. -/
theorem SameSources.process {u : DspState σ} (hu : s.SameSources u)
    (hl : ∀ i, s.interrupts.ipl i ≤ 3) {i : Fin Interrupt.count} (hi : s.selected = some i) :
    u.processPendingInterrupts = if u.loopRep then u else u.dispatch i := by
  cases hr : u.loopRep with
  | true => simp [processPendingInterrupts, hr]
  | false =>
    rw [processPendingInterrupts_idle hu.idle hr,
      arbitrate_selected (hu.ipl ▸ hl) (hu.selected.trans hi)]
    rfl

end DspState

namespace Machine

open DspState Lib.Loops

variable {σ φ : Type} (e : Translator σ φ) {m : Machine σ φ}

def wake (m : Machine σ φ) : Machine σ φ := { m with dsp := { m.dsp with powerState := .normal } }

/-- The state in which one dispatch ticks the interrupt pipeline, if there is code to call. -/
def completed (m : Machine σ φ) : Option (DspState σ) :=
  if m.dsp.needsStep m.jit.pramSize then
    let ((opcode, nextWord), s) := fetch m.dsp
    let ((func, instLen), _) := getOrCompileInstruction e m.instrCache s.pc opcode nextWord s.map
    some (e.call func { s with pcAdvance := instLen }).1.advancePc
  else
    let (s, jit) := m.dsp.dispatchBlock m.jit e.compileBlock
    (jit.cache.get s.pc.toNat).map fun block =>
      let (s, consumed) := e.call block.func s
      let s := { s with
        exitRequested := false, cycleCount := s.cycleCount + BitVec.ofNat 32 consumed,
        cycleBudget := s.cycleBudget - consumed }
      s.checkUnimplementedModes.advanceDo

/-- A dispatch with no armed fault ticks the pipeline in that state. -/
theorem completed_interrupts (ha : m.dsp.interrupts.state ≠ .armed) {u : DspState σ}
    (hu : m.completed e = some u) :
    (m.dispatch e).dsp.interrupts = u.processPendingInterrupts.interrupts := by
  simp only [completed] at hu
  unfold dispatch
  by_cases hn : m.dsp.needsStep m.jit.pramSize = true
  · rw [if_pos hn] at hu ⊢
    obtain rfl := Option.some.inj hu
    have hg (opcode len : Word) : (fetch m.dsp).2.armedGate opcode len = some (fetch m.dsp).2 := by
      rw [armedGate, if_neg fun h => ha h.1]
    simp only [stepOne, execute, hg, spend]
  · rw [if_neg hn] at hu ⊢
    obtain ⟨block, hb, rfl⟩ := Option.map_eq_some_iff.mp hu
    simp only [runBlock, callBlock, hb, afterBlock]

/-- A WAIT with no pipeline and no REP live ends for exactly the requests that arbitration would
dispatch in that state; the source that then wins is dispatched by the first completion outside
REP that finds SR, the requests and the levels as they were. -/
theorem wait_agrees (hw : m.dsp.powerState = .wait) (hb : 0 < m.dsp.cycleBudget)
    (hh : m.dsp.haltRequested = false) (hs : m.dsp.interrupts.state = .none)
    (hr : m.dsp.loopRep = false)
    (hl : ∀ i, m.dsp.interrupts.ipl i ≤ 3) :
    (m.dsp.canWake = true ↔ ∃ i, m.dsp.processPendingInterrupts = m.dsp.dispatch i) ∧
      ((∃ i, m.dsp.processPendingInterrupts = m.dsp.dispatch i) →
        m.iterate e = some (m.wake.dispatch e)) ∧
      ((¬ ∃ i, m.dsp.processPendingInterrupts = m.dsp.dispatch i) →
        Ends (iterate e) m m.sleep ∧ m.sleep.dsp.powerState = .wait) ∧
      ∀ i, m.dsp.processPendingInterrupts = m.dsp.dispatch i →
        m.dsp.interrupts.Wins m.dsp.iplSr i ∧
        (∀ u, m.dsp.SameSources u →
          u.processPendingInterrupts = if u.loopRep then u else u.dispatch i) ∧
        ∀ u, m.wake.completed e = some u →
          (m.wake.dispatch e).dsp.interrupts = u.processPendingInterrupts.interrupts := by
  have hsel (i : Fin Interrupt.count) :
      m.dsp.processPendingInterrupts = m.dsp.dispatch i ↔ m.dsp.selected = some i := by
    rw [processPendingInterrupts_idle hs hr, arbitrate_eq_dispatch_iff hl hs]
  have hwake : m.dsp.canWake = true ↔
      ∃ i, m.dsp.processPendingInterrupts = m.dsp.dispatch i := by
    rw [canWake_iff, ← selected_eligible hl, Option.isSome_iff_exists]
    exact exists_congr fun i => (hsel i).symm
  have hturn : m.iterate e =
      some (if m.dsp.canWake then m.wake.dispatch e else m.sleep) := by
    simp only [iterate, if_pos (And.intro hb hh), turn, hw]
    rfl
  refine ⟨hwake, fun hi => ?_, fun hi => ⟨?_, hw⟩, fun i hi => ⟨?_, fun u hu => ?_, fun u hu => ?_⟩⟩
  · rw [hturn, if_pos (hwake.mpr hi)]
  · rw [if_neg fun h => hi (hwake.mp h)] at hturn
    exact (ends_of_some hturn).mpr ((ends_of_none (by simp [iterate, sleep])).mpr rfl)
  · exact InterruptPipeline.wins_of_arbitrate hl m.dsp.iplSr_nonneg ((hsel i).mp hi)
  · exact hu.process hl ((hsel i).mp hi)
  · exact completed_interrupts e (m := m.wake) (by simp [wake, hs]) hu

/-- A core in WAIT with a TRAP pending. -/
def trapped : Machine Unit Unit :=
  { powerUp with dsp := { powerUp.dsp with
      powerState := .wait, cycleBudget := 10
      interrupts := InterruptPipeline.new.setPending Interrupt.trap } }

/-- TRAP wakes the core. -/
theorem wait_agrees_trap : trapped.iterate stopper = some (trapped.wake.dispatch stopper) := by
  have hl : ∀ i, trapped.dsp.interrupts.ipl i ≤ 3 := by
    intro i
    simp only [trapped, InterruptPipeline.setPending, InterruptPipeline.new]
    split <;> omega
  have hagree := wait_agrees stopper (m := trapped) rfl (by decide) rfl rfl rfl hl
  exact hagree.2.1 (hagree.1.mp rfl)

end Machine

end Dsp56300
