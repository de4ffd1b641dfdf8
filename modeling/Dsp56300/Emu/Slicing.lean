import Dsp56300.Emu.Margin

namespace Dsp56300

open Lib.Loops

variable {σ φ : Type}

namespace DspState

/-- The state with another cycle budget. -/
abbrev withBudget (s : DspState σ) (n : Int) : DspState σ := { s with cycleBudget := n }

/-- `f` neither looks at the cycle budget nor changes it. -/
def Blind (f : DspState σ → DspState σ) : Prop := ∀ s n, f (s.withBudget n) = (f s).withBudget n

namespace Blind

variable {f g : DspState σ → DspState σ} {s t : DspState σ} {n : Int}

theorem id : Blind fun s : DspState σ => s := fun _ _ => rfl

theorem comp (hg : Blind g) (hf : Blind f) : Blind fun s => g (f s) := by
  intro s n
  exact (congrArg g (hf s n)).trans (hg (f s) n)

theorem ite {c : DspState σ → Prop} [DecidablePred c] (hc : ∀ s n, c (s.withBudget n) = c s)
    (hf : Blind f) (hg : Blind g) : Blind fun s => if c s then f s else g s := by
  intro s n
  simp only [hc, hf s n, hg s n]
  split <;> rfl

theorem of_eq (hg : Blind g) (h : t = s.withBudget n) : g t = (g s).withBudget n := by
  rw [h, hg]

theorem ite_pair {c c' : Prop} [Decidable c] [Decidable c'] (hc : c ↔ c')
    {α : Type} {a b a' b' : DspState σ × α} (ha : a = (a'.1.withBudget n, a'.2))
    (hb : b = (b'.1.withBudget n, b'.2)) : (if c then a else b) =
      ((if c' then a' else b').1.withBudget n, (if c' then a' else b').2) := by
  by_cases h : c'
  · rw [if_pos h, if_pos (hc.mpr h), ha]
  · rw [if_neg h, if_neg (mt hc.mp h), hb]

end Blind

/-- What leaves the whole margin alone leaves the budget alone. -/
theorem Inner.blind {f : DspState σ → DspState σ} (hf : Inner f) : Blind f := by
  intro s n
  have h : f (s.withBudget n) = (f s).withMargin { s.margin with cycleBudget := n } :=
    hf s { s.margin with cycleBudget := n }
  rw [h, ← hf.margin s]
  rfl

theorem blind_checkUnimplementedModes : Blind (checkUnimplementedModes (σ := σ)) :=
  .ite (fun _ _ => rfl) .id (fun _ _ => rfl)

theorem blind_advancePc : Blind (advancePc (σ := σ)) :=
  inner_advance.blind.comp blind_checkUnimplementedModes

theorem blind_tickParked : Blind (tickParked (σ := σ)) :=
  .ite (fun _ _ => rfl) (inner_deliverParkedFault.blind.comp fun _ _ => rfl) fun _ _ => rfl

theorem blind_tickIdle : Blind (tickIdle (σ := σ)) :=
  .ite (fun _ _ => rfl) blind_tickParked (.ite (fun _ _ => rfl) .id inner_arbitrate.blind)

theorem tickFast_withBudget (s : DspState σ) (n : Int) :
    (s.withBudget n).tickFast = (s.tickFast.1.withBudget n, s.tickFast.2) := by
  have hf := inner_fetchVector (σ := σ) |>.blind
  have hn := inner_nextStage (σ := σ) |>.blind
  unfold tickFast
  dsimp only
  split
  · rfl
  · exact Prod.ext (hn.of_eq (hf.of_eq rfl)) rfl
  · refine Prod.ext (hn.of_eq ?_) rfl
    split
    · exact hf s n
    · rfl
  · refine Prod.ext (hn.of_eq ?_) rfl
    split <;> rfl
  · rfl
  · exact Blind.ite_pair Iff.rfl rfl rfl
  · rfl

theorem blind_processPendingInterrupts : Blind (processPendingInterrupts (σ := σ)) := by
  have ht := blind_tickIdle (σ := σ)
  have h2 : ∀ (s : DspState σ) n, (s.withBudget n).tickFast.2 = s.tickFast.2 := by
    intro s n
    rw [tickFast_withBudget]
  have h1 : Blind fun s : DspState σ => s.tickFast.1 :=
    fun s n => congrArg Prod.fst (tickFast_withBudget s n)
  refine .ite (fun _ _ => rfl) .id (.ite (fun _ _ => rfl) ?_ ht)
  exact .ite (fun s n => congrArg (· = true) (h2 s n)) (ht.comp h1) h1

theorem armedGate_withBudget (s : DspState σ) (n : Int) (opcode instLen : Word) :
    (s.withBudget n).armedGate opcode instLen =
      (s.armedGate opcode instLen).map fun t => t.withBudget n := by
  unfold armedGate
  dsimp only
  split_ifs <;> rfl

theorem dispatchBlock_withBudget (s : DspState σ) (n : Int) (jit : JitEngine φ)
    (compile : Compiler σ φ) : (s.withBudget n).dispatchBlock jit compile =
      ((s.dispatchBlock jit compile).1.withBudget n, (s.dispatchBlock jit compile).2) := by
  have hc : (s.withBudget n).checkBlock jit = s.checkBlock jit := rfl
  have hr : (s.withBudget n).rebuildBlock (s.checkBlock jit) compile =
      ((s.rebuildBlock (s.checkBlock jit) compile).1.withBudget n,
        (s.rebuildBlock (s.checkBlock jit) compile).2) := by
    unfold rebuildBlock
    dsimp only
    exact Blind.ite_pair Iff.rfl rfl rfl
  unfold dispatchBlock
  dsimp only
  rw [hc]
  cases (s.checkBlock jit).cache.get s.pc.toNat with
  | some _ => rfl
  | none => exact hr

end DspState

namespace Machine

variable (e : Translator σ φ)

/-- The machine with another cycle budget. -/
abbrev withBudget (m : Machine σ φ) (n : Int) : Machine σ φ := { m with dsp := m.dsp.withBudget n }

theorem execute_withBudget (s : DspState σ) (n : Int) (opcode : Word) (func : φ) (instLen : Word) :
    execute e (s.withBudget n) opcode func instLen =
      ((execute e s opcode func instLen).1.withBudget n, (execute e s opcode func instLen).2) := by
  have hp := (DspState.blind_processPendingInterrupts (σ := σ)).comp DspState.blind_advancePc
  have hf := DspState.inner_deliverArmedFault (σ := σ) |>.blind
  unfold execute
  rw [DspState.armedGate_withBudget]
  cases s.armedGate opcode instLen with
  | none =>
    have hd := (hf s n)
    simp only [Option.map_none, hd]
  | some t =>
    have hc := e.call_budget func { t with pcAdvance := instLen } n
    have ha := hp (e.call func { t with pcAdvance := instLen }).1 n
    simp only at ha
    simp only [Option.map_some, hc, ha]

theorem stepOne_withBudget (m : Machine σ φ) (n : Int) :
    (m.withBudget n).stepOne e = ((m.stepOne e).1.withBudget n, (m.stepOne e).2) := by
  have he := execute_withBudget e (fetch m.dsp).2 n
  unfold stepOne
  simp only [fetch] at he ⊢
  simp only [he]

theorem callBlock_withBudget (m : Machine σ φ) :
    ∃ k : Nat, ∀ n, (m.withBudget n).callBlock e = (m.callBlock e).withBudget (n - k) := by
  have hp : DspState.Blind (afterBlock (σ := σ)) :=
    DspState.blind_processPendingInterrupts.comp
      (DspState.inner_advanceDo.blind.comp DspState.blind_checkUnimplementedModes)
  cases hb : m.jit.cache.get m.dsp.pc.toNat with
  | none =>
    refine ⟨0, fun n => ?_⟩
    simp only [callBlock, hb, Nat.cast_zero, Int.sub_zero]
  | some block =>
    refine ⟨(e.call block.func m.dsp).2, fun n => ?_⟩
    have hc : e.call block.func (m.dsp.withBudget n) =
        ((e.call block.func m.dsp).1.withBudget n, (e.call block.func m.dsp).2) :=
      e.call_budget block.func m.dsp n
    simp only [callBlock, hb, hc]
    exact congrArg (fun s => ({ m with dsp := s } : Machine σ φ)) (hp.of_eq rfl)

theorem runBlock_withBudget (m : Machine σ φ) :
    ∃ k : Nat, ∀ n, (m.withBudget n).runBlock e = (m.runBlock e).withBudget (n - k) := by
  obtain ⟨k, hk⟩ := callBlock_withBudget e { m with
    dsp := (m.dsp.dispatchBlock m.jit e.compileBlock).1
    jit := (m.dsp.dispatchBlock m.jit e.compileBlock).2 }
  refine ⟨k, fun n => ?_⟩
  have hd := m.dsp.dispatchBlock_withBudget n m.jit e.compileBlock
  unfold runBlock
  dsimp only
  rw [hd]
  exact hk n

/-- What a dispatch costs does not depend on the budget, and is all it does to it. -/
theorem dispatch_withBudget (m : Machine σ φ) :
    ∃ k : Nat, ∀ n, (m.withBudget n).dispatch e = (m.dispatch e).withBudget (n - k) := by
  unfold dispatch
  by_cases hs : m.dsp.needsStep m.jit.pramSize
  · refine ⟨(m.stepOne e).2, fun n => ?_⟩
    rw [if_pos hs]
    refine (if_pos hs).trans ?_
    rw [stepOne_withBudget]
    rfl
  · obtain ⟨k, hk⟩ := m.runBlock_withBudget e
    refine ⟨k, fun n => ?_⟩
    rw [if_neg hs]
    exact (if_neg hs).trans (hk n)

theorem dispatch_grant (m : Machine σ φ) (c : Int) :
    (m.grant c).dispatch e = (m.dispatch e).grant c := by
  obtain ⟨k, hk⟩ := m.dispatch_withBudget e
  have hm : (m.dispatch e).dsp.cycleBudget = m.dsp.cycleBudget - k :=
    congrArg (fun t => t.dsp.cycleBudget) (hk m.dsp.cycleBudget)
  have hc : m.dsp.cycleBudget + c - k = (m.dispatch e).dsp.cycleBudget + c := by omega
  calc (m.grant c).dispatch e
      = (m.dispatch e).withBudget (m.dsp.cycleBudget + c - k) := hk _
    _ = (m.dispatch e).grant c := by rw [hc]; rfl

theorem grant_grant (m : Machine σ φ) (a b : Int) : (m.grant a).grant b = m.grant (a + b) := by
  simp only [grant, Int.add_assoc]

/-- More budget changes nothing about an iteration, or the core sleeps and loses all of it. -/
theorem turn_grant (m : Machine σ φ) :
    (∀ c, (m.grant c).turn e = (m.turn e).grant c) ∨ ∀ c, (m.grant c).turn e = m.sleep := by
  have hd := fun c => m.dispatch_grant e c
  cases hp : m.dsp.powerState with
  | stop => exact .inr fun c => by simp only [turn, grant, hp, sleep]
  | wait =>
    by_cases hw : m.dsp.canWake
    · left
      intro c
      have ha := dispatch_grant e { m with dsp := { m.dsp with powerState := .normal } } c
      have hwc : (m.grant c).dsp.canWake := hw
      unfold turn
      simp only [show (m.grant c).dsp.powerState = .wait from hp, hp, hw, hwc, if_true]
      exact ha
    · right
      intro c
      have hwc : ¬ (m.grant c).dsp.canWake := hw
      unfold turn
      simp only [show (m.grant c).dsp.powerState = .wait from hp, hwc]
      rfl
  | normal =>
    left
    intro c
    unfold turn
    simp only [show (m.grant c).dsp.powerState = .normal from hp, hp, hd]

theorem iterate_running {m : Machine σ φ} (hb : m.dsp.cycleBudget > 0)
    (hh : m.dsp.haltRequested = false) : iterate e m = some (m.turn e) := if_pos ⟨hb, hh⟩

theorem iterate_spent {m : Machine σ φ} (hb : ¬ m.dsp.cycleBudget > 0) : iterate e m = none :=
  if_neg fun h => hb h.1

theorem sliceable {c : Int} (hc : 0 ≤ c) : Sliceable (iterate e) (grant c) := by
  intro m t hm
  by_cases hr : m.dsp.cycleBudget > 0 ∧ m.dsp.haltRequested = false
  · obtain ⟨hb, hh⟩ := hr
    rw [iterate_running e hb hh] at hm
    cases hm
    have hg := iterate_running e (m := m.grant c) (Int.add_pos_of_pos_of_nonneg hb hc) hh
    rcases m.turn_grant e with ht | ht
    · left
      rw [hg, ht]
    · have hs : m.turn e = m.sleep := by simpa [grant] using ht 0
      have hz : iterate e m.sleep = none := iterate_spent e (Int.lt_irrefl 0)
      right
      rw [hs]
      refine ⟨hg.trans (congrArg some (ht c)), hz, ?_⟩
      rcases Int.lt_or_eq_of_le hc with hp | rfl
      · have he : m.sleep.grant c = m.grant (c - m.dsp.cycleBudget) := by simp [grant, sleep]
        have hn : (m.grant (c - m.dsp.cycleBudget)).dsp.cycleBudget > 0 := by
          change m.dsp.cycleBudget + (c - m.dsp.cycleBudget) > 0
          omega
        rw [he]
        exact (ends_of_some ((iterate_running e hn hh).trans (congrArg some (ht _)))).mpr
          ((ends_of_none hz).mpr rfl)
      · exact (ends_of_none hz).mpr rfl
  · rw [iterate, if_neg hr] at hm
    cases hm

/-- Slicing does not change a run: running `a` cycles and then `b` ends where running `a + b`
does. -/
theorem runs_add_iff {a b : Int} (hb : 0 ≤ b) (m t : Machine σ φ) :
    Runs e (a + b) m t ↔ ∃ u, Runs e a m u ∧ Runs e b u t := by
  unfold Runs
  rw [← grant_grant]
  exact ends_more_iff (sliceable e hb)

/-- Code that stops the core and takes three cycles. -/
def stopper : Translator Unit Unit where
  compileBlock := fun pc _ generation _ w => (⟨(), pc + 1, generation, true⟩, w)
  compileInstruction := fun _ _ _ _ => ()
  call := fun _ s => ({ s with powerState := .stop }, 3)
  call_budget := fun _ _ _ => rfl

def powerUp : Machine Unit Unit :=
  ⟨.new ⟨[], [], []⟩ ⟨fun _ => 0, ()⟩, .new 0, fun _ => none⟩

theorem turn_of_stop {m : Machine σ φ} (hp : m.dsp.powerState = .stop) : m.turn e = m.sleep := by
  simp only [turn, hp]

/-- A stopped core sleeps through a slice that pays its overshoot. -/
theorem runs_of_stop {m : Machine σ φ} {c : Int} (hp : m.dsp.powerState = .stop)
    (hh : m.dsp.haltRequested = false) (hc : m.dsp.cycleBudget + c > 0) : Runs e c m m.sleep := by
  have ht : iterate e (m.grant c) = some m.sleep :=
    (iterate_running e (m := m.grant c) hc hh).trans
      (congrArg some (turn_of_stop e (m := m.grant c) hp))
  exact (ends_of_some ht).mpr ((ends_of_none (iterate_spent e (Int.lt_irrefl 0))).mpr rfl)

/-- The first slice overshoots, the second finds the core stopped. -/
theorem runs_add_iff_stopper : Runs stopper (2 + 5) powerUp
    ((powerUp.grant 2).turn stopper).sleep := by
  have hb : ((powerUp.grant 2).turn stopper).dsp.cycleBudget = -1 := by decide +kernel
  have hp : ((powerUp.grant 2).turn stopper).dsp.powerState = .stop := by decide +kernel
  have hh : ((powerUp.grant 2).turn stopper).dsp.haltRequested = false := by decide +kernel
  have hs : iterate stopper ((powerUp.grant 2).turn stopper) = none :=
    iterate_spent stopper fun h => by omega
  have h1 : Runs stopper 2 powerUp ((powerUp.grant 2).turn stopper) :=
    (ends_of_some (iterate_running stopper (by decide) rfl)).mpr ((ends_of_none hs).mpr rfl)
  have h2 := runs_of_stop stopper (c := 5) hp hh (by omega)
  exact (runs_add_iff stopper (by decide) _ _).mpr ⟨_, h1, h2⟩

end Machine

end Dsp56300
