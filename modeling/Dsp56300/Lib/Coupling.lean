import Mathlib.Logic.Basic

/-! Stateful programs run from two states side by side: what the states have in common, and what
the answers do. -/

namespace Lib.Coupling

universe u

variable {σ α β : Type u}

/-- From states related by `P` the program gives one answer, of which `A` holds, and leaves states
related by `Q`. -/
def Couples (P : σ → σ → Prop) (x : StateM σ α) (A : α → Prop) (Q : σ → σ → Prop) : Prop :=
  ∀ s t, P s t → (x.run s).1 = (x.run t).1 ∧ A (x.run s).1 ∧ Q (x.run s).2 (x.run t).2

/-- Any answer will do. -/
def anything : α → Prop := fun _ => True

/-- Two programs: from states related by `P` their answers are related by `A`, and the states they
leave by `Q`. -/
def Relates (P : σ → σ → Prop) (x y : StateM σ α) (A : α → α → Prop) (Q : σ → σ → Prop) : Prop :=
  ∀ s t, P s t → A (x.run s).1 (y.run t).1 ∧ Q (x.run s).2 (y.run t).2

variable {P P' Q Q' R : σ → σ → Prop} {x y : StateM σ α} {f g : α → StateM σ β} {A A' : α → Prop}
  {B : β → Prop} {C : α → α → Prop} {D : β → β → Prop}

theorem Relates.bind (hx : Relates P x y C Q) (hf : ∀ a b, C a b → Relates Q (f a) (g b) D R) :
    Relates P (x >>= f) (y >>= g) D R := by
  intro s t h
  obtain ⟨hc, hq⟩ := hx s t h
  exact hf _ _ hc _ _ hq

theorem Relates.assoc {γ : Type u} {k l : β → StateM σ γ} {E : γ → γ → Prop}
    (h : Relates P ((x >>= f) >>= k) ((y >>= g) >>= l) E R) :
    Relates P (x >>= fun a => f a >>= k) (y >>= fun a => g a >>= l) E R := h

/-- One program from both states: the answers are the same. -/
theorem Relates.couples (hx : Relates P x x (fun a b => a = b ∧ A a) Q) : Couples P x A Q := by
  intro s t h
  obtain ⟨⟨heq, ha⟩, hq⟩ := hx s t h
  exact ⟨heq, ha, hq⟩

theorem Couples.relates (hx : Couples P x A Q) : Relates P x x (fun a b => a = b ∧ A a) Q := by
  intro s t h
  obtain ⟨heq, ha, hq⟩ := hx s t h
  exact ⟨⟨heq, ha⟩, hq⟩

theorem Couples.bind (hx : Couples P x A Q) (hf : ∀ a, A a → Couples Q (f a) B R) :
    Couples P (x >>= f) B R := by
  intro s t h
  obtain ⟨heq, ha, hq⟩ := hx s t h
  have hs : (x >>= f).run s = (f (x.run s).1).run (x.run s).2 := rfl
  have ht : (x >>= f).run t = (f (x.run t).1).run (x.run t).2 := rfl
  rw [hs, ht, ← heq]
  exact hf _ ha _ _ hq

/-- Sequencing is associative. -/
theorem Couples.assoc {γ : Type u} {k : β → StateM σ γ} {E : γ → Prop}
    (h : Couples P ((x >>= f) >>= k) E R) : Couples P (x >>= fun a => f a >>= k) E R := h

theorem couples_pure {a : α} (ha : A a) : Couples P (pure a) A P := fun _ _ h => ⟨rfl, ha, h⟩

theorem couples_skip {a : α} : Couples P (pure a) anything P := couples_pure trivial

/-- The relation before may be stronger, what is known after it weaker. -/
theorem Couples.mono (hx : Couples P x A Q) (hP : ∀ s t, P' s t → P s t) (hA : ∀ a, A a → A' a)
    (hQ : ∀ s t, Q s t → Q' s t) : Couples P' x A' Q' := by
  intro s t h
  obtain ⟨heq, ha, hq⟩ := hx s t (hP s t h)
  exact ⟨heq, hA _ ha, hQ _ _ hq⟩

theorem Couples.from (hx : Couples P x A Q) (hP : ∀ s t, P' s t → P s t) : Couples P' x A Q :=
  hx.mono hP (fun _ => id) fun _ _ => id

theorem Couples.to (hx : Couples P x A Q) (hQ : ∀ s t, Q s t → Q' s t) : Couples P x A Q' :=
  hx.mono (fun _ _ => id) (fun _ => id) hQ

theorem Couples.forget (hx : Couples P x A Q) : Couples P x anything Q :=
  hx.mono (fun _ _ => id) (fun _ _ => trivial) fun _ _ => id

theorem Couples.ite {c : Prop} [Decidable c] (hx : c → Couples P x A Q)
    (hy : ¬ c → Couples P y A Q) : Couples P (if c then x else y) A Q := by
  split
  · exact hx ‹_›
  · exact hy ‹_›

end Lib.Coupling
