import Dsp56300.Lib.Programs
import Mathlib.Logic.Relation

/-! Programs run amid interference: between two operations the state may move on its own. -/

namespace Lib.Programs.Code

variable {E : Type → Type} {α σ τ : Type}

/-- A run that lets the state move by `I` any number of times before every operation, to a state
where the operation is allowed. -/
inductive Amid (h : Handler E σ) (I : σ → σ → Prop) (ok : ∀ γ : Type, E γ → σ → Prop) :
    Code E α → σ → α → σ → Prop where
  | ret (a : α) (s : σ) : Amid h I ok (ret a) s a s
  | op {γ : Type} {e : E γ} {k : γ → Code E α} {s t u : σ} {a : α}
      (hi : Relation.ReflTransGen I s t) (hok : ok γ e t)
      (hk : Amid h I ok (k (h γ e t).1) (h γ e t).2 a u) : Amid h I ok (op e k) s a u

variable {h : Handler E σ} {g : Handler E τ} {I : σ → σ → Prop}
  {ok : ∀ γ : Type, E γ → σ → Prop} {R : σ → τ → Prop}

/-- A run without interference is one of them, where everything stays allowed. -/
theorem Amid.plain {J : σ → Prop}
    (hJ : ∀ (γ : Type) (e : E γ) s, J s → ok γ e s ∧ J (h γ e s).2) (x : Code E α) {s : σ}
    (hs : J s) : Amid h I ok x s (x.run h s).1 (x.run h s).2 ∧ J (x.run h s).2 := by
  induction x generalizing s with
  | ret a => exact ⟨.ret a s, hs⟩
  | op e k ih =>
    obtain ⟨hok, hnext⟩ := hJ _ e s hs
    obtain ⟨hrest, hend⟩ := ih _ hnext
    exact ⟨.op .refl hok hrest, hend⟩

theorem interference_keeps (hI : ∀ s s' t, I s s' → R s t → R s' t) {s s' : σ} {t : τ}
    (hi : Relation.ReflTransGen I s s') (hs : R s t) : R s' t := by
  induction hi with
  | refl => exact hs
  | tail _ hstep ih => exact hI _ _ _ hstep ih

/-- Interference does not show through a relation that it keeps and that no allowed operation
breaks: the run gives the answer of the undisturbed one. -/
theorem Amid.agrees {A : ∀ γ : Type, E γ → γ → Prop} {P : ∀ γ : Type, E γ → Prop}
    (hI : ∀ s s' t, I s s' → R s t → R s' t)
    (hR : ∀ (γ : Type) (e : E γ) s t, P γ e → ok γ e s → R s t →
      (h γ e s).1 = (g γ e t).1 ∧ A γ e (h γ e s).1 ∧ R (h γ e s).2 (g γ e t).2)
    {x : Code E α} {s u : σ} {a : α} (hx : x.AllOn A P) (hr : Amid h I ok x s a u) {t : τ}
    (hs : R s t) : (x.run g t).1 = a ∧ R u (x.run g t).2 := by
  induction hr generalizing t with
  | ret a s => exact ⟨rfl, hs⟩
  | @op γ e k s s' u a hi hok _ ih =>
    have hs' : R s' t := interference_keeps hI hi hs
    obtain ⟨heq, ha, hnext⟩ := hR γ e s' t hx.1 hok hs'
    have hrest := ih (hx.2 _ ha) hnext
    rw [heq] at hrest
    exact hrest

end Lib.Programs.Code
