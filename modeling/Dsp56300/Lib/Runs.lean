import Mathlib.Logic.Basic

namespace Lib.Runs

variable {σ ε : Type}

/-- A finite run of a labelled step relation. -/
inductive Run (step : σ → ε → σ → Prop) : σ → List ε → σ → Prop where
  | nil (s : σ) : Run step s [] s
  | cons {s t u : σ} {e : ε} {es : List ε} :
      step s e t → Run step t es u → Run step s (e :: es) u

namespace Run

variable {step : σ → ε → σ → Prop} {s t u : σ} {e : ε} {es fs : List ε}

theorem append (hr : Run step s es t) (hu : Run step t fs u) : Run step s (es ++ fs) u := by
  induction hr with
  | nil s => exact hu
  | cons hs _ ih => exact .cons hs (ih hu)

theorem snoc (hr : Run step s es t) (hs : step t e u) : Run step s (es ++ [e]) u :=
  hr.append (.cons hs (.nil u))

/-- What every step keeps, a run keeps. -/
theorem invariant {p : σ → Prop} (hstep : ∀ s e t, p s → step s e t → p t)
    (hr : Run step s es u) (hi : p s) : p u := by
  induction hr with
  | nil s => exact hi
  | cons hs _ ih => exact ih (hstep _ _ _ hi hs)

/-- A property no step gains held from the start, if it holds in the end. -/
theorem sooner {p : σ → Prop} (hstep : ∀ s e t, step s e t → p t → p s) (hr : Run step s es u)
    (hu : p u) : p s := by
  induction hr with
  | nil s => exact hu
  | cons hs _ ih => exact hstep _ _ _ hs (ih hu)

/-- A property that a step keeps under a condition, and only then, holds after exactly the runs
all of whose steps meet the condition. -/
theorem restrict {p : σ → Prop} {c : σ → ε → Prop}
    (h : ∀ s e t, step s e t → (p t ↔ p s ∧ c s e)) (hs : p s) :
    Run step s es u ∧ p u ↔ Run (fun s e t => step s e t ∧ c s e) s es u := by
  constructor
  · rintro ⟨hr, hu⟩
    clear hs
    induction hr with
    | nil s => exact .nil s
    | cons hs hr ih =>
      have ht := hr.sooner (fun s e t hs ht => ((h s e t hs).mp ht).1) hu
      exact .cons ⟨hs, ((h _ _ _ hs).mp ht).2⟩ (ih hu)
  · intro hr
    induction hr with
    | nil s => exact ⟨.nil s, hs⟩
    | cons hstep _ ih =>
      obtain ⟨hr, hu⟩ := ih ((h _ _ _ hstep.1).mpr ⟨hs, hstep.2⟩)
      exact ⟨.cons hstep.1 hr, hu⟩

/-- What simulates a step simulates a run. -/
theorem simulate {R : σ → σ → Prop}
    (hstep : ∀ s e s' t, step s e s' → R s t → ∃ t', step t e t' ∧ R s' t')
    (hr : Run step s es u) (h : R s t) : ∃ v, Run step t es v ∧ R u v := by
  induction hr generalizing t with
  | nil s => exact ⟨t, .nil t, h⟩
  | cons hs _ ih =>
    obtain ⟨t', ht, h'⟩ := hstep _ _ _ _ hs h
    obtain ⟨v, hv, hR⟩ := ih h'
    exact ⟨v, .cons ht hv, hR⟩

end Run

/-- Some event of the list satisfies `P`, and all that follow it satisfy `Q`. -/
def Since (P Q : ε → Prop) (es : List ε) : Prop :=
  ∃ fs e gs, es = fs ++ e :: gs ∧ P e ∧ ∀ g ∈ gs, Q g

variable {P Q : ε → Prop}

theorem not_since_nil : ¬ Since P Q [] := by
  rintro ⟨fs, e, gs, h, -⟩
  cases fs <;> cases h

/-- What the latest event adds. -/
theorem since_snoc {es : List ε} {e : ε} : Since P Q (es ++ [e]) ↔ P e ∨ Since P Q es ∧ Q e := by
  constructor
  · rintro ⟨fs, f, gs, h, hf, hgs⟩
    rcases List.eq_nil_or_concat gs with rfl | ⟨hs, g, rfl⟩
    · obtain ⟨-, hl⟩ := List.append_inj' h rfl
      exact .inl (List.singleton_inj.mp hl ▸ hf)
    · rw [List.concat_eq_append, ← List.cons_append, ← List.append_assoc] at h
      obtain ⟨hes, hl⟩ := List.append_inj' h rfl
      obtain rfl := List.singleton_inj.mp hl
      rw [List.concat_eq_append] at hgs
      exact .inr ⟨⟨fs, f, hs, hes, hf, fun g hg => hgs g (List.mem_append_left _ hg)⟩,
        hgs e (List.mem_append_right _ (List.mem_singleton_self e))⟩
  · rintro (he | ⟨⟨fs, f, gs, rfl, hf, hgs⟩, he⟩)
    · exact ⟨es, e, [], rfl, he, by simp⟩
    · refine ⟨fs, f, gs ++ [e], by simp, hf, fun g hg => ?_⟩
      rcases List.mem_append.mp hg with hg | hg
      · exact hgs g hg
      · exact List.mem_singleton.mp hg ▸ he

end Lib.Runs
