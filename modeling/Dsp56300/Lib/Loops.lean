import Mathlib.Logic.Basic

/-! Loops that run until a condition fails, and what more of their budget changes. -/

namespace Lib.Loops

variable {σ : Type} {next : σ → Option σ} {s t u m : σ}

/-- The loop with fuel: `next` is one iteration, or nothing where the loop is left. -/
def loop (next : σ → Option σ) : Nat → σ → Option σ
  | 0, _ => none
  | n + 1, s =>
    match next s with
    | none => some s
    | some t => loop next n t

/-- The loop entered in `s` is left in `t`. -/
def Ends (next : σ → Option σ) (s t : σ) : Prop := ∃ n, loop next n s = some t

theorem ends_of_none (h : next s = none) : Ends next s t ↔ t = s := by
  constructor
  · rintro ⟨n, hn⟩
    cases n with
    | zero => cases hn
    | succ n =>
      simp only [loop, h, Option.some.injEq] at hn
      exact hn.symm
  · intro he
    exact ⟨1, by simp [loop, h, he]⟩

theorem ends_of_some (h : next s = some t) : Ends next s u ↔ Ends next t u := by
  constructor
  · rintro ⟨n, hn⟩
    cases n with
    | zero => cases hn
    | succ n =>
      simp only [loop, h] at hn
      exact ⟨n, hn⟩
  · rintro ⟨n, hn⟩
    exact ⟨n + 1, by simpa [loop, h] using hn⟩

theorem Ends.unique (h : Ends next s t) (h' : Ends next s u) : t = u := by
  obtain ⟨n, hn⟩ := h
  induction n generalizing s with
  | zero => cases hn
  | succ n ih =>
    cases hs : next s with
    | none =>
      simp only [loop, hs, Option.some.injEq] at hn
      rw [(ends_of_none hs).mp h', hn]
    | some s' =>
      simp only [loop, hs] at hn
      exact ih ((ends_of_some hs).mp h') hn

/-- Where `more` gives the loop more to spend: an iteration does not notice, or it is the last
one, and what is given afterwards is lost as well. -/
def Sliceable (next : σ → Option σ) (more : σ → σ) : Prop :=
  ∀ s t, next s = some t → next (more s) = some (more t) ∨
    (next (more s) = some t ∧ next t = none ∧ Ends next (more t) t)

/-- Running the loop with more to spend is running it, and running on with more to spend. -/
theorem ends_more_iff {more : σ → σ} (hm : Sliceable next more) :
    Ends next (more s) u ↔ ∃ m, Ends next s m ∧ Ends next (more m) u := by
  constructor
  · rintro ⟨n, hn⟩
    induction n generalizing s with
    | zero => cases hn
    | succ n ih =>
      cases hs : next s with
      | none => exact ⟨s, (ends_of_none hs).mpr rfl, n + 1, hn⟩
      | some t =>
        rcases hm s t hs with hk | ⟨hk, ht, he⟩
        · simp only [loop, hk] at hn
          obtain ⟨m, hsm, hmu⟩ := ih hn
          exact ⟨m, (ends_of_some hs).mpr hsm, hmu⟩
        · simp only [loop, hk] at hn
          have hut : u = t := (ends_of_none ht).mp ⟨n, hn⟩
          exact ⟨t, (ends_of_some hs).mpr ((ends_of_none ht).mpr rfl), hut ▸ he⟩
  · rintro ⟨m, ⟨n, hn⟩, hmu⟩
    induction n generalizing s with
    | zero => cases hn
    | succ n ih =>
      cases hs : next s with
      | none =>
        simp only [loop, hs, Option.some.injEq] at hn
        exact hn ▸ hmu
      | some t =>
        simp only [loop, hs] at hn
        rcases hm s t hs with hk | ⟨hk, ht, he⟩
        · exact (ends_of_some hk).mpr (ih hn)
        · have hmt : m = t := (ends_of_none ht).mp ⟨n, hn⟩
          subst hmt
          exact (ends_of_some hk).mpr ((ends_of_none ht).mpr (hmu.unique he))

/-- What every iteration keeps, the loop keeps. -/
theorem Ends.invariant {p : σ → Prop} (hp : ∀ s t, p s → next s = some t → p t)
    (h : Ends next s u) (hs : p s) : p u := by
  obtain ⟨n, hn⟩ := h
  induction n generalizing s with
  | zero => cases hn
  | succ n ih =>
    cases hnext : next s with
    | none =>
      simp only [loop, hnext, Option.some.injEq] at hn
      exact hn ▸ hs
    | some t =>
      simp only [loop, hnext] at hn
      exact ih (hp s t hs hnext) hn

/-- Loops whose iterations stay related are left in related states. -/
theorem Ends.simulate {R : σ → σ → Prop}
    (hR : ∀ s t, R s t → (next s = none ∧ next t = none) ∨
      ∃ s' t', next s = some s' ∧ next t = some t' ∧ R s' t')
    (h : Ends next s u) (hst : R s t) : ∃ v, Ends next t v ∧ R u v := by
  obtain ⟨n, hn⟩ := h
  induction n generalizing s t with
  | zero => cases hn
  | succ n ih =>
    rcases hR s t hst with ⟨hs, ht⟩ | ⟨s', t', hs, ht, h'⟩
    · simp only [loop, hs, Option.some.injEq] at hn
      exact ⟨t, (ends_of_none ht).mpr rfl, hn ▸ hst⟩
    · simp only [loop, hs] at hn
      obtain ⟨v, hv, hu⟩ := ih h' hn
      exact ⟨v, (ends_of_some ht).mpr hv, hu⟩

end Lib.Loops
