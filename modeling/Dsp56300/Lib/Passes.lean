import Mathlib.Logic.Relation

/-! Passes of a loop: runs of a step function, cut where a pass ends. -/

namespace Lib.Passes

variable {α : Type} (step : α → α) (allowed ends : α → Prop)

/-- Allowed steps that do not end the pass. -/
def Within : α → α → Prop :=
  Relation.ReflTransGen fun a b => allowed a ∧ ¬ ends a ∧ b = step a

/-- One pass: allowed steps, the last of which ends it. -/
def Pass (a b : α) : Prop := ∃ c, Within step allowed ends a c ∧ allowed c ∧ ends c ∧ b = step c

def Times : Nat → α → α → Prop
  | 0, a, b => b = a
  | n + 1, a, b => ∃ c, Times n a c ∧ Pass step allowed ends c b

/-- In `enters n` a loop is at its start with `n` passes to go, in `inside n` it is in a pass with
`n` more to go. -/
structure Counts (enters inside : Nat → α → Prop) : Prop where
  begins : ∀ n a, enters (n + 1) a → inside n a
  goes : ∀ n a, inside n a → allowed a → ¬ ends a → inside n (step a)
  passes : ∀ n a, inside n a → allowed a → ends a → enters n (step a)

variable {step allowed ends} {enters inside : Nat → α → Prop} {a b : α} {n : Nat}

theorem pass_of_ends (ha : allowed a) (he : ends a) : Pass step allowed ends a (step a) :=
  ⟨a, .refl, ha, he, rfl⟩

/-- A pass that could end at once has ended there. -/
theorem Pass.eq_step (hp : Pass step allowed ends a b) (he : ends a) : b = step a := by
  obtain ⟨c, hw, -, -, rfl⟩ := hp
  rcases Relation.ReflTransGen.cases_head hw with rfl | ⟨d, ⟨-, hn, -⟩, -⟩
  · rfl
  · exact absurd he hn

theorem Counts.within (h : Counts step allowed ends enters inside) (ha : inside n a)
    (hw : Within step allowed ends a b) : inside n b := by
  induction hw with
  | refl => exact ha
  | tail _ hs ih =>
    obtain ⟨hc, hn, rfl⟩ := hs
    exact h.goes _ _ ih hc hn

theorem Counts.pass (h : Counts step allowed ends enters inside) (ha : enters (n + 1) a)
    (hp : Pass step allowed ends a b) : enters n b := by
  obtain ⟨c, hw, hc, he, rfl⟩ := hp
  exact h.passes _ _ (h.within (h.begins _ _ ha) hw) hc he

/-- Each pass takes one off. -/
theorem Counts.times (h : Counts step allowed ends enters inside) {k : Nat}
    (ha : enters (k + n) a) (ht : Times step allowed ends k a b) : enters n b := by
  induction k generalizing b n with
  | zero =>
    obtain rfl := ht
    rwa [Nat.zero_add] at ha
  | succ k ih =>
    obtain ⟨c, hc, hp⟩ := ht
    refine h.pass (ih ?_ hc) hp
    rwa [Nat.add_right_comm] at ha

/-- Passes that all come to their end add up. -/
theorem exists_times (h : ∀ k < n, ∀ b, Times step allowed ends k a b →
    ∃ c, Pass step allowed ends b c) : ∃ b, Times step allowed ends n a b := by
  induction n with
  | zero => exact ⟨a, rfl⟩
  | succ n ih =>
    obtain ⟨b, hb⟩ := ih fun k hk => h k (Nat.lt_succ_of_lt hk)
    obtain ⟨c, hc⟩ := h n (Nat.lt_succ_self n) b hb
    exact ⟨c, b, hb, hc⟩

end Lib.Passes
