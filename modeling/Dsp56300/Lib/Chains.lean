import Mathlib.Order.Preorder.Finite
import Mathlib.Order.WellFounded

/-! Endless chains of a relation, and the cycles they come from where finitely many elements can be
reached. -/

namespace Lib.Chains

open Relation

variable {α : Type} {r : α → α → Prop} {a b : α} {chain : Nat → α}

/-- A chain that never ends. -/
def Endless (r : α → α → Prop) (a : α) : Prop :=
  ∃ chain : Nat → α, chain 0 = a ∧ ∀ i, r (chain i) (chain (i + 1))

theorem acc_iff_not_endless : Acc (fun x y => r y x) a ↔ ¬ Endless r a :=
  (not_iff_comm.mp not_acc_iff_exists_descending_chain).symm

theorem reaches (h : ∀ i, r (chain i) (chain (i + 1))) (i k : Nat) :
    ReflTransGen r (chain i) (chain (i + k)) := by
  induction k with
  | zero => exact .refl
  | succ k ih => exact ih.tail (h (i + k))

theorem acc_of_reaches (ha : Acc (fun x y => r y x) a) (hb : ReflTransGen r a b) :
    Acc (fun x y => r y x) b := by
  induction hb with
  | refl => exact ha
  | tail _ hstep ih => exact ih.inv hstep

theorem not_cycle_of_acc (ha : Acc (fun x y => r y x) a) : ¬ TransGen r a a := by
  induction ha with
  | intro x _ ih =>
    intro hcycle
    -- A step into the cycle, and round from there.
    obtain ⟨y, hstep, hback⟩ := TransGen.head'_iff.mp hcycle
    exact ih y hstep (.tail' hback hstep)

/-- Where finitely many elements follow, a chain that never ends comes to one it has been at. -/
theorem endless_iff_cycle (hfin : {b | TransGen r a b}.Finite) :
    Endless r a ↔ ∃ b, ReflTransGen r a b ∧ TransGen r b b := by
  constructor
  · rintro ⟨chain, rfl, h⟩
    have hmem (i : Nat) : chain (i + 1) ∈ {b | TransGen r (chain 0) b} := by
      have hi := reaches h 0 i
      rw [Nat.zero_add] at hi
      exact .tail' hi (h i)
    obtain ⟨i, j, hij, heq⟩ := hfin.exists_lt_map_eq_of_forall_mem hmem
    obtain ⟨k, rfl⟩ := Nat.exists_eq_add_of_lt hij
    refine ⟨chain (i + 1), (hmem i).to_reflTransGen, ?_⟩
    have hback : TransGen r (chain (i + 1)) (chain (i + 1 + k + 1)) :=
      .tail' (reaches h (i + 1) k) (h _)
    have hj : i + 1 + k + 1 = i + k + 1 + 1 := by omega
    rwa [hj, ← heq] at hback
  · rintro ⟨b, hb, hcycle⟩
    by_contra hnone
    exact not_cycle_of_acc (acc_of_reaches (acc_iff_not_endless.mpr hnone) hb) hcycle

/-- A rank that falls with every step leaves no endless chain. -/
theorem not_endless_of_rank (rank : α → Nat) (h : ∀ x y, r x y → rank y < rank x) :
    ¬ Endless r a := by
  rintro ⟨chain, -, hchain⟩
  obtain ⟨i, hi⟩ := WellFounded.not_rel_apply_succ (r := (· < ·)) fun i => rank (chain i)
  exact hi (h _ _ (hchain i))

end Lib.Chains
