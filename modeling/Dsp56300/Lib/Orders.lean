import Mathlib.Data.Multiset.Basic

/-! Results that may depend on the order in which a collection is gone through. -/

namespace Lib.Orders

variable {α γ : Type*} {f : α → Option γ}

/-- What a list contributes is the same in every order where all contributions are equal. -/
theorem filterMap_perm_of_const {l l' : List α} (h : l.Perm l')
    (hf : ∀ a ∈ l, ∀ b ∈ l, ∀ x y, f a = some x → f b = some y → x = y) :
    l.filterMap f = l'.filterMap f := by
  have hperm := h.filterMap f
  cases hl : l.filterMap f with
  | nil =>
    rw [hl] at hperm
    exact hperm.nil_eq
  | cons x xs =>
    rw [hl] at hperm
    have hx : x ∈ l.filterMap f := hl ▸ List.mem_cons_self
    obtain ⟨a, ha, hax⟩ := List.mem_filterMap.mp hx
    have hconst : ∀ y ∈ x :: xs, y = x := by
      intro y hy
      obtain ⟨b, hb, hby⟩ := List.mem_filterMap.mp (hl ▸ hy)
      exact hf b hb a ha y x hby hax
    have hrep := List.eq_replicate_of_mem hconst
    rw [hrep] at hperm ⊢
    exact (List.replicate_perm.mp hperm)

/-- Every order of a collection gives the same list exactly where no two contributions differ. -/
theorem filterMap_order_iff {s : Multiset α} :
    (∀ l l' : List α, (l : Multiset α) = s → (l' : Multiset α) = s →
      l.filterMap f = l'.filterMap f) ↔
    ∀ a ∈ s, ∀ b ∈ s, ∀ x y, f a = some x → f b = some y → x = y := by
  constructor
  · intro h a ha b hb x y hx hy
    by_cases hab : b = a
    · subst hab
      exact Option.some.inj (hx.symm.trans hy)
    · obtain ⟨t, rfl⟩ := Multiset.exists_cons_of_mem ha
      have hb' : b ∈ t := (Multiset.mem_cons.mp hb).resolve_left hab
      obtain ⟨u, rfl⟩ := Multiset.exists_cons_of_mem hb'
      have hu := u.coe_toList
      have horder := h (a :: b :: u.toList) (b :: a :: u.toList)
        (by rw [← Multiset.cons_coe, ← Multiset.cons_coe, hu])
        (by rw [← Multiset.cons_coe, ← Multiset.cons_coe, hu, Multiset.cons_swap])
      simp only [List.filterMap_cons, hx, hy, List.cons.injEq] at horder
      exact horder.1
  · intro h l l' hl hl'
    have hperm : l.Perm l' := Multiset.coe_eq_coe.mp (hl.trans hl'.symm)
    refine filterMap_perm_of_const hperm fun a ha b hb => ?_
    rw [← hl] at h
    exact h a ha b hb

end Lib.Orders
