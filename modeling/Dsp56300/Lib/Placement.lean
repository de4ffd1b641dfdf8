import Mathlib.Data.Multiset.AddSub

namespace Lib.Placement

variable {α β : Type*} {next : α → α}

/-- The values of a list at consecutive addresses from `a` on. -/
def place (next : α → α) (a : α) : List β → Multiset (α × β)
  | [] => 0
  | b :: bs => (a, b) ::ₘ place next (next a) bs

@[simp] theorem place_nil (a : α) : place next a ([] : List β) = 0 := rfl

theorem place_append (a : α) (bs cs : List β) :
    place next a (bs ++ cs) = place next a bs + place next (next^[bs.length] a) cs := by
  induction bs generalizing a with
  | nil => simp
  | cons b bs ih =>
    rw [List.cons_append, place, place, ih, Multiset.cons_add]
    rfl

/-- What stands where: the `i`-th value `i` steps after the first. -/
theorem mem_place_iff {a x : α} {bs : List β} {b : β} :
    (x, b) ∈ place next a bs ↔ ∃ i, bs[i]? = some b ∧ x = next^[i] a := by
  induction bs generalizing a with
  | nil => simp
  | cons c bs ih =>
    rw [place, Multiset.mem_cons, ih]
    constructor
    · rintro (he | ⟨i, hi, hx⟩)
      · obtain ⟨rfl, rfl⟩ := Prod.mk.inj he
        exact ⟨0, rfl, rfl⟩
      · exact ⟨i + 1, hi, hx⟩
    · rintro ⟨i, hi, hx⟩
      cases i with
      | zero =>
        left
        rw [hx]
        exact congrArg _ (Option.some.inj hi).symm
      | succ i => exact Or.inr ⟨i, hi, hx⟩

end Lib.Placement
