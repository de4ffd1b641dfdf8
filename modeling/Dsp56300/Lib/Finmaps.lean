import Mathlib.Data.Finmap
import Mathlib.Algebra.Order.Group.Multiset

namespace Lib.Finmaps

variable {α : Type*} [DecidableEq α] {β : α → Type*} {γ : Type*}

theorem insert_erase_of_lookup {m : Finmap β} {a : α} {b : β a} (h : m.lookup a = some b) :
    (m.erase a).insert a b = m := by
  apply Finmap.ext_lookup
  intro x
  by_cases hx : x = a
  · subst hx
    rw [Finmap.lookup_insert, h]
  · rw [Finmap.lookup_insert_of_ne _ hx, Finmap.lookup_erase_ne hx]

theorem insert_eq_insert_erase (m : Finmap β) (a : α) (b : β a) :
    m.insert a b = (m.erase a).insert a b := by
  apply Finmap.ext_lookup
  intro x
  by_cases hx : x = a
  · subst hx
    rw [Finmap.lookup_insert, Finmap.lookup_insert]
  · rw [Finmap.lookup_insert_of_ne _ hx, Finmap.lookup_insert_of_ne _ hx,
      Finmap.lookup_erase_ne hx]

theorem erase_of_lookup_none {m : Finmap β} {a : α} (h : m.lookup a = none) : m.erase a = m := by
  apply Finmap.ext_lookup
  intro x
  by_cases hx : x = a
  · subst hx
    rw [Finmap.lookup_erase, h]
  · rw [Finmap.lookup_erase_ne hx]

theorem mem_entries_iff {m : Finmap β} {a : α} {b : β a} :
    ⟨a, b⟩ ∈ m.entries ↔ m.lookup a = some b := by
  induction m using Finmap.induction_on with
  | H s =>
    rw [Finmap.lookup_toFinmap, ← Option.mem_def, AList.mem_lookup_iff, AList.toFinmap_entries,
      Multiset.mem_coe]

/-- Everything the entries of a finite map contribute. -/
def collect (m : Finmap β) (f : ∀ a, β a → Multiset γ) : Multiset γ :=
  (m.entries.map fun e => f e.1 e.2).sum

omit [DecidableEq α] in
@[simp] theorem collect_empty (f : ∀ a, β a → Multiset γ) : collect ∅ f = 0 := rfl

theorem collect_insert (m : Finmap β) (f : ∀ a, β a → Multiset γ) (a : α) (b : β a) :
    collect (m.insert a b) f = f a b + collect (m.erase a) f := by
  rw [collect, insert_eq_insert_erase, Finmap.entries_insert_of_notMem Finmap.notMem_erase_self,
    Multiset.map_cons, Multiset.sum_cons]
  rfl

theorem collect_of_lookup {m : Finmap β} {a : α} {b : β a} (f : ∀ a, β a → Multiset γ)
    (h : m.lookup a = some b) : collect m f = f a b + collect (m.erase a) f := by
  have hi := collect_insert (m.erase a) f a b
  rwa [insert_erase_of_lookup h, erase_of_lookup_none (Finmap.lookup_erase a m)] at hi

theorem collect_congr {m : Finmap β} {f g : ∀ a, β a → Multiset γ}
    (h : ∀ a b, m.lookup a = some b → f a b = g a b) : collect m f = collect m g := by
  rw [collect, collect, Multiset.map_congr rfl]
  rintro ⟨a, b⟩ hm
  exact h a b (mem_entries_iff.mp hm)

end Lib.Finmaps
