import Mathlib.Logic.Basic

namespace Lib.Snapshots

variable {α : Type}

/-- A copy of the cells [lo, hi) of a store, taken at some moment. -/
structure Snapshot (α : Type) where
  lo : Nat
  hi : Nat
  word : Nat → α

namespace Snapshot

def Covers (p : Snapshot α) (a : Nat) : Prop := p.lo ≤ a ∧ a < p.hi

/-- Every cell the copy no longer agrees with is marked dirty. -/
def Tracks (p : Snapshot α) (mem : Nat → α) (dirty : Nat → Prop) : Prop :=
  ∀ a, p.Covers a → mem a = p.word a ∨ dirty a

variable {p : Snapshot α} {mem mem' : Nat → α} {dirty dirty' : Nat → Prop}

/-- A write that marks the cell it changes keeps every copy tracked. -/
theorem Tracks.write (hp : p.Tracks mem dirty) {c : Nat}
    (hm : ∀ a, p.Covers a → a ≠ c → mem' a = mem a) (hd : ∀ a, dirty a → dirty' a)
    (hc : dirty' c) : p.Tracks mem' dirty' := by
  intro a ha
  by_cases hac : a = c
  · exact Or.inr (hac ▸ hc)
  · rw [hm a ha hac]
    exact (hp a ha).imp_right (hd a)

/-- Marks may be dropped where the copy does not reach. -/
theorem Tracks.clear (hp : p.Tracks mem dirty) (hm : ∀ a, p.Covers a → mem' a = mem a)
    (hd : ∀ a, p.Covers a → dirty a → dirty' a) : p.Tracks mem' dirty' := by
  intro a ha
  rw [hm a ha]
  exact (hp a ha).imp_right (hd a ha)

/-- A tracked copy with no mark on it is exact. -/
theorem Tracks.exact (hp : p.Tracks mem dirty) (hc : ∀ a, p.Covers a → ¬ dirty a) {a : Nat}
    (ha : p.Covers a) : mem a = p.word a :=
  (hp a ha).resolve_right (hc a ha)

end Snapshot

end Lib.Snapshots
