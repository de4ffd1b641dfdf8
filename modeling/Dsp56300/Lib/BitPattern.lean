import Mathlib.Data.BitVec
import Mathlib.Data.List.Basic

/-! Bit patterns, fixed bits at some positions and anything at the others, and
first-match lookup among them. -/

namespace Lib.BitPattern

variable {w : Nat}

/-- The words whose bits under `mask` are those of `value`. -/
structure Pattern (w : Nat) where
  mask : BitVec w
  value : BitVec w

namespace Pattern

def Matches (p : Pattern w) (x : BitVec w) : Prop := x &&& p.mask = p.value

/-- Some bit fixed by both patterns differs. -/
def Clash (p q : Pattern w) : Prop := p.mask &&& q.mask &&& (p.value ^^^ q.value) ≠ 0

instance (p q : Pattern w) : Decidable (p.Clash q) := inferInstanceAs (Decidable (_ ≠ _))

/-- Clashing patterns have no common word. -/
theorem Clash.not_both {p q : Pattern w} (h : p.Clash q) {x : BitVec w}
    (hp : p.Matches x) (hq : q.Matches x) : False := by
  apply h
  unfold Matches at hp hq
  rw [← hp, ← hq]
  ext i hi
  simp only [BitVec.getElem_and, BitVec.getElem_xor]
  cases p.mask[i] <;> cases q.mask[i] <;> simp

/-- A matching word agrees with the pattern on every part of its mask. -/
theorem Matches.and_of_sub {p : Pattern w} {x m : BitVec w} (h : p.Matches x)
    (hm : p.mask &&& m = m) : x &&& m = p.value &&& m := by
  unfold Matches at h
  rw [← h, BitVec.and_assoc, hm]

end Pattern

section FirstMatch

variable {α : Type*} {accepts keep : α → Bool} {l : List α}

/-- Dropping entries that cannot accept does not change the first match. -/
theorem find?_filter_of_imp (h : ∀ a ∈ l, accepts a = true → keep a = true) :
    (l.filter keep).find? accepts = l.find? accepts := by
  rw [List.find?_filter]
  induction l with
  | nil => rfl
  | cons a as ih =>
    have has := ih (fun b hb => h b (List.mem_cons_of_mem a hb))
    have ha := h a List.mem_cons_self
    cases hacc : accepts a with
    | true => simp [hacc, ha hacc]
    | false => simpa [List.find?_cons, hacc] using has

/-- Among pairwise exclusive entries the first match is any match. -/
theorem find?_of_exclusive
    (hx : l.Pairwise (fun a b => ¬ (accepts a = true ∧ accepts b = true))) {a : α}
    (ha : a ∈ l) (hacc : accepts a = true) : l.find? accepts = some a := by
  induction l with
  | nil => cases ha
  | cons b bs ih =>
    obtain ⟨hb, hbs⟩ := List.pairwise_cons.mp hx
    rcases List.mem_cons.mp ha with rfl | hm
    · exact List.find?_cons_of_pos hacc
    · have hn : ¬ accepts b = true := fun h => hb a hm ⟨h, hacc⟩
      rw [List.find?_cons_of_neg hn]
      exact ih hbs hm

/-- Among pairwise exclusive entries at most one position accepts. -/
theorem index_unique_of_exclusive
    (hx : l.Pairwise (fun a b => ¬ (accepts a = true ∧ accepts b = true))) {i j : Nat}
    (hi : i < l.length) (hj : j < l.length) (hai : accepts l[i] = true)
    (haj : accepts l[j] = true) : i = j := by
  rw [List.pairwise_iff_getElem] at hx
  rcases Nat.lt_trichotomy i j with hlt | heq | hgt
  · exact (hx i j hi hj hlt ⟨hai, haj⟩).elim
  · exact heq
  · exact (hx j i hj hi hgt ⟨haj, hai⟩).elim

end FirstMatch

end Lib.BitPattern
