import Dsp56300.Emu.CodeCache
import Mathlib.Order.Interval.Set.Defs

/-! Every block a cache can hold is reached by the window that a range invalidation scans. -/

namespace Dsp56300.CodeCache

variable {φ : Type}

/-- What changes the cache. -/
inductive Change (φ : Type) where
  | insert (pc : Word) (block : CompiledBlock φ)
  | evict (pc : Nat)
  | invalidateAll
  | invalidateRange (lo hi : Word)

def Change.apply (c : CodeCache φ) : Change φ → CodeCache φ
  | .insert pc block => c.insert pc block
  | .evict pc => c.set pc none
  | .invalidateAll => c.invalidateAll
  | .invalidateRange lo hi => c.invalidateRange lo hi

/-- A block is inserted at an entry the cache has and covers its first word. -/
def Change.Proper (n : Nat) : Change φ → Prop
  | .insert pc block => pc < block.endPc ∧ pc.toNat < n
  | _ => True

def changed (n : Nat) (cs : List (Change φ)) : CodeCache φ := cs.foldl Change.apply (new n)

/-- The cached blocks are not empty, and none is wider than `maxSpan`. -/
structure Spanned (n : Nat) (c : CodeCache φ) : Prop where
  length : c.blocks.length = n
  span : ∀ q b, c.get q = some b → q < b.endPc.toNat ∧ b.endPc.toNat - q ≤ c.maxSpan

theorem spanned_new (n : Nat) : (new n : CodeCache φ).Spanned n :=
  ⟨List.length_replicate, fun q b h => by rw [get_new] at h; cases h⟩

variable {n : Nat} {c : CodeCache φ}

theorem Spanned.insert (hc : c.Spanned n) {pc : Word} {block : CompiledBlock φ}
    (hb : pc < block.endPc) (hn : pc.toNat < n) : (c.insert pc block).Spanned n := by
  refine ⟨(insert_length c pc block).trans hc.length, fun q b h => ?_⟩
  rw [get_insert c (hc.length ▸ hn)] at h
  rw [insert_maxSpan]
  split at h
  · obtain rfl := Option.some.inj h
    subst q
    exact ⟨hb, Nat.le_max_right _ _⟩
  · obtain ⟨hq, hs⟩ := hc.span q b h
    exact ⟨hq, hs.trans (Nat.le_max_left _ _)⟩

/-- Dropping entries keeps the bound. -/
theorem Spanned.drop (hc : c.Spanned n) {d : CodeCache φ} (hl : d.blocks.length = c.blocks.length)
    (hm : d.maxSpan = c.maxSpan) (hg : ∀ q b, d.get q = some b → c.get q = some b) :
    d.Spanned n :=
  ⟨hl.trans hc.length, fun q b h => hm ▸ hc.span q b (hg q b h)⟩

theorem Spanned.apply (hc : c.Spanned n) {e : Change φ} (he : e.Proper n) :
    (e.apply c).Spanned n := by
  cases e with
  | insert pc block => exact hc.insert he.1 he.2
  | evict pc =>
    refine hc.drop (set_length c pc none) rfl fun q b h => ?_
    by_cases hp : pc < c.blocks.length
    · rw [Change.apply, get_set c hp] at h
      split at h
      · cases h
      · exact h
    · have hs : c.set pc none = c := by rw [set, List.set_eq_of_length_le (by omega)]
      rwa [Change.apply, hs] at h
  | invalidateAll =>
    refine hc.drop (invalidateAll_length c) rfl fun q b h => ?_
    rw [Change.apply, get_invalidateAll] at h
    cases h
  | invalidateRange lo hi =>
    exact hc.drop (invalidateRange_length c lo hi) (invalidateRange_maxSpan c lo hi)
      fun q b h => (get_invalidateRange h).1

theorem spanned_changed (cs : List (Change φ)) (hcs : ∀ e ∈ cs, e.Proper n) :
    (changed n cs).Spanned n := by
  induction cs using List.reverseRecOn with
  | nil => exact spanned_new n
  | append_singleton cs e ih =>
    have hc := ih fun f hf => hcs f (List.mem_append_left _ hf)
    have he := hcs e (List.mem_append_right _ (List.mem_singleton_self e))
    rw [changed, List.foldl_append]
    exact hc.apply he

/-- The code of a block at `q` and the written words have one in common. -/
def Overlaps (lo hi : Word) (q : Nat) (block : CompiledBlock φ) : Prop :=
  (Set.Ico q block.endPc.toNat ∩ Set.Icc lo.toNat hi.toNat).Nonempty

theorem overlaps_iff {lo hi : Word} (h : lo ≤ hi) {q : Nat} {b : CompiledBlock φ}
    (hq : q < b.endPc.toNat) : Overlaps lo hi q b ↔ q ≤ hi.toNat ∧ lo.toNat < b.endPc.toNat := by
  have h : lo.toNat ≤ hi.toNat := h
  constructor
  · intro ho
    obtain ⟨a, ha, hr⟩ := ho
    exact ⟨ha.1.trans hr.2, hr.1.trans_lt ha.2⟩
  · intro ho
    exact ⟨max q lo.toNat, ⟨Nat.le_max_left _ _, Nat.max_lt.mpr ⟨hq, ho.2⟩⟩,
      Nat.le_max_right _ _, Nat.max_le.mpr ⟨ho.1, h⟩⟩

/-- The window misses no overlapping block. -/
theorem Spanned.window (hc : c.Spanned n) {lo : Word} {q : Nat} {b : CompiledBlock φ}
    (hb : c.get q = some b) (ho : lo.toNat < b.endPc.toNat) :
    lo.toNat - (c.maxSpan - 1) ≤ q := by
  have hs := hc.span q b hb
  omega

/-- In any reachable cache, a range invalidation drops the blocks that overlap the range and
keeps every other entry. -/
theorem changed_invalidateRange (cs : List (Change φ)) (hcs : ∀ e ∈ cs, e.Proper n) {lo hi : Word}
    (h : lo ≤ hi) (q : Nat) :
    (∀ b, (changed n cs).get q = some b → Overlaps lo hi q b →
        ((changed n cs).invalidateRange lo hi).get q = none) ∧
      ((∀ b, (changed n cs).get q = some b → ¬ Overlaps lo hi q b) →
        ((changed n cs).invalidateRange lo hi).get q = (changed n cs).get q) ∧
      ((changed n cs).invalidateRange lo hi).blocks.length = n := by
  have hc := spanned_changed cs hcs
  generalize changed n cs = c at hc ⊢
  refine ⟨fun b hb ho => ?_, fun hn => ?_, (invalidateRange_length c lo hi).trans hc.length⟩
  · obtain ⟨hhi, hlo⟩ := (overlaps_iff h (hc.span q b hb).1).mp ho
    rw [invalidateRange_get, if_pos ⟨hc.window hb hlo, hhi⟩, hb]
    simp [Option.filter, hlo]
  · cases hb : c.get q with
    | none => simp [invalidateRange_get, hb]
    | some b =>
      have ho := hn b hb
      rw [overlaps_iff h (hc.span q b hb).1] at ho
      rw [invalidateRange_get, hb]
      split
      · rename_i hw
        have hle : b.endPc.toNat ≤ lo.toNat := Nat.le_of_not_lt fun hlo => ho ⟨hw.2, hlo⟩
        simp [Option.filter, hle]
      · rfl

/-- A wide block whose code reaches into the range from far below it goes. -/
theorem changed_invalidateRange_wide :
    ((changed 64 [.insert 0 ⟨(), 40, 0, false⟩, .insert 50 ⟨(), 51, 0, false⟩, .evict 50]
      ).invalidateRange 38 60).get 0 = none := by
  have hcs : ∀ e ∈ ([.insert 0 ⟨(), 40, 0, false⟩, .insert 50 ⟨(), 51, 0, false⟩, .evict 50] :
      List (Change Unit)), e.Proper 64 := by
    intro e he
    simp only [List.mem_cons, List.not_mem_nil, or_false] at he
    rcases he with rfl | rfl | rfl
    · exact ⟨by decide, by decide⟩
    · exact ⟨by decide, by decide⟩
    · trivial
  have hle : (38 : Word) ≤ 60 := by decide
  obtain ⟨h, -⟩ := changed_invalidateRange _ hcs hle 0
  exact h ⟨(), 40, 0, false⟩ rfl ⟨38, ⟨by decide, by decide⟩, by decide, by decide⟩

end Dsp56300.CodeCache
