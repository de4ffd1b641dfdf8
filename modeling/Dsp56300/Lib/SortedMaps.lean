import Mathlib.Data.List.Induction

/-! Maps as lists sorted by key. -/

namespace Lib.SortedMaps

/-- A map whose entries are in increasing order of their keys. -/
structure SortedMap (κ β : Type) [LT κ] where
  entries : List (κ × β)
  sorted : entries.Pairwise fun a b => a.1 < b.1

variable {κ β : Type}

/-- `e` is the last entry of a list for its key. -/
def LastOf (l : List (κ × β)) (e : κ × β) : Prop :=
  ∃ pre post, l = pre ++ e :: post ∧ ∀ p ∈ post, p.1 ≠ e.1

theorem lastOf_snoc {l : List (κ × β)} {p e : κ × β} :
    LastOf (l ++ [p]) e ↔ e = p ∨ LastOf l e ∧ e.1 ≠ p.1 := by
  constructor
  · intro ⟨pre, post, heq, hpost⟩
    rcases List.eq_nil_or_concat post with rfl | ⟨post', q, rfl⟩
    · exact .inl (List.append_inj_right' heq rfl |> List.singleton_inj.mp).symm
    · rw [List.concat_eq_append] at heq hpost
      rw [← List.cons_append, ← List.append_assoc] at heq
      obtain ⟨hl, hq⟩ := List.append_inj' heq rfl
      have hqp : p = q := List.singleton_inj.mp hq
      refine .inr ⟨⟨pre, post', hl, fun x hx => hpost x (List.mem_append_left _ hx)⟩, ?_⟩
      rw [hqp]
      exact (hpost q (List.mem_append_right _ List.mem_cons_self)).symm
  · intro h
    rcases h with rfl | ⟨⟨pre, post, rfl, hpost⟩, hne⟩
    · exact ⟨l, [], rfl, fun _ hp => absurd hp List.not_mem_nil⟩
    · refine ⟨pre, post ++ [p], by simp, fun x hx => ?_⟩
      rcases List.mem_append.mp hx with hx | hx
      · exact hpost x hx
      · rw [List.mem_singleton.mp hx]
        exact hne.symm

theorem LastOf.mem {l : List (κ × β)} {e : κ × β} (h : LastOf l e) : e ∈ l := by
  obtain ⟨pre, post, rfl, -⟩ := h
  exact List.mem_append_right _ List.mem_cons_self

/-- A key that occurs has a last entry. -/
theorem exists_lastOf {l : List (κ × β)} {k : κ} : (∃ v, LastOf l (k, v)) ↔ ∃ v, (k, v) ∈ l := by
  refine ⟨fun ⟨v, h⟩ => ⟨v, h.mem⟩, fun h => ?_⟩
  induction l using List.reverseRecOn with
  | nil =>
    obtain ⟨v, h⟩ := h
    exact absurd h List.not_mem_nil
  | append_singleton l p ih =>
    by_cases hk : p.1 = k
    · exact ⟨p.2, lastOf_snoc.mpr (.inl (Prod.ext hk.symm rfl))⟩
    · obtain ⟨v, h⟩ := h
      have hmem : (k, v) ∈ l := by
        rcases List.mem_append.mp h with h | h
        · exact h
        · exact absurd (congrArg Prod.fst (List.mem_singleton.mp h)).symm hk
      obtain ⟨v', hlast⟩ := ih ⟨v, hmem⟩
      exact ⟨v', lastOf_snoc.mpr (.inr ⟨hlast, Ne.symm hk⟩)⟩

/-- The last entry of one key among the entries a filter keeps under another. -/
theorem lastOf_filterMap {κ' : Type} {f : κ × β → Option (κ' × β)} {k : κ} {k' : κ'}
    (hon : ∀ v, f (k, v) = some (k', v)) (hoff : ∀ p q, p.1 ≠ k → f p = some q → q.1 ≠ k')
    {l : List (κ × β)} {v : β} : LastOf (l.filterMap f) (k', v) ↔ LastOf l (k, v) := by
  induction l using List.reverseRecOn with
  | nil => simp [LastOf]
  | append_singleton l p ih =>
    rw [List.filterMap_append, lastOf_snoc]
    by_cases hk : p.1 = k
    · obtain ⟨_, w⟩ := p
      obtain rfl : _ = k := hk
      rw [List.filterMap_cons, hon, List.filterMap_nil, lastOf_snoc]
      simp
    · have hne : (k, v) ≠ p := fun he => hk (congrArg Prod.fst he).symm
      cases hf : f p with
      | none =>
        rw [List.filterMap_cons, hf, List.filterMap_nil, List.append_nil, ih]
        exact ⟨fun h => .inr ⟨h, Ne.symm hk⟩, fun h => (h.resolve_left hne).1⟩
      | some q =>
        have hq : k' ≠ q.1 := Ne.symm (hoff p q hk hf)
        rw [List.filterMap_cons, hf, List.filterMap_nil, lastOf_snoc, ih]
        exact ⟨fun h => .inr ⟨(h.resolve_left fun he => hq (congrArg Prod.fst he)).1, Ne.symm hk⟩,
          fun h => .inr ⟨(h.resolve_left hne).1, hq⟩⟩

variable [LE κ] [LT κ] [DecidableLT κ] [DecidableEq κ] [Std.IsLinearOrder κ]
  [Std.LawfulOrderLT κ]

namespace SortedMap

def insertEntry (k : κ) (v : β) : List (κ × β) → List (κ × β)
  | [] => [(k, v)]
  | e :: rest =>
    if k < e.1 then (k, v) :: e :: rest
    else if k = e.1 then (k, v) :: rest
    else e :: insertEntry k v rest

theorem mem_insertEntry {k : κ} {v : β} {e : κ × β} {l : List (κ × β)}
    (h : l.Pairwise fun a b => a.1 < b.1) :
    e ∈ insertEntry k v l ↔ e = (k, v) ∨ e ∈ l ∧ e.1 ≠ k := by
  induction l with
  | nil => simp [insertEntry]
  | cons p rest ih =>
    obtain ⟨hp, hrest⟩ := List.pairwise_cons.mp h
    unfold insertEntry
    by_cases hlt : k < p.1
    · have hall : ∀ x ∈ p :: rest, x.1 ≠ k := by
        intro x hx
        rcases List.mem_cons.mp hx with rfl | hx
        · exact (Std.ne_of_lt hlt).symm
        · exact (Std.ne_of_lt (Std.lt_trans hlt (hp x hx))).symm
      rw [if_pos hlt, List.mem_cons]
      exact or_congr_right ⟨fun hx => ⟨hx, hall e hx⟩, And.left⟩
    · rw [if_neg hlt]
      by_cases heq : k = p.1
      · have hall : ∀ x ∈ rest, x.1 ≠ k := fun x hx => heq ▸ (Std.ne_of_lt (hp x hx)).symm
        rw [if_pos heq, List.mem_cons]
        refine or_congr_right ⟨fun hx => ⟨List.mem_cons_of_mem _ hx, hall e hx⟩, fun hx => ?_⟩
        exact (List.mem_cons.mp hx.1).resolve_left fun he => hx.2 (he ▸ heq.symm)
      · rw [if_neg heq, List.mem_cons, ih hrest, List.mem_cons]
        constructor
        · intro hx
          rcases hx with rfl | rfl | ⟨hx, hne⟩
          · exact .inr ⟨.inl rfl, fun he => heq he.symm⟩
          · exact .inl rfl
          · exact .inr ⟨.inr hx, hne⟩
        · intro hx
          rcases hx with rfl | ⟨rfl | hx, hne⟩
          · exact .inr (.inl rfl)
          · exact .inl rfl
          · exact .inr (.inr ⟨hx, hne⟩)

theorem sorted_insertEntry {l : List (κ × β)} (h : l.Pairwise fun a b => a.1 < b.1) (k : κ)
    (v : β) : (insertEntry k v l).Pairwise fun a b => a.1 < b.1 := by
  induction l with
  | nil => exact List.pairwise_singleton _ _
  | cons p rest ih =>
    obtain ⟨hp, hrest⟩ := List.pairwise_cons.mp h
    unfold insertEntry
    by_cases hlt : k < p.1
    · rw [if_pos hlt]
      refine List.pairwise_cons.mpr ⟨fun x hx => ?_, h⟩
      rcases List.mem_cons.mp hx with rfl | hx
      · exact hlt
      · exact Std.lt_trans hlt (hp x hx)
    · rw [if_neg hlt]
      by_cases heq : k = p.1
      · rw [if_pos heq]
        exact List.pairwise_cons.mpr ⟨fun x hx => heq ▸ hp x hx, hrest⟩
      · rw [if_neg heq]
        refine List.pairwise_cons.mpr ⟨fun x hx => ?_, ih hrest⟩
        rcases (mem_insertEntry hrest).mp hx with rfl | ⟨hx, -⟩
        · exact Std.lt_of_le_of_ne (Std.not_lt.mp hlt) fun he => heq he.symm
        · exact hp x hx

/-- Map `k` to `v`, whatever it was mapped to. -/
def insert (m : SortedMap κ β) (k : κ) (v : β) : SortedMap κ β :=
  ⟨insertEntry k v m.entries, sorted_insertEntry m.sorted k v⟩

def empty : SortedMap κ β := ⟨[], List.Pairwise.nil⟩

/-- Enter the pairs of a list one after another. -/
def ofList (l : List (κ × β)) : SortedMap κ β := l.foldl (fun m p => m.insert p.1 p.2) empty

/-- A key keeps the last value it is given. -/
theorem mem_ofList {l : List (κ × β)} {e : κ × β} : e ∈ (ofList l).entries ↔ LastOf l e := by
  induction l using List.reverseRecOn with
  | nil =>
    refine ⟨fun h => absurd h List.not_mem_nil, fun ⟨pre, post, h, _⟩ => ?_⟩
    exact absurd h.symm (by simp)
  | append_singleton l p ih =>
    have hsnoc : ofList (l ++ [p]) = (ofList l).insert p.1 p.2 := List.foldl_append ..
    rw [hsnoc, lastOf_snoc, ← ih]
    exact mem_insertEntry (ofList l).sorted

end SortedMap

end Lib.SortedMaps
