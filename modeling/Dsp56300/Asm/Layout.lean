import Dsp56300.Asm.Emit
import Dsp56300.Lib.Finmaps
import Dsp56300.Lib.Placement

namespace Dsp56300.Asm

open Lib.Finmaps Lib.Placement

/-- A word at an address of a memory space. -/
abbrev Cell := MemorySpace × Word × Word

/-- The cells of consecutive words. -/
def cells (space : MemorySpace) (addr : Word) (ws : List Word) : Multiset Cell :=
  (place (· + 1) addr ws).map (Prod.mk space)

theorem addr_iterate (n : Nat) (a : Word) : (fun a : Word => a + 1)^[n] a = a + BitVec.ofNat 32 n := by
  induction n generalizing a with
  | zero => simp
  | succ n ih =>
    rw [Function.iterate_succ_apply, ih, BitVec.ofNat_add, BitVec.add_assoc,
      BitVec.add_comm (1 : Word)]
    rfl

@[simp] theorem cells_nil (space : MemorySpace) (addr : Word) : cells space addr [] = 0 := rfl

theorem cells_append (space : MemorySpace) (addr : Word) (ws vs : List Word) :
    cells space addr (ws ++ vs) =
      cells space addr ws + cells space (addr + BitVec.ofNat 32 ws.length) vs := by
  rw [cells, place_append, Multiset.map_add, addr_iterate]
  rfl

theorem mem_cells_iff {space s : MemorySpace} {addr a w : Word} {ws : List Word} :
    (s, a, w) ∈ cells space addr ws ↔
      s = space ∧ ∃ i, ws[i]? = some w ∧ a = addr + BitVec.ofNat 32 i := by
  rw [cells, Multiset.mem_map]
  constructor
  · rintro ⟨⟨x, v⟩, hm, he⟩
    cases he
    obtain ⟨i, hi, hx⟩ := mem_place_iff.mp hm
    exact ⟨rfl, i, hi, hx.trans (addr_iterate i addr)⟩
  · rintro ⟨rfl, i, hi, ha⟩
    exact ⟨(a, w), mem_place_iff.mpr ⟨i, hi, ha.trans (addr_iterate i addr).symm⟩, rfl⟩

def Segment.cells (g : Segment) : Multiset Cell := Asm.cells g.space g.org g.words

def segmentCells (gs : List Segment) : Multiset Cell := (gs.map Segment.cells).sum

theorem segmentCells_append (gs hs : List Segment) :
    segmentCells (gs ++ hs) = segmentCells gs + segmentCells hs := by
  simp [segmentCells]

/-- The space a psect is declared with. -/
def spaceOf (psects : Psects) (name : String) : Option MemorySpace :=
  (psects.lookup name).map PsectState.space

/-- The cells of words saved under a name; without a declaration they have no place. -/
def savedCells (spaces : String → Option MemorySpace) (name : String) (saved : Word × List Word) :
    Multiset Cell :=
  match spaces name with
  | some space => cells space saved.1 saved.2
  | none => 0

theorem lookup_savePsect (psects : Psects) (current : Option String) (pc : Word) (n : String) :
    (savePsect psects current pc).lookup n =
      if current = some n then (psects.lookup n).map ({ · with pc := pc }) else psects.lookup n := by
  cases current with
  | none => rfl
  | some name =>
    by_cases hn : n = name
    · subst hn
      rw [if_pos rfl]
      cases h : psects.lookup n with
      | none => simp [savePsect, h]
      | some state => simp [savePsect, h]
    · rw [if_neg (fun he => hn (Option.some.inj he).symm)]
      cases h : psects.lookup name with
      | none => simp [savePsect, h]
      | some state => simp [savePsect, h, Finmap.lookup_insert_of_ne _ hn]

theorem spaceOf_savePsect (psects : Psects) (current : Option String) (pc : Word) :
    spaceOf (savePsect psects current pc) = spaceOf psects := by
  funext n
  rw [spaceOf, lookup_savePsect, spaceOf]
  split
  · rw [Option.map_map]
    rfl
  · rfl

theorem spaceOf_insert (psects : Psects) (name n : String) (state : PsectState) :
    spaceOf (psects.insert name state) n = if n = name then some state.space else spaceOf psects n := by
  unfold spaceOf
  split
  · rename_i h
    subst h
    simp
  · rename_i h
    rw [Finmap.lookup_insert_of_ne _ h]

namespace Emit

/-- The words saved under a name. -/
def savedWords (s : Emit) (name : String) : List Word :=
  match s.psectWords.lookup name with
  | some (_, words) => words
  | none => []

/-- Everything the state holds: segments, current words, and the words saved for psects. -/
def cells (s : Emit) : Multiset Cell :=
  segmentCells s.segments + Asm.cells s.space s.org s.words
    + collect s.psectWords (savedCells (spaceOf s.psects))

theorem flush_segments (s : Emit) :
    segmentCells s.flush.segments = segmentCells s.segments + Asm.cells s.space s.org s.words := by
  unfold flush
  split
  · rename_i h
    simp [h]
  · rw [segmentCells_append]
    simp [segmentCells, Segment.cells]

/-- The final segments hold what the state held. -/
theorem finish_cells (s : Emit) (order : IterOrder) : segmentCells (s.finish order) = s.cells := by
  have hs : segmentCells ((order.entries s.psectWords).filterMap s.savedSegment) =
      collect s.psectWords (savedCells (spaceOf s.psects)) := by
    rw [collect, ← order.coe_entries, Multiset.map_coe, Multiset.sum_coe, segmentCells]
    induction order.entries s.psectWords with
    | nil => rfl
    | cons e es ih =>
      rw [List.map_cons, List.sum_cons, ← ih]
      obtain ⟨name, org, words⟩ := e
      unfold savedCells spaceOf
      cases hw : words with
      | nil =>
        rw [List.filterMap_cons_none (by simp [savedSegment])]
        cases s.psects.lookup name <;> simp
      | cons w ws =>
        cases hl : s.psects.lookup name with
        | none =>
          rw [List.filterMap_cons_none (by simp [savedSegment, hl])]
          simp
        | some state =>
          rw [List.filterMap_cons_some (b := ⟨state.space, org, w :: ws⟩) (by simp [savedSegment, hl])]
          rfl
  rw [finish, segmentCells_append, flush_segments, hs]
  rfl

end Emit

end Dsp56300.Asm
