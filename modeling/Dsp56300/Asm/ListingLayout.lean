import Dsp56300.Asm.EmitLayout

namespace Dsp56300.Asm

open Lib.Results

/-- The segment holds `w` at an address of a space. -/
def Segment.Holds (g : Segment) (space : MemorySpace) (addr w : Word) : Prop :=
  space = g.space ∧ ∃ i, g.words[i]? = some w ∧ addr = g.org + BitVec.ofNat 32 i

/-- A listing line has `w` at an address of a space. -/
def ListingLine.Lists (l : ListingLine) (space : MemorySpace) (addr w : Word) : Prop :=
  space = l.space ∧ ∃ i, l.words[i]? = some w ∧ addr = l.addr + BitVec.ofNat 32 i

/-- Instructions and `dc` directives. -/
def Statement.hasWords : Statement → Bool
  | .instruction _ _ | .directive _ (.dc _) => true
  | _ => false

/-- A `ds` listed at `l` reserves an address. -/
def Statement.Reserves (stmt : Statement) (sym : SymbolTable) (l : ListingLine)
    (space : MemorySpace) (addr : Word) : Prop :=
  ∃ label size n, stmt = .directive label (.ds size) ∧ eval size sym l.addr = .ok n ∧
    space = l.space ∧ ∃ i < n.toNat, addr = l.addr + BitVec.ofNat 32 i

/-- The segments are the listing laid out in memory: every listed word is in a segment, and the
segments hold nothing but listed words and the zeros of `ds` directives. -/
structure LaidOut (program : Program) (r : AssembleResult) : Prop where
  listed : ∀ (i : Nat) (stmt : Statement) (l : ListingLine), program[i]? = some stmt →
    r.listing[i]? = some (some l) → stmt.hasWords = true → ∀ space addr w, l.Lists space addr w →
    ∃ g ∈ r.segments, g.Holds space addr w
  only : ∀ g ∈ r.segments, ∀ space addr w, g.Holds space addr w →
    ∃ (i : Nat) (stmt : Statement) (l : ListingLine), program[i]? = some stmt ∧
      r.listing[i]? = some (some l) ∧
      (stmt.hasWords = true ∧ l.Lists space addr w ∨ w = 0 ∧ stmt.Reserves r.symbols l space addr)

theorem Segment.holds_iff {g : Segment} {space : MemorySpace} {addr w : Word} :
    g.Holds space addr w ↔ (space, addr, w) ∈ g.cells :=
  mem_cells_iff.symm

theorem mem_segmentCells {gs : List Segment} {c : Cell} :
    c ∈ segmentCells gs ↔ ∃ g ∈ gs, c ∈ g.cells := by
  induction gs with
  | nil => simp [segmentCells]
  | cons g gs ih =>
    have hc : segmentCells (g :: gs) = g.cells + segmentCells gs := rfl
    rw [hc, Multiset.mem_add, ih]
    simp

theorem mem_listedCells {sym : SymbolTable} {program : Program}
    {listing : List (Option ListingLine)} {c : Cell} :
    c ∈ listedCells sym program listing ↔ ∃ (i : Nat) (stmt : Statement) (entry : Option ListingLine),
      program[i]? = some stmt ∧ listing[i]? = some entry ∧ c ∈ lineCells sym stmt entry := by
  induction program generalizing listing with
  | nil => simp [listedCells]
  | cons stmt rest ih =>
    cases listing with
    | nil => simp [listedCells]
    | cons entry entries =>
      have hc : listedCells sym (stmt :: rest) (entry :: entries) =
          lineCells sym stmt entry + listedCells sym rest entries := rfl
      rw [hc, Multiset.mem_add, ih]
      constructor
      · rintro (h | ⟨i, st, e, hs, he, h⟩)
        · exact ⟨0, stmt, entry, rfl, rfl, h⟩
        · exact ⟨i + 1, st, e, hs, he, h⟩
      · rintro ⟨i, st, e, hs, he, h⟩
        cases i with
        | zero =>
          cases hs
          cases he
          exact Or.inl h
        | succ i => exact Or.inr ⟨i, st, e, hs, he, h⟩

/-- The cells of a line are what it lists and what it reserves. -/
theorem mem_lineCells {sym : SymbolTable} {stmt : Statement} {entry : Option ListingLine}
    {space : MemorySpace} {addr w : Word} :
    (space, addr, w) ∈ lineCells sym stmt entry ↔ ∃ l, entry = some l ∧
      (stmt.hasWords = true ∧ l.Lists space addr w ∨ w = 0 ∧ stmt.Reserves sym l space addr) := by
  cases entry with
  | none => simp [lineCells]
  | some l =>
    have hw : ∀ st : Statement, st.hasWords = true →
        (∀ label size, st ≠ .directive label (.ds size)) →
        ((∃ l', some l = some l' ∧ (st.hasWords = true ∧ l'.Lists space addr w ∨
          w = 0 ∧ st.Reserves sym l' space addr)) ↔ (space, addr, w) ∈ cells l.space l.addr l.words) := by
      intro st hst hds
      rw [mem_cells_iff]
      constructor
      · rintro ⟨l', he, ⟨-, hl⟩ | ⟨-, label, size, n, hs, -⟩⟩
        · cases he
          exact hl
        · exact absurd hs (hds label size)
      · exact fun hl => ⟨l, rfl, Or.inl ⟨hst, hl⟩⟩
    have hn : ∀ st : Statement, st.hasWords = false → (∀ label size, st ≠ .directive label (.ds size)) →
        ¬ ∃ l', some l = some l' ∧ (st.hasWords = true ∧ l'.Lists space addr w ∨
          w = 0 ∧ st.Reserves sym l' space addr) := by
      rintro st hst hds ⟨l', -, ⟨ht, -⟩ | ⟨-, label, size, n, hs, -⟩⟩
      · rw [hst] at ht
        cases ht
      · exact hds label size hs
    cases stmt with
    | instruction label inst => exact (hw (.instruction label inst) rfl (by simp)).symm
    | directive label dir =>
      cases dir with
      | dc values => exact (hw (.directive label (.dc values)) rfl (by simp)).symm
      | ds size =>
        constructor
        · intro h
          simp only [lineCells] at h
          cases he : eval size sym l.addr with
          | error err => simp [he] at h
          | ok n =>
            rw [he] at h
            obtain ⟨hs, i, hi, ha⟩ := mem_cells_iff.mp h
            obtain ⟨hlt, hz⟩ := List.getElem?_eq_some_iff.mp hi
            rw [List.length_replicate] at hlt
            rw [List.getElem_replicate] at hz
            exact ⟨l, rfl, Or.inr ⟨hz.symm, label, size, n, rfl, he, hs, i, hlt, ha⟩⟩
        · rintro ⟨l', he, ⟨ht, -⟩ | ⟨rfl, label', size', n, hs, hev, hsp, i, hi, ha⟩⟩
          · cases ht
          · cases he
            cases hs
            simp only [lineCells, hev]
            exact mem_cells_iff.mpr ⟨hsp, i, by simp [hi], ha⟩
      | _ => exact iff_of_false (Multiset.notMem_zero _) (hn _ rfl (by simp))
    | _ => exact iff_of_false (Multiset.notMem_zero _) (hn _ rfl (by simp))

theorem laidOut_of_cells {program : Program} {r : AssembleResult}
    (h : segmentCells r.segments = listedCells r.symbols program r.listing) : LaidOut program r := by
  constructor
  · intro i stmt l hs hl hw space addr w hlist
    have hm : (space, addr, w) ∈ segmentCells r.segments := by
      rw [h, mem_listedCells]
      exact ⟨i, stmt, some l, hs, hl, mem_lineCells.mpr ⟨l, rfl, Or.inl ⟨hw, hlist⟩⟩⟩
    obtain ⟨g, hg, hc⟩ := mem_segmentCells.mp hm
    exact ⟨g, hg, Segment.holds_iff.mpr hc⟩
  · intro g hg space addr w hh
    have hm : (space, addr, w) ∈ listedCells r.symbols program r.listing := by
      rw [← h, mem_segmentCells]
      exact ⟨g, hg, Segment.holds_iff.mp hh⟩
    obtain ⟨i, stmt, entry, hs, he, hc⟩ := mem_listedCells.mp hm
    obtain ⟨l, rfl, hl⟩ := mem_lineCells.mp hc
    exact ⟨i, stmt, l, hs, he, hl⟩

/-- In a run whose psect statements are all settled, the segments are the listing laid out in
memory, each word once; and in every state on the way the pc is where the next word will go and
the pending words end up in the current space. -/
theorem emitSegments_laidOut (order : IterOrder) (program : Program) (symbols : SymbolTable)
    (r : AssembleResult) (h : emitSegments order program symbols = .ok r)
    (hset : Emit.init.SettledRun symbols program 1) :
    LaidOut program r ∧ segmentCells r.segments = listedCells symbols program r.listing ∧
      ∀ s, Emit.Reaches symbols .init program 1 s →
        s.pc = s.org + BitVec.ofNat 32 s.words.length ∧
          cells s.space s.org s.words ≤ segmentCells r.segments := by
  simp only [emitSegments, bind_eq_ok, Except.ok.injEq] at h
  obtain ⟨⟨t, listing⟩, hrun, rfl⟩ := h
  have hcells : segmentCells (t.finish order) = listedCells symbols program listing := by
    rw [t.finish_cells, Emit.run_cells Emit.init_inStep hset hrun]
    exact zero_add _
  refine ⟨laidOut_of_cells hcells, hcells, ?_⟩
  intro s hr
  refine ⟨(Emit.inStep_of_reaches hr Emit.init_inStep hset).pc_eq, ?_⟩
  have hle := Emit.cells_le_of_reaches hr Emit.init_inStep hset hrun
  rw [← t.finish_cells order] at hle
  refine le_trans ?_ hle
  rw [Emit.cells, add_right_comm]
  exact Multiset.le_add_left _ _

/-- Some order for every map. -/
noncomputable def IterOrder.arbitrary : IterOrder :=
  ⟨fun m => m.entries.toList, fun m => m.entries.coe_toList⟩

theorem IterOrder.entries_empty (order : IterOrder) : order.entries ∅ = [] :=
  (Multiset.coe_eq_zero _).mp (order.coe_entries ∅)

/-- Two psects, the first entered again. -/
def reentry : Program :=
  [.directive none (.psect "a" (some (.p, .literal 0, .literal 0xff))),
   .instruction none .nop,
   .directive none (.psect "b" (some (.x, .literal 0x100, .literal 0x1ff))),
   .directive none (.dc [.literal 5]),
   .directive none (.psect "a" none),
   .instruction none .rts]

theorem reentry_settled : Emit.init.SettledRun ∅ reentry 1 := by
  refine .cons ⟨nofun, fun h => absurd rfl h, nofun⟩ rfl (.cons trivial rfl (.cons ?_ rfl
    (.cons trivial rfl (.cons ?_ rfl (.cons trivial rfl trivial)))))
  · refine ⟨?_, fun h => absurd rfl h, nofun⟩
    rintro cur ⟨⟩
    exact ⟨rfl, fun _ => rfl⟩
  · refine ⟨?_, fun _ => rfl, nofun⟩
    rintro cur ⟨⟩
    exact ⟨rfl, fun _ => rfl⟩

theorem emitSegments_laidOut_reentry :
    ∃ r, emitSegments .arbitrary reentry ∅ = .ok r ∧ r.listing = [none, some ⟨.p, 0, [0]⟩, none,
      some ⟨.x, 0x100, [5]⟩, none, some ⟨.p, 1, [0xC]⟩] ∧ LaidOut reentry r :=
  ⟨_, rfl, rfl, (emitSegments_laidOut .arbitrary reentry ∅ _ rfl reentry_settled).1⟩

/-- A psect that is never declared, entered with a word pending. -/
def undeclaredPsect : Program :=
  [.instruction none .nop, .directive none (.psect "foo" none), .instruction none .rts]

/-- The word listed at P:1 stands at P:0 in the segments. -/
theorem undeclaredPsect_misplaced :
    ∃ r, assemble .arbitrary undeclaredPsect = .ok r ∧
      r.listing = [some ⟨.p, 0, [0]⟩, none, some ⟨.p, 1, [0xC]⟩] ∧
      r.segments = [⟨.p, 0, [0]⟩, ⟨.p, 0, [0xC]⟩] ∧ ¬ LaidOut undeclaredPsect r := by
  have hr : assemble .arbitrary undeclaredPsect = .ok ⟨[⟨.p, 0, [0]⟩, ⟨.p, 0, [0xC]⟩], ∅,
      [some ⟨.p, 0, [0]⟩, none, some ⟨.p, 1, [0xC]⟩]⟩ := by
    change Except.ok (AssembleResult.mk (_ ++ List.filterMap _ (IterOrder.arbitrary.entries ∅)) _ _) = _
    rw [IterOrder.entries_empty]
    rfl
  refine ⟨_, hr, rfl, rfl, ?_⟩
  intro h
  obtain ⟨g, hg, -, i, hi, ha⟩ := h.listed 2 _ ⟨.p, 1, [0xC]⟩ rfl rfl rfl .p 1 0xC ⟨rfl, 0, rfl, rfl⟩
  have hc : g = ⟨.p, 0, [0]⟩ ∨ g = ⟨.p, 0, [0xC]⟩ := by simpa using hg
  rcases hc with rfl | rfl
  · cases i with
    | zero => cases ha
    | succ i => cases hi
  · cases i with
    | zero => cases ha
    | succ i => cases hi

end Dsp56300.Asm
