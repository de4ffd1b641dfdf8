import Dsp56300.Asm.Emit
import Dsp56300.Disasm.Sweep
import Dsp56300.Lib.Numerals

/-! LOD text as the assembler writes it, and its lines as they are read. -/

namespace Dsp56300.Asm

open Lib.Numerals Lib.SortedMaps

/-! Writing. -/

/-- An order in which a symbol table hands out its entries. -/
structure SymbolOrder where
  entries : SymbolTable → List (Sigma fun _ : String => I64)
  coe_entries : ∀ m, (entries m : Multiset _) = m.entries

noncomputable def SymbolOrder.arbitrary : SymbolOrder :=
  ⟨fun m => m.entries.toList, fun m => m.entries.coe_toList⟩

def spaceChar : MemorySpace → Char
  | .x => 'X'
  | .y => 'Y'
  | .p => 'P'
  | .l => 'L'

/-- `{:0width$X}`. -/
def upperHexPadded (width n : Nat) : List Char := padded Char.toUpper 16 width n

/-- A line of LOD text: a tag and two columns. -/
def lodLine (tag : Char) (second third : List Char) : List Char :=
  tag :: ' ' :: (second ++ ' ' :: third)

/-- The lines of a segment; addresses are `usize`s. -/
def Segment.lines (seg : Segment) : List (List Char) :=
  seg.words.mapIdx fun i w =>
    lodLine (spaceChar seg.space) (upperHexPadded 4 (seg.org.toNat + i)) (upperHexPadded 6 w.toNat)

def symbolLine (symbol : Sigma fun _ : String => I64) : List Char :=
  lodLine 'I' (upperHexPadded 6 (u32 symbol.2).toNat) symbol.1.toList

/-- The output in LOD format, the symbols in the order in which the table hands them out. -/
def writeSegments (order : SymbolOrder) (result : AssembleResult) : List Char :=
  (result.segments.flatMap Segment.lines ++ (order.entries result.symbols).map symbolLine).flatMap
    (· ++ ['\n'])

/-! Reading a line. -/

/-- A column: not empty, and without white space. -/
def IsColumn (cs : List Char) : Prop := cs ≠ [] ∧ ∀ c ∈ cs, isWhitespace c = false

theorem legible_hexDigit : Legible hexDigit Char.toUpper 16 := by
  intro d hd
  revert d
  decide

theorem isColumn_upperHexPadded (width n : Nat) : IsColumn (upperHexPadded width n) := by
  refine ⟨padded_ne_nil (by decide) width n, fun c hc => ?_⟩
  obtain ⟨d, hd, rfl⟩ := mem_padded (by decide) hc
  clear hc
  revert d
  decide

theorem fromStrRadix16_upperHexPadded {width n : Nat} (hn : n < 2 ^ 32) :
    fromStrRadix16 (upperHexPadded width n) = some (BitVec.ofNat 32 n) := by
  have hread : readDigits hexDigit 16 (2 ^ 32) (upperHexPadded width n) = some n :=
    readDigits_padded legible_hexDigit (by decide) hn
  have hsign : ∀ c ∈ upperHexPadded width n, c ≠ '+' := by
    intro c hc
    obtain ⟨d, hd, rfl⟩ := mem_padded (by decide) hc
    clear hc
    revert d
    decide
  have hne : upperHexPadded width n ≠ [] := (isColumn_upperHexPadded width n).1
  cases hcs : upperHexPadded width n with
  | nil => exact absurd hcs hne
  | cons c cs =>
    rw [hcs] at hread hsign
    have hplus : c ≠ '+' := hsign c List.mem_cons_self
    unfold fromStrRadix16
    dsimp only
    split
    · next heq => exact absurd (List.cons.inj heq).1 hplus
    · rw [if_neg (List.cons_ne_nil c cs)]
      exact congrArg (Option.map (BitVec.ofNat 32)) hread

/-- The columns of a line. -/
theorem splitWhitespace_lodLine {tag : Char} {second third : List Char}
    (ht : isWhitespace tag = false) (h2 : IsColumn second) (h3 : IsColumn third) :
    splitWhitespace (lodLine tag second third) = [[tag], second, third] := by
  have hblank : isWhitespace ' ' = true := by decide
  have htag : ∀ c ∈ [tag], isWhitespace c = false := fun c hc => List.mem_singleton.mp hc ▸ ht
  have hsplit : (lodLine tag second third).splitOnP isWhitespace = [[tag], second, third] := by
    have hline : lodLine tag second third = [tag] ++ ' ' :: (second ++ ' ' :: third) := rfl
    rw [hline, List.splitOnP_append_cons_of_forall_mem htag ' ' hblank,
      List.splitOnP_append_cons_of_forall_mem h2.2 ' ' hblank, List.splitOnP_eq_singleton h3.2]
  rw [splitWhitespace, hsplit]
  simp [h2.1, h3.1]

/-- The lines of a text made of lines. -/
theorem splitOnP_lines {lines : List (List Char)}
    (h : ∀ line ∈ lines, ∀ c ∈ line, (decide (c = '\n')) = false) :
    (lines.flatMap (· ++ ['\n'])).splitOnP (· = '\n') = lines ++ [[]] := by
  induction lines with
  | nil => rfl
  | cons line rest ih =>
    have hline := h line List.mem_cons_self
    rw [List.flatMap_cons, List.append_assoc, List.singleton_append,
      List.splitOnP_append_cons_of_forall_mem hline '\n' (by decide),
      ih fun l hl => h l (List.mem_cons_of_mem _ hl)]
    rfl

theorem not_newline_lodLine {tag : Char} {second third : List Char}
    (ht : isWhitespace tag = false) (h2 : IsColumn second) (h3 : IsColumn third) :
    ∀ c ∈ lodLine tag second third, (decide (c = '\n')) = false := by
  have hnewline {c : Char} (hc : isWhitespace c = false) : (decide (c = '\n')) = false := by
    rw [decide_eq_false_iff_not]
    rintro rfl
    exact absurd hc (by decide)
  intro c hc
  simp only [lodLine, List.mem_cons, List.mem_append] at hc
  rcases hc with rfl | rfl | hc | rfl | hc
  · exact hnewline ht
  · decide
  · exact hnewline (h2.2 c hc)
  · decide
  · exact hnewline (h3.2 c hc)

/-! What was placed, and its lines. -/

/-- The words of a segment with their places, in order. -/
def Segment.placed (seg : Segment) : List ((MemorySpace × Word) × Word) :=
  seg.words.mapIdx fun i w => ((seg.space, seg.org + BitVec.ofNat 32 i), w)

def AssembleResult.placed (r : AssembleResult) : List ((MemorySpace × Word) × Word) :=
  r.segments.flatMap Segment.placed

/-- The addresses of the segments are 32-bit ones, and the names are words. -/
structure AssembleResult.Writable (r : AssembleResult) : Prop where
  segments : ∀ seg ∈ r.segments, seg.org.toNat + seg.words.length ≤ 2 ^ 32
  names : ∀ name, name ∈ r.symbols → IsColumn name.toList

def wordLine (p : (MemorySpace × Word) × Word) : List Char :=
  lodLine (spaceChar p.1.1) (upperHexPadded 4 p.1.2.toNat) (upperHexPadded 6 p.2.toNat)

theorem isWhitespace_spaceChar (space : MemorySpace) :
    isWhitespace (spaceChar space) = false := by
  cases space <;> decide

theorem segment_lines {seg : Segment} (h : seg.org.toNat + seg.words.length ≤ 2 ^ 32) :
    seg.lines = seg.placed.map wordLine := by
  refine List.ext_getElem (by simp [Segment.lines, Segment.placed]) fun i hi hi' => ?_
  have hlen : i < seg.words.length := by
    simpa only [Segment.lines, List.length_mapIdx] using hi
  have haddr : (seg.org + BitVec.ofNat 32 i).toNat = seg.org.toNat + i := by
    rw [BitVec.toNat_add, BitVec.toNat_ofNat, Nat.mod_eq_of_lt (by omega : i < 2 ^ 32),
      Nat.mod_eq_of_lt (by omega)]
  simp only [Segment.lines, Segment.placed, List.getElem_mapIdx, List.getElem_map, wordLine, haddr]

variable {r : AssembleResult} {order : SymbolOrder}

theorem mem_entries {name : String} {v : I64} :
    (⟨name, v⟩ : Sigma fun _ : String => I64) ∈ order.entries r.symbols ↔
      r.symbols.lookup name = some v := by
  rw [Finmap.lookup_eq_some_iff, ← order.coe_entries]
  exact Multiset.mem_coe.symm

theorem isColumn_name (hr : r.Writable) {symbol : Sigma fun _ : String => I64}
    (hs : symbol ∈ order.entries r.symbols) : IsColumn symbol.1.toList :=
  hr.names symbol.1 (Finmap.mem_of_lookup_eq_some (mem_entries.mp hs))

/-- The lines that are written are the lines that are read. -/
theorem splitOnP_writeSegments (hr : r.Writable) :
    (writeSegments order r).splitOnP (· = '\n') =
      (r.placed.map wordLine ++ (order.entries r.symbols).map symbolLine) ++ [[]] := by
  have hlines : r.segments.flatMap Segment.lines = r.placed.map wordLine := by
    rw [AssembleResult.placed, List.map_flatMap]
    exact List.flatMap_congr fun seg hseg => segment_lines (hr.segments seg hseg)
  have htag : isWhitespace 'I' = false := by decide
  rw [writeSegments, hlines]
  refine splitOnP_lines fun line hline => ?_
  rcases List.mem_append.mp hline with hline | hline
  · obtain ⟨p, -, rfl⟩ := List.mem_map.mp hline
    exact not_newline_lodLine (isWhitespace_spaceChar _) (isColumn_upperHexPadded _ _)
      (isColumn_upperHexPadded _ _)
  · obtain ⟨symbol, hs, rfl⟩ := List.mem_map.mp hline
    exact not_newline_lodLine htag (isColumn_upperHexPadded _ _) (isColumn_name hr hs)

/-! Reading it for the disassembler. -/

theorem lodRecord_wordLine (p : (MemorySpace × Word) × Word) : lodRecord (wordLine p) =
    match p.1.1 with
    | .p => some (.p p.1.2 p.2)
    | .x | .y => some (.xy p.1.2)
    | .l => none := by
  obtain ⟨⟨space, addr⟩, w⟩ := p
  unfold lodRecord wordLine
  rw [splitWhitespace_lodLine (isWhitespace_spaceChar space) (isColumn_upperHexPadded _ _)
    (isColumn_upperHexPadded _ _)]
  dsimp only
  rw [fromStrRadix16_upperHexPadded addr.isLt, fromStrRadix16_upperHexPadded w.isLt,
    BitVec.ofNat_toNat, BitVec.setWidth_eq, BitVec.ofNat_toNat, BitVec.setWidth_eq]
  cases space <;> rfl

theorem lodRecord_symbolLine {symbol : Sigma fun _ : String => I64}
    (hn : IsColumn symbol.1.toList) : lodRecord (symbolLine symbol) =
      if ['m', '_'].isPrefixOf symbol.1.toList then none
      else some (.symbol (u32 symbol.2) symbol.1) := by
  have ht : isWhitespace 'I' = false := by decide
  unfold lodRecord symbolLine
  rw [splitWhitespace_lodLine ht (isColumn_upperHexPadded _ _) hn]
  dsimp only
  rw [fromStrRadix16_upperHexPadded (u32 symbol.2).isLt, BitVec.ofNat_toNat, BitVec.setWidth_eq,
    String.ofList_toList]
  rfl

/-- The records of the words, then those of the symbols. -/
theorem lodRecords_writeSegments (hr : r.Writable) : lodRecords (writeSegments order r) =
    r.placed.filterMap (fun p => lodRecord (wordLine p)) ++
      (order.entries r.symbols).filterMap fun symbol => lodRecord (symbolLine symbol) := by
  have hblank : lodRecord [] = none := rfl
  rw [lodRecords, splitOnP_writeSegments hr, List.filterMap_append, List.filterMap_append,
    List.filterMap_map, List.filterMap_map, List.filterMap_cons, hblank, List.filterMap_nil,
    List.append_nil]
  rfl

/-- What the disassembler makes of an assembled program: its P words, the later of two at one
address, and the names of their addresses that name no X or Y word. -/
structure AssembleResult.ParsedInto (r : AssembleResult) (lod : Lod) : Prop where
  words : ∀ addr w, (addr, w) ∈ lod.pwords.entries ↔ LastOf r.placed ((.p, addr), w)
  labels : ∀ addr name, name ∈ lod.labels addr ↔
    (∃ v, r.symbols.lookup name = some v ∧ u32 v = addr) ∧ ¬ ['m', '_'].isPrefixOf name.toList ∧
      (∃ w, ((.p, addr), w) ∈ r.placed) ∧ ∀ w, ((.x, addr), w) ∉ r.placed ∧
        ((.y, addr), w) ∉ r.placed

section Records

variable (hr : r.Writable)

include hr

theorem pWords_writeSegments : (lodRecords (writeSegments order r)).filterMap LodRecord.pWord =
    r.placed.filterMap fun p => if p.1.1 = .p then some (p.1.2, p.2) else none := by
  have hsymbols : ((order.entries r.symbols).filterMap fun symbol =>
      lodRecord (symbolLine symbol)).filterMap LodRecord.pWord = [] := by
    rw [List.filterMap_filterMap, List.filterMap_eq_nil_iff]
    intro symbol hs
    rw [lodRecord_symbolLine (isColumn_name hr hs)]
    split <;> rfl
  rw [lodRecords_writeSegments hr, List.filterMap_append, hsymbols, List.append_nil,
    List.filterMap_filterMap]
  refine List.filterMap_congr fun p _ => ?_
  rw [lodRecord_wordLine]
  obtain ⟨⟨space, addr⟩, w⟩ := p
  cases space <;> rfl

theorem mem_pwords {addr w : Word} :
    (addr, w) ∈ (parseLod (writeSegments order r)).pwords.entries ↔
      LastOf r.placed ((.p, addr), w) := by
  rw [← isPWord_iff _ (addr, w), IsPWord, pWords_writeSegments hr]
  refine lastOf_filterMap (fun v => if_pos rfl) fun p q hp hq he => ?_
  split at hq
  · next hspace =>
    obtain rfl := Option.some.inj hq
    exact hp (Prod.ext hspace he)
  · cases hq

/-- The records of addresses in X and Y memory. -/
theorem mem_xy {addr : Word} : .xy addr ∈ lodRecords (writeSegments order r) ↔
    ∃ w, ((.x, addr), w) ∈ r.placed ∨ ((.y, addr), w) ∈ r.placed := by
  rw [lodRecords_writeSegments hr, List.mem_append, List.mem_filterMap, List.mem_filterMap]
  constructor
  · rintro (⟨⟨⟨space, a⟩, w⟩, hp, he⟩ | ⟨symbol, hs, he⟩)
    · rw [lodRecord_wordLine] at he
      cases space with
      | x => exact ⟨w, .inl ((LodRecord.xy.inj (Option.some.inj he)) ▸ hp)⟩
      | y => exact ⟨w, .inr ((LodRecord.xy.inj (Option.some.inj he)) ▸ hp)⟩
      | p => cases he
      | l => cases he
    · rw [lodRecord_symbolLine (isColumn_name hr hs)] at he
      split at he <;> cases he
  · rintro ⟨w, hp | hp⟩
    · exact .inl ⟨_, hp, lodRecord_wordLine _⟩
    · exact .inl ⟨_, hp, lodRecord_wordLine _⟩

/-- The records of symbols. -/
theorem mem_symbol {addr : Word} {name : String} :
    .symbol addr name ∈ lodRecords (writeSegments order r) ↔
      (∃ v, r.symbols.lookup name = some v ∧ u32 v = addr) ∧
        ¬ ['m', '_'].isPrefixOf name.toList := by
  rw [lodRecords_writeSegments hr, List.mem_append, List.mem_filterMap, List.mem_filterMap]
  constructor
  · rintro (⟨⟨⟨space, a⟩, w⟩, hp, he⟩ | ⟨⟨name', v⟩, hs, he⟩)
    · rw [lodRecord_wordLine] at he
      cases space <;> cases he
    · rw [lodRecord_symbolLine (isColumn_name hr hs)] at he
      split at he
      · cases he
      · next hm =>
        obtain ⟨rfl, rfl⟩ := LodRecord.symbol.inj (Option.some.inj he)
        exact ⟨⟨v, mem_entries.mp hs, rfl⟩, hm⟩
  · rintro ⟨⟨v, hv, rfl⟩, hm⟩
    have hs : (⟨name, v⟩ : Sigma fun _ : String => I64) ∈ order.entries r.symbols :=
      mem_entries.mpr hv
    refine .inr ⟨⟨name, v⟩, hs, ?_⟩
    rw [lodRecord_symbolLine (isColumn_name hr hs)]
    exact if_neg hm

end Records

/-- A label of an address, in the terms of the records. -/
theorem mem_labels {text : List Char} {addr : Word} {name : String} :
    name ∈ (parseLod text).labels addr ↔ .symbol addr name ∈ lodRecords text ∧
      (∃ w, (addr, w) ∈ (parseLod text).pwords.entries) ∧ .xy addr ∉ lodRecords text := by
  constructor
  · intro h
    simp only [parseLod] at h
    split at h
    · next hat =>
      rw [Bool.and_eq_true, List.any_eq_true, Bool.not_eq_true', List.any_eq_false] at hat
      obtain ⟨⟨p, hp, hpa⟩, hxy⟩ := hat
      obtain ⟨record, hmem, hname⟩ := List.mem_filterMap.mp h
      refine ⟨?_, ⟨p.2, of_decide_eq_true hpa ▸ hp⟩, fun hx => hxy _ hx (decide_eq_true rfl)⟩
      cases record with
      | symbol a name' =>
        obtain ⟨rfl, hn⟩ := Option.ite_none_right_eq_some.mp hname
        exact Option.some.inj hn ▸ hmem
      | p => cases hname
      | xy => cases hname
    · exact absurd h List.not_mem_nil
  · rintro ⟨hmem, ⟨w, hw⟩, hxy⟩
    simp only [parseLod]
    rw [if_pos]
    · exact List.mem_filterMap.mpr ⟨_, hmem, if_pos rfl⟩
    · rw [Bool.and_eq_true, List.any_eq_true, Bool.not_eq_true', List.any_eq_false]
      refine ⟨⟨_, hw, decide_eq_true rfl⟩, fun record hrecord hat => ?_⟩
      cases record with
      | xy a => exact hxy (of_decide_eq_true hat ▸ hrecord)
      | p => cases hat
      | symbol => cases hat

/-- The disassembler reads what the assembler writes. -/
theorem parseLod_writeSegments (hr : r.Writable) (order : SymbolOrder) :
    r.ParsedInto (parseLod (writeSegments order r)) := by
  refine ⟨fun addr w => mem_pwords hr, fun addr name => ?_⟩
  have hword : (∃ w, (addr, w) ∈ (parseLod (writeSegments order r)).pwords.entries) ↔
      ∃ w, ((.p, addr), w) ∈ r.placed := by
    rw [exists_congr fun w => mem_pwords hr]
    exact exists_lastOf
  rw [mem_labels, mem_symbol hr, mem_xy hr, hword, not_exists, and_assoc]
  simp only [not_or]

/-- A program that is placed over itself, with a word of X memory, one of L memory, and a label. -/
def overlaid : AssembleResult :=
  ⟨[⟨.p, 0, [0x0C0000, 1]⟩, ⟨.x, 0x10, [2]⟩, ⟨.l, 0x20, [3]⟩, ⟨.p, 1, [0xC]⟩],
    Finmap.singleton "start" 1, []⟩

theorem overlaid_writable : overlaid.Writable := by
  refine ⟨by decide, fun name hname => ?_⟩
  obtain rfl : name = "start" := (Finmap.mem_singleton name "start" 1).mp hname
  have hword : ("start".toList.all fun c => !isWhitespace c) = true := by decide
  refine ⟨List.cons_ne_nil 's' _, fun c hc => ?_⟩
  simpa using List.all_eq_true.mp hword c hc

theorem parseLod_overlaid :
    overlaid.ParsedInto (parseLod (writeSegments .arbitrary overlaid)) :=
  parseLod_writeSegments overlaid_writable .arbitrary

end Dsp56300.Asm
