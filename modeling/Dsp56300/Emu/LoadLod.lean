import Dsp56300.Asm.Lod
import Dsp56300.Emu.MemoryPaths

/-! Loading LOD text into a core, and the way from an assembled program into its memory. -/

namespace Dsp56300

open Asm Lib.SortedMaps

variable {σ : Type}

/-- What loading comes to: the core, how many words were loaded, and the symbols. -/
structure Loaded (σ : Type) where
  dsp : DspState σ
  count : Nat
  symbols : List Char → Option Word

def lodSpace (tag : List Char) : Option MemSpace :=
  if tag = ['X'] then some .x else if tag = ['Y'] then some .y else if tag = ['P'] then some .p
  else none

/-- A line of LOD text; `toLowercase` is the library's. Lines of other shapes are ignored. -/
def Loaded.line (toLowercase : List Char → List Char) (s : Loaded σ) (line : List Char) :
    Loaded σ :=
  match splitWhitespace line with
  | [tag, second, third] =>
    if tag = ['I'] then
      match fromStrRadix16 second with
      | some addr =>
        { s with symbols := Function.update s.symbols (toLowercase third) (some addr) }
      | none => s
    else
      match lodSpace tag, fromStrRadix16 second, fromStrRadix16 third with
      | some space, some addr, some word =>
        { s with dsp := s.dsp.writeMemory space addr word, count := s.count + 1 }
      | _, _, _ => s
  | _ => s

/-- Load a LOD file into memory. -/
def loadLod (toLowercase : List Char → List Char) (dsp : DspState σ) (contents : List Char) :
    Loaded σ :=
  (contents.splitOnP (· = '\n')).foldl (Loaded.line toLowercase) ⟨dsp, 0, fun _ => none⟩

/-- The memory of a core that holds a space; there is none for L. -/
def Asm.MemorySpace.mem : MemorySpace → Option MemSpace
  | .x => some .x
  | .y => some .y
  | .p => some .p
  | .l => none

/-- A word on its way into a core. -/
def Loaded.place (s : Loaded σ) (p : (MemorySpace × Word) × Word) : Loaded σ :=
  match p.1.1.mem with
  | some space => { s with dsp := s.dsp.writeMemory space p.1.2 p.2, count := s.count + 1 }
  | none => s

def Loaded.define (toLowercase : List Char → List Char) (s : Loaded σ)
    (symbol : Sigma fun _ : String => I64) : Loaded σ :=
  { s with
    symbols := Function.update s.symbols (toLowercase symbol.1.toList) (some (u32 symbol.2)) }

section Lines

variable {r : AssembleResult} {order : SymbolOrder} {toLowercase : List Char → List Char}
  {s : Loaded σ}

theorem line_word (p : (MemorySpace × Word) × Word) :
    s.line toLowercase (wordLine p) = s.place p := by
  obtain ⟨⟨space, addr⟩, w⟩ := p
  unfold Loaded.line wordLine
  rw [splitWhitespace_lodLine (isWhitespace_spaceChar space) (isColumn_upperHexPadded _ _)
    (isColumn_upperHexPadded _ _)]
  dsimp only
  rw [fromStrRadix16_upperHexPadded addr.isLt, fromStrRadix16_upperHexPadded w.isLt,
    BitVec.ofNat_toNat, BitVec.setWidth_eq, BitVec.ofNat_toNat, BitVec.setWidth_eq]
  cases space <;> rfl

theorem line_symbol {symbol : Sigma fun _ : String => I64} (hn : IsColumn symbol.1.toList) :
    s.line toLowercase (symbolLine symbol) = s.define toLowercase symbol := by
  have ht : isWhitespace 'I' = false := by decide
  unfold Loaded.line symbolLine
  rw [splitWhitespace_lodLine ht (isColumn_upperHexPadded _ _) hn]
  dsimp only
  rw [if_pos rfl, fromStrRadix16_upperHexPadded (u32 symbol.2).isLt, BitVec.ofNat_toNat,
    BitVec.setWidth_eq]
  rfl

/-- Loading what was written places the words and defines the symbols, one after another. -/
theorem loadLod_writeSegments_eq (hr : r.Writable) (dsp : DspState σ) :
    loadLod toLowercase dsp (writeSegments order r) =
      (order.entries r.symbols).foldl (Loaded.define toLowercase)
        (r.placed.foldl Loaded.place ⟨dsp, 0, fun _ => none⟩) := by
  have hblank (s : Loaded σ) : s.line toLowercase [] = s := rfl
  rw [loadLod, splitOnP_writeSegments hr, List.foldl_append, List.foldl_append, List.foldl_cons,
    List.foldl_nil, hblank, List.foldl_map, List.foldl_map]
  have hwords : (fun (s : Loaded σ) p => s.line toLowercase (wordLine p)) = Loaded.place :=
    funext fun s => funext fun p => line_word p
  rw [hwords]
  exact List.foldl_ext _ _ _ fun s symbol hs => line_symbol (isColumn_name hr hs)

end Lines

/-! Memory that only holds words. -/

/-- No address is served by the host, and no two are kept in one cell. -/
structure MemoryMap.Ram (map : MemoryMap σ) : Prop where
  cells : ∀ space addr, map.place space addr = .unmapped ∨ ∃ n, map.place space addr = .cell n
  apart : ∀ space addr space' addr' n, map.place space addr = .cell n →
    map.place space' addr' = .cell n → space' = space ∧ addr' = addr

namespace MemoryMap.Ram

variable {map : MemoryMap σ} (hm : map.Ram)

include hm

theorem readMemory_world (space : MemSpace) (addr : Word) (w : World σ) :
    (map.readMemory space addr w).2 = w := by
  rw [readMemory_eq]
  rcases hm.cells space addr with h | ⟨n, h⟩
  · rw [h]
    rfl
  · rw [h]
    rfl

theorem read_written {space : MemSpace} {addr : Word} (ha : map.place space addr ≠ .unmapped)
    (v : Word) (w : World σ) :
    (map.readMemory space addr (map.writeMemory space addr v w)).1 = v &&& 0xFFFFFF := by
  rw [readMemory_eq, writeMemory_eq]
  rcases hm.cells space addr with h | ⟨n, h⟩
  · exact absurd h ha
  · rw [h]
    simp only [Place.read, Place.write, Function.update_self, mask_mask]

theorem read_beside {space space' : MemSpace} {addr addr' : Word}
    (hne : (space', addr') ≠ (space, addr)) (v : Word) (w : World σ) :
    (map.readMemory space' addr' (map.writeMemory space addr v w)).1 =
      (map.readMemory space' addr' w).1 := by
  rw [readMemory_eq, readMemory_eq, writeMemory_eq]
  rcases hm.cells space addr with h | ⟨n, h⟩
  · rw [h]
    rfl
  · rcases hm.cells space' addr' with h' | ⟨n', h'⟩
    · rw [h']
      rfl
    · have hn : n' ≠ n := by
        rintro rfl
        exact hne (Prod.ext_iff.mpr (hm.apart _ _ _ _ _ h h'))
      rw [h, h']
      simp only [Place.read, Place.write, Function.update_of_ne hn]

/-- A host write is a write of memory. -/
theorem writeMemory_dsp {s : DspState σ} (hs : s.map = map) (space : MemSpace) (addr v : Word) :
    ∃ d, s.writeMemory space addr v =
      { s with world := s.map.writeMemory space addr v s.world, pramDirty := d } := by
  subst hs
  unfold DspState.writeMemory
  by_cases hp : space = .p
  · simp only [hp, if_true, MemoryMap.readPram, hm.readMemory_world]
    split
    · exact ⟨_, rfl⟩
    · exact ⟨s.pramDirty, rfl⟩
  · simp only [hp, if_false]
    exact ⟨s.pramDirty, rfl⟩

end MemoryMap.Ram

/-- The memory of the command line emulator: three buffers of its own. -/
def ramMap (xramSize yramSize pramSize : Word) : MemoryMap σ where
  xRegions := [⟨0, xramSize, .buffer 0 0⟩]
  yRegions := [⟨0, yramSize, .buffer xramSize.toNat 0⟩]
  pRegions := [⟨0, pramSize, .buffer (xramSize.toNat + yramSize.toNat) 0⟩]

/-- Where a buffer starts in the heap, and how long it is. -/
def ramSpan (xs ys ps : Word) : MemSpace → Nat × Word
  | .x => (0, xs)
  | .y => (xs.toNat, ys)
  | .p => (xs.toNat + ys.toNat, ps)

theorem place_ramMap (xs ys ps : Word) (space : MemSpace) (addr : Word) :
    (ramMap xs ys ps : MemoryMap σ).place space addr =
      if addr < (ramSpan xs ys ps space).2 then
        .cell ((ramSpan xs ys ps space).1 + addr.toNat)
      else .unmapped := by
  have hmap : (ramMap xs ys ps : MemoryMap σ).regions space =
      [⟨0, (ramSpan xs ys ps space).2, .buffer (ramSpan xs ys ps space).1 0⟩] := by
    cases space <;> rfl
  have hcontains (kind : RegionKind σ) : (MemoryRegion.mk 0 (ramSpan xs ys ps space).2 kind).contains
      addr = decide (addr < (ramSpan xs ys ps space).2) := by
    simp [MemoryRegion.contains, BitVec.le_def]
  unfold MemoryMap.place MemoryMap.lookup
  rw [hmap, List.find?_cons, List.find?_nil, hcontains]
  by_cases h : addr < (ramSpan xs ys ps space).2
  · rw [decide_eq_true h, if_pos h]
    have haddr : addr - 0 + 0 = addr := by simp
    exact congrArg (fun a : Word => Place.cell ((ramSpan xs ys ps space).1 + a.toNat)) haddr
  · rw [decide_eq_false h, if_neg h]

theorem place_ramMap_eq_cell {xs ys ps : Word} {space : MemSpace} {addr : Word} {n : Nat}
    (h : (ramMap xs ys ps : MemoryMap σ).place space addr = .cell n) :
    addr.toNat < (ramSpan xs ys ps space).2.toNat ∧
      (ramSpan xs ys ps space).1 + addr.toNat = n := by
  rw [place_ramMap] at h
  split at h
  · next hlt => exact ⟨hlt, Place.cell.inj h⟩
  · cases h

theorem ram_ramMap (xs ys ps : Word) : (ramMap xs ys ps : MemoryMap σ).Ram := by
  constructor
  · intro space addr
    rw [place_ramMap]
    split
    · exact .inr ⟨_, rfl⟩
    · exact .inl rfl
  · intro space addr space' addr' n h h'
    obtain ⟨hlt, hn⟩ := place_ramMap_eq_cell h
    obtain ⟨hlt', hn'⟩ := place_ramMap_eq_cell h'
    obtain rfl : space' = space := by
      cases space <;> cases space' <;> first | rfl | (simp only [ramSpan] at *; omega)
    exact ⟨rfl, BitVec.eq_of_toNat_eq (by omega)⟩

/-! Loading. -/

/-- What is in memory once words have been placed in order: at each address the last one. -/
structure Loaded.Holds (s : Loaded σ) (l : List ((MemorySpace × Word) × Word)) (t : Loaded σ) :
    Prop where
  core : ∃ w d, t.dsp = { s.dsp with world := w, pramDirty := d }
  words : ∀ at_ space w, at_.1.mem = some space → LastOf l (at_, w) →
    s.dsp.map.place space at_.2 ≠ .unmapped →
      (t.dsp.map.readMemory space at_.2 t.dsp.world).1 = w &&& 0xFFFFFF
  rest : ∀ at_ space, at_.1.mem = some space → (∀ w, (at_, w) ∉ l) →
    (t.dsp.map.readMemory space at_.2 t.dsp.world).1 =
      (s.dsp.map.readMemory space at_.2 s.dsp.world).1
  count : t.count = s.count + (l.filter fun p => p.1.1 ≠ .l).length
  symbols : t.symbols = s.symbols

theorem mem_injective {a b : MemorySpace} {space : MemSpace} (ha : a.mem = some space)
    (hb : b.mem = some space) : a = b := by
  cases a <;> cases b <;> cases ha <;> first | rfl | cases hb

theorem mem_eq_none {a : MemorySpace} : a.mem = none ↔ a = .l := by
  cases a <;> simp [MemorySpace.mem]

namespace Loaded.Holds

variable {s t : Loaded σ} {l : List ((MemorySpace × Word) × Word)}
  {p : (MemorySpace × Word) × Word}

/-- L has no memory. -/
theorem skip (h : s.Holds l t) (hp : p.1.1.mem = none) : s.Holds (l ++ [p]) t := by
  have hne {at_ : MemorySpace × Word} {space : MemSpace} (ha : at_.1.mem = some space) :
      at_ ≠ p.1 := by
    rintro rfl
    rw [hp] at ha
    cases ha
  refine ⟨h.core, fun at_ space w ha hw hmapped => ?_, fun at_ space ha hnot => ?_, ?_, h.symbols⟩
  · rcases lastOf_snoc.mp hw with he | ⟨hw, -⟩
    · exact absurd (congrArg Prod.fst he) (hne ha)
    · exact h.words at_ space w ha hw hmapped
  · exact h.rest at_ space ha fun w hw => hnot w (List.mem_append_left _ hw)
  · rw [h.count, List.filter_append, List.filter_singleton]
    simp [mem_eq_none.mp hp]

theorem write (hm : s.dsp.map.Ram) (h : s.Holds l t) {target : MemSpace}
    (hp : p.1.1.mem = some target) : s.Holds (l ++ [p])
      { t with dsp := t.dsp.writeMemory target p.1.2 p.2, count := t.count + 1 } := by
  obtain ⟨w, d, hcore⟩ := h.core
  have hmap : t.dsp.map = s.dsp.map := by rw [hcore]
  obtain ⟨d', hwritten⟩ := hm.writeMemory_dsp hmap target p.1.2 p.2
  rw [hwritten]
  have hother {at_ : MemorySpace × Word} {space : MemSpace} (ha : at_.1.mem = some space)
      (hne : at_ ≠ p.1) : (space, at_.2) ≠ (target, p.1.2) := by
    intro he
    obtain ⟨rfl, hat⟩ := Prod.ext_iff.mp he
    exact hne (Prod.ext (mem_injective ha hp) hat)
  refine ⟨⟨_, _, by rw [hcore]⟩, fun at_ space v ha hv hmapped => ?_, fun at_ space ha hnot => ?_,
    ?_, h.symbols⟩
  · dsimp only
    rw [hmap]
    rcases lastOf_snoc.mp hv with rfl | ⟨hv, hne⟩
    · obtain rfl : target = space := Option.some.inj (hp.symm.trans ha)
      exact hm.read_written hmapped v _
    · have hread := h.words at_ space v ha hv hmapped
      rw [hmap] at hread
      rw [hm.read_beside (hother ha hne), hread]
  · have hne : at_ ≠ p.1 := by
      rintro rfl
      exact hnot p.2 (List.mem_append_right _ (List.mem_singleton_self p))
    have hread := h.rest at_ space ha fun w hw => hnot w (List.mem_append_left _ hw)
    dsimp only
    rw [hmap] at hread ⊢
    rw [hm.read_beside (hother ha hne), hread]
  · have hl : p.1.1 ≠ .l := fun he => by
      rw [mem_eq_none.mpr he] at hp
      cases hp
    dsimp only
    rw [h.count, List.filter_append, List.filter_singleton]
    simp [hl, Nat.add_assoc]

end Loaded.Holds

theorem Loaded.holds_foldl {s : Loaded σ} (hm : s.dsp.map.Ram)
    (l : List ((MemorySpace × Word) × Word)) : s.Holds l (l.foldl Loaded.place s) := by
  induction l using List.reverseRecOn with
  | nil =>
    refine ⟨⟨_, _, rfl⟩, fun _ _ _ _ h => ?_, fun _ _ _ _ => rfl, rfl, rfl⟩
    obtain ⟨pre, post, h, -⟩ := h
    exact absurd h.symm (by simp)
  | append_singleton l p ih =>
    rw [List.foldl_append, List.foldl_cons, List.foldl_nil, Loaded.place]
    cases hp : p.1.1.mem with
    | none => exact ih.skip hp
    | some target => exact ih.write hm hp

/-- A name is defined by the one symbol that has it, whatever the case of its letters. -/
theorem define_foldl {toLowercase : List Char → List Char}
    {l : List (Sigma fun _ : String => I64)} {symbol : Sigma fun _ : String => I64}
    (hs : symbol ∈ l)
    (hone : ∀ other ∈ l, toLowercase other.1.toList = toLowercase symbol.1.toList →
      other = symbol) (s : Loaded σ) :
    (l.foldl (Loaded.define toLowercase) s).symbols (toLowercase symbol.1.toList) =
      some (u32 symbol.2) := by
  induction l using List.reverseRecOn with
  | nil => exact absurd hs List.not_mem_nil
  | append_singleton l p ih =>
    rw [List.foldl_append, List.foldl_cons, List.foldl_nil, Loaded.define]
    by_cases hp : toLowercase p.1.toList = toLowercase symbol.1.toList
    · obtain rfl := hone p (List.mem_append_right _ (List.mem_singleton_self p)) hp
      exact Function.update_self ..
    · have hmem : symbol ∈ l := by
        rcases List.mem_append.mp hs with hs | hs
        · exact hs
        · exact absurd (congrArg (fun q : Sigma fun _ : String => I64 => toLowercase q.1.toList)
            (List.mem_singleton.mp hs)).symm hp
      exact (Function.update_of_ne (Ne.symm hp) ..).trans
        (ih hmem fun other ho => hone other (List.mem_append_left _ ho))

theorem define_foldl_dsp (toLowercase : List Char → List Char)
    (l : List (Sigma fun _ : String => I64)) (s : Loaded σ) :
    (l.foldl (Loaded.define toLowercase) s).dsp = s.dsp ∧
      (l.foldl (Loaded.define toLowercase) s).count = s.count := by
  induction l generalizing s with
  | nil => exact ⟨rfl, rfl⟩
  | cons p l ih => exact ih (s.define toLowercase p)

/-! From an assembled program into memory. -/

/-- The core holds an assembled program: every word in the memory it was placed in, the later of two
at one address, everything else as it was, and every symbol under its name. -/
structure Asm.AssembleResult.LoadedInto (r : AssembleResult)
    (toLowercase : List Char → List Char) (dsp : DspState σ) (t : Loaded σ) : Prop where
  core : ∃ w d, t.dsp = { dsp with world := w, pramDirty := d }
  words : ∀ space target addr w, MemorySpace.mem space = some target →
    LastOf r.placed ((space, addr), w) → dsp.map.place target addr ≠ .unmapped →
      (t.dsp.map.readMemory target addr t.dsp.world).1 = w &&& 0xFFFFFF
  rest : ∀ space target addr, MemorySpace.mem space = some target →
    (∀ w, ((space, addr), w) ∉ r.placed) →
      (t.dsp.map.readMemory target addr t.dsp.world).1 =
        (dsp.map.readMemory target addr dsp.world).1
  count : t.count = (r.placed.filter fun p => p.1.1 ≠ .l).length
  symbols : ∀ name v, r.symbols.lookup name = some v →
    (∀ other, other ∈ r.symbols → toLowercase other.toList = toLowercase name.toList →
      other = name) → t.symbols (toLowercase name.toList) = some (u32 v)

/-- What the assembler writes as LOD text, the emulator loads: words of X, Y and P memory come to
the addresses they were assembled for, those of L memory nowhere, and the symbols to their names. -/
theorem loadLod_writeSegments {r : AssembleResult} (hr : r.Writable) (order : SymbolOrder)
    (toLowercase : List Char → List Char) {dsp : DspState σ} (hm : dsp.map.Ram) :
    r.LoadedInto toLowercase dsp (loadLod toLowercase dsp (writeSegments order r)) := by
  rw [loadLod_writeSegments_eq hr]
  have hwords := Loaded.holds_foldl (s := ⟨dsp, 0, fun _ => none⟩) hm r.placed
  have hnames := define_foldl_dsp toLowercase (order.entries r.symbols)
    (r.placed.foldl Loaded.place ⟨dsp, 0, fun _ => none⟩)
  obtain ⟨hdsp, hcount⟩ := hnames
  refine ⟨?_, ?_, ?_, ?_, ?_⟩
  · rw [hdsp]
    exact hwords.core
  · intro space target addr w ha hw hmapped
    rw [hdsp]
    exact hwords.words (space, addr) target w ha hw hmapped
  · intro space target addr ha hnot
    rw [hdsp]
    exact hwords.rest (space, addr) target ha hnot
  · rw [hcount, hwords.count, Nat.zero_add]
  · intro name v hv hone
    refine define_foldl (mem_entries.mpr hv) (fun other ho he => ?_) _
    have hlookup := mem_entries.mp ho
    obtain ⟨name', v'⟩ := other
    obtain rfl := hone name' (Finmap.mem_of_lookup_eq_some hlookup) he
    rw [hv] at hlookup
    rw [Option.some.inj hlookup]

/-- The core of the command line emulator, with the sizes it takes by default. -/
def commandLineCore : DspState Unit :=
  .new (ramMap 0x10000 0x10000 0x10000) ⟨fun _ => 0, ()⟩

/-- The overlaid program in its memory. -/
theorem loadLod_overlaid : overlaid.LoadedInto (List.map Char.toLower) commandLineCore
    (loadLod (List.map Char.toLower) commandLineCore (writeSegments .arbitrary overlaid)) :=
  loadLod_writeSegments overlaid_writable .arbitrary _ (ram_ramMap _ _ _)

end Dsp56300
