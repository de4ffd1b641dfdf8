import Dsp56300.Emu.State

namespace Dsp56300

variable {σ φ : Type}

/-- A compiled block; `φ` is the type of compiled functions. -/
structure CompiledBlock (φ : Type) where
  func : φ
  /-- First PC the block does not cover. -/
  endPc : Word
  /-- Dirty-bitmap generation the block was last found clean at. -/
  generation : Word
  endsOpen : Bool

/-- Flat block cache indexed by start PC, with the widest extent ever inserted. -/
structure CodeCache (φ : Type) where
  blocks : List (Option (CompiledBlock φ))
  maxSpan : Nat

namespace CodeCache

def new (pramSize : Nat) : CodeCache φ := ⟨List.replicate pramSize none, 0⟩

def get (c : CodeCache φ) (pc : Nat) : Option (CompiledBlock φ) := c.blocks.getD pc none

def set (c : CodeCache φ) (pc : Nat) (b : Option (CompiledBlock φ)) : CodeCache φ :=
  { c with blocks := c.blocks.set pc b }

def insert (c : CodeCache φ) (pc : Word) (block : CompiledBlock φ) : CodeCache φ :=
  { c with maxSpan := max c.maxSpan (block.endPc.toNat - pc.toNat) }.set pc.toNat (some block)

/-- Drop every cached block. -/
def invalidateAll (c : CodeCache φ) : CodeCache φ :=
  { c with blocks := c.blocks.map fun _ => none }

/-- Drop the blocks whose code range overlaps [lo, hi]: one that does starts at most
`maxSpan - 1` words before `lo`. -/
def invalidateRange (c : CodeCache φ) (lo hi : Word) : CodeCache φ :=
  if c.blocks.isEmpty then c
  else
    let first := lo.toNat - (c.maxSpan - 1)
    let hi := min hi.toNat (c.blocks.length - 1)
    { c with blocks := c.blocks.mapIdx fun pc b =>
        if first ≤ pc ∧ pc ≤ hi then b.filter fun block => ¬ block.endPc.toNat > lo.toNat
        else b }

theorem get_new (n pc : Nat) : (new n : CodeCache φ).get pc = none := by
  rw [get, new, List.getD_eq_getElem?_getD, List.getElem?_replicate]
  split <;> rfl

theorem get_set (c : CodeCache φ) {pc : Nat} (hp : pc < c.blocks.length)
    (b : Option (CompiledBlock φ)) (q : Nat) :
    (c.set pc b).get q = if q = pc then b else c.get q := by
  simp only [get, set, List.getD_eq_getElem?_getD, List.getElem?_set]
  by_cases hq : q = pc
  · simp [hq, hp]
  · simp [hq, Ne.symm hq]

theorem get_insert (c : CodeCache φ) {pc : Word} (hp : pc.toNat < c.blocks.length)
    (b : CompiledBlock φ) (q : Nat) :
    (c.insert pc b).get q = if q = pc.toNat then some b else c.get q :=
  get_set { c with maxSpan := max c.maxSpan (b.endPc.toNat - pc.toNat) } hp (some b) q

theorem get_invalidateAll (c : CodeCache φ) (pc : Nat) : c.invalidateAll.get pc = none := by
  rw [get, invalidateAll, List.getD_eq_getElem?_getD, List.getElem?_map]
  cases c.blocks[pc]? <;> rfl

/-- A range invalidation filters the entries of its window and keeps the others. -/
theorem invalidateRange_get (c : CodeCache φ) (lo hi : Word) (q : Nat) :
    (c.invalidateRange lo hi).get q =
      if lo.toNat - (c.maxSpan - 1) ≤ q ∧ q ≤ hi.toNat then
        (c.get q).filter fun block => ¬ block.endPc.toNat > lo.toNat
      else c.get q := by
  simp only [invalidateRange]
  by_cases he : c.blocks.isEmpty
  · have hn : c.get q = none := by
      rw [List.isEmpty_iff] at he
      simp [get, he]
    rw [if_pos he, hn, Option.filter_none, ite_self]
  · rw [if_neg he]
    simp only [get, List.getD_eq_getElem?_getD, List.getElem?_mapIdx]
    cases hq : c.blocks[q]? with
    | none => simp
    | some x =>
      have hlt : q < c.blocks.length := (List.getElem?_eq_some_iff.mp hq).1
      have hw : q ≤ min hi.toNat (c.blocks.length - 1) ↔ q ≤ hi.toNat := by omega
      simp only [Option.map_some, Option.getD_some, hw]

/-- What a range invalidation leaves was there before and either starts outside the scanned
window or ends at or before `lo`. -/
theorem get_invalidateRange {c : CodeCache φ} {lo hi : Word} {q : Nat} {b : CompiledBlock φ}
    (h : (c.invalidateRange lo hi).get q = some b) :
    c.get q = some b ∧ (q < lo.toNat - (c.maxSpan - 1) ∨ hi.toNat < q ∨
      b.endPc.toNat ≤ lo.toNat) := by
  rw [invalidateRange_get] at h
  split at h
  · obtain ⟨hx, hb⟩ := Option.filter_eq_some_iff.mp h
    refine ⟨hx, .inr (.inr ?_)⟩
    simpa using hb
  · refine ⟨h, ?_⟩
    omega

@[simp] theorem set_maxSpan (c : CodeCache φ) (pc : Nat) (b : Option (CompiledBlock φ)) :
    (c.set pc b).maxSpan = c.maxSpan := rfl

@[simp] theorem set_length (c : CodeCache φ) (pc : Nat) (b : Option (CompiledBlock φ)) :
    (c.set pc b).blocks.length = c.blocks.length := by simp [set]

@[simp] theorem insert_length (c : CodeCache φ) (pc : Word) (b : CompiledBlock φ) :
    (c.insert pc b).blocks.length = c.blocks.length := by simp [insert]

@[simp] theorem insert_maxSpan (c : CodeCache φ) (pc : Word) (b : CompiledBlock φ) :
    (c.insert pc b).maxSpan = max c.maxSpan (b.endPc.toNat - pc.toNat) := rfl

@[simp] theorem invalidateAll_maxSpan (c : CodeCache φ) : c.invalidateAll.maxSpan = c.maxSpan := rfl

@[simp] theorem invalidateAll_length (c : CodeCache φ) :
    c.invalidateAll.blocks.length = c.blocks.length := by simp [invalidateAll]

@[simp] theorem invalidateRange_length (c : CodeCache φ) (lo hi : Word) :
    (c.invalidateRange lo hi).blocks.length = c.blocks.length := by
  simp only [invalidateRange]
  split <;> simp

@[simp] theorem invalidateRange_maxSpan (c : CodeCache φ) (lo hi : Word) :
    (c.invalidateRange lo hi).maxSpan = c.maxSpan := by
  simp only [invalidateRange]
  split <;> rfl

end CodeCache

/-- A retained translation and the words it was compiled from. -/
structure Translation (φ : Type) where
  words : List Word
  func : φ
  endsOpen : Bool

/-- The parts of the engine that decide which block runs. Retained translations are keyed
by start and stop PC. -/
structure JitEngine (φ : Type) where
  pramSize : Nat
  cache : CodeCache φ
  translations : Word × Word → List (Translation φ)
  translationCount : Nat

def maxTranslations : Nat := 16384

namespace MemoryMap

/-- Read `n` words of P memory from `pc` on. -/
def readWords (map : MemoryMap σ) : Word → Nat → World σ → List Word × World σ
  | _, 0, w => ([], w)
  | pc, n + 1, w =>
    let (v, w) := map.readPram pc w
    let (vs, w) := map.readWords (pc + 1) n w
    (v :: vs, w)

/-- Snapshot the words a block covers. -/
def blockWords (map : MemoryMap σ) (startPc endPc : Word) (w : World σ) : List Word × World σ :=
  map.readWords startPc (endPc.toNat - startPc.toNat) w

/-- Whether P memory still holds `words` from `pc` on. -/
def pramMatches (map : MemoryMap σ) : Word → List Word → World σ → Bool × World σ
  | _, [], w => (true, w)
  | pc, v :: vs, w =>
    let (x, w) := map.readPram pc w
    if x = v then map.pramMatches (pc + 1) vs w else (false, w)

/-- The first retained translation whose words are back in place. -/
def findTranslation (map : MemoryMap σ) (startPc : Word) :
    List (Translation φ) → World σ → Option (Translation φ) × World σ
  | [], w => (none, w)
  | t :: ts, w =>
    let (hit, w) := map.pramMatches startPc t.words w
    if hit then (some t, w) else map.findTranslation startPc ts w

end MemoryMap

/-- The compiler: start PC, stop PC and generation to a block, reading P memory. -/
abbrev Compiler (σ φ : Type) :=
  Word → Word → Word → MemoryMap σ → World σ → CompiledBlock φ × World σ

namespace JitEngine

def new (pramSize : Nat) : JitEngine φ := ⟨pramSize, .new pramSize, fun _ => [], 0⟩

/-- Drop every block and every retained translation. -/
def invalidateCache (jit : JitEngine φ) : JitEngine φ :=
  { jit with cache := jit.cache.invalidateAll, translations := fun _ => [], translationCount := 0 }

/-- Drop the blocks and keep the translations. -/
def invalidateBlocks (jit : JitEngine φ) : JitEngine φ :=
  { jit with cache := jit.cache.invalidateAll }

def invalidateRange (jit : JitEngine φ) (lo hi : Word) : JitEngine φ :=
  { jit with cache := jit.cache.invalidateRange lo hi }

/-- Retain a new translation, dropping all others first when there are too many. -/
def retain (jit : JitEngine φ) (key : Word × Word) (t : Translation φ) : JitEngine φ :=
  let jit := if jit.translationCount ≥ maxTranslations then
    { jit with translations := fun _ => [], translationCount := 0 } else jit
  { jit with
    translations := Function.update jit.translations key (jit.translations key ++ [t])
    translationCount := jit.translationCount + 1 }

/-- Return a translation for `startPc`, reusing one whose words still match. -/
def getOrCompileBlock (jit : JitEngine φ) (compile : Compiler σ φ) (startPc stopPc generation : Word)
    (map : MemoryMap σ) (w : World σ) : CompiledBlock φ × JitEngine φ × World σ :=
  match map.findTranslation startPc (jit.translations (startPc, stopPc)) w with
  | (some t, w) =>
    (⟨t.func, startPc + BitVec.ofNat 32 t.words.length, generation, t.endsOpen⟩, jit, w)
  | (none, w) =>
    let (block, w) := compile startPc stopPc generation map w
    let (words, w) := map.blockWords startPc block.endPc w
    (block, jit.retain (startPc, stopPc) ⟨words, block.func, block.endsOpen⟩, w)

end JitEngine

namespace DspState

/-- The address just past the active DO loop; no boundary outside one. -/
def stopPc (s : DspState σ) : Word :=
  if s.registers Reg.sr &&& (1#32 <<< Sr.lf) ≠ 0 then maskPc (s.registers Reg.la + 1)
  else 0xFFFFFFFF

/-- Whether the run loop must drop the block cached at PC: a loop boundary falls inside
it, or a write since it was last found clean touched it. -/
def needsEvict (s : DspState σ) (block : CompiledBlock φ) : Bool :=
  (s.stopPc > s.pc && s.stopPc < block.endPc) ||
    (block.generation ≠ s.pramDirty.generation && s.pramDirty.isRangeDirty s.pc block.endPc)

/-- The run loop's lookup at PC: evict or stamp. -/
def checkBlock (s : DspState σ) (jit : JitEngine φ) : JitEngine φ :=
  match jit.cache.get s.pc.toNat with
  | none => jit
  | some block =>
    if s.needsEvict block then { jit with cache := jit.cache.set s.pc.toNat none }
    else
      let block := { block with generation := s.pramDirty.generation }
      { jit with cache := jit.cache.set s.pc.toNat (some block) }

/-- Build and insert the block at PC. Dirty bits are shared by all blocks over the range,
so the blocks that still need them go before they are cleared. -/
def rebuildBlock (s : DspState σ) (jit : JitEngine φ) (compile : Compiler σ φ) :
    DspState σ × JitEngine φ :=
  let (block, jit, world) :=
    jit.getOrCompileBlock compile s.pc s.stopPc s.pramDirty.generation s.map s.world
  let s := { s with world := world }
  if s.pramDirty.isRangeDirty s.pc block.endPc then
    let lastPc := if block.endPc = 0 then 0 else block.endPc - 1
    let cache := (jit.cache.invalidateRange s.pc lastPc).insert s.pc block
    ({ s with pramDirty := s.pramDirty.clearDirtyRange s.pc block.endPc },
      { jit with cache := cache })
  else (s, { jit with cache := jit.cache.insert s.pc block })

/-- The run loop up to the call of the block at PC, which is then in the cache. -/
def dispatchBlock (s : DspState σ) (jit : JitEngine φ) (compile : Compiler σ φ) :
    DspState σ × JitEngine φ :=
  let jit := s.checkBlock jit
  match jit.cache.get s.pc.toNat with
  | some _ => (s, jit)
  | none => s.rebuildBlock jit compile

/-- The guest's memory write: an unchanged P word is left alone. -/
def jitWriteMem (s : DspState σ) (space : MemSpace) (address value : Word) : DspState σ :=
  if space = .p then
    let masked := value &&& 0xFFFFFF
    let (old, w) := s.map.readMemory .p address s.world
    if old ≠ masked then
      { s with
        world := s.map.writeMemory .p address masked w
        pramDirty := s.pramDirty.markDirty address }
    else { s with world := w }
  else { s with world := s.map.writeMemory space address value s.world }

/-- The host's memory write: a P word is written even when it does not change. -/
def writeMemory (s : DspState σ) (space : MemSpace) (addr value : Word) : DspState σ :=
  let s := if space = .p then
    let masked := value &&& 0xFFFFFF
    let (old, w) := s.map.readPram addr s.world
    let s := { s with world := w }
    if old ≠ masked then { s with pramDirty := s.pramDirty.markDirty addr } else s
  else s
  { s with world := s.map.writeMemory space addr value s.world }

/-- The host's write of consecutive words. -/
def writeMemoryRun (s : DspState σ) (space : MemSpace) (addr : Word) : List Word → DspState σ
  | [] => s
  | v :: vs => (s.writeMemory space addr v).writeMemoryRun space (addr + 1) vs

end DspState

end Dsp56300
