import Dsp56300.Core.Registers

namespace Dsp56300

/-- What lives outside the core: the buffers the host owns, addressed by cell, and
whatever state the embedder's callbacks keep. -/
structure World (σ : Type) where
  heap : Nat → Word
  ext : σ

/-- What kind of access a memory region provides. A buffer's base pointer is the
number of its first cell; a callback closes over its opaque pointer. -/
inductive RegionKind (σ : Type) where
  | buffer (base : Nat) (offset : Word)
  | callback (readFn : Word → World σ → Word × World σ) (writeFn : Word → Word → World σ → World σ)

/-- A contiguous region in DSP address space, `limit` exclusive. -/
structure MemoryRegion (σ : Type) where
  start : Word
  limit : Word
  kind : RegionKind σ

/-- The three region lists of the DSP address space. -/
structure MemoryMap (σ : Type) where
  xRegions : List (MemoryRegion σ)
  yRegions : List (MemoryRegion σ)
  pRegions : List (MemoryRegion σ)

variable {σ : Type}

def MemoryRegion.contains (r : MemoryRegion σ) (addr : Word) : Bool :=
  addr ≥ r.start && addr < r.limit

/-- The heap cell a buffer region keeps `addr` in. -/
def MemoryRegion.cell (r : MemoryRegion σ) (base : Nat) (offset addr : Word) : Nat :=
  base + (addr - r.start + offset).toNat

namespace MemoryMap

def regions (map : MemoryMap σ) : MemSpace → List (MemoryRegion σ)
  | .x => map.xRegions
  | .y => map.yRegions
  | .p => map.pRegions

/-- Look up the region containing `addr` in the given space. -/
def lookup (map : MemoryMap σ) (space : MemSpace) (addr : Word) : Option (MemoryRegion σ) :=
  (map.regions space).find? (·.contains addr)

/-- Read a 24-bit word; unmapped addresses read as zero. A callback may change
the world even when it only reads. -/
def readMemory (map : MemoryMap σ) (space : MemSpace) (addr : Word) (w : World σ) :
    Word × World σ :=
  match map.lookup space addr with
  | none => (0, w)
  | some r =>
    match r.kind with
    | .buffer base offset => (w.heap (r.cell base offset addr) &&& 0xFFFFFF, w)
    | .callback readFn _ => ((readFn addr w).1 &&& 0xFFFFFF, (readFn addr w).2)

/-- Read a 24-bit word from P-space. -/
def readPram (map : MemoryMap σ) (addr : Word) (w : World σ) : Word × World σ :=
  map.readMemory .p addr w

/-- Write a 24-bit word; unmapped addresses ignore it. -/
def writeMemory (map : MemoryMap σ) (space : MemSpace) (addr value : Word) (w : World σ) :
    World σ :=
  let value := value &&& 0xFFFFFF
  match map.lookup space addr with
  | none => w
  | some r =>
    match r.kind with
    | .buffer base offset => { w with heap := Function.update w.heap (r.cell base offset addr) value }
    | .callback _ writeFn => writeFn addr value w

/-- The highest P-space address (exclusive) across all regions. -/
def pSpaceEnd (map : MemoryMap σ) : Word :=
  map.pRegions.foldl (fun m r => if m < r.limit then r.limit else m) 0

end MemoryMap

end Dsp56300
