import Dsp56300.Emu.CodeCache

namespace Dsp56300

variable {σ : Type}

/-- What an address stands for: nothing, a heap cell, or a pair of host callbacks. -/
inductive Place (σ : Type) where
  | unmapped
  | cell (n : Nat)
  | callback (readFn : Word → World σ → Word × World σ) (writeFn : Word → Word → World σ → World σ)

namespace Place

def read (p : Place σ) (addr : Word) (w : World σ) : Word × World σ :=
  match p with
  | unmapped => (0, w)
  | cell n => (w.heap n &&& 0xFFFFFF, w)
  | callback readFn _ => ((readFn addr w).1 &&& 0xFFFFFF, (readFn addr w).2)

def write (p : Place σ) (addr value : Word) (w : World σ) : World σ :=
  match p with
  | unmapped => w
  | cell n => { w with heap := Function.update w.heap n (value &&& 0xFFFFFF) }
  | callback _ writeFn => writeFn addr (value &&& 0xFFFFFF) w

theorem read_lt (p : Place σ) (addr : Word) (w : World σ) : (p.read addr w).1.toNat < 2 ^ 24 := by
  cases p with
  | unmapped => exact Nat.two_pow_pos 24
  | cell n => exact mask24_lt _
  | callback readFn writeFn => exact mask24_lt _

theorem read_mask (p : Place σ) (addr : Word) (w : World σ) :
    (p.read addr w).1 &&& 0xFFFFFF = (p.read addr w).1 := by
  cases p with
  | unmapped => exact BitVec.zero_and
  | cell n => exact mask_mask _ _
  | callback readFn writeFn => exact mask_mask _ _

theorem write_mask (p : Place σ) (addr value : Word) (w : World σ) :
    p.write addr (value &&& 0xFFFFFF) w = p.write addr value w := by
  cases p <;> simp only [write, mask_mask]

/-- A store changes its own cell and nothing else. -/
theorem write_frame (n : Nat) (addr value : Word) (w : World σ) :
    ((cell n).write addr value w).heap n = value &&& 0xFFFFFF ∧
      (∀ c ≠ n, ((cell n).write addr value w).heap c = w.heap c) ∧
      ((cell n).write addr value w).ext = w.ext := by
  refine ⟨?_, ?_, rfl⟩
  · simp [write]
  · intro c hc
    simp [write, hc]

end Place

/-- `u32::is_power_of_two`. -/
def isPowerOfTwo (n : Word) : Bool := (List.finRange 32).any fun k => n = 1#32 <<< k.val

/-- Masking with a power of two keeps what is below it. -/
theorem and_pred_of_lt {n v : Word} (hn : isPowerOfTwo n) (hv : v < n) : v &&& (n - 1) = v := by
  simp only [isPowerOfTwo, List.any_eq_true, List.mem_finRange, true_and,
    decide_eq_true_eq] at hn
  obtain ⟨k, rfl⟩ := hn
  have hk := k.isLt
  have hp : 2 ^ k.val < 2 ^ 32 := Nat.pow_lt_pow_right (by decide) hk
  have h1 : (1#32 <<< k.val).toNat = 2 ^ k.val := by
    rw [BitVec.toNat_shiftLeft, Nat.shiftLeft_eq]
    exact (congrArg (· % 2 ^ 32) (Nat.one_mul _)).trans (Nat.mod_eq_of_lt hp)
  have hlt : v.toNat < 2 ^ k.val := h1 ▸ BitVec.lt_def.mp hv
  have h2 : (1#32 <<< k.val - 1).toNat = 2 ^ k.val - 1 := by
    rw [BitVec.toNat_sub, h1]
    simp
    have := Nat.two_pow_pos k.val
    omega
  apply BitVec.eq_of_toNat_eq
  rw [BitVec.toNat_and, h2, Nat.and_two_pow_sub_one_eq_mod, Nat.mod_eq_of_lt hlt]

/-- The cell `byteOff` bytes from a buffer's base pointer. -/
def cellAt (base : Nat) (byteOff : Int) : Nat := (base + byteOff / 4).toNat

/-- A constant-address access has its displacement as an i32 immediate. -/
def constByteOff (idx : Word) : Int := (BitVec.ofNat 32 (idx.toNat * 4)).toInt

/-- Inline load from a buffer at a constant address. -/
def emitBufferLoad (base : Nat) (idx : Word) (w : World σ) : Word :=
  w.heap (cellAt base (constByteOff idx))

/-- Inline store to a buffer at a constant address. -/
def emitBufferStore (base : Nat) (idx val : Word) (w : World σ) : World σ :=
  { w with heap := Function.update w.heap (cellAt base (constByteOff idx)) val }

/-- The element a run-time address names; the index is scaled in 32 bits. -/
def emitBufferElemAddr (base : Nat) (start offset addr : Word) : Nat :=
  let adj := start - offset
  let index := if adj = 0 then addr else addr - adj
  cellAt base (index <<< 2).toNat

/-- Inline load from a buffer at a run-time address. -/
def emitBufferLoadDyn (base : Nat) (start offset addr : Word) (w : World σ) : Word :=
  w.heap (emitBufferElemAddr base start offset addr)

/-- The space's RAM: its first region, when that is a buffer starting at address 0. -/
def ramRegion : List (MemoryRegion σ) → Option (Nat × Word × Word)
  | ⟨start, limit, .buffer base offset⟩ :: _ =>
    if start = 0 then some (base, offset, limit) else none
  | _ => none

/-- Bounds test, and an index that is in range whether or not the address is. -/
def emitClampedIndex (addr limit : Word) : Bool × Word :=
  let ok := decide (addr < limit)
  (ok, if isPowerOfTwo limit then addr &&& (limit - 1) else if ok then addr else 0)

namespace MemoryMap

/-- Read at a constant address (compile-time map lookup). -/
def readMem (map : MemoryMap σ) (space : MemSpace) (addr : Word) (w : World σ) : Word × World σ :=
  let (raw, w) := match map.lookup space addr with
    | some r =>
      match r.kind with
      | .buffer base offset => (emitBufferLoad base (addr - r.start + offset) w, w)
      | .callback readFn _ => readFn addr w
    | none => (0, w)
  (raw &&& 0xFFFFFF, w)

/-- Write at a constant address (compile-time map lookup). -/
def writeMem (map : MemoryMap σ) (space : MemSpace) (addr val : Word) (w : World σ) : World σ :=
  match map.lookup space addr with
  | some r =>
    let masked := val &&& 0xFFFFFF
    match r.kind with
    | .buffer base offset => emitBufferStore base (addr - r.start + offset) masked w
    | .callback _ writeFn => writeFn addr masked w
  | none => w

/-- Read at a run-time address: RAM inline, the region walk for the rest. -/
def readMemDyn (map : MemoryMap σ) (space : MemSpace) (addr : Word) (w : World σ) :
    Word × World σ :=
  match ramRegion (map.regions space) with
  | none =>
    let (raw, w) := map.readMemory space addr w
    (raw &&& 0xFFFFFF, w)
  | some (base, offset, limit) =>
    let (ok, safe) := emitClampedIndex addr limit
    let hit := emitBufferLoadDyn base 0 offset safe w
    let (raw, w) :=
      if (map.regions space).length = 1 then (if ok then hit else 0, w)
      else if ok then (hit, w)
      else map.readMemory space addr w
    (raw &&& 0xFFFFFF, w)

/-- What `addr` stands for: the first region that contains it decides. -/
def place (map : MemoryMap σ) (space : MemSpace) (addr : Word) : Place σ :=
  match map.lookup space addr with
  | none => .unmapped
  | some r =>
    match r.kind with
    | .buffer base offset => .cell (r.cell base offset addr)
    | .callback readFn writeFn => .callback readFn writeFn

/-- No buffer element `addr` names lies 2 GiB or more from its base pointer. -/
def Reachable (map : MemoryMap σ) (space : MemSpace) (addr : Word) : Prop :=
  ∀ r base offset, map.lookup space addr = some r → r.kind = .buffer base offset →
    (addr - r.start + offset).toNat < 2 ^ 29

end MemoryMap

/-- Write at a run-time address. Outside RAM the inline store goes to the sink word; P memory
always takes the helper. -/
def DspState.writeMemDyn (s : DspState σ) (space : MemSpace) (addr val : Word) : DspState σ :=
  if space = .p then s.jitWriteMem .p addr val
  else
    let masked := val &&& 0xFFFFFF
    match ramRegion (s.map.regions space) with
    | none => s.jitWriteMem space addr masked
    | some (base, offset, limit) =>
      let (ok, safe) := emitClampedIndex addr limit
      let elem := emitBufferElemAddr base 0 offset safe
      let s := if ok then
        { s with world := { s.world with heap := Function.update s.world.heap elem masked } }
      else { s with memWriteSink := masked }
      if (s.map.regions space).length > 1 ∧ ¬ ok then s.jitWriteMem space addr masked else s

/-! Every displacement below 2 GiB survives its encoding. -/

theorem cellAt_const (base : Nat) {idx : Word} (h : idx.toNat < 2 ^ 29) :
    cellAt base (constByteOff idx) = base + idx.toNat := by
  have hm : (BitVec.ofNat 32 (idx.toNat * 4)).toNat = idx.toNat * 4 := by
    rw [BitVec.toNat_ofNat]
    omega
  have ht : constByteOff idx = (idx.toNat * 4 : Nat) := by
    rw [constByteOff, BitVec.toInt_eq_toNat_of_lt (by omega), hm]
  rw [cellAt, ht]
  omega

theorem cellAt_dyn (base : Nat) {offset addr : Word} (h : (addr + offset).toNat < 2 ^ 29) :
    emitBufferElemAddr base 0 offset addr = base + (addr + offset).toNat := by
  have hi : (if (0 : Word) - offset = 0 then addr else addr - (0 - offset)) = addr + offset := by
    split
    case isTrue h0 =>
      have ho : offset = 0 := by simpa using h0
      rw [ho]
      exact (BitVec.add_zero addr).symm
    case isFalse => simp [BitVec.sub_eq_add_neg]
  have hs : ((addr + offset) <<< 2).toNat = (addr + offset).toNat * 4 := by
    rw [BitVec.toNat_shiftLeft, Nat.shiftLeft_eq]
    omega
  unfold emitBufferElemAddr
  simp only [hi, hs, cellAt]
  omega

theorem emitClampedIndex_hit {addr limit : Word} (h : addr < limit) :
    emitClampedIndex addr limit = (true, addr) := by
  by_cases hp : isPowerOfTwo limit
  · simp only [emitClampedIndex, if_pos hp, and_pred_of_lt hp h, decide_eq_true h]
  · simp [emitClampedIndex, h, hp]

theorem emitClampedIndex_miss {addr limit : Word} (h : ¬ addr < limit) :
    (emitClampedIndex addr limit).1 = false := by
  simp [emitClampedIndex, h]

namespace MemoryMap

variable (map : MemoryMap σ) (space : MemSpace) (addr : Word) (w : World σ)

theorem readMemory_eq : map.readMemory space addr w = (map.place space addr).read addr w := by
  unfold readMemory place
  cases map.lookup space addr with
  | none => rfl
  | some r => cases hk : r.kind <;> simp only [hk] <;> rfl

theorem writeMemory_eq (value : Word) :
    map.writeMemory space addr value w = (map.place space addr).write addr value w := by
  unfold writeMemory place
  cases map.lookup space addr with
  | none => rfl
  | some r => cases hk : r.kind <;> simp only [hk] <;> rfl

theorem ramRegion_head {rs : List (MemoryRegion σ)} {base : Nat} {offset limit : Word}
    (hr : ramRegion rs = some (base, offset, limit)) :
    ∃ tl, rs = ⟨0, limit, .buffer base offset⟩ :: tl := by
  cases rs with
  | nil => cases hr
  | cons r tl =>
    obtain ⟨start, stop, kind⟩ := r
    cases kind with
    | callback readFn writeFn => cases hr
    | buffer b o =>
      simp only [ramRegion, Option.ite_none_right_eq_some, Option.some.injEq,
        Prod.mk.injEq] at hr
      obtain ⟨rfl, rfl, rfl, rfl⟩ := hr
      exact ⟨tl, rfl⟩

/-- The RAM region decides for every address below its end. -/
theorem lookup_of_ram {base : Nat} {offset limit : Word}
    (hr : ramRegion (map.regions space) = some (base, offset, limit)) (h : addr < limit) :
    map.lookup space addr = some ⟨0, limit, .buffer base offset⟩ := by
  obtain ⟨tl, hl⟩ := ramRegion_head hr
  have hc : (⟨0, limit, .buffer base offset⟩ : MemoryRegion σ).contains addr := by
    simp [MemoryRegion.contains, h, BitVec.le_def]
  rw [lookup, hl, List.find?_cons, hc]

/-- With no region but RAM, an address beyond it is unmapped. -/
theorem lookup_of_single {base : Nat} {offset limit : Word}
    (hr : ramRegion (map.regions space) = some (base, offset, limit))
    (h1 : (map.regions space).length = 1) (h : ¬ addr < limit) : map.lookup space addr = none := by
  obtain ⟨tl, hl⟩ := ramRegion_head hr
  rw [hl] at h1
  have ht : tl = [] := by simpa using h1
  have hc : (⟨0, limit, .buffer base offset⟩ : MemoryRegion σ).contains addr = false := by
    simp [MemoryRegion.contains, h]
  rw [lookup, hl, List.find?_cons, hc, ht]
  rfl

variable {map space addr}

theorem readMem_eq (h : map.Reachable space addr) :
    map.readMem space addr w = (map.place space addr).read addr w := by
  unfold readMem place
  cases hl : map.lookup space addr with
  | none => rfl
  | some r =>
    cases hk : r.kind with
    | callback readFn writeFn => simp only [hk]; rfl
    | buffer base offset =>
      simp only [hk, emitBufferLoad, cellAt_const base (h r base offset hl hk)]
      rfl

theorem writeMem_eq (h : map.Reachable space addr) (val : Word) :
    map.writeMem space addr val w = (map.place space addr).write addr val w := by
  unfold writeMem place
  cases hl : map.lookup space addr with
  | none => rfl
  | some r =>
    cases hk : r.kind with
    | callback readFn writeFn => simp only [hk]; rfl
    | buffer base offset =>
      simp only [hk, emitBufferStore, cellAt_const base (h r base offset hl hk)]
      rfl

theorem readMemDyn_eq (h : map.Reachable space addr) :
    map.readMemDyn space addr w = (map.place space addr).read addr w := by
  have hw := map.readMemory_eq space addr w
  unfold readMemDyn
  cases hr : ramRegion (map.regions space) with
  | none => simp only [hw, Place.read_mask]
  | some ram =>
    obtain ⟨base, offset, limit⟩ := ram
    by_cases ha : addr < limit
    · have hl := map.lookup_of_ram space addr hr ha
      have hi : (addr + offset).toNat < 2 ^ 29 := by simpa using h _ _ _ hl rfl
      have hp : map.place space addr = .cell (base + (addr + offset).toNat) := by
        simp [place, hl, MemoryRegion.cell]
      simp only [emitClampedIndex_hit ha, emitBufferLoadDyn, cellAt_dyn base hi, hp, if_true]
      split <;> rfl
    · have hm := emitClampedIndex_miss ha
      by_cases h1 : (map.regions space).length = 1
      · have hp : map.place space addr = .unmapped := by
          simp [place, map.lookup_of_single space addr hr h1 ha]
        simp only [hm, if_pos h1, hp, Bool.false_eq_true, if_false]
        rfl
      · simp only [hm, if_neg h1, hw, Bool.false_eq_true, if_false, Place.read_mask]

end MemoryMap

namespace DspState

variable (s : DspState σ) {space : MemSpace} {addr : Word}

/-- A run-time write to X or Y memory reaches the place `addr` stands for; all else it can change
is the sink word. -/
theorem writeMemDyn_xy (hs : space ≠ .p) (h : s.map.Reachable space addr) (val : Word) :
    ∃ sink, s.writeMemDyn space addr val =
      { s with world := (s.map.place space addr).write addr val s.world, memWriteSink := sink } := by
  have hw := fun w => s.map.writeMemory_eq space addr w val
  have hj : ∀ t : DspState σ, t.map = s.map → t.jitWriteMem space addr (val &&& 0xFFFFFF) =
      { t with world := (s.map.place space addr).write addr val t.world } := by
    intro t ht
    rw [jitWriteMem, if_neg hs, MemoryMap.writeMemory_eq, Place.write_mask, ht]
  unfold writeMemDyn
  rw [if_neg hs]
  cases hr : ramRegion (s.map.regions space) with
  | none => exact ⟨s.memWriteSink, hj s rfl⟩
  | some ram =>
    obtain ⟨base, offset, limit⟩ := ram
    by_cases ha : addr < limit
    · have hl := s.map.lookup_of_ram space addr hr ha
      have hi : (addr + offset).toNat < 2 ^ 29 := by simpa using h _ _ _ hl rfl
      have hp : s.map.place space addr = .cell (base + (addr + offset).toNat) := by
        simp [MemoryMap.place, hl, MemoryRegion.cell]
      refine ⟨s.memWriteSink, ?_⟩
      simp only [emitClampedIndex_hit ha, cellAt_dyn base hi, hp, if_true, not_true, and_false,
        if_false]
      rfl
    · have hm := emitClampedIndex_miss ha
      refine ⟨val &&& 0xFFFFFF, ?_⟩
      by_cases h1 : (s.map.regions space).length > 1
      · simp only [hm, h1, Bool.false_eq_true, if_false, not_false_eq_true, and_self, if_true]
        exact hj { s with memWriteSink := val &&& 0xFFFFFF } rfl
      · obtain ⟨tl, hl⟩ := MemoryMap.ramRegion_head hr
        have hn : (s.map.regions space).length = 1 := by
          rw [hl, List.length_cons] at h1 ⊢
          omega
        have hp : s.map.place space addr = .unmapped := by
          simp [MemoryMap.place, s.map.lookup_of_single space addr hr hn ha]
        simp only [hm, h1, hp, Bool.false_eq_true, if_false, not_false_eq_true, and_true]
        rfl

/-- A run-time write to P memory reads the place first, and writes only a word that changes. -/
theorem writeMemDyn_p (val : Word) :
    let before := (s.map.place .p addr).read addr s.world
    s.writeMemDyn .p addr val =
      if before.1 = val &&& 0xFFFFFF then { s with world := before.2 }
      else { s with world := (s.map.place .p addr).write addr val before.2,
                    pramDirty := s.pramDirty.markDirty addr } := by
  intro before
  have hr := s.map.readMemory_eq .p addr s.world
  have hw := fun w => s.map.writeMemory_eq .p addr w (val &&& 0xFFFFFF)
  by_cases he : before.1 = val &&& 0xFFFFFF
  · simp only [writeMemDyn, jitWriteMem, if_true, hr]
    rw [if_pos he, if_neg fun hn => hn he]
  · simp only [writeMemDyn, jitWriteMem, if_true, hr, hw, Place.write_mask]
    rw [if_neg he, if_pos he]

/-- All access paths see one memory at `addr`: the compile-time path, the run-time path and the
region walk read and write the same place. -/
structure OneMemory (space : MemSpace) (addr : Word) : Prop where
  readMem : ∀ w, s.map.readMem space addr w = (s.map.place space addr).read addr w
  readMemDyn : ∀ w, s.map.readMemDyn space addr w = (s.map.place space addr).read addr w
  readMemory : ∀ w, s.map.readMemory space addr w = (s.map.place space addr).read addr w
  readPram : space = .p → ∀ w, s.map.readPram addr w = (s.map.place space addr).read addr w
  read_word : ∀ w, ((s.map.place space addr).read addr w).1.toNat < 2 ^ 24
  read_unmapped : s.map.lookup space addr = none →
    ∀ w, (s.map.place space addr).read addr w = (0, w)
  writeMem : ∀ v w, s.map.writeMem space addr v w = (s.map.place space addr).write addr v w
  writeMemory : ∀ v w, s.map.writeMemory space addr v w = (s.map.place space addr).write addr v w
  /-- The inline store may also leave the word in the sink. -/
  writeMemDyn : space ≠ .p → ∀ v, ∃ sink, s.writeMemDyn space addr v =
    { s with world := (s.map.place space addr).write addr v s.world, memWriteSink := sink }
  /-- P memory is read first, and written only when the word changes. -/
  writeMemDyn_p : space = .p → ∀ v,
    let before := (s.map.place .p addr).read addr s.world
    s.writeMemDyn .p addr v =
      if before.1 = v &&& 0xFFFFFF then { s with world := before.2 }
      else { s with world := (s.map.place .p addr).write addr v before.2,
                    pramDirty := s.pramDirty.markDirty addr }
  /-- A store reaches its own cell only. -/
  write_frame : ∀ n v w, s.map.place space addr = .cell n →
    (∀ c ≠ n, ((s.map.place space addr).write addr v w).heap c = w.heap c) ∧
      ((s.map.place space addr).write addr v w).ext = w.ext

theorem one_memory (h : s.map.Reachable space addr) : s.OneMemory space addr where
  readMem w := MemoryMap.readMem_eq w h
  readMemDyn w := MemoryMap.readMemDyn_eq w h
  readMemory w := s.map.readMemory_eq space addr w
  readPram hp w := hp ▸ s.map.readMemory_eq .p addr w
  read_word w := Place.read_lt _ addr w
  read_unmapped hl w := by simp only [MemoryMap.place, hl, Place.read]
  writeMem v w := MemoryMap.writeMem_eq w h v
  writeMemory v w := s.map.writeMemory_eq space addr w v
  writeMemDyn hs v := s.writeMemDyn_xy hs h v
  writeMemDyn_p _ v := s.writeMemDyn_p v
  write_frame n v w hn := by
    rw [hn]
    exact (Place.write_frame n addr v w).2

/-- RAM of 512 words, and a peripheral behind it. -/
def ramAndPeripheral : MemoryMap Nat where
  xRegions := [⟨0, 0x200, .buffer 0 0⟩,
    ⟨0x200, 0x400, .callback (fun a w => (a, { w with ext := w.ext + 1 })) fun _ _ w => w⟩]
  yRegions := []
  pRegions := []

theorem one_memory_ramAndPeripheral :
    (DspState.new ramAndPeripheral ⟨fun _ => 0, 0⟩).OneMemory .x 0x1FF := by
  apply one_memory
  intro r base offset hl hk
  have hr : r = ⟨0, 0x200, .buffer 0 0⟩ := (Option.some.inj hl).symm
  subst hr
  cases hk
  decide

/-- A P-space callback that counts its calls, and an X buffer that starts 2 GiB into its
allocation. -/
def countingMap : MemoryMap Nat where
  xRegions := [⟨0, 0x200, .buffer (2 ^ 30) 0x20000000⟩]
  yRegions := []
  pRegions := [⟨0, 0x200, .callback (fun _ w => (0, { w with ext := w.ext + 1 }))
    fun _ _ w => { w with ext := w.ext + 1 }⟩]

/-- The i32 displacement misses the buffer, and a P write makes two calls where the walk makes
one. -/
theorem countingMap_diverges :
    let s := DspState.new countingMap ⟨fun c => if c = 2 ^ 30 + 2 ^ 29 then 1 else 0, 0⟩
    (s.map.readMem .x 0 s.world).1 ≠ (s.map.readMemory .x 0 s.world).1 ∧
      (s.writeMemDyn .p 0 1).world.ext = 2 ∧ (s.map.writeMemory .p 0 1 s.world).ext = 1 := by
  decide

end DspState

end Dsp56300
