import Dsp56300.Emu.PMemory
import Dsp56300.Lib.Runs
import Dsp56300.Lib.Snapshots

namespace Dsp56300

open Lib.Snapshots

variable {σ φ : Type}

namespace MemoryMap

theorem succ_ofNat (pc : Word) (i : Nat) :
    pc + 1 + BitVec.ofNat 32 i = pc + BitVec.ofNat 32 (i + 1) := by
  rw [BitVec.add_assoc, BitVec.ofNat_add, BitVec.add_comm (BitVec.ofNat 32 i)]
  rfl

/-- The words a read of P memory returns; the world it leaves has the same ones. -/
theorem readWords_spec {map : MemoryMap σ} (hq : map.QuietCallbacks) (pc : Word) (n : Nat)
    (w : World σ) :
    (map.readWords pc n w).1.length = n ∧
    (∀ i, i < n → (map.readWords pc n w).1.getD i 0 = map.pWord w (pc + BitVec.ofNat 32 i).toNat) ∧
    ∀ b, map.pWord (map.readWords pc n w).2 b = map.pWord w b := by
  induction n generalizing pc w with
  | zero => exact ⟨rfl, fun i hi => absurd hi (Nat.not_lt_zero i), fun _ => rfl⟩
  | succ n ih =>
    obtain ⟨hl, hv, hw⟩ := ih (pc + 1) (map.readPram pc w).2
    have hq' := pWord_readPram hq pc w
    refine ⟨by simpa [readWords] using hl, fun i hi => ?_, fun b => (hw b).trans (hq' b)⟩
    cases i with
    | zero => simpa [readWords] using readPram_eq map pc w
    | succ i =>
      have hi' := hv i (by omega)
      simp only [readWords, List.getD_cons_succ]
      rw [hi', hq', succ_ofNat]

/-- Worlds with the same P words read the same. -/
theorem readWords_congr {map : MemoryMap σ} (hq : map.QuietCallbacks) (pc : Word) (n : Nat)
    {w w' : World σ} (hw : ∀ b, map.pWord w' b = map.pWord w b) :
    (map.readWords pc n w').1 = (map.readWords pc n w).1 := by
  obtain ⟨hl, hv, _⟩ := readWords_spec hq pc n w
  obtain ⟨hl', hv', _⟩ := readWords_spec hq pc n w'
  apply List.ext_getElem (hl'.trans hl.symm)
  intro i h1 h2
  rw [← List.getD_eq_getElem _ 0 h1, ← List.getD_eq_getElem _ 0 h2, hv' i (hl' ▸ h1),
    hv i (hl ▸ h2), hw]

theorem pramMatches_spec {map : MemoryMap σ} (hq : map.QuietCallbacks) (pc : Word)
    (words : List Word) (w : World σ) :
    ((map.pramMatches pc words w).1 = true →
      ∀ i, i < words.length → words.getD i 0 = map.pWord w (pc + BitVec.ofNat 32 i).toNat) ∧
    ∀ b, map.pWord (map.pramMatches pc words w).2 b = map.pWord w b := by
  induction words generalizing pc w with
  | nil => exact ⟨fun _ i hi => absurd hi (Nat.not_lt_zero i), fun _ => rfl⟩
  | cons v vs ih =>
    obtain ⟨hv, hw⟩ := ih (pc + 1) (map.readPram pc w).2
    have hq' := pWord_readPram hq pc w
    simp only [pramMatches]
    by_cases hx : (map.readPram pc w).1 = v
    · rw [if_pos hx]
      refine ⟨fun ht i hi => ?_, fun b => (hw b).trans (hq' b)⟩
      cases i with
      | zero => simpa [readPram_eq] using hx.symm
      | succ i =>
        have hi' := hv ht i (by simpa using hi)
        simp only [List.getD_cons_succ]
        rw [hi', hq', succ_ofNat]
    · rw [if_neg hx]
      exact ⟨fun ht => absurd ht (by simp), hq'⟩

theorem findTranslation_spec {map : MemoryMap σ} (hq : map.QuietCallbacks) (pc : Word)
    (ts : List (Translation φ)) (w : World σ) :
    (∀ t, (map.findTranslation pc ts w).1 = some t → t ∈ ts ∧
      ∀ i, i < t.words.length → t.words.getD i 0 = map.pWord w (pc + BitVec.ofNat 32 i).toNat) ∧
    ∀ b, map.pWord (map.findTranslation pc ts w).2 b = map.pWord w b := by
  induction ts generalizing w with
  | nil => exact ⟨fun t ht => by simp [findTranslation] at ht, fun _ => rfl⟩
  | cons t ts ih =>
    obtain ⟨hv, hw⟩ := pramMatches_spec hq pc t.words w
    simp only [findTranslation]
    by_cases hx : (map.pramMatches pc t.words w).1 = true
    · rw [if_pos hx]
      refine ⟨fun u hu => ?_, hw⟩
      obtain rfl : t = u := Option.some.inj hu
      exact ⟨List.mem_cons_self, hv hx⟩
    · rw [if_neg hx]
      obtain ⟨hv', hw'⟩ := ih (map.pramMatches pc t.words w).2
      refine ⟨fun u hu => ?_, fun b => (hw' b).trans (hw b)⟩
      obtain ⟨hm, hi⟩ := hv' u hu
      exact ⟨List.mem_cons_of_mem t hm, fun i h => (hi i h).trans (hw _)⟩

end MemoryMap

namespace DspState

/-- What a memory write may do to P memory: nothing, or change the word it is addressed to
and mark that. -/
structure WritesAt (s t : DspState σ) (sp : MemSpace) (a : Word) : Prop where
  map : t.map = s.map
  words : ∀ b, b < 2 ^ 32 → b ≠ a.toNat → s.map.pWord t.world b = s.map.pWord s.world b
  marks : (t.pramDirty = s.pramDirty ∧
      ∀ b, b < 2 ^ 32 → s.map.pWord t.world b = s.map.pWord s.world b) ∨
    (sp = .p ∧ t.pramDirty = s.pramDirty.markDirty a)

/-- Writes outside P memory leave the P words and the bitmap alone. -/
theorem writesAt_of_ne {s : DspState σ} (hs : s.map.NoSharedCell) (hq : s.map.QuietCallbacks)
    {sp : MemSpace} (hp : sp ≠ .p) (a v : Word) :
    s.WritesAt { s with world := s.map.writeMemory sp a v s.world } sp a := by
  have hw (b : Nat) (hb : b < 2 ^ 32) : s.map.pWord (s.map.writeMemory sp a v s.world) b =
      s.map.pWord s.world b :=
    MemoryMap.pWord_writeMemory hs hq sp a v s.world hb fun h => absurd h hp
  exact ⟨rfl, fun b hb _ => hw b hb, .inl ⟨rfl, hw⟩⟩

theorem jitWriteMem_writesAt {s : DspState σ} (hs : s.map.NoSharedCell) (hq : s.map.QuietCallbacks)
    (sp : MemSpace) (a v : Word) : s.WritesAt (s.jitWriteMem sp a v) sp a := by
  have hr := MemoryMap.pWord_readPram hq a s.world
  simp only [jitWriteMem]
  by_cases hp : sp = .p
  · rw [if_pos hp]
    by_cases ho : (s.map.readMemory .p a s.world).1 ≠ v &&& 0xFFFFFF
    · rw [if_pos ho]
      refine ⟨rfl, fun b hb hne => ?_, .inr ⟨hp, rfl⟩⟩
      exact (MemoryMap.pWord_writeMemory hs hq .p a _ _ hb fun _ => hne).trans (hr b)
    · rw [if_neg ho]
      exact ⟨rfl, fun b _ _ => hr b, .inl ⟨rfl, fun b _ => hr b⟩⟩
  · rw [if_neg hp]
    exact writesAt_of_ne hs hq hp a v

theorem writeMemory_writesAt {s : DspState σ} (hs : s.map.NoSharedCell) (hq : s.map.QuietCallbacks)
    (sp : MemSpace) (a v : Word) : s.WritesAt (s.writeMemory sp a v) sp a := by
  have hr := MemoryMap.pWord_readPram hq a s.world
  simp only [writeMemory]
  by_cases hp : sp = .p
  · subst hp
    rw [if_pos rfl]
    by_cases ho : (s.map.readPram a s.world).1 ≠ v &&& 0xFFFFFF
    · rw [if_pos ho]
      refine ⟨rfl, fun b hb hne => ?_, .inr ⟨rfl, rfl⟩⟩
      exact (MemoryMap.pWord_writeMemory hs hq .p a v _ hb fun _ => hne).trans (hr b)
    · -- the word is written back as it was
      rw [if_neg ho]
      rw [not_not, MemoryMap.readPram_eq, ← hr] at ho
      have hw (b : Nat) (hb : b < 2 ^ 32) :=
        (MemoryMap.pWord_rewrite hs hq a v _ ho hb).trans (hr b)
      exact ⟨rfl, fun b hb _ => hw b hb, .inl ⟨rfl, hw⟩⟩
  · rw [if_neg hp]
    exact writesAt_of_ne hs hq hp a v

end DspState

/-- The core, its engine, and two ghosts: the dirty marks so far, and how many there were
when the block at each PC was last dispatched. -/
structure CacheSystem (σ φ : Type) where
  dsp : DspState σ
  jit : JitEngine φ
  marks : Nat
  lastDispatch : Nat → Option Nat

namespace CacheSystem

def init (map : MemoryMap σ) (world : World σ) (pramSize : Nat) : CacheSystem σ φ :=
  ⟨.new map world, .new pramSize, 0, fun _ => none⟩

/-- One dirty mark if the bitmap's generation moved. -/
def newMarks (s t : DspState σ) : Nat :=
  if t.pramDirty.generation = s.pramDirty.generation then 0 else 1

/-- The system after a memory write took the core to `d`. -/
def written (s : CacheSystem σ φ) (d : DspState σ) : CacheSystem σ φ :=
  { s with dsp := d, marks := s.marks + newMarks s.dsp d }

def hostWrites (s : CacheSystem σ φ) (space : MemSpace) (addr : Word) :
    List Word → CacheSystem σ φ
  | [] => s
  | v :: vs => (s.written (s.dsp.writeMemory space addr v)).hostWrites space (addr + 1) vs

/-- What the compiler is trusted with at a start PC: a nonempty block, stamped with the
generation it was given, translated from exactly the words of its range (`origin` names the
words a compiled function was translated from), and no effect on P memory. -/
def Translates (origin : φ → List Word) (compile : Compiler σ φ) (map : MemoryMap σ)
    (startPc : Word) : Prop :=
  ∀ stopPc generation w,
    let r := compile startPc stopPc generation map w
    startPc < r.1.endPc ∧ r.1.generation = generation ∧
      origin r.1.func = (map.blockWords startPc r.1.endPc w).1 ∧
      ∀ b, map.pWord r.2 b = map.pWord w b

/-- Everything that touches P memory, the dirty bitmap or the engine. -/
inductive CacheEvent (σ φ : Type) where
  | guestWrite (space : MemSpace) (addr value : Word)
  | hostWrite (space : MemSpace) (addr value : Word)
  | hostWriteRun (space : MemSpace) (addr : Word) (values : List Word)
  | invalidateCache
  | invalidateBlocks
  | invalidateRange (lo hi : Word)
  | translate (startPc stopPc : Word) (compile : Compiler σ φ)
  | dispatch (compile : Compiler σ φ)
  | other

/-- P writes go to tracked addresses; the PC dispatched at is tracked by the engine and,
since its last dispatch, fewer than 2^32 marks were made. `other` is any step that keeps
the map, the P words, the bitmap and the engine. -/
def step (origin : φ → List Word) (s : CacheSystem σ φ) (e : CacheEvent σ φ)
    (t : CacheSystem σ φ) : Prop :=
  match e with
  | .guestWrite sp a v => (sp = .p → a.toNat < s.dsp.pramDirty.pramSize) ∧
      t = s.written (s.dsp.jitWriteMem sp a v)
  | .hostWrite sp a v => (sp = .p → a.toNat < s.dsp.pramDirty.pramSize) ∧
      t = s.written (s.dsp.writeMemory sp a v)
  | .hostWriteRun sp a vs => (sp = .p → ∀ i, i < vs.length →
      (a + BitVec.ofNat 32 i).toNat < s.dsp.pramDirty.pramSize) ∧ t = s.hostWrites sp a vs
  | .invalidateCache => t = { s with jit := s.jit.invalidateCache }
  | .invalidateBlocks => t = { s with jit := s.jit.invalidateBlocks }
  | .invalidateRange lo hi => t = { s with jit := s.jit.invalidateRange lo hi }
  | .translate startPc stopPc compile => Translates origin compile s.dsp.map startPc ∧
      let r := s.jit.getOrCompileBlock compile startPc stopPc s.dsp.pramDirty.generation
        s.dsp.map s.dsp.world
      t = { s with jit := r.2.1, dsp := { s.dsp with world := r.2.2 } }
  | .dispatch compile => Translates origin compile s.dsp.map s.dsp.pc ∧
      s.dsp.pc.toNat < s.jit.pramSize ∧
      (∀ m, s.lastDispatch s.dsp.pc.toNat = some m → s.marks - m < 2 ^ 32) ∧
      let r := s.dsp.dispatchBlock s.jit compile
      t = { s with
        dsp := r.1, jit := r.2
        lastDispatch := Function.update s.lastDispatch s.dsp.pc.toNat (some s.marks) }
  | .other => t.jit = s.jit ∧ t.marks = s.marks ∧ t.lastDispatch = s.lastDispatch ∧
      t.dsp.map = s.dsp.map ∧ t.dsp.pramDirty = s.dsp.pramDirty ∧
      ∀ b, b < 2 ^ 32 → s.dsp.map.pWord t.dsp.world b = s.dsp.map.pWord s.dsp.world b

/-- The words a block was translated from, where they stood. -/
def snapshot (origin : φ → List Word) (pc : Nat) (b : CompiledBlock φ) : Snapshot Word :=
  ⟨pc, b.endPc.toNat, fun a => (origin b.func).getD (a - pc) 0⟩

/-- What is true of the block cached at `pc`. The generation stamp stands for a mark count
(that of the last dispatch of `pc`), and no mark made up to then is left on the block. -/
structure BlockOk (origin : φ → List Word) (s : CacheSystem σ φ) (pc : Nat)
    (b : CompiledBlock φ) : Prop where
  nonempty : pc < b.endPc.toNat
  span : b.endPc.toNat - pc ≤ s.jit.cache.maxSpan
  length : (origin b.func).length = b.endPc.toNat - pc
  tracks : (snapshot origin pc b).Tracks (s.dsp.map.pWord s.dsp.world) s.dsp.pramDirty.IsDirty
  stamp : ∃ m, m ≤ s.marks ∧ s.lastDispatch pc = some m ∧
    b.generation = BitVec.ofNat 32 m ∧
    (m = s.marks → ∀ a, (snapshot origin pc b).Covers a → ¬ s.dsp.pramDirty.IsDirty a)

/-- What is true of a retained translation. -/
def TranslationOk (origin : φ → List Word) (startPc : Word) (t : Translation φ) : Prop :=
  t.words = origin t.func ∧ 0 < t.words.length ∧ startPc.toNat + t.words.length < 2 ^ 32

structure Coherent (origin : φ → List Word) (map : MemoryMap σ) (s : CacheSystem σ φ) : Prop where
  map : s.dsp.map = map
  bitmap : s.dsp.pramDirty.WellFormed
  generation : s.dsp.pramDirty.generation = BitVec.ofNat 32 s.marks
  size : s.jit.cache.blocks.length = s.jit.pramSize
  blocks : ∀ pc b, s.jit.cache.get pc = some b → BlockOk origin s pc b
  retained : ∀ key, ∀ t ∈ s.jit.translations key, TranslationOk origin key.1 t

theorem init_coherent (origin : φ → List Word) (map : MemoryMap σ) (world : World σ) (n : Nat) :
    Coherent origin map (init map world n) where
  map := rfl
  bitmap := PramDirtyBitmap.new_wellFormed _
  generation := rfl
  size := by simp [init, JitEngine.new, CodeCache.new]
  blocks := by
    intro pc b hb
    rw [init, JitEngine.new, CodeCache.get_new] at hb
    cases hb
  retained := by
    intro key t ht
    cases ht

/-- A mark moves the generation, so the ghost counts it. -/
theorem newMarks_mark {s t : DspState σ} {a : Word} (ha : a.toNat < s.pramDirty.pramSize)
    (ht : t.pramDirty = s.pramDirty.markDirty a) :
    newMarks s t = 1 ∧ t.pramDirty.generation = s.pramDirty.generation + 1 := by
  have hg : t.pramDirty.generation = s.pramDirty.generation + 1 := by
    rw [ht]
    simp only [PramDirtyBitmap.markDirty, if_pos ha]
  refine ⟨?_, hg⟩
  rw [newMarks, hg, if_neg]
  bv_omega

/-- A write keeps the cache coherent: what it changes it marks, and its mark outdates
every stamp. -/
theorem Coherent.write {origin : φ → List Word} {map : MemoryMap σ} {s : CacheSystem σ φ}
    {d : DspState σ} {sp : MemSpace} {a : Word} (hc : Coherent origin map s)
    (hw : s.dsp.WritesAt d sp a) (ha : sp = .p → a.toNat < s.dsp.pramDirty.pramSize) :
    Coherent origin map (s.written d) := by
  rcases hw.marks with ⟨hd, hm⟩ | ⟨hp, hd⟩
  · have hn : newMarks s.dsp d = 0 := by rw [newMarks, hd, if_pos rfl]
    refine ⟨hw.map.trans hc.map, ?_, ?_, hc.size, fun pc b hb => ?_, hc.retained⟩
    · simpa only [written, hd] using hc.bitmap
    · simpa only [written, hd, hn, Nat.add_zero] using hc.generation
    · have hok := hc.blocks pc b hb
      refine ⟨hok.nonempty, hok.span, hok.length, ?_, ?_⟩
      · simp only [written, hd, hw.map]
        exact hok.tracks.clear (fun x hx => hm x (lt_of_lt_of_le hx.2 (le_of_lt b.endPc.isLt)))
          fun _ _ h => h
      · simpa only [written, hd, hn, Nat.add_zero] using hok.stamp
  · have hlt := ha hp
    obtain ⟨hn, hg⟩ := newMarks_mark hlt hd
    have hdirty := PramDirtyBitmap.markDirty_isDirty hc.bitmap hlt
    refine ⟨hw.map.trans hc.map, ?_, ?_, hc.size, fun pc b hb => ?_, hc.retained⟩
    · simpa only [written, hd] using PramDirtyBitmap.markDirty_wellFormed hc.bitmap a
    · simp only [written, hn, hg, hc.generation, BitVec.ofNat_add]
      rfl
    · have hok := hc.blocks pc b hb
      refine ⟨hok.nonempty, hok.span, hok.length, ?_, ?_⟩
      · simp only [written, hd, hw.map]
        refine hok.tracks.write (c := a.toNat) (fun x hx hne => ?_) (fun x hx => ?_) ?_
        · exact hw.words x (lt_of_lt_of_le hx.2 (le_of_lt b.endPc.isLt)) hne
        · exact (hdirty x).mpr (.inl hx)
        · exact (hdirty _).mpr (.inr rfl)
      · obtain ⟨m, hle, hl, hgen, _⟩ := hok.stamp
        refine ⟨m, ?_, hl, hgen, fun he => ?_⟩
        · simp only [written, hn]
          omega
        · simp only [written, hn] at he
          omega

theorem Coherent.hostWrites {origin : φ → List Word} {map : MemoryMap σ} {s : CacheSystem σ φ}
    (hs : map.NoSharedCell) (hq : map.QuietCallbacks) (hc : Coherent origin map s)
    (sp : MemSpace) (a : Word) (vs : List Word) (ha : sp = .p → ∀ i, i < vs.length →
      (a + BitVec.ofNat 32 i).toNat < s.dsp.pramDirty.pramSize) :
    Coherent origin map (s.hostWrites sp a vs) := by
  induction vs generalizing s a with
  | nil => exact hc
  | cons v vs ih =>
    have hw := DspState.writeMemory_writesAt (hc.map ▸ hs) (hc.map ▸ hq) sp a v
    have hsize : (s.dsp.writeMemory sp a v).pramDirty.pramSize = s.dsp.pramDirty.pramSize := by
      rcases hw.marks with ⟨hd, _⟩ | ⟨_, hd⟩
      · rw [hd]
      · rw [hd, PramDirtyBitmap.markDirty_pramSize]
    apply ih
    · exact hc.write hw fun hp => by simpa using ha hp 0 (Nat.zero_lt_succ _)
    · intro hp i hi
      have hx := ha hp (i + 1) (Nat.succ_lt_succ hi)
      rw [← MemoryMap.succ_ofNat] at hx
      exact hsize ▸ hx

/-- The engine may forget blocks and translations at any time. -/
theorem Coherent.forget {origin : φ → List Word} {map : MemoryMap σ} {s : CacheSystem σ φ}
    (hc : Coherent origin map s) {jit : JitEngine φ}
    (hl : jit.cache.blocks.length = jit.pramSize) (hm : jit.cache.maxSpan = s.jit.cache.maxSpan)
    (hb : ∀ pc b, jit.cache.get pc = some b → s.jit.cache.get pc = some b)
    (hr : ∀ key, ∀ t ∈ jit.translations key, TranslationOk origin key.1 t) :
    Coherent origin map { s with jit := jit } where
  map := hc.map
  bitmap := hc.bitmap
  generation := hc.generation
  size := hl
  blocks := by
    intro pc b h
    have hok := hc.blocks pc b (hb pc b h)
    exact ⟨hok.nonempty, hm ▸ hok.span, hok.length, hok.tracks, hok.stamp⟩
  retained := hr

/-- Anything that keeps the P words and the bitmap keeps the cache coherent. -/
theorem Coherent.same {origin : φ → List Word} {map : MemoryMap σ} {s t : CacheSystem σ φ}
    (hc : Coherent origin map s) (hj : t.jit = s.jit) (hm : t.marks = s.marks)
    (hl : t.lastDispatch = s.lastDispatch) (hmap : t.dsp.map = s.dsp.map)
    (hd : t.dsp.pramDirty = s.dsp.pramDirty)
    (hw : ∀ b, b < 2 ^ 32 → s.dsp.map.pWord t.dsp.world b = s.dsp.map.pWord s.dsp.world b) :
    Coherent origin map t where
  map := hmap.trans hc.map
  bitmap := hd ▸ hc.bitmap
  generation := by rw [hd, hm, hc.generation]
  size := hj ▸ hc.size
  blocks := by
    intro pc b hb
    have hok := hc.blocks pc b (hj ▸ hb)
    refine ⟨hok.nonempty, hj ▸ hok.span, hok.length, ?_, by rw [hm, hl, hd]; exact hok.stamp⟩
    rw [hmap, hd]
    exact hok.tracks.clear
      (fun x hx => hw x (lt_of_lt_of_le hx.2 (le_of_lt b.endPc.isLt))) fun _ _ h => h
  retained := hj ▸ hc.retained

theorem retain_cache (jit : JitEngine φ) (key : Word × Word) (t : Translation φ) :
    (jit.retain key t).cache = jit.cache ∧ (jit.retain key t).pramSize = jit.pramSize := by
  simp only [JitEngine.retain]
  split <;> exact ⟨rfl, rfl⟩

theorem retain_mem {jit : JitEngine φ} {key k : Word × Word} {t u : Translation φ}
    (h : u ∈ (jit.retain key t).translations k) :
    u ∈ jit.translations k ∨ (k = key ∧ u = t) := by
  simp only [JitEngine.retain] at h
  by_cases hk : k = key
  · subst hk
    rw [Function.update_self] at h
    rcases List.mem_append.mp h with h | h
    · split at h
      · cases h
      · exact .inl h
    · exact .inr ⟨rfl, List.mem_singleton.mp h⟩
  · rw [Function.update_of_ne hk] at h
    split at h
    · cases h
    · exact .inl h

/-- A block fit to run: it covers something and was translated from the words in place. -/
structure Fresh (origin : φ → List Word) (map : MemoryMap σ) (w : World σ) (startPc : Word)
    (b : CompiledBlock φ) : Prop where
  nonempty : startPc < b.endPc
  length : (origin b.func).length = b.endPc.toNat - startPc.toNat
  words : ∀ i, i < b.endPc.toNat - startPc.toNat →
    (origin b.func).getD i 0 = map.pWord w (startPc + BitVec.ofNat 32 i).toNat

/-- Reused or compiled, the block is fresh, and the engine only gains translations. -/
theorem getOrCompileBlock_spec {origin : φ → List Word} {map : MemoryMap σ}
    (hq : map.QuietCallbacks) {compile : Compiler σ φ} {startPc : Word}
    (ht : Translates origin compile map startPc) {jit : JitEngine φ}
    (hr : ∀ key, ∀ t ∈ jit.translations key, TranslationOk origin key.1 t)
    (stopPc generation : Word) (w : World σ) :
    let r := jit.getOrCompileBlock compile startPc stopPc generation map w
    r.2.1.cache = jit.cache ∧ r.2.1.pramSize = jit.pramSize ∧
    (∀ key, ∀ t ∈ r.2.1.translations key, TranslationOk origin key.1 t) ∧
    (∀ b, map.pWord r.2.2 b = map.pWord w b) ∧
    r.1.generation = generation ∧ Fresh origin map w startPc r.1 := by
  obtain ⟨hf, hw⟩ := MemoryMap.findTranslation_spec hq startPc (jit.translations (startPc, stopPc)) w
  simp only [JitEngine.getOrCompileBlock]
  generalize hfind : map.findTranslation startPc (jit.translations (startPc, stopPc)) w = found
    at hf hw ⊢
  obtain ⟨hit, w₁⟩ := found
  cases hit with
  | some t =>
    obtain ⟨hm, hi⟩ := hf t rfl
    obtain ⟨ho, hpos, hlt⟩ := hr _ t hm
    have hlt' : startPc.toNat + t.words.length < 2 ^ 32 := hlt
    have hend : (startPc + BitVec.ofNat 32 t.words.length).toNat =
        startPc.toNat + t.words.length := by
      rw [BitVec.toNat_add, BitVec.toNat_ofNat]
      omega
    refine ⟨rfl, rfl, hr, hw, rfl, ?_, ?_, fun i hx => ?_⟩
    · rw [BitVec.lt_def, hend]
      omega
    · rw [hend, ← ho]
      omega
    · rw [hend] at hx
      rw [← ho]
      exact hi i (by omega)
  | none =>
    obtain ⟨hlt, hg, ho, hw₂⟩ := ht stopPc generation w₁
    simp only
    generalize compile startPc stopPc generation map w₁ = c at hlt hg ho hw₂ ⊢
    obtain ⟨block, w₂⟩ := c
    obtain ⟨hl, hv, hw₃⟩ := MemoryMap.readWords_spec hq startPc
      (block.endPc.toNat - startPc.toNat) w₂
    obtain ⟨hl₁, hv₁, _⟩ := MemoryMap.readWords_spec hq startPc
      (block.endPc.toNat - startPc.toNat) w₁
    have hsame : (map.blockWords startPc block.endPc w₂).1 = origin block.func :=
      (MemoryMap.readWords_congr hq _ _ hw₂).trans ho.symm
    have hn : startPc.toNat < block.endPc.toNat := hlt
    have hend := block.endPc.isLt
    refine ⟨(retain_cache _ _ _).1, (retain_cache _ _ _).2, fun key u hu => ?_, fun b => ?_, hg,
      hlt, ?_, fun i hi => ?_⟩
    · rcases retain_mem hu with hu | ⟨rfl, rfl⟩
      · exact hr key u hu
      · refine ⟨hsame, ?_, ?_⟩
        · change 0 < (map.blockWords startPc block.endPc w₂).1.length
          rw [MemoryMap.blockWords, hl]
          omega
        · change startPc.toNat + (map.blockWords startPc block.endPc w₂).1.length < 2 ^ 32
          rw [MemoryMap.blockWords, hl]
          omega
    · exact ((hw₃ b).trans (hw₂ b)).trans (hw b)
    · rw [ho]
      exact hl₁
    · rw [ho]
      exact (hv₁ i hi).trans (hw _)

/-- The run loop's lookup: the entry at PC is gone or, if it stays, stamped with the
current generation and clean; the other entries are untouched. -/
theorem checkBlock_get {origin : φ → List Word} {map : MemoryMap σ} {s : CacheSystem σ φ}
    (hc : Coherent origin map s) (hpc : s.dsp.pc.toNat < s.jit.pramSize)
    (hm : ∀ m, s.lastDispatch s.dsp.pc.toNat = some m → s.marks - m < 2 ^ 32) (q : Nat)
    (b : CompiledBlock φ) (hb : (s.dsp.checkBlock s.jit).cache.get q = some b) :
    (q ≠ s.dsp.pc.toNat ∧ s.jit.cache.get q = some b) ∨
    (q = s.dsp.pc.toNat ∧
      (∃ b', s.jit.cache.get q = some b' ∧
        b = { b' with generation := s.dsp.pramDirty.generation }) ∧
      ∀ a, (snapshot origin q b).Covers a → ¬ s.dsp.pramDirty.IsDirty a) := by
  have hlen : s.dsp.pc.toNat < s.jit.cache.blocks.length := hc.size ▸ hpc
  simp only [DspState.checkBlock] at hb
  cases hg : s.jit.cache.get s.dsp.pc.toNat with
  | none =>
    rw [hg] at hb
    refine .inl ⟨fun hq => ?_, hb⟩
    subst hq
    simp only at hb
    rw [hg] at hb
    cases hb
  | some x =>
    simp only [hg] at hb
    by_cases he : s.dsp.needsEvict x = true
    · rw [if_pos he] at hb
      simp only [CodeCache.get_set _ hlen] at hb
      split at hb
      · cases hb
      · exact .inl ⟨‹_›, hb⟩
    · rw [if_neg he] at hb
      simp only [CodeCache.get_set _ hlen] at hb
      split at hb
      · rename_i hq
        obtain rfl := Option.some.inj hb
        refine .inr ⟨hq, ⟨x, hq ▸ hg, rfl⟩, fun a ha hd => he ?_⟩
        -- not evicted: stamped since the last mark, or scanned and found clean
        obtain ⟨m, hle, hl, hgen, hclean⟩ := (hc.blocks _ x hg).stamp
        by_cases heq : x.generation = s.dsp.pramDirty.generation
        · rw [hgen, hc.generation] at heq
          have hlt := hm m hl
          have hmm : m = s.marks := by
            have := congrArg BitVec.toNat heq
            simp only [BitVec.toNat_ofNat] at this
            omega
          subst hq
          exact absurd hd (hclean hmm a ha)
        · subst hq
          simp only [DspState.needsEvict, Bool.or_eq_true, Bool.and_eq_true]
          refine .inr ⟨by simpa using heq, ?_⟩
          exact (PramDirtyBitmap.isRangeDirty_iff _ _ _).mpr ⟨a, ha.1, ha.2, hd⟩
      · exact .inl ⟨‹_›, hb⟩

theorem checkBlock_cache (s : DspState σ) (jit : JitEngine φ) :
    (s.checkBlock jit).cache.maxSpan = jit.cache.maxSpan ∧
    (s.checkBlock jit).cache.blocks.length = jit.cache.blocks.length ∧
    (s.checkBlock jit).pramSize = jit.pramSize ∧
    (s.checkBlock jit).translations = jit.translations := by
  simp only [DspState.checkBlock]
  split
  · exact ⟨rfl, rfl, rfl, rfl⟩
  · split <;> simp

/-- A block nothing in the step concerns: its words stand and its dirty bits are as they
were. -/
theorem BlockOk.keep {origin : φ → List Word} {s t : CacheSystem σ φ} {q : Nat}
    {b : CompiledBlock φ} (hok : BlockOk origin s q b) (hmap : t.dsp.map = s.dsp.map)
    (hw : ∀ a, s.dsp.map.pWord t.dsp.world a = s.dsp.map.pWord s.dsp.world a)
    (hspan : s.jit.cache.maxSpan ≤ t.jit.cache.maxSpan) (hm : t.marks = s.marks)
    (hl : t.lastDispatch q = s.lastDispatch q)
    (hd : ∀ a, (snapshot origin q b).Covers a →
      (t.dsp.pramDirty.IsDirty a ↔ s.dsp.pramDirty.IsDirty a)) : BlockOk origin t q b where
  nonempty := hok.nonempty
  span := le_trans hok.span hspan
  length := hok.length
  tracks := by
    rw [hmap]
    exact hok.tracks.clear (fun a _ => hw a) fun a ha h => (hd a ha).mpr h
  stamp := by
    obtain ⟨m, hle, hlast, hgen, hclean⟩ := hok.stamp
    refine ⟨m, hm ▸ hle, hl.trans hlast, hgen, fun he a ha h => ?_⟩
    exact hclean (he.trans hm) a ha ((hd a ha).mp h)

/-- A fresh block with no dirty bit on it, stamped now. -/
theorem Fresh.blockOk {origin : φ → List Word} {t : CacheSystem σ φ} {pc : Word}
    {b : CompiledBlock φ} (hf : Fresh origin t.dsp.map t.dsp.world pc b)
    (hspan : b.endPc.toNat - pc.toNat ≤ t.jit.cache.maxSpan)
    (hl : t.lastDispatch pc.toNat = some t.marks) (hg : b.generation = BitVec.ofNat 32 t.marks)
    (hd : ∀ a, (snapshot origin pc.toNat b).Covers a → ¬ t.dsp.pramDirty.IsDirty a) :
    BlockOk origin t pc.toNat b where
  nonempty := hf.nonempty
  span := hspan
  length := hf.length
  tracks := by
    intro a ha
    have hlt := b.endPc.isLt
    obtain ⟨h1, h2⟩ := ha
    simp only [snapshot] at h1 h2 ⊢
    have hx := hf.words (a - pc.toNat) (by omega)
    have ha' : (pc + BitVec.ofNat 32 (a - pc.toNat)).toNat = a := by
      rw [BitVec.toNat_add, BitVec.toNat_ofNat]
      omega
    rw [ha'] at hx
    exact .inl hx.symm
  stamp := ⟨t.marks, le_refl _, hl, hg, fun _ => hd⟩

/-- Blocks that survive an invalidation of [pc, endPc) do not reach into it. -/
theorem not_covers_of_survives (origin : φ → List Word) {c : CodeCache φ} {pc endPc : Word}
    {q : Nat} {b : CompiledBlock φ} (hlt : pc < endPc) (hspan : b.endPc.toNat - q ≤ c.maxSpan)
    (hb : (c.invalidateRange pc (if endPc = 0 then 0 else endPc - 1)).get q = some b) {a : Nat}
    (ha : (snapshot origin q b).Covers a) : ¬ (pc.toNat ≤ a ∧ a < endPc.toNat) := by
  obtain ⟨h1, h2⟩ := ha
  simp only [snapshot] at h1 h2
  have hn : pc.toNat < endPc.toNat := hlt
  have hlast : (if endPc = 0 then 0 else endPc - 1 : Word).toNat = endPc.toNat - 1 := by
    rw [if_neg (by bv_omega)]
    bv_omega
  obtain ⟨_, h⟩ := CodeCache.get_invalidateRange hb
  rw [hlast] at h
  omega

/-- Rebuilding at PC, from a lookup that left the other entries alone. -/
theorem Coherent.rebuild {origin : φ → List Word} {map : MemoryMap σ} {s : CacheSystem σ φ}
    (hq : map.QuietCallbacks) (hc : Coherent origin map s) {compile : Compiler σ φ}
    (ht : Translates origin compile map s.dsp.pc) (hpc : s.dsp.pc.toNat < s.jit.pramSize)
    {jit : JitEngine φ} (hspan : jit.cache.maxSpan = s.jit.cache.maxSpan)
    (hlen : jit.cache.blocks.length = s.jit.cache.blocks.length)
    (hsize : jit.pramSize = s.jit.pramSize) (htr : jit.translations = s.jit.translations)
    (hget : ∀ q b, q ≠ s.dsp.pc.toNat → jit.cache.get q = some b → s.jit.cache.get q = some b) :
    Coherent origin map { s with
      dsp := (s.dsp.rebuildBlock jit compile).1, jit := (s.dsp.rebuildBlock jit compile).2
      lastDispatch := Function.update s.lastDispatch s.dsp.pc.toNat (some s.marks) } := by
  obtain ⟨hcache, hsize', hret, hw, hgen, hf⟩ := getOrCompileBlock_spec hq ht
    (htr ▸ hc.retained) s.dsp.stopPc s.dsp.pramDirty.generation s.dsp.world
  simp only [DspState.rebuildBlock, hc.map]
  generalize jit.getOrCompileBlock compile s.dsp.pc s.dsp.stopPc s.dsp.pramDirty.generation map
    s.dsp.world = r at hcache hsize' hret hw hgen hf ⊢
  obtain ⟨block, jit', world⟩ := r
  simp only at hcache hsize' hret hw hgen hf ⊢
  have hn : s.dsp.pc.toNat < block.endPc.toNat := hf.nonempty
  have hlen' : s.dsp.pc.toNat < jit'.cache.blocks.length := by
    rw [hcache, hlen, hc.size]
    exact hpc
  have hf' : Fresh origin map world s.dsp.pc block :=
    ⟨hf.nonempty, hf.length, fun i hi => (hf.words i hi).trans (hw _).symm⟩
  by_cases hd : s.dsp.pramDirty.isRangeDirty s.dsp.pc block.endPc = true
  · -- the overlapping blocks go, then the bits
    rw [if_pos hd]
    have hclear := PramDirtyBitmap.clearDirtyRange_isDirty s.dsp.pramDirty s.dsp.pc block.endPc
    refine ⟨rfl, PramDirtyBitmap.clearDirtyRange_wellFormed hc.bitmap _ _, ?_, ?_,
      fun q b hb => ?_, hret⟩
    · exact (PramDirtyBitmap.clearDirtyRange_generation _ _ _).trans hc.generation
    · simp [hcache, hlen, hsize', hsize, hc.size]
    · rw [CodeCache.get_insert _ (by simpa using hlen')] at hb
      split at hb
      · rename_i hqpc
        obtain rfl := Option.some.inj hb
        subst hqpc
        refine Fresh.blockOk hf' ?_ (Function.update_self _ _ _) (hgen.trans hc.generation) ?_
        · simp [CodeCache.insert]
        · intro a ha h
          exact ((hclear a).mp h).2 ha
      · rename_i hqpc
        obtain ⟨hold, _⟩ := CodeCache.get_invalidateRange hb
        rw [hcache] at hold
        have hok := hc.blocks q b (hget q b hqpc hold)
        have hdisj (a : Nat) (ha : (snapshot origin q b).Covers a) :=
          not_covers_of_survives origin hf.nonempty (by rw [hcache, hspan]; exact hok.span) hb ha
        refine hok.keep hc.map.symm ?_ ?_ rfl (Function.update_of_ne hqpc _ _) fun a ha => ?_
        · rw [hc.map]
          exact hw
        · simp [CodeCache.insert, hcache, hspan]
        · exact (hclear a).trans (and_iff_left (hdisj a ha))
  · rw [if_neg hd]
    refine ⟨rfl, hc.bitmap, hc.generation, ?_, fun q b hb => ?_, hret⟩
    · simp [hcache, hlen, hsize', hsize, hc.size]
    · rw [CodeCache.get_insert _ hlen'] at hb
      split at hb
      · rename_i hqpc
        obtain rfl := Option.some.inj hb
        subst hqpc
        refine Fresh.blockOk hf' ?_ (Function.update_self _ _ _) (hgen.trans hc.generation) ?_
        · simp [CodeCache.insert]
        · intro a ha h
          exact hd ((PramDirtyBitmap.isRangeDirty_iff _ _ _).mpr ⟨a, ha.1, ha.2, h⟩)
      · rename_i hqpc
        rw [hcache] at hb
        have hok := hc.blocks q b (hget q b hqpc hb)
        refine hok.keep hc.map.symm ?_ ?_ rfl (Function.update_of_ne hqpc _ _) fun _ _ => Iff.rfl
        · rw [hc.map]
          exact hw
        · simp [CodeCache.insert, hcache, hspan]

/-- Dispatching keeps the cache coherent. -/
theorem Coherent.dispatch {origin : φ → List Word} {map : MemoryMap σ} {s : CacheSystem σ φ}
    (hq : map.QuietCallbacks) (hc : Coherent origin map s) {compile : Compiler σ φ}
    (ht : Translates origin compile map s.dsp.pc) (hpc : s.dsp.pc.toNat < s.jit.pramSize)
    (hm : ∀ m, s.lastDispatch s.dsp.pc.toNat = some m → s.marks - m < 2 ^ 32) :
    Coherent origin map { s with
      dsp := (s.dsp.dispatchBlock s.jit compile).1, jit := (s.dsp.dispatchBlock s.jit compile).2
      lastDispatch := Function.update s.lastDispatch s.dsp.pc.toNat (some s.marks) } := by
  obtain ⟨hspan, hlen, hsize, htr⟩ := checkBlock_cache s.dsp s.jit
  have hget := checkBlock_get hc hpc hm
  simp only [DspState.dispatchBlock]
  cases hb : (s.dsp.checkBlock s.jit).cache.get s.dsp.pc.toNat with
  | some b₀ =>
    refine ⟨hc.map, hc.bitmap, hc.generation, ?_, fun q b hqb => ?_, htr ▸ hc.retained⟩
    · exact hlen.trans (hc.size.trans hsize.symm)
    · rcases hget q b hqb with ⟨hne, hold⟩ | ⟨rfl, ⟨b', hold, rfl⟩, hclean⟩
      · refine (hc.blocks q b hold).keep rfl (fun _ => rfl) (le_of_eq hspan.symm) rfl ?_
          fun _ _ => Iff.rfl
        exact Function.update_of_ne hne _ _
      · have hok := hc.blocks _ b' hold
        refine ⟨hok.nonempty, hspan ▸ hok.span, hok.length, hok.tracks, s.marks, le_refl _, ?_,
          hc.generation, fun _ => hclean⟩
        exact Function.update_self _ _ _
  | none =>
    refine hc.rebuild hq ht hpc hspan hlen hsize htr fun q b hne h => ?_
    rcases hget q b h with ⟨_, hold⟩ | ⟨hqpc, _⟩
    · exact hold
    · exact absurd hqpc hne

/-- Every event keeps the cache coherent. -/
theorem step_coherent {origin : φ → List Word} {map : MemoryMap σ} (hs : map.NoSharedCell)
    (hq : map.QuietCallbacks) (s : CacheSystem σ φ) (e : CacheEvent σ φ) (t : CacheSystem σ φ)
    (hc : Coherent origin map s) (he : step origin s e t) : Coherent origin map t := by
  have hs' : s.dsp.map.NoSharedCell := hc.map ▸ hs
  have hq' : s.dsp.map.QuietCallbacks := hc.map ▸ hq
  cases e with
  | guestWrite sp a v =>
    obtain ⟨ha, rfl⟩ := he
    exact hc.write (DspState.jitWriteMem_writesAt hs' hq' sp a v) ha
  | hostWrite sp a v =>
    obtain ⟨ha, rfl⟩ := he
    exact hc.write (DspState.writeMemory_writesAt hs' hq' sp a v) ha
  | hostWriteRun sp a vs =>
    obtain ⟨ha, rfl⟩ := he
    exact hc.hostWrites hs hq sp a vs ha
  | invalidateCache =>
    obtain rfl : t = _ := he
    refine hc.forget (by simp [JitEngine.invalidateCache, hc.size]) rfl (fun pc b hb => ?_) ?_
    · simp [JitEngine.invalidateCache, CodeCache.get_invalidateAll] at hb
    · intro key u hu
      cases hu
  | invalidateBlocks =>
    obtain rfl : t = _ := he
    refine hc.forget (by simp [JitEngine.invalidateBlocks, hc.size]) rfl (fun pc b hb => ?_)
      hc.retained
    simp [JitEngine.invalidateBlocks, CodeCache.get_invalidateAll] at hb
  | invalidateRange lo hi =>
    obtain rfl : t = _ := he
    refine hc.forget (by simp [JitEngine.invalidateRange, hc.size])
      (by simp [JitEngine.invalidateRange]) (fun pc b hb => ?_) hc.retained
    exact (CodeCache.get_invalidateRange hb).1
  | translate startPc stopPc compile =>
    obtain ⟨ht, rfl⟩ := he
    obtain ⟨hcache, hsize, hret, hw, _, _⟩ := getOrCompileBlock_spec hq' ht hc.retained stopPc
      s.dsp.pramDirty.generation s.dsp.world
    refine Coherent.same (s := { s with jit := _ }) (hc.forget ?_ ?_ ?_ hret) rfl rfl rfl rfl rfl
      fun b _ => hw b
    · rw [hcache, hsize, hc.size]
    · rw [hcache]
    · rw [hcache]
      exact fun _ _ h => h
  | dispatch compile =>
    obtain ⟨ht, hpc, hm, rfl⟩ := he
    exact hc.dispatch hq (hc.map ▸ ht) hpc hm
  | other =>
    obtain ⟨hj, hm, hl, hmap, hd, hw⟩ := he
    exact hc.same hj hm hl hmap hd hw

/-- After the lookup there is a block at PC to call. -/
theorem dispatchBlock_get {s : DspState σ} {jit : JitEngine φ} (compile : Compiler σ φ)
    (hpc : s.pc.toNat < jit.cache.blocks.length)
    (hcache : ∀ j : JitEngine φ, ∀ stop gen w, (j.getOrCompileBlock compile s.pc stop gen s.map
      w).2.1.cache = j.cache) :
    ∃ b, (s.dispatchBlock jit compile).2.cache.get s.pc.toNat = some b := by
  obtain ⟨_, hlen, _, _⟩ := checkBlock_cache s jit
  simp only [DspState.dispatchBlock]
  cases hb : (s.checkBlock jit).cache.get s.pc.toNat with
  | some b => exact ⟨b, hb⟩
  | none =>
    have hc := hcache (s.checkBlock jit) s.stopPc s.pramDirty.generation s.world
    simp only [DspState.rebuildBlock]
    split
    · rw [CodeCache.get_insert _ (by simpa [hc, hlen] using hpc), if_pos rfl]
      exact ⟨_, rfl⟩
    · rw [CodeCache.get_insert _ (by simpa [hc, hlen] using hpc), if_pos rfl]
      exact ⟨_, rfl⟩

theorem getOrCompileBlock_cache (jit : JitEngine φ) (compile : Compiler σ φ)
    (startPc stopPc generation : Word) (map : MemoryMap σ) (w : World σ) :
    (jit.getOrCompileBlock compile startPc stopPc generation map w).2.1.cache = jit.cache := by
  simp only [JitEngine.getOrCompileBlock]
  split
  · rfl
  · exact (retain_cache _ _ _).1

/-- A block stamped at the current mark count stands on the words it came from. -/
theorem BlockOk.words {origin : φ → List Word} {s : CacheSystem σ φ} {pc : Word}
    {b : CompiledBlock φ} (hok : BlockOk origin s pc.toNat b) (hq : s.dsp.map.QuietCallbacks)
    (hl : s.lastDispatch pc.toNat = some s.marks) :
    (s.dsp.map.blockWords pc b.endPc s.dsp.world).1 = origin b.func := by
  obtain ⟨m, _, hlast, _, hclean⟩ := hok.stamp
  have hm : m = s.marks := Option.some.inj (hlast.symm.trans hl)
  obtain ⟨hlen, hv, _⟩ := MemoryMap.readWords_spec hq pc (b.endPc.toNat - pc.toNat) s.dsp.world
  have hend := b.endPc.isLt
  apply List.ext_getElem (hlen.trans hok.length.symm)
  intro i h1 h2
  have hi : i < b.endPc.toNat - pc.toNat := hok.length ▸ h2
  have ha : (pc + BitVec.ofNat 32 i).toNat = pc.toNat + i := by
    rw [BitVec.toNat_add, BitVec.toNat_ofNat]
    omega
  have hx := hok.tracks.exact (hclean hm) (a := pc.toNat + i)
    ⟨Nat.le_add_right _ _, by simp only [snapshot]; omega⟩
  rw [← List.getD_eq_getElem _ 0 h1, ← List.getD_eq_getElem _ 0 h2]
  calc (s.dsp.map.readWords pc (b.endPc.toNat - pc.toNat) s.dsp.world).1.getD i 0
      = s.dsp.map.pWord s.dsp.world (pc.toNat + i) := by rw [hv i hi, ha]
    _ = (origin b.func).getD (pc.toNat + i - pc.toNat) 0 := hx
    _ = (origin b.func).getD i 0 := by rw [Nat.add_sub_cancel_left]

/-- Code-cache coherence. In any run from an empty cache and a clean bitmap, the block the
run loop is about to call at PC was translated from the words P memory holds there now. -/
theorem dispatched_block_current {origin : φ → List Word} {map : MemoryMap σ}
    (hs : map.NoSharedCell) (hq : map.QuietCallbacks) (world : World σ) (pramSize : Nat)
    {es : List (CacheEvent σ φ)} {s t : CacheSystem σ φ} {compile : Compiler σ φ}
    (hr : Lib.Runs.Run (step origin) (init map world pramSize) es s)
    (hd : step origin s (.dispatch compile) t) :
    ∃ b, t.jit.cache.get s.dsp.pc.toNat = some b ∧
      (map.blockWords s.dsp.pc b.endPc t.dsp.world).1 = origin b.func := by
  have hc := hr.invariant (step_coherent hs hq) (init_coherent origin map world pramSize)
  have hc' := step_coherent hs hq s _ t hc hd
  obtain ⟨_, hpc, _, rfl⟩ := hd
  obtain ⟨b, hb⟩ := dispatchBlock_get compile (hc.size ▸ hpc)
    fun j stop gen w => getOrCompileBlock_cache j compile _ stop gen _ w
  refine ⟨b, hb, ?_⟩
  have hok : BlockOk origin _ s.dsp.pc.toNat b := hc'.blocks _ b hb
  have hw := hok.words (hc'.map ▸ hq) (Function.update_self _ _ _)
  rwa [hc'.map] at hw

/-- One buffer of P memory and a compiler of one-word blocks: a word is written at the reset
PC and the block there built. -/
theorem dispatched_block_current_write :
    let map : MemoryMap Unit := ⟨[], [], [⟨0, 64, .buffer 0 0⟩]⟩
    let compile : Compiler Unit (List Word) := fun startPc _ generation map w =>
      (⟨(map.blockWords startPc (startPc + 1) w).1, startPc + 1, generation, true⟩, w)
    let s := (DspState.new map ⟨fun _ => 0, ()⟩).jitWriteMem .p 0 0x0C0042
    let t := s.dispatchBlock (.new 64) compile
    ∃ b, t.2.cache.get s.pc.toNat = some b ∧
      (map.blockWords s.pc b.endPc t.1.world).1 = b.func := by
  intro map compile s t
  have hbuf : ∀ sp, ∀ r ∈ map.regions sp, ∀ f g, r.kind ≠ .callback f g := by
    intro sp r hr f g
    cases sp <;> simp [map, MemoryMap.regions] at hr
    simp [hr]
  have hs : map.NoSharedCell := by
    intro sp sp' r r' _ _ _ _ _ _ hr hr' hne
    cases sp <;> simp [map, MemoryMap.regions] at hr
    cases sp' <;> simp [map, MemoryMap.regions] at hr'
    exact absurd (by rw [hr, hr']) hne
  have hq := map.quietCallbacks_of_buffers hbuf
  have hmap : s.map = map := (DspState.jitWriteMem_writesAt hs hq .p 0 0x0C0042).map
  have hpc : s.pc = 0 := by decide
  have ht : Translates id compile s.map s.pc := by
    rw [hmap, hpc]
    exact fun _ _ _ => ⟨(by decide : (0 : Word) < 0 + 1), rfl, rfl, fun _ => rfl⟩
  exact @dispatched_block_current _ _ id map hs hq ⟨fun _ => 0, ()⟩ 64
    [.guestWrite .p 0 0x0C0042] _ _ compile
    (.cons ⟨fun _ => (by decide : 0 < 64), rfl⟩ (.nil _))
    ⟨ht, (by rw [hpc]; decide : s.pc.toNat < 64), fun m h => (nomatch h), rfl⟩

end CacheSystem

end Dsp56300
