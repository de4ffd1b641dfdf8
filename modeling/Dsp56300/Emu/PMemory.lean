import Dsp56300.Emu.CodeCache
import Dsp56300.Emu.DirtyBits

namespace Dsp56300

variable {σ φ : Type}

namespace MemoryMap

/-- The P-memory word at `a` as a read sees it. -/
def pWord (map : MemoryMap σ) (w : World σ) (a : Nat) : Word :=
  (map.readPram (BitVec.ofNat 32 a) w).1

/-- No two regions share a buffer cell. -/
def NoSharedCell (map : MemoryMap σ) : Prop :=
  ∀ (sp sp' : MemSpace) (r r' : MemoryRegion σ) (base base' : Nat) (offset offset' a a' : Word),
    r ∈ map.regions sp → r' ∈ map.regions sp' → (sp, r) ≠ (sp', r') →
    r.kind = .buffer base offset → r'.kind = .buffer base' offset' →
    r.contains a → r'.contains a' → r.cell base offset a ≠ r'.cell base' offset' a'

/-- The host's callbacks behave like memory as far as P words go: a read changes none, a
write changes at most the one it is addressed to, writing a word's own value changes
nothing, and the word does not come out of a buffer. -/
structure QuietCallbacks (map : MemoryMap σ) : Prop where
  read : ∀ a r f g, map.lookup .p a = some r → r.kind = .callback f g →
    ∀ w b, map.pWord (f a w).2 b = map.pWord w b
  write : ∀ sp a r f g, map.lookup sp a = some r → r.kind = .callback f g →
    ∀ v w b, b < 2 ^ 32 → (sp = .p → b ≠ a.toNat) → map.pWord (g a v w) b = map.pWord w b
  rewrite : ∀ a r f g, map.lookup .p a = some r → r.kind = .callback f g →
    ∀ w, map.pWord (g a (map.pWord w a.toNat) w) a.toNat = map.pWord w a.toNat
  heap : ∀ a r f g, map.lookup .p a = some r → r.kind = .callback f g →
    ∀ w c v, (f a { w with heap := Function.update w.heap c v }).1 = (f a w).1

theorem readPram_eq (map : MemoryMap σ) (a : Word) (w : World σ) :
    (map.readPram a w).1 = map.pWord w a.toNat := by
  rw [pWord, BitVec.ofNat_toNat, BitVec.setWidth_eq]

theorem lookup_mem {map : MemoryMap σ} {sp : MemSpace} {a : Word} {r : MemoryRegion σ}
    (h : map.lookup sp a = some r) : r ∈ map.regions sp ∧ r.contains a = true := by
  have hf : (map.regions sp).find? (·.contains a) = some r := h
  exact ⟨List.mem_of_find?_eq_some hf, by simpa using List.find?_some hf⟩

/-- Reading P memory leaves every P word as it is. -/
theorem pWord_readPram {map : MemoryMap σ} (hq : map.QuietCallbacks) (a : Word) (w : World σ)
    (b : Nat) : map.pWord (map.readPram a w).2 b = map.pWord w b := by
  rw [readPram, readMemory]
  cases hl : map.lookup .p a with
  | none => rfl
  | some r =>
    cases hk : r.kind with
    | buffer base offset => simp only [hk]
    | callback f g =>
      simp only [hk]
      exact hq.read a r f g hl hk w b

theorem cell_injective (r : MemoryRegion σ) (base : Nat) (offset : Word) {a b : Word}
    (h : r.cell base offset a = r.cell base offset b) : a = b := by
  simp only [MemoryRegion.cell, Nat.add_left_cancel_iff] at h
  have h1 := BitVec.eq_of_toNat_eq h
  bv_omega

/-- P words come out of the heap only through their own cells. -/
theorem pWord_update_heap {map : MemoryMap σ} (hq : map.QuietCallbacks) (w : World σ) {c : Nat}
    (v : Word) {b : Nat} (hc : ∀ r base offset, map.lookup .p (BitVec.ofNat 32 b) = some r →
      r.kind = .buffer base offset → r.cell base offset (BitVec.ofNat 32 b) ≠ c) :
    map.pWord { w with heap := Function.update w.heap c v } b = map.pWord w b := by
  rw [pWord, pWord, readPram, readPram, readMemory, readMemory]
  cases hl : map.lookup .p (BitVec.ofNat 32 b) with
  | none => rfl
  | some r =>
    cases hk : r.kind with
    | buffer base offset =>
      simp only [hk]
      rw [Function.update_of_ne (hc r base offset hl hk)]
    | callback f g =>
      simp only [hk]
      rw [hq.heap _ r f g hl hk w c v]

/-- A write changes no P word but the one it is addressed to. -/
theorem pWord_writeMemory {map : MemoryMap σ} (hs : map.NoSharedCell) (hq : map.QuietCallbacks)
    (sp : MemSpace) (a v : Word) (w : World σ) {b : Nat} (hb : b < 2 ^ 32)
    (hne : sp = .p → b ≠ a.toNat) : map.pWord (map.writeMemory sp a v w) b = map.pWord w b := by
  simp only [writeMemory]
  cases hl : map.lookup sp a with
  | none => rfl
  | some r =>
    cases hk : r.kind with
    | callback f g =>
      simp only [hk]
      exact hq.write sp a r f g hl hk _ w b hb hne
    | buffer base offset =>
      simp only [hk]
      apply pWord_update_heap hq
      intro q base' offset' hq' hk' he
      obtain ⟨hm, hin⟩ := lookup_mem hl
      obtain ⟨hm', hin'⟩ := lookup_mem hq'
      by_cases heq : (MemSpace.p, q) = (sp, r)
      · -- the region written: its own cells are distinct
        obtain ⟨rfl, rfl⟩ := Prod.mk.inj heq
        rw [hk] at hk'
        obtain ⟨rfl, rfl⟩ := RegionKind.buffer.inj hk'
        have hba := cell_injective _ _ _ he
        apply hne rfl
        rw [← hba, BitVec.toNat_ofNat, Nat.mod_eq_of_lt hb]
      · exact hs _ _ _ _ _ _ _ _ _ _ hm' hm heq hk' hk hin' hin he

/-- Writing a P word's own value changes no P word. -/
theorem pWord_rewrite {map : MemoryMap σ} (hs : map.NoSharedCell) (hq : map.QuietCallbacks)
    (a v : Word) (w : World σ) (hv : map.pWord w a.toNat = v &&& 0xFFFFFF) {b : Nat}
    (hb : b < 2 ^ 32) : map.pWord (map.writeMemory .p a v w) b = map.pWord w b := by
  by_cases hba : b = a.toNat
  · subst hba
    rw [← readPram_eq, ← readPram_eq]
    rw [← readPram_eq] at hv
    simp only [readPram, readMemory, writeMemory] at hv ⊢
    cases hl : map.lookup .p a with
    | none => rfl
    | some r =>
      cases hk : r.kind with
      | buffer base offset =>
        simp only [hl, hk, Function.update_self] at hv ⊢
        rw [hv, BitVec.and_assoc, BitVec.and_self]
      | callback f g =>
        simp only [hl, hk] at hv ⊢
        have hw := hq.rewrite a r f g hl hk w
        rw [← readPram_eq, ← readPram_eq] at hw
        simp only [readPram, readMemory, hl, hk] at hw
        rw [← hv]
        exact hw
  · exact pWord_writeMemory hs hq .p a v w hb fun _ => hba

/-- A map of buffers has no callbacks to be quiet. -/
theorem quietCallbacks_of_buffers {map : MemoryMap σ}
    (h : ∀ sp, ∀ r ∈ map.regions sp, ∀ f g, r.kind ≠ .callback f g) : map.QuietCallbacks where
  read := fun _ r f g hl hk => absurd hk (h .p r (lookup_mem hl).1 f g)
  write := fun sp _ r f g hl hk => absurd hk (h sp r (lookup_mem hl).1 f g)
  rewrite := fun _ r f g hl hk => absurd hk (h .p r (lookup_mem hl).1 f g)
  heap := fun _ r f g hl hk => absurd hk (h .p r (lookup_mem hl).1 f g)

end MemoryMap

end Dsp56300
