import Dsp56300.Emu.Conditions
import Dsp56300.Emu.EmitInstruction
import Dsp56300.Emu.MemoryPaths

/-! What the parts of the core and the words of memory may hold. -/

namespace Dsp56300

open Emitter

variable {σ : Type}

/-- A value of 56 bits. -/
def Packs (v : BitVec 64) : Prop := v.toNat < 2 ^ 56

/-- A value of 24 bits. -/
def Is24 (v : Word) : Prop := v.toNat < 2 ^ 24

instance (v : Word) : Decidable (Is24 v) := inferInstanceAs (Decidable (v.toNat < 2 ^ 24))

section Packs

variable {x y : BitVec 64}

theorem packs_mask56 (x : BitVec 64) : Packs (mask56 x) :=
  Nat.lt_of_le_of_lt Nat.and_le_right (by decide : 0x00FFFFFFFFFFFFFF < 2 ^ 56)

theorem Packs.or (hx : Packs x) (hy : Packs y) : Packs (x ||| y) := Nat.or_lt_two_pow hx hy

theorem Packs.and (hx : Packs x) : Packs (x &&& y) := Nat.lt_of_le_of_lt Nat.and_le_left hx

theorem Packs.ite {c : Prop} [Decidable c] (hx : Packs x) (hy : Packs y) :
    Packs (if c then x else y) := by
  split
  · exact hx
  · exact hy

theorem packs_zero : Packs 0 := Nat.two_pow_pos 56

theorem packs_of_low (h : x.toNat < 2 ^ 32) : Packs x := Nat.lt_trans h (by decide)

theorem packs_widened (v : Word) : Packs (v.setWidth 64) := by
  apply packs_of_low
  have hle : v.toNat % 2 ^ 64 ≤ v.toNat := Nat.mod_le _ _
  rw [BitVec.toNat_setWidth]
  exact Nat.lt_of_le_of_lt hle v.isLt

theorem packs_val24ToAcc56 (v : Word) : Packs (val24ToAcc56 v) := packs_mask56 _

theorem Packs.shifted {k : Nat} (hx : x.toNat < 2 ^ (56 - k)) (hk : k ≤ 56) : Packs (x <<< k) := by
  have hp : 2 ^ (56 - k) * 2 ^ k = 2 ^ 56 := by rw [← Nat.pow_add, Nat.sub_add_cancel hk]
  have hlt : x.toNat * 2 ^ k < 2 ^ 56 := by
    rw [← hp]
    exact Nat.mul_lt_mul_of_pos_right hx (Nat.two_pow_pos k)
  have hle : x.toNat * 2 ^ k % 2 ^ 64 ≤ x.toNat * 2 ^ k := Nat.mod_le _ _
  rw [Packs, BitVec.toNat_shiftLeft, Nat.shiftLeft_eq]
  exact Nat.lt_of_le_of_lt hle hlt

theorem field_lt (x : BitVec 64) {mask : BitVec 64} {k : Nat} (hm : mask.toNat < 2 ^ k) :
    ((x &&& mask).setWidth 32 : Word).toNat < 2 ^ k := by
  rw [BitVec.toNat_setWidth]
  exact Nat.lt_of_le_of_lt (Nat.mod_le _ _) (Nat.lt_of_le_of_lt Nat.and_le_right hm)

theorem Packs.word {v : Word} {k : Nat} (hk : k ≤ 56) (hv : v.toNat < 2 ^ (56 - k)) :
    Packs (v.setWidth 64 <<< k) := by
  refine .shifted ?_ hk
  rw [BitVec.toNat_setWidth]
  exact Nat.lt_of_le_of_lt (Nat.mod_le _ _) hv

/-- The three parts of a value make 56 bits. -/
theorem packs_packAcc {a2 a1 a0 : Word} (h2 : a2.toNat < 2 ^ 8) :
    Packs (Emitter.packAcc a2 a1 a0) :=
  ((Packs.word (by decide) h2).or (.word (by decide) a1.isLt)).or (packs_widened a0)

theorem packs_extracted (x : BitVec 64) :
    Packs (Emitter.packAcc (extractAccHi x) (extractAccMid x) (extractAccLo x)) :=
  packs_packAcc (field_lt _ (by decide))

theorem packs_merged (v w : Word) :
    Packs (((((v &&& 0xFFF) <<< 12) ||| (w &&& 0xFFF)) : Word).setWidth 64 <<< 24) := by
  have hv : ((v &&& 0xFFF) <<< 12).toNat < 2 ^ 24 := by
    have hlt : (v &&& 0xFFF).toNat < 2 ^ 12 := Nat.lt_of_le_of_lt Nat.and_le_right (by decide)
    rw [BitVec.toNat_shiftLeft, Nat.shiftLeft_eq]
    omega
  have hw : (w &&& 0xFFF).toNat < 2 ^ 24 := Nat.lt_of_le_of_lt Nat.and_le_right (by decide)
  exact .word (by decide) (Nat.lt_trans (Nat.or_lt_two_pow hv hw) (by decide))

end Packs

theorem maskReg_maskReg (r : RegIdx) (v : Word) : maskReg r (maskReg r v) = maskReg r v := by
  rw [maskReg, maskReg, BitVec.and_assoc, BitVec.and_self]

theorem is24_masked (v : Word) : Is24 (v &&& 0xFFFFFF) :=
  Nat.lt_of_le_of_lt Nat.and_le_right (by decide)

/-! Memory. -/

/-- Buffers hold words of 24 bits, and the host's callbacks keep it so. -/
structure MemoryMap.Holds (map : MemoryMap σ) (w : World σ) : Prop where
  heap : ∀ n, Is24 (w.heap n)
  callbacks : ∀ space, ∀ r ∈ map.regions space, ∀ f g, r.kind = .callback f g →
    ∀ (addr v : Word) (u : World σ), (∀ n, Is24 (u.heap n)) →
      (∀ n, Is24 ((f addr u).2.heap n)) ∧ ∀ n, Is24 ((g addr v u).heap n)

theorem MemoryMap.holds_unmapped :
    (⟨[], [], []⟩ : MemoryMap Unit).Holds ⟨fun _ => 0, ()⟩ := by
  refine ⟨fun _ => Nat.two_pow_pos 24, fun space r hr => ?_⟩
  cases space <;> exact absurd hr List.not_mem_nil

namespace MemoryMap.Holds

variable {map : MemoryMap σ} {w : World σ}

theorem store (h : map.Holds w) (n : Nat) {v : Word} (hv : Is24 v) :
    map.Holds { w with heap := Function.update w.heap n v } := by
  refine ⟨fun k => ?_, h.callbacks⟩
  by_cases hk : k = n
  · subst hk
    change Is24 (Function.update w.heap k v k)
    rwa [Function.update_self]
  · change Is24 (Function.update w.heap n v k)
    rw [Function.update_of_ne hk]
    exact h.heap k

theorem called (h : map.Holds w) {space : MemSpace} {addr : Word} {r : MemoryRegion σ}
    (hr : map.lookup space addr = some r) {f : Word → World σ → Word × World σ}
    {g : Word → Word → World σ → World σ} (hk : r.kind = .callback f g) (v : Word) :
    map.Holds (f addr w).2 ∧ map.Holds (g addr v w) := by
  have hmem : r ∈ map.regions space := List.mem_of_find?_eq_some hr
  obtain ⟨hf, hg⟩ := h.callbacks space r hmem f g hk addr v w h.heap
  exact ⟨⟨hf, h.callbacks⟩, ⟨hg, h.callbacks⟩⟩

theorem readMemory (h : map.Holds w) (space : MemSpace) (addr : Word) :
    map.Holds (map.readMemory space addr w).2 := by
  unfold MemoryMap.readMemory
  cases hr : map.lookup space addr with
  | none => exact h
  | some r =>
    cases hk : r.kind with
    | buffer base offset => simpa only [hk] using h
    | callback f g => simpa only [hk] using (h.called hr hk 0).1

theorem writeMemory (h : map.Holds w) (space : MemSpace) (addr v : Word) :
    map.Holds (map.writeMemory space addr v w) := by
  unfold MemoryMap.writeMemory
  cases hr : map.lookup space addr with
  | none => exact h
  | some r =>
    cases hk : r.kind with
    | buffer base offset => simpa only [hk] using h.store _ (is24_masked v)
    | callback f g => simpa only [hk] using (h.called hr hk _).2

theorem readMem (h : map.Holds w) (space : MemSpace) (addr : Word) :
    map.Holds (map.readMem space addr w).2 := by
  unfold MemoryMap.readMem
  cases hr : map.lookup space addr with
  | none => exact h
  | some r =>
    cases hk : r.kind with
    | buffer base offset => simpa only [hk] using h
    | callback f g => simpa only [hk] using (h.called hr hk 0).1

theorem writeMem (h : map.Holds w) (space : MemSpace) (addr v : Word) :
    map.Holds (map.writeMem space addr v w) := by
  unfold MemoryMap.writeMem
  cases hr : map.lookup space addr with
  | none => exact h
  | some r =>
    cases hk : r.kind with
    | buffer base offset => simpa only [hk, emitBufferStore] using h.store _ (is24_masked v)
    | callback f g => simpa only [hk] using (h.called hr hk _).2

theorem readMemDyn (h : map.Holds w) (space : MemSpace) (addr : Word) :
    map.Holds (map.readMemDyn space addr w).2 := by
  unfold MemoryMap.readMemDyn
  split
  · exact h.readMemory space addr
  · dsimp only
    split_ifs
    iterate 3 exact h
    exact h.readMemory space addr

end MemoryMap.Holds

/-! The core. -/

/-- What the interrupt pipeline latches for later. -/
def InterruptPipeline.latched (p : InterruptPipeline) : Word × Word × Byte :=
  (p.vectorAddr, p.savedPc, p.iplToRaise)

theorem InterruptPipeline.add_latched (p : InterruptPipeline) (inter : Nat) :
    (p.add inter).latched = p.latched := by
  unfold InterruptPipeline.add
  split
  · split <;> rfl
  · rfl

/-- Addresses have 24 bits, and the level to raise is one SR can hold. -/
structure InterruptPipeline.Within (p : InterruptPipeline) : Prop where
  vectorAddr : Is24 p.vectorAddr
  savedPc : Is24 p.savedPc
  iplToRaise : p.iplToRaise.toNat ≤ 3

namespace DspState

/-- Registers, stack slots, PC, the interrupt pipeline and memory hold no more than their bits. -/
structure Within (s : DspState σ) : Prop where
  registers : ∀ r, maskReg r (s.registers r) = s.registers r
  slots : ∀ half i, Is24 (s.stack half i)
  pc : Is24 s.pc
  interrupts : s.interrupts.Within
  memory : s.map.Holds s.world

variable {s u : DspState σ} {r q : RegIdx} {v w : Word}

/-- A core just reset. -/
theorem within_new {map : MemoryMap σ} {world : World σ} (h : map.Holds world) :
    (new map world).Within := by
  have hreset (r : RegIdx) : maskReg r (resetRegisters r) = resetRegisters r := by
    revert r
    decide
  have hunset : Is24 0xFFFF := (by decide : 0xFFFF < 2 ^ 24)
  exact ⟨hreset, fun _ _ => Nat.two_pow_pos 24, Nat.two_pow_pos 24,
    ⟨hunset, hunset, Nat.zero_le 3⟩, h⟩

theorem Within.lt (h : s.Within) {k : Nat} (hm : (regMasks r).toNat < 2 ^ k) :
    (s.registers r).toNat < 2 ^ k := by
  rw [← h.registers r]
  exact Nat.lt_of_le_of_lt Nat.and_le_right hm

theorem Within.setReg (h : s.Within) (hw : maskReg r w = w) : (s.setReg r w).Within := by
  refine ⟨fun q => ?_, h.slots, h.pc, h.interrupts, h.memory⟩
  by_cases hq : q = r
  · subst hq
    rw [setReg_same]
    exact hw
  · rw [setReg_other _ _ hq]
    exact h.registers q

/-- The registers, the slots, PC and what the pipeline has latched are the same. -/
structure SameCore (s u : DspState σ) : Prop where
  registers : u.registers = s.registers
  stack : u.stack = s.stack
  pc : u.pc = s.pc
  latched : u.interrupts.latched = s.interrupts.latched
  memory : s.map.Holds s.world → u.map.Holds u.world

theorem SameCore.trans {t : DspState σ} (h : s.SameCore u) (h' : u.SameCore t) : s.SameCore t :=
  ⟨h'.registers.trans h.registers, h'.stack.trans h.stack, h'.pc.trans h.pc,
    h'.latched.trans h.latched, fun hm => h'.memory (h.memory hm)⟩

theorem Within.same (h : s.Within) (hs : s.SameCore u) : u.Within := by
  obtain ⟨hr, hstack, hp, hl, hm⟩ := hs
  obtain ⟨hvector, hsaved, hraise⟩ := h.interrupts
  simp only [InterruptPipeline.latched, Prod.mk.injEq] at hl
  refine ⟨fun r => ?_, fun half i => ?_, ?_, ⟨?_, ?_, ?_⟩, hm h.memory⟩
  · rw [hr]
    exact h.registers r
  · rw [hstack]
    exact h.slots half i
  · rw [hp]
    exact h.pc
  · rw [hl.1]
    exact hvector
  · rw [hl.2.1]
    exact hsaved
  · rw [hl.2.2]
    exact hraise

theorem sameCore_raiseStackError (s : DspState σ) : s.SameCore s.raiseStackError :=
  ⟨rfl, rfl, rfl, InterruptPipeline.add_latched .., id⟩

theorem sameCore_postStackError (s : DspState σ) : s.SameCore s.postStackError :=
  s.sameCore_raiseStackError.trans ⟨rfl, rfl, rfl, rfl, id⟩

theorem Within.setSlot (h : s.Within) (half : Fin 2) (i : Fin 16) (hv : Is24 v) :
    (s.setSlot half i v).Within := by
  refine ⟨h.registers, fun half' i' => ?_, h.pc, h.interrupts, h.memory⟩
  rw [setSlot_stack]
  by_cases hh : half' = half
  · subst hh
    rw [Function.update_self]
    by_cases hi : i' = i
    · subst hi
      rwa [Function.update_self]
    · rw [Function.update_of_ne hi]
      exact h.slots half' i'
  · rw [Function.update_of_ne hh]
    exact h.slots half' i'

theorem Within.setMasked (h : s.Within) (r : RegIdx) (v : Word) :
    (s.setReg r (v &&& regMasks r)).Within := h.setReg (maskReg_maskReg r v)

/-- SSH and SSL take what a slot holds. -/
theorem Within.slot (h : s.Within) (hr : r = Reg.ssh ∨ r = Reg.ssl) (half : Fin 2) (i : Fin 16) :
    (s.setReg r (s.stack half i)).Within := by
  refine h.setReg ?_
  have hm : maskReg r (s.stack half i) = s.stack half i &&& 0xFFFFFF := by
    rcases hr with rfl | rfl <;> rfl
  rw [hm]
  exact and_of_lt (k := 24) rfl (h.slots half i)

theorem Within.mirrorSlots (h : s.Within) (i : Fin 16) :
    (s.mirrorSlots i).Within :=
  (h.slot (.inl rfl) 0 i).slot (.inr rfl) 1 i

end DspState

end Dsp56300
