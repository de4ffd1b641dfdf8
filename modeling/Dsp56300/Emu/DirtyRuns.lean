import Dsp56300.Emu.DirtyBits
import Dsp56300.Lib.Runs
import Mathlib.Data.Set.Lattice

/-! The dirty bitmap over whole sequences of marks and clears. -/

namespace Dsp56300.PramDirtyBitmap

open Lib.Runs

/-- What changes the bitmap. -/
inductive Update where
  | markDirty (addr : Word)
  | clearDirtyRange (startPc endPc : Word)

def Update.apply (b : PramDirtyBitmap) : Update → PramDirtyBitmap
  | .markDirty addr => b.markDirty addr
  | .clearDirtyRange startPc endPc => b.clearDirtyRange startPc endPc

/-- The update of a set of addresses below `n`. -/
def Update.onSet (n : Nat) (d : Set Nat) : Update → Set Nat
  | .markDirty addr => d ∪ {a | a = addr.toNat ∧ a < n}
  | .clearDirtyRange startPc endPc => d \ Set.Ico startPc.toNat endPc.toNat

def updated (n : Nat) (us : List Update) : PramDirtyBitmap := us.foldl Update.apply (new n)

/-- The addresses with a dirty bit. -/
def dirtySet (b : PramDirtyBitmap) : Set Nat := {a | b.IsDirty a}

/-- Marked, and not cleared by a later clear. -/
def Outstanding (a : Nat) : List Update → Prop :=
  Since (fun | .markDirty addr => addr.toNat = a | .clearDirtyRange _ _ => False)
    (fun | .markDirty _ => True
         | .clearDirtyRange startPc endPc => ¬ (startPc.toNat ≤ a ∧ a < endPc.toNat))

/-- The words and bits that a range scan names lie in the bitmap, and its subtractions and shifts
do not wrap. -/
def RangeInBounds (b : PramDirtyBitmap) (startPc endPc : Word) : Prop :=
  let lo := startPc.toNat
  let hi := min endPc.toNat b.pramSize
  lo < hi →
    let firstWord := lo / 64
    let lastWord := (hi - 1) / 64
    firstWord ≤ lastWord ∧ lastWord < b.dirty.length ∧ lastWord * 64 < hi ∧
      (firstWord = lastWord → lo % 64 < min (hi - firstWord * 64) 64)

theorem WellFormed.range {b : PramDirtyBitmap} (hb : b.WellFormed) (startPc endPc : Word) :
    b.RangeInBounds startPc endPc := by
  intro hlt
  unfold WellFormed at hb
  dsimp only
  omega

theorem WellFormed.mark {b : PramDirtyBitmap} (hb : b.WellFormed) {addr : Word}
    (ha : addr.toNat < b.pramSize) : addr.toNat / 64 < b.dirty.length := by
  unfold WellFormed at hb
  omega

theorem apply_wellFormed {b : PramDirtyBitmap} (hb : b.WellFormed) (u : Update) :
    (u.apply b).WellFormed ∧ (u.apply b).pramSize = b.pramSize := by
  cases u with
  | markDirty addr => exact ⟨markDirty_wellFormed hb addr, b.markDirty_pramSize addr⟩
  | clearDirtyRange startPc endPc =>
    exact ⟨clearDirtyRange_wellFormed hb startPc endPc, b.clearDirtyRange_pramSize startPc endPc⟩

/-- One update of the bitmap is that update of its set. -/
theorem apply_dirtySet {b : PramDirtyBitmap} (hb : b.WellFormed) (u : Update) :
    (u.apply b).dirtySet = u.onSet b.pramSize b.dirtySet := by
  ext a
  cases u with
  | markDirty addr =>
    by_cases hx : addr.toNat < b.pramSize
    · have h := markDirty_isDirty hb hx a
      exact h.trans (or_congr_right ⟨fun he => ⟨he, he ▸ hx⟩, And.left⟩)
    · have hn : ¬ (a = addr.toNat ∧ a < b.pramSize) := fun h => hx (h.1 ▸ h.2)
      have he : b.markDirty addr = b := if_neg hx
      refine Iff.trans ?_ (or_iff_left hn).symm
      change (b.markDirty addr).IsDirty a ↔ b.IsDirty a
      rw [he]
  | clearDirtyRange startPc endPc => exact b.clearDirtyRange_isDirty startPc endPc a

theorem updated_snoc (n : Nat) (us : List Update) (u : Update) :
    updated n (us ++ [u]) = u.apply (updated n us) := by
  rw [updated, List.foldl_append]
  rfl

theorem updated_wellFormed (n : Nat) (us : List Update) :
    (updated n us).WellFormed ∧ (updated n us).pramSize = n := by
  induction us using List.reverseRecOn with
  | nil => exact ⟨new_wellFormed n, rfl⟩
  | append_singleton us u ih =>
    have hu := apply_wellFormed ih.1 u
    rw [updated_snoc]
    exact ⟨hu.1, hu.2.trans ih.2⟩

/-- The bitmap holds the addresses below `n` that are marked and not cleared since. -/
theorem updated_isDirty (n : Nat) (us : List Update) (a : Nat) :
    (updated n us).IsDirty a ↔ a < n ∧ Outstanding a us := by
  induction us using List.reverseRecOn with
  | nil => exact iff_of_false (new_clean n a) fun h => not_since_nil h.2
  | append_singleton us u ih =>
    obtain ⟨hw, hn⟩ := updated_wellFormed n us
    have hu := Set.ext_iff.mp (apply_dirtySet hw u) a
    rw [hn] at hu
    rw [updated_snoc, Outstanding, since_snoc]
    refine hu.trans ?_
    cases u with
    | markDirty addr =>
      constructor
      · intro h
        rcases h with hd | ⟨he, ha⟩
        · obtain ⟨ha, ho⟩ := ih.mp hd
          exact ⟨ha, .inr ⟨ho, trivial⟩⟩
        · exact ⟨ha, .inl he.symm⟩
      · intro h
        obtain ⟨ha, he | ho⟩ := h
        · exact .inr ⟨he.symm, ha⟩
        · exact .inl (ih.mpr ⟨ha, ho.1⟩)
    | clearDirtyRange startPc endPc =>
      constructor
      · intro h
        obtain ⟨ha, ho⟩ := ih.mp h.1
        exact ⟨ha, .inr ⟨ho, h.2⟩⟩
      · intro h
        obtain ⟨ha, he | ho⟩ := h
        · exact he.elim
        · exact ⟨ih.mpr ⟨ha, ho.1⟩, ho.2⟩

/-- The bitmap of a run of updates is the run of the updates on the set. -/
theorem updated_dirtySet (n : Nat) (us : List Update) :
    (updated n us).dirtySet = us.foldl (Update.onSet n) ∅ := by
  induction us using List.reverseRecOn with
  | nil =>
    ext a
    exact iff_of_false (new_clean n a) (Set.notMem_empty a)
  | append_singleton us u ih =>
    obtain ⟨hw, hn⟩ := updated_wellFormed n us
    rw [updated_snoc, apply_dirtySet hw, hn, ih, List.foldl_append]
    rfl

/-- A scan of any reachable bitmap answers whether the range holds an address that was marked and
not cleared since, and it and both updates index words the bitmap has. -/
theorem scan_outstanding (n : Nat) (us : List Update) (startPc endPc addr : Word) :
    ((updated n us).isRangeDirty startPc endPc = true ↔
        ∃ a, startPc.toNat ≤ a ∧ a < min endPc.toNat n ∧ Outstanding a us) ∧
      (updated n us).dirtySet = us.foldl (Update.onSet n) ∅ ∧
      (updated n us).RangeInBounds startPc endPc ∧
      (addr.toNat < (updated n us).pramSize → addr.toNat / 64 < (updated n us).dirty.length) := by
  obtain ⟨hw, -⟩ := updated_wellFormed n us
  refine ⟨?_, updated_dirtySet n us, hw.range startPc endPc, hw.mark⟩
  rw [isRangeDirty_iff]
  refine exists_congr fun a => ?_
  rw [updated_isDirty, lt_min_iff, and_assoc]

end Dsp56300.PramDirtyBitmap
