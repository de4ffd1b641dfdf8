import Dsp56300.Emu.Dirty
import Dsp56300.Lib.Bits

namespace Dsp56300.PramDirtyBitmap

open Lib.Bits

/-- One word of bits for every 64 addresses, the last one perhaps partly used. -/
def WellFormed (b : PramDirtyBitmap) : Prop := b.dirty.length = (b.pramSize + 63) / 64

/-- The tracked address `a` carries a dirty bit. -/
def IsDirty (b : PramDirtyBitmap) (a : Nat) : Prop := a < b.pramSize ∧ bitAt b.dirty a = true

theorem new_wellFormed (n : Nat) : (new n).WellFormed := by simp [WellFormed, new]

theorem new_clean (n a : Nat) : ¬ (new n).IsDirty a := by
  rintro ⟨_, hb⟩
  have hz : (new n).dirty.getD (a / 64) 0 = 0 := by
    rw [new, List.getD_eq_getElem?_getD, List.getElem?_replicate]
    split <;> rfl
  rw [bitAt, hz] at hb
  simp at hb

theorem markDirty_pramSize (b : PramDirtyBitmap) (x : Word) :
    (b.markDirty x).pramSize = b.pramSize := by
  simp only [markDirty]
  split <;> rfl

theorem markDirty_wellFormed {b : PramDirtyBitmap} (hb : b.WellFormed) (x : Word) :
    (b.markDirty x).WellFormed := by
  simp only [markDirty]
  split
  · simpa [WellFormed] using hb
  · exact hb

/-- Marking a tracked address dirties it and nothing else. -/
theorem markDirty_isDirty {b : PramDirtyBitmap} (hb : b.WellFormed) {x : Word}
    (hx : x.toNat < b.pramSize) (a : Nat) :
    (b.markDirty x).IsDirty a ↔ b.IsDirty a ∨ a = x.toNat := by
  have hm := Nat.mod_lt x.toNat (by decide : 0 < 64)
  unfold WellFormed at hb
  simp only [IsDirty, markDirty, if_pos hx]
  have hbit : bitAt (b.dirty.modify (x.toNat / 64) (· ||| (1#64 <<< (x.toNat % 64)))) a =
      (bitAt b.dirty a || decide (a = x.toNat)) := by
    rw [bitAt, List.getD_eq_getElem?_getD, List.getElem?_modify]
    by_cases hk : x.toNat / 64 = a / 64
    · have hlen : a / 64 < b.dirty.length := by omega
      have hax : (x.toNat % 64 = a % 64) ↔ (a = x.toNat) := by omega
      rw [List.getElem?_eq_getElem hlen]
      simp only [hk, if_true, Option.map_eq_map, Option.map_some, Option.getD_some]
      rw [getLsbD_insert _ hm, bitAt, List.getD_eq_getElem _ _ hlen]
      simp [hax]
    · have hax : a ≠ x.toNat := fun h => hk (h ▸ rfl)
      simp [hk, hax, bitAt]
  rw [hbit, Bool.or_eq_true, decide_eq_true_eq]
  constructor
  · rintro ⟨ha, hd | he⟩
    · exact Or.inl ⟨ha, hd⟩
    · exact Or.inr he
  · rintro (⟨ha, hd⟩ | he)
    · exact ⟨ha, Or.inl hd⟩
    · exact ⟨he ▸ hx, Or.inr he⟩

theorem getLsbD_rangeMask {lo hi j : Nat} (hlo : lo < 64) (hj : j < 64) :
    (rangeMask lo hi).getLsbD j = (decide (lo ≤ j) && decide (j < hi)) := by
  have htop : (if hi ≥ 64 then BitVec.allOnes 64 else (1#64 <<< hi) - 1).getLsbD j =
      decide (j < hi) := by
    split
    · rw [BitVec.getLsbD_allOnes, decide_eq_true hj, decide_eq_true (by omega)]
    · exact getLsbD_lowMask (by omega) j
  rw [rangeMask, BitVec.getLsbD_and, htop, BitVec.getLsbD_not, getLsbD_lowMask hlo,
    decide_eq_true hj, Bool.true_and, Bool.and_comm]
  congr 1
  by_cases h : j < lo
  · simp [h]
  · simp [h, Nat.le_of_not_lt h]

theorem getLsbD_lastMask {n j : Nat} (hj : j < 64) :
    (lastMask n).getLsbD j = decide (j < n) := by
  unfold lastMask
  split
  · rw [BitVec.getLsbD_allOnes, decide_eq_true hj, decide_eq_true (by omega)]
  · exact getLsbD_lowMask (by omega) j

/-! The three masks of a range scan, over the long bit string. -/

variable {d : List (BitVec 64)}

theorem oneWord_iff {lo hi : Nat} (hlt : lo < hi) (hw : lo / 64 = (hi - 1) / 64) :
    d.getD (lo / 64) 0 &&& rangeMask (lo % 64) (min (hi - lo / 64 * 64) 64) ≠ 0 ↔
      ∃ a, lo ≤ a ∧ a < hi ∧ bitAt d a = true := by
  have hm := Nat.mod_lt lo (by decide : 0 < 64)
  rw [word_and_ne_zero_iff (by decide)]
  constructor
  · rintro ⟨a, ha, hd, hr⟩
    rw [getLsbD_rangeMask hm (Nat.mod_lt a (by decide))] at hr
    simp only [Bool.and_eq_true, decide_eq_true_eq] at hr
    exact ⟨a, by omega, by omega, hd⟩
  · rintro ⟨a, h1, h2, hd⟩
    refine ⟨a, by omega, hd, ?_⟩
    rw [getLsbD_rangeMask hm (Nat.mod_lt a (by decide))]
    simp only [Bool.and_eq_true, decide_eq_true_eq]
    omega

theorem firstWord_iff (lo : Nat) :
    d.getD (lo / 64) 0 &&& (BitVec.allOnes 64 <<< (lo % 64)) ≠ 0 ↔
      ∃ a, lo ≤ a ∧ a / 64 = lo / 64 ∧ bitAt d a = true := by
  rw [word_and_ne_zero_iff (by decide)]
  constructor
  · rintro ⟨a, ha, hd, hr⟩
    rw [getLsbD_highMask _ (Nat.mod_lt a (by decide)), decide_eq_true_eq] at hr
    exact ⟨a, by omega, ha, hd⟩
  · rintro ⟨a, h1, ha, hd⟩
    refine ⟨a, ha, hd, ?_⟩
    rw [getLsbD_highMask _ (Nat.mod_lt a (by decide)), decide_eq_true_eq]
    omega

theorem lastWord_iff (hi : Nat) :
    d.getD ((hi - 1) / 64) 0 &&& lastMask (hi - (hi - 1) / 64 * 64) ≠ 0 ↔
      ∃ a, a < hi ∧ a / 64 = (hi - 1) / 64 ∧ bitAt d a = true := by
  rw [word_and_ne_zero_iff (by decide)]
  constructor
  · rintro ⟨a, ha, hd, hr⟩
    rw [getLsbD_lastMask (Nat.mod_lt a (by decide)), decide_eq_true_eq] at hr
    exact ⟨a, by omega, ha, hd⟩
  · rintro ⟨a, h1, ha, hd⟩
    refine ⟨a, ha, hd, ?_⟩
    rw [getLsbD_lastMask (Nat.mod_lt a (by decide)), decide_eq_true_eq]
    omega

/-- The scan answers whether a tracked address of [startPc, endPc) is dirty. -/
theorem isRangeDirty_iff (b : PramDirtyBitmap) (startPc endPc : Word) :
    b.isRangeDirty startPc endPc = true ↔
      ∃ a, startPc.toNat ≤ a ∧ a < endPc.toNat ∧ b.IsDirty a := by
  have hrange : (∃ a, startPc.toNat ≤ a ∧ a < endPc.toNat ∧ b.IsDirty a) ↔
      ∃ a, startPc.toNat ≤ a ∧ a < min endPc.toNat b.pramSize ∧ bitAt b.dirty a = true := by
    refine exists_congr fun a => ?_
    rw [IsDirty, lt_min_iff]
    tauto
  rw [hrange]
  simp only [isRangeDirty]
  generalize startPc.toNat = lo
  generalize min endPc.toNat b.pramSize = hi
  by_cases hlt : lo ≥ hi
  · rw [if_pos hlt]
    simp only [Bool.false_eq_true, false_iff]
    rintro ⟨a, h1, h2, _⟩
    omega
  · rw [if_neg hlt]
    by_cases hw : lo / 64 = (hi - 1) / 64
    · rw [if_pos hw, decide_eq_true_eq]
      exact oneWord_iff (by omega) hw
    · -- the first partial word, the full words, and the last partial word
      rw [if_neg hw]
      by_cases hf : b.dirty.getD (lo / 64) 0 &&& (BitVec.allOnes 64 <<< (lo % 64)) ≠ 0
      · rw [if_pos hf]
        obtain ⟨a, h1, h2, hd⟩ := (firstWord_iff lo).mp hf
        exact iff_of_true rfl ⟨a, h1, by omega, hd⟩
      · rw [if_neg hf]
        rw [firstWord_iff] at hf
        by_cases hg : ((b.dirty.take ((hi - 1) / 64)).drop (lo / 64 + 1)).any (· ≠ 0) = true
        · rw [if_pos hg]
          obtain ⟨a, h1, h2, hd⟩ := (any_words_iff (by decide) _ _).mp hg
          exact iff_of_true rfl ⟨a, by omega, by omega, hd⟩
        · rw [if_neg hg]
          rw [any_words_iff (by decide)] at hg
          rw [decide_eq_true_eq, lastWord_iff]
          constructor
          · rintro ⟨a, h1, h2, hd⟩
            exact ⟨a, by omega, h1, hd⟩
          · rintro ⟨a, h1, h2, hd⟩
            refine ⟨a, h2, ?_, hd⟩
            by_contra hne
            by_cases h0 : a / 64 = lo / 64
            · exact hf ⟨a, h1, h0, hd⟩
            · exact hg ⟨a, by omega, by omega, hd⟩

theorem clearDirtyRange_pramSize (b : PramDirtyBitmap) (lo hi : Word) :
    (b.clearDirtyRange lo hi).pramSize = b.pramSize := by
  simp only [clearDirtyRange]
  split
  · rfl
  · split <;> rfl

theorem clearDirtyRange_generation (b : PramDirtyBitmap) (lo hi : Word) :
    (b.clearDirtyRange lo hi).generation = b.generation := by
  simp only [clearDirtyRange]
  split
  · rfl
  · split <;> rfl

theorem clearDirtyRange_wellFormed {b : PramDirtyBitmap} (hb : b.WellFormed) (lo hi : Word) :
    (b.clearDirtyRange lo hi).WellFormed := by
  unfold WellFormed at hb ⊢
  rw [clearDirtyRange_pramSize]
  simp only [clearDirtyRange]
  split
  · exact hb
  · split <;> simpa using hb

/-- Clearing a range cleans its tracked addresses and no other. -/
theorem clearDirtyRange_isDirty (b : PramDirtyBitmap) (startPc endPc : Word) (a : Nat) :
    (b.clearDirtyRange startPc endPc).IsDirty a ↔
      b.IsDirty a ∧ ¬ (startPc.toNat ≤ a ∧ a < endPc.toNat) := by
  have hm := Nat.mod_lt startPc.toNat (by decide : 0 < 64)
  have ha := Nat.mod_lt a (by decide : 0 < 64)
  have hsize : (b.clearDirtyRange startPc endPc).pramSize = b.pramSize :=
    clearDirtyRange_pramSize b startPc endPc
  suffices h : a < b.pramSize → (bitAt (b.clearDirtyRange startPc endPc).dirty a = true ↔
      bitAt b.dirty a = true ∧ ¬ (startPc.toNat ≤ a ∧ a < endPc.toNat)) by
    simp only [IsDirty, hsize]
    constructor
    · rintro ⟨hs, hd⟩
      obtain ⟨h1, h2⟩ := (h hs).mp hd
      exact ⟨⟨hs, h1⟩, h2⟩
    · rintro ⟨⟨hs, hd⟩, hn⟩
      exact ⟨hs, (h hs).mpr ⟨hd, hn⟩⟩
  intro hs
  have hrange : (startPc.toNat ≤ a ∧ a < endPc.toNat) ↔
      (startPc.toNat ≤ a ∧ a < min endPc.toNat b.pramSize) := by
    rw [lt_min_iff]
    tauto
  rw [hrange]
  simp only [clearDirtyRange]
  generalize startPc.toNat = lo at hm ⊢
  generalize min endPc.toNat b.pramSize = hi
  by_cases hlt : lo ≥ hi
  · rw [if_pos hlt]
    have hn : ¬ (lo ≤ a ∧ a < hi) := by omega
    simp [hn]
  · rw [if_neg hlt]
    by_cases hw : lo / 64 = (hi - 1) / 64
    · rw [if_pos hw, bitAt_clear (by decide), getLsbD_rangeMask hm ha]
      simp only [Bool.and_eq_true, Bool.not_eq_true', Bool.and_eq_false_imp, decide_eq_true_eq,
        decide_eq_false_iff_not]
      refine and_congr_right fun _ => ?_
      omega
    · rw [if_neg hw, bitAt_clear (by decide), bitAt_zeroWords, bitAt_clear (by decide),
        getLsbD_highMask _ ha, getLsbD_lastMask ha]
      simp only [Bool.and_eq_true, Bool.not_eq_true', Bool.and_eq_false_imp, decide_eq_true_eq,
        decide_eq_false_iff_not, and_assoc]
      refine and_congr_right fun _ => ?_
      omega

end Dsp56300.PramDirtyBitmap
