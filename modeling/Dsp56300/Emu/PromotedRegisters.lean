import Dsp56300.Emu.PromotionSound
import Dsp56300.Lib.Bits
import Dsp56300.Lib.PathRuns

/-! Register promotion is transparent: what every load returns, and what memory holds where a block
is left. -/

namespace Dsp56300

open Lib Lib.Paths

/-! The words of an accumulator. -/

namespace AccPart

def width : AccPart → Nat
  | .hi => 8
  | .mid | .lo => 24

theorem getLsbD_mask (part : AccPart) (i : Nat) :
    part.mask.getLsbD i = decide (i < part.width) := by
  cases part
  · exact Bits.getLsbD_lowMask (by decide : 8 < 32) i
  · exact Bits.getLsbD_lowMask (by decide : 24 < 32) i
  · exact Bits.getLsbD_lowMask (by decide : 24 < 32) i

theorem shift_add_width (part : AccPart) : part.shift + part.width ≤ 56 := by
  cases part <;> decide

theorem width_le (part : AccPart) : part.width ≤ 24 := by
  cases part <;> decide

end AccPart

theorem getLsbD_extractAcc (val : BitVec 64) (part : AccPart) (i : Nat) :
    (extractAcc val part).getLsbD i =
      (decide (i < part.width) && val.getLsbD (part.shift + i)) := by
  have hw := part.width_le
  simp only [extractAcc, BitVec.getLsbD_setWidth, BitVec.getLsbD_and, BitVec.getLsbD_ushiftRight,
    AccPart.getLsbD_mask]
  by_cases hi : i < part.width
  · have h64 : i < 64 := by omega
    have h32 : i < 32 := by omega
    simp [hi, h64, h32]
  · simp [hi]

theorem extractAcc_mask (val : BitVec 64) (part : AccPart) :
    extractAcc val part &&& part.mask = extractAcc val part := by
  apply BitVec.eq_of_getLsbD_eq
  intro i _
  simp only [BitVec.getLsbD_and, getLsbD_extractAcc, AccPart.getLsbD_mask]
  cases decide (i < part.width) <;> simp

/-- An accumulator has 56 bits. -/
def accFits (val : BitVec 64) : Prop := ∀ i, 56 ≤ i → val.getLsbD i = false

theorem accFits_of_lt {val : BitVec 64} (h : val < 2 ^ 56) : accFits val := by
  intro i hi
  have hlt : val.toNat < 2 ^ 56 := h
  exact Nat.testBit_lt_two_pow (hlt.trans_le (Nat.pow_le_pow_right (by decide) hi))

/-- An accumulator is its three words. -/
theorem eq_of_extractAcc {v w : BitVec 64} (hv : accFits v) (hw : accFits w)
    (h : ∀ part, extractAcc v part = extractAcc w part) : v = w := by
  apply BitVec.eq_of_getLsbD_eq
  intro i _
  have hbit (part : AccPart) (j : Nat) (hj : j < part.width) :
      v.getLsbD (part.shift + j) = w.getLsbD (part.shift + j) := by
    have hj' := congrArg (BitVec.getLsbD · j) (h part)
    simpa only [getLsbD_extractAcc, hj, decide_true, Bool.true_and] using hj'
  by_cases h24 : i < 24
  · simpa [AccPart.shift] using hbit .lo i h24
  · by_cases h48 : i < 48
    · have hi := hbit .mid (i - 24) (by simp only [AccPart.width]; omega)
      rwa [AccPart.shift, Nat.add_sub_of_le (by omega)] at hi
    · by_cases h56 : i < 56
      · have hi := hbit .hi (i - 48) (by simp only [AccPart.width]; omega)
        rwa [AccPart.shift, Nat.add_sub_of_le (by omega)] at hi
      · rw [hv i (by omega), hw i (by omega)]

theorem accFits_accWords (regs : RegIdx → Word) (acc : Accumulator) :
    accFits (accWords regs acc) := by
  intro i hi
  simp only [accWords, packAcc, BitVec.getLsbD_or, BitVec.getLsbD_shiftLeft,
    BitVec.getLsbD_setWidth, BitVec.getLsbD_and, AccPart.getLsbD_mask, AccPart.width]
  grind

theorem extractAcc_accWords (regs : RegIdx → Word) (acc : Accumulator) (part : AccPart) :
    extractAcc (accWords regs acc) part = regs (accReg acc part) &&& part.mask := by
  apply BitVec.eq_of_getLsbD_eq
  intro i _
  rw [getLsbD_extractAcc]
  cases part <;>
    simp only [accWords, packAcc, BitVec.getLsbD_or, BitVec.getLsbD_shiftLeft,
      BitVec.getLsbD_setWidth, BitVec.getLsbD_and, AccPart.getLsbD_mask, AccPart.width,
      AccPart.shift] <;>
    grind

theorem accFits_insertAcc {cur : BitVec 64} (h : accFits cur) (part : AccPart) (val : Word) :
    accFits (insertAcc cur part val) := by
  intro i hi
  have hw := part.shift_add_width
  simp only [insertAcc, BitVec.getLsbD_or, BitVec.getLsbD_shiftLeft, BitVec.getLsbD_setWidth,
    BitVec.getLsbD_and, AccPart.getLsbD_mask, h i hi]
  grind

theorem extractAcc_insertAcc (cur : BitVec 64) (part q : AccPart) (val : Word) :
    extractAcc (insertAcc cur part val) q =
      if q = part then val &&& part.mask else extractAcc cur q := by
  apply BitVec.eq_of_getLsbD_eq
  intro i _
  rw [getLsbD_extractAcc]
  cases part <;> cases q <;>
    simp only [insertAcc, getLsbD_extractAcc, BitVec.getLsbD_or, BitVec.getLsbD_shiftLeft,
      BitVec.getLsbD_setWidth, BitVec.getLsbD_and, BitVec.getLsbD_not, AccPart.getLsbD_mask,
      AccPart.width, AccPart.shift, reduceCtorEq, if_true, if_false] <;>
    grind


/-! Registers and the slots that stand for them. -/

theorem accReg_of_accOf : ∀ (idx : RegIdx) (d : Accumulator), accOf idx = some d →
    accReg d (accPart idx) = idx := by
  decide

theorem accOf_accReg (d : Accumulator) (part : AccPart) : accOf (accReg d part) = some d := by
  cases d <;> cases part <;> rfl

theorem accPart_accReg (d : Accumulator) (part : AccPart) : accPart (accReg d part) = part := by
  cases d <;> cases part <;> rfl

theorem regMasks_of_accOf : ∀ (idx : RegIdx) (d : Accumulator), accOf idx = some d →
    regMasks idx = (accPart idx).mask := by
  decide

/-- Slots that stand for something: a sub-register has none of its own. -/
def Slot.Real : Slot → Prop
  | .inl idx => accOf idx = none
  | .inr _ => True

theorem RegPlace.slot_real (place : RegPlace) : place.slot.Real := by
  cases place with
  | reg idx => cases h : accOf idx <;> simp [RegPlace.slot, Slot.Real, h]
  | acc d => trivial

/-- Each sub-register is within its width. -/
def WithinWidths (regs : RegIdx → Word) : Prop :=
  ∀ idx d, accOf idx = some d → regs idx &&& regMasks idx = regs idx

/-- Registers in memory as slots. -/
def wordSlots (regs : RegIdx → Word) : Slot → BitVec 64
  | .inl idx => (regs idx).setWidth 64
  | .inr d => accWords regs d

def RegFile.varSlots (s : RegFile) : Slot → BitVec 64
  | .inl idx => (s.vars idx).setWidth 64
  | .inr d => s.accs d

/-- What an access of a place returns of its slot's value. -/
def RegPlace.read : RegPlace → BitVec 64 → BitVec 64
  | .reg idx, v => if (accOf idx).isSome then (extractAcc v (accPart idx)).setWidth 64 else v
  | .acc _, v => v

/-- What a store to a place makes of its slot's value. -/
def RegPlace.write (place : RegPlace) (val cur : BitVec 64) : BitVec 64 :=
  match place with
  | .reg idx =>
    let v := val.setWidth 32 &&& regMasks idx
    if (accOf idx).isSome then insertAcc cur (accPart idx) v else v.setWidth 64
  | .acc _ => val

theorem readVar_eq (s : RegFile) (place : RegPlace) :
    s.readVar place = place.read (s.varSlots place.slot) := by
  cases place with
  | reg idx => cases h : accOf idx <;> simp [RegFile.readVar, RegPlace.read, RegPlace.slot,
      RegFile.varSlots, h]
  | acc d => rfl

theorem readWords_eq {regs : RegIdx → Word} (h : WithinWidths regs) (place : RegPlace) :
    RegFile.readWords regs place = place.read (wordSlots regs place.slot) := by
  cases place with
  | reg idx =>
    cases hd : accOf idx with
    | none => simp [RegFile.readWords, RegPlace.read, RegPlace.slot, wordSlots, hd]
    | some d =>
      have hw := h idx d hd
      rw [regMasks_of_accOf idx d hd] at hw
      simp [RegFile.readWords, RegPlace.read, RegPlace.slot, wordSlots, hd, extractAcc_accWords,
        accReg_of_accOf idx d hd, hw]
  | acc d => rfl

/-- A slot depends on its own registers. -/
theorem wordSlots_congr {f g : RegIdx → Word} {r : Slot} (hr : r.Real)
    (h : ∀ idx, (RegPlace.reg idx).slot = r → f idx = g idx) :
    wordSlots f r = wordSlots g r := by
  cases r with
  | inl idx =>
    have hidx : accOf idx = none := hr
    rw [wordSlots, h idx (by simp [RegPlace.slot, hidx]), wordSlots]
  | inr d =>
    have hpart (part : AccPart) : f (accReg d part) = g (accReg d part) :=
      h _ (by simp [RegPlace.slot, accOf_accReg])
    rw [wordSlots, accWords, hpart, hpart, hpart, wordSlots, accWords]

/-- Stored variables read back. -/
theorem wordSlots_readVar {s : RegFile} (hs : ∀ d, accFits (s.accs d)) {r : Slot} (hr : r.Real) :
    wordSlots (fun idx => (s.readVar (.reg idx)).setWidth 32) r = s.varSlots r := by
  cases r with
  | inl idx =>
    have hidx : accOf idx = none := hr
    simp [wordSlots, RegFile.readVar, RegFile.varSlots, hidx]
  | inr d =>
    dsimp only [wordSlots, RegFile.varSlots]
    apply eq_of_extractAcc (accFits_accWords _ d) (hs d)
    intro part
    rw [extractAcc_accWords]
    simp [RegFile.readVar, accOf_accReg, accPart_accReg, extractAcc_mask]

theorem wordSlots_spill {s : RegFile} (hs : ∀ d, accFits (s.accs d)) (slots : Slot → Bool)
    {r : Slot} (hr : r.Real) :
    wordSlots (s.spill slots).mem r = if slots r then s.varSlots r else wordSlots s.mem r := by
  split
  · rename_i h
    rw [← wordSlots_readVar hs hr]
    apply wordSlots_congr hr
    rintro idx rfl
    simp only [RegFile.spill, h, if_true]
  · rename_i h
    apply wordSlots_congr hr
    rintro idx rfl
    exact if_neg h

/-- A store to memory is a store to the slot of its place. -/
theorem wordSlots_writeWords (regs : RegIdx → Word) (place : RegPlace) {v : BitVec 64}
    (hv : accFits v) {r : Slot} (hr : r.Real) :
    wordSlots (RegFile.writeWords regs place v) r =
      Function.update (wordSlots regs) place.slot
        (place.write v (wordSlots regs place.slot)) r := by
  by_cases hslot : r = place.slot
  · subst hslot
    rw [Function.update_self]
    cases place with
    | reg idx =>
      cases hd : accOf idx with
      | none => simp [RegPlace.slot, RegPlace.write, hd, wordSlots, RegFile.writeWords]
      | some d =>
        have hslot : (RegPlace.reg idx).slot = .inr d := by simp [RegPlace.slot, hd]
        have hacc := accFits_accWords regs d
        simp only [hslot, RegPlace.write, hd, Option.isSome_some, if_true, wordSlots]
        apply eq_of_extractAcc (accFits_accWords _ d) (accFits_insertAcc hacc _ _)
        intro part
        rw [extractAcc_accWords, extractAcc_insertAcc]
        by_cases hpart : part = accPart idx
        · subst hpart
          simp [RegFile.writeWords, accReg_of_accOf idx d hd]
        · have hne : accReg d part ≠ idx := by
            rintro rfl
            exact hpart (accPart_accReg d part).symm
          simp [RegFile.writeWords, hpart, hne, extractAcc_accWords]
    | acc d =>
      dsimp only [RegPlace.slot, RegPlace.write, wordSlots]
      apply eq_of_extractAcc (accFits_accWords _ d) hv
      intro part
      rw [extractAcc_accWords]
      simp [RegFile.writeWords, accOf_accReg, accPart_accReg, extractAcc_mask]
  · rw [Function.update_of_ne hslot]
    apply wordSlots_congr hr
    rintro idx rfl
    cases place with
    | reg i =>
      apply Function.update_of_ne
      rintro rfl
      exact hslot rfl
    | acc d =>
      apply if_neg
      intro hd
      exact hslot (by simp [RegPlace.slot, hd])

theorem varSlots_writeVar (s : RegFile) (place : RegPlace) (v : BitVec 64) :
    (s.writeVar place v).varSlots =
      Function.update s.varSlots place.slot (place.write v (s.varSlots place.slot)) := by
  funext r
  cases place with
  | reg idx =>
    cases hd : accOf idx with
    | none =>
      cases r with
      | inl i => by_cases hi : i = idx <;> simp [RegFile.writeVar, RegFile.varSlots, RegPlace.slot,
          RegPlace.write, hd, hi, Function.update_apply]
      | inr e => simp [RegFile.writeVar, RegFile.varSlots, RegPlace.slot, hd]
    | some d =>
      cases r with
      | inl i => simp [RegFile.writeVar, RegFile.varSlots, RegPlace.slot, hd]
      | inr e => by_cases he : e = d <;> simp [RegFile.writeVar, RegFile.varSlots, RegPlace.slot,
          RegPlace.write, hd, he, Function.update_apply]
  | acc d =>
    cases r with
    | inl i => simp [RegFile.writeVar, RegFile.varSlots, RegPlace.slot]
    | inr e => by_cases he : e = d <;> simp [RegFile.writeVar, RegFile.varSlots, RegPlace.slot,
        RegPlace.write, he, Function.update_apply]

theorem widths_writeWords {regs : RegIdx → Word} (h : WithinWidths regs) (place : RegPlace)
    (v : BitVec 64) : WithinWidths (RegFile.writeWords regs place v) := by
  intro idx d hd
  cases place with
  | reg i =>
    dsimp only [RegFile.writeWords]
    by_cases hi : idx = i
    · subst hi
      rw [Function.update_self, BitVec.and_assoc, BitVec.and_self]
    · rw [Function.update_of_ne hi]
      exact h idx d hd
  | acc e =>
    dsimp only [RegFile.writeWords]
    split
    · rw [regMasks_of_accOf idx d hd, extractAcc_mask]
    · exact h idx d hd

theorem RegPlace.write_const {place : RegPlace} (h : place.isPart = false) (val v w : BitVec 64) :
    place.write val v = place.write val w := by
  cases place with
  | reg idx =>
    have hidx : (accOf idx).isSome = false := h
    simp only [RegPlace.write, hidx, Bool.false_eq_true, if_false]
  | acc d => rfl

/-- A store to a variable leaves the rest alone. -/
theorem writeVar_frame (s : RegFile) (place : RegPlace) (v : BitVec 64) :
    (s.writeVar place v).mem = s.mem ∧ (s.writeVar place v).seen = s.seen := by
  cases place with
  | reg idx =>
    dsimp only [RegFile.writeVar]
    split <;> exact ⟨rfl, rfl⟩
  | acc d => exact ⟨rfl, rfl⟩

theorem fits_writeVar {s : RegFile} (h : ∀ d, accFits (s.accs d)) (place : RegPlace)
    {v : BitVec 64} (hv : accFits v) (d : Accumulator) : accFits ((s.writeVar place v).accs d) := by
  have hupdate (e : Accumulator) (w : BitVec 64) (hw : accFits w) :
      accFits (Function.update s.accs e w d) := by
    by_cases he : d = e
    · subst he
      rw [Function.update_self]
      exact hw
    · rw [Function.update_of_ne he]
      exact h d
  cases place with
  | reg idx =>
    dsimp only [RegFile.writeVar]
    split
    · exact hupdate _ _ (accFits_insertAcc (h _) _ _)
    · exact h d
  | acc e => exact hupdate e v hv

/-- A helper changes the slots of the registers it changes. -/
theorem wordSlots_changed (regs w : RegIdx → Word) (changed : Slot → Bool) {r : Slot}
    (hr : r.Real) :
    wordSlots (fun idx => if changed (RegPlace.reg idx).slot then w idx else regs idx) r =
      if changed r then wordSlots w r else wordSlots regs r := by
  split
  · rename_i h
    apply wordSlots_congr hr
    rintro idx rfl
    exact if_pos h
  · rename_i h
    apply wordSlots_congr hr
    rintro idx rfl
    exact if_neg h

theorem widths_changed {regs : RegIdx → Word} (h : WithinWidths regs) (v : RegIdx → Word)
    (changed : RegIdx → Bool) :
    WithinWidths fun idx => if changed idx then v idx &&& regMasks idx else regs idx := by
  intro idx d hd
  dsimp only
  split
  · rw [BitVec.and_assoc, BitVec.and_self]
  · exact h idx d hd

/-- The registers as the slots see them. -/
structure Packed (c : RegFile) (a : Slots (BitVec 64)) : Prop where
  var : ∀ r, r.Real → a.var r = c.varSlots r
  mem : ∀ r, r.Real → a.mem r = wordSlots c.mem r
  cur : ∀ r, r.Real → a.cur r = wordSlots c.cur r
  fits : ∀ d, accFits (c.accs d)
  memWidths : WithinWidths c.mem
  curWidths : WithinWidths c.cur
  seen : (∀ p ∈ a.seen, p.1 = p.2) → ∀ p ∈ c.seen, p.1 = p.2

namespace Packed

variable {c c' : RegFile} {a : Slots (BitVec 64)}

theorem see {p : BitVec 64 × BitVec 64} {q : BitVec 64 × BitVec 64} (h : Packed c a)
    (hpq : q.1 = q.2 → p.1 = p.2) :
    Packed { c with seen := p :: c.seen } { a with seen := q :: a.seen } where
  var := h.var
  mem := h.mem
  cur := h.cur
  fits := h.fits
  memWidths := h.memWidths
  curWidths := h.curWidths
  seen hs := by
    rw [List.forall_mem_cons] at hs ⊢
    exact ⟨hpq hs.1, h.seen hs.2⟩

theorem spill (h : Packed c a) (slots : Slot → Bool) :
    Packed (c.spill slots) (a.spill slots) where
  var := h.var
  mem r hr := by
    rw [wordSlots_spill h.fits slots hr, ← h.var r hr, ← h.mem r hr]
    rfl
  cur := h.cur
  fits := h.fits
  memWidths idx d hd := by
    dsimp only [RegFile.spill]
    split
    · simp [RegFile.readVar, hd, regMasks_of_accOf idx d hd, extractAcc_mask]
    · exact h.memWidths idx d hd
  curWidths := h.curWidths
  seen := h.seen

theorem reload (h : Packed c a) (slots : Slot → Bool) :
    Packed (c.reload slots) (a.reload slots) where
  var r hr := by
    dsimp only [Slots.reload]
    rw [h.mem r hr, h.var r hr]
    cases r with
    | inl idx =>
      dsimp only [RegFile.reload, RegFile.varSlots, wordSlots]
      split <;> rfl
    | inr d => rfl
  mem := h.mem
  cur := h.cur
  fits d := by
    dsimp only [RegFile.reload]
    split
    · exact accFits_accWords _ d
    · exact h.fits d
  memWidths := h.memWidths
  curWidths := h.curWidths
  seen := h.seen

theorem define (h : Packed c a) (place : RegPlace) {v : BitVec 64} (hv : accFits v) :
    Packed { c.writeVar place v with cur := RegFile.writeWords c.cur place v } { a with
      var := Function.update a.var place.slot (place.write v (a.var place.slot))
      cur := Function.update a.cur place.slot (place.write v (a.cur place.slot)) } where
  var r hr := by
    show _ = (c.writeVar place v).varSlots r
    rw [varSlots_writeVar]
    exact update_congr (congrArg _ (h.var _ place.slot_real)) fun _ => h.var r hr
  mem r hr := by
    dsimp only
    rw [(writeVar_frame c place v).1]
    exact h.mem r hr
  cur r hr := by
    dsimp only
    rw [wordSlots_writeWords c.cur place hv hr]
    exact update_congr (congrArg _ (h.cur _ place.slot_real)) fun _ => h.cur r hr
  fits := fits_writeVar h.fits place hv
  memWidths := by
    dsimp only
    rw [(writeVar_frame c place v).1]
    exact h.memWidths
  curWidths := widths_writeWords h.curWidths place v
  seen hs := by
    dsimp only
    rw [(writeVar_frame c place v).2]
    exact h.seen hs

theorem poke (h : Packed c a) (place : RegPlace) {v : BitVec 64} (hv : accFits v) :
    Packed
      { c with mem := RegFile.writeWords c.mem place v, cur := RegFile.writeWords c.cur place v }
      { a with
        mem := Function.update a.mem place.slot (place.write v (a.mem place.slot))
        cur := Function.update a.cur place.slot (place.write v (a.cur place.slot)) } where
  var := h.var
  mem r hr := by
    dsimp only
    rw [wordSlots_writeWords c.mem place hv hr]
    exact update_congr (congrArg _ (h.mem _ place.slot_real)) fun _ => h.mem r hr
  cur r hr := by
    dsimp only
    rw [wordSlots_writeWords c.cur place hv hr]
    exact update_congr (congrArg _ (h.cur _ place.slot_real)) fun _ => h.cur r hr
  fits := h.fits
  memWidths := widths_writeWords h.memWidths place v
  curWidths := widths_writeWords h.curWidths place v
  seen := h.seen

/-- Every access of the registers is one of the slots. -/
theorem act {x : SlotAct} (hx : x.effect c c') (h : Packed c a) :
    ∃ a', Slots.effect x a a' ∧ Packed c' a' := by
  cases x with
  | use place =>
    obtain rfl := hx
    refine ⟨_, rfl, h.see ?_⟩
    intro heq
    rw [h.var _ place.slot_real, h.cur _ place.slot_real] at heq
    exact (readVar_eq c place).trans
      ((congrArg place.read heq).trans (readWords_eq h.curWidths place).symm)
  | peek place =>
    obtain rfl := hx
    refine ⟨_, rfl, h.see ?_⟩
    intro heq
    rw [h.mem _ place.slot_real, h.cur _ place.slot_real] at heq
    exact (readWords_eq h.memWidths place).trans
      ((congrArg place.read heq).trans (readWords_eq h.curWidths place).symm)
  | reload slots =>
    obtain rfl := hx
    exact ⟨_, rfl, h.reload slots⟩
  | define place =>
    obtain ⟨v, hv, rfl⟩ := hx
    exact ⟨_, ⟨place.write v, fun hp => place.write_const hp v, rfl⟩,
      h.define place (accFits_of_lt hv)⟩
  | poke place =>
    obtain ⟨v, hv, rfl⟩ := hx
    exact ⟨_, ⟨place.write v, rfl⟩, h.poke place (accFits_of_lt hv)⟩
  | spill slots =>
    obtain rfl := hx
    exact ⟨_, rfl, h.spill slots⟩
  | helper changed =>
    obtain ⟨v, rfl⟩ := hx
    refine ⟨_, ⟨wordSlots fun idx => v idx &&& regMasks idx, rfl⟩, h.var, ?_, ?_, h.fits,
      widths_changed h.memWidths v _, widths_changed h.curWidths v _, h.seen⟩
    · intro r hr
      dsimp only
      rw [wordSlots_changed _ _ changed hr, h.mem r hr]
    · intro r hr
      dsimp only
      rw [wordSlots_changed _ _ changed hr, h.cur r hr]

/-- Slots that agree are registers that agree. -/
theorem settled (h : Packed c a) (hs : Settled a) : c.mem = c.cur := by
  have hslot (r : Slot) (hr : r.Real) : wordSlots c.mem r = wordSlots c.cur r := by
    rw [← h.mem r hr, ← h.cur r hr]
    exact hs.mem r
  funext idx
  cases hd : accOf idx with
  | none =>
    have hidx := congrArg (BitVec.setWidth 32) (hslot (.inl idx) hd)
    simpa [wordSlots] using hidx
  | some d =>
    have hacc := congrArg (extractAcc · (accPart idx)) (hslot (.inr d) trivial)
    simp only [wordSlots, extractAcc_accWords, accReg_of_accOf idx d hd,
      ← regMasks_of_accOf idx d hd] at hacc
    rw [h.memWidths idx d hd, h.curWidths idx d hd] at hacc
    exact hacc

end Packed

/-- A block is entered with nothing in a variable. -/
def RegFile.start (mem : RegIdx → Word) : RegFile := ⟨fun _ => 0, fun _ => 0, mem, mem, []⟩

/-- On every path through a block each load returns what was last written, and memory holds every
register where the path leaves. -/
theorem promotion_transparent (ops : EmitterOps) {mem : RegIdx → Word} {t : RegFile} {left : Bool}
    (hmem : WithinWidths mem) (h : Path regEffects ops.block (.start mem) left t) :
    left = true ∧ (∀ p ∈ t.seen, p.1 = p.2) ∧ t.mem = t.cur := by
  let a : Slots (BitVec 64) :=
    ⟨(RegFile.start mem).varSlots, wordSlots mem, wordSlots mem, []⟩
  have hstart : Packed (.start mem) a := by
    refine ⟨fun _ _ => rfl, fun _ _ => rfl, fun _ _ => rfl, ?_, hmem, hmem, fun _ => nofun⟩
    intro d i _
    exact BitVec.getLsbD_zero
  obtain ⟨b, hpath, hpacked⟩ := h.simulate
    (n := slotEffects (BitVec 64)) (fun _ _ _ _ hx hR => hR.act hx)
    (fun e _ _ _ hx hR => ⟨_, rfl, hx ▸ hR.spill e⟩) hstart
  have hsettled := ops.block_settled a left b ⟨nofun, fun _ => rfl⟩ hpath
  cases left with
  | false => exact hsettled.elim
  | true => exact ⟨rfl, hpacked.seen hsettled.seen, hpacked.settled hsettled⟩

/-- An outcome of an access: a store and a helper write 5. -/
def SlotAct.outcome (a : SlotAct) (s : RegFile) : RegFile :=
  match a with
  | .use place => { s with seen := (s.readVar place, RegFile.readWords s.cur place) :: s.seen }
  | .peek place =>
    { s with seen := (RegFile.readWords s.mem place, RegFile.readWords s.cur place) :: s.seen }
  | .reload slots => s.reload slots
  | .define place => { s.writeVar place 5 with cur := RegFile.writeWords s.cur place 5 }
  | .poke place => { s with
      mem := RegFile.writeWords s.mem place 5
      cur := RegFile.writeWords s.cur place 5 }
  | .spill slots => s.spill slots
  | .helper changed =>
    let written idx := changed (RegPlace.reg idx).slot
    { s with
      mem := fun idx => if written idx then 5 &&& regMasks idx else s.mem idx
      cur := fun idx => if written idx then 5 &&& regMasks idx else s.cur idx }

theorem SlotAct.outcome_effect (a : SlotAct) (s : RegFile) : a.effect s (a.outcome s) := by
  cases a with
  | define place | poke place => exact ⟨5, by decide, rfl⟩
  | helper changed => exact ⟨fun _ => 5, rfl⟩
  | _ => rfl

/-- A REP with a skip and a helper call beside it in the body of a DO. -/
def nestedLoops : EmitterOps :=
  .seq (.store (.reg Reg.a1)) <|
    .doInline [] <| .seq (.repInline [.load (.reg Reg.x0)] (.load (.reg Reg.a1))) <|
      .seq (.conditional true (.store (.reg Reg.b1)) (.store (.acc .b))) <|
        .seq (.helper (· = .inl Reg.sr)) (.load (.acc .b))

def nestedPath : Bool × RegFile :=
  nestedLoops.block.follow SlotAct.outcome (fun slots s => s.spill slots) (.start fun _ => 0)

theorem promotion_transparent_nested : nestedPath.2.seen.length = 31 ∧
    nestedPath.2.mem Reg.a1 = 5 ∧ (∀ p ∈ nestedPath.2.seen, p.1 = p.2) ∧
    nestedPath.2.mem = nestedPath.2.cur := by
  have hpath : Path regEffects nestedLoops.block (.start fun _ => 0) nestedPath.1 nestedPath.2 :=
    nestedLoops.block.follow_path SlotAct.outcome_effect (fun _ _ => rfl) _
  have hwidths : WithinWidths fun _ => 0 := fun _ _ _ => BitVec.zero_and
  exact ⟨by decide +kernel, by decide +kernel, (promotion_transparent _ hwidths hpath).2⟩

end Dsp56300
