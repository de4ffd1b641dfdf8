import Dsp56300.Emu.AluEffects
import Dsp56300.Lib.BitFields

/-! INSERT, EXTRACT and EXTRACTU. -/

namespace Dsp56300

open Emitter AluState Lib.BitFields Lib.Bits Lib.Words SrUpdate

variable {σ : Type}

/-! The field of a control word. -/

/-- A control word holds the width in bits 17 to 12 and the offset in bits 5 to 0. -/
structure Encodes (control : Word) (w o : Nat) : Prop where
  width : (control.extractLsb' 12 6).toNat = w
  offset : (control.extractLsb' 0 6).toNat = o

section Values

variable {control : Word} {w o : Nat}

theorem fieldBounds_toNat (h : Encodes control w o) :
    (Alu.fieldBounds control).1.toNat = w ∧ (Alu.fieldBounds control).2.toNat = o := by
  obtain ⟨hw, ho⟩ := h
  rw [BitVec.extractLsb'_toNat] at hw ho
  refine ⟨?_, ?_⟩
  · rw [Alu.fieldBounds, and_toNat (q := 0x3F) (j := 6) rfl, BitVec.toNat_ushiftRight]
    exact hw
  · rw [Alu.fieldBounds, and_toNat (q := 0x3F) (j := 6) rfl]
    exact ho

theorem getLsbD_fieldMask {width : Word} (h : width.toNat = w) (hw : w < 64) (j : Nat) :
    (Alu.lowMask width).getLsbD j = decide (j < w) := by
  subst h
  rw [Alu.lowMask, ishl, Nat.mod_eq_of_lt hw]
  exact getLsbD_lowMask hw j

variable {width offset : Word} (hwidth : width.toNat = w) (hoffset : offset.toNat = o)
  (hw : w ≤ 24) (ho : o + w ≤ 56) (v : BitVec 56)

include hwidth hoffset hw ho

theorem insert_value (m : Word) :
    mask56 ((v.setWidth 64 &&& ~~~(ishl (Alu.lowMask width) offset)) |||
      ishl (m.setWidth 64 &&& Alu.lowMask width) offset) =
      (setField v o (m.setWidth w)).setWidth 64 := by
  have hmod : offset.toNat % 64 = o := by omega
  rw [mask56_eq, ishl, ishl, hmod]
  refine congrArg (BitVec.setWidth 64) (BitVec.eq_of_getLsbD_eq fun i hi => ?_)
  have hi' : i < 64 := by omega
  rw [getLsbD_setField v o _ hi]
  simp only [BitVec.getLsbD_setWidth, BitVec.getLsbD_or, BitVec.getLsbD_and, BitVec.getLsbD_not,
    BitVec.getLsbD_shiftLeft, getLsbD_fieldMask hwidth (by omega), hi, hi']
  by_cases hlo : o ≤ i
  · have hlt : i - o < 64 := by omega
    have hnot : ¬ i < o := by omega
    by_cases hhi : i < o + w
    · have hn : i - o < w := by omega
      simp [hlo, hhi, hlt, hnot, hn]
    · have hn : ¬ i - o < w := by omega
      simp [hhi, hn]
  · have hlt : i < o := by omega
    simp [hlo, hlt]

theorem field_value : ushr (v.setWidth 64) offset &&& Alu.lowMask width =
    (v.extractLsb' o w).setWidth 64 := by
  have hmod : offset.toNat % 64 = o := by omega
  rw [ushr, hmod]
  refine BitVec.eq_of_getLsbD_eq fun i hi => ?_
  rw [BitVec.getLsbD_and, getLsbD_fieldMask hwidth (by omega), BitVec.getLsbD_ushiftRight,
    BitVec.getLsbD_setWidth, BitVec.getLsbD_setWidth, BitVec.getLsbD_extractLsb', decide_eq_true hi,
    Bool.true_and, Bool.and_comm]
  by_cases hn : i < w
  · have hlt : o + i < 64 := by omega
    simp [hn, hlt]
  · simp [hn]

/-- What EXTRACT and EXTRACTU leave of a field. -/
def fieldResult (unsigned : Bool) (f : BitVec w) : BitVec 56 :=
  if unsigned then f.setWidth 56 else f.signExtend 56

omit hoffset ho in
/-- The bits above the field follow its sign. -/
theorem signed_value (hpos : 1 ≤ w) (f : BitVec w) :
    mask56 (if ushr (f.setWidth 64) (width - 1) &&& 1 ≠ 0
      then f.setWidth 64 ||| (Alu.lowMask width ^^^ 0x00FFFFFFFFFFFFFF) else f.setWidth 64) =
      (f.signExtend 56).setWidth 64 := by
  have hone : (1 : Word).toNat = 1 := rfl
  have hsub : (width - 1).toNat % 64 = w - 1 := by
    rw [BitVec.toNat_sub, hwidth, hone]
    omega
  have hsign : (ushr (f.setWidth 64) (width - 1) &&& 1 ≠ 0) ↔ f.msb = true := by
    have hlt : w - 1 < 64 := by omega
    refine (and_one_ne_zero (by decide) _).trans ?_
    rw [ushr, hsub, BitVec.msb_eq_getLsbD_last]
    simp [hlt]
  rw [mask56_eq]
  refine congrArg (BitVec.setWidth 64) (BitVec.eq_of_getLsbD_eq fun i hi => ?_)
  have hi' : i < 64 := by omega
  rw [BitVec.getLsbD_setWidth, BitVec.getLsbD_signExtend, decide_eq_true hi, Bool.true_and,
    Bool.true_and]
  by_cases hm : f.msb = true
  · rw [if_pos (hsign.mpr hm), BitVec.getLsbD_or, BitVec.getLsbD_xor, getLsbD_ones56,
      getLsbD_fieldMask hwidth (by omega), BitVec.getLsbD_setWidth, decide_eq_true hi,
      decide_eq_true hi', Bool.true_and]
    by_cases hn : i < w
    · simp [hn]
    · simp [hn, hm]
  · rw [if_neg (mt hsign.mp hm), BitVec.getLsbD_setWidth, decide_eq_true hi', Bool.true_and]
    by_cases hn : i < w
    · simp [hn]
    · have hge : f.getLsbD i = false := BitVec.getLsbD_of_ge f i (by omega)
      simp [hn, hm, hge]

theorem extract_value (hpos : 1 ≤ w) (unsigned : Bool) :
    mask56 (if unsigned then ushr (v.setWidth 64) offset &&& Alu.lowMask width
      else if ushr (ushr (v.setWidth 64) offset &&& Alu.lowMask width) (width - 1) &&& 1 ≠ 0 then
        (ushr (v.setWidth 64) offset &&& Alu.lowMask width) |||
          (Alu.lowMask width ^^^ 0x00FFFFFFFFFFFFFF)
      else ushr (v.setWidth 64) offset &&& Alu.lowMask width) =
      (fieldResult unsigned (v.extractLsb' o w)).setWidth 64 := by
  rw [field_value hwidth hoffset hw ho]
  cases unsigned with
  | true =>
    have hcut : ((v.extractLsb' o w).setWidth 64).setWidth 56 = (v.extractLsb' o w).setWidth 56 :=
      BitVec.setWidth_setWidth_of_le _ (by decide)
    rw [if_pos rfl, fieldResult, if_pos rfl, mask56_eq, hcut]
  | false =>
    rw [if_neg Bool.false_ne_true, fieldResult, if_neg Bool.false_ne_true]
    exact signed_value hwidth hw hpos _

end Values

/-! The instructions on the accumulators. -/

section Effects

variable (s : DspState σ) (d : Accumulator)

/-- A field result changes one accumulator. -/
theorem fieldFlags_acc (v : BitVec 56) (d' : Accumulator) :
    (Alu.after (Alu.fieldFlags (v.setWidth 64))
      ((enter s).setAcc d (v.setWidth 64))).finalize.acc d' = if d' = d then v else s.acc d' := by
  have hflags : Alu.after (Alu.fieldFlags (v.setWidth 64)) ((enter s).setAcc d (v.setWidth 64)) =
      ((((enter s).setAcc d (v.setWidth 64)).setSr
        (store (clear ((1#32 <<< Sr.v) ||| (1#32 <<< Sr.c)) (s.registers Reg.sr)))).setPending
        (.nzOnly (v.setWidth 64))) := by
    simp only [Alu.fieldFlags, Alu.after_bind, Alu.value_clearSrFlags, Alu.after_clearSrFlags,
      Alu.after_storeSr, Alu.after_setPending]
    rw [flush_settled rfl, storeSr_settled _ rfl, setAcc_sr, enter_sr]
  have hclean := ((Coherent.enter s).setAcc d (v.setWidth 64)).setSr
    (store (clear ((1#32 <<< Sr.v) ||| (1#32 <<< Sr.c)) (s.registers Reg.sr)))
  rw [hflags, finalize_setPending_acc rfl hclean, setSr_acc]
  by_cases h : d' = d
  · subst h
    rw [if_pos rfl, setAcc_acc, widen_narrow]
  · rw [if_neg h, setAcc_acc_other _ _ _ h, enter_acc, DspState.reloadAcc_eq, widen_narrow]

variable {control : Word} {w o : Nat} (h : Encodes control w o) (hw : w ≤ 24) (ho : o + w ≤ 56)

include h hw ho

theorem execute_insert_acc (src : RegIdx) (d' : Accumulator) :
    (s.execute (.insert control src d)).acc d' =
      if d' = d then setField (s.acc d) o ((s.readWord src).setWidth w) else s.acc d' := by
  obtain ⟨hwidth, hoffset⟩ := fieldBounds_toNat h
  have hword : (s.readWord src).setWidth w =
      (Alu.value (Alu.loadReg src) (enter s)).setWidth w := by
    rw [DspState.readWord, BitVec.setWidth_setWidth_of_le _ hw]
  rcases hb : Alu.fieldBounds control with ⟨width, offset⟩
  rw [hb] at hwidth hoffset
  rw [DspState.execute_eq, DataPath.emit, hword]
  simp only [Alu.emitInsert, hb, Alu.after_bind, Alu.after_loadReg, Alu.value_loadAcc,
    Alu.after_loadAcc, enter_acc, DspState.reloadAcc_eq, insert_value hwidth hoffset hw ho,
    Alu.after_storeAcc]
  exact fieldFlags_acc s d _ d'

theorem execute_extract_acc (hpos : 1 ≤ w) (src d' : Accumulator) (unsigned : Bool) :
    (s.execute (.extract control src d unsigned)).acc d' =
      if d' = d then fieldResult unsigned ((s.acc src).extractLsb' o w) else s.acc d' := by
  obtain ⟨hwidth, hoffset⟩ := fieldBounds_toNat h
  rcases hb : Alu.fieldBounds control with ⟨width, offset⟩
  rw [hb] at hwidth hoffset
  rw [DspState.execute_eq, DataPath.emit]
  simp only [Alu.emitExtract, hb, Alu.after_bind, Alu.value_loadAcc, Alu.after_loadAcc, enter_acc,
    DspState.reloadAcc_eq, extract_value hwidth hoffset hw ho (s.acc src) hpos unsigned,
    Alu.after_storeAcc]
  exact fieldFlags_acc s d _ d'

end Effects

/-! The two forms of the control word. -/

/-- Where the control word of an instruction comes from: a register, or the word that follows. -/
inductive Control where
  | reg (r : RegIdx) (following : Word)
  | imm (word : Word)

namespace Control

def word (s : DspState σ) : Control → Word
  | reg r _ => Alu.value (Alu.loadReg r) (enter s)
  | imm word => word

/-- The word after the instruction. -/
def nextWord : Control → Word
  | reg _ following => following
  | imm word => word

def insert (src : RegIdx) (d : Accumulator) : Control → Instruction
  | reg r _ => .insertReg r src d
  | imm _ => .insertImm src d

def extract (unsigned : Bool) (src d : Accumulator) : Control → Instruction
  | reg r _ => if unsigned then .extractuReg r src d else .extractReg r src d
  | imm _ => if unsigned then .extractuImm src d else .extractImm src d

variable (s : DspState σ) (c : Control)

/-- An instruction whose data path takes the word of a register. -/
theorem instruct_control {inst : Instruction} {following : Word} {r : RegIdx} {len cycles : Nat}
    (path : Word → DataPath)
    (h : emitInstructionBody inst s.pc following = (do
      setInstLen len
      setCycles cycles
      let control ← controlWord (some r) following
      dataPath (path control))) :
    s.instruct inst following = s.execute (path (Alu.value (Alu.loadReg r) (enter s))) := by
  have hr : Fin.ofNat 64 r.val = r := Fin.ofNat_val_eq_self r
  have hrun : s.instruct inst following =
      (Alu.after (path (Alu.value (Alu.loadReg (Fin.ofNat 64 r.val)) (enter s))).emit
        (Alu.after (Alu.loadReg (Fin.ofNat 64 r.val)) (enter s))).finalize := by
    rw [DspState.instruct, h]
    rfl
  rw [hrun, hr, Alu.after_loadReg, DspState.execute_eq]

theorem instruct_insert (src : RegIdx) (d : Accumulator) :
    s.instruct (c.insert src d) c.nextWord = s.execute (.insert (c.word s) src d) := by
  cases c with
  | reg r following => exact instruct_control s (fun control => .insert control src d) rfl
  | imm word => exact DspState.instruct_data (.insert word src d) rfl

theorem instruct_extract (unsigned : Bool) (src d : Accumulator) :
    s.instruct (c.extract unsigned src d) c.nextWord =
      s.execute (.extract (c.word s) src d unsigned) := by
  cases c with
  | reg r following =>
    cases unsigned
    · exact instruct_control s (fun control => .extract control src d false) rfl
    · exact instruct_control s (fun control => .extract control src d true) rfl
  | imm word =>
    cases unsigned
    · exact DspState.instruct_data (.extract word src d false) rfl
    · exact DspState.instruct_data (.extract word src d true) rfl

end Control

/-- The low word of an accumulator as a source register. -/
def lowReg (d : Accumulator) : RegIdx := (accRegs d).2.2

theorem readWord_lowReg (s : DspState σ) (d : Accumulator) :
    s.readWord (lowReg d) = (s.acc d).setWidth 24 := by
  have hread : Alu.value (Alu.loadReg (lowReg d)) (enter s) = extractAccLo (s.reloadAcc d) := by
    cases d <;> rfl
  apply BitVec.eq_of_toNat_eq
  rw [DspState.readWord, hread, BitVec.toNat_setWidth, extractAccLo,
    field_toNat (k := 24) rfl (by decide), DspState.acc, BitVec.toNat_setWidth,
    BitVec.toNat_setWidth]
  omega

/-- The field is in the low bits of what was extracted. -/
theorem fieldResult_low {w : Nat} (hw : w ≤ 24) (unsigned : Bool) (f : BitVec w) :
    ((fieldResult unsigned f).setWidth 24).setWidth w = f := by
  rw [BitVec.setWidth_setWidth_of_le _ hw]
  apply BitVec.eq_of_getLsbD_eq
  intro i hi
  have hlt : i < 56 := by omega
  cases unsigned
  · rw [BitVec.getLsbD_setWidth, fieldResult, if_neg Bool.false_ne_true, BitVec.getLsbD_signExtend]
    simp [hi, hlt]
  · simp [fieldResult, hi, hlt]

/-- INSERT, EXTRACT and EXTRACTU on one field, with its control word in registers or next words that
may differ from one instruction to the next. -/
structure FieldInverse (s : DspState σ) (control : Word) (w o : Nat) : Prop where
  inserted : ∀ (c : Control) (src : RegIdx) (d : Accumulator), c.word s = control → ∀ i < 56,
    ((s.instruct (c.insert src d) c.nextWord).acc d).getLsbD i =
      if o ≤ i ∧ i < o + w then (s.readWord src).getLsbD (i - o) else (s.acc d).getLsbD i
  extractu : ∀ (c c' : Control) (src : RegIdx) (d e : Accumulator), c.word s = control →
    c'.word (s.instruct (c.insert src d) c.nextWord) = control →
    (((s.instruct (c.insert src d) c.nextWord).instruct (c'.extract true d e) c'.nextWord).acc
      e).toNat = (s.readWord src).toNat % 2 ^ w
  extract : ∀ (c c' : Control) (src : RegIdx) (d e : Accumulator), c.word s = control →
    c'.word (s.instruct (c.insert src d) c.nextWord) = control →
    ((s.instruct (c.insert src d) c.nextWord).instruct (c'.extract false d e) c'.nextWord).acc e =
      ((s.readWord src).setWidth w).signExtend 56
  held : ∀ (c : Control) (src : RegIdx) (d : Accumulator), c.word s = control →
    (s.readWord src).setWidth w = (s.acc d).extractLsb' o w →
    (s.instruct (c.insert src d) c.nextWord).acc d = s.acc d
  restored : ∀ (c c' : Control) (unsigned : Bool) (d e : Accumulator), c.word s = control →
    c'.word (s.instruct (c.extract unsigned d e) c.nextWord) = control → e ≠ d →
    ((s.instruct (c.extract unsigned d e) c.nextWord).instruct (c'.insert (lowReg e) d)
      c'.nextWord).acc d = s.acc d

theorem fields_inverse (s : DspState σ) {control : Word} {w o : Nat} (h : Encodes control w o)
    (hpos : 1 ≤ w) (hw : w ≤ 24) (ho : o + w ≤ 56) : FieldInverse s control w o := by
  have hinsert (t : DspState σ) (c : Control) (hc : c.word t = control) (src : RegIdx)
      (d : Accumulator) : (t.instruct (c.insert src d) c.nextWord).acc d =
        setField (t.acc d) o ((t.readWord src).setWidth w) := by
    rw [Control.instruct_insert, hc, execute_insert_acc t d h hw ho, if_pos rfl]
  have hextract (t : DspState σ) (c : Control) (hc : c.word t = control) (unsigned : Bool)
      (src d d' : Accumulator) : (t.instruct (c.extract unsigned src d) c.nextWord).acc d' =
        if d' = d then fieldResult unsigned ((t.acc src).extractLsb' o w) else t.acc d' := by
    rw [Control.instruct_extract, hc, execute_extract_acc t d h hw ho hpos]
  refine ⟨fun c src d hc i hi => ?_, fun c c' src d e hc hc' => ?_, fun c c' src d e hc hc' => ?_,
    fun c src d hc hheld => ?_, fun c c' unsigned d e hc hc' hne => ?_⟩
  · rw [hinsert s c hc, getLsbD_setField _ _ _ hi]
    split
    · next hfield =>
      have hn : i - o < w := by omega
      rw [BitVec.getLsbD_setWidth, decide_eq_true hn, Bool.true_and]
    · rfl
  · have hlt : (s.readWord src).toNat % 2 ^ w < 2 ^ 56 :=
      (Nat.mod_le _ _).trans_lt ((s.readWord src).isLt.trans (by decide))
    rw [hextract _ c' hc', if_pos rfl, hinsert s c hc, extractLsb'_setField _ _ _ ho, fieldResult,
      if_pos rfl, BitVec.toNat_setWidth, BitVec.toNat_setWidth, Nat.mod_eq_of_lt hlt]
  · rw [hextract _ c' hc', if_pos rfl, hinsert s c hc, extractLsb'_setField _ _ _ ho, fieldResult,
      if_neg Bool.false_ne_true]
  · rw [hinsert s c hc, hheld, setField_extractLsb']
  · rw [hinsert _ c' hc', readWord_lowReg, hextract s c hc, if_neg hne.symm, hextract s c hc,
      if_pos rfl, fieldResult_low hw, setField_extractLsb']

/-- The full word at the top of the accumulator, by a register and by the next word. -/
theorem fields_inverse_top :
    FieldInverse (DspState.ofRegs [(Reg.x0, 0x018020), (Reg.y0, 0xABCDEF)]) 0x018020 24 32 :=
  fields_inverse _ (by constructor <;> decide) (by decide) (by decide) (by decide)

end Dsp56300
