import Dsp56300.Core.DecodeFields
import Dsp56300.Disasm.Disassemble
import Dsp56300.Lib.Bits

namespace Dsp56300

open Instruction Lib.Bits Lib.BitFields

/-- A parallel word whose ALU byte is no operation. -/
def Instruction.isUndefinedParallel : Instruction → Bool
  | .parallel alu _ _ => alu = .undefined
  | _ => false

/-- An effective address takes the extension word exactly in mode 6. -/
theorem calcEa_extra (eaMode nextWord : Word) :
    (calcEa eaMode nextWord).2.2 = decide ((eaMode >>> 3) &&& 7 = 6) := by
  have h6 : (eaMode >>> 3) &&& 7 = 6 ↔ ((eaMode >>> 3) &&& 7).toNat = 6 := BitVec.toNat_inj.symm
  rw [calcEa, decide_eq_decide.mpr h6]
  split
  case h_7 h =>
    rw [decide_eq_true h]
    split <;> rfl
  all_goals exact (decide_eq_false (by omega)).symm

theorem eaLen_calcEa {ea : Byte} (h : ea.toNat < 2 ^ 6) (nextWord : Word) :
    eaLen (calcEa (ea.setWidth 32) nextWord).2.2 = if ea >>> 3 = 6 then 2 else 1 := by
  rw [calcEa_extra, eaLen]
  simp only [decide_eq_true_eq, mode_six_iff ea h]

theorem eaLen_of_mode {ea : Byte} (h : (ea >>> 3) &&& 7 ≠ 6) (nextWord : Word) :
    eaLen (calcEa (ea.setWidth 32) nextWord).2.2 = 1 := by
  have hw : ∀ ea : Byte, (ea >>> 3) &&& 7 ≠ 6 → (ea.setWidth 32 >>> 3) &&& (7 : Word) ≠ 6 := by
    decide
  rw [calcEa_extra, eaLen, decide_eq_false (hw ea h)]
  rfl

/-- The five-bit address modes of an X: Y: move, with 0 standing for (Rn). -/
theorem calcEa_xy (v nextWord : Word) (h : v.toNat < 32) :
    (calcEa (if v >>> 3 = 0 then v ||| (1 <<< 5) else v) nextWord).2.2 = false := by
  have hm : ∀ n : Fin 32, ((if BitVec.ofNat 32 n.val >>> 3 = 0 then
      BitVec.ofNat 32 n.val ||| (1 <<< 5) else BitVec.ofNat 32 n.val) >>> 3) &&& (7 : Word) ≠ 6 := by
    decide
  have hv : BitVec.ofNat 32 v.toNat = v := by simp
  rw [calcEa_extra]
  exact decide_eq_false (hv ▸ hm ⟨v.toNat, h⟩)

theorem toNat_and_lt (v : Word) {m : Word} {n : Nat} (h : m.toNat < n) : (v &&& m).toNat < n := by
  rw [BitVec.toNat_and]
  exact Nat.lt_of_le_of_lt Nat.and_le_right h

theorem toNat_or_lt {u v : Word} {n : Nat} (hu : u.toNat < 2 ^ n) (hv : v.toNat < 2 ^ n) :
    (u ||| v).toNat < 2 ^ n := by
  rw [BitVec.toNat_or]
  exact Nat.or_lt_two_pow hu hv

/-- An X: Y: move takes no extension word. -/
theorem pm8_extra (op nextWord : Word) : (disasmPm8 op nextWord).extraWord = false := by
  have h3 : (((op >>> 20) &&& 3#32) <<< 3).toNat < 2 ^ 5 := by
    have := toNat_and_lt (op >>> 20) (show (3#32).toNat < 4 by decide)
    rw [BitVec.toNat_shiftLeft, Nat.shiftLeft_eq]
    omega
  have h2 : (((op >>> 13) &&& 3#32) ||| (((op >>> 20) &&& 3#32) <<< 3)).toNat < 2 ^ 5 :=
    toNat_or_lt (toNat_and_lt _ (by decide)) h3
  have h1 : ((op >>> 8) &&& 0x1F).toNat < 32 := toNat_and_lt _ (by decide)
  have h2' (c : Prop) [Decidable c] :
      (if c then ((op >>> 13) &&& 3#32) ||| (((op >>> 20) &&& 3#32) <<< 3) ||| (1#32 <<< 2)
        else ((op >>> 13) &&& 3#32) ||| (((op >>> 20) &&& 3#32) <<< 3)).toNat < 2 ^ 5 := by
    split
    · exact toNat_or_lt h2 (by decide)
    · exact h2
  simp only [disasmPm8, Bool.or_eq_false_iff]
  exact ⟨calcEa_xy _ nextWord h1, calcEa_xy _ nextWord (h2' _)⟩

theorem bit14_iff (op : Word) : op &&& (1#32 <<< 14) ≠ 0 ↔ (op >>> 14) &&& 1 = 1 := by
  rw [and_bit_ne_zero_iff op (by decide)]
  constructor
  · intro h
    apply BitVec.eq_of_getLsbD_eq
    intro i hi
    have hb := getLsbD_lowBit op 14 i
    rw [h, Bool.and_true] at hb
    refine hb.trans ?_
    change _ = (1#32).getLsbD i
    rw [BitVec.getLsbD_one]
    simp
  · intro h
    have hb := getLsbD_lowBit op 14 0
    rw [show (op >>> 14) &&& 1#32 = 1#32 from h] at hb
    simpa using hb.symm

theorem pm4_length {op nextWord : Word}
    (he : (calcEa ((op >>> 8) &&& 0x3F) nextWord).2.2 = decide ((op >>> 11) &&& 7 = 6)) :
    eaLen (disasmPm4 op nextWord).extraWord =
      if (op >>> 14) &&& 1 = 1 ∧ (op >>> 11) &&& 7 = 6 then 2 else 1 := by
  by_cases hb : (op >>> 14) &&& 1 = 1
  · simp only [disasmPm4, (bit14_iff op).mpr hb, ne_eq, not_false_eq_true, ↓reduceIte, he, hb,
      true_and, eaLen, decide_eq_true_eq]
  · have hb' : ¬ op &&& (1#32 <<< 14) ≠ 0 := fun h => hb ((bit14_iff op).mp h)
    simp only [disasmPm4, hb', hb, ↓reduceIte, false_and, eaLen, Bool.false_eq_true]

/-- A parallel move takes the extension word exactly when the decoder says so. -/
theorem eaLen_parallelMove (alu : ParallelAlu) (moveType : ParallelMoveType) (op nextWord : Word) :
    eaLen (disasmParallelMove moveType op nextWord).extraWord =
      instructionLength (.parallel alu moveType op) := by
  have he : (calcEa ((op >>> 8) &&& 0x3F) nextWord).2.2 = decide ((op >>> 11) &&& 7 = 6) := by
    rw [calcEa_extra, mode_of_field]
  have hm : eaLen (decide ((op >>> 11) &&& 7 = 6)) = if (op >>> 11) &&& 7 = 6 then 2 else 1 := by
    simp only [eaLen, decide_eq_true_eq]
  cases moveType with
  | pm0 => exact (congrArg eaLen he).trans hm
  | pm1 => exact (congrArg eaLen he).trans hm
  | pm2 => rfl
  | pm3 => rfl
  | pm4 => exact pm4_length he
  | pm5 => exact pm4_length he
  | pm8 => exact congrArg eaLen (pm8_extra op nextWord)

theorem disassembleInst_length {inst : Instruction} (h : inst.EaOk) (pc nextWord opcode : Word)
    (symbols : SymbolTable) :
    (disassembleInst pc nextWord symbols opcode inst).2 =
      if inst.isUndefinedParallel then 1 else instructionLength inst := by
  cases inst with
  | parallel alu moveType op =>
    have hd : (disassembleInst pc nextWord symbols opcode (.parallel alu moveType op)).2 =
        if alu = .undefined then 1
        else eaLen (disasmParallelMove moveType op nextWord).extraWord :=
      apply_ite Prod.snd (alu = .undefined) _ _
    rw [hd, eaLen_parallelMove alu moveType op nextWord]
    simp only [isUndefinedParallel, decide_eq_true_eq]
  | lua ea dst => exact eaLen_of_mode h nextWord
  | repEa space ea => exact eaLen_of_mode h nextWord
  | _ => first | rfl | exact eaLen_calcEa h nextWord

theorem disassembleInst_undefined {inst : Instruction} (h : inst.isUndefinedParallel = true)
    (pc nextWord opcode : Word) (symbols : SymbolTable) :
    (disassembleInst pc nextWord symbols opcode inst).1 = s!"dc ${hex 6 opcode}" := by
  cases inst with
  | parallel alu moveType op => exact congrArg Prod.fst (if_pos (of_decide_eq_true h))
  | _ => cases h

/-- The disassembler counts the words the emulator advances by, except that it prints a
parallel word with an undefined ALU byte as one word of data. -/
theorem disassemble_length (pc opcode nextWord : Word) (symbols : SymbolTable) :
    (disassembleWithSymbols pc opcode nextWord symbols).2 =
        (if (decode opcode).isUndefinedParallel then 1 else instructionLength (decode opcode)) ∧
      ((decode opcode).isUndefinedParallel →
        (disassembleWithSymbols pc opcode nextWord symbols).1 = s!"dc ${hex 6 opcode}") :=
  ⟨disassembleInst_length (decode_eaOk opcode) pc nextWord opcode symbols,
    fun h => disassembleInst_undefined h pc nextWord opcode symbols⟩

/-- $56F004: a move from an absolute address with ALU byte $04. -/
theorem disassemble_length_undefined_alu :
    (disassemble 0 0x56F004 0x001234).2 = 1 ∧ instructionLength (decode 0x56F004) = 2 := by
  have hd : decode 0x56F004 = .parallel .undefined .pm5 0x56F004 := rfl
  refine ⟨?_, ?_⟩
  · rw [disassemble, disassembleWithSymbols, hd]
    have hok : (parallel .undefined .pm5 0x56F004).EaOk := trivial
    exact disassembleInst_length hok 0 0x001234 0x56F004 _
  · rw [hd]
    rfl

end Dsp56300
