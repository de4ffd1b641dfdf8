import Dsp56300.Core.DecodeTable
import Dsp56300.Lib.BitFields

namespace Dsp56300

open Lib.BitFields

set_option linter.constructorNameAsVariable false

/-- Opcode bit positions of a template letter, from the top. -/
def letterBits (tmpl : String) (letter : Char) : List Nat :=
  (tmpl.toList.zipIdx.filter (·.1 = letter)).map (23 - ·.2)

theorem tmplField_eq_pack (tmpl : String) (letter : Char) (op : Word) :
    tmplField tmpl letter op = pack (letterBits tmpl letter) op := by
  rw [pack, letterBits, List.foldl_map, List.foldl_filter]
  simp only [decide_eq_true_eq]
  rfl

theorem length_letterBits (tmpl : String) (letter : Char) :
    (letterBits tmpl letter).length = tmpl.toList.count letter := by
  conv_rhs => rw [← List.zipIdx_map_fst 0 tmpl.toList]
  rw [letterBits, List.length_map, List.count, List.countP_map, List.countP_eq_length_filter]
  rfl

theorem tmplField2_eq_pack (tmpl : String) (hi lo : Char) (op : Word) :
    tmplField2 tmpl hi lo op = pack (letterBits tmpl hi ++ letterBits tmpl lo) op := by
  rw [tmplField2, tmplField_eq_pack, tmplField_eq_pack, pack_append, length_letterBits]

/-- The positions of a letter in a template given by its letters. -/
def positions (letters : List Char) (letter : Char) : List Nat :=
  (letters.zipIdx.filter (·.1 = letter)).map (23 - ·.2)

theorem letterBits_ofList (letters : List Char) (letter : Char) :
    letterBits (String.ofList letters) letter = positions letters letter := by
  rw [letterBits, String.toList_ofList, positions]

/-- An effective address of at most `n` template bits. -/
theorem tmplEa_lt {letters : List Char} {n : Nat}
    (h : (positions letters 'M' ++ positions letters 'R').length = n) (op : Word) :
    (tmplEa (String.ofList letters) op).toNat < 2 ^ n := by
  rw [← letterBits_ofList, ← letterBits_ofList] at h
  rw [tmplEa, tmplField2_eq_pack, BitVec.toNat_setWidth]
  exact Nat.lt_of_le_of_lt (Nat.mod_le _ _) (h ▸ toNat_pack_lt _ op)

/-- Where an effective address stands in bits 13:8, its mode is bits 13:11. -/
theorem tmplEa_mode {tmpl : String}
    (h : letterBits tmpl 'M' ++ letterBits tmpl 'R' = [13, 12, 11, 10, 9, 8]) (op : Word) :
    (tmplEa tmpl op >>> 3) &&& (7 : Byte) = ((op >>> 11) &&& (7 : Word)).setWidth 8 := by
  rw [tmplEa, tmplField2_eq_pack, h]
  ext i hi
  have hb (j : Nat) (hj : j < 8) : (pack [13, 12, 11, 10, 9, 8] op).getLsbD j =
      (([8, 9, 10, 11, 12, 13] : List Nat)[j]?).any op.getLsbD :=
    getLsbD_pack _ op (by omega)
  have hs : i = 0 ∨ i = 1 ∨ i = 2 ∨ 3 ≤ i := by omega
  rcases hs with rfl | rfl | rfl | hs
  · simpa using hb 3 (by decide)
  · simpa using hb 4 (by decide)
  · simpa using hb 5 (by decide)
  · have hi' : i = 3 ∨ i = 4 ∨ i = 5 ∨ i = 6 ∨ i = 7 := by omega
    rcases hi' with rfl | rfl | rfl | rfl | rfl <;> simp

/-- The mode of the EA field in bits 13:8. -/
theorem mode_of_field (op : Word) :
    (((op >>> 8) &&& 0x3F) >>> 3) &&& (7 : Word) = (op >>> 11) &&& 7 := by
  apply BitVec.eq_of_toNat_eq
  simp only [BitVec.toNat_and, BitVec.toNat_ushiftRight, Nat.shiftRight_and_distrib,
    ← Nat.shiftRight_add]
  rw [Nat.and_assoc]
  rfl

theorem mode_six_iff : ∀ ea : Byte, ea.toNat < 2 ^ 6 →
    ((ea.setWidth 32 >>> 3) &&& (7 : Word) = 6 ↔ ea >>> 3 = 6) := by
  decide

theorem mode_ne_six_of_lt {ea : Byte} (h : ea.toNat < 2 ^ 5) : (ea >>> 3) &&& 7 ≠ 6 := by
  revert ea
  decide

/-- A row that does not own mode 6 accepts no word of that mode. -/
theorem mode_ne_six_of_accepts {e : OpcodeEntry} {letters : List Char} {op : Word}
    (h : positions letters 'M' ++ positions letters 'R' = [13, 12, 11, 10, 9, 8])
    (hm : e.hasMmmrrr = true) (h6 : e.mode6Ok = false) (ha : e.accepts op = true) :
    (tmplEa (String.ofList letters) op >>> 3) &&& 7 ≠ 6 := by
  rw [← letterBits_ofList, ← letterBits_ofList] at h
  have hne := (((e.accepts_iff op).mp ha).2 hm).2 h6
  rw [tmplEa_mode h]
  intro he
  apply hne
  have h7 : ((op >>> 11) &&& (7 : Word)).toNat < 2 ^ 8 := by
    rw [BitVec.toNat_and]
    exact Nat.lt_of_le_of_lt Nat.and_le_right (by decide)
  apply BitVec.eq_of_toNat_eq
  have hw := congrArg BitVec.toNat he
  rwa [BitVec.toNat_setWidth, Nat.mod_eq_of_lt h7] at hw

namespace Instruction

/-- What decoding promises of an effective address: six bits, and for lua and rep a mode
other than 6. -/
def EaOk : Instruction → Prop
  | .movep23 _ ea _ _ _ | .movep1 _ ea _ _ | .movepQq _ ea _ _ _ | .movepQqPea _ ea _ _
  | .movecEa ea _ _ _ | .movemEa ea _ _ | .jmpEa ea | .jsrEa ea | .jccEa _ ea | .jsccEa _ ea
  | .bclrEa _ ea _ | .bsetEa _ ea _ | .btstEa _ ea _ | .bchgEa _ ea _ | .plockEa ea
  | .punlockEa ea | .vsl _ ea _ => ea.toNat < 2 ^ 6
  | .lua ea _ | .repEa _ ea => (ea >>> 3) &&& 7 ≠ 6
  | _ => True

end Instruction

open Instruction

theorem normAll_lt {ea : Byte} (h : ea.toNat < 2 ^ 6) : (normAll ea).toNat < 2 ^ 6 := by
  unfold normAll
  split
  · rw [BitVec.toNat_and]
    exact Nat.lt_of_le_of_lt Nat.and_le_left h
  · exact h

theorem normLo_lt {ea : Byte} (h : ea.toNat < 2 ^ 6) : (normLo ea).toNat < 2 ^ 6 := by
  unfold normLo
  split
  · rw [BitVec.toNat_and]
    exact Nat.lt_of_le_of_lt Nat.and_le_left h
  · exact h

theorem normAll_of_mode {ea : Byte} (h : (ea >>> 3) &&& 7 ≠ 6) : normAll ea = ea := if_neg h

/-- Normalizing an effective address keeps what decoding promises of it. -/
theorem eaOk_normalize {inst : Instruction} (h : inst.EaOk) : (normalizeEaMode inst).EaOk := by
  cases inst with
  | repEa space ea =>
    change (normAll ea >>> 3) &&& 7 ≠ 6
    rw [normAll_of_mode h]
    exact h
  | movecEa ea n w space => cases w <;> first | exact normLo_lt h | exact normAll_lt h
  | movep23 p ea w ps es => cases w <;> first | exact normLo_lt h | exact normAll_lt h
  | movepQq q ea w qs es => cases w <;> first | exact normLo_lt h | exact normAll_lt h
  | _ => first | exact normAll_lt h | exact h

theorem rows_eaOk : ∀ e ∈ opcodeTable, ∀ f, e.decode = some f → ∀ op, e.accepts op = true →
    (f op).EaOk := by
  unfold opcodeTable
  repeat' (first | exact List.forall_mem_nil _ | refine List.forall_mem_cons.mpr ⟨?_, ?_⟩)
  all_goals rintro f ⟨⟩ op ha
  all_goals first
    | exact trivial
    | exact tmplEa_lt (by decide +kernel) op
    | exact mode_ne_six_of_lt (tmplEa_lt (by decide +kernel) op)
    | exact mode_ne_six_of_accepts (by decide +kernel) rfl rfl ha
    | (dsimp only; split <;> trivial)
    | (unfold shiftReg; dsimp only; split <;> trivial)

/-- What the rows of the table promise, and words outside it, every decoded instruction keeps. -/
theorem decode_of_rows {P : Instruction → Prop}
    (hnormalize : ∀ inst, P inst → P (normalizeEaMode inst))
    (hparallel : ∀ alu moveType op, P (.parallel alu moveType op))
    (hunimplemented : ∀ name op, P (.unimplemented name op)) (hunknown : ∀ op, P (.unknown op))
    (hrows : ∀ e ∈ opcodeTable, ∀ f, e.decode = some f → ∀ op, e.accepts op = true → P (f op))
    (opcode : Word) : P (decode opcode) := by
  simp only [decode]
  split
  · unfold decodeParallel
    extract_lets
    split
    · exact hunknown _
    · split
      · exact hunknown _
      · exact hparallel _ _ _
  · split
    · exact hparallel _ _ _
    · split
      · rename_i e he
        have hmem : e ∈ opcodeTable := by
          rw [selectEntry, prefixBucket] at he
          exact List.mem_of_mem_filter (List.mem_of_find?_eq_some he)
        have hacc : e.accepts opcode = true := by simpa using List.find?_some he
        simp only [OpcodeEntry.run]
        split
        · rename_i f hf
          split
          · exact hunknown _
          · exact hnormalize _ (hrows e hmem f hf opcode hacc)
        · exact hunimplemented _ _
      · exact hunknown _

/-- Every decoded instruction keeps what decoding promises of its effective address. -/
theorem decode_eaOk (opcode : Word) : (decode opcode).EaOk :=
  decode_of_rows (P := EaOk) (fun _ => eaOk_normalize) (fun _ _ _ => trivial) (fun _ _ => trivial)
    (fun _ => trivial) rows_eaOk opcode

/-- A register or bit number of `n` template bits. -/
theorem tmplReg_lt {letters : List Char} {letter : Char} {n : Nat}
    (h : (positions letters letter).length = n) (op : Word) :
    (tmplReg (String.ofList letters) letter op).toNat < 2 ^ n := by
  rw [← letterBits_ofList] at h
  rw [tmplReg, tmplField_eq_pack, BitVec.toNat_setWidth]
  exact Nat.lt_of_le_of_lt (Nat.mod_le _ _) (h ▸ toNat_pack_lt _ op)

/-- What decoding promises of the numbers in bit tests, of destinations that name less than the
whole register file, and of the spaces written to: X or Y. -/
def Instruction.OperandsOk : Instruction → Prop
  | .jclrPp _ _ b | .jclrQq _ _ b | .jclrAa _ _ b | .jclrReg _ b | .jclrEa _ _ b
  | .jsetPp _ _ b | .jsetQq _ _ b | .jsetAa _ _ b | .jsetReg _ b | .jsetEa _ _ b
  | .jsclrPp _ _ b | .jsclrQq _ _ b | .jsclrAa _ _ b | .jsclrReg _ b | .jsclrEa _ _ b
  | .jssetPp _ _ b | .jssetQq _ _ b | .jssetAa _ _ b | .jssetReg _ b | .jssetEa _ _ b
  | .brclrPp _ _ b | .brclrQq _ _ b | .brclrAa _ _ b | .brclrReg _ b | .brclrEa _ _ b
  | .brsetPp _ _ b | .brsetQq _ _ b | .brsetAa _ _ b | .brsetReg _ b | .brsetEa _ _ b
  | .bsclrPp _ _ b | .bsclrQq _ _ b | .bsclrAa _ _ b | .bsclrReg _ b | .bsclrEa _ _ b
  | .bssetPp _ _ b | .bssetQq _ _ b | .bssetAa _ _ b | .bssetReg _ b | .bssetEa _ _ b =>
    b.toNat < 2 ^ 5
  | .bclrPp space _ _ | .bclrQq space _ _ | .bclrAa space _ _ | .bclrEa space _ _
  | .bsetPp space _ _ | .bsetQq space _ _ | .bsetAa space _ _ | .bsetEa space _ _
  | .bchgPp space _ _ | .bchgQq space _ _ | .bchgAa space _ _ | .bchgEa space _ _
  | .movecEa _ _ _ space | .movecAa _ _ _ space | .moveLongDisp space _ _ _
  | .movep0 _ _ _ space | .movep1 _ _ _ space | .movepQqPea _ _ _ space
  | .movepQqR _ _ _ space => space ≠ .p
  | .movep23 _ _ _ perspace easpace => perspace ≠ .p ∧ easpace ≠ .p
  | .movepQq _ _ _ qqspace easpace => qqspace ≠ .p ∧ easpace ≠ .p
  | .moveShortDisp space _ _ _ n => space ≠ .p ∧ n.toNat < 2 ^ 4
  | .lua _ d | .lraRn _ d | .lraDisp d => d.toNat < 2 ^ 5
  | .luaRel _ _ d _ => d.toNat < 2 ^ 3
  | .tcc _ _ r => ∀ s d, r = some (s, d) → d.toNat < 2 ^ 3
  | _ => True

theorem and_seven_lt (op : Word) : ((op &&& 7).setWidth 8).toNat < 2 ^ 3 := by
  rw [BitVec.toNat_setWidth, BitVec.toNat_and]
  exact Nat.lt_of_le_of_lt (Nat.mod_le _ _) (Nat.lt_of_le_of_lt Nat.and_le_right (by decide))

theorem xy_ne_p (bit : Word) : MemSpace.xy bit ≠ .p := by
  unfold MemSpace.xy
  split <;> decide

theorem decTcc_operandsOk (op : Word) : (decTcc op).OperandsOk := by
  intro s d h
  split at h
  · obtain ⟨-, rfl⟩ := Prod.mk.inj (Option.some.inj h)
    exact and_seven_lt op
  · cases h

theorem luaRel_operandsOk (aa rn : Byte) (op : Word) (w : Bool) :
    (luaRel aa rn ((op &&& 7).setWidth 8) w).OperandsOk := and_seven_lt op

theorem rows_operandsOk : ∀ e ∈ opcodeTable, ∀ f, e.decode = some f → ∀ op, e.accepts op = true →
    (f op).OperandsOk := by
  unfold opcodeTable
  repeat' (first | exact List.forall_mem_nil _ | refine List.forall_mem_cons.mpr ⟨?_, ?_⟩)
  all_goals rintro f ⟨⟩ op -
  all_goals first
    | with_reducible exact decTcc_operandsOk op
    | with_reducible exact luaRel_operandsOk _ _ op _
    | exact tmplReg_lt (by decide +kernel) op
    | exact xy_ne_p _
    | exact ⟨xy_ne_p _, tmplReg_lt (by decide +kernel) op⟩
    | exact ⟨xy_ne_p _, xy_ne_p _⟩
    | exact ⟨MemSpace.noConfusion, xy_ne_p _⟩
    | exact MemSpace.noConfusion
    | exact trivial
    | (dsimp only; split <;> trivial)
    | (unfold shiftReg; dsimp only; split <;> trivial)

/-- Every decoded instruction keeps what decoding promises of its operands. -/
theorem decode_operandsOk (opcode : Word) : (decode opcode).OperandsOk := by
  refine decode_of_rows (P := OperandsOk) ?_ (fun _ _ _ => trivial) (fun _ _ => trivial)
    (fun _ => trivial) rows_operandsOk opcode
  intro inst h
  cases inst <;> exact h

end Dsp56300
