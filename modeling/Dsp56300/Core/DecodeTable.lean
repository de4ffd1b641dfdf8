import Dsp56300.Core.Decode
import Dsp56300.Lib.BitPattern

namespace Dsp56300

open Lib.BitPattern

def OpcodeEntry.pattern (e : OpcodeEntry) : Pattern 32 := ⟨e.mask, e.matchVal⟩

/-- What the table walk tests of an entry, without its decoder. -/
structure OpcodeRow where
  mask : Word
  matchVal : Word
  hasMmmrrr : Bool
  mode6Ok : Bool
  deriving DecidableEq

def OpcodeEntry.row (e : OpcodeEntry) : OpcodeRow := ⟨e.mask, e.matchVal, e.hasMmmrrr, e.mode6Ok⟩

def OpcodeRow.pattern (r : OpcodeRow) : Pattern 32 := ⟨r.mask, r.matchVal⟩

/-- The row fixes bits 13:11 to 110. -/
def OpcodeRow.fixesMode6 (r : OpcodeRow) : Bool :=
  r.mask &&& 0x3800 = 0x3800 && r.matchVal &&& 0x3800 = 0x3000

/-- Two rows share no word: their fixed bits clash, or the first does not own the
mode-6 words and the second has no others. -/
def OpcodeRow.excludes (a b : OpcodeRow) : Bool :=
  a.pattern.Clash b.pattern || (a.hasMmmrrr && !a.mode6Ok && b.fixesMode6)

def rowsExclusive : List OpcodeRow → Bool
  | [] => true
  | a :: as => as.all (a.excludes ·) && rowsExclusive as

theorem rowsExclusive_pairwise {rs : List OpcodeRow} (h : rowsExclusive rs = true) :
    rs.Pairwise (fun a b => a.excludes b = true) := by
  induction rs with
  | nil => exact List.Pairwise.nil
  | cons a as ih =>
    simp only [rowsExclusive, Bool.and_eq_true, List.all_eq_true] at h
    exact List.Pairwise.cons h.1 (ih h.2)

/-- The row of a template given by its letters. -/
def letterRow (mode6Ok : Bool) (letters : List Char) : OpcodeRow :=
  let (mask, matchVal) := letters.zipIdx.foldl (fun (acc : Word × Word) (c, i) =>
    let (fixed, one) := tmplBitOf c
    (if fixed then acc.1 ||| 1 <<< (23 - i) else acc.1,
      if one then acc.2 ||| 1 <<< (23 - i) else acc.2)) (0, 0)
  ⟨mask, matchVal, letters.contains 'M', mode6Ok⟩

theorem opRow_row (letters : List Char) (name : String) (decode : String → Word → Instruction) :
    (opRow (String.ofList letters) name decode).row = letterRow true letters := by
  simp only [opRow, entry, OpcodeEntry.row, templateToMaskMatch, tmplHasMmmrrr, String.toList_ofList,
    letterRow]

/-- The entries have these rows. -/
def Rows (es : List OpcodeEntry) (rs : List OpcodeRow) : Prop := es.map OpcodeEntry.row = rs

namespace Rows

variable {es : List OpcodeEntry} {rs : List OpcodeRow}

theorem cons_opRow (letters : List Char) (name : String) (decode : String → Word → Instruction)
    (h : Rows es rs) :
    Rows (opRow (String.ofList letters) name decode :: es) (letterRow true letters :: rs) :=
  congrArg₂ List.cons (opRow_row letters name decode) h

theorem cons_noMode6 (letters : List Char) (name : String) (decode : String → Word → Instruction)
    (h : Rows es rs) :
    Rows (noMode6 (opRow (String.ofList letters) name decode) :: es)
      (letterRow false letters :: rs) := by
  refine congrArg₂ List.cons ?_ h
  rw [show (noMode6 (opRow (String.ofList letters) name decode)).row =
    { (opRow (String.ofList letters) name decode).row with mode6Ok := false } from rfl, opRow_row]
  rfl

theorem exclusive (h : Rows es rs) (hx : rowsExclusive rs = true) :
    rowsExclusive (es.map OpcodeEntry.row) = true := by
  rwa [show es.map OpcodeEntry.row = rs from h]

end Rows

theorem opcodeTable_rows_exclusive : rowsExclusive (opcodeTable.map OpcodeEntry.row) = true := by
  apply Rows.exclusive
  case h =>
    -- a template literal is the string of its letters, so unification finds them
    dsimp only [opcodeTable]
    repeat first
      | with_reducible apply Rows.cons_opRow
      | with_reducible apply Rows.cons_noMode6
    exact rfl
  decide +kernel

/-- An accepted word has the entry's fixed bits and, where the entry does not own
them, is not one of the mode-6 words. -/
theorem OpcodeEntry.accepts_iff (e : OpcodeEntry) (opcode : Word) :
    e.accepts opcode = true ↔ e.pattern.Matches opcode ∧
      (e.hasMmmrrr = true → matchMmmrrr opcode = true ∧
        (e.mode6Ok = false → (opcode >>> 11) &&& 0x7 ≠ 0x6)) := by
  unfold accepts Pattern.Matches OpcodeEntry.pattern
  cases e.hasMmmrrr <;> cases e.mode6Ok <;> cases matchMmmrrr opcode <;> simp

theorem mode6_of_bits {opcode : Word} (h : opcode &&& 0x3800 = 0x3000) :
    (opcode >>> 11) &&& 0x7 = 0x6 := by
  have he : (opcode &&& 0x3800) >>> 11 = (opcode >>> 11) &&& 0x7 := by
    rw [BitVec.ushiftRight_and_distrib]
    rfl
  rw [← he, h]
  rfl

/-- Excluding rows are never both accepted. -/
theorem not_both_of_excludes {a b : OpcodeEntry} (h : a.row.excludes b.row = true)
    (opcode : Word) : ¬ (a.accepts opcode = true ∧ b.accepts opcode = true) := by
  rintro ⟨ha, hb⟩
  obtain ⟨hma, hea⟩ := (a.accepts_iff opcode).mp ha
  obtain ⟨hmb, -⟩ := (b.accepts_iff opcode).mp hb
  simp only [OpcodeRow.excludes, Bool.or_eq_true, decide_eq_true_eq, Bool.and_eq_true,
    Bool.not_eq_true'] at h
  rcases h with hclash | ⟨⟨hmmm, hno6⟩, hfix⟩
  · exact hclash.not_both (p := a.pattern) (q := b.pattern) hma hmb
  · simp only [OpcodeRow.fixesMode6, Bool.and_eq_true, decide_eq_true_eq] at hfix
    have hbits := hmb.and_of_sub (m := 0x3800) hfix.1
    exact (hea hmmm).2 hno6 (mode6_of_bits (hbits.trans hfix.2))

theorem opcodeTable_exclusive (opcode : Word) : opcodeTable.Pairwise
    (fun a b => ¬ (a.accepts opcode = true ∧ b.accepts opcode = true)) := by
  have h := rowsExclusive_pairwise opcodeTable_rows_exclusive
  rw [List.pairwise_map] at h
  exact h.imp (fun hab => not_both_of_excludes hab opcode)

/-- An accepting entry sits in the bucket of the opcode's prefix. -/
theorem mem_bucket_of_accepts {e : OpcodeEntry} {opcode : Word} (h : e.accepts opcode = true) :
    ((opcode >>> 16) &&& 0xF) &&& ((e.mask >>> 16) &&& 0xF) = (e.matchVal >>> 16) &&& 0xF := by
  have hm : opcode &&& e.mask = e.matchVal := ((e.accepts_iff opcode).mp h).1
  rw [← hm, BitVec.ushiftRight_and_distrib]
  ext i hi
  simp only [BitVec.getElem_and]
  cases (opcode >>> 16)[i] <;> cases (e.mask >>> 16)[i] <;> simp

/-- The bucket lookup stops at any entry that accepts. -/
theorem selectEntry_of_accepts {e : OpcodeEntry} {opcode : Word} (he : e ∈ opcodeTable)
    (h : e.accepts opcode = true) : selectEntry opcode = some e := by
  unfold selectEntry prefixBucket
  have hkeep : ∀ b ∈ opcodeTable, b.accepts opcode = true → decide (((opcode >>> 16) &&& 0xF) &&&
      ((b.mask >>> 16) &&& 0xF) = (b.matchVal >>> 16) &&& 0xF) = true :=
    fun b _ hb => decide_eq_true (mem_bucket_of_accepts hb)
  exact (find?_filter_of_imp hkeep).trans (find?_of_exclusive (opcodeTable_exclusive opcode) he h)

theorem decode_of_accepts {e : OpcodeEntry} {opcode : Word} (hlt : opcode < 0x100000)
    (hpm : isPm0 opcode = false) (he : e ∈ opcodeTable) (h : e.accepts opcode = true) :
    decode opcode = e.run opcode := by
  have hge : ¬ opcode ≥ 0x100000 := BitVec.not_le.mpr hlt
  simp only [decode, if_neg hge, hpm, selectEntry_of_accepts he h, Bool.false_eq_true, ↓reduceIte]

theorem decode_at {opcode : Word} (i : Nat) {e : OpcodeEntry} (hi : opcodeTable[i]? = some e)
    (hlt : opcode < 0x100000) (hpm : isPm0 opcode = false) (h : e.accepts opcode = true) :
    decode opcode = e.run opcode :=
  decode_of_accepts hlt hpm (List.mem_of_getElem? hi) h

theorem decode_nop : decode 0 = .nop := by
  rw [decode_at 155 rfl (by decide) (by decide) (by decide)]
  rfl

/-- Table order never decides: below $100000 and outside Pm0 at most one entry
accepts a word, and `decode` goes through it wherever it stands in the table. -/
theorem decode_table_order_irrelevant (opcode : Word) (hlt : opcode < 0x100000)
    (hpm : isPm0 opcode = false) :
    (∀ (i j : Nat) (hi : i < opcodeTable.length) (hj : j < opcodeTable.length),
      opcodeTable[i].accepts opcode = true → opcodeTable[j].accepts opcode = true → i = j) ∧
    (∀ e ∈ opcodeTable, e.accepts opcode = true →
      selectEntry opcode = some e ∧ decode opcode = e.run opcode) :=
  ⟨fun _ _ hi hj => index_unique_of_exclusive (opcodeTable_exclusive opcode) hi hj,
    fun _ he h => ⟨selectEntry_of_accepts he h, decode_of_accepts hlt hpm he h⟩⟩

/-- $0A7080 matches the fixed bits of the jclr-ea row and of the long-displacement
move; only the move owns it. -/
theorem decode_table_order_irrelevant_jclr_move :
    (0x0A7080 : Word) < 0x100000 ∧ isPm0 0x0A7080 = false ∧
    (∀ e ∈ opcodeTable, e.accepts 0x0A7080 = true →
      selectEntry 0x0A7080 = some e ∧ decode 0x0A7080 = e.run 0x0A7080) :=
  ⟨by decide, by decide, (decode_table_order_irrelevant 0x0A7080 (by decide) (by decide)).2⟩

end Dsp56300
