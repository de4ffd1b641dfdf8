import Dsp56300.Asm.Emit
import Dsp56300.Disasm.Sweep
import Dsp56300.Lib.Frames
import Dsp56300.Lib.Words

/-! Binary files as the assembler writes them, and their listing by the disassembler. -/

namespace Dsp56300

open Asm Lib.Frames

/-- The formats that are not text. -/
inductive BinaryFormat where
  | u32Le
  | u24Be
  | u24Le
  deriving DecidableEq, Repr

/-- The low eight bits. -/
def asByte (w : Word) : Byte := w.setWidth 8

def toLeBytes (w : Word) : List Byte :=
  [asByte w, asByte (w >>> 8), asByte (w >>> 16), asByte (w >>> 24)]

def ofByte (b : Byte) : Word := b.setWidth 32

def fromLeBytes (b0 b1 b2 b3 : Byte) : Word :=
  ofByte b0 ||| ofByte b1 <<< 8 ||| ofByte b2 <<< 16 ||| ofByte b3 <<< 24

namespace BinaryFormat

def encodeWord (fmt : BinaryFormat) (w : Word) : List Byte :=
  match fmt with
  | .u32Le => toLeBytes (w &&& 0x00FFFFFF)
  | .u24Be => [asByte (w >>> 16), asByte (w >>> 8), asByte w]
  | .u24Le => [asByte w, asByte (w >>> 8), asByte (w >>> 16)]

def bytesPerWord : BinaryFormat → Nat
  | .u32Le => 4
  | .u24Be | .u24Le => 3

/-- Fewer bytes than a word takes are never read. -/
def parseWord (fmt : BinaryFormat) (bytes : List Byte) : Word :=
  match fmt, bytes with
  | .u32Le, b0 :: b1 :: b2 :: b3 :: _ => fromLeBytes b0 b1 b2 b3 &&& 0x00FFFFFF
  | .u24Be, b0 :: b1 :: b2 :: _ => ofByte b0 <<< 16 ||| ofByte b1 <<< 8 ||| ofByte b2
  | .u24Le, b0 :: b1 :: b2 :: _ => ofByte b2 <<< 16 ||| ofByte b1 <<< 8 ||| ofByte b0
  | _, _ => 0

theorem length_encodeWord (fmt : BinaryFormat) (w : Word) :
    (fmt.encodeWord w).length = fmt.bytesPerWord := by
  cases fmt <;> rfl

theorem parseWord_encodeWord (fmt : BinaryFormat) (w : Word) (rest : List Byte) :
    fmt.parseWord (fmt.encodeWord w ++ rest) = w &&& 0x00FFFFFF := by
  have hlow (v : Word) : v &&& 0x00FFFFFF = (v.setWidth 24).setWidth 32 :=
    Lib.Words.and_lowMask (v := 24) rfl (by decide) v
  cases fmt with
  | u32Le =>
    change fromLeBytes _ _ _ _ &&& 0x00FFFFFF = _
    rw [hlow, hlow, fromLeBytes]
    ext i hi
    simp [ofByte, asByte]
    grind
  | u24Be =>
    rw [hlow]
    change ofByte _ <<< 16 ||| ofByte _ <<< 8 ||| ofByte _ = _
    ext i hi
    simp [ofByte, asByte]
    grind
  | u24Le =>
    rw [hlow]
    change ofByte _ <<< 16 ||| ofByte _ <<< 8 ||| ofByte _ = _
    ext i hi
    simp [ofByte, asByte]
    grind

end BinaryFormat

/-- The output in a binary format: the words of the segments one after another. -/
def writeBinary (fmt : BinaryFormat) (result : AssembleResult) : List Byte :=
  result.segments.flatMap fun seg => seg.words.flatMap fmt.encodeWord

/-! The listing. -/

/-- The words from an index on, the address of the next instruction, how many words the index has
to pass, and how many instructions may still be listed. -/
def sweepBinary : Word → Nat → Option Nat → List Word → List Listed
  | _, _, _, [] => []
  | pc, skip + 1, count, _ :: rest => sweepBinary pc skip count rest
  | pc, 0, count, opcode :: rest =>
    if count = some 0 then []
    else
      let nextWord := rest.headD 0
      let (text, len) := disassembleWithSymbols pc opcode nextWord fun _ => none
      { gap := false, labels := [], pc, opcode, nextWord, text, len, hasNext := rest ≠ [] } ::
        sweepBinary (pc + BitVec.ofNat 32 len) (len - 1) (count.map (· - 1)) rest

def disassembleBinary (fmt : BinaryFormat) (data : List Byte) (start : Word)
    (count : Option Nat) : List Listed :=
  sweepBinary start 0 count (records fmt.bytesPerWord fmt.parseWord data)

/-- The words a line prints. -/
def Listed.words (e : Listed) : List Word :=
  e.opcode :: if e.len = 2 ∧ e.hasNext then [e.nextWord] else []

/-- A listing of words from an address on: every line is the instruction of the words it prints, at
the address of the first of them. -/
structure Lists (start : Word) (words : List Word) (out : List Listed) : Prop where
  words : out.flatMap Listed.words = words
  addresses : ∀ before e after, out = before ++ e :: after →
    e.pc = start + BitVec.ofNat 32 (before.flatMap Listed.words).length
  shown : ∀ e ∈ out, (e.text, e.len) =
    disassembleWithSymbols e.pc e.opcode e.nextWord fun _ => none

theorem Lists.nil (start : Word) : Lists start [] [] :=
  ⟨rfl, fun _ _ _ h => absurd h.symm (by simp), fun _ h => absurd h List.not_mem_nil⟩

/-- One line more before a listing. -/
theorem Lists.cons {start : Word} {first words : List Word} {e : Listed} {out : List Listed}
    (hfirst : e.words = first) (h : Lists (start + BitVec.ofNat 32 first.length) words out)
    (hpc : e.pc = start)
    (hshown : (e.text, e.len) = disassembleWithSymbols e.pc e.opcode e.nextWord fun _ => none) :
    Lists start (first ++ words) (e :: out) := by
  refine ⟨by rw [List.flatMap_cons, h.words, hfirst], fun before e' after heq => ?_, ?_⟩
  · cases before with
    | nil =>
      obtain ⟨rfl, -⟩ := List.cons.inj heq
      simpa using hpc
    | cons e'' before =>
      obtain ⟨rfl, hout⟩ := List.cons.inj heq
      rw [h.addresses before e' after hout, List.flatMap_cons, List.length_append, hfirst,
        BitVec.ofNat_add, BitVec.add_assoc]
  · exact List.forall_mem_cons.mpr ⟨hshown, h.shown⟩

section Lines

variable (pc opcode : Word) (rest : List Word)

def lineAt : Listed :=
  let shown := disassembleWithSymbols pc opcode (rest.headD 0) fun _ => none
  { gap := false, labels := [], pc, opcode
    nextWord := rest.headD 0
    text := shown.1
    len := shown.2
    hasNext := rest ≠ [] }

theorem lineAt_len : (lineAt pc opcode rest).len = listedLen opcode :=
  shown_len pc opcode _ _

theorem words_lineAt : (lineAt pc opcode rest).words =
    opcode :: if listedLen opcode = 2 ∧ rest ≠ [] then [rest.headD 0] else [] := by
  rw [Listed.words, lineAt_len]
  simp [lineAt]

theorem sweepBinary_cons : sweepBinary pc 0 none (opcode :: rest) = lineAt pc opcode rest ::
    sweepBinary (pc + BitVec.ofNat 32 (listedLen opcode)) (listedLen opcode - 1) none rest := by
  rw [← lineAt_len pc opcode rest]
  rfl

end Lines

theorem lists_sweepBinary (pc : Word) (skip : Nat) (words : List Word) :
    Lists pc (words.drop skip) (sweepBinary pc skip none words) := by
  induction words generalizing pc skip with
  | nil => cases skip <;> exact .nil pc
  | cons opcode rest ih =>
    cases skip with
    | succ skip => exact ih pc skip
    | zero =>
      have hwords := words_lineAt pc opcode rest
      have htail := ih (pc + BitVec.ofNat 32 (listedLen opcode)) (listedLen opcode - 1)
      rw [sweepBinary_cons, List.drop_zero]
      rcases listedLen_cases opcode with h | h
      · rw [h] at hwords htail ⊢
        exact .cons hwords htail rfl rfl
      · rw [h] at hwords htail ⊢
        cases rest with
        | nil => exact .cons hwords (.nil _) rfl rfl
        | cons next rest => exact .cons hwords htail rfl rfl

/-- A limit cuts the listing off. -/
theorem sweepBinary_count (pc : Word) (skip n : Nat) (words : List Word) :
    sweepBinary pc skip (some n) words = (sweepBinary pc skip none words).take n := by
  induction words generalizing pc skip n with
  | nil => cases skip <;> exact List.take_nil.symm
  | cons opcode rest ih =>
    cases skip with
    | succ skip => exact ih pc skip n
    | zero =>
      cases n with
      | zero => rfl
      | succ n =>
        rw [sweepBinary_cons, List.take_succ_cons, ← ih, ← lineAt_len pc opcode rest]
        rfl

end Dsp56300
