import Dsp56300.Disasm.Length
import Dsp56300.Emu.InstructionClass
import Dsp56300.Lib.SortedMaps

/-! LOD text, and the sweep that lists its P words as instructions. -/

namespace Dsp56300

open Lib.SortedMaps

/-! The records of a text. -/

/-- Unicode white space. -/
def isWhitespace (c : Char) : Bool :=
  let n := c.toNat
  (9 ≤ n && n ≤ 13) || n = 0x20 || n = 0x85 || n = 0xA0 || n = 0x1680 || (0x2000 ≤ n && n ≤ 0x200A)
    || n = 0x2028 || n = 0x2029 || n = 0x202F || n = 0x205F || n = 0x3000

def splitWhitespace (line : List Char) : List (List Char) :=
  (line.splitOnP isWhitespace).filter fun part => part ≠ []

/-- `char::to_digit(16)`. -/
def hexDigit (c : Char) : Option Nat :=
  if '0' ≤ c ∧ c ≤ '9' then some (c.toNat - '0'.toNat)
  else if 'a' ≤ c ∧ c ≤ 'f' then some (c.toNat - 'a'.toNat + 10)
  else if 'A' ≤ c ∧ c ≤ 'F' then some (c.toNat - 'A'.toNat + 10)
  else none

/-- `u32::from_str_radix(s, 16)`: a sign may stand before the digits. -/
def fromStrRadix16 (s : List Char) : Option Word :=
  let digits := match s with
    | '+' :: rest => rest
    | _ => s
  if digits = [] then none
  else (digits.foldlM (fun n c => do
    let d ← hexDigit c
    if n * 16 + d < 2 ^ 32 then some (n * 16 + d) else none) 0).map (BitVec.ofNat 32)

/-- A line of LOD text: a P word, an X or Y address, or a symbol. -/
inductive LodRecord where
  | p (addr word : Word)
  | xy (addr : Word)
  | symbol (addr : Word) (name : String)

/-- The record of a line; a line of another shape has none. -/
def lodRecord (line : List Char) : Option LodRecord :=
  match splitWhitespace line with
  | [tag, second, third] =>
    if tag = ['P'] then do
      let addr ← fromStrRadix16 second
      let word ← fromStrRadix16 third
      some (.p addr word)
    else if tag = ['X'] ∨ tag = ['Y'] then (fromStrRadix16 second).map .xy
    else if tag = ['I'] then
      if ['m', '_'].isPrefixOf third then none
      else (fromStrRadix16 second).map (.symbol · (String.ofList third))
    else none
  | _ => none

/-- The records of a text, line by line. -/
def lodRecords (text : List Char) : List LodRecord :=
  (text.splitOnP (· = '\n')).filterMap lodRecord

def LodRecord.pWord : LodRecord → Option (Word × Word)
  | .p addr word => some (addr, word)
  | _ => none

/-- P words by address, and the names of an address. -/
structure Lod where
  pwords : SortedMap Word Word
  labels : Word → List String

/-- Parse LOD text into P-space words and symbols. Symbols carry no memory space: one is kept where
its address has a P word and no X or Y word. -/
def parseLod (text : List Char) : Lod :=
  let records := lodRecords text
  let pwords := SortedMap.ofList (records.filterMap LodRecord.pWord)
  let inXy (addr : Word) := records.any fun
    | .xy a => a = addr
    | _ => false
  { pwords
    labels := fun addr =>
      if pwords.entries.any (·.1 = addr) && !inXy addr then
        records.filterMap fun
          | .symbol a name => if a = addr then some name else none
          | _ => none
      else [] }

/-! The sweep. -/

/-- An instruction of the listing, with what is printed before it. -/
structure Listed where
  gap : Bool
  labels : List String
  pc : Word
  opcode : Word
  nextWord : Word
  hasNext : Bool
  text : String
  len : Nat

/-- `{:06X}`. -/
def upperHex (v : Word) : String := (hex 6 v).toUpper

/-- What is printed, without colors: a blank line between regions, the labels, the instruction. -/
def Listed.lines (e : Listed) : List String :=
  let hexCol := if e.len = 2 && e.hasNext then s!"{upperHex e.opcode} {upperHex e.nextWord}"
    else s!"{upperHex e.opcode}       "
  (if e.gap then [""] else []) ++ e.labels.map (· ++ ":") ++
    [s!"P:${upperHex e.pc}  {hexCol}  {e.text}"]

/-- The words from an index on, the address before it, how many words the index has to pass, and
how many instructions may still be listed. -/
def sweep (lod : Lod) (prev : Option Word) : Nat → Option Nat → List (Word × Word) → List Listed
  | _, _, [] => []
  | skip + 1, count, (pc, _) :: rest => sweep lod (some pc) skip count rest
  | 0, count, (pc, opcode) :: rest =>
    if count = some 0 then []
    else
      let next := rest.head?.filter fun p => p.1 = pc + 1
      let nextWord := (next.map (·.2)).getD 0
      let (text, len) := disassembleWithSymbols pc opcode nextWord fun a => (lod.labels a).head?
      { gap := prev.any fun a => a + 1 ≠ pc
        labels := lod.labels pc
        pc, opcode, nextWord, text, len
        hasNext := next.isSome } ::
      sweep lod (some pc) (len - 1) (count.map (· - 1)) rest

def disassembleLod (text : List Char) (count : Option Nat) : List Listed :=
  let lod := parseLod text
  sweep lod none 0 count lod.pwords.entries

/-- How many words the opcode at an address takes. -/
def listedLen (opcode : Word) : Nat :=
  if (decode opcode).isUndefinedParallel then 1 else instructionLength (decode opcode)

theorem listedLen_cases (opcode : Word) : listedLen opcode = 1 ∨ listedLen opcode = 2 := by
  unfold listedLen
  split
  · exact .inl rfl
  · have hpos := Instruction.instructionLength_pos (decode opcode)
    have hle := Instruction.instructionLength_le_two (decode opcode)
    omega

/-- The words of a text: the last one at each address. -/
def IsPWord (text : List Char) (addr word : Word) : Prop :=
  LastOf ((lodRecords text).filterMap LodRecord.pWord) (addr, word)

/-- The word at an address is printed in the line, as its opcode or as its second word. -/
def Listed.Accounts (e : Listed) (p : Word × Word) : Prop :=
  (e.pc = p.1 ∧ e.opcode = p.2) ∨
    (e.len = 2 ∧ e.hasNext ∧ e.pc.toNat + 1 = p.1.toNat ∧ e.nextWord = p.2)

/-- A listing of words: in order, of these words only, and of each of them once. -/
structure SweptOnce (holds : Word × Word → Prop) (out : List Listed) : Prop where
  increasing : out.Pairwise fun e e' => e.pc < e'.pc
  opcode : ∀ e ∈ out, holds (e.pc, e.opcode)
  second : ∀ e ∈ out, e.len = 2 → e.hasNext → holds (e.pc + 1, e.nextWord)
  once : ∀ p, holds p → ∃! e, e ∈ out ∧ e.Accounts p

/-- Read from the first word of each region, no region but the last ends within an instruction. -/
def WholeRegions : List (Word × Word) → Prop
  | [] | [_] => True
  | (pc, opcode) :: (addr, word) :: rest =>
    if listedLen opcode = 2 then addr = pc + 1 ∧ WholeRegions rest
    else WholeRegions ((addr, word) :: rest)

theorem shown_len (pc opcode nextWord : Word) (symbols : SymbolTable) :
    (disassembleWithSymbols pc opcode nextWord symbols).2 = listedLen opcode :=
  disassembleInst_length (decode_eaOk opcode) pc nextWord opcode symbols

section Steps

variable (lod : Lod) (prev : Option Word) {pc opcode : Word} {rest : List (Word × Word)}

/-- The line of the word at an index. -/
def listedAt (pc opcode : Word) (rest : List (Word × Word)) : Listed :=
  let next := rest.head?.filter fun p => p.1 = pc + 1
  let nextWord := (next.map (·.2)).getD 0
  let shown := disassembleWithSymbols pc opcode nextWord fun a => (lod.labels a).head?
  { gap := prev.any fun a => a + 1 ≠ pc
    labels := lod.labels pc
    pc, opcode, nextWord
    text := shown.1
    len := shown.2
    hasNext := next.isSome }

theorem listedAt_len : (listedAt lod prev pc opcode rest).len = listedLen opcode :=
  shown_len pc opcode _ _

theorem sweep_cons : sweep lod prev 0 none ((pc, opcode) :: rest) =
    listedAt lod prev pc opcode rest ::
      sweep lod (some pc) (listedLen opcode - 1) none rest := by
  rw [← @listedAt_len lod prev pc opcode rest]
  rfl

theorem sweep_skip {p : Word × Word} :
    sweep lod prev 1 none (p :: rest) = sweep lod (some p.1) 0 none rest := rfl

/-- Only words of the text are listed. -/
theorem mem_sweep {skip : Nat} {words : List (Word × Word)} {e : Listed}
    (h : e ∈ sweep lod prev skip none words) : (e.pc, e.opcode) ∈ words := by
  induction words generalizing prev skip with
  | nil => cases skip <;> exact absurd h List.not_mem_nil
  | cons p rest ih =>
    cases skip with
    | succ skip => exact List.mem_cons_of_mem _ (ih _ h)
    | zero =>
      rw [sweep_cons] at h
      rcases List.mem_cons.mp h with rfl | h
      · exact List.mem_cons_self
      · exact List.mem_cons_of_mem _ (ih _ h)

/-- A second word that is printed is the word at the next address. -/
theorem mem_sweep_second {skip : Nat} {words : List (Word × Word)} {e : Listed}
    (h : e ∈ sweep lod prev skip none words) (hnext : e.hasNext) :
    (e.pc + 1, e.nextWord) ∈ words := by
  induction words generalizing prev skip with
  | nil => cases skip <;> exact absurd h List.not_mem_nil
  | cons p rest ih =>
    cases skip with
    | succ skip => exact List.mem_cons_of_mem _ (ih _ h)
    | zero =>
      rw [sweep_cons] at h
      rcases List.mem_cons.mp h with rfl | h
      · obtain ⟨q, hq⟩ := Option.isSome_iff_exists.mp hnext
        have hword : (listedAt lod prev p.1 p.2 rest).nextWord = q.2 :=
          congrArg (fun o : Option (Word × Word) => (o.map Prod.snd).getD 0) hq
        obtain ⟨hhead, haddr⟩ := Option.filter_eq_some_iff.mp hq
        have hpair : (p.1 + 1, q.2) = q := Prod.ext (of_decide_eq_true haddr).symm rfl
        rw [hword]
        change (p.1 + 1, q.2) ∈ p :: rest
        rw [hpair]
        exact List.mem_cons_of_mem _ (List.mem_of_mem_head? hhead)
      · exact List.mem_cons_of_mem _ (ih _ h)

theorem sweep_increasing {skip : Nat} {words : List (Word × Word)}
    (h : words.Pairwise fun p q => p.1 < q.1) :
    (sweep lod prev skip none words).Pairwise fun e e' => e.pc < e'.pc := by
  induction words generalizing prev skip with
  | nil => cases skip <;> exact List.Pairwise.nil
  | cons p rest ih =>
    obtain ⟨hp, hrest⟩ := List.pairwise_cons.mp h
    cases skip with
    | succ skip => exact ih _ hrest
    | zero =>
      rw [sweep_cons]
      refine List.pairwise_cons.mpr ⟨fun e he => ?_, ih _ hrest⟩
      exact hp _ (mem_sweep lod _ he)

end Steps

theorem not_accounts_of_lt {e : Listed} {p : Word × Word} (h : p.1 < e.pc) : ¬ e.Accounts p := by
  have hlt : p.1.toNat < e.pc.toNat := h
  intro hacc
  rcases hacc with ⟨hpc, -⟩ | ⟨-, -, hpc, -⟩
  · rw [hpc] at hlt
    exact Nat.lt_irrefl _ hlt
  · omega

/-- Each word is accounted for once by one line more. -/
def OnceIn (words : List (Word × Word)) (out : List Listed) : Prop :=
  ∀ p ∈ words, ∃! e, e ∈ out ∧ e.Accounts p

/-- A line accounts for words of its own, and the others for the rest. -/
theorem onceIn_cons {own rest : List (Word × Word)} {e : Listed} {out : List Listed}
    (hown : ∀ p ∈ own, e.Accounts p) (hrest : ∀ p ∈ rest, ¬ e.Accounts p)
    (hout : ∀ e' ∈ out, ∀ p ∈ own, ¬ e'.Accounts p) :
    OnceIn (own ++ rest) (e :: out) ↔ OnceIn rest out := by
  constructor
  · intro h p hp
    obtain ⟨e', ⟨he', hacc⟩, huniq⟩ := h p (List.mem_append_right _ hp)
    have hmem : e' ∈ out := (List.mem_cons.mp he').resolve_left fun heq => hrest p hp (heq ▸ hacc)
    exact ⟨e', ⟨hmem, hacc⟩, fun d hd => huniq d ⟨List.mem_cons_of_mem _ hd.1, hd.2⟩⟩
  · intro h p hp
    rcases List.mem_append.mp hp with hp | hp
    · refine ⟨e, ⟨List.mem_cons_self, hown p hp⟩, fun d hd => ?_⟩
      exact (List.mem_cons.mp hd.1).resolve_right fun hmem => hout d hmem p hp hd.2
    · obtain ⟨e', ⟨he', hacc⟩, huniq⟩ := h p hp
      refine ⟨e', ⟨List.mem_cons_of_mem _ he', hacc⟩, fun d hd => ?_⟩
      have hmem := (List.mem_cons.mp hd.1).resolve_left fun heq => hrest p hp (heq ▸ hd.2)
      exact huniq d ⟨hmem, hd.2⟩

/-- The sweep of sorted words lists each once exactly where their regions are whole. -/
theorem onceIn_sweep_iff (lod : Lod) (prev : Option Word) {words : List (Word × Word)}
    (h : words.Pairwise fun p q => p.1 < q.1) :
    OnceIn words (sweep lod prev 0 none words) ↔ WholeRegions words := by
  induction words using WholeRegions.induct generalizing prev with
  | case1 => exact ⟨fun _ => trivial, fun _ p hp => absurd hp List.not_mem_nil⟩
  | case2 p =>
    have honce := @onceIn_cons [p] [] (listedAt lod prev p.1 p.2 []) []
      (fun q hq => .inl (by rw [List.mem_singleton.mp hq]; exact ⟨rfl, rfl⟩))
      (fun _ hq => absurd hq List.not_mem_nil) (fun _ he => absurd he List.not_mem_nil)
    have hnil (skip : Nat) : sweep lod (some p.1) skip none [] = [] := by cases skip <;> rfl
    rw [sweep_cons, hnil]
    exact ⟨fun _ => trivial, fun _ => honce.mpr fun _ hq => absurd hq List.not_mem_nil⟩
  | case3 pc opcode addr word rest hlen ih =>
    obtain ⟨hp, hrest⟩ := List.pairwise_cons.mp h
    obtain ⟨hq, hrest'⟩ := List.pairwise_cons.mp hrest
    have hlt : pc.toNat < addr.toNat := hp (addr, word) List.mem_cons_self
    rw [sweep_cons, hlen, sweep_skip, WholeRegions, if_pos hlen]
    have hpc : (listedAt lod prev pc opcode ((addr, word) :: rest)).pc = pc := rfl
    have hlist : (listedAt lod prev pc opcode ((addr, word) :: rest)).len = 2 :=
      (listedAt_len lod prev).trans hlen
    by_cases haddr : addr = pc + 1
    · have hnext : pc.toNat + 1 = addr.toNat := by
        have h1 : (1 : Word).toNat = 1 := rfl
        rw [haddr, BitVec.toNat_add, h1] at hlt ⊢
        omega
      have hfound : (some (addr, word)).filter (fun p => p.1 = pc + 1) = some (addr, word) :=
        Option.filter_eq_some_iff.mpr ⟨rfl, decide_eq_true haddr⟩
      rw [and_iff_right haddr, ← ih _ hrest']
      refine @onceIn_cons [(pc, opcode), (addr, word)] _ _ _ ?_ ?_ ?_
      · intro q hq
        rcases List.mem_pair.mp hq with rfl | rfl
        · exact .inl ⟨rfl, rfl⟩
        · refine .inr ⟨hlist, ?_, hnext, ?_⟩
          · exact congrArg Option.isSome hfound
          · exact congrArg (fun o : Option (Word × Word) => (o.map Prod.snd).getD 0) hfound
      · intro q hmem hacc
        have hafter : addr.toNat < q.1.toNat := hq q hmem
        rcases hacc with ⟨hpc, -⟩ | ⟨-, -, hpc, -⟩
        · rw [← hpc] at hafter
          exact absurd hafter (Nat.lt_asymm hlt)
        · exact absurd (hpc.symm.trans hnext) (Nat.ne_of_gt hafter)
      · intro e he q hmem
        have hlast := hq _ (mem_sweep lod _ he)
        rcases List.mem_pair.mp hmem with rfl | rfl
        · exact not_accounts_of_lt (BitVec.lt_trans hlt hlast)
        · exact not_accounts_of_lt hlast
    · refine ⟨fun honce => ?_, fun hwhole => absurd hwhole.1 haddr⟩
      exfalso
      obtain ⟨e, ⟨he, hacc⟩, -⟩ := honce (addr, word) (List.mem_cons_of_mem _ List.mem_cons_self)
      rcases List.mem_cons.mp he with rfl | he
      · rcases hacc with ⟨hpc, -⟩ | ⟨-, hnext, -⟩
        · have heq : pc = addr := hpc
          exact absurd hlt (heq ▸ Nat.lt_irrefl _)
        · obtain ⟨p, hp⟩ := Option.isSome_iff_exists.mp hnext
          obtain ⟨hhead, hfound⟩ := Option.filter_eq_some_iff.mp hp
          cases hhead
          exact haddr (of_decide_eq_true hfound)
      · exact not_accounts_of_lt (hq _ (mem_sweep lod _ he)) hacc
  | case4 pc opcode addr word rest hlen ih =>
    obtain ⟨hp, hrest⟩ := List.pairwise_cons.mp h
    have hone := (listedLen_cases opcode).resolve_right hlen
    rw [sweep_cons, hone, WholeRegions, if_neg hlen, ← ih _ hrest]
    refine @onceIn_cons [(pc, opcode)] _ _ _ ?_ ?_ ?_
    · intro q hq
      rw [List.mem_singleton.mp hq]
      exact .inl ⟨rfl, rfl⟩
    · intro q hq hacc
      have hlt : pc.toNat < q.1.toNat := hp q hq
      rcases hacc with ⟨hpc, -⟩ | ⟨hlen2, -⟩
      · exact absurd hlt (hpc ▸ Nat.lt_irrefl _)
      · rw [listedAt_len] at hlen2
        exact hlen hlen2
    · intro e he q hq
      rw [List.mem_singleton.mp hq]
      exact not_accounts_of_lt (hp _ (mem_sweep lod _ he))

theorem isPWord_iff (text : List Char) (p : Word × Word) :
    IsPWord text p.1 p.2 ↔ p ∈ (parseLod text).pwords.entries := SortedMap.mem_ofList.symm

theorem wholeRegions_of_swept {text : List Char}
    (h : SweptOnce (fun p => IsPWord text p.1 p.2) (disassembleLod text none)) :
    WholeRegions (parseLod text).pwords.entries := by
  rw [← onceIn_sweep_iff (parseLod text) none (parseLod text).pwords.sorted]
  intro p hp
  exact h.once p ((isPWord_iff text p).mpr hp)

/-- Every P word of a text is listed once, in order and as it is, exactly where its regions are
whole. -/
theorem disassembleLod_sweeps (text : List Char) :
    SweptOnce (fun p => IsPWord text p.1 p.2) (disassembleLod text none) ↔
      WholeRegions (parseLod text).pwords.entries := by
  have hsorted := (parseLod text).pwords.sorted
  refine ⟨wholeRegions_of_swept, fun h => ?_⟩
  rw [← onceIn_sweep_iff (parseLod text) none hsorted] at h
  refine ⟨sweep_increasing _ _ hsorted, fun e he => ?_, fun e he _ hnext => ?_, fun p hp => ?_⟩
  · exact (isPWord_iff text _).mpr (mem_sweep _ _ he)
  · exact (isPWord_iff text _).mpr (mem_sweep_second _ _ he hnext)
  · exact h p ((isPWord_iff text p).mp hp)

/-- A move with a second word cut off by the end of its region, and another region. -/
def cutRegion : List Char := "P 0 56F000\nP 100 200000\nP 101 200013\n".toList

theorem cutRegion_words : (parseLod cutRegion).pwords.entries =
    [(0, 0x56F000), (0x100, 0x200000), (0x101, 0x200013)] := by decide

theorem cutRegion_len : listedLen 0x56F000 = 2 ∧ listedLen 0x200013 = 1 := by
  have hmove : decode 0x56F000 = .parallel .move .pm5 0x56F000 := rfl
  have hclr : decode 0x200013 = .parallel (.clr .a) .pm2 0x200013 := rfl
  rw [listedLen, listedLen, hmove, hclr]
  exact ⟨rfl, rfl⟩

theorem cutRegion_listing : (disassembleLod cutRegion none).map (·.pc) = [0, 0x101] := by
  rw [disassembleLod, cutRegion_words, sweep_cons, cutRegion_len.1, sweep_skip, sweep_cons,
    cutRegion_len.2]
  rfl

/-- The first word of the second region is passed over. -/
theorem cutRegion_skips :
    (disassembleLod cutRegion none).map (·.pc) = [0, 0x101] ∧ IsPWord cutRegion 0x100 0x200000 ∧
      ¬ SweptOnce (fun p => IsPWord cutRegion p.1 p.2) (disassembleLod cutRegion none) := by
  have hfirst : ((0x100, 0x200000) : Word × Word) ∈ (parseLod cutRegion).pwords.entries := by
    rw [cutRegion_words]
    decide
  refine ⟨cutRegion_listing, (isPWord_iff cutRegion (0x100, 0x200000)).mpr hfirst, ?_⟩
  intro h
  have hwhole := wholeRegions_of_swept h
  rw [cutRegion_words, WholeRegions, if_pos cutRegion_len.1] at hwhole
  have haddr : (0x100 : Word) = 0 + 1 := hwhole.1
  exact absurd haddr (by decide)

end Dsp56300
