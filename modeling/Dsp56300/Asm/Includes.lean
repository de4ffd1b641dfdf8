import Dsp56300.Asm.ParseProgram
import Dsp56300.Lib.Chains
import Dsp56300.Lib.Results
import Mathlib.Data.Set.Finite.Range

/-! Include directives, replaced by the statements of their files. -/

namespace Dsp56300.Asm

open Lib.Results Lib.Chains

set_option linter.constructorNameAsVariable false

structure ParseError where
  line : Nat
  msg : String
  deriving DecidableEq

/-- The file system, as the operations the expansion uses of it. -/
structure Files (Path : Type) where
  join : Path → String → Path
  present : Path → Bool
  /-- The text of a file, or the error of reading it. -/
  readToString : Path → Except String (List Char)
  /-- The directory of a file, or the current one. -/
  parent : Path → Path
  fileName : Path → String
  display : Path → String

section Expansion

variable {Path : Type} (fs : Files Path)
  (program : List Char → Except ParseError (List Statement)) (includeDirs : List Path)

/-- Parse a complete assembly source. -/
def parseSource (source : List Char) : Except ParseError SourceProgram := do
  let statements ← program source
  .ok (withSourceLines source statements)

/-- Find an include file in the base directory or else in one of the include directories. -/
def resolveInclude (name : String) (baseDir : Path) : Option Path :=
  ((baseDir :: includeDirs).map (fs.join · name)).find? fs.present

/-- The path of the include at index `i`. -/
def findInclude (i : Nat) (name : String) (baseDir : Path) : Except ParseError Path :=
  match resolveInclude fs includeDirs name baseDir with
  | some path => .ok path
  | none =>
    let searched := ", ".intercalate ((baseDir :: includeDirs).map fs.display)
    .error ⟨i + 1, s!"cannot find '{name}' (searched: {searched})"⟩

/-- The text of the include at index `i`. -/
def readInclude (i : Nat) (path : Path) : Except ParseError (List Char) :=
  match fs.readToString path with
  | .ok source => .ok source
  | .error e => .error ⟨i + 1, s!"cannot include '{fs.display path}': {e}"⟩

/-- Lines of no file are given one. -/
def SourceProgram.nameLines (p : SourceProgram) (file : String) : SourceProgram :=
  { p with sourceLines := p.sourceLines.map fun origin =>
      if origin.file = "" then { origin with file } else origin }

/-- The program of the include at index `i`, with the directory its own includes start from. -/
def openInclude (i : Nat) (name : String) (baseDir : Path) :
    Except ParseError (Path × SourceProgram) := do
  let path ← findInclude fs includeDirs i name baseDir
  let source ← readInclude fs i path
  let inc ← parseSource program source
  .ok (fs.parent path, inc.nameLines (fs.fileName path))

/-- `splice(i..=i, new)`. -/
def spliceAt {α : Type} (l : List α) (i : Nat) (new : List α) : List α :=
  l.take i ++ new ++ l.drop (i + 1)

/-- Expand the includes from index `i` on. Nothing bounds the recursion into included files: with
too little fuel there is no result. -/
def expandIncludes : Nat → Path → Nat → SourceProgram → Option (Except ParseError SourceProgram)
  | 0, _, _, _ => none
  | fuel + 1, baseDir, i, prog =>
    match prog.statements[i]? with
    | none => some (.ok prog)
    | some (.directive _ (.include_ name)) =>
      match openInclude fs program includeDirs i name baseDir with
      | .error e => some (.error e)
      | .ok (incBase, inc) =>
        match expandIncludes fuel incBase 0 inc with
        | none => none
        | some (.error e) => some (.error e)
        | some (.ok inc) =>
          expandIncludes fuel baseDir i ⟨spliceAt prog.statements i inc.statements,
            spliceAt prog.sourceLines i inc.sourceLines⟩
    | some _ => expandIncludes fuel baseDir (i + 1) prog

end Expansion

/-! Programs with one source line a statement. -/

/-- A statement and where it comes from. -/
abbrev SourceLine := Statement × SourceOrigin

/-- The name in an include directive. -/
def Statement.includeName : Statement → Option String
  | .directive _ (.include_ name) => some name
  | _ => none

/-- The files a list of lines includes, in order. -/
def includeNames (lines : List SourceLine) : List String := lines.filterMap (·.1.includeName)

namespace SourceProgram

/-- The program of some lines. -/
def ofLines (lines : List SourceLine) : SourceProgram := ⟨lines.map Prod.fst, lines.map Prod.snd⟩

def lines (p : SourceProgram) : List SourceLine := p.statements.zip p.sourceLines

/-- One source line a statement. -/
def Aligned (p : SourceProgram) : Prop := p.sourceLines.length = p.statements.length

theorem ofLines_aligned (ls : List SourceLine) : (ofLines ls).Aligned := by
  simp [Aligned, ofLines]

@[simp] theorem lines_ofLines (ls : List SourceLine) : (ofLines ls).lines = ls :=
  (List.zip_of_prod rfl rfl).symm

theorem Aligned.ofLines {p : SourceProgram} (h : p.Aligned) : ofLines p.lines = p := by
  have hs : p.lines.map Prod.fst = p.statements := List.map_fst_zip h.ge
  have hl : p.lines.map Prod.snd = p.sourceLines := List.map_snd_zip h.le
  rw [SourceProgram.ofLines, hs, hl]

end SourceProgram

theorem withSourceLines_aligned (source : List Char) (statements : List Statement) :
    (withSourceLines source statements).Aligned := by
  simp [SourceProgram.Aligned, withSourceLines]

section Graph

variable {Path : Type} {fs : Files Path}
  {program : List Char → Except ParseError (List Statement)} {includeDirs : List Path}

variable (fs program includeDirs) in
/-- An include that is found, read and parsed, and what it opens. -/
def Opens (baseDir : Path) (name : String) (incBase : Path) (inc : SourceProgram) : Prop :=
  ∃ path source statements, resolveInclude fs includeDirs name baseDir = some path ∧
    fs.readToString path = .ok source ∧ program source = .ok statements ∧
    fs.parent path = incBase ∧ (withSourceLines source statements).nameLines (fs.fileName path) = inc

/-- The index is of use for errors only. -/
theorem openInclude_ok_iff {baseDir incBase : Path} {name : String} {inc : SourceProgram} {i : Nat} :
    openInclude fs program includeDirs i name baseDir = .ok (incBase, inc) ↔
      Opens fs program includeDirs baseDir name incBase inc := by
  have hfind (path : Path) : findInclude fs includeDirs i name baseDir = .ok path ↔
      resolveInclude fs includeDirs name baseDir = some path := by
    unfold findInclude
    cases resolveInclude fs includeDirs name baseDir with
    | none => exact ⟨nofun, nofun⟩
    | some p => simp
  have hread (path : Path) (source : List Char) : readInclude fs i path = .ok source ↔
      fs.readToString path = .ok source := by
    unfold readInclude
    cases fs.readToString path with
    | error e => exact ⟨nofun, nofun⟩
    | ok text => simp
  simp only [openInclude, parseSource, Opens, bind_eq_ok, hfind, hread, Except.ok.injEq,
    Prod.mk.injEq]
  constructor
  · intro ⟨path, hp, source, hs, _, ⟨statements, hst, rfl⟩, hb, hi⟩
    exact ⟨path, source, statements, hp, hs, hst, hb, hi⟩
  · intro ⟨path, source, statements, hp, hs, hst, hb, hi⟩
    exact ⟨path, hp, source, hs, _, ⟨statements, hst, rfl⟩, hb, hi⟩

theorem Opens.aligned {baseDir incBase : Path} {name : String} {inc : SourceProgram}
    (h : Opens fs program includeDirs baseDir name incBase inc) : inc.Aligned := by
  obtain ⟨path, source, statements, -, -, -, -, rfl⟩ := h
  exact (List.length_map _).trans (withSourceLines_aligned source statements)

theorem Opens.unique {baseDir incBase incBase' : Path} {name : String} {inc inc' : SourceProgram}
    (h : Opens fs program includeDirs baseDir name incBase inc)
    (h' : Opens fs program includeDirs baseDir name incBase' inc') :
    incBase = incBase' ∧ inc = inc' := by
  have heq := (openInclude_ok_iff (i := 0).mpr h).symm.trans (openInclude_ok_iff.mpr h')
  exact Prod.mk.inj (Except.ok.inj heq)

variable (fs program includeDirs) in
/-- Lines with every include replaced, in place, by the expanded lines of its file. -/
inductive Expanded : Path → List SourceLine → List SourceLine → Prop where
  | nil (baseDir : Path) : Expanded baseDir [] []
  | keep {baseDir : Path} {line : SourceLine} {rest out : List SourceLine}
      (hline : line.1.includeName = none) (hrest : Expanded baseDir rest out) :
      Expanded baseDir (line :: rest) (line :: out)
  | splice {baseDir incBase : Path} {line : SourceLine} {name : String} {inc : SourceProgram}
      {rest expanded out : List SourceLine} (hline : line.1.includeName = some name)
      (hopen : Opens fs program includeDirs baseDir name incBase inc)
      (hinc : Expanded incBase inc.lines expanded) (hrest : Expanded baseDir rest out) :
      Expanded baseDir (line :: rest) (expanded ++ out)

/-- A directory, and the includes that are resolved from there. -/
abbrev Node (Path : Type) := Path × List String

variable (fs program includeDirs) in
/-- All includes can be opened, and so on in their files, down to files without includes. -/
inductive Complete : Node Path → Prop where
  | nil (baseDir : Path) : Complete (baseDir, [])
  | cons {baseDir incBase : Path} {name : String} {names : List String} {inc : SourceProgram}
      (hopen : Opens fs program includeDirs baseDir name incBase inc)
      (hinc : Complete (incBase, includeNames inc.lines)) (hrest : Complete (baseDir, names)) :
      Complete (baseDir, name :: names)

variable (fs program includeDirs) in
/-- The file of an include is visited where all includes before it are complete. -/
def Visits (n m : Node Path) : Prop :=
  ∃ pre name post inc, n.2 = pre ++ name :: post ∧ Complete fs program includeDirs (n.1, pre) ∧
    Opens fs program includeDirs n.1 name m.1 inc ∧ m.2 = includeNames inc.lines

/-! One turn of the loop, on the lines before the index and those from it on. -/

section Turns

variable {baseDir : Path} {fuel : Nat} {done rest : List SourceLine} {line : SourceLine}

theorem statement_at : (SourceProgram.ofLines (done ++ rest)).statements[done.length]? =
    rest.head?.map Prod.fst := by
  simp [SourceProgram.ofLines, List.getElem?_append_right, List.head?_eq_getElem?]

theorem spliceAt_append {α : Type} (l : List α) (x : α) (r new : List α) :
    spliceAt (l ++ x :: r) l.length new = l ++ (new ++ r) := by
  have hdrop : (l ++ x :: r).drop (l.length + 1) = r := by
    rw [List.drop_append, List.drop_of_length_le (by omega), List.nil_append,
      Nat.add_sub_cancel_left]
    rfl
  rw [spliceAt, List.take_left, hdrop, List.append_assoc]

theorem expand_done : expandIncludes fs program includeDirs (fuel + 1) baseDir done.length
    (.ofLines (done ++ [])) = some (.ok (.ofLines done)) := by
  rw [expandIncludes, statement_at, List.append_nil]
  rfl

theorem expand_keep (h : line.1.includeName = none) :
    expandIncludes fs program includeDirs (fuel + 1) baseDir done.length
        (.ofLines (done ++ line :: rest)) =
      expandIncludes fs program includeDirs fuel baseDir (done ++ [line]).length
        (.ofLines ((done ++ [line]) ++ rest)) := by
  rw [expandIncludes, statement_at, List.length_append, List.append_assoc]
  obtain ⟨stmt, origin⟩ := line
  cases stmt with
  | directive label dir =>
    cases dir with
    | include_ name => exact absurd h nofun
    | _ => rfl
  | _ => rfl

theorem expand_include {name : String} (h : line.1.includeName = some name) :
    expandIncludes fs program includeDirs (fuel + 1) baseDir done.length
        (.ofLines (done ++ line :: rest)) =
      match openInclude fs program includeDirs done.length name baseDir with
      | .error e => some (.error e)
      | .ok (incBase, inc) =>
        match expandIncludes fs program includeDirs fuel incBase 0 inc with
        | none => none
        | some (.error e) => some (.error e)
        | some (.ok inc) =>
          expandIncludes fs program includeDirs fuel baseDir done.length
            ⟨done.map Prod.fst ++ (inc.statements ++ rest.map Prod.fst),
              done.map Prod.snd ++ (inc.sourceLines ++ rest.map Prod.snd)⟩ := by
  have hs (new : List Statement) : spliceAt ((done ++ line :: rest).map Prod.fst) done.length new =
      done.map Prod.fst ++ (new ++ rest.map Prod.fst) := by
    rw [List.map_append, List.map_cons, ← @List.length_map _ _ done Prod.fst]
    exact spliceAt_append ..
  have hl (new : List SourceOrigin) :
      spliceAt ((done ++ line :: rest).map Prod.snd) done.length new =
        done.map Prod.snd ++ (new ++ rest.map Prod.snd) := by
    rw [List.map_append, List.map_cons, ← @List.length_map _ _ done Prod.snd]
    exact spliceAt_append ..
  rw [expandIncludes, statement_at]
  simp only [SourceProgram.ofLines, hs, hl]
  obtain ⟨stmt, origin⟩ := line
  cases stmt with
  | directive label dir =>
    cases dir with
    | include_ path =>
      cases h
      rfl
    | _ => exact absurd h nofun
  | _ => exact absurd h nofun

end Turns

/-! Lines without includes. -/

/-- No line is an include. -/
def Plain (lines : List SourceLine) : Prop := ∀ line ∈ lines, line.1.includeName = none

theorem includeNames_plain {plain : List SourceLine} (h : Plain plain) (rest : List SourceLine) :
    includeNames (plain ++ rest) = includeNames rest := by
  have hnil : includeNames plain = [] := List.filterMap_eq_nil_iff.mpr h
  rw [includeNames, List.filterMap_append]
  exact (congrArg (· ++ includeNames rest) hnil)

theorem Expanded.of_plain {baseDir : Path} {plain rest out : List SourceLine} (hp : Plain plain)
    (h : Expanded fs program includeDirs baseDir (plain ++ rest) out) :
    ∃ out', out = plain ++ out' ∧ Expanded fs program includeDirs baseDir rest out' := by
  induction plain generalizing out with
  | nil => exact ⟨out, rfl, h⟩
  | cons line plain ih =>
    have hline := hp line List.mem_cons_self
    cases h with
    | keep _ hrest =>
      obtain ⟨out', rfl, h'⟩ := ih (fun l hl => hp l (List.mem_cons_of_mem _ hl)) hrest
      exact ⟨out', rfl, h'⟩
    | splice hname => exact absurd (hline.symm.trans hname) nofun

/-! What a result says. -/

section Results

/-- A result stays the result with more fuel. -/
theorem expand_more {fuel : Nat} {baseDir : Path} {i : Nat} {prog : SourceProgram}
    {r : Except ParseError SourceProgram}
    (h : expandIncludes fs program includeDirs fuel baseDir i prog = some r) :
    expandIncludes fs program includeDirs (fuel + 1) baseDir i prog = some r := by
  induction fuel generalizing baseDir i prog r with
  | zero => exact absurd h nofun
  | succ fuel ih =>
    rw [expandIncludes] at h ⊢
    split at h
    · exact h
    · next label name hstmt =>
      cases hopen : openInclude fs program includeDirs i name baseDir with
      | error e =>
        simp only [hopen] at h
        exact h
      | ok opened =>
        obtain ⟨incBase, inc⟩ := opened
        simp only [hopen] at h ⊢
        cases hinc : expandIncludes fs program includeDirs fuel incBase 0 inc with
        | none => exact absurd h (by simp [hinc])
        | some r' =>
          rw [ih hinc]
          rw [hinc] at h
          cases r' with
          | error e => exact h
          | ok inc' => exact ih h
    · exact ih h

theorem expand_le {fuel fuel' : Nat} {baseDir : Path} {i : Nat} {prog : SourceProgram}
    {r : Except ParseError SourceProgram} (hle : fuel ≤ fuel')
    (h : expandIncludes fs program includeDirs fuel baseDir i prog = some r) :
    expandIncludes fs program includeDirs fuel' baseDir i prog = some r := by
  induction hle with
  | refl => exact h
  | step _ ih => exact expand_more ih

variable {fuel : Nat} {baseDir : Path} {done rest : List SourceLine} {line : SourceLine}
  {name : String} {r : Except ParseError SourceProgram}

theorem includeNames_keep (h : line.1.includeName = none) :
    includeNames (line :: rest) = includeNames rest := List.filterMap_cons_none h

theorem includeNames_include (h : line.1.includeName = some name) :
    includeNames (line :: rest) = name :: includeNames rest := List.filterMap_cons_some h

/-- The turn at an include that cannot be opened. -/
theorem expand_unopened (h : line.1.includeName = some name) {e : ParseError}
    (he : openInclude fs program includeDirs done.length name baseDir = .error e) :
    expandIncludes fs program includeDirs (fuel + 1) baseDir done.length
      (.ofLines (done ++ line :: rest)) = some (.error e) := by
  rw [expand_include h, he]

/-- The turn at an include that can be opened: its lines are expanded first. -/
theorem expand_opened (h : line.1.includeName = some name) {incBase : Path} {inc : SourceProgram}
    (ho : Opens fs program includeDirs baseDir name incBase inc) :
    expandIncludes fs program includeDirs (fuel + 1) baseDir done.length
        (.ofLines (done ++ line :: rest)) =
      match expandIncludes fs program includeDirs fuel incBase 0 (.ofLines inc.lines) with
      | none => none
      | some (.error e) => some (.error e)
      | some (.ok inc') =>
        expandIncludes fs program includeDirs fuel baseDir done.length
          ⟨done.map Prod.fst ++ (inc'.statements ++ rest.map Prod.fst),
            done.map Prod.snd ++ (inc'.sourceLines ++ rest.map Prod.snd)⟩ := by
  rw [expand_include h, openInclude_ok_iff.mpr ho, ho.aligned.ofLines]

theorem splice_ofLines (done expanded rest : List SourceLine) :
    (⟨done.map Prod.fst ++ ((SourceProgram.ofLines expanded).statements ++ rest.map Prod.fst),
      done.map Prod.snd ++ ((SourceProgram.ofLines expanded).sourceLines ++ rest.map Prod.snd)⟩ :
      SourceProgram) = .ofLines (done ++ (expanded ++ rest)) := by
  simp [SourceProgram.ofLines]

/-- Statements and source lines stay in step. -/
theorem aligned_of_ok {p : SourceProgram}
    (h : expandIncludes fs program includeDirs fuel baseDir done.length (.ofLines (done ++ rest)) =
      some (.ok p)) : ∃ out, p = .ofLines out := by
  induction fuel generalizing baseDir done rest p with
  | zero => exact absurd h nofun
  | succ fuel ih =>
    cases rest with
    | nil =>
      rw [expand_done] at h
      exact ⟨done, (Except.ok.inj (Option.some.inj h)).symm⟩
    | cons line rest =>
      cases hline : line.1.includeName with
      | none =>
        rw [expand_keep hline] at h
        exact ih h
      | some name =>
        cases hopen : openInclude fs program includeDirs done.length name baseDir with
        | error e => exact absurd ((expand_unopened hline hopen).symm.trans h) nofun
        | ok opened =>
          rw [expand_opened hline (openInclude_ok_iff.mp hopen)] at h
          split at h
          · exact absurd h nofun
          · exact absurd h nofun
          · next inc' hinc =>
            obtain ⟨expanded, rfl⟩ := @ih _ [] _ _ hinc
            rw [splice_ofLines] at h
            exact ih h

variable (fs program includeDirs) in
/-- What the turn at an include leads to. -/
inductive Turn (fuel : Nat) (baseDir : Path) (done : List SourceLine) (name : String)
    (rest : List SourceLine) (r : Except ParseError SourceProgram) : Prop where
  | unopened (e : ParseError)
      (hopen : ∀ incBase inc, ¬ Opens fs program includeDirs baseDir name incBase inc)
      (hr : r = .error e)
  | failed (incBase : Path) (inc : SourceProgram) (e : ParseError)
      (hopen : Opens fs program includeDirs baseDir name incBase inc)
      (hinc : expandIncludes fs program includeDirs fuel incBase 0 (.ofLines inc.lines) =
        some (.error e)) (hr : r = .error e)
  | spliced (incBase : Path) (inc : SourceProgram) (expanded : List SourceLine)
      (hopen : Opens fs program includeDirs baseDir name incBase inc)
      (hinc : expandIncludes fs program includeDirs fuel incBase 0 (.ofLines inc.lines) =
        some (.ok (.ofLines expanded)))
      (hrest : expandIncludes fs program includeDirs fuel baseDir done.length
        (.ofLines (done ++ (expanded ++ rest))) = some r)

theorem turn_of_include (hline : line.1.includeName = some name)
    (h : expandIncludes fs program includeDirs (fuel + 1) baseDir done.length
      (.ofLines (done ++ line :: rest)) = some r) :
    Turn fs program includeDirs fuel baseDir done name rest r := by
  cases hopen : openInclude fs program includeDirs done.length name baseDir with
  | error e =>
    have hr := Option.some.inj ((expand_unopened hline hopen).symm.trans h)
    refine .unopened e (fun incBase inc ho => ?_) hr.symm
    exact absurd ((openInclude_ok_iff.mpr ho).symm.trans hopen) nofun
  | ok opened =>
    have ho := openInclude_ok_iff.mp hopen
    rw [expand_opened hline ho] at h
    split at h
    · exact absurd h nofun
    · next e hinc => exact .failed _ _ e ho hinc (Option.some.inj h).symm
    · next inc' hinc =>
      obtain ⟨expanded, rfl⟩ := @aligned_of_ok _ _ _ _ _ _ [] _ _ hinc
      rw [splice_ofLines] at h
      exact .spliced _ _ expanded ho hinc h

/-- Success: the lines from the index on are expanded, and everything they include is complete. -/
theorem expanded_of_ok {out : List SourceLine}
    (h : expandIncludes fs program includeDirs fuel baseDir done.length (.ofLines (done ++ rest)) =
      some (.ok (.ofLines out))) :
    ∃ new, out = done ++ new ∧ Expanded fs program includeDirs baseDir rest new ∧ Plain new ∧
      Complete fs program includeDirs (baseDir, includeNames rest) := by
  induction fuel generalizing baseDir done rest out with
  | zero => exact absurd h nofun
  | succ fuel ih =>
    cases rest with
    | nil =>
      rw [expand_done] at h
      have hout := congrArg SourceProgram.lines (Except.ok.inj (Option.some.inj h))
      rw [SourceProgram.lines_ofLines, SourceProgram.lines_ofLines] at hout
      refine ⟨[], ?_, .nil baseDir, fun _ hl => absurd hl List.not_mem_nil, .nil baseDir⟩
      rw [← hout, List.append_nil]
    | cons line rest =>
      cases hline : line.1.includeName with
      | none =>
        rw [expand_keep hline] at h
        obtain ⟨new, rfl, hnew, hplain, hcomplete⟩ := ih h
        refine ⟨line :: new, List.append_assoc .., .keep hline hnew, ?_, ?_⟩
        · exact List.forall_mem_cons.mpr ⟨hline, hplain⟩
        · rw [includeNames_keep hline]
          exact hcomplete
      | some name =>
        cases turn_of_include hline h with
        | unopened e _ hr => exact absurd hr nofun
        | failed _ _ e _ _ hr => exact absurd hr nofun
        | spliced incBase inc expanded hopen hinc hrest =>
          obtain ⟨new, hexp, hnew, hplain, hcomplete⟩ := @ih _ [] _ _ hinc
          rw [List.nil_append] at hexp
          subst hexp
          obtain ⟨out', rfl, hout', hplain', hcomplete'⟩ := ih hrest
          obtain ⟨tail, rfl, htail⟩ := hout'.of_plain hplain
          refine ⟨expanded ++ tail, rfl, .splice hline hopen hnew htail, hplain', ?_⟩
          rw [includeNames_plain hplain] at hcomplete'
          rw [includeNames_include hline]
          exact .cons hopen hcomplete hcomplete'

/-- Complete includes: no error. -/
theorem complete_ok (hc : Complete fs program includeDirs (baseDir, includeNames rest))
    (h : expandIncludes fs program includeDirs fuel baseDir done.length (.ofLines (done ++ rest)) =
      some r) : ∃ p, r = .ok p := by
  induction fuel generalizing baseDir done rest r with
  | zero => exact absurd h nofun
  | succ fuel ih =>
    cases rest with
    | nil =>
      rw [expand_done] at h
      exact ⟨_, (Option.some.inj h).symm⟩
    | cons line rest =>
      cases hline : line.1.includeName with
      | none =>
        rw [expand_keep hline] at h
        rw [includeNames_keep hline] at hc
        exact ih hc h
      | some name =>
        rw [includeNames_include hline] at hc
        cases hc with
        | cons hopen hcinc hcrest =>
          cases turn_of_include hline h with
          | unopened _ hnone _ => exact absurd hopen (hnone _ _)
          | failed _ _ _ hopen' hinc _ =>
            obtain ⟨rfl, rfl⟩ := hopen.unique hopen'
            obtain ⟨p, hp⟩ := @ih _ [] _ _ hcinc hinc
            exact absurd hp nofun
          | spliced _ _ expanded _ hinc hrest =>
            obtain ⟨new, hexp, -, hplain, -⟩ := @expanded_of_ok _ _ _ _ _ _ [] _ _ hinc
            rw [List.nil_append] at hexp
            subst hexp
            refine ih ?_ hrest
            rw [includeNames_plain hplain]
            exact hcrest

end Results

/-! Termination: the visits that start at a program are well-founded. -/

section Termination

variable (fs program includeDirs) in
/-- Every chain of visits from here is finite. -/
abbrev Grounded (n : Node Path) : Prop := Acc (fun m n => Visits fs program includeDirs n m) n

variable (fs program includeDirs) in
/-- With enough fuel there is a result. -/
def Ends (baseDir : Path) (done rest : List SourceLine) : Prop :=
  ∃ fuel r, expandIncludes fs program includeDirs fuel baseDir done.length
    (.ofLines (done ++ rest)) = some r

variable {baseDir : Path} {done rest : List SourceLine}

theorem Visits.later {incBase : Path} {name : String} {names : List String} {inc : SourceProgram}
    {m : Node Path} (hopen : Opens fs program includeDirs baseDir name incBase inc)
    (hinc : Complete fs program includeDirs (incBase, includeNames inc.lines))
    (h : Visits fs program includeDirs (baseDir, names) m) :
    Visits fs program includeDirs (baseDir, name :: names) m := by
  obtain ⟨pre, name', post, inc', hnames, hpre, hopen', hm⟩ := h
  exact ⟨name :: pre, name', post, inc', congrArg (name :: ·) hnames, .cons hopen hinc hpre,
    hopen', hm⟩

theorem Visits.first {incBase : Path} {name : String} {names : List String} {inc : SourceProgram}
    (hopen : Opens fs program includeDirs baseDir name incBase inc) :
    Visits fs program includeDirs (baseDir, name :: names) (incBase, includeNames inc.lines) :=
  ⟨[], name, names, inc, rfl, .nil baseDir, hopen, rfl⟩

/-- A visit from an include and those after it: of its file, or a visit from those after it. -/
theorem Visits.of_cons {name : String} {names : List String} {m : Node Path}
    (h : Visits fs program includeDirs (baseDir, name :: names) m) :
    ∃ incBase inc, Opens fs program includeDirs baseDir name incBase inc ∧
      (m = (incBase, includeNames inc.lines) ∨
        Complete fs program includeDirs (incBase, includeNames inc.lines) ∧
          Visits fs program includeDirs (baseDir, names) m) := by
  obtain ⟨pre, name', post, inc', hnames, hpre, hopen, hm⟩ := h
  cases pre with
  | nil =>
    cases hnames
    exact ⟨m.1, inc', hopen, .inl (Prod.ext rfl hm)⟩
  | cons first pre =>
    cases hnames
    cases hpre with
    | cons hfirst hinc hpre' =>
      exact ⟨_, _, hfirst, .inr ⟨hinc, pre, name', post, inc', rfl, hpre', hopen, hm⟩⟩

/-- A result took finitely many visits. -/
theorem Ends.grounded (h : Ends fs program includeDirs baseDir done rest) :
    Grounded fs program includeDirs (baseDir, includeNames rest) := by
  obtain ⟨fuel, r, h⟩ := h
  induction fuel generalizing baseDir done rest r with
  | zero => exact absurd h nofun
  | succ fuel ih =>
    cases rest with
    | nil =>
      refine .intro _ fun m hm => ?_
      obtain ⟨pre, name, post, _, hnames, -⟩ := hm
      exact absurd hnames.symm (by simp [includeNames])
    | cons line rest =>
      cases hline : line.1.includeName with
      | none =>
        rw [expand_keep hline] at h
        rw [includeNames_keep hline]
        exact ih r h
      | some name =>
        rw [includeNames_include hline]
        refine .intro _ fun m hm => ?_
        obtain ⟨incBase, inc, hopen, hm⟩ := hm.of_cons
        cases turn_of_include hline h with
        | unopened _ hnone _ => exact absurd hopen (hnone _ _)
        | failed _ _ _ hopen' hinc _ =>
          obtain ⟨rfl, rfl⟩ := hopen.unique hopen'
          cases hm with
          | inl hm =>
            subst hm
            exact @ih _ [] _ _ hinc
          | inr hm =>
            -- The includes after it are visited where its own are complete: it has no error then.
            obtain ⟨p, hp⟩ := @complete_ok _ _ _ _ _ _ [] _ _ hm.1 hinc
            exact absurd hp nofun
        | spliced _ _ expanded hopen' hinc hrest =>
          obtain ⟨rfl, rfl⟩ := hopen.unique hopen'
          cases hm with
          | inl hm =>
            subst hm
            exact @ih _ [] _ _ hinc
          | inr hm =>
            obtain ⟨new, hexp, -, hplain, -⟩ := @expanded_of_ok _ _ _ _ _ _ [] _ _ hinc
            rw [List.nil_append] at hexp
            subst hexp
            have hgrounded := ih r hrest
            rw [includeNames_plain hplain] at hgrounded
            exact hgrounded.inv hm.2

theorem Ends.of_plain {plain : List SourceLine} (hp : Plain plain)
    (h : Ends fs program includeDirs baseDir (done ++ plain) rest) :
    Ends fs program includeDirs baseDir done (plain ++ rest) := by
  induction plain generalizing done with
  | nil =>
    rw [List.append_nil] at h
    exact h
  | cons line plain ih =>
    rw [List.append_cons] at h
    obtain ⟨fuel, r, hr⟩ := ih (fun l hl => hp l (List.mem_cons_of_mem _ hl)) h
    refine ⟨fuel + 1, r, ?_⟩
    rw [List.cons_append, expand_keep (hp line List.mem_cons_self)]
    exact hr

/-- The loop ends where the expansion of every visited file does. -/
theorem ends_of_visited
    (h : ∀ m, Visits fs program includeDirs (baseDir, includeNames rest) m →
      ∀ lines, m.2 = includeNames lines → Ends fs program includeDirs m.1 [] lines) :
    Ends fs program includeDirs baseDir done rest := by
  induction rest generalizing done with
  | nil => exact ⟨1, _, expand_done⟩
  | cons line rest ih =>
    cases hline : line.1.includeName with
    | none =>
      rw [includeNames_keep hline] at h
      obtain ⟨fuel, r, hr⟩ := @ih (done ++ [line]) h
      exact ⟨fuel + 1, r, (expand_keep hline).trans hr⟩
    | some name =>
      rw [includeNames_include hline] at h
      cases hopen : openInclude fs program includeDirs done.length name baseDir with
      | error e => exact ⟨1, _, expand_unopened hline hopen⟩
      | ok opened =>
        obtain ⟨incBase, inc⟩ := opened
        have ho := openInclude_ok_iff.mp hopen
        obtain ⟨fuel, r, hinc⟩ := h _ (.first ho) inc.lines rfl
        change expandIncludes fs program includeDirs fuel incBase 0 (.ofLines inc.lines) = some r
          at hinc
        cases r with
        | error e => exact ⟨fuel + 1, .error e, by rw [expand_opened hline ho, hinc]⟩
        | ok inc' =>
          obtain ⟨expanded, rfl⟩ := @aligned_of_ok _ _ _ _ _ _ [] _ _ hinc
          obtain ⟨new, hexp, -, hplain, hcomplete⟩ := @expanded_of_ok _ _ _ _ _ _ [] _ _ hinc
          rw [List.nil_append] at hexp
          subst hexp
          have hrest : Ends fs program includeDirs baseDir (done ++ expanded) rest :=
            ih fun m hm => h m (hm.later ho hcomplete)
          obtain ⟨fuel', r, hr⟩ := hrest.of_plain hplain
          refine ⟨max fuel fuel' + 1, r, ?_⟩
          rw [expand_opened hline ho, expand_le (le_max_left ..) hinc]
          simp only [splice_ofLines]
          exact expand_le (le_max_right ..) hr

theorem ends_of_grounded {n : Node Path} (h : Grounded fs program includeDirs n)
    (hn : n.2 = includeNames rest) : Ends fs program includeDirs n.1 done rest := by
  induction h generalizing done rest with
  | intro n _ ih =>
    obtain ⟨baseDir, names⟩ := n
    subst hn
    exact ends_of_visited fun m hm lines hlines => ih m hm hlines

theorem expands_iff_grounded {prog : SourceProgram} (h : prog.Aligned) :
    (∃ fuel r, expandIncludes fs program includeDirs fuel baseDir 0 prog = some r ∧
        ∀ p, r = .ok p → p.Aligned ∧
          Expanded fs program includeDirs baseDir prog.lines p.lines) ↔
      Grounded fs program includeDirs (baseDir, includeNames prog.lines) := by
  constructor
  · intro ⟨fuel, r, hr, _⟩
    rw [← h.ofLines] at hr
    exact @Ends.grounded _ _ _ _ _ [] _ ⟨fuel, r, hr⟩
  · intro hgrounded
    obtain ⟨fuel, r, hr⟩ : Ends fs program includeDirs baseDir [] prog.lines :=
      ends_of_grounded hgrounded rfl
    refine ⟨fuel, r, by rw [← h.ofLines]; exact hr, fun p hp => ?_⟩
    subst hp
    obtain ⟨out, rfl⟩ := @aligned_of_ok _ _ _ _ _ _ [] _ _ hr
    obtain ⟨new, hout, hnew, -, -⟩ := @expanded_of_ok _ _ _ _ _ _ [] _ _ hr
    rw [List.nil_append] at hout
    subst hout
    refine ⟨SourceProgram.ofLines_aligned out, ?_⟩
    rw [SourceProgram.lines_ofLines]
    exact hnew

/-- A visited file is one of the paths. -/
theorem finite_visited [Finite Path] (n : Node Path) :
    {m | Relation.TransGen (Visits fs program includeDirs) n m}.Finite := by
  let fileAt (path : Path) : Node Path :=
    match fs.readToString path with
    | .ok source =>
      match program source with
      | .ok statements =>
        (fs.parent path, includeNames
          ((withSourceLines source statements).nameLines (fs.fileName path)).lines)
      | .error _ => n
    | .error _ => n
  refine (Set.finite_range fileAt).subset fun m hm => ?_
  obtain ⟨k, -, pre, name, post, inc, -, -, hopen, hnames⟩ := Relation.TransGen.tail'_iff.mp hm
  obtain ⟨path, source, statements, -, hread, hparse, hparent, rfl⟩ := hopen
  refine ⟨path, ?_⟩
  simp only [fileAt, hread, hparse]
  exact Prod.ext hparent hnames.symm

/-- With finitely many paths expansion ends exactly where no file that is visited comes to be
visited from itself. -/
theorem expands_iff_acyclic [Finite Path] {prog : SourceProgram} (h : prog.Aligned) :
    (∃ fuel r, expandIncludes fs program includeDirs fuel baseDir 0 prog = some r ∧
        ∀ p, r = .ok p → p.Aligned ∧
          Expanded fs program includeDirs baseDir prog.lines p.lines) ↔
      ∀ m, Relation.ReflTransGen (Visits fs program includeDirs)
          (baseDir, includeNames prog.lines) m →
        ¬ Relation.TransGen (Visits fs program includeDirs) m m := by
  refine (expands_iff_grounded h).trans (acc_iff_not_endless.trans ?_)
  rw [endless_iff_cycle (finite_visited _)]
  simp only [not_exists, not_and]

/-- Expansion ends, and then each include has been replaced and each statement has its source
line, exactly where no chain of visited files is endless. -/
theorem expandIncludes_ends {prog : SourceProgram} (baseDir : Path) (h : prog.Aligned) :
    (∃ fuel r, expandIncludes fs program includeDirs fuel baseDir 0 prog = some r ∧
        ∀ p, r = .ok p → p.Aligned ∧
          Expanded fs program includeDirs baseDir prog.lines p.lines) ↔
      ¬ ∃ chain : Nat → Node Path, chain 0 = (baseDir, includeNames prog.lines) ∧
        ∀ i, Visits fs program includeDirs (chain i) (chain (i + 1)) :=
  (expands_iff_grounded h).trans acc_iff_not_endless

end Termination

end Graph

section Examples

/-- A directive that includes a file. -/
abbrev includeLine (name : String) : Statement := .directive none (.include_ name)

/-- A file that another one includes as well. -/
def sharedFiles : Files String where
  join _ name := name
  present name := name = "a.asm" ∨ name = "b.asm"
  readToString name :=
    if name = "a.asm" then .ok " include 'b.asm'\n rts\n".toList
    else if name = "b.asm" then .ok " nop\n".toList
    else .error "no such file"
  parent _ := "."
  fileName := id
  display := id

/-- The statements of a source, with one text for all its errors. -/
def statementsOf (source : List Char) : Except ParseError (List Statement) :=
  match programParser (tokens (fun _ => 0) (fun _ => 1) source) with
  | .ok statements => .ok statements
  | .error _ => .error ⟨1, "parse error"⟩

theorem statementsOf_ok (ts : List Token) {source : List Char} {statements : List Statement}
    (ht : tokens (fun _ => 0) (fun _ => 1) source = ts)
    (hs : programParser ts = .ok statements) : statementsOf source = .ok statements := by
  rw [statementsOf, ht, hs]

theorem statementsOf_a : statementsOf " include 'b.asm'\n rts\n".toList =
    .ok [includeLine "b.asm", .instruction none .rts] :=
  statementsOf_ok [.ident "include", .stringLit "b.asm", .newline, .ident "rts", .newline]
    (by decide +kernel) rfl

theorem statementsOf_b : statementsOf " nop\n".toList = .ok [.instruction none .nop] :=
  statementsOf_ok [.ident "nop", .newline] (by decide +kernel) rfl

/-- How far down the includes of a file go. -/
def includeDepth (name : String) : Nat :=
  if name = "a.asm" then 2 else if name = "b.asm" then 1 else 0

def nodeDepth (n : Node String) : Nat := n.2.foldr (fun name => max (includeDepth name)) 0

theorem includeDepth_le {dir name : String} {names : List String} (h : name ∈ names) :
    includeDepth name ≤ nodeDepth (dir, names) := by
  induction names with
  | nil => exact absurd h List.not_mem_nil
  | cons first names ih =>
    rcases List.mem_cons.mp h with rfl | h
    · exact le_max_left ..
    · exact (ih h).trans (le_max_right ..)

theorem sharedFiles_falls (n m : Node String)
    (h : Visits sharedFiles statementsOf [] n m) : nodeDepth m < nodeDepth n := by
  obtain ⟨pre, name, post, inc, hnames, -, hopen, hm⟩ := h
  have hle : includeDepth name ≤ nodeDepth n :=
    includeDepth_le (hnames ▸ List.mem_append_right _ List.mem_cons_self)
  refine Nat.lt_of_lt_of_le ?_ hle
  obtain ⟨path, source, statements, hfind, hread, hparse, -, rfl⟩ := hopen
  have hpath : path = name := by
    have hmem := List.mem_of_find?_eq_some hfind
    exact List.mem_singleton.mp hmem
  subst hpath
  rw [nodeDepth, hm]
  by_cases ha : path = "a.asm"
  · subst ha
    cases hread
    cases statementsOf_a.symm.trans hparse
    decide
  · by_cases hb : path = "b.asm"
    · subst hb
      cases hread
      cases statementsOf_b.symm.trans hparse
      decide
    · have herror : sharedFiles.readToString path = .error "no such file" := by
        change (if path = "a.asm" then _ else if path = "b.asm" then _ else _) = _
        rw [if_neg ha, if_neg hb]
      cases herror.symm.trans hread

def sharedMain : SourceProgram :=
  withSourceLines " include 'a.asm'\n include 'b.asm'\n".toList
    [includeLine "a.asm", includeLine "b.asm"]

/-- Nested includes, and a file that is included twice. -/
theorem expandIncludes_ends_shared :
    statementsOf " include 'a.asm'\n include 'b.asm'\n".toList = .ok sharedMain.statements ∧
    ∃ fuel r, expandIncludes sharedFiles statementsOf [] fuel "." 0 sharedMain = some r ∧
      ∀ p, r = .ok p → p.Aligned ∧
        Expanded sharedFiles statementsOf [] "." sharedMain.lines p.lines := by
  refine ⟨statementsOf_ok [.ident "include", .stringLit "a.asm", .newline,
    .ident "include", .stringLit "b.asm", .newline] (by decide +kernel) rfl, ?_⟩
  exact (expandIncludes_ends "." (withSourceLines_aligned _ _)).mpr
    (not_endless_of_rank nodeDepth sharedFiles_falls)

/-- A directory of one file, which includes itself. -/
def selfFile : Files Unit :=
  ⟨fun _ _ => (), fun _ => true, fun _ => .ok " include 'a.asm'".toList, id, fun _ => "a.asm",
    fun _ => "."⟩

theorem statementsOf_self : statementsOf " include 'a.asm'".toList = .ok [includeLine "a.asm"] :=
  statementsOf_ok [.ident "include", .stringLit "a.asm"] (by decide +kernel) rfl

theorem selfInclude_step (fuel : Nat) (origins : List SourceOrigin) :
    expandIncludes selfFile statementsOf [] fuel () 0 ⟨[includeLine "a.asm"], origins⟩ = none := by
  induction fuel generalizing origins with
  | zero => rfl
  | succ fuel ih =>
    have hopen : openInclude selfFile statementsOf [] 0 "a.asm" () = .ok ((), _) :=
      openInclude_ok_iff.mpr ⟨(), _, _, rfl, rfl, statementsOf_self, rfl, rfl⟩
    rw [expandIncludes]
    simp only [List.getElem?_cons_zero, hopen]
    rw [SourceProgram.nameLines, withSourceLines]
    simp only [ih]

/-- A file that includes itself is opened again and again. -/
theorem selfInclude_endless :
    ¬ ∃ fuel r, expandIncludes selfFile statementsOf [] fuel () 0
      (.ofLines [(includeLine "a.asm", ⟨"", 1, " include 'a.asm'"⟩)]) = some r := by
  intro ⟨fuel, r, h⟩
  exact absurd ((selfInclude_step fuel _).symm.trans h) nofun

end Examples

end Dsp56300.Asm
