import Dsp56300.Asm.Lexing
import Dsp56300.Lib.Results

/-! Statements and the source lines they come from. -/

namespace Dsp56300.Asm

open Lib.LineParsers LineParser

set_option linter.constructorNameAsVariable false

/-- A token that the parser is given, with the lines its text starts and ends on. A newline ends
the line it stands on. -/
structure LineToken where
  token : Token
  first : Nat
  last : Nat

/-- The kept tokens of lexemes that start on line `k`. -/
def lineTokens (k : Nat) : List Lexeme → List LineToken
  | [] => []
  | l :: ls =>
    let next := k + l.text.count '\n'
    match l.kept with
    | some t => ⟨t, k, if t.isNewline then k else next⟩ :: lineTokens next ls
    | none => lineTokens next ls

theorem lineTokens_token (k : Nat) (ls : List Lexeme) :
    (lineTokens k ls).map LineToken.token = ls.filterMap Lexeme.kept := by
  induction ls generalizing k with
  | nil => rfl
  | cons l ls ih =>
    unfold lineTokens
    dsimp only
    cases h : l.kept with
    | none => rw [List.filterMap_cons_none h, ih]
    | some t => rw [List.filterMap_cons_some h, List.map_cons, ih]

/-- The statements of a run of the program parser, each with the tokens it is made from: for an
empty one the newline of its line. -/
inductive Traced : List LineToken → List (Statement × List LineToken) → Prop where
  | nil : Traced [] []
  | blank {nl : LineToken} {rest : List LineToken} {out : List (Statement × List LineToken)}
      (hnl : nl.token.isNewline = true) (hrest : Traced rest out) :
      Traced (nl :: rest) ((.empty, [nl]) :: out)
  | line {t nl : LineToken} {own rest : List LineToken} {stmt : Statement}
      {out : List (Statement × List LineToken)}
      (hown : ∀ u ∈ t :: own, u.token.isNewline = false) (hnl : nl.token.isNewline = true)
      (hrun : parseStatement.run ((t :: own ++ nl :: rest).map LineToken.token) =
        .ok (stmt, (nl :: rest).map LineToken.token)) (hrest : Traced rest out) :
      Traced (t :: own ++ nl :: rest) ((stmt, t :: own ++ [nl]) :: out)
  | unended {t : LineToken} {own rest : List LineToken} {stmt : Statement}
      {out : List (Statement × List LineToken)}
      (hown : ∀ u ∈ t :: own, u.token.isNewline = false)
      (hnext : ∀ u ∈ rest.head?, u.token.isNewline = false)
      (hrun : parseStatement.run ((t :: own ++ rest).map LineToken.token) =
        .ok (stmt, rest.map LineToken.token)) (hrest : Traced rest out) :
      Traced (t :: own ++ rest) ((stmt, t :: own) :: out)

/-- The `i`-th of these statements is made from tokens of line `k + i` alone. -/
def OnLines (k : Nat) : List (Statement × List LineToken) → Prop
  | [] => True
  | (_, own) :: out => (∀ t ∈ own, t.first = k ∧ t.last = k) ∧ OnLines (k + 1) out

section Statement

variable (fracValue : List Char → I64) (unmatched : List Char → Nat)

def sourceTokens (source : List Char) : List LineToken :=
  lineTokens 1 (lex fracValue unmatched source)

/-- Each line of the source has its statement, at the index of the line, made from tokens of the
line alone. -/
def KeepsLines (source : List Char) (prog : SourceProgram) : Prop :=
  ∃ out, Traced (sourceTokens fracValue unmatched source) out ∧
    out.map Prod.fst = prog.statements ∧ out.length = (textLines source).length ∧ OnLines 1 out

end Statement

/-- The tokens between newlines; after the last newline only if there are any. -/
def tokenLines : List Token → List (List Token)
  | [] => []
  | t :: ts =>
    if t.isNewline then [] :: tokenLines ts
    else match tokenLines ts with
      | [] => [[t]]
      | line :: lines => (t :: line) :: lines

/-- The tokens are those of a text from line `k` on where only newlines break lines. -/
def Numbered (k : Nat) : List LineToken → Prop
  | [] => True
  | t :: ts => t.first = k ∧ t.last = k ∧ Numbered (if t.token.isNewline then k + 1 else k) ts

/-! Token lines. -/

theorem tokenLines_append_newline {line : List Token} {nl : Token} (rest : List Token)
    (hline : ∀ t ∈ line, t.isNewline = false) (hnl : nl.isNewline = true) :
    tokenLines (line ++ nl :: rest) = line :: tokenLines rest := by
  induction line with
  | nil => exact if_pos hnl
  | cons t line ih =>
    obtain ⟨ht, hline⟩ := List.forall_mem_cons.mp hline
    rw [List.cons_append, tokenLines, ih hline, if_neg (by rw [ht]; exact Bool.false_ne_true)]

theorem tokenLines_last {t : Token} {line : List Token} (h : ∀ u ∈ t :: line, u.isNewline = false) :
    tokenLines (t :: line) = [t :: line] := by
  induction line generalizing t with
  | nil =>
    rw [tokenLines, if_neg (by rw [h t List.mem_cons_self]; exact Bool.false_ne_true)]
    rfl
  | cons u line ih =>
    obtain ⟨ht, hline⟩ := List.forall_mem_cons.mp h
    rw [tokenLines, ih hline, if_neg (by rw [ht]; exact Bool.false_ne_true)]

/-! Numbered tokens. -/

section Numbering

variable {k : Nat} {rest : List LineToken}

theorem Numbered.of_append {own : List LineToken} (hown : ∀ t ∈ own, t.token.isNewline = false)
    (h : Numbered k (own ++ rest)) : (∀ t ∈ own, t.first = k ∧ t.last = k) ∧ Numbered k rest := by
  induction own with
  | nil => exact ⟨nofun, h⟩
  | cons t own ih =>
    obtain ⟨ht, hown⟩ := List.forall_mem_cons.mp hown
    obtain ⟨hfirst, hlast, h⟩ := h
    rw [ht] at h
    obtain ⟨hall, hrest⟩ := ih hown h
    exact ⟨List.forall_mem_cons.mpr ⟨⟨hfirst, hlast⟩, hall⟩, hrest⟩

theorem Numbered.newline {nl : LineToken} (hnl : nl.token.isNewline = true)
    (h : Numbered k (nl :: rest)) : (nl.first = k ∧ nl.last = k) ∧ Numbered (k + 1) rest := by
  obtain ⟨hfirst, hlast, h⟩ := h
  rw [hnl] at h
  exact ⟨⟨hfirst, hlast⟩, h⟩

end Numbering

/-- The tokens are all on one line, or those before the first newline are. -/
theorem first_line (ts : List LineToken) : (∀ t ∈ ts, t.token.isNewline = false) ∨
    ∃ own nl rest, ts = own ++ nl :: rest ∧ (∀ t ∈ own, t.token.isNewline = false) ∧
      nl.token.isNewline = true := by
  induction ts with
  | nil => exact .inl nofun
  | cons t ts ih =>
    cases ht : t.token.isNewline with
    | true => exact .inr ⟨[], t, ts, rfl, nofun, ht⟩
    | false =>
      rcases ih with hall | ⟨own, nl, rest, rfl, hown, hnl⟩
      · exact .inl (List.forall_mem_cons.mpr ⟨ht, hall⟩)
      · exact .inr ⟨t :: own, nl, rest, rfl, List.forall_mem_cons.mpr ⟨ht, hown⟩, hnl⟩

theorem map_unbroken {ts : List LineToken} (h : ∀ t ∈ ts, t.token.isNewline = false) :
    ∀ t ∈ ts.map LineToken.token, t.isNewline = false := by
  intro t ht
  obtain ⟨u, hu, rfl⟩ := List.mem_map.mp ht
  exact h u hu

theorem unbroken_head {ts : List LineToken} (h : ∀ t ∈ ts.head?, t.token.isNewline = false) :
    ∀ t ∈ (ts.map LineToken.token).head?, t.isNewline = false := by
  intro t ht
  rw [List.head?_map] at ht
  obtain ⟨u, hu, rfl⟩ := Option.mem_map.mp ht
  exact h u hu

theorem newline_head {ts : List LineToken} (h : ¬ ∀ t ∈ ts.head?, t.token.isNewline = false) :
    ∃ nl rest, ts = nl :: rest ∧ nl.token.isNewline = true := by
  cases ts with
  | nil => exact absurd nofun h
  | cons t ts =>
    cases ht : t.token.isNewline with
    | true => exact ⟨t, ts, rfl, ht⟩
    | false =>
      refine absurd (fun u hu => ?_) h
      cases hu
      exact ht

/-! Runs line by line. -/

/-- The tokens of a line are one statement. -/
def SingleStatement (line : List Token) : Prop :=
  ∃ stmt, parseStatement.run line = .ok (stmt, [])

theorem singleStatement_nil : SingleStatement [] := ⟨.empty, rfl⟩

theorem Traced.tokens {ts : List LineToken} {out : List (Statement × List LineToken)}
    (h : Traced ts out) : out.flatMap Prod.snd = ts := by
  induction h with
  | nil => rfl
  | blank _ _ ih => rw [List.flatMap_cons, ih, List.singleton_append]
  | line _ _ _ _ ih => rw [List.flatMap_cons, ih, List.append_assoc, List.singleton_append]
  | unended _ _ _ _ ih => rw [List.flatMap_cons, ih]

theorem OnLines.first_last {k : Nat} {out : List (Statement × List LineToken)}
    (h : OnLines k out) : ∀ t ∈ out.flatMap Prod.snd, t.first = t.last := by
  induction out generalizing k with
  | nil => exact nofun
  | cons o out ih =>
    obtain ⟨hown, hout⟩ := h
    intro t ht
    rcases List.mem_append.mp (List.flatMap_cons ▸ ht) with ht | ht
    · exact (hown t ht).1.trans (hown t ht).2.symm
    · exact ih hout t ht

/-- The trace of a token starts with this token. -/
theorem Traced.head {t : LineToken} {ts : List LineToken} {out : List (Statement × List LineToken)}
    (h : Traced (t :: ts) out) : ∃ stmt own out', out = (stmt, t :: own) :: out' := by
  generalize hts : t :: ts = all at h
  cases h with
  | nil => exact absurd hts nofun
  | blank =>
    cases hts
    exact ⟨_, _, _, rfl⟩
  | line =>
    cases hts
    exact ⟨_, _, _, rfl⟩
  | unended =>
    cases hts
    exact ⟨_, _, _, rfl⟩

/-- Where each statement has the tokens of its line, each line is one statement. -/
theorem Traced.single {ts : List LineToken} {out : List (Statement × List LineToken)}
    (h : Traced ts out) {k : Nat} (hk : Numbered k ts) (hout : OnLines k out) :
    (∀ line ∈ tokenLines (ts.map LineToken.token), SingleStatement line) ∧
      (tokenLines (ts.map LineToken.token)).length = out.length := by
  induction h generalizing k with
  | nil => exact ⟨nofun, rfl⟩
  | blank hnl _ ih =>
    obtain ⟨hall, hlen⟩ := ih (hk.newline hnl).2 hout.2
    rw [List.map_cons, tokenLines, if_pos hnl]
    exact ⟨List.forall_mem_cons.mpr ⟨singleStatement_nil, hall⟩, congrArg (· + 1) hlen⟩
  | @line t nl own rest stmt out hown hnl hrun _ ih =>
    obtain ⟨hall, hlen⟩ := ih ((hk.of_append hown).2.newline hnl).2 hout.2
    have hmap : (t :: own ++ nl :: rest).map LineToken.token =
        (t :: own).map LineToken.token ++ nl.token :: rest.map LineToken.token := List.map_append
    rw [hmap] at hrun ⊢
    rw [tokenLines_append_newline _ (map_unbroken hown) hnl]
    have hsingle := (run_line hnl).mp hrun
    exact ⟨List.forall_mem_cons.mpr ⟨⟨_, hsingle⟩, hall⟩, congrArg (· + 1) hlen⟩
  | @unended t own rest stmt out hown hnext hrun hrest ih =>
    cases rest with
    | nil =>
      have hout' : out = [] := by
        cases hrest
        rfl
      subst hout'
      rw [List.append_nil] at hrun ⊢
      rw [List.map_cons, tokenLines_last (map_unbroken hown)]
      exact ⟨List.forall_mem_cons.mpr ⟨⟨_, hrun⟩, nofun⟩, rfl⟩
    | cons u rest =>
      -- The next statement would be one of the same line.
      obtain ⟨stmt', own', out', rfl⟩ := hrest.head
      have hfirst := ((hout.2).1 u List.mem_cons_self).1
      have hsame := (hk.of_append hown).2.1
      omega

/-- Where each line is one statement, they are the statements of a run. -/
theorem traced_of_single {ts : List LineToken} {k : Nat} (hk : Numbered k ts)
    (h : ∀ line ∈ tokenLines (ts.map LineToken.token), SingleStatement line) :
    ∃ out, Traced ts out ∧ OnLines k out ∧
      out.length = (tokenLines (ts.map LineToken.token)).length := by
  induction hn : ts.length using Nat.strong_induction_on generalizing ts k with
  | _ n ih =>
    subst hn
    rcases first_line ts with hall | ⟨own, nl, rest, rfl, hown, hnl⟩
    · cases ts with
      | nil => exact ⟨[], .nil, trivial, rfl⟩
      | cons t ts =>
        rw [List.map_cons, tokenLines_last (map_unbroken hall)] at h ⊢
        obtain ⟨stmt, hrun⟩ := h _ List.mem_cons_self
        have hlines := (Numbered.of_append hall ((List.append_nil (t :: ts)).symm ▸ hk)).1
        have htrace : Traced (t :: ts ++ []) [(stmt, t :: ts)] := by
          refine .unended hall (fun _ hu => absurd hu (Option.not_mem_none _)) ?_ .nil
          rw [List.append_nil]
          exact hrun
        rw [List.append_nil] at htrace
        exact ⟨[(stmt, t :: ts)], htrace, ⟨hlines, trivial⟩, rfl⟩
    · obtain ⟨hlines, hk⟩ := hk.of_append hown
      obtain ⟨hnlLine, hk⟩ := hk.newline hnl
      rw [List.map_append, List.map_cons,
        tokenLines_append_newline _ (map_unbroken hown) hnl] at h ⊢
      obtain ⟨⟨stmt, hrun⟩, h⟩ := List.forall_mem_cons.mp h
      obtain ⟨out, hout, hon, hlen⟩ := ih rest.length (by simp; omega) hk h rfl
      cases own with
      | nil =>
        exact ⟨_, .blank hnl hout, ⟨List.forall_mem_cons.mpr ⟨hnlLine, nofun⟩, hon⟩,
          congrArg (· + 1) hlen⟩
      | cons t own =>
        refine ⟨(stmt, t :: own ++ [nl]) :: out, .line hown hnl ?_ hout, ⟨?_, hon⟩,
          congrArg (· + 1) hlen⟩
        · rw [List.map_append]
          exact (run_line hnl).mpr hrun
        · intro u hu
          rcases List.mem_append.mp hu with hu | hu
          · exact hlines u hu
          · exact List.mem_singleton.mp hu ▸ hnlLine

/-! The trace of a run is its result. -/

theorem skipNewlines_of_head {ts : List Token} (h : ∀ t ∈ ts.head?, t.isNewline = false) :
    skipNewlines ts = (0, ts) := by
  cases ts with
  | nil => rfl
  | cons t ts => rw [skipNewlines, if_neg (by rw [h t rfl]; exact Bool.false_ne_true)]

theorem skipNewlines_newline {t : Token} (ht : t.isNewline = true) (ts : List Token) :
    skipNewlines (t :: ts) = ((skipNewlines ts).1 + 1, (skipNewlines ts).2) := if_pos ht

/-- After the newline of a statement, newlines are those of a start. -/
theorem consumeNewlines_after {t : Token} (ht : t.isNewline = true) (ts : List Token) :
    consumeNewlines false (t :: ts) = consumeNewlines true ts := by
  rw [consumeNewlines, consumeNewlines, skipNewlines_newline ht]
  rfl

theorem consumeNewlines_blank {t : Token} (ht : t.isNewline = true) (ts : List Token) :
    consumeNewlines true (t :: ts) =
      (.empty :: (consumeNewlines true ts).1, (consumeNewlines true ts).2) := by
  rw [consumeNewlines, consumeNewlines, skipNewlines_newline ht]
  rfl

theorem consumeNewlines_none (isLeading : Bool) {ts : List Token}
    (h : ∀ t ∈ ts.head?, t.isNewline = false) : consumeNewlines isLeading ts = ([], ts) := by
  rw [consumeNewlines, skipNewlines_of_head h]
  cases isLeading <;> rfl

/-- The program parser, with a bound on the turns of its loop. -/
def programFrom (fuel : Nat) (ts : List Token) : Except Rich Program := do
  let stmts ← parseStatements fuel (consumeNewlines true ts).2
  .ok ((consumeNewlines true ts).1 ++ stmts)

theorem programFrom_eq_ok {fuel : Nat} {ts : List Token} {stmts : Program} :
    programFrom fuel ts = .ok stmts ↔
      ∃ more, parseStatements fuel (consumeNewlines true ts).2 = .ok more ∧
        stmts = (consumeNewlines true ts).1 ++ more :=
  Lib.Results.bind_eq_ok.trans (exists_congr fun _ => and_congr_right fun _ =>
    ⟨fun h => (Except.ok.inj h).symm, fun h => congrArg _ h.symm⟩)

/-- One turn of the loop: a statement, and the newlines after it. -/
theorem parseStatements_eq_ok {fuel : Nat} {t : Token} {ts : List Token} {stmts : Program} :
    parseStatements (fuel + 1) (t :: ts) = .ok stmts ↔
      ∃ stmt rest more, parseStatement.run (t :: ts) = .ok (stmt, rest) ∧
        parseStatements fuel (consumeNewlines false rest).2 = .ok more ∧
        stmts = stmt :: ((consumeNewlines false rest).1 ++ more) := by
  rw [parseStatements]
  constructor
  · intro h
    obtain ⟨⟨stmt, rest⟩, hrun, h⟩ := Lib.Results.bind_eq_ok.mp h
    obtain ⟨more, hmore, h⟩ := Lib.Results.bind_eq_ok.mp h
    exact ⟨stmt, rest, more, hrun, hmore, (Except.ok.inj h).symm⟩
  · intro ⟨stmt, rest, more, hrun, hmore, heq⟩
    exact Lib.Results.bind_eq_ok.mpr ⟨(stmt, rest), hrun,
      Lib.Results.bind_eq_ok.mpr ⟨more, hmore, congrArg _ heq.symm⟩⟩

theorem programFrom_turn {fuel : Nat} {t : Token} {ts rest rest' : List Token} {stmt : Statement}
    {stmts : Program} (ht : t.isNewline = false)
    (hrun : parseStatement.run (t :: ts) = .ok (stmt, rest))
    (hnewlines : consumeNewlines false rest = consumeNewlines true rest')
    (h : programFrom fuel rest' = .ok stmts) :
    programFrom (fuel + 1) (t :: ts) = .ok (stmt :: stmts) := by
  obtain ⟨more, hmore, rfl⟩ := programFrom_eq_ok.mp h
  have hhead : ∀ u ∈ (t :: ts).head?, u.isNewline = false := by
    intro u hu
    cases hu
    exact ht
  rw [← hnewlines] at hmore ⊢
  refine programFrom_eq_ok.mpr ⟨_, ?_, by rw [consumeNewlines_none true hhead]; rfl⟩
  rw [consumeNewlines_none true hhead]
  exact parseStatements_eq_ok.mpr ⟨stmt, rest, more, hrun, hmore, rfl⟩

theorem Traced.run {ts : List LineToken} {out : List (Statement × List LineToken)}
    (h : Traced ts out) {fuel : Nat} (hfuel : ts.length < fuel) :
    programFrom fuel (ts.map LineToken.token) = .ok (out.map Prod.fst) := by
  induction h generalizing fuel with
  | nil =>
    cases fuel with
    | zero => exact absurd hfuel (Nat.not_lt_zero _)
    | succ fuel => rfl
  | blank hnl _ ih =>
    obtain ⟨stmts, hst, heq⟩ := programFrom_eq_ok.mp (ih (Nat.lt_of_succ_lt hfuel))
    refine programFrom_eq_ok.mpr ⟨stmts, ?_, ?_⟩
    · rw [List.map_cons, consumeNewlines_blank hnl]
      exact hst
    · rw [List.map_cons, List.map_cons, consumeNewlines_blank hnl, heq]
      rfl
  | @line t nl own rest stmt out hown hnl hrun _ ih =>
    cases fuel with
    | zero => exact absurd hfuel (Nat.not_lt_zero _)
    | succ fuel =>
      have hlen : rest.length < fuel := by
        simp only [List.length_append, List.length_cons] at hfuel
        omega
      exact programFrom_turn (hown t List.mem_cons_self) hrun (consumeNewlines_after hnl _)
        (ih hlen)
  | @unended t own rest stmt out hown hnext hrun _ ih =>
    cases fuel with
    | zero => exact absurd hfuel (Nat.not_lt_zero _)
    | succ fuel =>
      have hlen : rest.length < fuel := by
        simp only [List.length_append, List.length_cons] at hfuel
        omega
      have hhead := unbroken_head hnext
      exact programFrom_turn (hown t List.mem_cons_self) hrun
        ((consumeNewlines_none false hhead).trans (consumeNewlines_none true hhead).symm) (ih hlen)

/-- A parser that starts with the test for the end of the line. -/
theorem run_unended {α : Type} {p q : Parse α} {t : Token} {ts : List Token}
    (ht : t.isNewline = false) :
    (do if ← atEol then p else q : Parse α).run (t :: ts) = q.run (t :: ts) :=
  bind_ok (atEnd_cons ht ts)

/-- A statement takes a token. -/
theorem parseStatement_progress {t : Token} {ts rest : List Token} {stmt : Statement}
    (ht : t.isNewline = false) (h : parseStatement.run (t :: ts) = .ok (stmt, rest)) :
    rest <:+ ts := by
  obtain ⟨name, mid, hname, h⟩ := bind_eq_ok.mp ((run_unended ht).symm.trans h)
  obtain hnone | ⟨u, us, a, hcons, -, hsome⟩ :=
    @select_cases Token Rich _ Token.isNewline Token.name (t :: ts)
  · cases hnone.symm.trans hname
    obtain ⟨name, mid, hname', h⟩ := bind_eq_ok.mp ((run_unended ht).symm.trans h)
    cases hnone.symm.trans hname'
    exact absurd h nofun
  · cases hsome.symm.trans hname
    cases hcons
    exact LineParser.suffix _ h

/-- A statement takes its tokens from one line. -/
theorem unbroken_of_run {own rest : List LineToken} {stmt : Statement}
    (h : parseStatement.run ((own ++ rest).map LineToken.token) =
      .ok (stmt, rest.map LineToken.token)) : ∀ t ∈ own, t.token.isNewline = false := by
  obtain ⟨taken, heq, hall⟩ := taken h
  rw [List.map_append] at heq
  rw [← List.append_cancel_right heq] at hall
  exact fun t ht => hall _ (List.mem_map_of_mem ht)

theorem traced_of_programFrom {fuel : Nat} {ts : List LineToken} {stmts : Program}
    (h : programFrom fuel (ts.map LineToken.token) = .ok stmts) :
    ∃ out, Traced ts out ∧ out.map Prod.fst = stmts := by
  induction fuel generalizing ts stmts with
  | zero =>
    obtain ⟨_, hmore, -⟩ := programFrom_eq_ok.mp h
    exact absurd hmore nofun
  | succ fuel ih =>
    induction ts generalizing stmts with
    | nil =>
      cases h
      exact ⟨[], .nil, rfl⟩
    | cons t ts ihts =>
      obtain ⟨more, hmore, rfl⟩ := programFrom_eq_ok.mp h
      cases ht : t.token.isNewline with
      | true =>
        rw [List.map_cons, consumeNewlines_blank ht] at hmore ⊢
        obtain ⟨out, hout, heq⟩ := ihts (programFrom_eq_ok.mpr ⟨more, hmore, rfl⟩)
        exact ⟨_, .blank ht hout, congrArg (Statement.empty :: ·) heq⟩
      | false =>
        have hhead : ∀ u ∈ ((t :: ts).map LineToken.token).head?, u.isNewline = false := by
          intro u hu
          cases hu
          exact ht
        rw [consumeNewlines_none true hhead] at hmore ⊢
        obtain ⟨stmt, rest, stmts, hrun, hstmts, rfl⟩ := parseStatements_eq_ok.mp hmore
        obtain ⟨own, hown⟩ := parseStatement_progress ht hrun
        obtain ⟨own, rest, rfl, rfl, rfl⟩ := List.map_eq_append_iff.mp hown.symm
        have hunbroken : ∀ u ∈ t :: own, u.token.isNewline = false := unbroken_of_run hrun
        by_cases hnext : ∀ u ∈ rest.head?, u.token.isNewline = false
        · have hfrom := consumeNewlines_none true (unbroken_head hnext)
          rw [consumeNewlines_none false (unbroken_head hnext)] at hstmts ⊢
          obtain ⟨out, hout, heq⟩ := ih (programFrom_eq_ok.mpr ⟨stmts, by rwa [hfrom], rfl⟩)
          refine ⟨_, .unended hunbroken hnext hrun hout, ?_⟩
          rw [List.map_cons, heq, hfrom]
          rfl
        · obtain ⟨nl, rest, rfl, hnl⟩ := newline_head hnext
          have hafter : consumeNewlines false ((nl :: rest).map LineToken.token) =
              consumeNewlines true (rest.map LineToken.token) := consumeNewlines_after hnl _
          rw [hafter] at hstmts ⊢
          obtain ⟨out, hout, heq⟩ := ih (programFrom_eq_ok.mpr ⟨stmts, hstmts, rfl⟩)
          exact ⟨_, .line hunbroken hnl hrun hout, congrArg (stmt :: ·) heq⟩

/-- What a statement leaves says which tokens it has taken. -/
theorem run_split {own own' rest rest' : List LineToken} {stmt stmt' : Statement}
    (heq : own ++ rest = own' ++ rest')
    (h : parseStatement.run ((own ++ rest).map LineToken.token) =
      .ok (stmt, rest.map LineToken.token))
    (h' : parseStatement.run ((own' ++ rest').map LineToken.token) =
      .ok (stmt', rest'.map LineToken.token)) : stmt = stmt' ∧ own = own' ∧ rest = rest' := by
  rw [heq] at h
  obtain ⟨hstmt, hmap⟩ := Prod.mk.inj (Except.ok.inj (h.symm.trans h'))
  have hlen := congrArg List.length hmap
  rw [List.length_map, List.length_map] at hlen
  exact ⟨hstmt, List.append_inj' heq hlen⟩

theorem Traced.unique {ts : List LineToken} {out out' : List (Statement × List LineToken)}
    (h : Traced ts out) (h' : Traced ts out') : out = out' := by
  induction h generalizing out' with
  | nil =>
    generalize hts : ([] : List LineToken) = ts at h'
    cases h' with
    | nil => rfl
    | _ => exact absurd hts nofun
  | @blank nl rest out hnl _ ih =>
    generalize hts : nl :: rest = ts at h'
    cases h' with
    | nil => exact absurd hts nofun
    | blank _ hrest =>
      cases hts
      rw [ih hrest]
    | line hown =>
      cases hts
      exact absurd (hown _ List.mem_cons_self) (by simp [hnl])
    | unended hown =>
      cases hts
      exact absurd (hown _ List.mem_cons_self) (by simp [hnl])
  | @line t nl own rest stmt out hown hnl hrun _ ih =>
    generalize hts : t :: own ++ nl :: rest = ts at h'
    cases h' with
    | nil => exact absurd hts nofun
    | blank hnl' =>
      cases hts
      exact absurd (hown _ List.mem_cons_self) (by simp [hnl'])
    | line _ _ hrun' hrest =>
      obtain ⟨rfl, hown, hnl⟩ := run_split hts hrun hrun'
      cases hown
      cases hnl
      rw [ih hrest]
    | unended _ hnext hrun' =>
      obtain ⟨rfl, _, hrest⟩ := run_split hts hrun hrun'
      exact absurd (hnext nl (hrest ▸ rfl)) (by simp [hnl])
  | @unended t own rest stmt out hown hnext hrun _ ih =>
    generalize hts : t :: own ++ rest = ts at h'
    cases h' with
    | nil => exact absurd hts nofun
    | blank hnl =>
      cases hts
      exact absurd (hown _ List.mem_cons_self) (by simp [hnl])
    | @line _ nl _ _ _ _ _ hnl hrun' =>
      obtain ⟨rfl, _, hrest⟩ := run_split hts hrun hrun'
      exact absurd (hnext nl (hrest ▸ rfl)) (by simp [hnl])
    | unended _ _ hrun' hrest =>
      obtain ⟨rfl, hown, hrest'⟩ := run_split hts hrun hrun'
      cases hown
      cases hrest'
      rw [ih hrest]

/-- The programs that parse are those with a trace, which says what the statements are. -/
theorem parse_eq_ok {fracValue : List Char → I64} {unmatched : List Char → Nat}
    {source : List Char} {prog : SourceProgram} : parse fracValue unmatched source = .ok prog ↔
      ∃ out, Traced (sourceTokens fracValue unmatched source) out ∧
        prog = withSourceLines source (out.map Prod.fst) := by
  have htokens : (sourceTokens fracValue unmatched source).map LineToken.token =
      tokens fracValue unmatched source := lineTokens_token 1 _
  have hparser : programParser (tokens fracValue unmatched source) =
      programFrom ((sourceTokens fracValue unmatched source).length + 1)
        ((sourceTokens fracValue unmatched source).map LineToken.token) := by
    rw [← htokens, programParser, List.length_map]
    rfl
  constructor
  · intro h
    obtain ⟨stmts, hprog, h⟩ := Lib.Results.bind_eq_ok.mp h
    cases h
    rw [hparser] at hprog
    obtain ⟨out, htraced, rfl⟩ := traced_of_programFrom hprog
    exact ⟨out, htraced, rfl⟩
  · rintro ⟨out, htraced, rfl⟩
    have hprog := hparser.trans (htraced.run (Nat.lt_succ_self _))
    exact Lib.Results.bind_eq_ok.mpr ⟨_, hprog, rfl⟩

/-! Lines of lexemes. -/

section Lines

variable {fracValue : List Char → I64} {unmatched : List Char → Nat}

theorem lineTokens_cons_some {k : Nat} {l : Lexeme} {ls : List Lexeme} {t : Token}
    (h : l.kept = some t) : lineTokens k (l :: ls) =
      ⟨t, k, if t.isNewline then k else k + l.text.count '\n'⟩ ::
        lineTokens (k + l.text.count '\n') ls := by
  rw [lineTokens, h]

theorem lineTokens_cons_none {k : Nat} {l : Lexeme} {ls : List Lexeme} (h : l.kept = none) :
    lineTokens k (l :: ls) = lineTokens (k + l.text.count '\n') ls := by
  rw [lineTokens, h]

/-- The line breaks of an item: a newline is one, and a string may hold some. -/
theorem lineBreaks_cases {l : Lexeme} (h : l.item.Breaks l.text) :
    (∃ t, l.kept = some t ∧ t.isNewline = true ∧ l.text.count '\n' = 1) ∨
      (∃ s, l.kept = some (.stringLit s)) ∨
      l.text.count '\n' = 0 ∧ ∀ t ∈ l.kept, t.isNewline = false := by
  have hrest (hno : '\n' ∉ l.text) (hkept : ∀ t ∈ l.kept, t.isNewline = false) :
      l.text.count '\n' = 0 ∧ ∀ t ∈ l.kept, t.isNewline = false :=
    ⟨List.count_eq_zero_of_not_mem hno, hkept⟩
  obtain ⟨item, text⟩ := l
  cases item with
  | blank => exact .inr (.inr (hrest h nofun))
  | unmatched => exact .inr (.inr (hrest h nofun))
  | token t =>
    cases t with
    | newline => exact .inl ⟨_, rfl, rfl, h⟩
    | newlineCrLf => exact .inl ⟨_, rfl, rfl, h⟩
    | stringLit s => exact .inr (.inl ⟨s, rfl⟩)
    | comment => exact .inr (.inr (hrest h nofun))
    | _ =>
      refine .inr (.inr (hrest h fun t ht => ?_))
      cases ht
      rfl

theorem numbered_cons {k : Nat} {l : Lexeme} {ls : List Lexeme} (hl : l.item.Breaks l.text)
    (h : ∀ t ∈ lineTokens k (l :: ls), t.first = t.last)
    (hls : ∀ m, (∀ t ∈ lineTokens m ls, t.first = t.last) → Numbered m (lineTokens m ls)) :
    Numbered k (lineTokens k (l :: ls)) := by
  cases hkept : l.kept with
  | none =>
    rw [lineTokens_cons_none hkept] at h ⊢
    obtain ⟨t, ht, -⟩ | ⟨s, hs⟩ | ⟨hcount, -⟩ := lineBreaks_cases hl
    · exact absurd (hkept.symm.trans ht) nofun
    · exact absurd (hkept.symm.trans hs) nofun
    · rw [hcount] at h ⊢
      exact hls k h
  | some t =>
    rw [lineTokens_cons_some hkept] at h ⊢
    obtain ⟨ht, h⟩ := List.forall_mem_cons.mp h
    have hrest := hls _ h
    obtain ⟨u, hu, hnl, hcount⟩ | ⟨s, hs⟩ | ⟨hcount, hno⟩ := lineBreaks_cases hl
    · cases hkept.symm.trans hu
      rw [hcount] at hrest ⊢
      exact ⟨rfl, if_pos hnl, by rwa [if_pos hnl]⟩
    · -- The string ends on the line it starts on.
      cases hkept.symm.trans hs
      exact ⟨rfl, ht.symm, Eq.subst (motive := fun m => Numbered m _) ht.symm hrest⟩
    · have hno := hno t hkept
      rw [hcount] at hrest ⊢
      exact ⟨rfl, by simp [hno], by rwa [if_neg (by simp [hno])]⟩

/-- Where no token holds a line break, and an item that fails with one is the last, only newlines
break the lines of tokens. -/
theorem numbered_lex
    (hrun : ∀ text, longestMatch text (rules fracValue) = none →
      '\n' ∈ text.take (max 1 (min (unmatched text) text.length)) →
      text.length ≤ unmatched text)
    {fuel k : Nat} {text : List Char}
    (h : ∀ t ∈ lineTokens k (lexFrom fracValue unmatched fuel text), t.first = t.last) :
    Numbered k (lineTokens k (lexFrom fracValue unmatched fuel text)) := by
  induction fuel generalizing k text with
  | zero => trivial
  | succ fuel ih =>
    by_cases hnil : text = []
    · rw [hnil]
      trivial
    · obtain ⟨-, -, hitem⟩ := @lexItem_sound fracValue unmatched text hnil
      rw [lexFrom_cons hnil] at h ⊢
      obtain hitem | ⟨hnone, hitem, hlen⟩ := hitem
      · exact numbered_cons hitem h fun m hm => ih hm
      · by_cases hbreak : '\n' ∈ text.take (lexItem fracValue unmatched text).2
        · rw [hlen] at hbreak
          have hall := hrun text hnone hbreak
          have hdrop : text.drop (lexItem fracValue unmatched text).2 = [] :=
            List.drop_eq_nil_of_le (by omega)
          rw [hdrop, lineTokens_cons_none (by rw [Lexeme.kept, hitem])]
          cases fuel <;> trivial
        · exact numbered_cons (hitem ▸ hbreak) h fun m hm => ih hm

/-- The statements of a source stand on the lines of their indices exactly where no token goes over
a line break, the tokens of each line are one statement, and no line breaks off without a token.
An item that fails and goes over a line break is one without an end. -/
theorem keepsLines_iff
    (hrun : ∀ text, longestMatch text (rules fracValue) = none →
      '\n' ∈ text.take (max 1 (min (unmatched text) text.length)) →
      text.length ≤ unmatched text)
    {source : List Char} {prog : SourceProgram}
    (hparse : parse fracValue unmatched source = .ok prog) :
    KeepsLines fracValue unmatched source prog ↔
      (∀ t ∈ sourceTokens fracValue unmatched source, t.first = t.last) ∧
        (∀ line ∈ tokenLines (tokens fracValue unmatched source), SingleStatement line) ∧
        (tokenLines (tokens fracValue unmatched source)).length = (textLines source).length := by
  have htokens : (sourceTokens fracValue unmatched source).map LineToken.token =
      tokens fracValue unmatched source := lineTokens_token 1 _
  rw [← htokens]
  constructor
  · intro ⟨out, htraced, _, hlen, hon⟩
    have hfirst : ∀ t ∈ sourceTokens fracValue unmatched source, t.first = t.last := by
      rw [← htraced.tokens]
      exact hon.first_last
    obtain ⟨hsingle, hlines⟩ := htraced.single (numbered_lex hrun hfirst) hon
    exact ⟨hfirst, hsingle, hlines.trans hlen⟩
  · intro ⟨hfirst, hsingle, hlen⟩
    obtain ⟨out, htraced, hon, hout⟩ := traced_of_single (numbered_lex hrun hfirst) hsingle
    -- The trace of the lines is the one the parser took.
    obtain ⟨out', htraced', rfl⟩ := parse_eq_ok.mp hparse
    obtain rfl := htraced.unique htraced'
    exact ⟨out, htraced, rfl, hout.trans hlen, hon⟩

theorem longestMatch_newline {n : Nat} {text : List Char}
    (h : '\n' ∈ text.take (max 1 (min 1 n))) : longestMatch text (rules fracValue) ≠ none := by
  have hone : max 1 (min 1 n) = 1 := by omega
  rw [hone] at h
  cases text with
  | nil => exact absurd h List.not_mem_nil
  | cons c text =>
    cases List.mem_singleton.mp h
    intro hnone
    have hrule : literalRule ['\n'] .newline ∈ rules fracValue := by simp [rules]
    exact Option.some_ne_none _ (longestMatch_none hnone _ hrule)

/-- The source of this program has a label, an item that fails, a blank line and a comment. -/
theorem keepsLines_start : ∃ prog, parse (fun _ => 0) (fun _ => 1)
    "start: nop ?\n\n rts ; end\n".toList = .ok prog ∧
      KeepsLines (fun _ => 0) (fun _ => 1) "start: nop ?\n\n rts ; end\n".toList prog := by
  have htokens : tokens (fun _ => 0) (fun _ => 1) "start: nop ?\n\n rts ; end\n".toList =
      [.ident "start", .colon, .ident "nop", .newline, .newline, .ident "rts", .newline] := by
    decide +kernel
  have hparse : parse (fun _ => 0) (fun _ => 1) "start: nop ?\n\n rts ; end\n".toList =
      .ok (withSourceLines "start: nop ?\n\n rts ; end\n".toList
        [.instruction (some "start") .nop, .empty, .instruction none .rts]) := by
    rw [parse, htokens]
    rfl
  refine ⟨_, hparse, (keepsLines_iff ?_ hparse).mpr ⟨by decide +kernel, ?_, ?_⟩⟩
  · intro text hnone hmem
    exact absurd hnone (longestMatch_newline hmem)
  · rw [htokens]
    exact List.forall_mem_cons.mpr ⟨⟨_, rfl⟩, List.forall_mem_cons.mpr ⟨singleStatement_nil,
      List.forall_mem_cons.mpr ⟨⟨_, rfl⟩, nofun⟩⟩⟩
  · rw [htokens]
    decide +kernel

/-- Two instructions on one line. -/
theorem nop_nop_slips : ∃ prog, parse (fun _ => 0) (fun _ => 1) "nop nop\n".toList = .ok prog ∧
    ¬ KeepsLines (fun _ => 0) (fun _ => 1) "nop nop\n".toList prog := by
  have htokens : tokens (fun _ => 0) (fun _ => 1) "nop nop\n".toList =
      [.ident "nop", .ident "nop", .newline] := by
    decide +kernel
  have hparse : parse (fun _ => 0) (fun _ => 1) "nop nop\n".toList =
      .ok (withSourceLines "nop nop\n".toList [.instruction none .nop, .instruction none .nop]) := by
    rw [parse, htokens]
    rfl
  refine ⟨_, hparse, fun h => ?_⟩
  obtain ⟨out, -, hout, hlen, -⟩ := h
  have htwo : out.length = 2 := (List.length_map Prod.fst).symm.trans (congrArg List.length hout)
  have hone : (textLines "nop nop\n".toList).length = 1 := by decide +kernel
  omega

end Lines

end Dsp56300.Asm
