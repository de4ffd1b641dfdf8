import Dsp56300.Asm.ListingLayout
import Dsp56300.Lib.Results

namespace Dsp56300.Asm

open Lib.Results

set_option linter.constructorNameAsVariable false

/-! The refinement loop. -/

/-- The table of pass 1 after `k` refinements. -/
def refined (program : Program) : Nat → AsmResult SymbolTable
  | 0 => resolveSymbolsOnce program none
  | k + 1 => do
    let symbols ← refined program k
    resolveSymbolsOnce program (some symbols)

/-- One more pass leaves the table as it is. -/
def Stable (program : Program) (symbols : SymbolTable) : Prop :=
  resolveSymbolsOnce program (some symbols) = .ok symbols

/-- Some table among the first pass and its ten refinements repeats. -/
def Settles (program : Program) : Prop :=
  ∃ k ≤ 10, ∃ symbols, refined program k = .ok symbols ∧ refined program (k + 1) = .ok symbols

theorem refined_succ {program : Program} {k : Nat} {symbols : SymbolTable}
    (h : refined program k = .ok symbols) :
    refined program (k + 1) = resolveSymbolsOnce program (some symbols) := by
  rw [refined, h]
  rfl

theorem refined_of_stable {program : Program} {k : Nat} {symbols : SymbolTable}
    (h : refined program k = .ok symbols) (hs : Stable program symbols) (n : Nat) :
    refined program (k + n) = .ok symbols := by
  induction n with
  | zero => exact h
  | succ n ih => exact (refined_succ ih).trans hs

/-- The loop returns a refinement, and either a stable one or the last. -/
theorem refineSymbols_spec {program : Program} {rounds k : Nat} {start symbols : SymbolTable}
    (hk : refined program k = .ok start) (h : refineSymbols program rounds start = .ok symbols) :
    (∃ n ≤ rounds, refined program (k + n) = .ok symbols) ∧
      (Stable program symbols ∨ refined program (k + rounds) = .ok symbols) := by
  induction rounds generalizing k start with
  | zero =>
    cases h
    exact ⟨⟨0, Nat.le_refl _, hk⟩, Or.inr hk⟩
  | succ rounds ih =>
    simp only [refineSymbols, bind_eq_ok] at h
    obtain ⟨next, hnext, h⟩ := h
    split at h
    · rename_i he
      cases h
      exact ⟨⟨0, Nat.zero_le _, hk⟩, Or.inl (he ▸ hnext)⟩
    · have hk' := (refined_succ hk).trans hnext
      obtain ⟨⟨n, hn, hr⟩, hlast⟩ := ih hk' h
      rw [Nat.add_assoc, Nat.add_comm 1] at hr hlast
      exact ⟨⟨n + 1, Nat.succ_le_succ hn, hr⟩, hlast⟩

/-- The table `resolve_symbols` returns is stable exactly where the refinements settle. -/
theorem stable_iff_settles {program : Program} {symbols : SymbolTable}
    (h : resolveSymbols program = .ok symbols) : Stable program symbols ↔ Settles program := by
  simp only [resolveSymbols, bind_eq_ok] at h
  obtain ⟨start, hstart, h⟩ := h
  obtain ⟨⟨n, hn, hr⟩, hlast⟩ := refineSymbols_spec (k := 0) hstart h
  rw [Nat.zero_add] at hr hlast
  constructor
  · intro hs
    exact ⟨n, hn, symbols, hr, (refined_succ hr).trans hs⟩
  · rintro ⟨k, hk, t, ht, ht'⟩
    rcases hlast with hs | hl
    · exact hs
    · have hst : Stable program t := (refined_succ ht).symm.trans ht'
      have he := refined_of_stable ht hst (10 - k)
      rw [Nat.add_sub_cancel' hk, hl] at he
      cases he
      exact hst

/-- The size estimate of the first pass is the size of every encoding. -/
def Instruction.FixedSize (inst : Instruction) : Prop :=
  ∀ pc symbols, encodedSize inst pc (some symbols) = instructionSize inst

theorem run_of_fixedSizes {program : Program} (symbols : SymbolTable)
    (hf : ∀ label inst, .instruction label inst ∈ program → inst.FixedSize) (s : Pass1)
    (line : Nat) : s.run (some symbols) program line = s.run none program line := by
  induction program generalizing s line with
  | nil => rfl
  | cons stmt rest ih =>
    have hstep : s.step (some symbols) stmt line = s.step none stmt line := by
      cases stmt with
      | instruction label inst =>
        have hsize := hf label inst (List.mem_cons_self ..) (s.define label).pc symbols
        simp only [Pass1.step, Statement.labelName, hsize]
        rfl
      | _ => rfl
    have hrest := ih fun label inst hm => hf label inst (List.mem_cons_of_mem _ hm)
    simp only [Pass1.run, hstep, hrest]

/-- Without instructions whose size depends on a symbol, the first refinement repeats pass 1. -/
theorem settles_of_fixedSizes {program : Program} {symbols : SymbolTable}
    (h : resolveSymbolsOnce program none = .ok symbols)
    (hf : ∀ label inst, .instruction label inst ∈ program → inst.FixedSize) : Settles program := by
  have h0 : refined program 0 = .ok symbols := h
  refine ⟨0, Nat.zero_le _, symbols, h0, ?_⟩
  rw [refined_succ h0, ← h, resolveSymbolsOnce, run_of_fixedSizes symbols hf]
  rfl

/-! Pass 1 against the emission. -/

def Statement.equName : Statement → Option String
  | .directive _ (.equ name _) => some name
  | _ => none

/-- The names a statement defines. -/
def Statement.defines (stmt : Statement) : List String :=
  stmt.labelName.toList ++ stmt.equName.toList

def definedNames (program : Program) : List String := program.flatMap Statement.defines

/-- Every symbol of `s` has its value in `t`. -/
def SymbolTable.Extends (t s : SymbolTable) : Prop :=
  ∀ name v, s.lookup name = some v → t.lookup name = some v

theorem eval_extends {s t : SymbolTable} (hx : t.Extends s) {e : Expr} {pc v : Word}
    (h : eval e s pc = .ok v) : eval e t pc = .ok v := by
  induction e generalizing v with
  | literal w => exact h
  | frac w => exact h
  | currentPc => exact h
  | symbol name =>
    simp only [eval] at h ⊢
    cases hl : s.lookup name with
    | none => simp [hl, encErr] at h
    | some w => simpa [hl, hx name w hl] using h
  | binOp op lhs rhs ihl ihr =>
    simp only [eval, bind_eq_ok] at h ⊢
    obtain ⟨l, hl, r, hr, h⟩ := h
    exact ⟨l, ihl hl, r, ihr hr, h⟩
  | unaryOp op operand ih =>
    simp only [eval, bind_eq_ok] at h ⊢
    obtain ⟨w, hw, h⟩ := h
    exact ⟨w, ih hw, h⟩

theorem evalAt_extends {s t : SymbolTable} (hx : t.Extends s) {e : Expr} {pc v : Word} {line : Nat}
    (h : evalAt e s pc line = .ok v) : evalAt e t pc line = .ok v := by
  unfold evalAt at h ⊢
  cases he : eval e s pc with
  | error err => simp [atLine, he] at h
  | ok w =>
    rw [eval_extends hx he]
    simpa [atLine, he] using h

theorem lookup_define {s : Pass1} {label : Option String} {n : String} (hn : n ∉ label.toList) :
    (s.define label).symbols.lookup n = s.symbols.lookup n := by
  cases label with
  | none => rfl
  | some name => exact Finmap.lookup_insert_of_ne _ (by simpa using hn)

theorem directive_symbols {s t : Pass1} {dir : Directive} {line : Nat}
    (h : s.directive dir line = .ok t) (hd : ∀ name value, dir ≠ .equ name value) :
    t.symbols = s.symbols := by
  cases dir with
  | org space addr =>
    simp only [Pass1.directive, bind_eq_ok, Except.ok.injEq] at h
    obtain ⟨_, -, rfl⟩ := h
    rfl
  | ds size =>
    simp only [Pass1.directive, bind_eq_ok, dsTooLarge, ite_error_eq_ok, Except.ok.injEq] at h
    obtain ⟨_, -, -, rfl⟩ := h
    rfl
  | equ name value => exact absurd rfl (hd name value)
  | psect name range =>
    cases range with
    | none =>
      simp only [Pass1.directive, Pass1.psect] at h
      split at h <;> cases h <;> rfl
    | some r =>
      simp only [Pass1.directive, Pass1.psect, bind_eq_ok, Except.ok.injEq] at h
      obtain ⟨_, -, rfl⟩ := h
      rfl
  | align alignment =>
    simp only [Pass1.directive, bind_eq_ok, Except.ok.injEq] at h
    obtain ⟨_, -, rfl⟩ := h
    rfl
  | _ => cases h; rfl

/-- After its label a statement changes the value of the name it equates, and no other. -/
theorem step_lookup_define {prior : Option SymbolTable} {s t : Pass1} {stmt : Statement}
    {line : Nat} (h : s.step prior stmt line = .ok t) {n : String}
    (hn : n ∉ stmt.equName.toList) :
    t.symbols.lookup n = (s.define stmt.labelName).symbols.lookup n := by
  cases stmt with
  | directive label dir =>
    by_cases hq : ∃ name value, dir = .equ name value
    · obtain ⟨name, value, rfl⟩ := hq
      simp only [Pass1.step, Pass1.directive, bind_eq_ok, Except.ok.injEq] at h
      obtain ⟨v, -, rfl⟩ := h
      exact Finmap.lookup_insert_of_ne _ (by simpa [Statement.equName] using hn)
    · have h' : (s.define label).directive dir line = .ok t := h
      exact congrArg _ (directive_symbols h' fun name value he => hq ⟨name, value, he⟩)
  | _ => cases h; rfl

theorem step_lookup {prior : Option SymbolTable} {s t : Pass1} {stmt : Statement} {line : Nat}
    (h : s.step prior stmt line = .ok t) {n : String} (hn : n ∉ stmt.defines) :
    t.symbols.lookup n = s.symbols.lookup n := by
  obtain ⟨hl, hd⟩ := not_or.mp fun hm => hn (List.mem_append.mpr hm)
  rw [step_lookup_define h hd, lookup_define hl]

theorem run_lookup {prior : Option SymbolTable} {s t : Pass1} {program : Program} {line : Nat}
    (h : s.run prior program line = .ok t) {n : String} (hn : n ∉ definedNames program) :
    t.symbols.lookup n = s.symbols.lookup n := by
  induction program generalizing s line with
  | nil =>
    cases h
    rfl
  | cons stmt rest ih =>
    rw [definedNames, List.flatMap_cons, List.mem_append, not_or] at hn
    simp only [Pass1.run, bind_eq_ok] at h
    obtain ⟨s', hstep, h⟩ := h
    split at h
    · cases h
      exact step_lookup hstep hn.1
    · rw [ih h hn.2, step_lookup hstep hn.1]

/-- The two walks are at the same place of the program's address spaces. -/
structure Agree (p : Pass1) (e : Emit) : Prop where
  pc : p.pc = e.pc
  psects : p.psects = e.psects
  current : p.currentPsect = e.currentPsect

theorem Agree.leave {p : Pass1} {e : Emit} (ha : Agree p e) :
    savePsect p.psects p.currentPsect p.pc = e.leavePsect.psects ∧ p.pc = e.leavePsect.pc := by
  rw [ha.pc, ha.psects, ha.current]
  unfold Emit.leavePsect
  cases h : e.currentPsect with
  | none =>
    dsimp only [Emit.flush]
    split <;> exact ⟨rfl, rfl⟩
  | some cur => exact ⟨rfl, rfl⟩

theorem length_dcWords {sym : SymbolTable} {line : Nat} {values : List Expr} {pc : Word}
    {ws : List Word} (h : Emit.dcWords sym line values pc = .ok ws) : ws.length = values.length := by
  induction values generalizing pc ws with
  | nil =>
    cases h
    rfl
  | cons value values ih =>
    simp only [Emit.dcWords, bind_eq_ok, Except.ok.injEq] at h
    obtain ⟨v, -, vs, hvs, rfl⟩ := h
    exact congrArg (· + 1) (ih hvs)

theorem psect_agree {p q : Pass1} {e f : Emit} {symbols : SymbolTable} (ha : Agree p e)
    (hx : symbols.Extends p.symbols) {name : String} {range : Option (MemorySpace × Expr × Expr)}
    {line : Nat} {entry : Option ListingLine} (hp : p.psect name range line = .ok q)
    (he : e.directive symbols (.psect name range) line = .ok (f, entry)) : Agree q f := by
  obtain ⟨hps, hpc⟩ := ha.leave
  cases range with
  | none =>
    simp only [Emit.directive, Except.ok.injEq, Prod.mk.injEq] at he
    obtain ⟨rfl, -⟩ := he
    simp only [Pass1.psect, hps] at hp
    unfold Emit.enterPsect
    cases hl : e.leavePsect.psects.lookup name with
    | none =>
      simp only [hl, Except.ok.injEq] at hp
      subst hp
      exact ⟨hpc, rfl, rfl⟩
    | some state =>
      simp only [hl, Except.ok.injEq] at hp
      subst hp
      cases hw : e.leavePsect.psectWords.lookup name with
      | none => exact ⟨rfl, rfl, rfl⟩
      | some saved => exact ⟨rfl, rfl, rfl⟩
  | some r =>
    obtain ⟨space, start, stop⟩ := r
    simp only [Emit.directive, bind_eq_ok, Except.ok.injEq, Prod.mk.injEq] at he
    obtain ⟨v, hv, rfl, -⟩ := he
    simp only [Pass1.psect, bind_eq_ok, Except.ok.injEq] at hp
    obtain ⟨v', hv', rfl⟩ := hp
    have hev := evalAt_extends hx hv'
    rw [ha.pc, hv] at hev
    cases hev
    rw [hps]
    exact ⟨rfl, rfl, rfl⟩

theorem directive_agree {p q : Pass1} {e f : Emit} {symbols : SymbolTable} (ha : Agree p e)
    (hx : symbols.Extends p.symbols) {dir : Directive} {line : Nat} {entry : Option ListingLine}
    (hp : p.directive dir line = .ok q) (he : e.directive symbols dir line = .ok (f, entry)) :
    Agree q f := by
  have hev : ∀ {expr v w}, evalAt expr p.symbols p.pc line = .ok v →
      evalAt expr symbols e.pc line = .ok w → v = w := by
    intro expr v w hv hw
    have h := evalAt_extends hx hv
    rw [ha.pc, hw] at h
    cases h
    rfl
  have hflush : Agree p e.flush := by
    unfold Emit.flush
    split
    · exact ha
    · exact ⟨ha.pc, ha.psects, ha.current⟩
  cases dir with
  | psect name range => exact psect_agree ha hx hp he
  | org space addr =>
    simp only [Pass1.directive, Emit.directive, bind_eq_ok, Except.ok.injEq, Prod.mk.injEq] at hp he
    obtain ⟨v, hv, rfl⟩ := hp
    obtain ⟨w, hw, rfl, -⟩ := he
    exact ⟨hev hv hw, hflush.psects, hflush.current⟩
  | dc values =>
    simp only [Pass1.directive, Emit.directive, bind_eq_ok, Except.ok.injEq, Prod.mk.injEq] at hp he
    subst hp
    obtain ⟨ws, hws, rfl, -⟩ := he
    refine ⟨?_, ha.psects, ha.current⟩
    rw [Emit.push, length_dcWords hws, ha.pc]
  | ds size =>
    simp only [Pass1.directive, Emit.directive, bind_eq_ok, dsTooLarge, ite_error_eq_ok,
      Except.ok.injEq, Prod.mk.injEq] at hp he
    obtain ⟨v, hv, -, rfl⟩ := hp
    obtain ⟨w, hw, -, rfl, -⟩ := he
    refine ⟨?_, ha.psects, ha.current⟩
    simp only [Emit.push, List.length_replicate, BitVec.ofNat_toNat, BitVec.setWidth_eq, ha.pc,
      hev hv hw]
  | align alignment =>
    simp only [Pass1.directive, Emit.directive, bind_eq_ok, Except.ok.injEq, Prod.mk.injEq] at hp he
    obtain ⟨v, hv, rfl⟩ := hp
    obtain ⟨w, hw, rfl, -⟩ := he
    rw [hev hv hw, ha.pc]
    unfold Emit.alignTo
    dsimp only
    split
    · exact ⟨rfl, hflush.psects, hflush.current⟩
    · rename_i hne
      exact ⟨not_not.mp hne, ha.psects, ha.current⟩
  | equ name value =>
    simp only [Pass1.directive, Emit.directive, bind_eq_ok, Except.ok.injEq, Prod.mk.injEq] at hp he
    obtain ⟨v, -, rfl⟩ := hp
    obtain ⟨rfl, -⟩ := he
    exact ⟨ha.pc, ha.psects, ha.current⟩
  | _ =>
    simp only [Pass1.directive, Emit.directive, Except.ok.injEq, Prod.mk.injEq] at hp he
    obtain ⟨rfl, -⟩ := he
    exact hp ▸ ha

theorem size_eq_length (enc : EncodedInstruction) :
    enc.size = BitVec.ofNat 32 enc.toList.length := by
  unfold EncodedInstruction.size EncodedInstruction.toList
  cases enc.word1 <;> rfl

/-- Where the emission encodes with the table that pass 1 was given, both take the same step. -/
theorem step_agree {p q : Pass1} {e f : Emit} {symbols : SymbolTable} (ha : Agree p e)
    {stmt : Statement} (hx : symbols.Extends (p.define stmt.labelName).symbols) {line : Nat}
    {entry : Option ListingLine} (hp : p.step (some symbols) stmt line = .ok q)
    (he : e.step symbols stmt line = .ok (f, entry)) : Agree q f := by
  have hd : Agree (p.define stmt.labelName) e := by
    unfold Pass1.define
    cases stmt.labelName with
    | none => exact ha
    | some name => exact ⟨ha.pc, ha.psects, ha.current⟩
  cases stmt with
  | directive label dir => exact directive_agree hd hx hp he
  | instruction label inst =>
    simp only [Pass1.step, Emit.step, bind_eq_ok, Except.ok.injEq, Prod.mk.injEq] at hp he
    obtain ⟨enc, henc, rfl, -⟩ := he
    subst hp
    refine ⟨?_, hd.psects, hd.current⟩
    have hok : encode inst e.pc symbols = .ok enc := by
      cases h : encode inst e.pc symbols with
      | error err => simp [h, atLine] at henc
      | ok enc' => simpa [h, atLine] using henc
    simp only [encodedSize, Emit.push, hd.pc, hok, size_eq_length]
  | _ =>
    simp only [Pass1.step, Emit.step, Except.ok.injEq, Prod.mk.injEq] at hp he
    obtain ⟨rfl, -⟩ := he
    exact hp ▸ hd

/-- What is in the table after a statement's label is there to the end of the walk. -/
theorem run_extends {prior : Option SymbolTable} {s t : Pass1} {stmt : Statement}
    {rest : Program} {line : Nat} (h : s.run prior (stmt :: rest) line = .ok t)
    (hn : (definedNames (stmt :: rest)).Nodup)
    (hfresh : ∀ n ∈ definedNames (stmt :: rest), s.symbols.lookup n = none) :
    t.symbols.Extends (s.define stmt.labelName).symbols := by
  intro n v hv
  rw [definedNames, List.flatMap_cons] at hn hfresh
  obtain ⟨hself, -, hdis⟩ := List.nodup_append.mp hn
  have hlabel : n ∈ stmt.defines ++ rest.flatMap Statement.defines → n ∈ stmt.labelName.toList := by
    intro hm
    by_contra hl
    rw [lookup_define hl, hfresh n hm] at hv
    cases hv
  have hequ : n ∉ stmt.equName.toList := by
    intro hm
    have hl := hlabel (List.mem_append_left _ (List.mem_append_right _ hm))
    exact (List.nodup_append.mp hself).2.2 n hl n hm rfl
  have hrest : n ∉ definedNames rest := by
    intro hm
    have hl := hlabel (List.mem_append_right _ hm)
    exact hdis n (List.mem_append_left _ hl) n hm rfl
  simp only [Pass1.run, bind_eq_ok] at h
  obtain ⟨s', hstep, h⟩ := h
  rw [← hv, ← step_lookup_define hstep hequ]
  split at h
  · cases h
    rfl
  · exact run_lookup h hrest

/-- The emission comes to the statement in the given state. -/
inductive Emit.Arrives (sym : SymbolTable) : Emit → Program → Nat → Emit → Statement → Prop where
  | here (s : Emit) (stmt : Statement) (rest : Program) (line : Nat) :
    Arrives sym s (stmt :: rest) line s stmt
  | later {s t u : Emit} {stmt stmt' : Statement} {rest : Program} {line : Nat}
      {entry : Option ListingLine} (hstep : s.step sym stmt line = .ok (t, entry))
      (hend : stmt.isEnd = false) (hrest : Arrives sym t rest (line + 1) u stmt') :
    Arrives sym s (stmt :: rest) line u stmt'

/-- Every label has the pc at which the emission places its statement. -/
def LabelsPlaced (program : Program) (symbols : SymbolTable) : Prop :=
  ∀ s stmt name, Emit.Arrives symbols .init program 1 s stmt → stmt.labelName = some name →
    symbols.lookup name = some (i64 s.pc)

/-- Two walks that agree where they start stay together to every statement. -/
theorem label_of_arrives {symbols : SymbolTable} {e u : Emit} {program : Program} {line : Nat}
    {stmt : Statement} (hr : Emit.Arrives symbols e program line u stmt) {p q : Pass1}
    (ha : Agree p e) (hp : p.run (some symbols) program line = .ok q) (hq : q.symbols = symbols)
    (hn : (definedNames program).Nodup)
    (hfresh : ∀ n ∈ definedNames program, p.symbols.lookup n = none) {name : String}
    (hl : stmt.labelName = some name) : symbols.lookup name = some (i64 u.pc) := by
  induction hr generalizing p with
  | here e stmt rest line =>
    have hx := run_extends hp hn hfresh
    rw [hq, hl] at hx
    rw [← ha.pc]
    exact hx name _ (Finmap.lookup_insert _)
  | @later e f u stmt stmt' rest line entry hstep hend _ ih =>
    have hx := run_extends hp hn hfresh
    rw [hq] at hx
    simp only [Pass1.run, bind_eq_ok, hend, Bool.false_eq_true, if_false] at hp
    obtain ⟨p', hps, hp⟩ := hp
    rw [definedNames, List.flatMap_cons] at hn hfresh
    obtain ⟨-, hrest, hdis⟩ := List.nodup_append.mp hn
    refine ih (step_agree ha hx hps hstep) hp hrest ?_ hl
    intro n hm
    have hnew : n ∉ stmt.defines := fun h => hdis n h n hm rfl
    rw [step_lookup hps hnew]
    exact hfresh n (List.mem_append_right _ hm)

theorem labelsPlaced_of_stable {program : Program} {symbols : SymbolTable}
    (hn : (definedNames program).Nodup) (hs : Stable program symbols) :
    LabelsPlaced program symbols := by
  intro s stmt name hr hl
  simp only [Stable, resolveSymbolsOnce, bind_eq_ok, Except.ok.injEq] at hs
  obtain ⟨q, hrun, hq⟩ := hs
  exact label_of_arrives hr ⟨rfl, rfl, rfl⟩ hrun hq hn (fun _ _ => rfl) hl

/-- Assembly places every label where its symbol says, and pass 1 would repeat the table, exactly
for the programs whose refinements settle within the ten rounds. -/
theorem assemble_labelsPlaced_iff (order : IterOrder) (program : Program) (r : AssembleResult)
    (h : assemble order program = .ok r) (hn : (definedNames program).Nodup) :
    (LabelsPlaced program r.symbols ∧ Stable program r.symbols) ↔ Settles program := by
  simp only [assemble, emitSegments, bind_eq_ok, Except.ok.injEq] at h
  obtain ⟨symbols, hsym, ⟨t, listing⟩, hrun, rfl⟩ := h
  rw [← stable_iff_settles hsym]
  constructor
  · exact And.right
  · intro hs
    exact ⟨labelsPlaced_of_stable hn hs, hs⟩

/-- Programs without instructions whose size depends on a symbol have their labels placed. -/
theorem labelsPlaced_of_fixedSizes {order : IterOrder} {program : Program} {r : AssembleResult}
    (h : assemble order program = .ok r) (hn : (definedNames program).Nodup)
    (hf : ∀ label inst, .instruction label inst ∈ program → inst.FixedSize) :
    LabelsPlaced program r.symbols ∧ Stable program r.symbols := by
  simp only [assemble, emitSegments, bind_eq_ok, Except.ok.injEq] at h
  obtain ⟨symbols, hsym, -, -, rfl⟩ := h
  have hstart := hsym
  simp only [resolveSymbols, bind_eq_ok] at hstart
  obtain ⟨start, hstart, -⟩ := hstart
  have hstable : Stable program symbols :=
    (stable_iff_settles hsym).mpr (settles_of_fixedSizes hstart hf)
  exact ⟨labelsPlaced_of_stable hn hstable, hstable⟩

/-- A jump over a label. -/
def jumpAhead : Program :=
  [.instruction none (.jmp (.symbol "lab") false), .instruction (some "lab") .nop]

theorem assemble_labelsPlaced_iff_jumpAhead :
    ∃ r, assemble .arbitrary jumpAhead = .ok r ∧ r.symbols.lookup "lab" = some 2 ∧
      LabelsPlaced jumpAhead r.symbols ∧ Stable jumpAhead r.symbols :=
  ⟨_, rfl, rfl, (assemble_labelsPlaced_iff .arbitrary jumpAhead _ rfl (by decide)).mpr
    ⟨0, Nat.zero_le _, _, rfl, rfl⟩⟩

/-- `bset #0,x:$41-lab` before `lab`: one word long where `lab` is 2, two where it is 1. -/
def oscillating : Program :=
  [.instruction none (.bset (.literal 0) (.addr .x (.binOp .sub (.literal 0x41) (.symbol "lab")))),
   .label "lab", .instruction none .nop]

/-- The label resolves to 1 and its statement is placed at 2, where one more pass puts it. -/
theorem oscillating_misplaced :
    ∃ r, assemble .arbitrary oscillating = .ok r ∧ (definedNames oscillating).Nodup ∧
      r.symbols.lookup "lab" = some 1 ∧ ¬ LabelsPlaced oscillating r.symbols ∧
      ¬ Stable oscillating r.symbols := by
  refine ⟨_, rfl, by decide, rfl, ?_, ?_⟩
  · intro h
    have hp := h _ _ "lab" (.later rfl rfl (.here _ _ _ _)) rfl
    cases hp
  · intro hs
    have hl := congrArg (fun t => t.toOption.bind (Finmap.lookup "lab")) hs
    cases hl

end Dsp56300.Asm
