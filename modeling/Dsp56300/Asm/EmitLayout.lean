import Dsp56300.Asm.Layout
import Dsp56300.Lib.Results
import Mathlib.Tactic.Abel

namespace Dsp56300.Asm

open Lib.Finmaps Lib.Results

namespace Emit

/-- The walk is in step with itself: the pc is where the next word will go, and each psect left
behind will be entered where its saved words end. -/
structure InStep (s : Emit) : Prop where
  pc_eq : s.pc = s.org + BitVec.ofNat 32 s.words.length
  saved : ∀ name state org words, s.currentPsect ≠ some name → s.psects.lookup name = some state →
    s.psectWords.lookup name = some (org, words) →
    state.pc = org + BitVec.ofNat 32 words.length

theorem init_inStep : init.InStep := ⟨rfl, fun _ _ _ _ _ h => nomatch h⟩

/-- The space a psect is declared with once a psect statement has run. -/
def spaceAfter (s : Emit) (name : String) (range : Option (MemorySpace × Expr × Expr))
    (n : String) : Option MemorySpace :=
  match range with
  | some (space, _, _) => if n = name then some space else spaceOf s.psects n
  | none => spaceOf s.psects n

/-- A psect statement that loses and moves no words: the psect it leaves has no words saved yet and
its words are in the space it is declared with; the psect it declares keeps its saved words in
their space; the psect it switches to is declared, unless no words are pending. -/
structure SettledPsect (s : Emit) (name : String) (range : Option (MemorySpace × Expr × Expr)) :
    Prop where
  leaves : ∀ cur, s.currentPsect = some cur →
    s.savedWords cur = [] ∧ (s.words ≠ [] → s.spaceAfter name range cur = some s.space)
  keeps : s.savedWords name ≠ [] → s.spaceAfter name range name = spaceOf s.psects name
  enters : range = none → spaceOf s.psects name = none → s.words = []

/-- Only psect statements can lose or move words. -/
def Settled (s : Emit) : Statement → Prop
  | .directive _ (.psect name range) => s.SettledPsect name range
  | _ => True

/-! Cells under the pieces of a step. -/

theorem flush_words (s : Emit) : s.flush.words = [] := by
  unfold flush
  split
  · assumption
  · rfl

theorem flush_fields (s : Emit) : s.flush.psects = s.psects ∧ s.flush.psectWords = s.psectWords ∧
    s.flush.currentPsect = s.currentPsect ∧ s.flush.pc = s.pc ∧ s.flush.org = s.org := by
  unfold flush
  split <;> exact ⟨rfl, rfl, rfl, rfl, rfl⟩

/-- Starting over at another place after a flush keeps every cell. -/
theorem restart_cells (s : Emit) (space : MemorySpace) (pc org : Word) :
    { s.flush with space := space, pc := pc, org := org }.cells = s.cells := by
  obtain ⟨hp, hw, -, -, -⟩ := s.flush_fields
  simp only [cells, flush_words, cells_nil, flush_segments, add_zero, hp, hw]

theorem restart_inStep {s : Emit} (hs : s.InStep) (space : MemorySpace) (pc : Word) :
    { s.flush with space := space, pc := pc, org := pc }.InStep := by
  obtain ⟨hp, hw, hc, -, -⟩ := s.flush_fields
  constructor
  · simp [flush_words]
  · intro name state org words hn hl hm
    rw [hp] at hl
    rw [hw] at hm
    exact hs.saved name state org words (hc ▸ hn) hl hm

theorem push_cells {s : Emit} (hs : s.InStep) (ws : List Word) :
    (s.push ws).cells = s.cells + Asm.cells s.space s.pc ws := by
  rw [cells, push, cells, cells_append, hs.pc_eq]
  abel

theorem push_inStep {s : Emit} (hs : s.InStep) (ws : List Word) : (s.push ws).InStep := by
  refine ⟨?_, hs.saved⟩
  change s.pc + _ = s.org + BitVec.ofNat 32 (s.words ++ ws).length
  rw [hs.pc_eq, List.length_append, BitVec.ofNat_add, BitVec.add_assoc]

/-! Psect switches. -/

/-- Leaving a psect moves its words into the saved ones, and no cell changes, provided that
afterwards the spaces are right for all that is saved. -/
theorem leave_cells {s : Emit} {spaces : String → Option MemorySpace}
    (hl : ∀ cur, s.currentPsect = some cur →
      s.savedWords cur = [] ∧ (s.words ≠ [] → spaces cur = some s.space))
    (hk : ∀ n, s.savedWords n ≠ [] → spaces n = spaceOf s.psects n) :
    segmentCells s.leavePsect.segments + collect s.leavePsect.psectWords (savedCells spaces) =
      s.cells := by
  have hsaved : ∀ n p, s.psectWords.lookup n = some p →
      savedCells (spaceOf s.psects) n p = savedCells spaces n p := by
    intro n p hp
    by_cases hw : p.2 = []
    · simp only [savedCells, hw, cells_nil]
      split <;> split <;> rfl
    · rw [savedCells, savedCells, hk n (by simpa [savedWords, hp] using hw)]
  have hc : collect s.psectWords (savedCells (spaceOf s.psects)) =
      collect s.psectWords (savedCells spaces) := collect_congr hsaved
  unfold leavePsect cells
  rw [hc]
  cases h : s.currentPsect with
  | none =>
    simp only [flush_segments, s.flush_fields.2.1]
  | some cur =>
    obtain ⟨hold, hspace⟩ := hl cur h
    have hcur : savedCells spaces cur (s.org, s.words) = Asm.cells s.space s.org s.words := by
      by_cases hw : s.words = []
      · simp only [savedCells, hw, cells_nil]
        split <;> rfl
      · simp only [savedCells, hspace hw]
    have herase : collect s.psectWords (savedCells spaces) =
        collect (s.psectWords.erase cur) (savedCells spaces) := by
      cases hp : s.psectWords.lookup cur with
      | none => rw [erase_of_lookup_none hp]
      | some p =>
        have hw : p.2 = [] := by simpa [savedWords, hp] using hold
        have hz : savedCells spaces cur p = 0 := by
          simp only [savedCells, hw, cells_nil]
          split <;> rfl
        rw [collect_of_lookup _ hp, hz, zero_add]
    simp only [collect_insert, hcur, herase, add_assoc]

theorem leave_words (s : Emit) : s.leavePsect.words = [] := by
  unfold leavePsect
  cases s.currentPsect with
  | none => exact s.flush_words
  | some cur => rfl

theorem leave_pc (s : Emit) : s.leavePsect.pc = s.pc ∧ s.leavePsect.org = s.org := by
  unfold leavePsect
  cases s.currentPsect with
  | none => exact ⟨s.flush_fields.2.2.2.1, s.flush_fields.2.2.2.2⟩
  | some cur => exact ⟨rfl, rfl⟩

theorem leave_spaceOf (s : Emit) : spaceOf s.leavePsect.psects = spaceOf s.psects := by
  unfold leavePsect
  cases h : s.currentPsect with
  | none => exact congrArg spaceOf s.flush_fields.1
  | some cur => exact spaceOf_savePsect _ _ _

/-- Once the current psect is left, every psect is entered where its saved words end. -/
theorem leave_saved {s : Emit} (hs : s.InStep) {name : String} {state : PsectState} {org : Word}
    {words : List Word} (hl : s.leavePsect.psects.lookup name = some state)
    (hw : s.leavePsect.psectWords.lookup name = some (org, words)) :
    state.pc = org + BitVec.ofNat 32 words.length := by
  unfold leavePsect at hl hw
  cases h : s.currentPsect with
  | none =>
    simp only [h, s.flush_fields.1, s.flush_fields.2.1] at hl hw
    exact hs.saved name state org words (by simp [h]) hl hw
  | some cur =>
    simp only [h, lookup_savePsect, Option.some.injEq] at hl hw
    by_cases hn : cur = name
    · subst hn
      rw [if_pos rfl] at hl
      rw [Finmap.lookup_insert] at hw
      obtain ⟨old, -, rfl⟩ := Option.map_eq_some_iff.mp hl
      cases hw
      exact hs.pc_eq
    · rw [if_neg hn] at hl
      rw [Finmap.lookup_insert_of_ne _ (fun he => hn he.symm)] at hw
      exact hs.saved name state org words (by simpa [h] using hn) hl hw

theorem declare_cells (s : Emit) (hw : s.words = []) (name : String) (space : MemorySpace)
    (startVal : Word) : (s.declarePsect name space startVal).cells =
      segmentCells s.segments + collect s.psectWords
        (savedCells (fun n => if n = name then some space else spaceOf s.psects n)) := by
  have hsp : spaceOf (s.declarePsect name space startVal).psects =
      fun n => if n = name then some space else spaceOf s.psects n :=
    funext fun n => spaceOf_insert _ _ _ _
  rw [cells, hsp]
  simp [declarePsect, hw]

theorem declare_inStep (s : Emit) (hw : s.words = [])
    (hs : ∀ name state org words, s.psects.lookup name = some state →
      s.psectWords.lookup name = some (org, words) → state.pc = org + BitVec.ofNat 32 words.length)
    (name : String) (space : MemorySpace) (startVal : Word) :
    (s.declarePsect name space startVal).InStep := by
  constructor
  · simp [declarePsect, hw]
  · intro n state org words hn hl hm
    have hne : n ≠ name := fun he => hn (he ▸ rfl)
    rw [declarePsect, Finmap.lookup_insert_of_ne _ hne] at hl
    exact hs n state org words hl hm

theorem enter_cells (s : Emit) (hw : s.words = []) (name : String) :
    (s.enterPsect name).cells =
      segmentCells s.segments + collect s.psectWords (savedCells (spaceOf s.psects)) := by
  unfold enterPsect
  cases hl : s.psects.lookup name with
  | none => simp [cells, hw]
  | some state =>
    cases hm : s.psectWords.lookup name with
    | none => simp [cells, hw]
    | some p =>
      have hsp : savedCells (spaceOf s.psects) name p = Asm.cells state.space p.1 p.2 := by
        simp [savedCells, spaceOf, hl]
      rw [collect_of_lookup _ hm, hsp, ← add_assoc]
      rfl

theorem enter_inStep (s : Emit) (hw : s.words = [])
    (hs : ∀ name state org words, s.psects.lookup name = some state →
      s.psectWords.lookup name = some (org, words) → state.pc = org + BitVec.ofNat 32 words.length)
    (name : String) (hu : s.psects.lookup name = none → s.pc = s.org) :
    (s.enterPsect name).InStep := by
  unfold enterPsect
  cases hl : s.psects.lookup name with
  | none => exact ⟨by simp [hw, hu hl], fun n state org words _ => hs n state org words⟩
  | some state =>
    cases hm : s.psectWords.lookup name with
    | none => exact ⟨by simp [hw], fun n st org words _ => hs n st org words⟩
    | some p =>
      refine ⟨hs name state p.1 p.2 hl hm, ?_⟩
      intro n st org words hn hl' hm'
      have hne : n ≠ name := fun he => hn (he ▸ rfl)
      exact hs n st org words hl' (by rwa [Finmap.lookup_erase_ne hne] at hm')

end Emit

/-- What a statement puts into memory: the words of its listing line, and a `ds` its zeros. -/
def lineCells (sym : SymbolTable) (stmt : Statement) (entry : Option ListingLine) : Multiset Cell :=
  match entry with
  | none => 0
  | some l =>
    match stmt with
    | .instruction _ _ | .directive _ (.dc _) => cells l.space l.addr l.words
    | .directive _ (.ds size) =>
      match eval size sym l.addr with
      | .ok n => cells l.space l.addr (List.replicate n.toNat 0)
      | .error _ => 0
    | _ => 0

/-- Everything the statements list. -/
def listedCells (sym : SymbolTable) (program : Program) (listing : List (Option ListingLine)) :
    Multiset Cell :=
  (List.zipWith (lineCells sym) program listing).sum

theorem listedCells_none (sym : SymbolTable) (program : Program) :
    listedCells sym program (program.map fun _ => none) = 0 := by
  induction program with
  | nil => rfl
  | cons stmt rest ih => exact (zero_add _).trans ih

theorem eval_of_evalAt {e : Expr} {sym : SymbolTable} {pc : Word} {line : Nat} {v : Word}
    (h : evalAt e sym pc line = .ok v) : eval e sym pc = .ok v := by
  unfold evalAt at h
  cases he : eval e sym pc with
  | error err => simp [atLine, he] at h
  | ok w => simpa [atLine, he] using h

namespace Emit

theorem psect_step {s : Emit} (hs : s.InStep) {name : String}
    {range : Option (MemorySpace × Expr × Expr)} (hp : s.SettledPsect name range)
    {sym : SymbolTable} {line : Nat} {t : Emit} {entry : Option ListingLine}
    (h : s.directive sym (.psect name range) line = .ok (t, entry)) :
    t.InStep ∧ t.cells = s.cells ∧ entry = none := by
  have hk : ∀ n, s.savedWords n ≠ [] → s.spaceAfter name range n = spaceOf s.psects n := by
    intro n hn
    by_cases he : n = name
    · exact he ▸ hp.keeps (he ▸ hn)
    · unfold spaceAfter
      cases range with
      | none => rfl
      | some r => exact if_neg he
  have hcells := leave_cells hp.leaves hk
  have hsaved : ∀ name state org words, s.leavePsect.psects.lookup name = some state →
      s.leavePsect.psectWords.lookup name = some (org, words) →
      state.pc = org + BitVec.ofNat 32 words.length :=
    fun _ _ _ _ => leave_saved hs
  cases range with
  | none =>
    simp only [directive, Except.ok.injEq, Prod.mk.injEq] at h
    obtain ⟨rfl, rfl⟩ := h
    refine ⟨enter_inStep _ s.leave_words hsaved name ?_, ?_, rfl⟩
    · intro hu
      have hw := hp.enters rfl (by rw [← leave_spaceOf, spaceOf, hu]; rfl)
      rw [s.leave_pc.1, s.leave_pc.2, hs.pc_eq, hw]
      simp
    · rw [enter_cells _ s.leave_words, leave_spaceOf]
      exact hcells
  | some r =>
    obtain ⟨space, start, stop⟩ := r
    simp only [directive, bind_eq_ok, Except.ok.injEq, Prod.mk.injEq] at h
    obtain ⟨startVal, -, rfl, rfl⟩ := h
    refine ⟨declare_inStep _ s.leave_words hsaved name space startVal, ?_, rfl⟩
    rw [declare_cells _ s.leave_words, leave_spaceOf]
    exact hcells

theorem align_step {s : Emit} (hs : s.InStep) (n : Word) :
    (s.alignTo n).InStep ∧ (s.alignTo n).cells = s.cells := by
  unfold alignTo
  dsimp only
  split
  · have hsp : s.flush.space = s.space := by
      unfold flush
      split <;> rfl
    have ht := restart_inStep hs s.flush.space (alignUp s.pc n)
    have hc := s.restart_cells s.flush.space (alignUp s.pc n) (alignUp s.pc n)
    exact ⟨ht, hc⟩
  · exact ⟨hs, rfl⟩

theorem directive_step {s : Emit} (hs : s.InStep) {label : Option String} {dir : Directive}
    (hset : s.Settled (.directive label dir)) {sym : SymbolTable} {line : Nat} {t : Emit}
    {entry : Option ListingLine} (h : s.directive sym dir line = .ok (t, entry)) :
    t.InStep ∧ t.cells = s.cells + lineCells sym (.directive label dir) entry := by
  cases dir with
  | psect name range =>
    obtain ⟨ht, hc, rfl⟩ := psect_step hs hset h
    exact ⟨ht, by rw [hc]; exact (add_zero _).symm⟩
  | org space addr =>
    simp only [directive, bind_eq_ok, Except.ok.injEq, Prod.mk.injEq] at h
    obtain ⟨pc, -, rfl, rfl⟩ := h
    exact ⟨restart_inStep hs space pc, by rw [restart_cells]; exact (add_zero _).symm⟩
  | dc values =>
    simp only [directive, bind_eq_ok, Except.ok.injEq, Prod.mk.injEq] at h
    obtain ⟨ws, -, rfl, rfl⟩ := h
    exact ⟨push_inStep hs ws, push_cells hs ws⟩
  | ds size =>
    simp only [directive, bind_eq_ok, dsTooLarge, ite_error_eq_ok, Except.ok.injEq,
      Prod.mk.injEq] at h
    obtain ⟨n, hn, -, rfl, rfl⟩ := h
    refine ⟨push_inStep hs _, ?_⟩
    simp only [lineCells, eval_of_evalAt hn]
    exact push_cells hs _
  | align alignment =>
    simp only [directive, bind_eq_ok, Except.ok.injEq, Prod.mk.injEq] at h
    obtain ⟨n, -, rfl, rfl⟩ := h
    obtain ⟨ht, hc⟩ := align_step hs n
    exact ⟨ht, by rw [hc]; exact (add_zero _).symm⟩
  | _ =>
    simp only [directive, Except.ok.injEq, Prod.mk.injEq] at h
    obtain ⟨rfl, rfl⟩ := h
    exact ⟨hs, (add_zero _).symm⟩

/-- A settled step adds to the cells exactly what it lists. -/
theorem step_inStep {s : Emit} (hs : s.InStep) {stmt : Statement} (hset : s.Settled stmt)
    {sym : SymbolTable} {line : Nat} {t : Emit} {entry : Option ListingLine}
    (h : s.step sym stmt line = .ok (t, entry)) :
    t.InStep ∧ t.cells = s.cells + lineCells sym stmt entry := by
  cases stmt with
  | directive label dir => exact directive_step hs hset h
  | instruction label inst =>
    simp only [step, bind_eq_ok, Except.ok.injEq, Prod.mk.injEq] at h
    obtain ⟨encoded, -, rfl, rfl⟩ := h
    exact ⟨push_inStep hs _, push_cells hs _⟩
  | _ =>
    simp only [step, Except.ok.injEq, Prod.mk.injEq] at h
    obtain ⟨rfl, rfl⟩ := h
    exact ⟨hs, (add_zero _).symm⟩

/-- Every psect statement the walk meets is settled. -/
def SettledRun (sym : SymbolTable) (s : Emit) : Program → Nat → Prop
  | [], _ => True
  | stmt :: rest, line => s.Settled stmt ∧
    (stmt.isEnd = false → ∀ t entry, s.step sym stmt line = .ok (t, entry) →
      SettledRun sym t rest (line + 1))

/-- The states a walk passes through. -/
inductive Reaches (sym : SymbolTable) : Emit → Program → Nat → Emit → Prop where
  | refl (s : Emit) (program : Program) (line : Nat) : Reaches sym s program line s
  | step {s t u : Emit} {stmt : Statement} {rest : Program} {line : Nat}
      {entry : Option ListingLine} (hstep : s.step sym stmt line = .ok (t, entry))
      (hend : stmt.isEnd = false) (hrest : Reaches sym t rest (line + 1) u) :
      Reaches sym s (stmt :: rest) line u

theorem SettledRun.cons {sym : SymbolTable} {s t : Emit} {stmt : Statement} {rest : Program}
    {line : Nat} {entry : Option ListingLine} (hset : s.Settled stmt)
    (hstep : s.step sym stmt line = .ok (t, entry)) (hrest : SettledRun sym t rest (line + 1)) :
    SettledRun sym s (stmt :: rest) line := by
  refine ⟨hset, ?_⟩
  intro _ u e hu
  rw [hstep] at hu
  cases hu
  exact hrest

theorem inStep_of_reaches {sym : SymbolTable} {s t : Emit} {program : Program} {line : Nat}
    (hr : Reaches sym s program line t) (hs : s.InStep) (hset : SettledRun sym s program line) :
    t.InStep := by
  induction hr with
  | refl s program line => exact hs
  | step hstep hend _ ih => exact ih (step_inStep hs hset.1 hstep).1 (hset.2 hend _ _ hstep)

/-- A run whose psect statements are settled adds to the cells exactly what it lists. -/
theorem run_cells {sym : SymbolTable} {s t : Emit} {program : Program} {line : Nat}
    {listing : List (Option ListingLine)} (hs : s.InStep) (hset : SettledRun sym s program line)
    (h : s.run sym program line = .ok (t, listing)) :
    t.cells = s.cells + listedCells sym program listing := by
  induction program generalizing s line listing with
  | nil =>
    simp only [run, Except.ok.injEq, Prod.mk.injEq] at h
    obtain ⟨rfl, rfl⟩ := h
    exact (add_zero _).symm
  | cons stmt rest ih =>
    simp only [run, bind_eq_ok] at h
    obtain ⟨⟨s', entry⟩, hstep, h⟩ := h
    obtain ⟨hs', hc⟩ := step_inStep hs hset.1 hstep
    cases hend : stmt.isEnd with
    | true =>
      simp only [hend, if_true, Except.ok.injEq, Prod.mk.injEq] at h
      obtain ⟨rfl, rfl⟩ := h
      have hz := listedCells_none sym rest
      rw [hc]
      exact congrArg _ ((add_zero _).symm.trans (congrArg _ hz.symm))
    | false =>
      simp only [hend, Bool.false_eq_true, if_false, bind_eq_ok, Except.ok.injEq,
        Prod.mk.injEq] at h
      obtain ⟨⟨u, entries⟩, hrun, rfl, rfl⟩ := h
      rw [ih hs' (hset.2 hend _ _ hstep) hrun, hc, add_assoc]
      rfl

/-- What a state on the way holds, the end of the run still holds. -/
theorem cells_le_of_reaches {sym : SymbolTable} {s u t : Emit} {program : Program} {line : Nat}
    {listing : List (Option ListingLine)} (hr : Reaches sym s program line u) (hs : s.InStep)
    (hset : SettledRun sym s program line) (h : s.run sym program line = .ok (t, listing)) :
    u.cells ≤ t.cells := by
  induction hr generalizing listing with
  | refl s program line =>
    rw [run_cells hs hset h]
    exact Multiset.le_add_right _ _
  | step hstep hend _ ih =>
    simp only [run, bind_eq_ok] at h
    obtain ⟨⟨s', entry⟩, hs', h⟩ := h
    rw [hstep] at hs'
    cases hs'
    simp only [hend, Bool.false_eq_true, if_false, bind_eq_ok, Except.ok.injEq,
      Prod.mk.injEq] at h
    obtain ⟨⟨v, entries⟩, hrun, rfl, rfl⟩ := h
    exact ih (step_inStep hs hset.1 hstep).1 (hset.2 hend _ _ hstep) hrun

end Emit

end Dsp56300.Asm
