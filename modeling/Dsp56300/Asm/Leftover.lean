import Dsp56300.Asm.ListingLayout
import Dsp56300.Lib.Orders

/-! What the sections of a program are left with at its end, and the order it goes out in. -/

namespace Dsp56300.Asm

open Lib.Results Lib.Finmaps Lib.Orders

set_option linter.constructorNameAsVariable false

/-- Words from an origin on. -/
structure Stretch where
  org : Word
  words : List Word

/-- The sections of a program: the stretch being written, the space and next address of each
declared section, and the stretch each was left with. -/
structure Sections where
  pc : Word
  stretch : Stretch
  current : Option String
  declared : String → Option (MemorySpace × Word)
  left : String → Option Stretch

namespace Sections

def init : Sections := ⟨0, ⟨0, []⟩, none, fun _ => none, fun _ => none⟩

def push (t : Sections) (ws : List Word) : Sections :=
  { t with stretch := { t.stretch with words := t.stretch.words ++ ws },
           pc := t.pc + BitVec.ofNat 32 ws.length }

/-- A new stretch. -/
def restart (t : Sections) (pc : Word) : Sections := { t with pc := pc, stretch := ⟨pc, []⟩ }

/-- The current section is left with what was written. -/
def suspend (t : Sections) : Sections :=
  match t.current with
  | some cur =>
    { t with declared := Function.update t.declared cur ((t.declared cur).map fun d => (d.1, t.pc)),
             left := Function.update t.left cur (some t.stretch),
             stretch := { t.stretch with words := [] } }
  | none => { t with stretch := { t.stretch with words := [] } }

def declare (t : Sections) (name : String) (space : MemorySpace) (start : Word) : Sections :=
  { t.restart start with declared := Function.update t.declared name (some (space, start)),
                         current := some name }

/-- A declared section goes on with what it was left with. -/
def resume (t : Sections) (name : String) : Sections :=
  match t.declared name with
  | some (_, pc) =>
    match t.left name with
    | some stretch =>
      { t with pc := pc, stretch := stretch, left := Function.update t.left name none,
               current := some name }
    | none => { t.restart pc with current := some name }
  | none => { t with current := some name }

def directive (t : Sections) (sym : SymbolTable) (dir : Directive) (line : Nat) :
    AsmResult Sections :=
  match dir with
  | .org _ addr => do
    let pc ← evalAt addr sym t.pc line
    .ok (t.restart pc)
  | .dc values => do
    let ws ← Emit.dcWords sym line values t.pc
    .ok (t.push ws)
  | .ds size => do
    let n ← evalAt size sym t.pc line
    if n > 0xFFFFFF then dsTooLarge line else .ok (t.push (List.replicate n.toNat 0))
  | .psect name (some (space, start, _)) => do
    let startVal ← evalAt start sym t.pc line
    .ok (t.suspend.declare name space startVal)
  | .psect name none => .ok (t.suspend.resume name)
  | .align alignment => do
    let n ← evalAt alignment sym t.pc line
    .ok (if alignUp t.pc n ≠ t.pc then t.restart (alignUp t.pc n) else t)
  | _ => .ok t

def step (sym : SymbolTable) (t : Sections) (stmt : Statement) (line : Nat) : AsmResult Sections :=
  match stmt with
  | .empty | .label _ => .ok t
  | .directive _ dir => t.directive sym dir line
  | .instruction _ inst => do
    let encoded ← atLine line (encode inst t.pc sym)
    .ok (t.push encoded.toList)

/-- The sections after the statements from `line` on. -/
def run (sym : SymbolTable) (t : Sections) : Program → Nat → AsmResult Sections
  | [], _ => .ok t
  | stmt :: rest, line => do
    let t' ← t.step sym stmt line
    if stmt.isEnd then .ok t' else run sym t' rest (line + 1)

/-- The words a section is left with, in the space it was declared in. -/
def leftover (t : Sections) (name : String) : Option Segment :=
  match t.left name, t.declared name with
  | some stretch, some (space, _) =>
    if stretch.words = [] then none else some ⟨space, stretch.org, stretch.words⟩
  | _, _ => none

/-- No two sections are left with different words, spaces or origins. -/
def Unrivalled (t : Sections) : Prop :=
  ∀ n n' g g', t.leftover n = some g → t.leftover n' = some g' → g = g'

end Sections

/-- The sections of an emission. -/
structure Emit.Tracks (s : Emit) (t : Sections) : Prop where
  pc : t.pc = s.pc
  org : t.stretch.org = s.org
  words : t.stretch.words = s.words
  current : t.current = s.currentPsect
  declared : ∀ n, t.declared n = (s.psects.lookup n).map fun d => (d.space, d.pc)
  left : ∀ n, t.left n = (s.psectWords.lookup n).map fun e => ⟨e.1, e.2⟩

namespace Emit.Tracks

variable {s : Emit} {t : Sections}

theorem init : Emit.init.Tracks Sections.init := ⟨rfl, rfl, rfl, rfl, fun _ => rfl, fun _ => rfl⟩

theorem push (h : s.Tracks t) (ws : List Word) : (s.push ws).Tracks (t.push ws) where
  pc := congrArg (· + BitVec.ofNat 32 ws.length) h.pc
  org := h.org
  words := congrArg (· ++ ws) h.words
  current := h.current
  declared := h.declared
  left := h.left

theorem restart (h : s.Tracks t) (space : MemorySpace) (pc : Word) :
    ({ s.flush with space := space, pc := pc, org := pc } : Emit).Tracks (t.restart pc) where
  pc := rfl
  org := rfl
  words := (flush_words s).symm
  current := by
    obtain ⟨-, -, hc, -⟩ := flush_fields s
    exact h.current.trans hc.symm
  declared n := by
    obtain ⟨hp, -⟩ := flush_fields s
    exact (h.declared n).trans (by rw [hp])
  left n := by
    obtain ⟨-, hw, -⟩ := flush_fields s
    exact (h.left n).trans (by rw [hw])

theorem suspend (h : s.Tracks t) : s.leavePsect.Tracks t.suspend := by
  have hcur := h.current
  unfold Emit.leavePsect Sections.suspend
  rw [hcur]
  cases hc : s.currentPsect with
  | none =>
    obtain ⟨hp, hw, hf, hpc, ho⟩ := flush_fields s
    exact ⟨h.pc.trans hpc.symm, h.org.trans ho.symm, (flush_words s).symm,
      hc.symm.trans hf.symm, fun n => (h.declared n).trans (by rw [hp]),
      fun n => (h.left n).trans (by rw [hw])⟩
  | some cur =>
    refine ⟨h.pc, h.org, rfl, rfl, fun n => ?_, fun n => ?_⟩
    · change Function.update t.declared cur _ n = _
      have hd := h.declared cur
      by_cases hn : n = cur
      · subst hn
        rw [Function.update_self, hd, h.pc, savePsect]
        cases hl : s.psects.lookup n with
        | none => simp [hl]
        | some state => simp [Finmap.lookup_insert]
      · rw [Function.update_of_ne hn, h.declared n, savePsect]
        cases hl : s.psects.lookup cur with
        | none => rfl
        | some state => simp [Finmap.lookup_insert_of_ne _ hn]
    · change Function.update t.left cur _ n = _
      by_cases hn : n = cur
      · subst hn
        rw [Function.update_self, Finmap.lookup_insert, ← h.org, ← h.words]
        rfl
      · rw [Function.update_of_ne hn, Finmap.lookup_insert_of_ne _ hn, h.left n]

theorem declare (h : s.Tracks t) (hw : s.words = []) (name : String) (space : MemorySpace)
    (start : Word) : (s.declarePsect name space start).Tracks (t.declare name space start) where
  pc := rfl
  org := rfl
  words := hw.symm
  current := rfl
  declared n := by
    change Function.update t.declared name _ n = ((s.psects.insert name _).lookup n).map _
    by_cases hn : n = name
    · subst hn
      rw [Function.update_self, Finmap.lookup_insert]
      rfl
    · rw [Function.update_of_ne hn, Finmap.lookup_insert_of_ne _ hn, h.declared n]
  left := h.left

theorem resume (h : s.Tracks t) (hw : s.words = []) (name : String) :
    (s.enterPsect name).Tracks (t.resume name) := by
  have hd := h.declared name
  have hl := h.left name
  unfold Emit.enterPsect Sections.resume
  cases hp : s.psects.lookup name with
  | none =>
    rw [hp] at hd
    rw [hd]
    exact ⟨h.pc, h.org, h.words, rfl, h.declared, h.left⟩
  | some state =>
    rw [hp] at hd
    rw [hd]
    cases he : s.psectWords.lookup name with
    | none =>
      rw [he] at hl
      simp only [Option.map_some, hl, Option.map_none]
      exact ⟨rfl, rfl, hw.symm, rfl, h.declared, h.left⟩
    | some saved =>
      rw [he] at hl
      simp only [Option.map_some, hl]
      refine ⟨rfl, rfl, rfl, rfl, h.declared, fun n => ?_⟩
      change Function.update t.left name none n = _
      by_cases hn : n = name
      · subst hn
        rw [Function.update_self, Finmap.lookup_erase]
        rfl
      · rw [Function.update_of_ne hn, Finmap.lookup_erase_ne hn, h.left n]

theorem alignTo (h : s.Tracks t) (n : Word) : (s.alignTo n).Tracks
    (if alignUp t.pc n ≠ t.pc then t.restart (alignUp t.pc n) else t) := by
  rw [h.pc]
  unfold Emit.alignTo
  dsimp only
  split
  · exact h.restart s.flush.space _
  · exact h

/-- The emission and the sections go on or fail together; the listing is left aside. -/
def Ends {γ : Type} (x : AsmResult (Emit × γ)) (y : AsmResult Sections) : Prop :=
  match x, y with
  | .ok r, .ok t => r.1.Tracks t
  | .error e, .error e' => e = e'
  | _, _ => False

theorem directive (h : s.Tracks t) (sym : SymbolTable) (dir : Directive) (line : Nat) :
    Ends (s.directive sym dir line) (t.directive sym dir line) := by
  have hpc := h.pc
  cases dir with
  | org space addr =>
    simp only [Emit.directive, Sections.directive, hpc]
    cases evalAt addr sym s.pc line with
    | error e => exact rfl
    | ok pc => exact h.restart space pc
  | dc values =>
    simp only [Emit.directive, Sections.directive, hpc]
    cases Emit.dcWords sym line values s.pc with
    | error e => exact rfl
    | ok ws => exact h.push ws
  | ds size =>
    simp only [Emit.directive, Sections.directive, hpc]
    cases evalAt size sym s.pc line with
    | error e => exact rfl
    | ok n =>
      change Ends (if n > 0xFFFFFF then _ else _) (if n > 0xFFFFFF then _ else _)
      split
      · exact rfl
      · exact h.push _
  | psect name range =>
    have hw := s.leave_words
    cases range with
    | none => exact h.suspend.resume hw name
    | some r =>
      obtain ⟨space, start, stop⟩ := r
      simp only [Emit.directive, Sections.directive, hpc]
      cases evalAt start sym s.pc line with
      | error e => exact rfl
      | ok startVal => exact h.suspend.declare hw name space startVal
  | align alignment =>
    simp only [Emit.directive, Sections.directive, hpc]
    cases evalAt alignment sym s.pc line with
    | error e => exact rfl
    | ok n => exact hpc ▸ h.alignTo n
  | _ => exact h

theorem step (h : s.Tracks t) (sym : SymbolTable) (stmt : Statement) (line : Nat) :
    Ends (s.step sym stmt line) (t.step sym stmt line) := by
  cases stmt with
  | directive label dir => exact h.directive sym dir line
  | instruction label inst =>
    simp only [Emit.step, Sections.step, h.pc]
    cases atLine line (encode inst s.pc sym) with
    | error e => exact rfl
    | ok encoded => exact h.push _
  | _ => exact h

theorem run (h : s.Tracks t) (sym : SymbolTable) (program : Program) (line : Nat) :
    Ends (s.run sym program line) (t.run sym program line) := by
  induction program generalizing s t line with
  | nil => exact h
  | cons stmt rest ih =>
    have hstep := h.step sym stmt line
    simp only [Emit.run, Sections.run]
    cases hs : s.step sym stmt line with
    | error e =>
      cases ht : t.step sym stmt line with
      | error e' => rwa [hs, ht] at hstep
      | ok t' => exact absurd hstep (by rw [hs, ht]; exact id)
    | ok r =>
      cases ht : t.step sym stmt line with
      | error e' => exact absurd hstep (by rw [hs, ht]; exact id)
      | ok t' =>
        have hnext : r.1.Tracks t' := by rwa [hs, ht] at hstep
        change Ends (if stmt.isEnd then _ else _) (if stmt.isEnd then _ else _)
        split
        · exact hnext
        · have hrest := ih hnext (line + 1)
          revert hrest
          cases r.1.run sym rest (line + 1) <;> cases t'.run sym rest (line + 1) <;> exact id

/-- A saved section goes out as what the section is left with. -/
theorem savedSegment (h : s.Tracks t) {e : Sigma fun _ : String => Word × List Word}
    (he : e ∈ s.psectWords.entries) : s.savedSegment e = t.leftover e.1 := by
  obtain ⟨name, org, words⟩ := e
  have hl := h.left name
  have hd := h.declared name
  rw [mem_entries_iff.mp he] at hl
  unfold Emit.savedSegment Sections.leftover
  rw [hl, hd]
  cases s.psects.lookup name with
  | none => simp
  | some state => rfl

/-- Only a saved section is left with anything. -/
theorem leftover_saved (h : s.Tracks t) {name : String} {g : Segment}
    (hg : t.leftover name = some g) : ∃ e ∈ s.psectWords.entries, e.1 = name := by
  have hl := h.left name
  cases he : s.psectWords.lookup name with
  | none =>
    rw [he] at hl
    simp [Sections.leftover, hl] at hg
  | some saved => exact ⟨⟨name, saved⟩, mem_entries_iff.mpr he, rfl⟩

end Emit.Tracks

/-- The order that goes through one map as `l` does. -/
noncomputable def IterOrder.through (m : PsectWords)
    (l : List (Sigma fun _ : String => Word × List Word)) (h : (l : Multiset _) = m.entries) :
    IterOrder where
  entries m' := open Classical in if m' = m then l else m'.entries.toList
  coe_entries m' := by
    split
    · next he => rw [he, h]
    · exact m'.entries.coe_toList

theorem IterOrder.through_entries {m : PsectWords}
    {l : List (Sigma fun _ : String => Word × List Word)} (h : (l : Multiset _) = m.entries) :
    (IterOrder.through m l h).entries m = l := if_pos rfl

/-- The last flush depends on the order exactly where two sections are left with different words. -/
theorem Emit.finish_order_iff {s : Emit} {t : Sections} (h : s.Tracks t) :
    (∀ o o' : IterOrder, s.finish o = s.finish o') ↔ t.Unrivalled := by
  have hlists : (∀ o o' : IterOrder, s.finish o = s.finish o') ↔
      ∀ l l' : List (Sigma fun _ : String => Word × List Word),
        (l : Multiset _) = s.psectWords.entries → (l' : Multiset _) = s.psectWords.entries →
        l.filterMap s.savedSegment = l'.filterMap s.savedSegment := by
    constructor
    · intro horder l l' hl hl'
      have hfinish := horder (.through s.psectWords l hl) (.through s.psectWords l' hl')
      simp only [finish, IterOrder.through_entries] at hfinish
      exact List.append_cancel_left hfinish
    · intro hall o o'
      exact congrArg (s.flush.segments ++ ·) (hall _ _ (o.coe_entries _) (o'.coe_entries _))
  rw [hlists, filterMap_order_iff]
  constructor
  · intro hall n n' g g' hg hg'
    obtain ⟨e, he, rfl⟩ := h.leftover_saved hg
    obtain ⟨e', he', rfl⟩ := h.leftover_saved hg'
    exact hall e he e' he' g g' ((h.savedSegment he).trans hg) ((h.savedSegment he').trans hg')
  · intro hun e he e' he' g g' hg hg'
    exact hun e.1 e'.1 g g' ((h.savedSegment he).symm.trans hg)
      ((h.savedSegment he').symm.trans hg')

/-- A program that is walked to its end, and the sections it leaves. -/
theorem emitSegments_order {program : Program} {symbols : SymbolTable} {t : Sections}
    (ht : Sections.init.run symbols program 1 = .ok t) :
    (∀ o o' : IterOrder, emitSegments o program symbols = emitSegments o' program symbols) ↔
      t.Unrivalled := by
  have hends := Emit.Tracks.init.run symbols program 1
  unfold emitSegments
  cases hs : Emit.init.run symbols program 1 with
  | error e => exact absurd hends (by rw [hs, ht]; exact id)
  | ok r =>
    have htracks : r.1.Tracks t := by rwa [hs, ht] at hends
    rw [← Emit.finish_order_iff htracks]
    constructor
    · intro hall o o'
      exact congrArg AssembleResult.segments (Except.ok.inj (hall o o'))
    · intro hall o o'
      change Except.ok (AssembleResult.mk _ _ _) = Except.ok (AssembleResult.mk _ _ _)
      rw [hall o o']

/-- A program that cannot be walked fails with the same error in every order. -/
theorem emitSegments_order_error {program : Program} {symbols : SymbolTable} {e : AssembleError}
    (ht : Sections.init.run symbols program 1 = .error e) (o : IterOrder) :
    emitSegments o program symbols = .error e := by
  have hends := Emit.Tracks.init.run symbols program 1
  unfold emitSegments
  cases hs : Emit.init.run symbols program 1 with
  | error e' =>
    rw [hs, ht] at hends
    exact congrArg Except.error hends
  | ok r => exact absurd hends (by rw [hs, ht]; exact id)

/-- Assembly is reproducible exactly where a program fails, or no two of its sections are left with
different words at its end. -/
theorem emitSegments_reproducible (program : Program) (symbols : SymbolTable) :
    (∀ o o' : IterOrder, emitSegments o program symbols = emitSegments o' program symbols) ↔
      ∀ t, Sections.init.run symbols program 1 = .ok t → t.Unrivalled := by
  cases ht : Sections.init.run symbols program 1 with
  | error e =>
    refine ⟨fun _ _ => nofun, fun _ o o' => ?_⟩
    rw [emitSegments_order_error ht, emitSegments_order_error ht]
  | ok t =>
    rw [emitSegments_order ht]
    constructor
    · intro hun t' ht'
      exact Except.ok.inj ht' ▸ hun
    · intro hall
      exact hall t rfl

/-- Two sections with a word each, and a third one entered. -/
def twoSections : Program :=
  [.directive none (.psect "a" (some (.p, .literal 0, .literal 0xf))),
   .directive none (.dc [.literal 1]),
   .directive none (.psect "b" (some (.p, .literal 0x10, .literal 0x1f))),
   .directive none (.dc [.literal 2]),
   .directive none (.psect "c" (some (.p, .literal 0x20, .literal 0x2f)))]

/-- The words of the first two go out in an order that is not fixed. -/
theorem twoSections_order : ¬ ∀ o o' : IterOrder,
    emitSegments o twoSections ∅ = emitSegments o' twoSections ∅ := by
  obtain ⟨t, ht⟩ : ∃ t, Sections.init.run ∅ twoSections 1 = .ok t := ⟨_, rfl⟩
  rw [emitSegments_order ht]
  cases ht
  intro hun
  have hsame := hun "a" "b" ⟨.p, 0, [1]⟩ ⟨.p, 0x10, [2]⟩ rfl rfl
  exact absurd hsame (by decide)

end Dsp56300.Asm
