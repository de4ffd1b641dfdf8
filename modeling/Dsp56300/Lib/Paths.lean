import Mathlib.Logic.Basic

/-! Structured code as a control-flow graph: every run-time path through it, and the rules that
bound what a path leaves. The conditions of its branches are not part of it. -/

namespace Lib.Paths

variable {A E σ τ : Type}

/-- Code over actions `A` that may leave through exits `E`. A loop is tested at its bottom. -/
inductive Prog (A E : Type) where
  | nop
  | act (a : A)
  | exit (e : E)
  | seq (p q : Prog A E)
  | branch (p q : Prog A E)
  | loop (p : Prog A E)

/-- What the actions and the exits do to a state. -/
structure Effects (A E σ : Type) where
  act : A → σ → σ → Prop
  exit : E → σ → σ → Prop

/-- A path through the code from one state to another; the flag tells whether it left through
an exit. -/
inductive Path (m : Effects A E σ) : Prog A E → σ → Bool → σ → Prop where
  | nop {s : σ} : Path m .nop s false s
  | act {a : A} {s t : σ} (h : m.act a s t) : Path m (.act a) s false t
  | exit {e : E} {s t : σ} (h : m.exit e s t) : Path m (.exit e) s true t
  | left {p q : Prog A E} {s t : σ} (hp : Path m p s true t) : Path m (.seq p q) s true t
  | seq {p q : Prog A E} {s t u : σ} {b : Bool} (hp : Path m p s false t) (hq : Path m q t b u) :
      Path m (.seq p q) s b u
  | fst {p q : Prog A E} {s t : σ} {b : Bool} (hp : Path m p s b t) : Path m (.branch p q) s b t
  | snd {p q : Prog A E} {s t : σ} {b : Bool} (hq : Path m q s b t) : Path m (.branch p q) s b t
  | last {p : Prog A E} {s t : σ} {b : Bool} (hp : Path m p s b t) : Path m (.loop p) s b t
  | again {p : Prog A E} {s t u : σ} {b : Bool} (hp : Path m p s false t)
      (hq : Path m (.loop p) t b u) : Path m (.loop p) s b u

section Inversion

variable {m : Effects A E σ} {p q : Prog A E} {s t : σ} {b : Bool}

theorem path_act {a : A} : Path m (.act a) s b t ↔ b = false ∧ m.act a s t := by
  constructor
  · rintro (_ | h)
    exact ⟨rfl, h⟩
  · rintro ⟨rfl, h⟩
    exact .act h

theorem path_exit {e : E} : Path m (.exit e) s b t ↔ b = true ∧ m.exit e s t := by
  constructor
  · rintro (_ | _ | h)
    exact ⟨rfl, h⟩
  · rintro ⟨rfl, h⟩
    exact .exit h

theorem path_seq : Path m (.seq p q) s b t ↔
    (b = true ∧ Path m p s true t) ∨ ∃ u, Path m p s false u ∧ Path m q u b t := by
  constructor
  · intro h
    cases h with
    | left h => exact .inl ⟨rfl, h⟩
    | seq h h' => exact .inr ⟨_, h, h'⟩
  · rintro (⟨rfl, h⟩ | ⟨u, h, h'⟩)
    · exact .left h
    · exact .seq h h'

end Inversion

/-- Related states take the same paths. -/
theorem Path.simulate {m : Effects A E σ} {n : Effects A E τ} {R : σ → τ → Prop}
    (hact : ∀ a s t u, m.act a s t → R s u → ∃ v, n.act a u v ∧ R t v)
    (hexit : ∀ e s t u, m.exit e s t → R s u → ∃ v, n.exit e u v ∧ R t v)
    {p : Prog A E} {s t : σ} {b : Bool} (h : Path m p s b t) {u : τ} (hu : R s u) :
    ∃ v, Path n p u b v ∧ R t v := by
  induction h generalizing u with
  | nop => exact ⟨u, .nop, hu⟩
  | act ha =>
    obtain ⟨v, hv, hR⟩ := hact _ _ _ u ha hu
    exact ⟨v, .act hv, hR⟩
  | exit he =>
    obtain ⟨v, hv, hR⟩ := hexit _ _ _ u he hu
    exact ⟨v, .exit hv, hR⟩
  | left _ ih =>
    obtain ⟨v, hv, hR⟩ := ih hu
    exact ⟨v, .left hv, hR⟩
  | seq _ _ ihp ihq =>
    obtain ⟨v, hv, hR⟩ := ihp hu
    obtain ⟨w, hw, hR⟩ := ihq hR
    exact ⟨w, .seq hv hw, hR⟩
  | fst _ ih =>
    obtain ⟨v, hv, hR⟩ := ih hu
    exact ⟨v, .fst hv, hR⟩
  | snd _ ih =>
    obtain ⟨v, hv, hR⟩ := ih hu
    exact ⟨v, .snd hv, hR⟩
  | last _ ih =>
    obtain ⟨v, hv, hR⟩ := ih hu
    exact ⟨v, .last hv, hR⟩
  | again _ _ ihp ihq =>
    obtain ⟨v, hv, hR⟩ := ihp hu
    obtain ⟨w, hw, hR⟩ := ihq hR
    exact ⟨w, .again hv hw, hR⟩

/-- From `pre`, every path that falls through ends in `post` and every exit in `out`. -/
def Triple (m : Effects A E σ) (pre : σ → Prop) (p : Prog A E) (post out : σ → Prop) : Prop :=
  ∀ s b t, pre s → Path m p s b t → if b then out t else post t

variable {m : Effects A E σ} {p q : Prog A E} {pre pre' mid post post' out out' : σ → Prop}

namespace Triple

theorem nop (h : ∀ s, pre s → post s) : Triple m pre .nop post out := by
  intro s b t hs hp
  cases hp
  exact h s hs

theorem act {a : A} (h : ∀ s t, pre s → m.act a s t → post t) :
    Triple m pre (.act a) post out := by
  intro s b t hs hp
  cases hp with
  | act ha => exact h s t hs ha

theorem exit {e : E} (h : ∀ s t, pre s → m.exit e s t → out t) :
    Triple m pre (.exit e) post out := by
  intro s b t hs hp
  cases hp with
  | exit he => exact h s t hs he

theorem seq (hp : Triple m pre p mid out) (hq : Triple m mid q post out) :
    Triple m pre (.seq p q) post out := by
  intro s b t hs hr
  cases hr with
  | left h => exact hp s true t hs h
  | seq h h' => exact hq _ b t (hp s false _ hs h) h'

theorem branch (hp : Triple m pre p post out) (hq : Triple m pre q post out) :
    Triple m pre (.branch p q) post out := by
  intro s b t hs hr
  cases hr with
  | fst h => exact hp s b t hs h
  | snd h => exact hq s b t hs h

/-- The rule of a loop: its body may run again from where it ends. -/
theorem loop (hp : Triple m pre p post out) (h : ∀ s, post s → pre s) :
    Triple m pre (.loop p) post out := by
  intro s b t hs hr
  generalize hl : Prog.loop p = l at hr
  induction hr with
  | last hb =>
    cases hl
    exact hp _ _ _ hs hb
  | again hb _ _ ih =>
    cases hl
    exact ih (h _ (hp _ _ _ hs hb)) rfl
  | _ => cases hl

theorem mono (h : Triple m pre p post out) (hpre : ∀ s, pre' s → pre s)
    (hpost : ∀ s, post s → post' s) (hout : ∀ s, out s → out' s) :
    Triple m pre' p post' out' := by
  intro s b t hs hr
  have ht := h s b t (hpre s hs) hr
  cases b with
  | false => exact hpost t ht
  | true => exact hout t ht

/-- What every action keeps holds along every path. -/
theorem of_invariant (ha : ∀ a s t, pre s → m.act a s t → pre t)
    (he : ∀ e s t, pre s → m.exit e s t → out t) (p : Prog A E) : Triple m pre p pre out := by
  induction p with
  | nop => exact nop fun _ hs => hs
  | act a => exact act (ha a)
  | exit e => exact exit (he e)
  | seq p q ihp ihq => exact ihp.seq ihq
  | branch p q ihp ihq => exact ihp.branch ihq
  | loop p ih => exact ih.loop fun _ hs => hs

end Triple

end Lib.Paths
