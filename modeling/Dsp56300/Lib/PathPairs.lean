import Dsp56300.Lib.Paths

/-! Two structured programs side by side: each path of the one has one of the other that ends
alike. -/

namespace Lib.Paths

variable {A B E F σ τ : Type}

/-- From states related by `pre`, every path of `p` has one of `q` that falls through with it,
related by `post`, or leaves with it, related by `out`. -/
def Follows (m : Effects A E σ) (n : Effects B F τ) (pre : σ → τ → Prop) (p : Prog A E)
    (q : Prog B F) (post out : σ → τ → Prop) : Prop :=
  ∀ s u b t, pre s u → Path m p s b t → ∃ v, Path n q u b v ∧ if b then out t v else post t v

variable {m : Effects A E σ} {n : Effects B F τ} {p p' : Prog A E} {q q' : Prog B F}
  {pre pre' mid post post' out out' : σ → τ → Prop} {a : A} {b : B} {e : E} {f : F}

namespace Follows

theorem nop : Follows m n pre .nop .nop pre out := by
  intro s u b t hs hp
  cases hp
  exact ⟨u, .nop, hs⟩

theorem act (h : ∀ s u t, pre s u → m.act a s t → ∃ v, n.act b u v ∧ post t v) :
    Follows m n pre (.act a) (.act b) post out := by
  intro s u _ t hs hp
  cases hp with
  | act ha =>
    obtain ⟨v, hv, ht⟩ := h s u t hs ha
    exact ⟨v, .act hv, ht⟩

theorem exit (h : ∀ s u t, pre s u → m.exit e s t → ∃ v, n.exit f u v ∧ out t v) :
    Follows m n pre (.exit e) (.exit f) post out := by
  intro s u _ t hs hp
  cases hp with
  | exit he =>
    obtain ⟨v, hv, ht⟩ := h s u t hs he
    exact ⟨v, .exit hv, ht⟩

theorem seq (hp : Follows m n pre p q mid out) (hq : Follows m n mid p' q' post out) :
    Follows m n pre (.seq p p') (.seq q q') post out := by
  intro s u b t hs hr
  cases hr with
  | left h =>
    obtain ⟨v, hv, ht⟩ := hp s u true t hs h
    exact ⟨v, .left hv, ht⟩
  | seq h h' =>
    obtain ⟨v, hv, ht⟩ := hp s u false _ hs h
    obtain ⟨w, hw, ht⟩ := hq _ v b t ht h'
    exact ⟨w, .seq hv hw, ht⟩

theorem branch (hp : Follows m n pre p q post out) (hq : Follows m n pre p' q' post out) :
    Follows m n pre (.branch p p') (.branch q q') post out := by
  intro s u b t hs hr
  cases hr with
  | fst h =>
    obtain ⟨v, hv, ht⟩ := hp s u b t hs h
    exact ⟨v, .fst hv, ht⟩
  | snd h =>
    obtain ⟨v, hv, ht⟩ := hq s u b t hs h
    exact ⟨v, .snd hv, ht⟩

/-- The rule of a loop: the bodies may run again from where they end. -/
theorem loop (hp : Follows m n pre p q post out) (h : ∀ s u, post s u → pre s u) :
    Follows m n pre (.loop p) (.loop q) post out := by
  intro s u b t hs hr
  generalize hl : Prog.loop p = l at hr
  induction hr generalizing u with
  | last hb =>
    cases hl
    obtain ⟨v, hv, ht⟩ := hp _ u _ _ hs hb
    exact ⟨v, .last hv, ht⟩
  | again hb _ _ ih =>
    cases hl
    obtain ⟨v, hv, ht⟩ := hp _ u _ _ hs hb
    obtain ⟨w, hw, ht⟩ := ih v (h _ v ht) rfl
    exact ⟨w, .again hv hw, ht⟩
  | _ => cases hl

theorem mono (h : Follows m n pre p q post out) (hpre : ∀ s u, pre' s u → pre s u)
    (hpost : ∀ s u, post s u → post' s u) (hout : ∀ s u, out s u → out' s u) :
    Follows m n pre' p q post' out' := by
  intro s u b t hs hr
  obtain ⟨v, hv, ht⟩ := h s u b t (hpre s u hs) hr
  refine ⟨v, hv, ?_⟩
  cases b with
  | false => exact hpost t v ht
  | true => exact hout t v ht

/-! Code that only one of the two has. -/

theorem before_left (ha : ∀ s u t, pre s u → m.act a s t → mid t u)
    (h : Follows m n mid p q post out) : Follows m n pre (.seq (.act a) p) q post out := by
  intro s u b t hs hr
  cases hr with
  | left h' => cases h'
  | seq h' h'' =>
    cases h' with
    | act ha' => exact h _ u b t (ha s u _ hs ha') h''

theorem before_right (hb : ∀ s u, pre s u → ∃ v, n.act b u v ∧ mid s v)
    (h : Follows m n mid p q post out) : Follows m n pre p (.seq (.act b) q) post out := by
  intro s u c t hs hr
  obtain ⟨v, hv, hs⟩ := hb s u hs
  obtain ⟨w, hw, ht⟩ := h s v c t hs hr
  exact ⟨w, .seq (.act hv) hw, ht⟩

theorem after_left (h : Follows m n pre p q mid out)
    (ha : ∀ s u t, mid s u → m.act a s t → post t u) :
    Follows m n pre (.seq p (.act a)) q post out := by
  intro s u b t hs hr
  cases hr with
  | left h' => exact h s u true t hs h'
  | seq h' h'' =>
    obtain ⟨v, hv, ht⟩ := h s u false _ hs h'
    cases h'' with
    | act ha' => exact ⟨v, hv, ha _ v t ht ha'⟩

theorem after_right (h : Follows m n pre p q mid out)
    (hb : ∀ s u, mid s u → ∃ v, n.act b u v ∧ post s v) :
    Follows m n pre p (.seq q (.act b)) post out := by
  intro s u c t hs hr
  obtain ⟨v, hv, ht⟩ := h s u c t hs hr
  cases c with
  | true => exact ⟨v, .left hv, ht⟩
  | false =>
    obtain ⟨w, hw, ht⟩ := hb t v ht
    exact ⟨w, .seq hv (.act hw), ht⟩

end Follows

/-- Both ways. -/
structure Pairs (m : Effects A E σ) (n : Effects B F τ) (pre : σ → τ → Prop) (p : Prog A E)
    (q : Prog B F) (post out : σ → τ → Prop) : Prop where
  forward : Follows m n pre p q post out
  backward : Follows n m (flip pre) q p (flip post) (flip out)

namespace Pairs

theorem nop : Pairs m n pre .nop .nop pre out := ⟨.nop, .nop⟩

theorem act (h : ∀ s u t, pre s u → m.act a s t → ∃ v, n.act b u v ∧ post t v)
    (h' : ∀ s u v, pre s u → n.act b u v → ∃ t, m.act a s t ∧ post t v) :
    Pairs m n pre (.act a) (.act b) post out := ⟨.act h, .act fun u s v => h' s u v⟩

theorem exit (h : ∀ s u t, pre s u → m.exit e s t → ∃ v, n.exit f u v ∧ out t v)
    (h' : ∀ s u v, pre s u → n.exit f u v → ∃ t, m.exit e s t ∧ out t v) :
    Pairs m n pre (.exit e) (.exit f) post out := ⟨.exit h, .exit fun u s v => h' s u v⟩

theorem seq (hp : Pairs m n pre p q mid out) (hq : Pairs m n mid p' q' post out) :
    Pairs m n pre (.seq p p') (.seq q q') post out :=
  ⟨hp.forward.seq hq.forward, hp.backward.seq hq.backward⟩

theorem branch (hp : Pairs m n pre p q post out) (hq : Pairs m n pre p' q' post out) :
    Pairs m n pre (.branch p p') (.branch q q') post out :=
  ⟨hp.forward.branch hq.forward, hp.backward.branch hq.backward⟩

theorem loop (hp : Pairs m n pre p q post out) (h : ∀ s u, post s u → pre s u) :
    Pairs m n pre (.loop p) (.loop q) post out :=
  ⟨hp.forward.loop h, hp.backward.loop fun u s => h s u⟩

theorem mono (h : Pairs m n pre p q post out) (hpre : ∀ s u, pre' s u → pre s u)
    (hpost : ∀ s u, post s u → post' s u) (hout : ∀ s u, out s u → out' s u) :
    Pairs m n pre' p q post' out' :=
  ⟨h.forward.mono hpre hpost hout,
    h.backward.mono (fun u s => hpre s u) (fun u s => hpost s u) fun u s => hout s u⟩

theorem of_pre (h : Pairs m n pre p q post out) (hpre : ∀ s u, pre' s u → pre s u) :
    Pairs m n pre' p q post out := h.mono hpre (fun _ _ => id) fun _ _ => id

theorem to_post (h : Pairs m n pre p q post out) (hpost : ∀ s u, post s u → post' s u) :
    Pairs m n pre p q post' out := h.mono (fun _ _ => id) hpost fun _ _ => id

/-- Code that the first has before the other's. -/
theorem before (ha : ∀ s u, pre s u → ∃ t, m.act a s t)
    (ha' : ∀ s u t, pre s u → m.act a s t → mid t u) (h : Pairs m n mid p q post out) :
    Pairs m n pre (.seq (.act a) p) q post out := by
  refine ⟨.before_left ha' h.forward, .before_right (fun u s hs => ?_) h.backward⟩
  obtain ⟨t, ht⟩ := ha s u hs
  exact ⟨t, ht, ha' s u t hs ht⟩

/-- Code that the first has behind the other's. -/
theorem after (h : Pairs m n pre p q mid out) (ha : ∀ s u, mid s u → ∃ t, m.act a s t)
    (ha' : ∀ s u t, mid s u → m.act a s t → post t u) :
    Pairs m n pre (.seq p (.act a)) q post out := by
  refine ⟨h.forward.after_left ha', h.backward.after_right fun u s hs => ?_⟩
  obtain ⟨t, ht⟩ := ha s u hs
  exact ⟨t, ht, ha' s u t hs ht⟩

end Pairs

end Lib.Paths
