import Dsp56300.Emu.Promotion

/-! What the tracking promises of every path, with one value for each register that has a
variable. -/

namespace Dsp56300

open Lib.Paths

/-- Variables and memory, an accumulator as one value. -/
structure Slots (V : Type) where
  var : Slot → V
  mem : Slot → V
  cur : Slot → V
  seen : List (V × V)

namespace Slots

variable {V : Type}

def spill (s : Slots V) (slots : Slot → Bool) : Slots V :=
  { s with mem := fun r => if slots r then s.var r else s.mem r }

def reload (s : Slots V) (slots : Slot → Bool) : Slots V :=
  { s with var := fun r => if slots r then s.mem r else s.var r }

/-- What an access does, whatever the values are; only a store to a part depends on the value
before it. -/
def effect (a : SlotAct) (s t : Slots V) : Prop :=
  match a with
  | .use place => t = { s with seen := (s.var place.slot, s.cur place.slot) :: s.seen }
  | .peek place => t = { s with seen := (s.mem place.slot, s.cur place.slot) :: s.seen }
  | .reload slots => t = s.reload slots
  | .define place => ∃ f : V → V, (place.isPart = false → ∀ v w, f v = f w) ∧ t = { s with
      var := Function.update s.var place.slot (f (s.var place.slot))
      cur := Function.update s.cur place.slot (f (s.cur place.slot)) }
  | .poke place => ∃ f : V → V, t = { s with
      mem := Function.update s.mem place.slot (f (s.mem place.slot))
      cur := Function.update s.cur place.slot (f (s.cur place.slot)) }
  | .spill slots => t = s.spill slots
  | .helper changed => ∃ v : Slot → V, t = { s with
      mem := fun r => if changed r then v r else s.mem r
      cur := fun r => if changed r then v r else s.cur r }

end Slots

def slotEffects (V : Type) : Effects SlotAct (Slot → Bool) (Slots V) where
  act := Slots.effect
  exit slots s t := t = s.spill slots

variable {V : Type} {st st' : EmitState} {pre : Slot → Prop} {s t : Slots V} {r : Slot}

namespace EmitState

/-- A register is dirty only while its variable can be used. -/
structure Wf (st : EmitState) : Prop where
  valid : ∀ r, st.dirty r = true → st.valid r = true
  promoted : ∀ r, st.dirty r = true → isPromoted r = true

/-- Deferred loads accumulate in the innermost scope. -/
structure Grows (st st' : EmitState) : Prop where
  deferred : ∀ r, st.scope.deferred r = true → st'.scope.deferred r = true
  outer : st'.outer.map (·.deferred) = st.outer.map (·.deferred)

theorem Grows.refl (st : EmitState) : st.Grows st := ⟨fun _ h => h, rfl⟩

theorem Grows.trans {st'' : EmitState} (h : st.Grows st') (h' : st'.Grows st'') :
    st.Grows st'' :=
  ⟨fun r hr => h'.deferred r (h.deferred r hr), h'.outer.trans h.outer⟩

theorem Grows.invalidate (st : EmitState) : st.Grows st.invalidatePromoted := by
  refine ⟨fun _ h => h, ?_⟩
  simp only [invalidatePromoted, List.map_map]
  rfl

/-- Memory has seen every variable. -/
def cleaned (st : EmitState) : EmitState := { st with dirty := fun _ => false }

theorem Wf.of_clean (h : ∀ r, st.dirty r = false) : st.Wf :=
  ⟨fun r hr => by simp [h r] at hr, fun r hr => by simp [h r] at hr⟩

end EmitState

/-- What the tracking promises of a path: every load so far was right, a register that is valid or
among `pre` has its value in its variable, and one that is not dirty has it in memory. -/
structure Tracked (st : EmitState) (pre : Slot → Prop) (s : Slots V) : Prop where
  seen : ∀ p ∈ s.seen, p.1 = p.2
  var : ∀ r, isPromoted r = true → st.valid r = true ∨ pre r → s.var r = s.cur r
  mem : ∀ r, st.dirty r = false → s.mem r = s.cur r

/-- What a path leaves where it leaves a block: every load was right, and memory holds every
register's value. -/
structure Settled (s : Slots V) : Prop where
  seen : ∀ p ∈ s.seen, p.1 = p.2
  mem : ∀ r, s.mem r = s.cur r

/-- `pre` can be any registers that are loaded before the innermost scope. -/
structure Emission.Sound (V : Type) (f : Emission) : Prop where
  wf : ∀ st : EmitState, st.Wf → (f st).2.Wf
  grows : ∀ st : EmitState, st.Wf → st.Grows (f st).2
  code : ∀ (st : EmitState) (pre : Slot → Prop), st.Wf →
    (∀ r, (f st).2.scope.deferred r = true → pre r) →
    Triple (slotEffects V) (Tracked st pre) (f st).1 (Tracked (f st).2 pre) Settled

/-! The promise under the single accesses. -/

namespace Tracked

theorem see {v : V × V} (h : Tracked st pre s) (hv : v.1 = v.2) :
    Tracked st pre { s with seen := v :: s.seen } := by
  refine ⟨?_, h.var, h.mem⟩
  intro p hp
  rcases List.mem_cons.mp hp with rfl | hp
  · exact hv
  · exact h.seen p hp

/-- Another view of the same variables. -/
theorem revalid {pre' : Slot → Prop} (h : Tracked st pre s)
    (hv : ∀ r, isPromoted r = true →
      st'.valid r = true ∨ pre' r → st.valid r = true ∨ pre r)
    (hd : ∀ r, st'.dirty r = false → st.dirty r = false := by exact fun _ h => h) :
    Tracked st' pre' s :=
  ⟨h.seen, fun r hp hr => h.var r hp (hv r hp hr), fun r hr => h.mem r (hd r hr)⟩

/-- A register may be read from memory while it is not dirty. -/
theorem reload {slots : Slot → Bool} (h : Tracked st pre s)
    (hs : ∀ r, slots r = true → st.dirty r = false) :
    Tracked st (fun r => pre r ∨ slots r = true) (s.reload slots) := by
  refine ⟨h.seen, ?_, h.mem⟩
  intro r hp hr
  dsimp only [Slots.reload]
  cases hsl : slots r with
  | true => exact h.mem r (hs r hsl)
  | false =>
    apply h.var r hp
    rcases hr with hr | hr | hr
    · exact .inl hr
    · exact .inr hr
    · rw [hsl] at hr
      cases hr

/-- Storing valid registers makes memory right for them. -/
theorem spill {slots : Slot → Bool} (h : Tracked st pre s)
    (hs : ∀ r, slots r = true → st.valid r = true ∧ isPromoted r = true) (r : Slot)
    (hr : st.dirty r = false ∨ slots r = true) :
    (s.spill slots).mem r = (s.spill slots).cur r := by
  dsimp only [Slots.spill]
  cases hsl : slots r with
  | true =>
    rw [if_pos rfl]
    exact h.var r (hs r hsl).2 (.inl (hs r hsl).1)
  | false =>
    rw [if_neg (by decide)]
    rcases hr with hr | hr
    · exact h.mem r hr
    · rw [hsl] at hr
      cases hr

/-- A spill of dirty registers settles a path. -/
theorem settled (h : Tracked st pre s) (hst : st.Wf) : Settled (s.spill st.dirty) := by
  refine ⟨h.seen, ?_⟩
  intro r
  apply h.spill fun r hr => ⟨hst.valid r hr, hst.promoted r hr⟩
  cases st.dirty r <;> simp

end Tracked

theorem update_congr {x y : Slot → V} {slot : Slot} {v w : V} (hs : v = w)
    (h : r ≠ slot → x r = y r) : Function.update x slot v r = Function.update y slot w r := by
  by_cases hr : r = slot
  · subst hr
    rw [Function.update_self, Function.update_self, hs]
  · rw [Function.update_of_ne hr, Function.update_of_ne hr]
    exact h hr

/-! Each emitter operation keeps the promise. -/

namespace Emission.Sound

variable {f g : Emission}

theorem nop : Sound V nop where
  wf _ h := h
  grows st _ := .refl st
  code _ _ _ _ := .nop fun _ h => h

theorem andThen (hf : Sound V f) (hg : Sound V g) : Sound V (f.andThen g) where
  wf st h := hg.wf _ (hf.wf st h)
  grows st h := (hf.grows st h).trans (hg.grows _ (hf.wf st h))
  code st pre h hpre := by
    have hmid := hf.wf st h
    apply Triple.seq
    · exact hf.code st pre h fun r hr => hpre r ((hg.grows _ hmid).deferred r hr)
    · exact hg.code _ pre hmid hpre

theorem ite {c : Prop} [Decidable c] (hf : Sound V f) (hg : Sound V g) :
    Sound V (if c then f else g) := by
  split
  · exact hf
  · exact hg

theorem load (place : RegPlace) : Sound V (load place) where
  wf st h := by
    have hm : EmitState.Wf { st with valid := mark st.valid place.slot } :=
      ⟨fun r hr => mark_eq_true.mpr (.inr (h.valid r hr)), h.promoted⟩
    unfold Emission.load
    split
    · split
      · exact h
      · split
        · exact hm
        · exact ⟨hm.valid, hm.promoted⟩
    · exact h
  grows st _ := by
    unfold Emission.load
    split
    · split
      · exact .refl st
      · split
        · exact ⟨fun _ hr => hr, rfl⟩
        · exact ⟨fun _ hr => mark_eq_true.mpr (.inr hr), rfl⟩
    · exact .refl st
  code st pre h := by
    unfold Emission.load
    by_cases hp : isPromoted place.slot = true
    · rw [if_pos hp]
      by_cases hv : st.valid place.slot = true
      · rw [if_pos hv]
        intro _
        apply Triple.act
        rintro s t hs rfl
        exact hs.see (hs.var place.slot hp (.inl hv))
      · rw [if_neg hv]
        have hd : st.dirty place.slot = false := by
          by_contra hd
          exact hv (h.valid place.slot (by simpa using hd))
        by_cases he : st.scope.entryValid place.slot = true
        · rw [if_pos he]
          intro _
          let pre' := fun r => pre r ∨ decide (r = place.slot) = true
          refine Triple.seq (?_ : Triple _ _ _ (Tracked st pre') _) ?_
          · apply Triple.act
            rintro s t hs rfl
            exact hs.reload fun r hr => of_decide_eq_true hr ▸ hd
          · apply Triple.act
            rintro s t hs rfl
            refine (hs.see (hs.var place.slot hp (.inr (.inr (decide_eq_true rfl))))).revalid ?_
            rintro r - (hr | hr)
            · rcases mark_eq_true.mp hr with rfl | hr
              · exact .inr (.inr (decide_eq_true rfl))
              · exact .inl hr
            · exact .inr (.inl hr)
        · rw [if_neg he]
          intro hpre
          have hplace.slot : pre place.slot := hpre place.slot (mark_eq_true.mpr (.inl rfl))
          apply Triple.act
          rintro s t hs rfl
          refine (hs.see (hs.var place.slot hp (.inr hplace.slot))).revalid ?_
          rintro r - (hr | hr)
          · rcases mark_eq_true.mp hr with rfl | hr
            · exact .inr hplace.slot
            · exact .inl hr
          · exact .inr hr
    · rw [if_neg hp]
      intro _
      apply Triple.act
      rintro s t hs rfl
      apply hs.see
      apply hs.mem
      by_contra hd
      exact hp (h.promoted place.slot (by simpa using hd))

theorem define_wf (place : RegPlace) (h : st.Wf) : (Emission.define place st).2.Wf := by
  unfold Emission.define
  split
  · rename_i hp
    refine ⟨?_, ?_⟩
    · intro r hr
      exact mark_eq_true.mpr ((mark_eq_true.mp hr).imp_right (h.valid r))
    · intro r hr
      rcases mark_eq_true.mp hr with rfl | hr
      · exact hp
      · exact h.promoted r hr
  · exact h

theorem define_grows (place : RegPlace) (st : EmitState) :
    st.Grows (Emission.define place st).2 := by
  unfold Emission.define
  split
  · exact ⟨fun _ hr => hr, rfl⟩
  · exact .refl st

/-- A part is stored while the accumulator's variable can be used. -/
theorem define_code {place : RegPlace} (h : st.Wf)
    (hv : place.isPart = true → isPromoted place.slot = true → st.valid place.slot = true) :
    Triple (slotEffects V) (Tracked st pre) (Emission.define place st).1
      (Tracked (Emission.define place st).2 pre) Settled := by
  unfold Emission.define
  by_cases hp : isPromoted place.slot = true
  · rw [if_pos hp]
    apply Triple.act
    rintro s t hs ⟨f, hf, rfl⟩
    have hval : f (s.var place.slot) = f (s.cur place.slot) := by
      cases hpart : place.isPart with
      | false => exact hf hpart _ _
      | true => rw [hs.var _ hp (.inl (hv hpart hp))]
    refine ⟨hs.seen, ?_, ?_⟩
    · intro r hr hv
      apply update_congr hval
      intro he
      exact hs.var r hr (hv.imp_left fun hm => (mark_eq_true.mp hm).resolve_left he)
    · intro r hr
      obtain ⟨he, hr⟩ := mark_eq_false.mp hr
      exact (hs.mem r hr).trans (Function.update_of_ne he ..).symm
  · rw [if_neg hp]
    apply Triple.act
    rintro s t hs ⟨f, rfl⟩
    have hd : st.dirty place.slot = false := by
      by_contra hd
      exact hp (h.promoted _ (by simpa using hd))
    refine ⟨hs.seen, ?_, ?_⟩
    · intro r hr hv
      have he : r ≠ place.slot := by
        rintro rfl
        exact hp hr
      exact (hs.var r hr hv).trans (Function.update_of_ne he ..).symm
    · intro r hr
      exact update_congr (congrArg f (hs.mem _ hd)) fun _ => hs.mem r hr

theorem valid_of_load {place : RegPlace} (hp : isPromoted place.slot = true) :
    (Emission.load place st).2.valid place.slot = true := by
  unfold Emission.load
  rw [if_pos hp]
  split
  · assumption
  · split <;> exact mark_eq_true.mpr (.inl rfl)

theorem store (place : RegPlace) : Sound V (store place) := by
  unfold Emission.store
  split
  · have hload := load (V := V) place
    refine ⟨?_, ?_, ?_⟩
    · intro st h
      exact define_wf place (hload.wf st h)
    · intro st h
      exact (hload.grows st h).trans (define_grows place _)
    · intro st pre h hpre
      have hgrows := (define_grows place (Emission.load place st).2).deferred
      refine (hload.code st pre h fun r hr => hpre r (hgrows r hr)).seq ?_
      exact define_code (hload.wf st h) fun _ hp => valid_of_load hp
  · refine ⟨fun st h => define_wf place h, fun st _ => define_grows place st, ?_⟩
    intro st pre h _
    apply define_code h
    intro hpart
    contradiction

theorem flushPromoted : Sound V flushPromoted where
  wf _ _ := .of_clean fun _ => rfl
  grows _ _ := ⟨fun _ hr => hr, rfl⟩
  code st pre h _ := by
    apply Triple.act
    rintro s t hs rfl
    exact ⟨hs.seen, hs.var, fun r _ => (hs.settled h).mem r⟩

theorem flushReg (idx : RegIdx) : Sound V (flushReg idx) where
  wf _ h := h
  grows st _ := .refl st
  code st pre h _ := by
    apply Triple.act
    rintro s t hs rfl
    refine ⟨hs.seen, hs.var, ?_⟩
    intro r hr
    apply hs.spill _ r (.inl hr)
    intro r hr
    have hd : st.dirty r = true := by
      simp only [Bool.and_eq_true] at hr
      exact hr.2
    exact ⟨h.valid r hd, h.promoted r hd⟩

theorem wayOut : Sound V wayOut where
  wf _ h := h
  grows st _ := .refl st
  code st pre h _ := by
    apply Triple.branch
    · apply Triple.exit
      rintro s t hs rfl
      exact hs.settled h
    · exact .nop fun _ hs => hs

theorem helper (changed : Slot → Bool) : Sound V (helper changed) where
  wf _ _ := .of_clean fun _ => rfl
  grows st _ := by
    have h := EmitState.Grows.invalidate st
    exact ⟨h.deferred, h.outer⟩
  code st pre h _ := by
    let kept : EmitState :=
      { st with dirty := fun _ => false, valid := fun r => st.valid r && !changed r }
    refine Triple.seq (?_ : Triple _ _ _ (Tracked st.cleaned pre) _) ?_
    · apply Triple.act
      rintro s t hs rfl
      exact ⟨hs.seen, hs.var, fun r _ => (hs.settled h).mem r⟩
    · let pre' := fun r => pre r ∧ changed r = false
      refine Triple.seq (?_ : Triple _ _ _ (Tracked kept pre') _) ?_
      · apply Triple.act
        rintro s t hs ⟨v, rfl⟩
        refine ⟨hs.seen, ?_, ?_⟩
        · intro r hp hr
          have hc : changed r = false := by
            rcases hr with hr | hr
            · simpa using (Bool.and_eq_true_iff.mp hr).2
            · exact hr.2
          dsimp only
          rw [hc, if_neg (by decide)]
          exact hs.var r hp (hr.imp (fun hr => (Bool.and_eq_true_iff.mp hr).1) And.left)
        · intro r _
          dsimp only
          split
          · rfl
          · exact hs.mem r rfl
      · apply Triple.act
        rintro s t hs rfl
        refine (hs.reload fun _ _ => rfl).revalid ?_
        rintro r hp (hr | hr)
        · exact .inr (.inr hr)
        · cases hc : changed r with
          | true => exact .inr (.inr hp)
          | false => exact .inr (.inl ⟨hr, hc⟩)

theorem access (a : Access) : Sound V (access a) := by
  cases a with
  | load place => exact load place
  | store place => exact store place

theorem accesses (as : List Access) : Sound V (accesses as) := by
  induction as with
  | nil => exact nop
  | cons a as ih => exact (access a).andThen ih

/-- An arm, from the tracking it starts with back to the same tracking. -/
theorem arm (hf : Sound V f) (cond : ConditionalState) (h : st.Wf)
    (hv : cond.savedValid = st.valid)
    (hpre : ∀ r, (f st).2.scope.deferred r = true → pre r) :
    Triple (slotEffects V) (Tracked st pre) (.seq (f st).1 (cond.endArm (f st).2).1)
      (Tracked (cond.endArm (f st).2).2.2 pre) Settled := by
  let pre' := fun r => pre r ∨ st.valid r = true
  have hbody := hf.code st pre' h fun r hr => .inl (hpre r hr)
  have hwf := hf.wf st h
  refine Triple.seq (?_ : Triple _ _ _ (Tracked (f st).2 pre') _) ?_
  · apply hbody.mono _ (fun _ hs => hs) fun _ hs => hs
    intro s hs
    exact hs.revalid fun r _ hr => hr.elim .inl fun hr => hr.elim .inr .inl
  · apply Triple.act
    rintro s t hs rfl
    refine ⟨hs.seen, ?_, ?_⟩
    · intro r hp hr
      apply hs.var r hp
      rcases hr with hr | hr
      · exact .inr (.inr (hv ▸ hr))
      · exact .inr (.inl hr)
    · intro r hr
      have hnew : ∀ r, cond.newlyDirty (f st).2 r = true →
          (f st).2.valid r = true ∧ isPromoted r = true := by
        intro r hr
        have hr := (Bool.and_eq_true_iff.mp hr).1
        exact ⟨hwf.valid r hr, hwf.promoted r hr⟩
      apply hs.spill hnew
      have hr' : cond.savedDirty r = false := hr
      cases hdr : (f st).2.dirty r with
      | false => exact .inl rfl
      | true => exact .inr (by simp [ConditionalState.newlyDirty, hdr, hr'])

/-- A conditional behind what opens it. -/
def branches (skip : Bool) (f g : Emission) : Emission := fun st =>
  let cond := conditionalSnapshot skip st
  let p := cond.endArm (f st).2
  let q := p.2.1.endArm (g p.2.2).2
  (.branch (.seq (f st).1 p.1) (.seq (g p.2.2).1 q.1), q.2.1.merge q.2.2)

section branches

variable {skip : Bool} (hf : Sound V f) (hg : Sound V g) (h : st.Wf)
include h

theorem branches_wf (hclean : skip = true → ∀ r, st.dirty r = false) :
    (branches skip f g st).2.Wf := by
  refine ⟨?_, h.promoted⟩
  intro r hr
  have hd : st.dirty r = true := hr
  have hskip : skip = false := by
    cases skip with
    | false => rfl
    | true => rw [hclean rfl r] at hd; cases hd
  subst hskip
  simp only [branches, ConditionalState.merge, ConditionalState.endArm, conditionalSnapshot,
    ConditionalState.newlyDirty, h.valid r hd, hd]
  simp

include hf hg

theorem branches_grows : st.Grows (branches skip f g st).2 := by
  have hp := hf.grows st h
  let cond := conditionalSnapshot skip st
  have hq := hg.grows (cond.endArm (f st).2).2.2 ⟨h.valid, h.promoted⟩
  exact ⟨fun r hr => hq.deferred r (hp.deferred r hr), hq.outer.trans hp.outer⟩

theorem branches_code (hpre : ∀ r, (branches skip f g st).2.scope.deferred r = true → pre r) :
    Triple (slotEffects V) (Tracked st pre) (branches skip f g st).1
      (Tracked (branches skip f g st).2 pre) Settled := by
  let cond := conditionalSnapshot skip st
  let mid := (cond.endArm (f st).2).2.2
  have hmid : mid.Wf := ⟨h.valid, h.promoted⟩
  have hq := (hg.grows mid hmid).deferred
  have hmerge {st' : EmitState} {s : Slots V} (hs : Tracked st' pre s)
      (hd : st'.dirty = st.dirty) (hv : st'.valid = st.valid) :
      Tracked (branches skip f g st).2 pre s := by
    refine hs.revalid ?_ ?_
    · intro r _ hr
      apply hr.imp_left
      intro hm
      have hr := (Bool.and_eq_true_iff.mp hm).1
      rw [hv]
      exact hr
    · intro r hr
      rw [hd]
      exact hr
  apply Triple.branch
  · have harm := hf.arm cond h rfl fun r hr => hpre r (hq r hr)
    exact harm.mono (fun _ hs => hs) (fun _ hs => hmerge hs rfl rfl) fun _ hs => hs
  · have harm := hg.arm (cond.endArm (f st).2).2.1 hmid rfl hpre
    apply harm.mono _ (fun _ hs => hmerge hs rfl rfl) fun _ hs => hs
    intro s hs
    exact hs.revalid fun _ _ hr => hr

end branches

theorem conditional (skip : Bool) (hf : Sound V f) (hg : Sound V g) :
    Sound V (conditional skip f g) := by
  cases skip with
  | false =>
    have hbranches : Sound V (branches false f g) := by
      refine ⟨?_, ?_, ?_⟩
      · intro st h
        exact branches_wf h nofun
      · intro st h
        exact branches_grows hf hg h
      · intro st pre h hpre
        exact branches_code hf hg h hpre
    exact nop.andThen hbranches
  | true =>
    have hflush := flushPromoted (V := V)
    refine ⟨?_, ?_, ?_⟩
    · intro st h
      exact branches_wf (hflush.wf st h) fun _ _ => rfl
    · intro st h
      exact (hflush.grows st h).trans (branches_grows hf hg (hflush.wf st h))
    · intro st pre h hpre
      have hbranches := branches_code hf hg (hflush.wf st h) hpre
      have hgrows : (Emission.flushPromoted st).2.Grows (Emission.conditional true f g st).2 :=
        branches_grows hf hg (hflush.wf st h)
      exact (hflush.code st pre h fun r hr => hpre r (hgrows.deferred r hr)).seq hbranches

/-! Loops. -/

/-- Flushing the only dirty register leaves memory current. -/
theorem flushReg_clean {idx : RegIdx} (h : st.Wf) (hd : ∀ r, st.dirty r = true → r = .inl idx) :
    Triple (slotEffects V) (Tracked st pre) (Emission.flushReg idx st).1
      (Tracked st.cleaned pre) Settled := by
  apply Triple.act
  rintro s t hs rfl
  refine ⟨hs.seen, hs.var, ?_⟩
  intro r _
  apply hs.spill
  · intro r hr
    have hr := (Bool.and_eq_true_iff.mp hr).2
    exact ⟨h.valid r hr, h.promoted r hr⟩
  · cases hr : st.dirty r with
    | false => exact .inl rfl
    | true => exact .inr (by simp [hd r hr])

theorem wayOut_clean (h : st.Wf) :
    Triple (slotEffects V) (Tracked st.cleaned pre) (Emission.wayOut st).1
      (Tracked st.cleaned pre) Settled := by
  apply Triple.branch
  · apply Triple.exit
    rintro s t hs rfl
    refine ⟨hs.seen, ?_⟩
    intro r
    exact hs.spill (fun r hr => ⟨h.valid r hr, h.promoted r hr⟩) r (.inl rfl)
  · exact .nop fun _ hs => hs

theorem backEdge (shape : LoopShape) : Sound V (backEdge shape) := by
  apply flushPromoted.andThen
  apply ((load _).ite nop).andThen
  apply (store _).andThen
  apply (flushReg _).andThen
  exact wayOut.ite nop

theorem load_dirty (place : RegPlace) (st : EmitState) :
    (Emission.load place st).2.dirty = st.dirty := by
  unfold Emission.load
  split
  · split
    · rfl
    · split <;> rfl
  · rfl

theorem define_dirty {place : RegPlace} (h : (Emission.define place st).2.dirty r = true) :
    r = place.slot ∨ st.dirty r = true := by
  unfold Emission.define at h
  split at h
  · exact mark_eq_true.mp h
  · exact .inr h

/-- The back edge leaves memory current. -/
theorem backEdge_clean (shape : LoopShape) (h : st.Wf)
    (hpre : ∀ r, (Emission.backEdge shape st).2.scope.deferred r = true → pre r) :
    Triple (slotEffects V) (Tracked st pre) (Emission.backEdge shape st).1
      (Tracked (Emission.backEdge shape st).2.cleaned pre) Settled := by
  let counter := if shape.preemptible then Emission.load (.reg Reg.lc) else Emission.nop
  let tail := if shape.preemptible then Emission.wayOut else Emission.nop
  let st₁ := (Emission.flushPromoted st).2
  let st₂ := (counter st₁).2
  let st₃ := (Emission.store (.reg Reg.lc) st₂).2
  have hcounter : Sound V counter := (load _).ite nop
  have h₁ : st₁.Wf := flushPromoted (V := V).wf st h
  have h₂ : st₂.Wf := hcounter.wf st₁ h₁
  have h₃ : st₃.Wf := (store (V := V) (.reg Reg.lc)).wf st₂ h₂
  have htail : (tail st₃).2 = st₃ := by
    dsimp only [tail]
    split <;> rfl
  have hend : (Emission.backEdge shape st).2 = st₃ := htail
  rw [hend] at hpre ⊢
  have hpre₂ : ∀ r, st₂.scope.deferred r = true → pre r := fun r hr =>
    hpre r (((store (V := V) (.reg Reg.lc)).grows st₂ h₂).deferred r hr)
  have hpre₁ : ∀ r, st₁.scope.deferred r = true → pre r := fun r hr =>
    hpre₂ r ((hcounter.grows st₁ h₁).deferred r hr)
  have hstore : st₃ = (Emission.define (.reg Reg.lc) st₂).2 := rfl
  have hdirty : ∀ r, st₃.dirty r = true → r = .inl Reg.lc := by
    intro r hr
    rw [hstore] at hr
    apply (define_dirty hr).resolve_right
    have hd : st₂.dirty = st₁.dirty := by
      dsimp only [st₂, counter]
      split
      · exact load_dirty _ _
      · rfl
    rw [hd]
    simp [st₁, Emission.flushPromoted]
  refine (flushPromoted.code st pre h hpre₁).seq ?_
  refine (hcounter.code st₁ pre h₁ hpre₂).seq ?_
  refine ((store _).code st₂ pre h₂ hpre).seq ?_
  refine (flushReg_clean h₃ hdirty).seq ?_
  show Triple _ (Tracked st₃.cleaned pre) (tail st₃).1 (Tracked st₃.cleaned pre) Settled
  dsimp only [tail]
  split
  · exact wayOut_clean h₃
  · exact .nop fun _ hs => hs

theorem valid_load {place : RegPlace} (h : st.valid r = true) :
    (Emission.load place st).2.valid r = true := by
  unfold Emission.load
  split
  · split
    · exact h
    · split <;> exact mark_eq_true.mpr (.inr h)
  · exact h

theorem valid_define {place : RegPlace} (h : st.valid r = true) :
    (Emission.define place st).2.valid r = true := by
  unfold Emission.define
  split
  · exact mark_eq_true.mpr (.inr h)
  · exact h

theorem valid_access {a : Access} (h : st.valid r = true) :
    (Emission.access a st).2.valid r = true := by
  cases a with
  | load place => exact valid_load h
  | store place =>
    simp only [Emission.access, Emission.store]
    split
    · exact valid_define (valid_load h)
    · exact valid_define h

theorem valid_accesses {as : List Access} (h : st.valid r = true) :
    (Emission.accesses as st).2.valid r = true := by
  induction as generalizing st with
  | nil => exact h
  | cons a as ih => exact ih (valid_access h)

theorem valid_of_define {place : RegPlace} (hp : isPromoted place.slot = true) :
    (Emission.define place st).2.valid place.slot = true := by
  unfold Emission.define
  rw [if_pos hp]
  exact mark_eq_true.mpr (.inl rfl)

/-- What a list of accesses stores can be used behind it. -/
theorem valid_of_stored {as : List Access} {place : RegPlace} (st : EmitState)
    (h : .store place ∈ as) (hp : isPromoted place.slot = true) :
    (Emission.accesses as st).2.valid place.slot = true := by
  induction as generalizing st with
  | nil => cases h
  | cons a as ih =>
    rcases List.mem_cons.mp h with rfl | h
    · have hs : (Emission.access (.store place) st).2.valid place.slot = true := by
        simp only [Emission.access, Emission.store]
        split <;> exact valid_of_define hp
      show (Emission.accesses as (Emission.access (.store place) st).2).2.valid place.slot = true
      exact valid_accesses hs
    · exact ih _ h

theorem load_valid {place : RegPlace}
    (h : isPromoted place.slot = true → st.valid place.slot = true) :
    (Emission.load place st).2.valid = st.valid := by
  unfold Emission.load
  split
  · rw [if_pos (h ‹_›)]
  · rfl

theorem define_valid {place : RegPlace}
    (h : isPromoted place.slot = true → st.valid place.slot = true) :
    (Emission.define place st).2.valid = st.valid := by
  unfold Emission.define
  split
  · have hv := h ‹_›
    funext r
    by_cases hr : r = place.slot
    · simp [mark, hr, hv]
    · simp [mark, hr]
  · rfl

/-- An access of a usable register makes no other register usable. -/
theorem access_valid {a : Access}
    (h : isPromoted a.place.slot = true → st.valid a.place.slot = true) :
    (Emission.access a st).2.valid = st.valid := by
  cases a with
  | load place => exact load_valid h
  | store place =>
    simp only [Emission.access, Emission.store]
    split
    · have hload : (Emission.load place st).2.valid = st.valid := load_valid h
      refine (define_valid ?_).trans hload
      intro hp
      exact (congrFun hload _).trans (h hp)
    · exact define_valid h

theorem accesses_valid {as : List Access}
    (h : ∀ a ∈ as, isPromoted a.place.slot = true → st.valid a.place.slot = true) :
    (Emission.accesses as st).2.valid = st.valid := by
  induction as generalizing st with
  | nil => rfl
  | cons a as ih =>
    have ha := access_valid (h a List.mem_cons_self)
    have has : ∀ b ∈ as, isPromoted b.place.slot = true →
        (Emission.access a st).2.valid b.place.slot = true := by
      intro b hb hp
      rw [ha]
      exact h b (List.mem_cons_of_mem a hb) hp
    exact (ih has).trans ha

/-- Where the deferred loads of a loop go. -/
theorem popLoopScope_spec {before : EmitState} (h : before.pushLoopScope.Grows st) :
    ∃ here, (Emission.popLoopScope st).1 = .act (.reload here) ∧
      before.Grows (Emission.popLoopScope st).2 ∧
      (Emission.popLoopScope st).2.dirty = st.dirty ∧
      (Emission.popLoopScope st).2.valid = st.valid ∧
      ∀ r, st.scope.deferred r = true →
        here r = true ∨ (Emission.popLoopScope st).2.scope.deferred r = true := by
  obtain ⟨dirty, valid, scope, outer⟩ := st
  cases outer with
  | nil => cases h.outer
  | cons parent outer =>
    have ho : parent.deferred = before.scope.deferred ∧
        outer.map (·.deferred) = before.outer.map (·.deferred) := List.cons.inj h.outer
    refine ⟨_, rfl, ⟨?_, ho.2⟩, rfl, rfl, ?_⟩
    · intro r hr
      simp [Emission.popLoopScope, ho.1, hr]
    · intro r hr
      have hr : scope.deferred r = true := hr
      simp only [Emission.popLoopScope, hr]
      cases parent.entryValid r <;> simp

/-- An inlined loop behind its header. -/
def nativeLoop (shape : LoopShape) (f : Emission) : Emission := fun st =>
  let cleanup := (Emission.accesses shape.cleanup).andThen Emission.flushPromoted
  let annul := cleanup st
  let iteration := f.andThen (Emission.backEdge shape) annul.2.pushLoopScope
  let preLoop := Emission.popLoopScope iteration.2
  let exit := cleanup preLoop.2
  (.branch annul.1 (.seq preLoop.1 (.seq (.loop iteration.1) exit.1)), exit.2.invalidatePromoted)

theorem nativeLoop_sound (shape : LoopShape) (pre : Slot → Prop) (hf : Sound V f) (h : st.Wf)
    (hclean : ∀ r, st.dirty r = false)
    (hstored : ∀ a ∈ shape.cleanup,
      isPromoted a.place.slot = true → st.valid a.place.slot = true) :
    st.Grows (nativeLoop shape f st).2 ∧
      ((∀ r, (nativeLoop shape f st).2.scope.deferred r = true → pre r) →
        Triple (slotEffects V) (Tracked st pre) (nativeLoop shape f st).1
          (Tracked (nativeLoop shape f st).2 pre) Settled) := by
  let cleanup := (Emission.accesses shape.cleanup).andThen Emission.flushPromoted
  let st₂ := (cleanup st).2
  let iteration := f.andThen (Emission.backEdge shape) st₂.pushLoopScope
  let st₅ := (Emission.popLoopScope iteration.2).2
  have hcleanup : Sound V cleanup := (accesses _).andThen flushPromoted
  have hiteration : Sound V (f.andThen (Emission.backEdge shape)) := hf.andThen (backEdge shape)
  have h₂ : st₂.Wf := hcleanup.wf st h
  have h₃ : st₂.pushLoopScope.Wf := ⟨h₂.valid, h₂.promoted⟩
  have h₄ : iteration.2.Wf := hiteration.wf _ h₃
  obtain ⟨here, hcode, hgrows, hdirty, hvalid, hdeferred⟩ :=
    popLoopScope_spec (hiteration.grows _ h₃)
  have h₅ : st₅.Wf := by
    refine ⟨?_, ?_⟩
    · rw [hdirty, hvalid]
      exact h₄.valid
    · rw [hdirty]
      exact h₄.promoted
  have hexit : st₅.Grows (nativeLoop shape f st).2 :=
    (hcleanup.grows _ h₅).trans (.invalidate _)
  have hend : st₂.Grows (nativeLoop shape f st).2 := hgrows.trans hexit
  refine ⟨(hcleanup.grows st h).trans hend, ?_⟩
  intro hpre
  have hmerge {st' : EmitState} {pre' : Slot → Prop} {s : Slots V} (hs : Tracked st' pre' s)
      (hd : ∀ r, st'.dirty r = false) (hp : ∀ r, pre r → pre' r) :
      Tracked (nativeLoop shape f st).2 pre s := by
    refine hs.revalid ?_ fun r _ => hd r
    rintro r - (hr | hr)
    · cases hr
    · exact .inr (hp r hr)
  apply Triple.branch
  · have hannul := hcleanup.code st pre h fun r hr => hpre r (hend.deferred r hr)
    exact hannul.mono (fun _ hs => hs) (fun _ hs => hmerge hs (fun _ => rfl) fun _ hr => hr)
      fun _ hs => hs
  · -- what the loop may use from its first iteration on
    let inside := fun r => pre r ∨ here r = true ∨ st.valid r = true
    have hv₂ : st₂.valid = st.valid := accesses_valid hstored
    have hinside : ∀ r, iteration.2.scope.deferred r = true → inside r := by
      intro r hr
      rcases hdeferred r hr with hr | hr
      · exact .inr (.inl hr)
      · exact .inl (hpre r (hexit.deferred r hr))
    have hpreLoop : Triple (slotEffects V) (Tracked st pre) (Emission.popLoopScope iteration.2).1
        (Tracked st fun r => pre r ∨ here r = true) Settled := by
      rw [hcode]
      apply Triple.act
      rintro s t hs rfl
      exact hs.reload fun r _ => hclean r
    have hiter : Triple (slotEffects V) (Tracked st₂.pushLoopScope inside) iteration.1
        (Tracked iteration.2.cleaned inside) Settled := by
      have hbody := hf.wf _ h₃
      have hback := (backEdge (V := V) shape).grows _ hbody
      apply (hf.code _ inside h₃ fun r hr => hinside r (hback.deferred r hr)).seq
      exact backEdge_clean shape hbody hinside
    have hloop : Triple (slotEffects V) (Tracked st₂.pushLoopScope inside) (.loop iteration.1)
        (Tracked iteration.2.cleaned inside) Settled := by
      apply hiter.loop
      intro s hs
      apply hs.revalid
      rintro r - (hr | hr)
      · exact .inr (.inr (.inr (hv₂ ▸ hr)))
      · exact .inr hr
    have hleave := hcleanup.code st₅ inside h₅ fun r hr =>
      .inl (hpre r (((EmitState.Grows.invalidate _).deferred) r hr))
    refine hpreLoop.seq (Triple.seq (hloop.mono ?_ (fun _ hs => hs) fun _ hs => hs)
      (hleave.mono ?_ ?_ fun _ hs => hs))
    · intro s hs
      refine hs.revalid ?_ fun r _ => hclean r
      rintro r - (hr | hr | hr | hr)
      · exact .inl (hv₂ ▸ hr)
      · exact .inr (.inl hr)
      · exact .inr (.inr hr)
      · exact .inl hr
    · intro s hs
      refine hs.revalid ?_ fun _ _ => rfl
      intro r _ hr
      exact hr.imp_left fun hr => hvalid ▸ hr
    · intro s hs
      exact hmerge hs (fun _ => rfl) fun _ hr => .inl hr

theorem loop (shape : LoopShape) (hf : Sound V f) : Sound V (loop shape f) := by
  let header := (Emission.accesses shape.header).andThen
    ((if shape.preemptible then Emission.wayOut else Emission.nop).andThen Emission.flushPromoted)
  have hheader : Sound V header :=
    (accesses _).andThen ((wayOut.ite nop).andThen flushPromoted)
  have hstored (st : EmitState) (a) (ha : a ∈ shape.cleanup)
      (hp : isPromoted a.place.slot = true) : (header st).2.valid a.place.slot = true := by
    have hvalid := valid_of_stored st (shape.cleanup_stored a ha) hp
    dsimp only [header, Emission.andThen]
    split <;> exact hvalid
  have hnative (st : EmitState) (pre : Slot → Prop) (h : st.Wf) :=
    nativeLoop_sound shape pre hf (hheader.wf st h) (fun _ => rfl) (hstored st)
  refine ⟨fun st _ => .of_clean fun _ => rfl, ?_, ?_⟩
  · intro st h
    exact (hheader.grows st h).trans (hnative st (fun _ => True) h).1
  · intro st pre h hpre
    have hnative := hnative st pre h
    have hheader := hheader.code st pre h fun r hr => hpre r (hnative.1.deferred r hr)
    exact hheader.seq (hnative.2 hpre)

end Emission.Sound

namespace EmitterOps

theorem sound (ops : EmitterOps) : Emission.Sound V ops.emit := by
  induction ops with
  | nop => exact .nop
  | seq p q ihp ihq => exact ihp.andThen ihq
  | load place => exact .load place
  | store place => exact .store place
  | flushPromoted => exact .flushPromoted
  | flushReg idx => exact .flushReg idx
  | helper changed => exact .helper changed
  | wayOut => exact .wayOut
  | conditional skip p q ihp ihq => exact .conditional skip ihp ihq
  | loop shape body ih => exact .loop shape ih

/-- A block is entered and left with every value in memory. -/
theorem block_settled (ops : EmitterOps) :
    Triple (slotEffects V) Settled ops.block (fun _ => False) Settled := by
  have hstart : EmitState.start.Wf := .of_clean fun _ => rfl
  let pre := fun r => False ∨ (ops.emit .start).2.scope.deferred r = true
  refine Triple.seq (?_ : Triple _ _ _ (Tracked .start pre) _) (Triple.seq
    ((ops.sound.code .start pre hstart) fun r hr => .inr hr) ?_)
  · apply Triple.act
    rintro s t hs rfl
    have hentry : Tracked .start (fun _ => False) s := by
      refine ⟨hs.seen, ?_, fun r _ => hs.mem r⟩
      rintro r - (hr | hr)
      · cases hr
      · exact hr.elim
    exact hentry.reload fun _ _ => rfl
  · apply Triple.exit
    rintro s t hs rfl
    exact hs.settled (ops.sound (V := V).wf .start hstart)

end EmitterOps

end Dsp56300
