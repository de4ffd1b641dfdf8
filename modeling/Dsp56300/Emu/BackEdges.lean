import Dsp56300.Emu.DeferralRules
import Dsp56300.Emu.OpRules
import Dsp56300.Lib.Interference

/-! What the translator puts between two operations, and the update of E, U, N and Z that the back
edge of a loop leaves to its end. -/

namespace Dsp56300

open Emitter Lib.Bits Lib.Coupling Lib.Programs

variable {σ : Type}

/-! Memory and SR are brought up to date. -/

namespace AluState

variable {t u : AluState σ} {d : Accumulator}

def flushAcc (t : AluState σ) (d : Accumulator) : AluState σ :=
  { t with
    dsp := t.dsp.flushAccToMemory d (t.acc d)
    accDirty := Function.update t.accDirty d false }

/-- What conditionals, merges, calls and loop ends put between two operations: pending flags are
materialized, an accumulator is stored, one that was not changed is loaded again. -/
inductive Upkeep : AluState σ → AluState σ → Prop where
  | flush (t : AluState σ) : Upkeep t (t.flush false)
  | flushAcc (t : AluState σ) (d : Accumulator) : Upkeep t (t.flushAcc d)
  | reload {t : AluState σ} {d : Accumulator} (hd : t.accDirty d = false) :
      Upkeep t { t with acc := Function.update t.acc d (t.dsp.reloadAcc d) }

theorem Valid.reload (h : t.Valid) (hd : t.accDirty d = false) :
    { t with acc := Function.update t.acc d (t.dsp.reloadAcc d) } = t := by
  rw [← h.coherent.clean d hd, Function.update_eq_self]

theorem Valid.flushAcc (h : t.Valid) (d : Accumulator) : (t.flushAcc d).Valid := by
  refine ⟨⟨fun d' hd' => ?_⟩, h.packed, h.within.flush _ d, h.marked, h.proper, h.marker, h.needs⟩
  by_cases hd : d' = d
  · subst hd
    exact ((congrArg _ (DspState.acc_flush _)).trans (h.packed d').widen).symm.trans
      (DspState.reloadAcc_eq ..).symm
  · have hclean : Function.update t.accDirty d false d' = false := hd'
    rw [Function.update_of_ne hd] at hclean
    exact h.reload_limiting hclean

theorem flushAcc_view (t : AluState σ) (d : Accumulator) : (t.flushAcc d).view = t.view := by
  have hregs : (t.flushAcc d).readReg = t.readReg := by
    funext r
    simp only [readReg, AluState.flushAcc]
    split_ifs
    iterate 6 rfl
    refine DspState.flush_registers ?_ _
    simp only [DspState.Outside, List.mem_cons, List.not_mem_nil, or_false, not_or]
    exact ⟨‹_›, ‹_›, ‹_›, ‹_›, ‹_›, ‹_›⟩
  rw [view, hregs]
  cases d <;> rfl

theorem Valid.finalize_flushAcc (h : t.Valid) (d : Accumulator) :
    (t.flushAcc d).finalize = t.finalize := by
  have hsr : (t.flushAcc d).sr = t.sr := DspState.flush_registers (by decide) _
  rw [(h.flushAcc d).finalize_eq, h.finalize_eq, flushAcc_view,
    flush_sr_congr (t := t) (u := t.flushAcc d) rfl rfl rfl hsr]

end AluState

namespace Agrees

variable {now same : Bool} {t t' u : AluState σ}

/-- Upkeep does not change the state behind the point. -/
theorem upkeep (h : Agrees now false false t u) (hu : t.Upkeep t') :
    Agrees now false false t' u := by
  cases hu with
  | flush => exact h.flush_left
  | flushAcc d =>
    refine ⟨h.left.flushAcc d, h.right, ?_, h.needs, h.unmarked, fun hs => absurd hs (by decide)⟩
    rw [h.left.finalize_flushAcc]
    exact h.behind
  | reload hd =>
    rw [h.left.reload hd]
    exact h

theorem enter {s : DspState σ} (hs : s.Within) : Agrees now same false (.enter s) (.enter s) :=
  ⟨.enter hs, .enter hs, .refl _, rfl, fun _ => rfl, fun _ => rfl⟩

/-- The state behind a point, entered anew. -/
theorem restart (h : Agrees now same false t u) : Agrees now false false t (.enter u.finalize) :=
  ⟨h.left, .enter h.right.finalize_within, h.behind, h.unmarked rfl, h.unmarked,
    fun hs => absurd hs (by decide)⟩

end Agrees

/-! The back edge of a loop. -/

/-- Write back the update of E, U, N and Z from a result that a back edge left out. -/
def Alu.emitDeferredNz (result56 : BitVec 64) : Alu σ Unit := do
  storeReg Reg.sr (SrUpdate.updateNzMaybe result56 false (← loadSr))

/-- The flush at a back edge: E, U, N and Z are left out where the pending computation is from a
result, which is returned. -/
def AluState.flushBackedge (t : AluState σ) : Option (BitVec 64) × AluState σ :=
  let result56 := t.pendingFlags.bind PendingFlags.nzResult56
  (result56, t.flush result56.isSome)

theorem AluState.flushBackedge_snd (t : AluState σ) :
    t.flushBackedge.2 = t.flush t.flushBackedge.1.isSome := rfl

/-- What SR holds of E, U, N and Z: their values, or those before the update from a result that is
to come, or, on the way round, those of an earlier pass. -/
inductive Quarter where
  | current
  | deferred (result56 : BitVec 64)
  | stale

namespace Quarter

def now : Quarter → Bool
  | current => true
  | _ => false

def ofDeferred : Option (BitVec 64) → Quarter
  | some result56 => deferred result56
  | none => current

end Quarter

/-- What compiled code works on, and what SR holds there. -/
structure Held (σ : Type) where
  alu : AluState σ
  quarter : Quarter := .current

namespace Held

/-- Behind an operation. A pending computation that rewrites E, U, N and Z makes up for what the
back edge left out. -/
def next (x : Held σ) (t : AluState σ) : Held σ where
  alu := t
  quarter := match x.quarter with
    | .stale => if t.rewrites then .current else .stale
    | q => q

/-- Where an operation may come. A loop with a hazard in its body does not defer, so none comes
where an earlier pass is all that SR holds; between the flush and the test of a back edge LC is
counted down. -/
def Admits (x : Held σ) {γ : Type} (op : Op γ) : Prop :=
  match x.quarter with
  | .current => True
  | .stale => op.hazard = false
  | .deferred _ => match op with
    | .loadReg idx | .storeReg idx _ => regAt idx ≠ Reg.sr
    | _ => False

/-- What happens between two operations: upkeep, the flush at a back edge, and from there the
update it left out, at the loop's end or on the way out, or the next pass. -/
inductive Upkeep : Held σ → Held σ → Prop where
  | settle {t u : AluState σ} (q : Quarter) (h : t.Upkeep u) : Upkeep ⟨t, q⟩ ⟨u, q⟩
  | backedge (t : AluState σ) :
      Upkeep ⟨t, .current⟩ ⟨t.flushBackedge.2, .ofDeferred t.flushBackedge.1⟩
  | deferredNz (t : AluState σ) (result56 : BitVec 64) :
      Upkeep ⟨t, .deferred result56⟩ ⟨Alu.after (Alu.emitDeferredNz result56) t, .current⟩
  | goOn (t : AluState σ) (result56 : BitVec 64) : Upkeep ⟨t, .deferred result56⟩ ⟨t, .stale⟩

end Held

namespace AluState

variable {t u : AluState σ} {r : RegIdx}

/-- Without E, U, N and Z a flush leaves the same state but for the four. -/
theorem Valid.near_elided (h : t.Valid) : Near false (t.flush true).finalize t.finalize := by
  have hleft : (t.flush true).finalize = t.view.setReg Reg.sr (t.flush true).sr := by
    rw [(h.flush true).finalize, flush_settled (flush_pendingFlags true), flush_view]
  rw [hleft, h.finalize_eq]
  have hview : Near false t.view t.view := .refl t.view
  exact hview.setSr ⟨h.elided, fun hn => absurd hn (by decide)⟩

/-- The update that was left out, made later. -/
theorem Valid.updateNz_elided (h : t.Valid) {result56 : BitVec 64}
    (hr : t.flushBackedge.1 = some result56) :
    SrUpdate.updateNzMaybe result56 false (t.flush true).sr = t.finalize.registers Reg.sr := by
  obtain ⟨flags, hf, hnz⟩ := Option.bind_eq_some_iff.mp hr
  rw [← h.flush_sr_eq, flush_sr hf, flush_sr hf]
  exact PendingFlags.materialize_late (h.proper flags hf) h.marker hnz h.stored

theorem after_emitDeferredNz (hf : t.pendingFlags = none) (result56 : BitVec 64) :
    Alu.after (Alu.emitDeferredNz result56) t =
      t.storeSr (SrUpdate.updateNzMaybe result56 false t.sr) := by
  have hrun : Alu.after (Alu.emitDeferredNz result56) t =
      (t.flush false).storeSr (SrUpdate.updateNzMaybe result56 false (t.flush false).sr) := rfl
  rw [hrun, flush_settled hf]

/-- A register other than SR, written: SR and what is pending are as before. -/
theorem writeReg_outside (hr : r ≠ Reg.sr) (w : Word) :
    (t.writeReg r w).sr = t.sr ∧ (t.writeReg r w).pendingFlags = t.pendingFlags ∧
      (t.writeReg r w).pendingSmMarker = t.pendingSmMarker ∧
      (t.writeReg r w).smNeedsSat = t.smNeedsSat := by
  unfold writeReg
  split_ifs
  iterate 6 exact ⟨rfl, rfl, rfl, rfl⟩
  exact ⟨DspState.setReg_other _ _ hr.symm, rfl, rfl, rfl⟩

theorem Upkeep.outside (h : t.Upkeep u) (hf : t.pendingFlags = none) :
    u.sr = t.sr ∧ u.pendingFlags = none := by
  cases h with
  | flush =>
    rw [flush_settled hf]
    exact ⟨rfl, hf⟩
  | flushAcc d => exact ⟨DspState.flush_registers (by decide) _, hf⟩
  | reload => exact ⟨rfl, hf⟩

end AluState

namespace Agrees

variable {same marked : Bool} {t u : AluState σ}

/-- A flush that leaves E, U, N and Z out. -/
theorem elided (h : Agrees true same marked t u) :
    Agrees false false marked (t.flush true) u := by
  refine ⟨h.left.flush true, h.right, ?_, ?_, ?_, fun hs => absurd hs (by decide)⟩
  · have hnear := h.left.near_elided
    rw [h.eq] at hnear
    rw [AluState.rewrites, AluState.flush_pendingFlags]
    exact hnear
  · rw [AluState.flush_smNeedsSat, h.needs]
  · rw [AluState.flush_smNeedsSat]
    exact h.unmarked

/-- SR written as it is behind the point. -/
theorem restored (h : Agrees false same marked t u) (hf : t.pendingFlags = none) :
    Agrees true false marked (t.storeSr (u.flush false).sr) u := by
  have hstored : maskReg Reg.sr (u.flush false).sr = (u.flush false).sr :=
    (h.right.flush false).stored
  have hfinalize : (t.overwrite t.smNeedsSat (u.flush false).sr).finalize = u.finalize := by
    rw [h.left.finalize_overwrite h.left.needs, hstored, h.right.flush_sr_eq, h.near.rest,
      DspState.setReg_setReg]
    exact DspState.setReg_self ..
  rw [h.left.storeSr_eq, hf, Option.isSome_none, if_neg (by decide)]
  refine ⟨h.left.overwrite h.left.needs _, h.right, ?_, h.needs, h.unmarked,
    fun hs => absurd hs (by decide)⟩
  rw [hfinalize]
  exact .refl _

end Agrees

/-- Behind a point of compiled code is the state that the update still to come makes of it. -/
structure Held.Agrees (x : Held σ) (u : AluState σ) : Prop where
  agrees : Dsp56300.Agrees x.quarter.now false false x.alu u
  late : ∀ result56, x.quarter = .deferred result56 → x.alu.pendingFlags = none ∧
    SrUpdate.updateNzMaybe result56 false x.alu.sr = (u.flush false).sr

namespace Held.Agrees

variable {x y : Held σ} {u : AluState σ}

theorem of_current {t : AluState σ} (h : Dsp56300.Agrees true false false t u) :
    Held.Agrees ⟨t, .current⟩ u := ⟨h, fun _ hq => by cases hq⟩

theorem current (h : x.Agrees u) (hq : x.quarter = .current) :
    Dsp56300.Agrees true false false x.alu u := by
  have hagrees := h.agrees
  rw [hq] at hagrees
  exact hagrees

theorem upkeep (h : x.Agrees u) (hu : x.Upkeep y) : y.Agrees u := by
  cases hu with
  | settle q ht =>
    refine ⟨h.agrees.upkeep ht, fun result56 hq => ?_⟩
    obtain ⟨hf, hsr⟩ := h.late result56 hq
    obtain ⟨heq, hf'⟩ := ht.outside hf
    refine ⟨hf', ?_⟩
    rw [heq]
    exact hsr
  | backedge t =>
    have ht : Dsp56300.Agrees true false false t u := h.agrees
    cases hr : t.flushBackedge.1 with
    | none =>
      rw [AluState.flushBackedge_snd, hr]
      exact .of_current ht.flush_left
    | some result56 =>
      rw [AluState.flushBackedge_snd, hr]
      refine ⟨ht.elided, fun r hq => ?_⟩
      obtain rfl : result56 = r := Quarter.deferred.inj hq
      refine ⟨AluState.flush_pendingFlags true, ?_⟩
      change SrUpdate.updateNzMaybe result56 false (t.flush true).sr = _
      rw [ht.left.updateNz_elided hr, ht.eq, ht.right.flush_sr_eq]
  | deferredNz t result56 =>
    obtain ⟨hf, hsr⟩ := h.late result56 rfl
    have ht : Dsp56300.Agrees false false false t u := h.agrees
    rw [AluState.after_emitDeferredNz hf, hsr]
    exact .of_current (ht.restored hf)
  | goOn t result56 => exact ⟨h.agrees, fun _ hq => by cases hq⟩

/-- The state behind a point, entered anew. -/
theorem restart (h : x.Agrees u) : x.Agrees (.enter u.finalize) := by
  refine ⟨h.agrees.restart, fun result56 hq => ?_⟩
  obtain ⟨hf, hsr⟩ := h.late result56 hq
  exact ⟨hf, hsr.trans h.agrees.right.flush_sr_eq⟩

/-- An operation does at the point what it does behind it. -/
theorem op {γ : Type} {op : Op γ} (anchor : FaultAnchor) (hfits : op.Fits) (hok : x.Admits op)
    (h : x.Agrees u) :
    ((op.code anchor).run x.alu).1 = ((op.code anchor).run u).1 ∧
      op.Yields ((op.code anchor).run x.alu).1 ∧
      (x.next ((op.code anchor).run x.alu).2).Agrees ((op.code anchor).run u).2 := by
  obtain ⟨t, q⟩ := x
  cases q with
  | current =>
    obtain ⟨heq, hyields, hnext⟩ :=
      (rules_agrees true).code anchor op hfits (.inl rfl) t u h.agrees
    exact ⟨heq, hyields, .of_current hnext⟩
  | stale =>
    obtain ⟨heq, hyields, hnext⟩ :=
      (rules_agrees false).code anchor op hfits (.inr hok) t u h.agrees
    refine ⟨heq, hyields, ?_⟩
    cases hr : ((op.code anchor).run t).2.rewrites with
    | true =>
      rw [next, hr]
      exact .of_current (hnext.rewritten hr)
    | false =>
      rw [next, hr]
      exact ⟨hnext, fun _ hq => by cases hq⟩
  | deferred result56 =>
    obtain ⟨hf, hsr⟩ := h.late result56 rfl
    cases op with
    | loadReg idx =>
      have hidx : regAt idx ≠ Reg.sr := hok
      obtain ⟨heq, hyields, hnext⟩ := (rules_agrees false).code anchor (.loadReg idx) hfits
        (.inr (decide_eq_false hidx)) t u h.agrees
      have hrun (t : AluState σ) : ((Op.code anchor (.loadReg idx)).run t).2 = t := by
        change ((Alu.loadReg (regAt idx)).run t).2 = t
        rw [Alu.loadReg, if_neg hidx]
        rfl
      rw [hrun, hrun] at hnext ⊢
      exact ⟨heq, hyields, hnext, h.late⟩
    | storeReg idx v =>
      have hidx : regAt idx ≠ Reg.sr := hok
      obtain ⟨heq, hyields, hnext⟩ := (rules_agrees false).code anchor (.storeReg idx v) hfits
        (.inr rfl) t u h.agrees
      have hrun (t : AluState σ) : ((Op.code anchor (.storeReg idx v)).run t).2 =
          t.writeReg (regAt idx) (maskReg (regAt idx) v) := if_neg hidx
      rw [hrun, hrun] at hnext ⊢
      refine ⟨heq, hyields, hnext, ?_⟩
      rintro _ ⟨⟩
      obtain ⟨hleft, hpending, -, -⟩ :=
        AluState.writeReg_outside (t := t) hidx (maskReg (regAt idx) v)
      obtain ⟨hright, hpending', hmarker, hneeds⟩ :=
        AluState.writeReg_outside (t := u) hidx (maskReg (regAt idx) v)
      refine ⟨hpending.trans hf, ?_⟩
      rw [AluState.flush_sr_congr hpending' hmarker hneeds hright]
      exact (congrArg _ hleft).trans hsr
    | _ => exact hok.elim

end Held.Agrees

end Dsp56300
