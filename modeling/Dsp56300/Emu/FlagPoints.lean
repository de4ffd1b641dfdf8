import Dsp56300.Emu.FlagEmission

/-! What the emitter knows of SR where it emits, and that it is so on every path: an operation
does to a point of emitted code what it does where nothing is deferred. -/

namespace Dsp56300

open Emitter Lib.Coupling Lib.Paths Lib.Words

variable {σ : Type} {e e' : SrEmission} {a : FlagOp} {p q : FlagCode} {b : Bool}

/-! What code is relied on for. -/

/-- The operands it defers are bits where they stand for one. -/
def FlagOp.Proper : FlagOp → Prop
  | .setPending d => ∀ vs, (d.flags vs).Proper
  | _ => True

/-- Whether the marker of a saturation may be under way behind an operation. None stands where SR
is stored, and there is no answer for code that does that. -/
def FlagOp.after (a : FlagOp) (marked : Bool) : Option Bool :=
  match a with
  | .setPending d => some (!d.consumesSmMarker && marked)
  | .saturateSm _ => some true
  | .storeSr _ => if marked then none else some false
  | _ => some marked

namespace FlagCode

def Proper : FlagCode → Prop
  | .op a => a.Proper
  | .seq p q | .conditional _ p q => p.Proper ∧ q.Proper
  | .bail _ => True
  | .loop _ body => body.Proper

def after : FlagCode → Bool → Option Bool
  | .op a, marked => a.after marked
  | .seq p q, marked => do q.after (← p.after marked)
  | .conditional _ p q, marked => return (← p.after marked) || (← q.after marked)
  | .bail _, marked => some marked
  | .loop _ body, marked => do
    let left ← body.after marked
    -- and again, from where a pass ends
    let _ ← body.after (marked || left)
    return marked || left

end FlagCode

/-! What the emitter knows. -/

namespace SrEmission

@[simp] theorem flush_pendingFlags : (e.flush b).pendingFlags = none := by
  unfold flush
  split
  · assumption
  · rfl

@[simp] theorem flush_condDepth : (e.flush b).condDepth = e.condDepth := by
  unfold flush
  split <;> rfl

@[simp] theorem flush_sites : (e.flush b).deferHazardSites = e.deferHazardSites := by
  unfold flush
  split <;> rfl

/-- A flush makes E, U, N and Z current only by rewriting them. -/
theorem flush_eunz (h : (e.flush b).eunzCurrent = true) : e.dominated = true := by
  unfold flush at h
  split at h
  · rw [dominated, h, Bool.true_or]
  · next rewrites hp =>
    cases rewrites with
    | false =>
      simp only [Bool.false_and, Bool.or_false] at h
      rw [dominated, h, Bool.true_or]
    | true => rw [dominated, hp, beq_self_eq_true, Bool.or_true]

/-- In a conditional arm it does not. -/
theorem flush_eunz_of_depth (hd : e.condDepth ≠ 0) :
    (e.flush b).eunzCurrent = e.eunzCurrent := by
  unfold flush
  split
  · rfl
  · simp [hd]

theorem loadSr_eunz (h : (e.loadSr b).eunzCurrent = true) : e.dominated = true := by
  rw [loadSr] at h
  have hdominated := flush_eunz h
  exact hdominated

theorem loadSr_eunz_of_depth (hd : e.condDepth ≠ 0) :
    (e.loadSr b).eunzCurrent = e.eunzCurrent := by
  rw [loadSr]
  exact flush_eunz_of_depth hd

end SrEmission

namespace FlagOp

/-- An operation that cannot observe E, U, N and Z. -/
def transparent : FlagOp → Bool
  | .loadSr => false
  | .ifcc opcode .. => (ifccCond opcode).transparent
  | _ => true

theorem emission_condDepth : (a.emission e).condDepth = e.condDepth := by
  cases a <;> simp [emission, SrEmission.loadSr]

theorem emission_sites : e.deferHazardSites ≤ (a.emission e).deferHazardSites := by
  cases a <;> simp [emission, SrEmission.loadSr]

theorem emission_eunz (h : (a.emission e).eunzCurrent = true) : e.dominated = true := by
  cases a with
  | setPending d => exact SrEmission.flush_eunz h
  | loadSr => exact SrEmission.loadSr_eunz h
  | loadSrTransparent consumer hc => exact SrEmission.loadSr_eunz h
  | updateSr f hf => exact SrEmission.loadSr_eunz h
  | ifcc opcode alu updateCcr hs => exact SrEmission.loadSr_eunz h
  | _ =>
    have hcurrent : e.eunzCurrent = true := h
    rw [SrEmission.dominated, hcurrent, Bool.true_or]

theorem emission_eunz_of_depth (hd : e.condDepth ≠ 0) :
    (a.emission e).eunzCurrent = e.eunzCurrent := by
  cases a with
  | setPending d => exact SrEmission.flush_eunz_of_depth hd
  | loadSr => exact SrEmission.loadSr_eunz_of_depth hd
  | loadSrTransparent consumer hc => exact SrEmission.loadSr_eunz_of_depth hd
  | updateSr f hf => exact SrEmission.loadSr_eunz_of_depth hd
  | ifcc opcode alu updateCcr hs => exact SrEmission.loadSr_eunz_of_depth hd
  | _ => rfl

/-- A read of SR that counts is not of E, U, N and Z left behind. -/
theorem emission_unseen (hs : (a.emission e).deferHazardSites = e.deferHazardSites) :
    a.transparent = true ∨ e.dominated = true := by
  cases a with
  | loadSr =>
    refine .inr ?_
    by_contra hd
    simp [emission, SrEmission.loadSr, hd] at hs
  | ifcc opcode alu updateCcr h =>
    by_contra hd
    simp only [transparent, not_or, Bool.not_eq_true] at hd
    simp [emission, SrEmission.loadSr, hd.1, hd.2] at hs
  | _ => exact .inl rfl

end FlagOp

namespace FlagCode

theorem emit_condDepth : (p.emit e).2.condDepth = e.condDepth := by
  induction p generalizing e with
  | op a => exact FlagOp.emission_condDepth
  | seq p q hp hq => exact hq.trans hp
  | conditional c p q hp hq =>
    have harms : (q.emit (p.emit e.beginConditional).2.endConditionalArm).2.condDepth =
        e.condDepth + 1 := by
      rw [hq, SrEmission.endConditionalArm, SrEmission.flush_condDepth, hp]
      rfl
    exact congrArg Nat.pred (SrEmission.flush_condDepth.trans harms)
  | bail c => exact SrEmission.flush_condDepth
  | loop preemptible body ih =>
    have hbody : (body.emit e.enterLoop).2.condDepth = e.condDepth :=
      ih.trans SrEmission.flush_condDepth
    cases preemptible <;> exact hbody

theorem emit_sites : e.deferHazardSites ≤ (p.emit e).2.deferHazardSites := by
  induction p generalizing e with
  | op a => exact FlagOp.emission_sites
  | seq p q hp hq => exact hp.trans hq
  | conditional c p q hp hq =>
    have htaken : e.deferHazardSites ≤
        (p.emit e.beginConditional).2.endConditionalArm.deferHazardSites := by
      rw [SrEmission.endConditionalArm, SrEmission.flush_sites]
      exact SrEmission.flush_sites.symm.trans_le (hp (e := e.beginConditional))
    have hother : e.deferHazardSites ≤ _ := htaken.trans hq
    exact hother.trans_eq SrEmission.flush_sites.symm
  | bail c => exact (Nat.le_succ _).trans_eq (congrArg Nat.succ SrEmission.flush_sites.symm)
  | loop preemptible body ih =>
    have hbody : e.deferHazardSites ≤ (body.emit e.enterLoop).2.deferHazardSites :=
      SrEmission.flush_sites.symm.trans_le (ih (e := e.enterLoop))
    cases preemptible with
    | false => exact hbody
    | true => exact hbody.trans (Nat.le_succ _)

/-- Code in a conditional arm does not make E, U, N and Z current. -/
theorem emit_eunz_of_depth (hd : e.condDepth ≠ 0) (h : (p.emit e).2.eunzCurrent = true) :
    e.eunzCurrent = true := by
  induction p generalizing e with
  | op a => exact (FlagOp.emission_eunz_of_depth hd).symm.trans h
  | seq p q hp hq => exact hp hd (hq (by rwa [emit_condDepth]) h)
  | conditional c p q hp hq =>
    have hbegin : e.beginConditional.condDepth ≠ 0 := Nat.succ_ne_zero _
    have hend : (p.emit e.beginConditional).2.condDepth ≠ 0 := by rwa [emit_condDepth]
    have harm : (p.emit e.beginConditional).2.endConditionalArm.condDepth ≠ 0 :=
      SrEmission.flush_condDepth.trans_ne hend
    have hmerge : (q.emit (p.emit e.beginConditional).2.endConditionalArm).2.condDepth ≠ 0 := by
      rwa [emit_condDepth]
    have hother := hq harm ((SrEmission.flush_eunz_of_depth hmerge).symm.trans h)
    have htaken := hp hbegin ((SrEmission.flush_eunz_of_depth hend).symm.trans hother)
    exact (SrEmission.flush_eunz_of_depth hd).symm.trans htaken
  | bail c => exact (SrEmission.flush_eunz_of_depth hd).symm.trans h
  | loop preemptible body ih => cases h

end FlagCode

/-! One operation. -/

namespace FlagOp

variable {t : AluState σ} {vs : Values} {now m m' : Bool}

/-- Its code does to what may be deferred what it does to what is not. -/
theorem couples_code (hp : a.Proper) (hm : a.after m = some m')
    (hs : a.transparent = true ∨ now = true) :
    Couples (Agrees (σ := σ) now false m) (a.code vs) anything (Agrees now false m') := by
  have h := rules_agrees (σ := σ) now
  cases a with
  | setPending d =>
    obtain rfl : (!d.consumesSmMarker && m) = m' := Option.some.inj hm
    rw [Deferral.consumesSmMarker, ← d.kindConsumes vs]
    exact (h.setPending (hp vs)).bind fun _ _ => couples_skip
  | saturateSm result =>
    obtain rfl : true = m' := Option.some.inj hm
    exact (h.saturate _).bind fun _ _ => couples_skip
  | loadSr =>
    obtain rfl : m = m' := Option.some.inj hm
    exact h.resettle ((h.observeSr (hs.resolve_left (by decide))).bind fun _ _ => couples_skip)
  | loadSrTransparent consumer hc =>
    obtain rfl : m = m' := Option.some.inj hm
    refine h.readSr (fun x y hxy => ?_) fun _ => h.resettle couples_skip
    rw [hc x y hxy.settled]
  | updateSr f hf =>
    obtain rfl : m = m' := Option.some.inj hm
    exact h.resettle ((h.updateSr (hf vs)).bind fun _ _ => couples_skip)
  | storeSr v =>
    cases m with
    | true => cases hm
    | false =>
      obtain rfl : false = m' := Option.some.inj hm
      exact h.resettle ((h.overwriteSr _).bind fun _ _ => couples_skip)
  | loadAcc d =>
    obtain rfl : m = m' := Option.some.inj hm
    exact (h.loadAcc d).bind fun _ _ => couples_skip
  | storeAcc d v =>
    obtain rfl : m = m' := Option.some.inj hm
    exact (h.storeAcc d (packs_mask56 _)).bind fun _ _ => couples_skip
  | readAccu24 d =>
    obtain rfl : m = m' := Option.some.inj hm
    exact (h.limit d).bind fun _ _ => couples_skip
  | ifcc opcode alu updateCcr hr =>
    obtain rfl : m = m' := Option.some.inj hm
    have hreadable : ∀ r ∈ alu.operands, Alu.Readable now r := fun r hmem =>
      .inr (ne_of_mem_of_not_mem hmem hr)
    have hcond : now = true ∨ (ifccCond opcode).transparent = true := hs.symm
    -- its first read leaves nothing deferred, with the marker as it was
    have hifcc : Couples (Agrees (σ := σ) now true m) (Alu.emitIfcc opcode alu updateCcr) anything
        (Agrees now true m) := by
      cases m with
      | false => exact h.emitIfcc opcode alu updateCcr hreadable hcond true
      | true =>
        have hmarked := h.marked fun htu => htu.mark fun _ => rfl
        exact hmarked.emitIfcc opcode alu updateCcr hreadable hcond true
    cases htr : (ifccCond opcode).transparent with
    | true =>
      refine h.readSr (fun x y hxy => ?_) fun _ =>
        h.resettle (hifcc.bind fun _ _ => couples_skip)
      simp only [htr, if_true]
    | false =>
      have hnow : now = true := hcond.resolve_right (by simp [htr])
      exact (h.observeSr hnow).bind fun _ _ => h.resettle (hifcc.bind fun _ _ => couples_skip)

theorem ifcc_pendingFlags (opcode : Word) (alu : ParallelAlu) (updateCcr : Bool) :
    ((Alu.emitIfcc opcode alu updateCcr).run t).2.pendingFlags = none := by
  change (Alu.after (Alu.emitIfcc opcode alu updateCcr) t).pendingFlags = none
  cases updateCcr with
  | true => simp [Alu.emitIfcc, AluState.storeSr_pendingFlags]
  | false => simp [Alu.emitIfcc, AluState.storeSr_pendingFlags]

/-- The emitter knows what is pending. -/
theorem code_pending (h : t.pendingFlags.map PendingFlags.rewritesEunz = e.pendingFlags) :
    ((a.code vs).run t).2.pendingFlags.map PendingFlags.rewritesEunz =
      (a.emission e).pendingFlags := by
  have hflush : (t.flush false).pendingFlags = none := AluState.flush_pendingFlags false
  cases a with
  | setPending d =>
    have hset := AluState.setPending_pendingFlags t (d.flags vs)
    exact (congrArg _ hset).trans (congrArg some (d.kindRewrites vs))
  | saturateSm result => exact h
  | loadSr => exact (congrArg _ hflush).trans SrEmission.flush_pendingFlags.symm
  | loadSrTransparent consumer hc =>
    exact (congrArg _ hflush).trans SrEmission.flush_pendingFlags.symm
  | updateSr f hf =>
    exact (congrArg _ (AluState.storeSr_pendingFlags ..)).trans SrEmission.flush_pendingFlags.symm
  | storeSr v => exact congrArg _ (AluState.storeSr_pendingFlags ..)
  | loadAcc d => exact h
  | storeAcc d v => exact h
  | readAccu24 d => exact h
  | ifcc opcode alu updateCcr hr =>
    exact (congrArg _ (ifcc_pendingFlags opcode alu updateCcr)).trans
      SrEmission.flush_pendingFlags.symm

end FlagOp

/-! Two points: of emitted code, and of the operations alone. -/

namespace FlagPoint

variable {now now' m m' : Bool} {w u : FlagPoint σ}

/-- What can be told of a path from outside: memory, the words of SR read, the way it took. -/
def seen (w : FlagPoint σ) : DspState σ × List Word × List FlagStep :=
  (w.alu.dsp, w.reads, w.trace)

/-- The same state behind both, and nothing deferred at the second. -/
structure Alike (now m : Bool) (w u : FlagPoint σ) : Prop where
  agrees : Agrees now false m w.alu u.alu
  settled : u.alu.pendingFlags = none
  values : w.values = u.values
  reads : w.reads = u.reads
  trace : w.trace = u.trace

namespace Alike

theorem mono (h : Alike now m w u) (hnow : now' = true → now = true) (hm : m = true → m' = true) :
    Alike now' m' w u := ⟨(h.agrees.mono hnow).mark hm, h.settled, h.values, h.reads, h.trace⟩

theorem flush (h : Alike now m w u) : Alike now m w.flush u :=
  ⟨h.agrees.flush_left, h.settled, h.values, h.reads, h.trace⟩

theorem test (h : Alike now m w u) (a : FlagStep) : Alike now m
    { w with trace := a :: w.trace } (FlagPoint.flush { u with trace := a :: u.trace }) :=
  ⟨h.agrees.flush_right, AluState.flush_pendingFlags false, h.values, h.reads,
    congrArg (a :: ·) h.trace⟩

theorem perform {a : FlagOp} (h : Alike now m w u) (hp : a.Proper) (hm : a.after m = some m')
    (hs : a.transparent = true ∨ now = true) :
    Alike now m' (w.perform a) (u.perform a).flush := by
  have hcode : Couples (Agrees (σ := σ) now false m) (a.code w.values) anything (Agrees now false m') :=
    FlagOp.couples_code hp hm hs
  obtain ⟨hans, -, hagrees⟩ := hcode _ _ h.agrees
  refine ⟨?_, AluState.flush_pendingFlags false, ?_, ?_, congrArg (FlagStep.op a :: ·) h.trace⟩
  · change Agrees now false m' _ (((a.code u.values).run u.alu).2.flush false)
    rw [← h.values]
    exact hagrees.flush_right
  · change w.values ++ _ = u.values ++ ((a.code u.values).run u.alu).1.1
    rw [← h.values, hans]
  · change w.reads ++ _ = u.reads ++ ((a.code u.values).run u.alu).1.2
    rw [← h.values, ← h.reads, hans]

/-- Where nothing is deferred, leaving stores the same. -/
theorem leave (h : Alike true m w u) (hf : w.alu.pendingFlags = none) :
    w.leave.seen = u.leave.seen := by
  have hspill {t : AluState σ} (ht : t.pendingFlags = none) : t.spill = t.finalize := by
    have hfinalize : t.finalize = (t.flush false).spill := rfl
    rw [hfinalize, AluState.flush_settled ht]
  have hmemory : w.alu.spill = u.alu.spill := by
    rw [hspill hf, hspill h.settled, h.agrees.eq]
  change (w.alu.spill, w.reads, w.trace) = (u.alu.spill, u.reads, u.trace)
  rw [hmemory, h.reads, h.trace]

end Alike

end FlagPoint

/-- What the emitter knows is so: `floor`, whether E, U, N and Z are up to date in SR where no pass
of a loop has rewritten them. -/
structure SrEmission.Describes (e : SrEmission) (floor m : Bool) (w u : FlagPoint σ) : Prop where
  alike : w.Alike (floor || e.eunzCurrent) m u
  pending : w.alu.pendingFlags.map PendingFlags.rewritesEunz = e.pendingFlags

namespace SrEmission.Describes

variable {floor floor' m m' : Bool} {w u : FlagPoint σ}

theorem settled (h : e.Describes floor m w u) (hf : e.pendingFlags = none) :
    w.alu.pendingFlags = none := Option.map_eq_none_iff.mp (h.pending.trans hf)

theorem rewrites (h : e.Describes floor m w u) :
    w.alu.rewrites = (e.pendingFlags == some true) := by
  rw [AluState.rewrites, ← h.pending]
  cases w.alu.pendingFlags with
  | none => rfl
  | some flags => cases hr : flags.rewritesEunz <;> simp [hr]

theorem dominated (h : e.Describes floor m w u) : w.Alike (floor || e.dominated) m u := by
  have hknown := h.alike.agrees.known
  rw [h.rewrites, Bool.or_assoc] at hknown
  exact ⟨hknown, h.alike.settled, h.alike.values, h.alike.reads, h.alike.trace⟩

/-- Less known, of the same pending computation. -/
theorem mono (h : e.Describes floor m w u) (hfloor : floor' = true → floor = true)
    (hcurrent : e'.eunzCurrent = true → e.eunzCurrent = true)
    (hpending : e'.pendingFlags = e.pendingFlags) (hm : m = true → m' = true) :
    e'.Describes floor' m' w u := by
  refine ⟨h.alike.mono (fun hnow => ?_) hm, h.pending.trans hpending.symm⟩
  exact Bool.or_eq_true_iff.mpr ((Bool.or_eq_true_iff.mp hnow).imp hfloor hcurrent)

theorem flush (h : e.Describes floor m w u) : (e.flush false).Describes floor m w.flush u := by
  refine ⟨h.dominated.flush.mono (fun hnow => ?_) id, ?_⟩
  · exact Bool.or_eq_true_iff.mpr ((Bool.or_eq_true_iff.mp hnow).imp_right flush_eunz)
  · rw [flush_pendingFlags]
    exact congrArg _ (AluState.flush_pendingFlags false)

theorem perform (h : e.Describes floor m w u) (hp : a.Proper) (hm : a.after m = some m')
    (hs : floor = true ∨ (a.emission e).deferHazardSites = e.deferHazardSites) :
    (a.emission e).Describes floor m' (w.perform a) (u.perform a).flush := by
  have hseen : a.transparent = true ∨ (floor || e.dominated) = true := by
    rcases hs with hfloor | hs
    · exact .inr (Bool.or_eq_true_iff.mpr (.inl hfloor))
    · exact (FlagOp.emission_unseen hs).imp_right fun hd => Bool.or_eq_true_iff.mpr (.inr hd)
  refine ⟨(h.dominated.perform hp hm hseen).mono (fun hnow => ?_) id, FlagOp.code_pending h.pending⟩
  exact Bool.or_eq_true_iff.mpr
    ((Bool.or_eq_true_iff.mp hnow).imp_right FlagOp.emission_eunz)

theorem test (h : e.Describes floor m w u) (a : FlagStep) : e.Describes floor m
    { w with trace := a :: w.trace } (FlagPoint.flush { u with trace := a :: u.trace }) :=
  ⟨h.alike.test a, h.pending⟩

end SrEmission.Describes

end Dsp56300
