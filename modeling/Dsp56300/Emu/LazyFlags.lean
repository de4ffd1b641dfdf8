import Dsp56300.Emu.FlagPoints

/-! Deferred condition codes go unseen: every word of SR that code reads, and the one a block
leaves, is that of its operations with nothing deferred. -/

namespace Dsp56300

open Emitter Lib.Paths

variable {σ : Type} {e : SrEmission} {a : FlagOp} {p : FlagCode}

/-- Between a back edge that left E, U, N and Z out and where they are made up for. -/
structure FlagPoint.Late (m : Bool) (w u : FlagPoint σ) : Prop where
  alike : w.Alike false m u
  pending : w.alu.pendingFlags = none
  late : SrUpdate.updateNzMaybe w.deferred false w.alu.sr = (u.alu.flush false).sr

section BackEdge

variable {floor m : Bool} {w u : FlagPoint σ}

theorem AluState.flushBackedge_isSome (t : AluState σ) :
    t.flushBackedge.1.isSome = t.rewrites := by
  rw [flushBackedge, rewrites]
  cases t.pendingFlags with
  | none => rfl
  | some flags => exact flags.rewritesEunz_eq.symm

/-- A pending computation that rewrites E, U, N and Z is left in part. -/
theorem SrEmission.Describes.late (h : e.Describes floor m w u)
    (hd : e.pendingFlags = some true) : w.flushBackedge.Late m u := by
  have hrewrites : w.alu.rewrites = true := by rw [h.rewrites, hd, beq_self_eq_true]
  have hagrees : Agrees true false m w.alu u.alu := h.alike.agrees.rewritten hrewrites
  obtain ⟨result56, hr⟩ := Option.isSome_iff_exists.mp
    ((AluState.flushBackedge_isSome w.alu).trans hrewrites)
  have hflush : w.alu.flushBackedge.2 = w.alu.flush true := by
    rw [AluState.flushBackedge_snd, hr, Option.isSome_some]
  have hdeferred : w.flushBackedge.deferred = result56 := congrArg (·.getD 0) hr
  refine ⟨⟨?_, h.alike.settled, h.alike.values, h.alike.reads, h.alike.trace⟩, ?_, ?_⟩
  · change Agrees false false m w.alu.flushBackedge.2 u.alu
    rw [hflush]
    exact hagrees.elided
  · exact AluState.flush_pendingFlags _
  · change SrUpdate.updateNzMaybe w.flushBackedge.deferred false w.alu.flushBackedge.2.sr = _
    rw [hdeferred, hflush, hagrees.left.updateNz_elided hr, hagrees.eq, hagrees.right.flush_sr_eq]

/-- Any other one is flushed. -/
theorem SrEmission.Describes.backedge (h : e.Describes floor m w u)
    (hd : e.pendingFlags ≠ some true) : (e.flush false).Describes floor m w.flushBackedge u := by
  have hnone : w.alu.flushBackedge.1.isSome = false := by
    rw [AluState.flushBackedge_isSome, h.rewrites]
    exact beq_false_of_ne hd
  have hflush : w.alu.flushBackedge.2 = w.alu.flush false := by
    rw [AluState.flushBackedge_snd, hnone]
  obtain ⟨⟨hagrees, hsettled, hvalues, hreads, htrace⟩, hpending⟩ := h.flush
  refine ⟨⟨?_, hsettled, hvalues, hreads, htrace⟩, ?_⟩
  · change Agrees _ false m w.alu.flushBackedge.2 u.alu
    rw [hflush]
    exact hagrees
  · change w.alu.flushBackedge.2.pendingFlags.map _ = _
    rw [hflush]
    exact hpending

namespace FlagPoint.Late

/-- On the way round nothing is known of E, U, N and Z. -/
theorem again (h : w.Late m u) (hcurrent : e.eunzCurrent = false) (hf : e.pendingFlags = none) :
    e.Describes false m w u := by
  refine ⟨h.alike.mono (fun hnow => ?_) id, ?_⟩
  · rw [hcurrent] at hnow
    exact hnow
  · rw [h.pending, hf, Option.map_none]

/-- The update made late. -/
theorem restored (h : w.Late m u) : w.deferredNz.Alike true m u ∧
    w.deferredNz.alu.pendingFlags = none := by
  have hafter : w.deferredNz.alu = w.alu.storeSr (u.alu.flush false).sr :=
    (AluState.after_emitDeferredNz h.pending w.deferred).trans (congrArg _ h.late)
  rw [hafter]
  refine ⟨⟨?_, h.alike.settled, h.alike.values, h.alike.reads, h.alike.trace⟩,
    AluState.storeSr_pendingFlags ..⟩
  rw [hafter]
  exact h.alike.agrees.restored h.pending

end FlagPoint.Late

end BackEdge

/-! Side by side. -/

namespace FlagCode

variable {floor m m' m₁ m₂ : Bool} {pre mid post out : FlagPoint σ → FlagPoint σ → Prop}
  {x : EmittedStep} {f : FlagPoint σ → FlagPoint σ} {c : Prog EmittedStep Unit}
  {r : Prog FlagStep Unit}

/-- The same can be told of both. -/
def Indistinct (w u : FlagPoint σ) : Prop := w.seen = u.seen

theorem pairs_op (h : ∀ w u, pre w u → post (w.perform a) (u.perform a).flush) :
    Pairs deferring immediate pre (.act (.step (.op a))) (.act (.op a)) post out := by
  refine .act (fun w u t hw ht => ?_) fun w u v hw hv => ?_
  · obtain rfl : t = w.perform a := ht
    exact ⟨_, ⟨_, rfl, rfl⟩, h w u hw⟩
  · obtain ⟨_, rfl, rfl⟩ := hv
    exact ⟨_, rfl, h w u hw⟩

theorem pairs_test (test : Values → Bool) (outcome : Bool) :
    Pairs deferring immediate (e.Describes (σ := σ) floor m) (.act (.step (.test test outcome)))
      (.act (.test test outcome)) (e.Describes floor m) out := by
  refine .act (fun w u t hw ht => ?_) fun w u v hw hv => ?_
  · obtain ⟨htest, rfl⟩ := ht
    rw [hw.alike.values] at htest
    exact ⟨_, ⟨_, ⟨htest, rfl⟩, rfl⟩, hw.test _⟩
  · obtain ⟨_, ⟨htest, rfl⟩, rfl⟩ := hv
    rw [← hw.alike.values] at htest
    exact ⟨_, ⟨htest, rfl⟩, hw.test _⟩

section Between

variable (mid) (hx : ∀ w v, deferring.act x w v ↔ v = f w)

include hx

theorem pairs_before (h : ∀ w u, pre w u → mid (f w) u)
    (hc : Pairs deferring immediate mid c r post out) :
    Pairs deferring immediate pre (.seq (.act x) c) r post out := by
  refine .before (fun w _ _ => ⟨f w, (hx w _).mpr rfl⟩) (fun w u t hw ht => ?_) hc
  rw [(hx w t).mp ht]
  exact h w u hw

theorem pairs_after (hc : Pairs deferring immediate pre c r mid out)
    (h : ∀ w u, mid w u → post (f w) u) :
    Pairs deferring immediate pre (.seq c (.act x)) r post out := by
  refine hc.after (fun w _ _ => ⟨f w, (hx w _).mpr rfl⟩) fun w u t hw ht => ?_
  rw [(hx w t).mp ht]
  exact h w u hw

end Between

theorem pairs_exit (h : ∀ w u, pre w u → w.leave.seen = u.leave.seen) :
    Pairs deferring immediate pre (.exit ()) (.exit ()) post (Indistinct (σ := σ)) := by
  refine .exit (fun w u t hw ht => ?_) fun w u v hw hv => ?_
  · obtain rfl : t = w.leave := ht
    exact ⟨_, rfl, h w u hw⟩
  · obtain rfl : v = u.leave := hv
    exact ⟨_, rfl, h w u hw⟩

/-- Nothing is left behind where the block is left. -/
theorem leaves {w u : FlagPoint σ} (h : e.Describes true m w u) (hf : e.pendingFlags = none) :
    w.leave.seen = u.leave.seen := h.alike.leave (h.settled hf)

/-! Loops. -/

section Loop

variable {body : FlagCode} {preemptible : Bool}

/-- A pass defers the update of E, U, N and Z: it may begin where they are left behind. -/
theorem pairs_loop_deferring
    (hbody : Pairs deferring immediate (e.enterLoop.Describes (σ := σ) false m')
      (body.emit e.enterLoop).1 body.reference ((body.emit e.enterLoop).2.Describes false m')
      Indistinct)
    (hquiet : (body.emit e.enterLoop).2.deferHazardSites = e.deferHazardSites)
    (hdefers : (body.emit e.enterLoop).2.pendingFlags = some true)
    (hm : m = true → m' = true) :
    Pairs deferring immediate (e.Describes (σ := σ) floor m) ((loop preemptible body).emit e).1
      (loop preemptible body).reference
      (((loop preemptible body).emit e).2.Describes floor m') Indistinct := by
  have hcode : ((loop preemptible body).emit e).1 =
      .seq (.act .flush) (.branch .nop (.seq (.loop (.seq (body.emit e.enterLoop).1
        (.seq (.act .flushBackedge) (if preemptible then
          .branch (.seq (.act .deferredNz) (.exit ())) .nop else .nop)))) (.act .deferredNz))) := by
    simp only [emit, hquiet, hdefers, beq_self_eq_true, Bool.and_self, if_true]
  have hpreempt : Pairs deferring immediate (FlagPoint.Late (σ := σ) m')
      (if preemptible then .branch (.seq (.act .deferredNz) (.exit ())) .nop else .nop)
      (if preemptible then .branch (.exit ()) .nop else .nop) (FlagPoint.Late m') Indistinct := by
    cases preemptible with
    | false => exact .nop
    | true =>
      exact .branch (pairs_before
        (fun w u => w.Alike true m' u ∧ w.alu.pendingFlags = none)
        (fun _ _ => Iff.rfl) (fun w u hw => hw.restored)
        (pairs_exit fun w u hw => hw.1.leave hw.2)) .nop
  rw [hcode]
  refine pairs_before ((e.flush false).Describes floor m)
    (fun _ _ => Iff.rfl) (fun w u hw => hw.flush) (.branch ?_ ?_)
  · exact .to_post .nop fun w u hw =>
      hw.mono id (fun hc => by cases hc) SrEmission.flush_pendingFlags.symm hm
  · refine pairs_after (FlagPoint.Late m') (fun _ _ => Iff.rfl)
      (.of_pre (.loop (hbody.seq ?_) fun w u hw => ?_) fun w u hw => ?_) fun w u hw => ?_
    · exact pairs_before _ (fun _ _ => Iff.rfl) (fun w u hw => hw.late hdefers) hpreempt
    · exact hw.again rfl SrEmission.flush_pendingFlags
    · exact hw.mono (fun hc => by cases hc) (fun hc => by cases hc) rfl hm
    · obtain ⟨halike, hpending⟩ := hw.restored
      refine ⟨halike.mono (fun _ => rfl) id, ?_⟩
      rw [hpending]
      rfl

/-- Any other pass updates SR all the way. -/
theorem pairs_loop
    (hbody : Pairs deferring immediate (e.enterLoop.Describes (σ := σ) floor m')
      (body.emit e.enterLoop).1 body.reference ((body.emit e.enterLoop).2.Describes floor m')
      Indistinct)
    (hdefers : (body.emit e.enterLoop).2.deferHazardSites = e.deferHazardSites →
      (body.emit e.enterLoop).2.pendingFlags ≠ some true)
    (hpreempt : preemptible = true → floor = true) (hm : m = true → m' = true) :
    Pairs deferring immediate (e.Describes (σ := σ) floor m) ((loop preemptible body).emit e).1
      (loop preemptible body).reference
      (((loop preemptible body).emit e).2.Describes floor m') Indistinct := by
  obtain ⟨x, f, hx, hflush, hcode⟩ : ∃ (x : EmittedStep) (f : FlagPoint σ → FlagPoint σ),
      (∀ w v, deferring.act x w v ↔ v = f w) ∧
      (∀ w u, (body.emit e.enterLoop).2.Describes floor m' w u →
        ((body.emit e.enterLoop).2.flush false).Describes floor m' (f w) u) ∧
      ((loop preemptible body).emit e).1 =
        .seq (.act .flush) (.branch .nop (.loop (.seq (body.emit e.enterLoop).1
          (.seq (.act x) (if preemptible then .branch (.exit ()) .nop else .nop))))) := by
    by_cases hquiet : (body.emit e.enterLoop).2.deferHazardSites = e.deferHazardSites
    · have hnone := hdefers hquiet
      refine ⟨.flushBackedge, FlagPoint.flushBackedge, fun _ _ => Iff.rfl,
        fun w u hw => hw.backedge hnone, ?_⟩
      simp [emit, hquiet, hnone]
    · refine ⟨.flush, FlagPoint.flush, fun _ _ => Iff.rfl, fun w u hw => hw.flush, ?_⟩
      simp [emit, hquiet]
  have hexit : Pairs deferring immediate
      (((body.emit e.enterLoop).2.flush false).Describes (σ := σ) floor m')
      (if preemptible then .branch (.exit ()) .nop else .nop)
      (if preemptible then .branch (.exit ()) .nop else .nop)
      (((body.emit e.enterLoop).2.flush false).Describes floor m') Indistinct := by
    cases preemptible with
    | false => exact .nop
    | true =>
      obtain rfl : floor = true := hpreempt rfl
      exact .branch (pairs_exit fun w u hw => leaves hw SrEmission.flush_pendingFlags) .nop
  have hpending : ((body.emit e.enterLoop).2.flush false).pendingFlags = none :=
    SrEmission.flush_pendingFlags
  rw [hcode]
  refine pairs_before ((e.flush false).Describes floor m)
    (fun _ _ => Iff.rfl) (fun w u hw => hw.flush) (.branch ?_ ?_)
  · exact .to_post .nop fun w u hw =>
      hw.mono id (fun hc => by cases hc) SrEmission.flush_pendingFlags.symm hm
  · refine .mono (.loop (hbody.seq (pairs_before _ hx hflush hexit)) fun w u hw => ?_)
      (fun w u hw => ?_) (fun w u hw => ?_) fun _ _ => id
    · exact hw.mono id (fun hc => by cases hc)
        (SrEmission.flush_pendingFlags.trans hpending.symm) id
    · exact hw.mono id (fun hc => by cases hc) rfl hm
    · exact hw.mono id (fun hc => by cases hc) hpending.symm id

end Loop

section Conditional

variable {q : FlagCode}

/-- The arms of a conditional. The emitter goes on from the first to the other, which on no path
comes after it. -/
theorem pairs_conditional (test : Values → Bool)
    (htaken : Pairs deferring immediate (e.beginConditional.Describes (σ := σ) floor m)
      (p.emit e.beginConditional).1 p.reference
      ((p.emit e.beginConditional).2.Describes floor m₁) Indistinct)
    (hother : Pairs deferring immediate
      ((p.emit e.beginConditional).2.endConditionalArm.Describes (σ := σ) floor m)
      (q.emit (p.emit e.beginConditional).2.endConditionalArm).1 q.reference
      ((q.emit (p.emit e.beginConditional).2.endConditionalArm).2.Describes floor m₂) Indistinct) :
    Pairs deferring immediate (e.Describes (σ := σ) floor m) ((conditional test p q).emit e).1
      (conditional test p q).reference
      (((conditional test p q).emit e).2.Describes floor (m₁ || m₂)) Indistinct := by
  have hbegin : e.beginConditional.condDepth ≠ 0 := Nat.succ_ne_zero _
  have hend : (p.emit e.beginConditional).2.condDepth ≠ 0 := by rwa [emit_condDepth]
  have harm : (p.emit e.beginConditional).2.endConditionalArm.condDepth ≠ 0 :=
    SrEmission.flush_condDepth.trans_ne hend
  have hmerge : (q.emit (p.emit e.beginConditional).2.endConditionalArm).2.condDepth ≠ 0 := by
    rwa [emit_condDepth]
  refine pairs_before (e.beginConditional.Describes floor m) (fun _ _ => Iff.rfl)
    (fun w u hw => hw.flush.mono id id rfl id) (.branch ?_ ?_)
  · refine (pairs_test test true).seq (pairs_after _ (fun _ _ => Iff.rfl) htaken fun w u hw => ?_)
    refine hw.flush.mono id (fun hc => ?_)
      (SrEmission.flush_pendingFlags.trans SrEmission.flush_pendingFlags.symm)
      fun hm => by rw [hm, Bool.true_or]
    exact emit_eunz_of_depth harm ((SrEmission.flush_eunz_of_depth hmerge).symm.trans hc)
  · refine (pairs_test test false).seq (.of_pre (pairs_after _ (fun _ _ => Iff.rfl) hother
      fun w u hw => ?_) fun w u hw => ?_)
    · exact hw.flush.mono id id rfl fun hm => by rw [hm, Bool.or_true]
    · refine hw.mono id (fun hc => ?_)
        (SrEmission.flush_pendingFlags.trans SrEmission.flush_pendingFlags.symm) id
      exact emit_eunz_of_depth hbegin ((SrEmission.flush_eunz_of_depth hend).symm.trans hc)

end Conditional

/-- An exit stores what is behind it, so nothing may be left out. -/
theorem pairs_bail (test : Values → Bool) :
    Pairs deferring immediate (e.Describes (σ := σ) true m) ((bail test).emit e).1
      (bail test).reference (((bail test).emit e).2.Describes true m) Indistinct := by
  refine pairs_before ((e.flush false).Describes true m) (fun _ _ => Iff.rfl)
    (fun w u hw => hw.flush) (.branch ?_ ?_)
  · exact (pairs_test test true).seq
      (pairs_exit fun w u hw => leaves hw SrEmission.flush_pendingFlags)
  · exact (pairs_test test false).to_post fun w u hw => hw.mono id id rfl id

/-- Each path of the emitted code has one of the operations alone beside it, and each of these one
of the emitted code. -/
theorem pairs (hp : p.Proper) (hm : p.after m = some m')
    (hs : floor = true ∨ (p.emit e).2.deferHazardSites = e.deferHazardSites) :
    Pairs deferring immediate (e.Describes (σ := σ) floor m) (p.emit e).1 p.reference
      ((p.emit e).2.Describes floor m') Indistinct := by
  induction p generalizing e floor m m' with
  | op a => exact pairs_op fun w u h => h.perform hp hm hs
  | seq p q ihp ihq =>
    obtain ⟨m₁, hm₁, hm₂⟩ := Option.bind_eq_some_iff.mp hm
    have hfirst : e.deferHazardSites ≤ (p.emit e).2.deferHazardSites := emit_sites
    have hrest : (p.emit e).2.deferHazardSites ≤
        ((seq p q).emit e).2.deferHazardSites := emit_sites (p := q)
    exact (ihp hp.1 hm₁ (hs.imp_right fun hs => by omega)).seq
      (ihq hp.2 hm₂ (hs.imp_right fun hs => Nat.le_antisymm (hs.trans_le hfirst) hrest))
  | conditional c p q ihp ihq =>
    obtain ⟨m₁, hm₁, hm⟩ := Option.bind_eq_some_iff.mp hm
    obtain ⟨m₂, hm₂, hm⟩ := Option.bind_eq_some_iff.mp hm
    obtain rfl : (m₁ || m₂) = m' := Option.some.inj hm
    have hbegin : e.beginConditional.deferHazardSites = e.deferHazardSites :=
      SrEmission.flush_sites
    have htaken : e.beginConditional.deferHazardSites ≤
        (p.emit e.beginConditional).2.deferHazardSites := emit_sites
    have harm : (p.emit e.beginConditional).2.endConditionalArm.deferHazardSites =
        (p.emit e.beginConditional).2.deferHazardSites := SrEmission.flush_sites
    have hother := emit_sites (p := q) (e := (p.emit e.beginConditional).2.endConditionalArm)
    have hmerge : ((conditional c p q).emit e).2.deferHazardSites =
        (q.emit (p.emit e.beginConditional).2.endConditionalArm).2.deferHazardSites :=
      SrEmission.flush_sites
    exact pairs_conditional c (ihp hp.1 hm₁ (hs.imp_right fun hs => by omega))
      (ihq hp.2 hm₂ (hs.imp_right fun hs => by omega))
  | bail c =>
    have hsites : ((bail c).emit e).2.deferHazardSites = e.deferHazardSites + 1 :=
      congrArg Nat.succ SrEmission.flush_sites
    obtain rfl : floor = true := hs.resolve_right fun hs => by omega
    obtain rfl : m = m' := Option.some.inj hm
    exact pairs_bail c
  | loop preemptible body ih =>
    obtain ⟨m₁, hm₁, hm⟩ := Option.bind_eq_some_iff.mp hm
    obtain ⟨m₂, hm₂, hm⟩ := Option.bind_eq_some_iff.mp hm
    obtain rfl : (m || m₁) = m' := Option.some.inj hm
    have hbegin : e.enterLoop.deferHazardSites = e.deferHazardSites := SrEmission.flush_sites
    have hbody : e.enterLoop.deferHazardSites ≤ (body.emit e.enterLoop).2.deferHazardSites :=
      emit_sites
    have hloop : ((loop preemptible body).emit e).2.deferHazardSites =
        (body.emit e.enterLoop).2.deferHazardSites + if preemptible then 1 else 0 := by
      cases preemptible <;> rfl
    have hmarked : m₂ = true → (m || m₁) = true := by
      cases hmm : m || m₁ with
      | true => exact fun _ => rfl
      | false =>
        obtain ⟨rfl, rfl⟩ := Bool.or_eq_false_iff.mp hmm
        rw [Bool.or_self, hm₁] at hm₂
        rw [← Option.some.inj hm₂]
        exact id
    have hentry : m = true → (m || m₁) = true := fun hm => by rw [hm, Bool.true_or]
    by_cases hdefers : (body.emit e.enterLoop).2.deferHazardSites = e.deferHazardSites ∧
        (body.emit e.enterLoop).2.pendingFlags = some true
    · refine pairs_loop_deferring ?_ hdefers.1 hdefers.2 hentry
      exact (ih hp hm₂ (.inr (hdefers.1.trans hbegin.symm))).to_post fun w u hw =>
        hw.mono id id rfl hmarked
    · refine pairs_loop ?_ (fun hsites hpending => hdefers ⟨hsites, hpending⟩)
        (fun hpreempt => hs.resolve_right fun hs => ?_) hentry
      · exact (ih hp hm₂ (hs.imp_right fun hs => by omega)).to_post fun w u hw =>
          hw.mono id id rfl hmarked
      · rw [hloop, if_pos hpreempt] at hs
        omega

/-- What is known where a block begins. -/
theorem describes_start {s : DspState σ} (hs : s.Within) :
    SrEmission.Describes {} true false (.start s) (.start s) :=
  ⟨⟨.enter hs, rfl, rfl, rfl, rfl⟩, rfl⟩

theorem pairs_block (hp : p.Proper) (hm : p.after false = some m') :
    Pairs deferring immediate (SrEmission.Describes (σ := σ) {} true false) p.emitBlock
      p.referenceBlock Indistinct Indistinct := by
  refine (pairs hp hm (.inl rfl)).seq (pairs_before _ (fun _ _ => Iff.rfl)
    (fun w u hw => hw.flush) (pairs_exit fun w u hw => leaves hw SrEmission.flush_pendingFlags))

end FlagCode

/-- Condition codes deferred are those of the operations: whatever is emitted in whatever order,
with bits for carries and overflows and no store of SR between a saturation and what consumes its
marker, every path through it has one through the operations alone, and every one of these has one
through it, on which the same words of SR are read and the same memory is left, SR with it. -/
theorem flags_deferred_unseen {s : DspState σ} (hs : s.Within) (hp : p.Proper)
    (hm : (p.after false).isSome) :
    (∀ left w, Path FlagCode.deferring p.emitBlock (.start s) left w →
      ∃ u, Path FlagCode.immediate p.referenceBlock (.start s) left u ∧ w.seen = u.seen) ∧
    ∀ left u, Path FlagCode.immediate p.referenceBlock (.start s) left u →
      ∃ w, Path FlagCode.deferring p.emitBlock (.start s) left w ∧ w.seen = u.seen := by
  obtain ⟨m, hm⟩ := Option.isSome_iff_exists.mp hm
  obtain ⟨hforward, hbackward⟩ := FlagCode.pairs_block (σ := σ) hp hm
  refine ⟨fun left w hw => ?_, fun left u hu => ?_⟩
  · obtain ⟨u, hu, hseen⟩ := hforward _ _ left w (FlagCode.describes_start hs) hw
    exact ⟨u, hu, (ite_self _).mp hseen⟩
  · obtain ⟨w, hw, hseen⟩ := hbackward _ _ left u (FlagCode.describes_start hs) hu
    exact ⟨w, hw, (ite_self _).mp hseen⟩

/-! A loop that defers, on a core just reset. -/

def resetCore : DspState Unit := .new ⟨[], [], []⟩ ⟨fun _ => 0, ()⟩

/-- The last value counted up, with all its flags. -/
def countedUp : Deferral where
  flags vs := .aluAddSub (vs.getLastD 0) 1 (vs.getLastD 0 - 1) (vs.getLastD 0) false
  kindRewrites _ := rfl
  kindConsumes _ := rfl

/-- A is counted up, saturating; on some passes it is read with limiting first. SR is read behind
the loop. -/
def countUp : FlagCode :=
  .seq (.loop true (.seq (.conditional (fun vs => vs.getLastD 0 = 0) (.op (.readAccu24 .a))
      (.op (.loadAcc .b)))
    (.seq (.op (.loadAcc .a)) (.seq (.op (.saturateSm fun vs => vs.getLastD 0 + 1))
      (.seq (.op (.storeAcc .a fun vs => vs.getLastD 0)) (.op (.setPending countedUp)))))))
    (.op .loadSr)

/-- The back edge leaves the update of E, U, N and Z to the end of the loop. -/
example : ∃ passes, (countUp.emit {}).1 = .seq (.seq (.act .flush) (.branch .nop
    (.seq passes (.act .deferredNz)))) (.act (.step (.op .loadSr))) := ⟨_, rfl⟩

theorem countUp_unseen :
    (∀ left w, Path FlagCode.deferring countUp.emitBlock (.start resetCore) left w →
      ∃ u, Path FlagCode.immediate countUp.referenceBlock (.start resetCore) left u ∧
        w.seen = u.seen) ∧
    ∀ left u, Path FlagCode.immediate countUp.referenceBlock (.start resetCore) left u →
      ∃ w, Path FlagCode.deferring countUp.emitBlock (.start resetCore) left w ∧
        w.seen = u.seen :=
  flags_deferred_unseen (DspState.within_new MemoryMap.holds_unmapped)
    ⟨⟨⟨trivial, trivial⟩, trivial, trivial, trivial, fun _ => trivial⟩, trivial⟩ (by decide)

/-! Code that is not so told apart. -/

def Deferral.constant (flags : PendingFlags) : Deferral where
  flags _ := flags
  kindRewrites _ := rfl
  kindConsumes _ := rfl

/-- SR is stored between a saturation and what consumes its marker. -/
def storedBetween : FlagCode :=
  .seq (.op (.storeSr fun _ => 1#32 <<< Sr.sm)) (.seq (.op (.setPending (.constant (.nzOnly 0))))
    (.seq (.op (.saturateSm fun _ => 0x800000000000)) (.seq (.op (.storeSr fun _ => 0))
      (.op (.setPending (.constant (.nzSm 0)))))))

/-- An overflow that is not a bit: it reaches S0, which the limiter reads. -/
def wideOverflow : FlagCode :=
  .seq (.op (.storeSr fun _ => 0)) (.seq (.op (.storeAcc .a fun _ => 0x200000000000))
    (.seq (.op (.setPending (.constant (.nzVlSm 0 0x200)))) (.op (.readAccu24 .a))))

theorem flags_deferred_seen :
    (storedBetween.Proper ∧ ∃ w, Path FlagCode.deferring storedBetween.emitBlock (.start resetCore)
      true w ∧ ∀ u, Path FlagCode.immediate storedBetween.referenceBlock (.start resetCore) true u →
        w.seen ≠ u.seen) ∧
    (wideOverflow.after false).isSome ∧ ∃ w, Path FlagCode.deferring wideOverflow.emitBlock
      (.start resetCore) true w ∧ ∀ u, Path FlagCode.immediate wideOverflow.referenceBlock
        (.start resetCore) true u → w.seen ≠ u.seen := by
  have hsr {w u : FlagPoint Unit} (h : w.alu.sr ≠ u.alu.sr) : w.seen ≠ u.seen := fun hseen =>
    h (congrArg (fun x => x.1.registers Reg.sr) hseen)
  refine ⟨⟨⟨trivial, fun _ => trivial, trivial, trivial, fun _ => trivial⟩, _,
    .seq (.seq (.act rfl) (.seq (.act rfl) (.seq (.act rfl) (.seq (.act rfl) (.act rfl)))))
      (.seq (.act rfl) (.exit rfl)), fun u hu => hsr ?_⟩, by decide, _,
    .seq (.seq (.act rfl) (.seq (.act rfl) (.seq (.act rfl) (.act rfl))))
      (.seq (.act rfl) (.exit rfl)), fun u hu => hsr ?_⟩
  · obtain rfl : u = _ := by
      simpa [storedBetween, FlagCode.referenceBlock, FlagCode.reference, path_seq, path_act,
        path_exit, FlagCode.immediate, FlagStep.does] using hu
    decide +kernel
  · obtain rfl : u = _ := by
      simpa [wideOverflow, FlagCode.referenceBlock, FlagCode.reference, path_seq, path_act,
        path_exit, FlagCode.immediate, FlagStep.does] using hu
    decide +kernel

end Dsp56300
