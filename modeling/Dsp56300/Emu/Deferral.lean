import Dsp56300.Emu.SrUpdates

/-! What is deferred makes no difference: the state behind a point of compiled code, as its exit
would leave it, moves as if nothing were. -/

namespace Dsp56300

open Emitter Lib.Coupling Lib.Words SrUpdate

variable {σ α : Type}

namespace DspState

variable {s : DspState σ} {r q : RegIdx} {v w : Word}

theorem setReg_comm (h : r ≠ q) : (s.setReg r v).setReg q w = (s.setReg q w).setReg r v := by
  simp only [setReg, Function.update_comm h]

theorem Within.inWidth (h : s.Within) (d : Accumulator) : s.InWidth d := by
  cases d <;> exact ⟨h.lt (by decide), h.lt (by decide), h.lt (by decide)⟩

theorem Within.stored (h : s.Within) : store (s.registers Reg.sr) = s.registers Reg.sr :=
  h.registers Reg.sr

end DspState

theorem Packs.widen {x : BitVec 64} (hx : Packs x) : (x.setWidth 56).setWidth 64 = x := by
  apply BitVec.eq_of_toNat_eq
  rw [BitVec.toNat_setWidth, BitVec.toNat_setWidth, Nat.mod_eq_of_lt hx, Nat.mod_eq_of_lt x.isLt]

namespace AluState

variable {t u : AluState σ} {d : Accumulator} {r : RegIdx}

/-! What code sees. -/

/-- The core as code sees it here: the variables in place of the registers they stand for. -/
def view (t : AluState σ) : DspState σ := { t.dsp with registers := t.readReg }

theorem store_view (t : AluState σ) :
    (t.dsp.flushAccToMemory .a (t.acc .a)).flushAccToMemory .b (t.acc .b) = t.view := by
  have hregs : ((t.dsp.flushAccToMemory .a (t.acc .a)).flushAccToMemory .b (t.acc .b)).registers =
      t.readReg := by
    funext r
    by_cases hr : DspState.Outside r
    · rw [DspState.flush_registers hr, DspState.flush_registers hr]
      simp only [DspState.Outside, List.mem_cons, List.not_mem_nil, or_false, not_or] at hr
      obtain ⟨ha0, ha1, ha2, hb0, hb1, hb2⟩ := hr
      simp only [readReg, ha0, ha1, ha2, hb0, hb1, hb2, if_false]
    · simp only [DspState.Outside, List.mem_cons, List.not_mem_nil, or_false, not_not] at hr
      rcases hr with rfl | rfl | rfl | rfl | rfl | rfl <;> rfl
  rw [view, ← hregs]
  simp only [DspState.flushAccToMemory, accRegs, DspState.setReg]

theorem setSr_view (t : AluState σ) (w : Word) : (t.setSr w).view = t.view.setReg Reg.sr w := by
  have hregs : (t.setSr w).readReg = Function.update t.readReg Reg.sr w := by
    funext r
    by_cases hr : r = Reg.sr
    · subst hr
      rfl
    · simp only [readReg, setSr, Function.update_of_ne hr, DspState.setReg_other _ _ hr]
  simp only [view, hregs]
  rfl

theorem flush_view (t : AluState σ) (e : Bool) :
    (t.flush e).view = t.view.setReg Reg.sr (t.flush e).sr := by
  unfold flush
  split
  · exact (DspState.setReg_self t.view Reg.sr).symm
  · exact (setSr_view t _).trans (congrArg _ (setSr_sr ..).symm)

theorem view_reloadAcc (hp : Packs (t.acc d)) : t.view.reloadAcc d = t.acc d := by
  have hacc : t.view.acc d = (t.acc d).setWidth 56 := by
    rw [← store_view]
    cases d
    · exact (DspState.acc_flush_other (by decide) _).trans (DspState.acc_flush _)
    · exact DspState.acc_flush _
  rw [DspState.reloadAcc_eq, hacc]
  exact hp.widen

/-! What is true at every point of compiled code. -/

structure Valid (t : AluState σ) : Prop where
  coherent : t.Coherent
  packed : ∀ d, Packs (t.acc d)
  within : t.dsp.Within
  marked : t.pendingSmMarker.isSome = t.pendingFlags.any PendingFlags.consumesSmMarker
  proper : ∀ flags, t.pendingFlags = some flags → flags.Proper
  marker : IsBit (t.pendingSmMarker.getD t.smNeedsSat)
  needs : IsBit t.smNeedsSat

theorem Valid.enter {s : DspState σ} (hs : s.Within) : (AluState.enter s).Valid where
  coherent := .enter s
  packed d := by
    cases d <;> exact packs_packAcc (Nat.lt_of_le_of_lt Nat.and_le_right (by decide))
  within := hs
  marked := rfl
  proper _ hf := by cases hf
  marker := isBit_zero
  needs := isBit_zero

theorem Valid.spill (h : t.Valid) : t.spill = t.view := by
  have hclean {d : Accumulator} {s : DspState σ} (hs : s.InWidth d)
      (hreload : s.reloadAcc d = t.dsp.reloadAcc d) :
      (if t.accDirty d then s.flushAccToMemory d (t.acc d) else s) =
        s.flushAccToMemory d (t.acc d) := by
    cases hd : t.accDirty d with
    | false =>
      rw [h.coherent.clean d hd, ← hreload, DspState.flush_reload hs]
      rfl
    | true => rfl
  have hb : (t.dsp.flushAccToMemory .a (t.acc .a)).InWidth .b := by
    obtain ⟨h2, h1, h0⟩ := h.within.inWidth .b
    exact ⟨h2, h1, h0⟩
  rw [← store_view, AluState.spill, hclean (h.within.inWidth .a) rfl, hclean hb rfl]

theorem Valid.stored (h : t.Valid) : store t.sr = t.sr := h.within.stored

/-- A flush, as far as SR goes. -/
theorem flush_sr {flags : PendingFlags} (hf : t.pendingFlags = some flags) (e : Bool) :
    (t.flush e).sr = flags.materialize e (t.pendingSmMarker.getD t.smNeedsSat) t.sr := by
  rw [flush, hf]
  exact setSr_sr ..

theorem Valid.flush (h : t.Valid) (e : Bool) : (t.flush e).Valid := by
  cases hf : t.pendingFlags with
  | none =>
    rw [flush_settled hf]
    exact h
  | some flags =>
    have hstored := PendingFlags.materialize_stored (h.proper flags hf) h.marker h.stored e
    have hmarked := h.marked
    rw [hf] at hmarked
    have heq : t.flush e =
        { t.setSr (flags.materialize e (t.pendingSmMarker.getD t.smNeedsSat) t.sr) with
          pendingFlags := none
          pendingSmMarker := none } := by
      rw [AluState.flush, hf]
      cases hc : flags.consumesSmMarker with
      | true => simp [hc]
      | false =>
        simp only [Option.any_some, hc, Option.isSome_eq_false_iff, Option.isNone_iff_eq_none]
          at hmarked
        simp [hc, hmarked, AluState.setSr]
    rw [heq]
    exact ⟨⟨(h.coherent.setSr _).clean⟩, h.packed, h.within.setReg hstored, rfl,
      fun _ hf => (by cases hf), h.needs, h.needs⟩

/-- The bits saturation and rounding read are there whatever is deferred. -/
theorem Valid.mode (h : t.Valid) (e : Bool) {k : Nat} (hk : k ∈ controlBits) :
    flag (t.flush e).sr k = flag t.sr k := by
  cases hf : t.pendingFlags with
  | none => rw [flush_settled hf]
  | some flags =>
    rw [flush_sr hf]
    exact PendingFlags.materialize_mode (h.proper flags hf) h.marker h.stored e hk

theorem Valid.elided (h : t.Valid) : SameSettled (t.flush true).sr (t.flush false).sr := by
  cases hf : t.pendingFlags with
  | none =>
    rw [flush_settled hf, flush_settled hf]
    exact fun _ _ => rfl
  | some flags =>
    rw [flush_sr hf, flush_sr hf]
    exact PendingFlags.materialize_settled (h.proper flags hf) h.marker h.stored h.stored
      (fun _ _ => rfl) true false

theorem Valid.finalize (h : t.Valid) : t.finalize = (t.flush false).view := (h.flush false).spill

/-! The state behind the point, and what the operations make of it. -/

section Behind

variable (h : t.Valid)

include h

theorem Valid.finalize_eq : t.finalize = t.view.setReg Reg.sr (t.flush false).sr :=
  h.finalize.trans (flush_view t false)

theorem Valid.acc_eq (d : Accumulator) : t.acc d = t.finalize.reloadAcc d := by
  rw [h.finalize_eq, DspState.reloadAcc_setReg (by decide), view_reloadAcc (h.packed d)]

theorem Valid.readReg_eq (hr : r ≠ Reg.sr) : t.readReg r = t.finalize.registers r := by
  rw [h.finalize_eq, DspState.setReg_other _ _ hr]
  rfl

theorem Valid.flush_sr_eq : (t.flush false).sr = t.finalize.registers Reg.sr := by
  rw [h.finalize_eq, DspState.setReg_same]

theorem Valid.mode_eq {k : Nat} (hk : k ∈ controlBits) :
    flag t.sr k = flag (t.finalize.registers Reg.sr) k := by
  rw [← h.flush_sr_eq, h.mode false hk]

end Behind

/-! The accumulators. -/

theorem view_setAcc (t : AluState σ) (d : Accumulator) (v : BitVec 64) :
    (t.setAcc d v).view = t.view.flushAccToMemory d v := by
  have hregs : (t.setAcc d v).readReg = (t.view.flushAccToMemory d v).registers := by
    funext r
    by_cases hr : DspState.Outside r
    · rw [DspState.flush_registers hr]
      simp only [DspState.Outside, List.mem_cons, List.not_mem_nil, or_false, not_or] at hr
      obtain ⟨ha0, ha1, ha2, hb0, hb1, hb2⟩ := hr
      simp only [view, readReg, ha0, ha1, ha2, hb0, hb1, hb2, if_false, setAcc_dsp]
    · simp only [DspState.Outside, List.mem_cons, List.not_mem_nil, or_false, not_not] at hr
      cases d <;> rcases hr with rfl | rfl | rfl | rfl | rfl | rfl <;> rfl
  rw [view, hregs]
  cases d <;> rfl

theorem Valid.setAcc (h : t.Valid) (d : Accumulator) {v : BitVec 64} (hv : Packs v) :
    (t.setAcc d v).Valid := by
  refine ⟨h.coherent.setAcc d v, fun d' => ?_, h.within, h.marked, h.proper, h.marker, h.needs⟩
  by_cases hd : d' = d
  · subst hd
    rw [setAcc_acc]
    exact hv
  · rw [setAcc_acc_other _ _ _ hd]
    exact h.packed d'

theorem Valid.finalize_setAcc (h : t.Valid) (d : Accumulator) {v : BitVec 64} (hv : Packs v) :
    (t.setAcc d v).finalize = t.finalize.flushAccToMemory d v := by
  rw [(h.setAcc d hv).finalize, h.finalize, flush_setAcc, view_setAcc]

/-! Registers outside the accumulators and SR. -/

theorem view_setOuter (t : AluState σ) (hr : DspState.Outside r) (w : Word) :
    (t.setOuter w r).view = t.view.setReg r w := by
  have hregs : (t.setOuter w r).readReg = Function.update t.readReg r w := by
    funext q
    by_cases hq : q = r
    · subst hq
      simp only [DspState.Outside, List.mem_cons, List.not_mem_nil, or_false, not_or] at hr
      obtain ⟨ha0, ha1, ha2, hb0, hb1, hb2⟩ := hr
      rw [Function.update_self]
      simp [readReg, setOuter, ha0, ha1, ha2, hb0, hb1, hb2]
    · rw [Function.update_of_ne hq]
      simp only [readReg, setOuter, DspState.setReg_other _ _ hq]
  rw [view, hregs]
  rfl

theorem Valid.setOuter (h : t.Valid) (hr : DspState.Outside r) {w : Word}
    (hw : maskReg r w = w) : (t.setOuter w r).Valid :=
  ⟨h.coherent.setOuter w hr, h.packed, h.within.setReg hw, h.marked, h.proper, h.marker, h.needs⟩

theorem flush_setOuter (hr : r ≠ Reg.sr) (w : Word) (e : Bool) :
    (t.setOuter w r).flush e = (t.flush e).setOuter w r := by
  rw [flush, flush, setOuter_pendingFlags]
  split
  · rfl
  · rw [setOuter_sr _ _ hr]
    simp only [setOuter, setSr, DspState.setReg_comm hr]

theorem Valid.finalize_setOuter (h : t.Valid) (hr : DspState.Outside r) (hsr : r ≠ Reg.sr)
    {w : Word} (hw : maskReg r w = w) : (t.setOuter w r).finalize = t.finalize.setReg r w := by
  rw [(h.setOuter hr hw).finalize, h.finalize, flush_setOuter hsr, view_setOuter _ hr]

/-! The marker of a saturation. -/

/-- A computation that does not consume the marker does not look at it. -/
theorem materialize_unmarked {flags : PendingFlags} (hc : flags.consumesSmMarker = false)
    (e : Bool) (m n x : Word) : flags.materialize e m x = flags.materialize e n x := by
  cases flags <;> first | rfl | cases hc

theorem Valid.flush_setNeedsSat (h : t.Valid) (w : Word) (e : Bool) :
    (t.setNeedsSat w).flush e = (t.flush e).setNeedsSat w := by
  have hmarked := h.marked
  rw [AluState.flush, AluState.flush, setNeedsSat_pendingFlags]
  split
  · rfl
  · next flags hf =>
    simp only [hf, Option.any_some] at hmarked
    cases hc : flags.consumesSmMarker with
    | true =>
      rw [hc, Option.isSome_iff_exists] at hmarked
      obtain ⟨m, hm⟩ := hmarked
      simp only [AluState.setNeedsSat, hm, Option.getD_some, setSr, sr, if_true]
    | false =>
      simp only [AluState.setNeedsSat, setSr, sr,
        materialize_unmarked hc e _ (t.pendingSmMarker.getD t.smNeedsSat)]

theorem Valid.setNeedsSat (h : t.Valid) {w : Word} (hw : IsBit w) : (t.setNeedsSat w).Valid := by
  refine ⟨h.coherent.setNeedsSat w, h.packed, h.within, h.marked, h.proper, ?_, hw⟩
  have hm := h.marker
  change IsBit (t.pendingSmMarker.getD w)
  cases hp : t.pendingSmMarker with
  | none => exact hw
  | some m =>
    rw [hp] at hm
    exact hm

theorem Valid.finalize_setNeedsSat (h : t.Valid) {w : Word} (hw : IsBit w) :
    (t.setNeedsSat w).finalize = t.finalize := by
  rw [(h.setNeedsSat hw).finalize, h.finalize, h.flush_setNeedsSat]
  rfl

/-! SR, and what is deferred. -/

/-- Where only SR changed, only SR changed behind the point. -/
theorem Valid.finalize_of (h : t.Valid) (hu : u.Valid) {w : Word}
    (hview : u.view = t.view.setReg Reg.sr w) :
    u.finalize = t.finalize.setReg Reg.sr (u.flush false).sr := by
  rw [hu.finalize_eq, h.finalize_eq, hview, DspState.setReg_setReg, DspState.setReg_setReg]

theorem Valid.unmarked (h : t.Valid) (hf : t.pendingFlags = none) : t.pendingSmMarker = none := by
  have hmarked := h.marked
  rwa [hf, Option.any_none, Option.isSome_eq_false_iff, Option.isNone_iff_eq_none] at hmarked

theorem flush_smNeedsSat (e : Bool) : (t.flush e).smNeedsSat = t.smNeedsSat := by
  unfold AluState.flush
  split <;> rfl

theorem Valid.finalize_flush (h : t.Valid) : (t.flush false).finalize = t.finalize := by
  rw [(h.flush false).finalize, h.finalize, flush_settled (flush_pendingFlags false)]

theorem setPending_pendingFlags (t : AluState σ) (flags : PendingFlags) :
    (t.setPending flags).pendingFlags = some flags := by
  unfold AluState.setPending
  split <;> rfl

theorem storeSr_pendingFlags (t : AluState σ) (v : Word) :
    (t.storeSr v).pendingFlags = none := by
  unfold storeSr
  split
  · assumption
  · rfl

theorem setPending_view (t : AluState σ) (flags : PendingFlags) :
    (t.setPending flags).view = (t.flush flags.rewritesEunz).view := by
  unfold AluState.setPending
  split <;> rfl

section Pending

variable {flags : PendingFlags}

theorem Valid.setPending (h : t.Valid) (hp : flags.Proper) : (t.setPending flags).Valid := by
  have hu := h.flush flags.rewritesEunz
  have hnone := hu.unmarked (flush_pendingFlags _)
  have hproper : ∀ f, some flags = some f → f.Proper := by
    rintro _ ⟨⟩
    exact hp
  unfold AluState.setPending
  split
  · next hc => exact ⟨⟨hu.coherent.clean⟩, hu.packed, hu.within, hc.symm, hproper, hu.needs, isBit_zero⟩
  · next hc =>
    refine ⟨⟨hu.coherent.clean⟩, hu.packed, hu.within, ?_, hproper, hu.marker, hu.needs⟩
    rw [Bool.not_eq_true] at hc
    exact (congrArg Option.isSome hnone).trans hc.symm

/-- The computation comes on top of what is behind the point, whether or not all of that was
materialized. -/
theorem Valid.setPending_sr (h : t.Valid) (hp : flags.Proper) :
    ((t.setPending flags).flush false).sr =
      flags.materialize false t.smNeedsSat (t.finalize.registers Reg.sr) := by
  have hu := h.flush flags.rewritesEunz
  have hmarker : (t.setPending flags).pendingSmMarker.getD (t.setPending flags).smNeedsSat =
      t.smNeedsSat := by
    unfold AluState.setPending
    split
    · exact flush_smNeedsSat _
    · change (t.flush flags.rewritesEunz).pendingSmMarker.getD
        (t.flush flags.rewritesEunz).smNeedsSat = _
      rw [hu.unmarked (flush_pendingFlags _), flush_smNeedsSat]
      rfl
  have hsr : (t.setPending flags).sr = (t.flush flags.rewritesEunz).sr := by
    unfold AluState.setPending
    split <;> rfl
  rw [flush_sr (setPending_pendingFlags t flags), hmarker, hsr, ← h.flush_sr_eq]
  cases hr : flags.rewritesEunz with
  | false => rfl
  | true => exact PendingFlags.materialize_congr hp h.needs hr h.elided

theorem Valid.finalize_setPending (h : t.Valid) (hp : flags.Proper) :
    (t.setPending flags).finalize = t.finalize.setReg Reg.sr
      (flags.materialize false t.smNeedsSat (t.finalize.registers Reg.sr)) := by
  have hview := (setPending_view t flags).trans (flush_view t _)
  rw [h.finalize_of (h.setPending hp) hview, h.setPending_sr hp]

end Pending

/-- Nothing pending, and SR written. -/
def overwrite (t : AluState σ) (needs v : Word) : AluState σ :=
  { t.setSr (maskReg Reg.sr v) with
    pendingFlags := none
    pendingSmMarker := none
    smNeedsSat := needs }

theorem Valid.overwrite (h : t.Valid) {needs : Word} (hn : IsBit needs) (v : Word) :
    (t.overwrite needs v).Valid :=
  ⟨⟨(h.coherent.setSr _).clean⟩, h.packed, h.within.setReg (maskReg_maskReg ..), rfl,
    fun _ hf => (by cases hf), hn, hn⟩

theorem Valid.finalize_overwrite (h : t.Valid) {needs : Word} (hn : IsBit needs) (v : Word) :
    (t.overwrite needs v).finalize = t.finalize.setReg Reg.sr (maskReg Reg.sr v) := by
  have hsr : ((t.overwrite needs v).flush false).sr = maskReg Reg.sr v := by
    rw [flush_settled rfl]
    exact setSr_sr ..
  rw [h.finalize_of (h.overwrite hn v) (setSr_view t _), hsr]

/-- A write of SR drops what is pending with its marker. -/
theorem Valid.storeSr_eq (h : t.Valid) (v : Word) :
    t.storeSr v = t.overwrite (if t.pendingFlags.isSome then 0 else t.smNeedsSat) v := by
  unfold storeSr
  split
  · next hf =>
    have hm := h.unmarked hf
    cases t
    cases hf
    cases hm
    rfl
  · next flags hf =>
    rw [hf]
    rfl

end AluState

end Dsp56300
