import Dsp56300.Emu.DataPathRules
import Dsp56300.Emu.Deferral

/-! Two points of compiled code with the same state behind them, and the operations from there. -/

namespace Dsp56300

open Emitter Lib.Bits Lib.Coupling Lib.Words SrUpdate

variable {σ α : Type}

section Parts

variable (v : BitVec 64)

theorem extractAccLo_masked : extractAccLo v &&& 0xFFFFFF = extractAccLo v :=
  and_of_lt (k := 24) rfl (field_lt v (by decide))

theorem extractAccMid_masked : extractAccMid v &&& 0xFFFFFF = extractAccMid v :=
  and_of_lt (k := 24) rfl (field_lt (v >>> 24) (by decide))

theorem extractAccHi_masked : extractAccHi v &&& 0xFF = extractAccHi v :=
  and_of_lt (k := 8) rfl (field_lt (v >>> 48) (by decide))

theorem DspState.Within.flush {s : DspState σ} (h : s.Within) (d : Accumulator) :
    (s.flushAccToMemory d v).Within := by
  have hlo := extractAccLo_masked v
  have hmid := extractAccMid_masked v
  have hhi := extractAccHi_masked v
  cases d with
  | a => exact ((h.setReg (r := Reg.a0) hlo).setReg (r := Reg.a1) hmid).setReg (r := Reg.a2) hhi
  | b => exact ((h.setReg (r := Reg.b0) hlo).setReg (r := Reg.b1) hmid).setReg (r := Reg.b2) hhi

end Parts

/-! What has nothing to do with SR and the accumulators. -/

namespace Aside

variable {f : DspState σ → α × DspState σ} {r : RegIdx}

theorem registers (h : Aside f) (hr : r = Reg.sr ∨ ¬ DspState.Outside r) (s : DspState σ) :
    (f s).2.registers r = s.registers r := by
  have hself := h.commutes r hr s (s.registers r)
  rw [DspState.setReg_self] at hself
  rw [hself]
  exact DspState.setReg_same ..

theorem reloadAcc (h : Aside f) (s : DspState σ) (d : Accumulator) :
    (f s).2.reloadAcc d = s.reloadAcc d := by
  cases d <;> simp only [DspState.reloadAcc, accRegs] <;>
    rw [h.registers (.inr (by decide)), h.registers (.inr (by decide)),
      h.registers (.inr (by decide))]

theorem flush (h : Aside f) (s : DspState σ) (d : Accumulator) (v : BitVec 64) :
    f (s.flushAccToMemory d v) = ((f s).1, (f s).2.flushAccToMemory d v) := by
  cases d <;> simp only [DspState.flushAccToMemory, accRegs] <;>
    rw [h.commutes _ (.inr (by decide)), h.commutes _ (.inr (by decide)),
      h.commutes _ (.inr (by decide))]

end Aside

namespace AluState

variable {t u : AluState σ}

theorem Valid.view_within (h : t.Valid) : t.view.Within := by
  refine ⟨fun r => ?_, h.within.slots, h.within.pc, h.within.interrupts, h.within.memory⟩
  change maskReg r (t.readReg r) = t.readReg r
  by_cases hr : DspState.Outside r
  · have hread : t.readReg r = t.dsp.registers r := by
      simp only [DspState.Outside, List.mem_cons, List.not_mem_nil, or_false, not_or] at hr
      obtain ⟨ha0, ha1, ha2, hb0, hb1, hb2⟩ := hr
      simp only [readReg, ha0, ha1, ha2, hb0, hb1, hb2, if_false]
    rw [hread]
    exact h.within.registers r
  · simp only [DspState.Outside, List.mem_cons, List.not_mem_nil, or_false, not_not] at hr
    rcases hr with rfl | rfl | rfl | rfl | rfl | rfl
    · exact extractAccLo_masked _
    · exact extractAccMid_masked _
    · exact extractAccHi_masked _
    · exact extractAccLo_masked _
    · exact extractAccMid_masked _
    · exact extractAccHi_masked _

theorem Valid.finalize_within (h : t.Valid) : t.finalize.Within := by
  rw [h.finalize]
  exact (h.flush false).view_within

theorem flush_sr_congr (hf : u.pendingFlags = t.pendingFlags)
    (hm : u.pendingSmMarker = t.pendingSmMarker) (hn : u.smNeedsSat = t.smNeedsSat)
    (hsr : u.sr = t.sr) (e : Bool) : (u.flush e).sr = (t.flush e).sr := by
  cases hp : t.pendingFlags with
  | none => rw [flush_settled (hf.trans hp), flush_settled hp, hsr]
  | some flags => rw [flush_sr (hf.trans hp), flush_sr hp, hm, hn, hsr]

/-- The state outside the variables, changed. -/
def setDsp (t : AluState σ) (dsp : DspState σ) : AluState σ := { t with dsp }

/-- Behind a helper: the accumulators are loaded from the memory it leaves. -/
def called (t : AluState σ) (dsp : DspState σ) : AluState σ :=
  { t with dsp, acc := dsp.reloadAcc, accDirty := fun _ => false }

/-- Nothing is left to store. -/
theorem called_view {s : DspState σ} (hs : s.Within) : (t.called s).view = s := by
  have ha : s.flushAccToMemory .a (s.reloadAcc .a) = s := DspState.flush_reload (hs.inWidth .a)
  have hb : s.flushAccToMemory .b (s.reloadAcc .b) = s := DspState.flush_reload (hs.inWidth .b)
  have hstore := store_view (t.called s)
  rw [← hstore]
  change (s.flushAccToMemory .a (s.reloadAcc .a)).flushAccToMemory .b (s.reloadAcc .b) = s
  rw [ha, hb]

section Aside

variable {f : DspState σ → α × DspState σ} (hf : Aside f)

include hf

theorem Valid.finalize_aside (h : t.Valid) (hu : u.Valid) (hview : u.view = (f t.view).2)
    (hsr : (u.flush false).sr = (t.flush false).sr) : u.finalize = (f t.finalize).2 := by
  rw [hu.finalize_eq, h.finalize_eq, hview, hsr, hf.commutes _ (.inl rfl)]

theorem Valid.answer_aside (h : t.Valid) : (f t.view).1 = (f t.finalize).1 := by
  rw [h.finalize_eq, hf.commutes _ (.inl rfl)]

/-- Code on the rest of the state. -/
theorem Valid.setDsp (h : t.Valid) : (t.setDsp (f t.dsp).2).Valid :=
  ⟨⟨fun d hd => (h.coherent.clean d hd).trans (hf.reloadAcc t.dsp d).symm⟩, h.packed,
    hf.within _ h.within, h.marked, h.proper, h.marker, h.needs⟩

theorem setDsp_view (t : AluState σ) : f t.view = ((f t.dsp).1, (t.setDsp (f t.dsp).2).view) := by
  rw [← store_view, ← store_view, hf.flush, hf.flush]
  rfl

theorem Valid.finalize_setDsp (h : t.Valid) :
    (t.setDsp (f t.dsp).2).finalize = (f t.finalize).2 := by
  have hsr := flush_sr_congr (t := t) (u := t.setDsp (f t.dsp).2) rfl rfl rfl
    (hf.registers (.inl rfl) t.dsp) false
  exact h.finalize_aside hf (h.setDsp hf) (congrArg Prod.snd (setDsp_view hf t).symm) hsr

/-- A helper finds the accumulators in memory and may change everything but them and SR. -/
theorem Valid.called (h : t.Valid) : (t.called (f t.view).2).Valid := by
  have hwithin := hf.within _ h.view_within
  refine ⟨⟨fun _ _ => rfl⟩, fun d => ?_, hwithin, h.marked, h.proper, h.marker, h.needs⟩
  exact (Valid.enter hwithin).packed d

theorem Valid.finalize_called (h : t.Valid) :
    (t.called (f t.view).2).finalize = (f t.finalize).2 := by
  have hsr := flush_sr_congr (t := t) (u := t.called (f t.view).2) rfl rfl rfl
    (hf.registers (.inl rfl) t.view) false
  exact h.finalize_aside hf (h.called hf) (called_view (hf.within _ h.view_within)) hsr

end Aside

end AluState

/-! The limiter. -/

namespace DspState

variable {s u : DspState σ} {d : Accumulator}

/-- The scaled value grows into its upper two bits. -/
def grows (scaling : Nat) (a2 a1 a0 : Word) : Bool :=
  let packed : BitVec 64 := ((a2.setWidth 64 &&& 0xFF) <<< 48) |||
    ((a1.setWidth 64 &&& 0xFFFFFF) <<< 24) ||| (a0.setWidth 64 &&& 0xFFFFFF)
  let growth : BitVec 64 := match scaling with
    | 1 => (packed >>> 47) ^^^ (packed >>> 46)
    | 2 => (packed >>> 45) ^^^ (packed >>> 44)
    | _ => (packed >>> 46) ^^^ (packed >>> 45)
  growth &&& 1 ≠ 0

def grown (s : DspState σ) (d : Accumulator) : Bool :=
  grows ((s.registers Reg.sr >>> Sr.s0) &&& 3).toNat (s.registers (accRegs d).1)
    (s.registers (accRegs d).2.1) (s.registers (accRegs d).2.2)

theorem jitReadAccu24_sr_eq (s : DspState σ) (d : Accumulator) :
    (s.jitReadAccu24 d).2 = s.setReg Reg.sr (if s.grown d then
      (if s.inRange d then s.registers Reg.sr else s.registers Reg.sr ||| (1#32 <<< Sr.l)) |||
        (1#32 <<< Sr.s)
      else if s.inRange d then s.registers Reg.sr
        else s.registers Reg.sr ||| (1#32 <<< Sr.l)) := by
  cases d <;> simp only [grown, grows, decide_eq_true_eq] <;> rfl

/-- SR with L where a word was cut and S where it grew. -/
theorem exists_sticky (fits grown : Bool) : ∃ w, Sticky w ∧ ∀ x : Word,
    (if grown then (if fits then x else x ||| (1#32 <<< Sr.l)) ||| (1#32 <<< Sr.s)
      else if fits then x else x ||| (1#32 <<< Sr.l)) = x ||| w := by
  have hl (k : Nat) : flag (1#32 <<< Sr.l) k = decide (k = Sr.l) := flag_single (by decide) k
  have hs (k : Nat) : flag (1#32 <<< Sr.s) k = decide (k = Sr.s) := flag_single (by decide) k
  cases grown with
  | false =>
    cases fits with
    | false => exact ⟨1#32 <<< Sr.l, fun k hk => .inl (by simpa [hl] using hk), fun _ => rfl⟩
    | true => exact ⟨0, fun k hk => absurd hk (by simp [flag]), fun x => (by simp)⟩
  | true =>
    cases fits with
    | false =>
      refine ⟨(1#32 <<< Sr.l) ||| (1#32 <<< Sr.s), fun k hk => ?_, fun x => ?_⟩
      · simpa only [flag_or, hl, hs, Bool.or_eq_true, decide_eq_true_eq] using hk
      · exact BitVec.or_assoc ..
    | true => exact ⟨1#32 <<< Sr.s, fun k hk => .inr (by simpa [hs] using hk), fun _ => rfl⟩

/-- An accumulator is limited by its parts and the scaling mode, and SR gains L and S. -/
theorem jitReadAccu24_congr (h2 : u.registers (accRegs d).1 = s.registers (accRegs d).1)
    (h1 : u.registers (accRegs d).2.1 = s.registers (accRegs d).2.1)
    (h0 : u.registers (accRegs d).2.2 = s.registers (accRegs d).2.2)
    (hs : (u.registers Reg.sr >>> Sr.s0) &&& 3 = (s.registers Reg.sr >>> Sr.s0) &&& 3) :
    (u.jitReadAccu24 d).1 = (s.jitReadAccu24 d).1 ∧ ∃ w, Sticky w ∧
      (u.jitReadAccu24 d).2 = u.setReg Reg.sr (u.registers Reg.sr ||| w) ∧
      (s.jitReadAccu24 d).2 = s.setReg Reg.sr (s.registers Reg.sr ||| w) := by
  obtain ⟨w, hw, hsr⟩ := exists_sticky (s.inRange d) (s.grown d)
  have hu : u.inRange d = s.inRange d := by
    rw [inRange, inRange, shifted, shifted, h2, h1, h0, hs]
  refine ⟨?_, w, hw, ?_, ?_⟩
  · rw [jitReadAccu24_value, jitReadAccu24_value, hu, shifted, shifted, h2, h1, h0, hs]
  · have hgrown : u.grown d = s.grown d := by rw [grown, grown, h2, h1, h0, hs]
    rw [jitReadAccu24_sr_eq, hgrown, hu]
    exact congrArg (u.setReg Reg.sr) (hsr _)
  · rw [jitReadAccu24_sr_eq]
    exact congrArg (s.setReg Reg.sr) (hsr _)

end DspState

theorem sticky_stored {x w : Word} (hx : store x = x) (hw : Sticky w) :
    store (x ||| w) = x ||| w := by
  rw [stored_iff]
  intro k hk
  rw [flag_or, flag_of_stored hx hk, Bool.false_or, Bool.eq_false_iff]
  intro h
  rcases hw k h with rfl | rfl <;> exact absurd hk (by decide)

theorem scaling_congr {x y : Word} (h0 : flag x Sr.s0 = flag y Sr.s0)
    (h1 : flag x Sr.s1 = flag y Sr.s1) : (x >>> Sr.s0) &&& 3 = (y >>> Sr.s0) &&& 3 := by
  apply BitVec.eq_of_toNat_eq
  rw [scaling_toNat, scaling_toNat, h0, h1]

namespace AluState

variable {t : AluState σ}

/-- Memory with an accumulator stored for the limiter. -/
def limiting (t : AluState σ) (d : Accumulator) : DspState σ :=
  t.dsp.flushAccToMemory d (t.acc d)

/-- Behind the limiter. -/
def limited (t : AluState σ) (d : Accumulator) : AluState σ :=
  t.setDsp ((t.limiting d).jitReadAccu24 d).2

theorem Valid.limit_answer (h : t.Valid) (d : Accumulator) :
    ((t.limiting d).jitReadAccu24 d).1 = (t.finalize.jitReadAccu24 d).1 ∧ ∃ w, Sticky w ∧
      t.limited d = t.setDsp ((t.limiting d).setReg Reg.sr (t.sr ||| w)) ∧
      (t.finalize.jitReadAccu24 d).2 =
        t.finalize.setReg Reg.sr (t.finalize.registers Reg.sr ||| w) := by
  have hpart {r : RegIdx} (hr : r ≠ Reg.sr) (hd : (t.limiting d).registers r = t.readReg r) :
      (t.limiting d).registers r = t.finalize.registers r := hd.trans (h.readReg_eq hr)
  have hsr : (t.limiting d).registers Reg.sr = t.sr := DspState.flush_registers (by decide) _
  obtain ⟨hans, w, hw, hleft, hright⟩ := DspState.jitReadAccu24_congr (u := t.limiting d)
    (s := t.finalize) (d := d) (hpart (by cases d <;> decide) (by cases d <;> rfl))
    (hpart (by cases d <;> decide) (by cases d <;> rfl))
    (hpart (by cases d <;> decide) (by cases d <;> rfl))
    (by
      rw [hsr]
      exact scaling_congr (h.mode_eq (by decide)) (h.mode_eq (by decide)))
  rw [hsr] at hleft
  exact ⟨hans, w, hw, congrArg t.setDsp hleft, hright⟩

theorem Valid.reload_limiting (h : t.Valid) {d d' : Accumulator} (hd : t.accDirty d' = false) :
    t.acc d' = (t.limiting d).reloadAcc d' := by
  by_cases heq : d' = d
  · subst heq
    rw [DspState.reloadAcc_eq, limiting, DspState.acc_flush]
    exact (h.packed d').widen.symm
  · rw [DspState.reloadAcc_eq, limiting, DspState.acc_flush_other heq, ← DspState.reloadAcc_eq]
    exact h.coherent.clean d' hd

theorem Valid.limited (h : t.Valid) (d : Accumulator) : (t.limited d).Valid := by
  obtain ⟨-, w, hw, heq, -⟩ := h.limit_answer d
  have hwithin : ((t.limiting d).setReg Reg.sr (t.sr ||| w)).Within :=
    (h.within.flush _ d).setReg (sticky_stored h.stored hw)
  rw [heq]
  refine ⟨⟨fun d' hd' => ?_⟩, h.packed, hwithin, h.marked, h.proper, h.marker, h.needs⟩
  change t.acc d' = ((t.limiting d).setReg Reg.sr (t.sr ||| w)).reloadAcc d'
  rw [DspState.reloadAcc_setReg (by decide)]
  exact h.reload_limiting hd'

theorem setDsp_limiting_view (t : AluState σ) (d : Accumulator) (x : Word) :
    (t.setDsp ((t.limiting d).setReg Reg.sr x)).view = t.view.setReg Reg.sr x := by
  have hregs : (t.setDsp ((t.limiting d).setReg Reg.sr x)).readReg =
      Function.update t.readReg Reg.sr x := by
    funext r
    by_cases hr : r = Reg.sr
    · subst hr
      rfl
    · rw [Function.update_of_ne hr]
      simp only [readReg, setDsp, DspState.setReg_other _ _ hr]
      split_ifs
      iterate 6 rfl
      refine DspState.flush_registers ?_ _
      simp only [DspState.Outside, List.mem_cons, List.not_mem_nil, or_false, not_or]
      exact ⟨‹_›, ‹_›, ‹_›, ‹_›, ‹_›, ‹_›⟩
  rw [view, hregs]
  cases d <;> rfl

/-- The limiter finds behind the point what it finds at it, and adds the same to SR. -/
theorem Valid.finalize_limited (h : t.Valid) (d : Accumulator) :
    (t.limited d).finalize = (t.finalize.jitReadAccu24 d).2 := by
  obtain ⟨-, w, hw, heq, hfin⟩ := h.limit_answer d
  have hview : (t.limited d).view = t.view.setReg Reg.sr (t.sr ||| w) := by
    rw [heq]
    exact setDsp_limiting_view t d _
  have hlimited : (t.limited d).sr = t.sr ||| w := by
    rw [heq]
    exact DspState.setReg_same ..
  have hsr : ((t.limited d).flush false).sr = (t.flush false).sr ||| w := by
    cases hf : t.pendingFlags with
    | none =>
      have hf' : (t.limited d).pendingFlags = none := hf
      rw [flush_settled hf, flush_settled hf', hlimited]
    | some flags =>
      have hf' : (t.limited d).pendingFlags = some flags := hf
      rw [flush_sr hf, flush_sr hf', hlimited]
      exact PendingFlags.materialize_sticky (h.proper flags hf) h.marker hw false t.sr
  rw [hfin, h.finalize_of (h.limited d) hview, hsr, h.flush_sr_eq]

end AluState

/-! Saturation and rounding read SR for its mode bits alone. -/

namespace DspState

variable {s u : DspState σ}

theorem test_congr {x y : Word} {k : Nat} (hk : k < 32) (h : flag x k = flag y k) :
    (x &&& (1#32 <<< k) = 0) = (y &&& (1#32 <<< k) = 0) := by
  rw [bit_test_iff x hk, bit_test_iff y hk, h]

theorem jitSaturateSm_congr
    (h : flag (u.registers Reg.sr) Sr.sm = flag (s.registers Reg.sr) Sr.sm) (v : BitVec 64) :
    u.jitSaturateSm v = s.jitSaturateSm v := by
  simp only [jitSaturateSm, test_congr (by decide) h]

theorem jitRnd56_congr
    (h : ∀ k ∈ AluState.controlBits, flag (u.registers Reg.sr) k = flag (s.registers Reg.sr) k)
    (v : BitVec 64) : u.jitRnd56 v = s.jitRnd56 v := by
  have hrm := test_congr (k := Sr.rm) (by decide) (h Sr.rm (by decide))
  have hs0 := test_congr (k := Sr.s0) (by decide) (h Sr.s0 (by decide))
  have hs1 := test_congr (k := Sr.s1) (by decide) (h Sr.s1 (by decide))
  simp only [jitRnd56, ne_eq, hrm, hs0, hs1]

end DspState

/-- The same state but for SR, and the same SR but for E, U, N and Z where they are not up to
date. -/
structure Near (now : Bool) (s u : DspState σ) : Prop where
  sr : SameSr now (s.registers Reg.sr) (u.registers Reg.sr)
  rest : s = u.setReg Reg.sr (s.registers Reg.sr)

namespace Near

variable {now b : Bool} {s u : DspState σ} {r : RegIdx}

theorem refl (s : DspState σ) : Near now s s := ⟨.refl _, (DspState.setReg_self ..).symm⟩

theorem eq (h : Near true s u) : s = u := by
  rw [h.rest, h.sr.eq]
  exact DspState.setReg_self ..

theorem weaken (h : Near b s u) (hb : now = true → b = true) : Near now s u :=
  ⟨h.sr.weaken hb, h.rest⟩

theorem registers (h : Near now s u) (hr : r ≠ Reg.sr) : s.registers r = u.registers r := by
  rw [h.rest]
  exact DspState.setReg_other _ _ hr

theorem mode (h : Near now s u) {k : Nat} (hk : k ∈ AluState.controlBits) :
    flag (s.registers Reg.sr) k = flag (u.registers Reg.sr) k := by
  have hout : k ∉ lazyFlags := by
    revert k
    decide
  exact (h.sr.settled k hout).symm

theorem reloadAcc (h : Near now s u) (d : Accumulator) : s.reloadAcc d = u.reloadAcc d := by
  rw [h.rest]
  exact DspState.reloadAcc_setReg (by decide) _

/-- SR written. -/
theorem setSr (h : Near now s u) {v w : Word} (hv : SameSr b v w) :
    Near b (s.setReg Reg.sr v) (u.setReg Reg.sr w) := by
  refine ⟨?_, ?_⟩
  · rw [DspState.setReg_same, DspState.setReg_same]
    exact hv
  · rw [DspState.setReg_same, DspState.setReg_setReg]
    exact (congrArg (·.setReg Reg.sr v) h.rest).trans (DspState.setReg_setReg ..)

/-- A change that SR has nothing to do with. -/
theorem map {f : DspState σ → DspState σ}
    (hf : ∀ s v, f (s.setReg Reg.sr v) = (f s).setReg Reg.sr v) (h : Near now s u) :
    Near now (f s) (f u) := by
  have hkeeps (s : DspState σ) : (f s).registers Reg.sr = s.registers Reg.sr := by
    have hself := hf s (s.registers Reg.sr)
    rw [DspState.setReg_self] at hself
    rw [hself]
    exact DspState.setReg_same ..
  refine ⟨?_, ?_⟩
  · rw [hkeeps, hkeeps]
    exact h.sr
  · rw [hkeeps, ← hf, ← h.rest]

theorem setReg (h : Near now s u) (hr : r ≠ Reg.sr) (w : Word) :
    Near now (s.setReg r w) (u.setReg r w) :=
  h.map (f := (·.setReg r w)) fun _ _ => DspState.setReg_comm hr.symm

theorem flush (h : Near now s u) (d : Accumulator) (v : BitVec 64) :
    Near now (s.flushAccToMemory d v) (u.flushAccToMemory d v) := by
  cases d <;> exact ((h.setReg (by decide) _).setReg (by decide) _).setReg (by decide) _

theorem aside {f : DspState σ → α × DspState σ} (hf : Aside f) (h : Near now s u) :
    (f s).1 = (f u).1 ∧ Near now (f s).2 (f u).2 := by
  refine ⟨?_, h.map (f := fun s => (f s).2) fun s v => congrArg Prod.snd (hf.commutes _ (.inl rfl) s v)⟩
  rw [h.rest, hf.commutes _ (.inl rfl)]

theorem limited (h : Near now s u) (d : Accumulator) :
    (s.jitReadAccu24 d).1 = (u.jitReadAccu24 d).1 ∧
      Near now (s.jitReadAccu24 d).2 (u.jitReadAccu24 d).2 := by
  obtain ⟨hans, w, -, hs, hu⟩ := DspState.jitReadAccu24_congr (u := s) (s := u) (d := d)
    (h.registers (by cases d <;> decide)) (h.registers (by cases d <;> decide))
    (h.registers (by cases d <;> decide))
    (scaling_congr (h.mode (by decide)) (h.mode (by decide)))
  rw [hs, hu]
  exact ⟨hans, h.setSr (h.sr.map (Contained.unchanged.or w))⟩

end Near

/-- What is pending rewrites E, U, N and Z. -/
def AluState.rewrites (t : AluState σ) : Bool := t.pendingFlags.any PendingFlags.rewritesEunz

/-- The same state behind two points of compiled code, whatever each has deferred; `now`, whether
its E, U, N and Z are up to date at the first. `same` says that both or neither have something
deferred, `marked` that the marker of a saturation may be under way. -/
structure Agrees (now same marked : Bool) (t u : AluState σ) : Prop where
  left : t.Valid
  right : u.Valid
  behind : Near (now || t.rewrites) t.finalize u.finalize
  needs : t.smNeedsSat = u.smNeedsSat
  unmarked : marked = false → t.smNeedsSat = 0
  settled : same = true → t.pendingFlags.isSome = u.pendingFlags.isSome

namespace Agrees

variable {now same marked b m : Bool} {t u : AluState σ}

theorem near (h : Agrees now same marked t u) : Near now t.finalize u.finalize :=
  h.behind.weaken fun hn => by rw [hn, Bool.true_or]

theorem eq (h : Agrees true same marked t u) : t.finalize = u.finalize := h.near.eq

/-- Once they are rewritten, E, U, N and Z are up to date. -/
theorem rewritten (h : Agrees now same marked t u) (hr : t.rewrites = true) :
    Agrees true same marked t u :=
  ⟨h.left, h.right, h.behind.weaken fun _ => by rw [hr, Bool.or_true], h.needs, h.unmarked,
    h.settled⟩

theorem weaken (h : Agrees now same marked t u) : Agrees false same marked t u :=
  ⟨h.left, h.right, h.behind.weaken fun hr => by rw [Bool.false_or] at hr; rw [hr, Bool.or_true],
    h.needs, h.unmarked, h.settled⟩

theorem mono (h : Agrees b same marked t u) (hb : now = true → b = true) :
    Agrees now same marked t u := by
  refine ⟨h.left, h.right, h.behind.weaken fun hr => ?_, h.needs, h.unmarked, h.settled⟩
  exact Bool.or_eq_true_iff.mpr ((Bool.or_eq_true_iff.mp hr).imp_left hb)

theorem known (h : Agrees now same marked t u) :
    Agrees (now || t.rewrites) same marked t u := by
  refine ⟨h.left, h.right, ?_, h.needs, h.unmarked, h.settled⟩
  rw [Bool.or_assoc, Bool.or_self]
  exact h.behind

theorem mark (h : Agrees now same marked t u) (hm : marked = true → m = true) :
    Agrees now same m t u := by
  refine ⟨h.left, h.right, h.behind, h.needs, fun hn => h.unmarked ?_, h.settled⟩
  cases marked with
  | false => rfl
  | true => exact (hm rfl).symm.trans hn

theorem acc (h : Agrees now same marked t u) (d : Accumulator) : t.acc d = u.acc d := by
  rw [h.left.acc_eq, h.right.acc_eq, h.near.reloadAcc]

theorem readReg (h : Agrees now same marked t u) {r : RegIdx} (hr : r ≠ Reg.sr) :
    t.readReg r = u.readReg r := by
  rw [h.left.readReg_eq hr, h.right.readReg_eq hr, h.near.registers hr]

theorem mode (h : Agrees now same marked t u) {k : Nat} (hk : k ∈ AluState.controlBits) :
    flag t.sr k = flag u.sr k := by
  rw [h.left.mode_eq hk, h.right.mode_eq hk, h.near.mode hk]

theorem setAcc (h : Agrees now same marked t u) (d : Accumulator) {v : BitVec 64} (hv : Packs v) :
    Agrees now same marked (t.setAcc d v) (u.setAcc d v) := by
  refine ⟨h.left.setAcc d hv, h.right.setAcc d hv, ?_, h.needs, h.unmarked, h.settled⟩
  rw [h.left.finalize_setAcc d hv, h.right.finalize_setAcc d hv]
  exact h.behind.flush d v

theorem setAccSubreg (h : Agrees now same marked t u) (d : Accumulator) {shift : Nat}
    {mask : BitVec 64} (hs : shift ≤ 56) (hm : mask.toNat < 2 ^ (56 - shift)) (w : Word) :
    Agrees now same marked (t.setAccSubreg d shift mask w) (u.setAccSubreg d shift mask w) := by
  have hpart : Packs ((w.setWidth 64 &&& mask) <<< shift) :=
    .shifted (Nat.lt_of_le_of_lt Nat.and_le_right hm) hs
  rw [AluState.setAccSubreg, AluState.setAccSubreg, h.acc]
  exact h.setAcc d ((h.right.packed d).and.or hpart)

theorem writeReg (h : Agrees now same marked t u) {r : RegIdx} (hsr : r ≠ Reg.sr) {w : Word}
    (hw : maskReg r w = w) : Agrees now same marked (t.writeReg r w) (u.writeReg r w) := by
  unfold AluState.writeReg
  split_ifs with ha0 ha1 ha2 hb0 hb1 hb2
  · exact h.setAccSubreg .a (by decide) (by decide) w
  · exact h.setAccSubreg .a (by decide) (by decide) w
  · exact h.setAccSubreg .a (by decide) (by decide) w
  · exact h.setAccSubreg .b (by decide) (by decide) w
  · exact h.setAccSubreg .b (by decide) (by decide) w
  · exact h.setAccSubreg .b (by decide) (by decide) w
  · have hr : DspState.Outside r := by
      simp only [DspState.Outside, List.mem_cons, List.not_mem_nil, or_false, not_or]
      exact ⟨ha0, ha1, ha2, hb0, hb1, hb2⟩
    refine ⟨h.left.setOuter hr hw, h.right.setOuter hr hw, ?_, h.needs, h.unmarked, h.settled⟩
    change Near (now || t.rewrites) (t.setOuter w r).finalize (u.setOuter w r).finalize
    rw [h.left.finalize_setOuter hr hsr hw, h.right.finalize_setOuter hr hsr hw]
    exact h.behind.setReg hsr w

/-- Nothing is left pending by a flush. -/
theorem flush (h : Agrees now same marked t u) :
    Agrees now true marked (t.flush false) (u.flush false) := by
  refine ⟨h.left.flush false, h.right.flush false, ?_, ?_, ?_, fun _ => ?_⟩
  · rw [h.left.finalize_flush, h.right.finalize_flush, AluState.rewrites,
      AluState.flush_pendingFlags, Option.any_none, Bool.or_false]
    exact h.near
  · rw [AluState.flush_smNeedsSat, AluState.flush_smNeedsSat, h.needs]
  · rw [AluState.flush_smNeedsSat]
    exact h.unmarked
  · rw [AluState.flush_pendingFlags, AluState.flush_pendingFlags]

/-- A flush on one side alone. -/
theorem flush_left (h : Agrees now same marked t u) :
    Agrees now false marked (t.flush false) u := by
  refine ⟨h.left.flush false, h.right, ?_, ?_, ?_, fun hs => absurd hs (by decide)⟩
  · rw [h.left.finalize_flush, AluState.rewrites, AluState.flush_pendingFlags, Option.any_none,
      Bool.or_false]
    exact h.near
  · rw [AluState.flush_smNeedsSat, h.needs]
  · rw [AluState.flush_smNeedsSat]
    exact h.unmarked

theorem flush_right (h : Agrees now same marked t u) :
    Agrees now false marked t (u.flush false) := by
  refine ⟨h.left, h.right.flush false, ?_, ?_, h.unmarked, fun hs => absurd hs (by decide)⟩
  · rw [h.right.finalize_flush]
    exact h.behind
  · rw [AluState.flush_smNeedsSat, h.needs]

theorem flush_sr (h : Agrees now same marked t u) :
    SameSr now (t.flush false).sr (u.flush false).sr := by
  rw [h.left.flush_sr_eq, h.right.flush_sr_eq]
  exact h.near.sr

section Overwrite

variable {v w : Word} (hv : SameSr now v w)

include hv

theorem overwrite (h : Agrees now same marked t u) {needs : Word} (hn : IsBit needs)
    {m : Bool} (hm : m = false → needs = 0) :
    Agrees now true m (t.overwrite needs v) (u.overwrite needs w) := by
  refine ⟨h.left.overwrite hn v, h.right.overwrite hn w, ?_, rfl, hm, fun _ => rfl⟩
  have hnear : Near now (t.finalize.setReg Reg.sr (maskReg Reg.sr v))
      (u.finalize.setReg Reg.sr (maskReg Reg.sr w)) :=
    h.near.setSr (hv.map (Contained.unchanged.and _))
  rw [h.left.finalize_overwrite hn, h.right.finalize_overwrite hn]
  exact hnear.weaken fun hr => (Bool.or_false now).symm.trans hr

theorem storeSr (h : Agrees now true marked t u) :
    Agrees now true marked (t.storeSr v) (u.storeSr w) := by
  rw [h.left.storeSr_eq, h.right.storeSr_eq, ← h.settled rfl, ← h.needs]
  refine h.overwrite hv ?_ fun hm => ?_
  · exact .ite isBit_zero h.left.needs
  · rw [h.unmarked hm, ite_self]

theorem overwriteSr (h : Agrees now same false t u) :
    Agrees now true false (t.storeSr v) (u.storeSr w) := by
  rw [h.left.storeSr_eq, h.right.storeSr_eq, ← h.needs, h.unmarked rfl, ite_self, ite_self]
  exact h.overwrite hv isBit_zero fun _ => rfl

end Overwrite

theorem setNeedsSat (h : Agrees now same marked t u) {w : Word} (hw : IsBit w) :
    Agrees now same true (t.setNeedsSat w) (u.setNeedsSat w) := by
  refine ⟨h.left.setNeedsSat hw, h.right.setNeedsSat hw, ?_, rfl, fun hm => absurd hm (by decide),
    h.settled⟩
  rw [h.left.finalize_setNeedsSat hw, h.right.finalize_setNeedsSat hw]
  exact h.behind

/-- A computation that rewrites E, U, N and Z brings them up to date. -/
theorem setPending (h : Agrees now same marked t u) {flags : PendingFlags} (hp : flags.Proper) :
    Agrees now same (!flags.consumesSmMarker && marked) (t.setPending flags)
      (u.setPending flags) := by
  have hneeds (t : AluState σ) : (t.setPending flags).smNeedsSat =
      if flags.consumesSmMarker then 0 else t.smNeedsSat := by
    unfold AluState.setPending
    split
    · rfl
    · exact AluState.flush_smNeedsSat _
  refine ⟨h.left.setPending hp, h.right.setPending hp, ?_, ?_, fun hm => ?_, fun _ => ?_⟩
  · rw [h.left.finalize_setPending hp, h.right.finalize_setPending hp, ← h.needs,
      AluState.rewrites, AluState.setPending_pendingFlags, Option.any_some]
    have hsr := h.near.sr
    refine h.near.setSr ⟨?_, fun hr => ?_⟩
    · exact PendingFlags.materialize_settled hp h.left.needs h.left.finalize_within.stored
        h.right.finalize_within.stored hsr.settled false false
    · rcases Bool.or_eq_true_iff.mp hr with hn | hr
      · rw [hsr.same hn]
      · exact PendingFlags.materialize_congr hp h.left.needs hr hsr.settled
  · rw [hneeds, hneeds, h.needs]
  · rw [hneeds]
    cases hc : flags.consumesSmMarker with
    | true => rfl
    | false =>
      rw [hc, Bool.not_false, Bool.true_and] at hm
      exact h.unmarked hm
  · rw [AluState.setPending_pendingFlags, AluState.setPending_pendingFlags]

theorem limited (h : Agrees now same marked t u) (d : Accumulator) :
    Agrees now same marked (t.limited d) (u.limited d) := by
  refine ⟨h.left.limited d, h.right.limited d, ?_, h.needs, h.unmarked, h.settled⟩
  rw [h.left.finalize_limited, h.right.finalize_limited]
  exact (h.behind.limited d).2

section Aside

variable {f : DspState σ → α × DspState σ} (hf : Aside f)

include hf

theorem setDsp (h : Agrees now same marked t u) :
    (f t.dsp).1 = (f u.dsp).1 ∧
      Agrees now same marked (t.setDsp (f t.dsp).2) (u.setDsp (f u.dsp).2) := by
  have hanswer {t : AluState σ} (ht : t.Valid) : (f t.dsp).1 = (f t.finalize).1 :=
    (congrArg Prod.fst (AluState.setDsp_view hf t)).symm.trans (ht.answer_aside hf)
  obtain ⟨heq, hnear⟩ := h.behind.aside hf
  refine ⟨?_, h.left.setDsp hf, h.right.setDsp hf, ?_, h.needs, h.unmarked, h.settled⟩
  · rw [hanswer h.left, hanswer h.right, heq]
  · rw [h.left.finalize_setDsp hf, h.right.finalize_setDsp hf]
    exact hnear

theorem called (h : Agrees now same marked t u) :
    (f t.view).1 = (f u.view).1 ∧
      Agrees now same marked (t.called (f t.view).2) (u.called (f u.view).2) := by
  obtain ⟨heq, hnear⟩ := h.behind.aside hf
  refine ⟨?_, h.left.called hf, h.right.called hf, ?_, h.needs, h.unmarked, h.settled⟩
  · rw [h.left.answer_aside hf, h.right.answer_aside hf, heq]
  · rw [h.left.finalize_called hf, h.right.finalize_called hf]
    exact hnear

end Aside

end Agrees

theorem couples_saturate {now b m : Bool} (v : BitVec 64) :
    Couples (Agrees (σ := σ) now b m) (Alu.emitSaturateSm v) Packs (Agrees now b true) := by
  intro t u h
  have heq : t.dsp.jitSaturateSm v = u.dsp.jitSaturateSm v :=
    DspState.jitSaturateSm_congr (h.mode (by decide)) v
  rw [Alu.run_emitSaturateSm, Alu.run_emitSaturateSm, heq]
  exact ⟨rfl, packs_mask56 _, h.setNeedsSat (isBit_extract _ _)⟩

/-- The operations of code do to one of two such points what they do to the other. -/
theorem rules_agrees (now : Bool) : Alu.Rules now (Agrees (σ := σ) now) where
  settled h := ⟨h.left, h.right, h.behind, h.needs, h.unmarked, fun _ => h.settled rfl⟩
  loadAcc d _ _ h := ⟨h.acc d, h.left.packed d, h⟩
  storeAcc d _ hv _ _ h := ⟨rfl, trivial, h.setAcc d hv⟩
  loadOther hr t u h := by
    rw [Alu.loadReg, if_neg hr]
    exact ⟨h.readReg hr, trivial, h⟩
  storeOther v hr t u h := by
    refine ⟨rfl, trivial, ?_⟩
    change Agrees _ _ _ (if _ then t.storeSr v else _) (if _ then u.storeSr v else _)
    rw [if_neg hr, if_neg hr]
    exact h.writeReg hr (maskReg_maskReg ..)
  loadSr _ _ h := ⟨h.flush_sr, h.flush⟩
  storeSr hv _ _ h := ⟨rfl, h.storeSr hv⟩
  overwriteSr v _ _ h := ⟨rfl, trivial, h.overwriteSr (.refl v)⟩
  saturate v := couples_saturate v
  saturateRnd v := by
    refine (couples_saturate v).bind fun sat hsat t u h => ⟨?_, .ite hsat.and hsat, h⟩
    exact congrArg (fun n : Word => if n ≠ 0 then sat &&& mask56 (~~~0xFFFFFF) else sat) h.needs
  round v t u h := by
    have heq : t.dsp.jitRnd56 v = u.dsp.jitRnd56 v :=
      DspState.jitRnd56_congr (fun _ hk => h.mode hk) v
    exact ⟨heq, trivial, h⟩
  setPending hp _ _ h := ⟨rfl, trivial, h.setPending hp⟩
  discard hv t u h := by
    refine ⟨rfl, ?_⟩
    change Agrees _ true false (t.overwrite 0 _) (u.overwrite 0 _)
    exact h.overwrite hv isBit_zero fun _ => rfl
  limit d t u h := by
    obtain ⟨hl, -⟩ := h.left.limit_answer d
    obtain ⟨hr, -⟩ := h.right.limit_answer d
    have heq : ((t.limiting d).jitReadAccu24 d).1 = ((u.limiting d).jitReadAccu24 d).1 := by
      rw [hl, hr, (h.near.limited d).1]
    refine ⟨?_, ?_, h.limited d⟩
    · exact congrArg (fun raw : Word => (mask24 raw, ushr raw 24)) heq
    · exact Nat.lt_of_le_of_lt Nat.and_le_right (by decide)
  outer hf _ _ h := by
    obtain ⟨hans, hagrees⟩ := h.setDsp hf
    exact ⟨hans, trivial, hagrees⟩
  helper hf t u h := by
    obtain ⟨hans, hagrees⟩ := h.called hf
    rw [← h.left.spill, ← h.right.spill] at hans hagrees
    exact ⟨hans, trivial, hagrees⟩

end Dsp56300
