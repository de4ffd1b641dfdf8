import Dsp56300.Emu.AluEffects

/-! Saturation mode: the clamped value, its marker, and the condition codes that follow lazily. -/

namespace Dsp56300

open Emitter Lib.Bits Lib.Words SrUpdate

variable {σ : Type}

/-! The clamp. -/

/-- The nearest value between the negative rail and `top`. -/
def clampTo (top z : Int) : Int := max (-2 ^ 47) (min top z)

/-- The positive rail; rounding instructions have theirs on the rounded grid. -/
def positiveRail (rounds : Bool) : Int := if rounds then 2 ^ 47 - 2 ^ 24 else 2 ^ 47 - 1

theorem and_one_shifted (x : BitVec 64) {k : Nat} (hk : k < 64) :
    (x.sshiftRight k) &&& 1 = bit 64 (x.getLsbD k) := by
  have hlt : k + 0 < 64 := hk
  rw [show (1 : BitVec 64) = 1#64 from rfl, and_one, BitVec.getLsbD_sshiftRight]
  simp [hk]

/-- Bits 55, 48 and 47 agree where a value of 50 bits fits 48. -/
theorem fits_iff_agree {v : BitVec 56} (hv : Fits 50 v.toInt) :
    Fits 48 v.toInt ↔ ((v.getLsbD 55 ^^ v.getLsbD 48) || (v.getLsbD 48 ^^ v.getLsbD 47)) = false := by
  have hlt := v.isLt
  obtain ⟨hlo, hhi⟩ := hv
  have hbit (k : Nat) : v.getLsbD k = decide (v.toNat / 2 ^ k % 2 = 1) := by
    rw [BitVec.getLsbD, Nat.testBit_eq_decide_div_mod_eq]
  rw [BitVec.toInt_eq_toNat_cond] at hlo hhi ⊢
  simp only [hbit, Bool.or_eq_false_iff, bne_eq_false_iff_eq, decide_eq_decide, Fits]
  split at hlo <;> omega

/-- What saturation mode makes of a value of 50 bits, and whether it changed it. -/
theorem jitSaturateSm_on {s : DspState σ} (hsm : flag (s.registers Reg.sr) Sr.sm = true)
    {v : BitVec 56} (hv : Fits 50 v.toInt) :
    mask56 (s.jitSaturateSm (v.setWidth 64)) =
        (BitVec.ofInt 56 (clampTo (positiveRail false) v.toInt)).setWidth 64 ∧
      extractBitI64 (s.jitSaturateSm (v.setWidth 64)) 56 =
        bit 32 (!decide (Fits 48 v.toInt)) := by
  have hon : ¬ s.registers Reg.sr &&& (1#32 <<< Sr.sm) = 0 := by
    rw [bit_test_iff _ (by decide), hsm]
    decide
  have hlow {k : Nat} (hk : k < 64) : (v.setWidth 64).getLsbD k = v.getLsbD k := by
    simp [hk]
  have hmsb : v.getLsbD 55 = decide (v.toInt < 0) := by
    rw [← BitVec.msb_eq_toInt, BitVec.msb_eq_getLsbD_last]
  have hzero : (0 : BitVec 64) = 0#64 := rfl
  rw [DspState.jitSaturateSm, if_neg hon, and_one_shifted _ (by decide),
    and_one_shifted _ (by decide), and_one_shifted _ (by decide), hlow (by decide),
    hlow (by decide), hlow (by decide)]
  simp only [bit_xor, bit_or, hzero, ne_eq, bit_eq_zero (by decide : 0 < 64), ← fits_iff_agree hv]
  by_cases hfits : Fits 48 v.toInt
  · have hsame : clampTo (positiveRail false) v.toInt = v.toInt := by
      rw [clampTo, positiveRail, if_neg Bool.false_ne_true]
      obtain ⟨hlo, hhi⟩ := hfits
      omega
    have htop : extractBitI64 (v.setWidth 64) 56 = 0#32 := by
      rw [extractBitI64_eq (k := 56) _ rfl (by decide)]
      simp
    rw [if_pos hfits, hsame, BitVec.ofInt_toInt, mask56_widen, htop, decide_eq_true hfits]
    exact ⟨rfl, (bit_false ..).symm⟩
  · rw [if_neg hfits, decide_eq_false hfits, hmsb]
    by_cases hneg : v.toInt < 0
    · have hrail : clampTo (positiveRail false) v.toInt = -2 ^ 47 := by
        rw [clampTo, positiveRail, if_neg Bool.false_ne_true]
        simp only [Fits] at hfits
        omega
      rw [decide_eq_true hneg, hrail]
      exact ⟨rfl, rfl⟩
    · have hrail : clampTo (positiveRail false) v.toInt = 2 ^ 47 - 1 := by
        rw [clampTo, positiveRail, if_neg Bool.false_ne_true]
        simp only [Fits] at hfits
        omega
      rw [decide_eq_false hneg, hrail]
      exact ⟨rfl, rfl⟩

namespace Alu

variable {t : AluState σ} {v : BitVec 56}

/-- A value of 50 bits, clamped to the rail of its instruction, with the marker. -/
def clamped (rounds : Bool) (v : BitVec 56) : BitVec 64 :=
  (BitVec.ofInt 56 (clampTo (positiveRail rounds) v.toInt)).setWidth 64

theorem run_saturate_on (hsm : flag t.sr Sr.sm = true) (hv : Fits 50 v.toInt) :
    (emitSaturateSm (v.setWidth 64)).run t =
      (clamped false v, t.setNeedsSat (bit 32 (!decide (Fits 48 v.toInt)))) := by
  obtain ⟨hvalue, hmarker⟩ := jitSaturateSm_on (s := t.dsp) hsm hv
  rw [run_emitSaturateSm, hvalue, hmarker, clamped]

@[simp] theorem value_saturate_on (hsm : flag t.sr Sr.sm = true) (hv : Fits 50 v.toInt) :
    value (emitSaturateSm (v.setWidth 64)) t = clamped false v :=
  congrArg Prod.fst (run_saturate_on hsm hv)

@[simp] theorem after_saturate_on (hsm : flag t.sr Sr.sm = true) (hv : Fits 50 v.toInt) :
    after (emitSaturateSm (v.setWidth 64)) t =
      t.setNeedsSat (bit 32 (!decide (Fits 48 v.toInt))) :=
  congrArg Prod.snd (run_saturate_on hsm hv)

/-- The rounding instructions saturate a multiple of their unit. -/
theorem run_saturateRnd_on (hsm : flag t.sr Sr.sm = true) (hv : Fits 50 v.toInt)
    (hunit : v.toInt % 2 ^ 24 = 0) :
    (emitSaturateSmRnd (v.setWidth 64)).run t =
      (clamped true v, t.setNeedsSat (bit 32 (!decide (Fits 48 v.toInt)))) := by
  have hrun : (emitSaturateSmRnd (v.setWidth 64)).run t =
      (if (after (emitSaturateSm (v.setWidth 64)) t).smNeedsSat ≠ 0 then
        value (emitSaturateSm (v.setWidth 64)) t &&& mask56 (~~~0xFFFFFF)
        else value (emitSaturateSm (v.setWidth 64)) t,
      after (emitSaturateSm (v.setWidth 64)) t) := rfl
  rw [hrun, value_saturate_on hsm hv, after_saturate_on hsm hv, AluState.setNeedsSat_smNeedsSat]
  refine Prod.ext ?_ rfl
  simp only [clamped]
  by_cases hfits : Fits 48 v.toInt
  · have hsame (rounds : Bool) : clampTo (positiveRail rounds) v.toInt = v.toInt := by
      obtain ⟨hlo, hhi⟩ := hfits
      rw [clampTo, positiveRail]
      split <;> omega
    rw [decide_eq_true hfits, hsame, hsame]
    rfl
  · have hout : v.toInt < -2 ^ 47 ∨ 2 ^ 47 ≤ v.toInt := by
      simp only [Fits] at hfits
      omega
    by_cases hneg : v.toInt < 0
    · have hrail (rounds : Bool) : clampTo (positiveRail rounds) v.toInt = -2 ^ 47 := by
        rw [clampTo, positiveRail]
        split <;> omega
      rw [hrail, hrail]
      split <;> rfl
    · have hfull : clampTo (positiveRail false) v.toInt = 2 ^ 47 - 1 := by
        rw [clampTo, positiveRail, if_neg Bool.false_ne_true]
        omega
      have hgrid : clampTo (positiveRail true) v.toInt = 2 ^ 47 - 2 ^ 24 := by
        rw [clampTo, positiveRail, if_pos rfl]
        omega
      rw [decide_eq_false hfits, hfull, hgrid]
      rfl

@[simp] theorem value_saturateRnd_on (hsm : flag t.sr Sr.sm = true) (hv : Fits 50 v.toInt)
    (hunit : v.toInt % 2 ^ 24 = 0) :
    value (emitSaturateSmRnd (v.setWidth 64)) t = clamped true v :=
  congrArg Prod.fst (run_saturateRnd_on hsm hv hunit)

@[simp] theorem after_saturateRnd_on (hsm : flag t.sr Sr.sm = true) (hv : Fits 50 v.toInt)
    (hunit : v.toInt % 2 ^ 24 = 0) :
    after (emitSaturateSmRnd (v.setWidth 64)) t =
      t.setNeedsSat (bit 32 (!decide (Fits 48 v.toInt))) :=
  congrArg Prod.snd (run_saturateRnd_on hsm hv hunit)

end Alu

/-! What a deferred computation does to the bits that are read later. -/

/-- The bits a computation may leave out where they are rewritten anyway. -/
def lazyFlags : List Nat := [Sr.e, Sr.u, Sr.n, Sr.z]

/-- V given, and L collecting it. -/
def vlFlags (sr : Word) (ov : Bool) (k : Nat) : Bool :=
  if k = Sr.v then ov else if k = Sr.l then flag sr Sr.l || ov
  else flag sr k && flag (regMasks Reg.sr) k

/-- Two words of SR that may differ in the lazy bits. -/
def SameSettled (sr sr' : Word) : Prop := ∀ k, k ∉ lazyFlags → flag sr' k = flag sr k

theorem flag_orVlSr (b : Bool) (sr : Word) (k : Nat) :
    flag (orVlSr (bit 32 b) sr) k =
      ((flag sr k || (decide (k = Sr.v) || decide (k = Sr.l)) && b) &&
        flag (regMasks Reg.sr) k) := by
  rw [orVlSr, flag_store, flag_orVl]

theorem flag_updateNz_settled (acc : BitVec 64) (e : Bool) (sr : Word) {k : Nat}
    (hk : k ∉ lazyFlags) : (flag (updateNzMaybe acc e sr) k && flag (regMasks Reg.sr) k) =
      (flag sr k && flag (regMasks Reg.sr) k) := by
  simp only [lazyFlags, List.mem_cons, List.not_mem_nil, or_false, not_or] at hk
  obtain ⟨he, hu, hn, hz⟩ := hk
  cases e
  · rw [flag_updateNzMaybe, flag_jitUpdateNz, if_neg he, if_neg hu, if_neg hn, if_neg hz,
      Bool.and_assoc, Bool.and_self]
  · rfl

/-- A computation with the marker of a clamping: V is the overflow or the marker. -/
structure Emitter.PendingFlags.Raises (flags : PendingFlags) (sr : Word) (ov : Bool)
    (carry : Option Bool) : Prop where
  rewrites : flags.rewritesEunz = true
  consumes : flags.consumesSmMarker = true
  bits : ∀ sr', SameSettled sr sr' → ∀ (b e : Bool) (k : Nat), k ∉ lazyFlags →
    flag (flags.materialize e (bit 32 b) sr') k =
      if k = Sr.c then carry.getD (flag sr Sr.c) else vlFlags sr (ov || b) k

section Raises

variable {sr : Word} {ov : Bool} {carry : Option Bool}

/-- Words that agree with SR on what it has of the bits read later. -/
def AgreesSettled (sr x : Word) : Prop :=
  ∀ k, k ∉ lazyFlags → flag (regMasks Reg.sr) k = true → flag x k = flag sr k

theorem agreesSettled_updateNz {sr' : Word} (h : SameSettled sr sr') (v : BitVec 64) (e : Bool) :
    AgreesSettled sr (updateNzMaybe v e sr') := by
  intro k hk hmask
  have heq := flag_updateNz_settled v e sr' hk
  rw [hmask, Bool.and_true, Bool.and_true] at heq
  rw [heq, h k hk]

/-- Every kind that consumes the marker updates E, U, N and Z, then what is its own, then V and L
by the marker. -/
theorem raises_of {flags : PendingFlags} (hrewrites : flags.rewritesEunz = true)
    (hconsumes : flags.consumesSmMarker = true) {v : BitVec 64} {own : Word → Word}
    (hmaterialize : ∀ e needs x,
      flags.materialize e needs x = orVlSr needs (own (updateNzMaybe v e x)))
    (hown : ∀ x, AgreesSettled sr x → ∀ k, k ∉ lazyFlags → flag (regMasks Reg.sr) k = true →
      flag (own x) k = if k = Sr.c then carry.getD (flag sr Sr.c) else vlFlags sr ov k) :
    flags.Raises sr ov carry := by
  refine ⟨hrewrites, hconsumes, fun sr' hsame b e k hk => ?_⟩
  rw [hmaterialize, flag_orVlSr]
  cases hmask : flag (regMasks Reg.sr) k with
  | false =>
    have hc : k ≠ Sr.c := by rintro rfl; simp +decide at hmask
    have hv : k ≠ Sr.v := by rintro rfl; simp +decide at hmask
    have hl : k ≠ Sr.l := by rintro rfl; simp +decide at hmask
    rw [Bool.and_false, if_neg hc, vlFlags, if_neg hv, if_neg hl, hmask, Bool.and_false]
  | true =>
    rw [hown _ (agreesSettled_updateNz hsame v e) k hk hmask, Bool.and_true]
    by_cases hc : k = Sr.c
    · simp +decide [hc]
    · rw [if_neg hc, if_neg hc, vlFlags, vlFlags, hmask]
      by_cases hv : k = Sr.v
      · simp [hv]
      · by_cases hl : k = Sr.l
        · simp [hl, Bool.or_assoc]
        · simp [hv, hl]

variable (v source dest raw : BitVec 64)

theorem raises_aluAddSub (isSub : Bool) :
    (PendingFlags.aluAddSub v source dest raw isSub).Raises sr
      (overflows (source.setWidth 56) (dest.setWidth 56) (raw.setWidth 56) isSub)
      (some (raw.getLsbD 56)) := by
  refine @raises_of sr _ _ _ rfl rfl v (updateVcl source dest raw isSub) (fun _ _ _ => rfl)
    fun x hx k hk hmask => ?_
  rw [flag_updateVcl, vlFlags, hx Sr.l (by decide) (by decide), hx k hk hmask]
  rfl

/-- The kinds that give V and keep C. -/
theorem raises_vl {b : Bool} {flags : PendingFlags} (hrewrites : flags.rewritesEunz = true)
    (hconsumes : flags.consumesSmMarker = true) {own : Word → Word}
    (hmaterialize : ∀ e needs x,
      flags.materialize e needs x = orVlSr needs (own (updateNzMaybe v e x)))
    (hown : ∀ x k, flag (own x) k = vlFlags x b k) : flags.Raises sr b none := by
  refine raises_of hrewrites hconsumes hmaterialize fun x hx k hk hmask => ?_
  rw [hown, vlFlags, vlFlags, hx Sr.l (by decide) (by decide), hx k hk hmask, hmask]
  by_cases hc : k = Sr.c
  · rw [if_pos hc, hc]
    exact Bool.and_true _
  · rw [if_neg hc]

theorem raises_nzClearVSm : (PendingFlags.nzClearVSm v).Raises sr false none := by
  refine @raises_vl sr v _ _ rfl rfl clearVFlag (fun _ _ _ => rfl) fun x k => ?_
  rw [flag_clearVFlag, vlFlags]
  by_cases hl : k = Sr.l
  · rw [hl]
    simp +decide
  · rw [if_neg hl]

theorem raises_nzVlSm (b : Bool) : (PendingFlags.nzVlSm v (bit 32 b)).Raises sr b none :=
  raises_vl v rfl rfl (fun _ _ _ => rfl) (flag_setVlOverflow b)

theorem raises_macVlSm (v p a : BitVec 56) :
    (PendingFlags.macVlSm (v.setWidth 64) (p.setWidth 64) (a.setWidth 64)).Raises sr
      (overflows p a v false) none := by
  refine raises_vl (v.setWidth 64) rfl rfl (fun e needs x => ?_) (flag_setVlOverflow _)
  have h55 (x : BitVec 56) : extractBitI64 (x.setWidth 64) 55 = bit 32 x.msb := extract_55 x
  rw [PendingFlags.materialize, macSetVl, h55, h55, h55, bit_xor, bit_xor, bit_and]
  rfl

theorem raises_nzSm (hv : flag sr Sr.v = false) : (PendingFlags.nzSm v).Raises sr false none := by
  refine @raises_of sr _ _ _ rfl rfl v id (fun _ _ _ => rfl) fun x hx k hk hmask => ?_
  rw [id, vlFlags, hx k hk hmask, hmask]
  by_cases hc : k = Sr.c
  · rw [if_pos hc, hc]
    rfl
  · by_cases hk' : k = Sr.v
    · rw [if_neg hc, if_pos hk', hk', hv]
    · by_cases hl : k = Sr.l
      · rw [if_neg hc, if_neg hk', if_pos hl, hl, Bool.or_false]
      · rw [if_neg hc, if_neg hk', if_neg hl, Bool.and_true]

theorem raises_addlSubl (isSub : Bool) :
    (PendingFlags.addlSubl v source dest raw isSub (bit 32 false)).Raises sr
      (overflows (source.setWidth 56) (dest.setWidth 56) (raw.setWidth 56) isSub)
      (some (raw.getLsbD 56)) := by
  refine @raises_of sr _ _ _ rfl rfl v
    (fun x => orVlSr (bit 32 false) (updateVcl source dest raw isSub x)) (fun _ _ _ => rfl) fun x hx k hk hmask => ?_
  rw [flag_orVlSr, hmask, Bool.and_false, Bool.or_false, Bool.and_true, flag_updateVcl, vlFlags,
    hx Sr.l (by decide) (by decide), hx k hk hmask]
  rfl

end Raises

/-! A point of compiled code, and the end of an instruction there. -/

namespace AluState

/-- What the saturation unit and the rounding read of SR. -/
def controlBits : List Nat := [Sr.sm, Sr.s0, Sr.s1, Sr.rm]

/-- What is deferred comes out the same whenever it is flushed, and a marker set later does not
reach it. -/
structure Settles (t : AluState σ) : Prop where
  coherent : t.Coherent
  packed : ∀ d, t.acc d = ((t.acc d).setWidth 56).setWidth 64
  settled : ∀ m e, SameSettled (t.flush false).sr ((t.setNeedsSat m).flush e).sr
  control : ∀ k ∈ controlBits, flag (t.flush false).sr k = flag t.sr k

theorem Settles.enter (s : DspState σ) : (enter s).Settles :=
  ⟨Coherent.enter s, fun d => by rw [enter_acc, DspState.reloadAcc_eq, widen_narrow],
    fun _ _ _ _ => rfl, fun _ _ => rfl⟩

variable {t : AluState σ}

theorem Settles.of_none (hpending : t.pendingFlags = none) (hcoherent : t.Coherent)
    (hpacked : ∀ d, t.acc d = ((t.acc d).setWidth 56).setWidth 64) : t.Settles := by
  refine ⟨hcoherent, hpacked, fun m e k _ => ?_, fun k _ => ?_⟩
  · rw [flush_settled hpending, flush_settled (t := t.setNeedsSat m) hpending]
    rfl
  · rw [flush_settled hpending]

theorem flush_pendingFlags (e : Bool) : (t.flush e).pendingFlags = none := by
  rw [flush]
  split <;> first | assumption | rfl

theorem Settles.flush (h : t.Settles) : (t.flush false).Settles := by
  refine .of_none (flush_pendingFlags false) (h.coherent.flush false) fun d => ?_
  rw [flush_acc]
  exact h.packed d

/-- The end of an instruction: the marker, the result, the deferred flags. -/
def finish (t : AluState σ) (b : Bool) (d : Accumulator) (v : BitVec 64) (flags : PendingFlags) :
    AluState σ :=
  ((t.setNeedsSat (bit 32 b)).setAcc d v).setPending flags

variable {b : Bool} {d : Accumulator} {v : BitVec 64} {flags : PendingFlags} {ov : Bool}
  {carry : Option Bool}

theorem finish_eq (hr : flags.Raises (t.flush false).sr ov carry) : t.finish b d v flags =
    { ((t.setNeedsSat (bit 32 b)).setAcc d v).flush true with
      pendingFlags := some flags
      pendingSmMarker := some (bit 32 b)
      smNeedsSat := 0 } := by
  have hneeds : (((t.setNeedsSat (bit 32 b)).setAcc d v).flush true).smNeedsSat = bit 32 b := by
    rw [flush]
    split <;> rfl
  rw [finish, setPending, hr.rewrites]
  simp only [hr.consumes, if_true, hneeds]

theorem flush_setAcc (e : Bool) : (t.setAcc d v).flush e = (t.flush e).setAcc d v := by
  rw [flush, flush, setAcc_pendingFlags]
  split <;> rfl

theorem flush_setNeedsSat (e : Bool) {m : Word} :
    ((t.setNeedsSat m).flush e).setNeedsSat m = (t.setNeedsSat m).flush e := by
  rw [flush]
  split <;> rfl

theorem finish_sr (hr : flags.Raises (t.flush false).sr ov carry) :
    (t.finish b d v flags).sr = ((t.setNeedsSat (bit 32 b)).flush true).sr := by
  rw [finish_eq hr, flush_setAcc]
  rfl

theorem flush_finish_sr (hr : flags.Raises (t.flush false).sr ov carry) (m : Word) (e : Bool) :
    (((t.finish b d v flags).setNeedsSat m).flush e).sr =
      flags.materialize e (bit 32 b) (t.finish b d v flags).sr := by
  rw [finish_eq hr]
  exact setSr_sr ..

theorem finish_acc (hr : flags.Raises (t.flush false).sr ov carry) :
    (t.finish b d v flags).acc = Function.update t.acc d v := by
  rw [finish_eq hr]
  exact flush_acc true

theorem finish_registers (hr : flags.Raises (t.flush false).sr ov carry) {r : RegIdx}
    (hsr : r ≠ Reg.sr) : (t.finish b d v flags).dsp.registers r = t.dsp.registers r := by
  rw [finish_eq hr]
  exact flush_registers hsr true

/-- The bits of SR once the instruction's flags are materialized. -/
theorem Settles.flag_finish (h : t.Settles) (hr : flags.Raises (t.flush false).sr ov carry)
    (m : Word) (e : Bool) {k : Nat} (hk : k ∉ lazyFlags) :
    flag (((t.finish b d v flags).setNeedsSat m).flush e).sr k =
      if k = Sr.c then carry.getD (flag (t.flush false).sr Sr.c)
      else vlFlags (t.flush false).sr (ov || b) k := by
  rw [flush_finish_sr hr, finish_sr hr]
  exact hr.bits _ (h.settled _ _) b e k hk

theorem Settles.finish (h : t.Settles) (hr : flags.Raises (t.flush false).sr ov carry)
    (v : BitVec 56) : (t.finish b d (v.setWidth 64) flags).Settles := by
  have hflush (u : AluState σ) : u.flush false = (u.setNeedsSat u.smNeedsSat).flush false := rfl
  refine ⟨?_, fun d' => ?_, fun m e k hk => ?_, fun k hk => ?_⟩
  · rw [finish_eq hr]
    exact ⟨(((h.coherent.setNeedsSat _).setAcc d _).flush true).clean⟩
  · rw [finish_acc hr]
    by_cases hd : d' = d
    · subst hd
      rw [Function.update_self, widen_narrow]
    · rw [Function.update_of_ne hd]
      exact h.packed d'
  · rw [hflush, h.flag_finish hr _ _ hk, h.flag_finish hr _ _ hk]
  · have hout : k ∉ lazyFlags ∧ k ≠ Sr.c ∧ k ≠ Sr.v ∧ k ≠ Sr.l ∧
        flag (regMasks Reg.sr) k = true := by
      revert k
      decide
    obtain ⟨hlazy, hc, hv, hl, hmask⟩ := hout
    rw [hflush, h.flag_finish hr _ _ hlazy, if_neg hc, vlFlags, if_neg hv, if_neg hl, hmask,
      Bool.and_true, finish_sr hr]
    exact (h.settled _ _ k hlazy).symm

end AluState

end Dsp56300
