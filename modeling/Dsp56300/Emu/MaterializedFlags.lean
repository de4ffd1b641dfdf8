import Dsp56300.Emu.AccValues

/-! What each deferred computation leaves in SR. -/

namespace Dsp56300

open Emitter Lib.Bits Lib.Words SrUpdate

/-! E, U, N and Z follow a value, with V given and L collecting it. -/

/-- The bits of SR after an arithmetic result. -/
def resultFlags (sr : Word) (v : BitVec 56) (ov : Bool) (k : Nat) : Bool :=
  if k = Sr.e then extended sr v else if k = Sr.u then unnormalized sr v
  else if k = Sr.n then v.msb else if k = Sr.z then decide (v = 0)
  else if k = Sr.v then ov else if k = Sr.l then flag sr Sr.l || ov
  else flag sr k && flag (regMasks Reg.sr) k

theorem resultFlags_masked (sr : Word) (v : BitVec 56) (ov : Bool) (k : Nat) :
    (resultFlags sr v ov k && flag (regMasks Reg.sr) k) = resultFlags sr v ov k := by
  rw [resultFlags, flag_regMasks]
  split_ifs with he hu hn hz hv hl
  all_goals simp_all +decide

theorem flag_setVl (v : BitVec 56) (ov : Bool) (sr : Word) (k : Nat) :
    flag (setVlOverflow (bit 32 ov) (updateNzMaybe (v.setWidth 64) false sr)) k =
      resultFlags sr v ov k := by
  rw [flag_setVlOverflow, flag_updateNzMaybe, flag_updateNzMaybe, flag_jitUpdateNz,
    flag_jitUpdateNz, widen_narrow, resultFlags]
  split_ifs with hv hl he hu hn hz
  all_goals simp_all +decide

theorem flag_nzVlSm (v : BitVec 56) (ov : Bool) (sr : Word) (k : Nat) :
    flag ((PendingFlags.nzVlSm (v.setWidth 64) (bit 32 ov)).materialize false 0 sr) k =
      resultFlags sr v ov k := by
  have h0 : (0 : Word) = 0#32 := rfl
  rw [PendingFlags.materialize, h0, flag_orVlSr_zero, flag_setVl, resultFlags_masked]

theorem flag_dmacVl (v p a : BitVec 56) (needs sr : Word) (k : Nat) :
    flag ((PendingFlags.dmacVl (v.setWidth 64) (p.setWidth 64) (a.setWidth 64)).materialize false
      needs sr) k = resultFlags sr v (overflows p a v false) k := by
  have h55 (x : BitVec 56) : extractBitI64 (x.setWidth 64) 55 = bit 32 x.msb := extract_55 x
  have hover : overflows p a v false = ((p.msb ^^ v.msb) && (a.msb ^^ v.msb)) := rfl
  rw [PendingFlags.materialize, macSetVl, h55, h55, h55, bit_xor, bit_xor, bit_and, ← hover,
    flag_setVl]

theorem flag_nzClearV (v : BitVec 56) (needs sr : Word) (k : Nat) :
    flag ((PendingFlags.nzClearV (v.setWidth 64)).materialize false needs sr) k =
      resultFlags sr v false k := by
  rw [PendingFlags.materialize, flag_clearVFlag, flag_updateNzMaybe, flag_jitUpdateNz, widen_narrow,
    resultFlags]
  split_ifs with hv hl he hu hn hz
  all_goals simp_all +decide

theorem flag_nzClearVSm (v : BitVec 56) (sr : Word) (k : Nat) :
    flag ((PendingFlags.nzClearVSm (v.setWidth 64)).materialize false 0 sr) k =
      resultFlags sr v false k := by
  have h0 : (0 : Word) = 0#32 := rfl
  have hclear := flag_nzClearV v 0 sr k
  rw [PendingFlags.materialize] at hclear
  rw [PendingFlags.materialize, h0, flag_orVlSr_zero, hclear, resultFlags_masked]

/-! C, V and L of a sum or difference. -/

section AddSub

variable (isSub : Bool) (x y : BitVec 56) (c : Bool)

/-- The bits of SR after a sum or difference. -/
def addSubFlags (sr : Word) (k : Nat) : Bool :=
  if k = Sr.c then carryOut isSub x y c
  else resultFlags sr (addSub isSub x y c) (!decide (Fits 56 (exactSum isSub x y c))) k

theorem mask56_addSub : mask56 (addSub isSub (x.setWidth 64) (y.setWidth 64) c) =
    (addSub isSub x y c).setWidth 64 := by
  rw [mask56_eq, setWidth_addSub isSub x y c (by decide) (by decide)]

theorem flag_addSub (sr : Word) (k : Nat) :
    flag (updateVcl (y.setWidth 64) (x.setWidth 64)
      (addSub isSub (x.setWidth 64) (y.setWidth 64) c) isSub
      (updateNzMaybe ((addSub isSub x y c).setWidth 64) false sr)) k =
      addSubFlags isSub x y c sr k := by
  have hover : overflows y x (addSub isSub x y c) isSub =
      !decide (Fits 56 (exactSum isSub x y c)) := addSub_overflow isSub x y c (by decide)
  rw [flag_updateVcl, getLsbD_addSub isSub x y c (by decide), widen_narrow, widen_narrow,
    setWidth_addSub isSub x y c (by decide) (by decide), hover, flag_updateNzMaybe,
    flag_updateNzMaybe, flag_jitUpdateNz, flag_jitUpdateNz, widen_narrow, addSubFlags, resultFlags]
  split_ifs with hc hv hl he hu hn hz
  all_goals simp_all +decide

theorem flag_nzVclSub (needs sr : Word) (k : Nat) :
    flag ((PendingFlags.nzVclSub ((addSub true x y c).setWidth 64) (y.setWidth 64) (x.setWidth 64)
      (addSub true (x.setWidth 64) (y.setWidth 64) c)).materialize false needs sr) k =
      addSubFlags true x y c sr k := by
  rw [PendingFlags.materialize, flag_addSub]

theorem flag_aluAddSub (sr : Word) {k : Nat} (hk : flag (regMasks Reg.sr) k = true) :
    flag ((PendingFlags.aluAddSub ((addSub isSub x y c).setWidth 64) (y.setWidth 64)
      (x.setWidth 64) (addSub isSub (x.setWidth 64) (y.setWidth 64) c) isSub).materialize false 0
      sr) k = addSubFlags isSub x y c sr k := by
  have h0 : (0 : Word) = 0#32 := rfl
  rw [PendingFlags.materialize, h0, flag_orVlSr_zero, flag_addSub, hk, Bool.and_true]

end AddSub

/-! N and Z follow a word. -/

theorem widen24_eq_zero (m : BitVec 24) : m.setWidth 32 = 0#32 ↔ m = 0 :=
  setWidth_eq_zero_iff (by decide) m

/-- Bit 23 of a word that has no more. -/
theorem sign24 (m : BitVec 24) : (m.setWidth 32 >>> 23) &&& 1 = bit 32 m.msb := by
  rw [show (1 : Word) = 1#32 from rfl, and_one]
  simp [BitVec.msb_eq_getLsbD_last]

theorem flag_logical (m : BitVec 24) (needs sr : Word) (k : Nat) :
    flag ((PendingFlags.logical (m.setWidth 32)).materialize false needs sr) k =
      if k = Sr.n then m.msb else if k = Sr.z then decide (m = 0) else if k = Sr.v then false
      else flag sr k && flag (regMasks Reg.sr) k := by
  have hz : decide (m.setWidth 32 = 0) = decide (m = 0) := decide_eq_decide.mpr (widen24_eq_zero m)
  rw [PendingFlags.materialize, updateNzvLogical, sign24, hz, Emitter.ofBool_eq, flag_store,
    flag_or, flag_or, flag_clear, flag_shiftToBit _ (by decide), flag_shiftToBit _ (by decide),
    flag_or, flag_or, flag_single (by decide), flag_single (by decide), flag_single (by decide)]
  split_ifs with hn hz hv
  · simp +decide [hn]
  · simp +decide [hz]
  · simp +decide [hv]
  · simp [hn, hz, hv]

theorem flag_shift24 (m : BitVec 24) (c : Bool) (nVal : Option Bool) (needs sr : Word) (k : Nat) :
    flag ((PendingFlags.shift24 (bit 32 c) (nVal.map (bit 32)) (m.setWidth 32)).materialize false
      needs sr) k =
      if k = Sr.c then c else if k = Sr.n then nVal.getD false
      else if k = Sr.z then decide (m = 0) else if k = Sr.v then false
      else flag sr k && flag (regMasks Reg.sr) k := by
  have hz : decide (m.setWidth 32 = 0) = decide (m = 0) := decide_eq_decide.mpr (widen24_eq_zero m)
  rcases nVal with _ | n <;>
    simp (disch := decide) only [PendingFlags.materialize, updateShift24Flags, Option.map_none,
      Option.map_some, hz, Emitter.ofBool_eq, flag_store, flag_or, flag_clear, flag_bit,
      flag_single, flag_shiftToBit]
  all_goals
    split_ifs with hc hn hz hv
    · simp +decide [hc]
    · simp +decide [hn]
    · simp +decide [hz]
    · simp +decide [hv]
    · simp +decide [hc, hn, hz, hv]

end Dsp56300
