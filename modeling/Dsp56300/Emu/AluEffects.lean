import Dsp56300.Emu.AccValues
import Dsp56300.Emu.MaterializedFlags

/-! What the operations of a data path do, field by field, and what an instruction leaves. -/

namespace Dsp56300

open Emitter Lib.Bits Lib.Words

variable {σ : Type}

namespace AluState

variable (t : AluState σ) (d : Accumulator) (v : BitVec 64) (w : Word)

def setNeedsSat : AluState σ := { t with smNeedsSat := w }

/-- A register that is neither SR nor a part of an accumulator. -/
def setOuter (r : RegIdx) : AluState σ := { t with dsp := t.dsp.setReg r w }

@[simp] theorem setAcc_dsp : (t.setAcc d v).dsp = t.dsp := (rfl)
@[simp] theorem setAcc_sr : (t.setAcc d v).sr = t.sr := (rfl)
@[simp] theorem setAcc_acc : (t.setAcc d v).acc d = v := Function.update_self ..
@[simp] theorem setAcc_acc_other {d' : Accumulator} (h : d' ≠ d) :
    (t.setAcc d v).acc d' = t.acc d' := Function.update_of_ne h ..
@[simp] theorem setAcc_pendingFlags : (t.setAcc d v).pendingFlags = t.pendingFlags := (rfl)
@[simp] theorem setAcc_smNeedsSat : (t.setAcc d v).smNeedsSat = t.smNeedsSat := (rfl)
@[simp] theorem setSr_sr : (t.setSr w).sr = w := DspState.setReg_same ..
@[simp] theorem setSr_acc : (t.setSr w).acc = t.acc := (rfl)
@[simp] theorem setSr_pendingFlags : (t.setSr w).pendingFlags = t.pendingFlags := (rfl)
@[simp] theorem setSr_smNeedsSat : (t.setSr w).smNeedsSat = t.smNeedsSat := (rfl)
@[simp] theorem setNeedsSat_dsp : (t.setNeedsSat w).dsp = t.dsp := (rfl)
@[simp] theorem setNeedsSat_sr : (t.setNeedsSat w).sr = t.sr := (rfl)
@[simp] theorem setNeedsSat_acc : (t.setNeedsSat w).acc = t.acc := (rfl)
@[simp] theorem setNeedsSat_pendingFlags : (t.setNeedsSat w).pendingFlags = t.pendingFlags := (rfl)
@[simp] theorem setNeedsSat_smNeedsSat : (t.setNeedsSat w).smNeedsSat = w := (rfl)
@[simp] theorem setOuter_acc (r : RegIdx) : (t.setOuter w r).acc = t.acc := (rfl)
@[simp] theorem setOuter_pendingFlags (r : RegIdx) :
    (t.setOuter w r).pendingFlags = t.pendingFlags := (rfl)
@[simp] theorem setOuter_smNeedsSat (r : RegIdx) :
    (t.setOuter w r).smNeedsSat = t.smNeedsSat := (rfl)
@[simp] theorem setOuter_sr {r : RegIdx} (h : r ≠ Reg.sr) : (t.setOuter w r).sr = t.sr :=
  DspState.setReg_other _ _ h.symm
@[simp] theorem enter_dsp (s : DspState σ) : (enter s).dsp = s := (rfl)
@[simp] theorem enter_sr (s : DspState σ) : (enter s).sr = s.registers Reg.sr := (rfl)
@[simp] theorem enter_acc (s : DspState σ) : (enter s).acc d = s.reloadAcc d := (rfl)
@[simp] theorem enter_pendingFlags (s : DspState σ) : (enter s).pendingFlags = none := (rfl)
@[simp] theorem enter_smNeedsSat (s : DspState σ) : (enter s).smNeedsSat = 0 := (rfl)

variable {t}

@[simp] theorem flush_settled {e : Bool} (h : t.pendingFlags = none) : t.flush e = t := by
  simp [flush, h]

@[simp] theorem storeSr_settled (h : t.pendingFlags = none) :
    t.storeSr w = t.setSr (SrUpdate.store w) := by
  simp [storeSr, h, SrUpdate.store]

end AluState

namespace Alu

variable {α β : Type}

/-- What code answers. -/
def value (x : Alu σ α) (t : AluState σ) : α := (x.run t).1

/-- What code leaves. -/
def after (x : Alu σ α) (t : AluState σ) : AluState σ := (x.run t).2

variable (t : AluState σ)

@[simp] theorem value_bind (x : Alu σ α) (f : α → Alu σ β) :
    value (x >>= f) t = value (f (value x t)) (after x t) := (rfl)

@[simp] theorem after_bind (x : Alu σ α) (f : α → Alu σ β) :
    after (x >>= f) t = after (f (value x t)) (after x t) := (rfl)

@[simp] theorem value_pure (a : α) : value (pure a : Alu σ α) t = a := (rfl)

@[simp] theorem after_pure (a : α) : after (pure a : Alu σ α) t = t := (rfl)

@[simp] theorem value_loadAcc (d : Accumulator) : value (loadAcc d) t = t.acc d := (rfl)

@[simp] theorem after_loadAcc (d : Accumulator) : after (loadAcc d) t = t := (rfl)

@[simp] theorem after_storeAcc (d : Accumulator) (v : BitVec 64) :
    after (storeAcc d v) t = t.setAcc d v := (rfl)

@[simp] theorem value_loadSr : value (loadSr (σ := σ)) t = (t.flush false).sr := (rfl)

@[simp] theorem after_loadSr : after (loadSr (σ := σ)) t = t.flush false := (rfl)

@[simp] theorem value_clearSrFlags (flags : Word) :
    value (clearSrFlags flags) t = SrUpdate.clear flags (t.flush false).sr := (rfl)

@[simp] theorem after_clearSrFlags (flags : Word) :
    after (clearSrFlags flags) t = t.flush false := (rfl)

@[simp] theorem after_storeSr (v : Word) : after (storeReg Reg.sr v) t = t.storeSr v := (rfl)

@[simp] theorem after_setPending (flags : PendingFlags) :
    after (setPending flags) t = t.setPending flags := (rfl)

@[simp] theorem value_loadMid (d : Accumulator) :
    value (loadReg (midReg d)) t = extractAccMid (t.acc d) := by cases d <;> rfl

@[simp] theorem after_loadMid (d : Accumulator) : after (loadReg (midReg d)) t = t := by
  cases d <;> rfl

@[simp] theorem after_storeMid (d : Accumulator) (v : Word) :
    after (storeReg (midReg d) v) t = t.setAccSubreg d 24 0xFFFFFF (mask24 v) := by
  cases d <;> rfl

theorem run_emitSaturateSm (v : BitVec 64) : (emitSaturateSm v).run t =
    (mask56 (t.dsp.jitSaturateSm v),
      t.setNeedsSat (extractBitI64 (t.dsp.jitSaturateSm v) 56)) := rfl

end Alu

theorem DspState.execute_eq (s : DspState σ) (path : DataPath) :
    s.execute path = (Alu.after path.emit (AluState.enter s)).finalize := rfl

/-- An instruction whose code is a data path. -/
theorem DspState.instruct_data {s : DspState σ} {inst : Instruction} {w : Word} (path : DataPath)
    {len cycles : Nat} (h : emitInstructionBody inst s.pc w = emitData len cycles path) :
    s.instruct inst w = s.execute path := by
  rw [instruct, h]
  rfl

/-! The accumulators in memory. -/

namespace DspState

/-- SM is off: results are not clamped. -/
def Unsaturated (s : DspState σ) : Prop := flag (s.registers Reg.sr) Sr.sm = false

instance (s : DspState σ) : Decidable s.Unsaturated := inferInstanceAs (Decidable (_ = _))

theorem jitSaturateSm_off {s : DspState σ} (h : s.Unsaturated) (v : BitVec 64) :
    s.jitSaturateSm v = v := if_pos ((bit_test_iff _ (by decide)).mpr h)

variable (s : DspState σ) (d : Accumulator)

/-- The value of an accumulator. -/
def acc : BitVec 56 := (s.reloadAcc d).setWidth 56

/-- The word in a register. -/
def dataWord (r : RegIdx) : BitVec 24 := (s.registers r).setWidth 24

/-- The word an instruction reads from a register, which may be a part of an accumulator. -/
def readWord (r : RegIdx) : BitVec 24 := (Alu.value (Alu.loadReg r) (AluState.enter s)).setWidth 24

theorem reloadAcc_toNat : (s.reloadAcc d).toNat =
    (s.registers (accRegs d).1).toNat % 2 ^ 8 * 2 ^ 48 +
      (s.registers (accRegs d).2.1).toNat % 2 ^ 24 * 2 ^ 24 +
      (s.registers (accRegs d).2.2).toNat % 2 ^ 24 := by
  have h2 := and_toNat (w := 32) (q := 0xFF) (j := 8) rfl (s.registers (accRegs d).1)
  have h1 := and_toNat (w := 32) (q := 0x00FFFFFF) (j := 24) rfl (s.registers (accRegs d).2.1)
  have h0 := and_toNat (w := 32) (q := 0x00FFFFFF) (j := 24) rfl (s.registers (accRegs d).2.2)
  have hpack := @pack_toNat (s.registers (accRegs d).1 &&& 0xFF)
    (s.registers (accRegs d).2.1 &&& 0x00FFFFFF) (s.registers (accRegs d).2.2 &&& 0x00FFFFFF)
    (by omega) (by omega) (by omega)
  rw [h2, h1, h0] at hpack
  exact hpack

theorem extractAccLo_reload :
    (extractAccLo (s.reloadAcc d)).toNat = (s.registers (accRegs d).2.2).toNat % 2 ^ 24 := by
  rw [extractAccLo, field_toNat (k := 24) rfl (by decide), reloadAcc_toNat]
  omega

theorem extractAccMid_reload :
    (extractAccMid (s.reloadAcc d)).toNat = (s.registers (accRegs d).2.1).toNat % 2 ^ 24 := by
  rw [extractAccMid, field_toNat (k := 24) rfl (by decide), BitVec.toNat_ushiftRight,
    Nat.shiftRight_eq_div_pow, reloadAcc_toNat]
  omega

theorem extractAccHi_reload :
    (extractAccHi (s.reloadAcc d)).toNat = (s.registers (accRegs d).1).toNat % 2 ^ 8 := by
  rw [extractAccHi, field_toNat (k := 8) rfl (by decide), BitVec.toNat_ushiftRight,
    Nat.shiftRight_eq_div_pow, reloadAcc_toNat]
  omega

theorem reloadAcc_eq : s.reloadAcc d = (s.acc d).setWidth 64 := by
  apply BitVec.eq_of_toNat_eq
  have h := s.reloadAcc_toNat d
  rw [acc, BitVec.toNat_setWidth, BitVec.toNat_setWidth]
  omega

/-- Registers outside the accumulators. -/
def Outside (r : RegIdx) : Prop := r ∉ [Reg.a0, Reg.a1, Reg.a2, Reg.b0, Reg.b1, Reg.b2]

instance (r : RegIdx) : Decidable (Outside r) := inferInstanceAs (Decidable (_ ∉ _))

variable {s d}

theorem flush_registers {r : RegIdx} (hr : Outside r) (v : BitVec 64) :
    (s.flushAccToMemory d v).registers r = s.registers r := by
  simp only [Outside, List.mem_cons, List.not_mem_nil, or_false, not_or] at hr
  obtain ⟨ha0, ha1, ha2, hb0, hb1, hb2⟩ := hr
  cases d
  · simp [flushAccToMemory, accRegs, ha0, ha1, ha2]
  · simp [flushAccToMemory, accRegs, hb0, hb1, hb2]

theorem reloadAcc_setReg {r : RegIdx} (hr : Outside r) (v : Word) :
    (s.setReg r v).reloadAcc d = s.reloadAcc d := by
  simp only [Outside, List.mem_cons, List.not_mem_nil, or_false, not_or] at hr
  obtain ⟨ha0, ha1, ha2, hb0, hb1, hb2⟩ := hr
  cases d
  · simp [reloadAcc, accRegs, Ne.symm ha0, Ne.symm ha1, Ne.symm ha2]
  · simp [reloadAcc, accRegs, Ne.symm hb0, Ne.symm hb1, Ne.symm hb2]

/-- The parts a stored accumulator has. -/
theorem flush_parts (v : BitVec 64) :
    ((s.flushAccToMemory d v).registers (accRegs d).1).toNat = v.toNat / 2 ^ 48 % 2 ^ 8 ∧
      ((s.flushAccToMemory d v).registers (accRegs d).2.1).toNat = v.toNat / 2 ^ 24 % 2 ^ 24 ∧
      ((s.flushAccToMemory d v).registers (accRegs d).2.2).toNat = v.toNat % 2 ^ 24 := by
  have hr2 : (s.flushAccToMemory d v).registers (accRegs d).1 = extractAccHi v := by
    cases d <;> rfl
  have hr1 : (s.flushAccToMemory d v).registers (accRegs d).2.1 = extractAccMid v := by
    cases d <;> rfl
  have hr0 : (s.flushAccToMemory d v).registers (accRegs d).2.2 = extractAccLo v := by
    cases d <;> rfl
  rw [hr2, hr1, hr0]
  refine ⟨?_, ?_, field_toNat (k := 24) rfl (by decide) v⟩
  · rw [extractAccHi, field_toNat (k := 8) rfl (by decide), BitVec.toNat_ushiftRight,
      Nat.shiftRight_eq_div_pow]
  · rw [extractAccMid, field_toNat (k := 24) rfl (by decide), BitVec.toNat_ushiftRight,
      Nat.shiftRight_eq_div_pow]

theorem acc_flush (v : BitVec 64) : (s.flushAccToMemory d v).acc d = v.setWidth 56 := by
  obtain ⟨h2, h1, h0⟩ := flush_parts (s := s) (d := d) v
  apply BitVec.eq_of_toNat_eq
  rw [acc, BitVec.toNat_setWidth, reloadAcc_toNat, h2, h1, h0, BitVec.toNat_setWidth]
  omega

/-- The parts of an accumulator are within their widths. -/
structure InWidth (s : DspState σ) (d : Accumulator) : Prop where
  high : (s.registers (accRegs d).1).toNat < 2 ^ 8
  mid : (s.registers (accRegs d).2.1).toNat < 2 ^ 24
  low : (s.registers (accRegs d).2.2).toNat < 2 ^ 24

theorem InWidth.acc_toNat (h : s.InWidth d) : (s.acc d).toNat =
    (s.registers (accRegs d).1).toNat * 2 ^ 48 + (s.registers (accRegs d).2.1).toNat * 2 ^ 24 +
      (s.registers (accRegs d).2.2).toNat := by
  obtain ⟨h2, h1, h0⟩ := h
  rw [acc, BitVec.toNat_setWidth, reloadAcc_toNat]
  omega

theorem inWidth_flush (v : BitVec 64) : (s.flushAccToMemory d v).InWidth d := by
  obtain ⟨h2, h1, h0⟩ := flush_parts (s := s) (d := d) v
  exact ⟨by omega, by omega, by omega⟩

theorem setReg_self (s : DspState σ) (r : RegIdx) : s.setReg r (s.registers r) = s := by
  simp [setReg]

/-- Storing an accumulator back changes nothing. -/
theorem flush_reload (h : s.InWidth d) : s.flushAccToMemory d (s.reloadAcc d) = s := by
  have hlo := s.extractAccLo_reload d
  have hmid := s.extractAccMid_reload d
  have hhi := s.extractAccHi_reload d
  obtain ⟨h2, h1, h0⟩ := h
  have e0 : extractAccLo (s.reloadAcc d) = s.registers (accRegs d).2.2 :=
    BitVec.eq_of_toNat_eq (by omega)
  have e1 : extractAccMid (s.reloadAcc d) = s.registers (accRegs d).2.1 :=
    BitVec.eq_of_toNat_eq (by omega)
  have e2 : extractAccHi (s.reloadAcc d) = s.registers (accRegs d).1 :=
    BitVec.eq_of_toNat_eq (by omega)
  have hstore : s.flushAccToMemory d (s.reloadAcc d) =
      ((s.setReg (accRegs d).2.2 (extractAccLo (s.reloadAcc d))).setReg (accRegs d).2.1
        (extractAccMid (s.reloadAcc d))).setReg (accRegs d).1 (extractAccHi (s.reloadAcc d)) := rfl
  rw [hstore, e0, setReg_self, e1, setReg_self, e2, setReg_self]

theorem acc_flush_other {d' : Accumulator} (h : d' ≠ d) (v : BitVec 64) :
    (s.flushAccToMemory d v).acc d' = s.acc d' := by
  cases d <;> cases d' <;> first | exact absurd rfl h | rfl

end DspState

namespace Alu

@[simp] theorem after_loadReg (s : DspState σ) (r : RegIdx) :
    after (loadReg r) (AluState.enter s) = AluState.enter s := by
  rw [loadReg]
  split <;> rfl

section Outer

variable {r : RegIdx} (t : AluState σ)

theorem after_loadOuter (hsr : r ≠ Reg.sr) : after (loadReg r) t = t := by
  simp only [loadReg, if_neg hsr]
  rfl

theorem value_loadOuter (hr : DspState.Outside r) (hsr : r ≠ Reg.sr) :
    value (loadReg r) t = t.dsp.registers r := by
  simp only [DspState.Outside, List.mem_cons, List.not_mem_nil, or_false, not_or] at hr
  obtain ⟨ha0, ha1, ha2, hb0, hb1, hb2⟩ := hr
  simp only [loadReg, if_neg hsr]
  change t.readReg r = _
  simp [AluState.readReg, ha0, ha1, ha2, hb0, hb1, hb2]

theorem after_storeOuter (hr : DspState.Outside r) (hsr : r ≠ Reg.sr) (v : Word) :
    after (storeReg r v) t = t.setOuter (maskReg r v) r := by
  simp only [DspState.Outside, List.mem_cons, List.not_mem_nil, or_false, not_or] at hr
  obtain ⟨ha0, ha1, ha2, hb0, hb1, hb2⟩ := hr
  change (if r = Reg.sr then t.storeSr v else t.writeReg r (maskReg r v)) = _
  simp [hsr, AluState.writeReg, ha0, ha1, ha2, hb0, hb1, hb2, AluState.setOuter]

end Outer

/-- A count in the low bits of a register. -/
theorem value_loadReg_mod (s : DspState σ) (r : RegIdx) {k : Nat} (hk : k ≤ 8) :
    (value (loadReg r) (AluState.enter s)).toNat % 2 ^ k = (s.registers r).toNat % 2 ^ k := by
  have h8 : 2 ^ k ∣ 2 ^ 8 := Nat.pow_dvd_pow 2 hk
  have h24 : 2 ^ k ∣ 2 ^ 24 := Nat.pow_dvd_pow 2 (by omega)
  rw [loadReg]
  split
  · next h =>
    subst h
    rfl
  · change (AluState.readReg (AluState.enter s) r).toNat % 2 ^ k = _
    unfold AluState.readReg
    split_ifs with ha0 ha1 ha2 hb0 hb1 hb2
    · subst ha0
      exact (congrArg (· % 2 ^ k) (s.extractAccLo_reload .a)).trans (Nat.mod_mod_of_dvd _ h24)
    · subst ha1
      exact (congrArg (· % 2 ^ k) (s.extractAccMid_reload .a)).trans (Nat.mod_mod_of_dvd _ h24)
    · subst ha2
      exact (congrArg (· % 2 ^ k) (s.extractAccHi_reload .a)).trans (Nat.mod_mod_of_dvd _ h8)
    · subst hb0
      exact (congrArg (· % 2 ^ k) (s.extractAccLo_reload .b)).trans (Nat.mod_mod_of_dvd _ h24)
    · subst hb1
      exact (congrArg (· % 2 ^ k) (s.extractAccMid_reload .b)).trans (Nat.mod_mod_of_dvd _ h24)
    · subst hb2
      exact (congrArg (· % 2 ^ k) (s.extractAccHi_reload .b)).trans (Nat.mod_mod_of_dvd _ h8)
    · rfl

theorem value_loadReg_low6 (s : DspState σ) (r : RegIdx) :
    (value (loadReg r) (AluState.enter s) &&& 0x3F).toNat = (s.registers r).toNat % 64 := by
  rw [and_toNat (q := 0x3F) (j := 6) rfl]
  exact value_loadReg_mod s r (k := 6) (by decide)

variable {t : AluState σ}

theorem run_saturate_off (h : flag t.sr Sr.sm = false) (v : BitVec 56) :
    (emitSaturateSm (v.setWidth 64)).run t = (v.setWidth 64, t.setNeedsSat 0) := by
  have hbit : extractBitI64 (v.setWidth 64) 56 = 0 := by
    rw [extractBitI64_eq (k := 56) _ rfl (by decide)]
    simp
  rw [run_emitSaturateSm, DspState.jitSaturateSm_off h, hbit, mask56_widen]

@[simp] theorem value_saturate_off (h : flag t.sr Sr.sm = false) (v : BitVec 56) :
    value (emitSaturateSm (v.setWidth 64)) t = v.setWidth 64 :=
  congrArg Prod.fst (run_saturate_off h v)

@[simp] theorem after_saturate_off (h : flag t.sr Sr.sm = false) (v : BitVec 56) :
    after (emitSaturateSm (v.setWidth 64)) t = t.setNeedsSat 0 :=
  congrArg Prod.snd (run_saturate_off h v)

end Alu

/-- The state after `n` executions of one instruction. -/
def DspState.repeated (s : DspState σ) (path : DataPath) (n : Nat) : DspState σ :=
  (fun t => t.execute path)^[n] s

theorem DspState.repeated_succ (s : DspState σ) (path : DataPath) (n : Nat) :
    s.repeated path (n + 1) = (s.repeated path n).execute path := Function.iterate_succ_apply' ..

/-- A new state with the given register words. -/
def DspState.ofRegs (words : List (RegIdx × Word)) : DspState Unit :=
  words.foldl (fun s p => s.setReg p.1 p.2) (DspState.new ⟨[], [], []⟩ ⟨fun _ => 0, ()⟩)

/-! What an instruction leaves. -/

namespace AluState

/-- An accumulator not changed yet is in memory. -/
structure Coherent (t : AluState σ) : Prop where
  clean : ∀ d, t.accDirty d = false → t.acc d = t.dsp.reloadAcc d

variable {t : AluState σ}

theorem Coherent.enter (s : DspState σ) : (enter s).Coherent := ⟨fun _ _ => rfl⟩

theorem Coherent.setAcc (h : t.Coherent) (d : Accumulator) (v : BitVec 64) :
    (t.setAcc d v).Coherent := by
  refine ⟨fun d' hd' => ?_⟩
  by_cases hd : d' = d
  · subst hd
    simp [AluState.setAcc] at hd'
  · simp only [AluState.setAcc, Function.update_of_ne hd] at hd' ⊢
    exact h.clean d' hd'

theorem Coherent.setNeedsSat (h : t.Coherent) (w : Word) :
    (t.setNeedsSat w).Coherent := ⟨h.clean⟩

theorem Coherent.setOuter (h : t.Coherent) (w : Word) {r : RegIdx} (hr : DspState.Outside r) :
    (t.setOuter w r).Coherent := by
  refine ⟨fun d hd => ?_⟩
  exact (h.clean d hd).trans (DspState.reloadAcc_setReg hr w).symm

theorem Coherent.setSr (h : t.Coherent) (w : Word) : (t.setSr w).Coherent := by
  refine ⟨fun d hd => ?_⟩
  have hr := DspState.reloadAcc_setReg (s := t.dsp) (d := d) (r := Reg.sr) (by decide) w
  exact (h.clean d hd).trans hr.symm

theorem Coherent.flush (h : t.Coherent) (e : Bool) : (t.flush e).Coherent := by
  unfold AluState.flush
  split
  · exact h
  · exact ⟨(h.setSr _).clean⟩

theorem flush_acc (e : Bool) : (t.flush e).acc = t.acc := by
  unfold AluState.flush
  split <;> rfl

theorem flush_registers {r : RegIdx} (hr : r ≠ Reg.sr) (e : Bool) :
    (t.flush e).dsp.registers r = t.dsp.registers r := by
  unfold AluState.flush
  split
  · rfl
  · exact DspState.setReg_other _ _ hr

theorem finalize_registers {r : RegIdx} (hr : DspState.Outside r) :
    t.finalize.registers r = (t.flush false).dsp.registers r := by
  rw [finalize]
  cases (t.flush false).accDirty .a <;> cases (t.flush false).accDirty .b <;>
    simp [DspState.flush_registers hr]

theorem finalize_sr : t.finalize.registers Reg.sr = (t.flush false).sr :=
  finalize_registers (by decide)

/-- Storing an accumulator where it was changed brings memory up to date. -/
theorem Coherent.stored (h : t.Coherent) {d : Accumulator} {dsp : DspState σ}
    (hdsp : dsp.acc d = t.dsp.acc d) :
    (if t.accDirty d then dsp.flushAccToMemory d (t.acc d) else dsp).acc d =
      (t.acc d).setWidth 56 := by
  rcases hd : t.accDirty d with _ | _
  · rw [if_neg (by decide), hdsp, DspState.acc, h.clean d hd]
  · rw [if_pos rfl, DspState.acc_flush]

theorem finalize_acc (h : t.Coherent) (d : Accumulator) :
    t.finalize.acc d = (t.acc d).setWidth 56 := by
  have hflush := h.flush false
  rw [finalize, ← flush_acc (t := t) false]
  cases d with
  | a =>
    have hab : Accumulator.a ≠ .b := by decide
    rcases hb : (t.flush false).accDirty .b with _ | _
    · exact hflush.stored rfl
    · exact (DspState.acc_flush_other hab _).trans (hflush.stored rfl)
  | b =>
    have hba : Accumulator.b ≠ .a := by decide
    apply hflush.stored
    split
    · exact DspState.acc_flush_other hba _
    · rfl

/-- What the last flag computation leaves in SR. -/
theorem finalize_setPending_sr (h : t.pendingFlags = none) (flags : PendingFlags) :
    (t.setPending flags).finalize.registers Reg.sr =
      flags.materialize false t.smNeedsSat t.sr := by
  rw [finalize_sr, setPending, flush_settled h]
  cases flags <;> rfl

theorem finalize_setPending_acc (h : t.pendingFlags = none) (hc : t.Coherent)
    (flags : PendingFlags) (d : Accumulator) :
    (t.setPending flags).finalize.acc d = (t.acc d).setWidth 56 := by
  have hc' : (t.setPending flags).Coherent := by
    rw [setPending, flush_settled h]
    split <;> exact ⟨hc.clean⟩
  rw [finalize_acc hc', setPending, flush_settled h]
  split <;> rfl

theorem finalize_setPending_registers (h : t.pendingFlags = none) (flags : PendingFlags)
    {r : RegIdx} (hr : DspState.Outside r) (hsr : r ≠ Reg.sr) :
    (t.setPending flags).finalize.registers r = t.dsp.registers r := by
  rw [finalize_registers hr, flush_registers hsr, setPending, flush_settled h]
  split <;> rfl

end AluState

end Dsp56300
