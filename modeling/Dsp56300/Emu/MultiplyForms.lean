import Dsp56300.Emu.AluEffects
import Dsp56300.Emu.Products

/-! The register, immediate and shift forms of the multiplications. -/

namespace Dsp56300

open Emitter AluState Lib.Bits Lib.Words

variable {σ : Type}

/-- A multiplication of two registers. -/
def registerForm (op : MulShiftOp) (k : Bool) (s₁ s₂ : RegIdx) (d : Accumulator) : ParallelAlu :=
  match op with
  | .mpy => .mpy k s₁ s₂ d
  | .mpyr => .mpyr k s₁ s₂ d
  | .mac => .mac k s₁ s₂ d
  | .macr => .macr k s₁ s₂ d

/-- A multiplication of a register by the next word. -/
def immediateForm (op : MulShiftOp) (k : Bool) (src : RegIdx) (d : Accumulator) : Instruction :=
  match op with
  | .mpy => .mpyI k d src
  | .mpyr => .mpyrI k d src
  | .mac => .macI k d src
  | .macr => .macrI k d src

/-- What is done with a product, whatever made it. -/
def Alu.accumulate (op : MulShiftOp) (d : Accumulator) (productM : BitVec 64) : Alu σ Unit :=
  match op with
  | .mpy => do
    let result ← emitSaturateSm productM
    storeAcc d result
    setPending (.nzClearVSm result)
  | .mpyr => do
    let rounded ← emitRnd56 productM
    let result ← emitSaturateSmRnd rounded
    storeAcc d result
    setPending (.nzClearVSm result)
  | .mac => do
    let acc ← loadAcc d
    let result ← emitSaturateSm (mask56 (acc + productM))
    storeAcc d result
    setPending (.macVlSm result productM acc)
  | .macr => do
    let acc ← loadAcc d
    let rounded ← emitRnd56 (mask56 (acc + productM))
    let result ← emitSaturateSmRnd rounded
    storeAcc d result
    setPending (.macVlSm result productM acc)

section Products

variable (s : DspState σ) (op : MulShiftOp) (k : Bool) (src : RegIdx) (d : Accumulator)

theorem execute_registerForm {r : RegIdx} (hr : DspState.Outside r) (hsr : r ≠ Reg.sr) :
    s.execute (.parallelAlu (registerForm op k src r d)) = (Alu.after (Alu.accumulate op d
      ((product false false k (s.readWord src) (s.dataWord r)).setWidth 64))
      (enter s)).finalize := by
  rw [DspState.execute_eq, DataPath.emit, DspState.readWord, DspState.dataWord]
  cases op
  all_goals
    simp only [registerForm, Alu.emitParallelAlu, Alu.emitAluMpy, Alu.emitAluMpyr, Alu.emitAluMac,
      Alu.emitAluMacr, Alu.emitAluMpyCore, Alu.accumulate, Alu.value_bind, Alu.after_bind,
      Alu.value_pure, Alu.after_pure, Alu.after_loadReg, Alu.value_loadOuter _ hr hsr, enter_dsp,
      sext24_eq, mask56_product]

/-- The next word as a factor. -/
theorem nextWord_eq (v : Word) :
    (v.setWidth 64 <<< 40).sshiftRight 40 = operand false (v.setWidth 24) := by
  have hcut : (v.setWidth 64).setWidth 24 = v.setWidth 24 :=
    BitVec.setWidth_setWidth_of_le v (by decide)
  have hext : (v.setWidth 64 <<< 40).sshiftRight 40 = ((v.setWidth 64).setWidth 24).signExtend 64 :=
    shiftLeft_sshiftRight _ (by decide)
  rw [hext, hcut, operand, if_neg Bool.false_ne_true]

theorem instruct_immediateForm (v : Word) :
    s.instruct (immediateForm op k src d) v = (Alu.after (Alu.accumulate op d
      ((product false false k (s.readWord src) (v.setWidth 24)).setWidth 64))
      (enter s)).finalize := by
  have hrun (accumulate round : Bool)
      (h : emitInstructionBody (immediateForm op k src d) s.pc v =
        emitData 2 2 (.mpyiFamily k d src v accumulate round)) :
      s.instruct (immediateForm op k src d) v =
        (Alu.after (Alu.emitMpyiFamily k d src v accumulate round) (enter s)).finalize :=
    DspState.instruct_data _ h
  rw [product_comm, DspState.readWord]
  cases op
  all_goals
    rw [hrun _ _ rfl]
    simp only [Alu.emitMpyiFamily, Alu.emitImmMultiply, Alu.accumulate, Alu.value_bind,
      Alu.after_bind, Alu.value_pure, Alu.after_pure, Alu.after_loadReg, nextWord_eq, sext24_eq,
      mask56_product, if_true, Bool.false_eq_true, if_false]

/-- A power of two as a factor shifts. -/
theorem product_power {n : Nat} (hn : 1 ≤ n) (hn' : n ≤ 23) {p : BitVec 24}
    (hp : p.toNat = 2 ^ (23 - n)) (m : BitVec 24) :
    mask56 (if k then 0 - operand false m <<< (24 - n) else operand false m <<< (24 - n)) =
      (product false false k m p).setWidth 64 := by
  have hlt : 2 ^ (23 - n) ≤ 2 ^ 22 := Nat.pow_le_pow_right (by decide) (by omega)
  have hmsb : p.msb = false := by
    rw [BitVec.msb_eq_false_iff_two_mul_lt, hp]
    omega
  have hpow : operand false p = BitVec.twoPow 64 (23 - n) := by
    apply BitVec.eq_of_toNat_eq
    rw [operand, if_neg Bool.false_ne_true, BitVec.signExtend_eq_setWidth_of_msb_false hmsb,
      BitVec.toNat_setWidth_of_le (by decide), hp, BitVec.toNat_twoPow, Nat.mod_eq_of_lt (by omega)]
  have hmul : (operand false m * operand false p) <<< 1 = operand false m <<< (24 - n) := by
    rw [hpow, BitVec.mul_twoPow_eq_shiftLeft, ← BitVec.shiftLeft_add]
    congr 1
    omega
  rw [← hmul, product, fractional]
  exact mask56_eq _

theorem instruct_mulShift {shift : Byte} (hn : 1 ≤ shift.toNat) (hn' : shift.toNat ≤ 23)
    {p : BitVec 24} (hp : p.toNat = 2 ^ (23 - shift.toNat)) (w : Word) :
    s.instruct (.mulShift op shift src d k) w = (Alu.after (Alu.accumulate op d
      ((product false false k (s.readWord src) p).setWidth 64)) (enter s)).finalize := by
  have hrun : s.instruct (.mulShift op shift src d k) w =
      (Alu.after (Alu.emitMulShift op shift src d k) (enter s)).finalize :=
    DspState.instruct_data (.mulShift op shift src d k) rfl
  have hshift : ¬ (shift.toNat = 0 ∨ shift.toNat ≥ 24) := by omega
  rw [hrun, DspState.readWord]
  cases op
  all_goals
    simp only [Alu.emitMulShift, Alu.accumulate, Alu.after_bind, Alu.after_loadReg, sext24_eq,
      if_neg hshift, product_power k hn hn' hp]

end Products

/-- The three forms of a multiplication leave the same state: the immediate form with a word that
the second register holds, the shift form where it holds the power of two. -/
theorem multiplierForms_agree (s : DspState σ) (op : MulShiftOp) (k : Bool) (src : RegIdx)
    (d : Accumulator) {r : RegIdx} (hr : DspState.Outside r) (hsr : r ≠ Reg.sr) :
    (∀ v : Word, s.dataWord r = v.setWidth 24 →
      s.instruct (immediateForm op k src d) v =
        s.execute (.parallelAlu (registerForm op k src r d))) ∧
    (∀ (n : Byte) (w : Word), 1 ≤ n.toNat → n.toNat ≤ 23 →
      (s.dataWord r).toNat = 2 ^ (23 - n.toNat) →
      s.instruct (.mulShift op n src d k) w =
        s.execute (.parallelAlu (registerForm op k src r d))) := by
  refine ⟨fun v hv => ?_, fun n w hn hn' hp => ?_⟩
  · rw [execute_registerForm s op k src d hr hsr, instruct_immediateForm, hv]
  · rw [execute_registerForm s op k src d hr hsr, instruct_mulShift s op k src d hn hn' hp]

/-- The forms of a rounded multiplication by a half, added to the largest value. -/
theorem multiplierForms_agree_half :
    let s := DspState.ofRegs [(Reg.a2, 0x7F), (Reg.a1, 0xFFFFFF), (Reg.x0, 0x7FFFFF),
      (Reg.y0, 0x400000), (Reg.sr, 0x100000)]
    s.instruct (immediateForm .macr false Reg.x0 .a) 0x400000 =
        s.execute (.parallelAlu (registerForm .macr false Reg.x0 Reg.y0 .a)) ∧
      s.instruct (.mulShift .macr 1 Reg.x0 .a false) 0 =
        s.execute (.parallelAlu (registerForm .macr false Reg.x0 Reg.y0 .a)) := by
  intro s
  obtain ⟨himm, hshift⟩ := multiplierForms_agree s .macr false Reg.x0 .a (r := Reg.y0) (by decide)
    (by decide)
  exact ⟨himm 0x400000 (by decide), hshift 1 0 (by decide) (by decide) (by decide)⟩

end Dsp56300
