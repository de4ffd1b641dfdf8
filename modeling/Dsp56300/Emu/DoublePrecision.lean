import Dsp56300.Core.DecodeTable
import Dsp56300.Emu.AluEffects
import Dsp56300.Emu.Products
import Mathlib.Tactic.LinearCombination

/-! Multiplication of 48-bit numbers, word by word. -/

namespace Dsp56300

open Emitter AluState Lib.Bits Lib.Words SrUpdate

variable {σ : Type}

/-! What a step of the multiplier leaves. -/

/-- A step leaves `v` in the accumulator, and SM and the other registers as they were. -/
structure Stepped (s t : DspState σ) (d : Accumulator) (v : BitVec 56) : Prop where
  acc : t.acc d = v
  sm : flag (t.registers Reg.sr) Sr.sm = flag (s.registers Reg.sr) Sr.sm
  registers : ∀ r, DspState.Outside r → r ≠ Reg.sr → t.registers r = s.registers r

theorem resultFlags_sm (sr : Word) (v : BitVec 56) (ov : Bool) :
    resultFlags sr v ov Sr.sm = flag sr Sr.sm := by
  simp +decide [resultFlags]

theorem stepped_of_run {s : DspState σ} {d : Accumulator} {v : BitVec 56} (flags : PendingFlags)
    (needs : Word)
    (hflags : flag (flags.materialize false needs (s.registers Reg.sr)) Sr.sm =
      flag (s.registers Reg.sr) Sr.sm) :
    Stepped s (((((enter s).setNeedsSat needs).setAcc d (v.setWidth 64)).setPending flags).finalize)
      d v := by
  have hclean := ((Coherent.enter s).setNeedsSat needs).setAcc d (v.setWidth 64)
  refine ⟨?_, ?_, fun r hr hsr => ?_⟩
  · rw [finalize_setPending_acc rfl hclean, setAcc_acc, widen_narrow]
  · rw [finalize_setPending_sr rfl]
    exact hflags
  · rw [finalize_setPending_registers rfl _ hr hsr]
    rfl

theorem Stepped.dataWord {s t : DspState σ} {d : Accumulator} {v : BitVec 56} (h : Stepped s t d v)
    {r : RegIdx} (hr : DspState.Outside r) (hsr : r ≠ Reg.sr) : t.dataWord r = s.dataWord r := by
  rw [DspState.dataWord, DspState.dataWord, h.registers r hr hsr]

section Steps

variable (s : DspState σ) {r₁ r₂ : RegIdx} (h₁ : DspState.Outside r₁) (h₁' : r₁ ≠ Reg.sr)
  (h₂ : DspState.Outside r₂) (h₂' : r₂ ≠ Reg.sr) (d : Accumulator)

include h₁ h₁' h₂ h₂'

theorem stepped_mpySu (b : Byte) (k : Bool) :
    Stepped s (s.execute (.mpySu b k d r₁ r₂)) d
      (product (b &&& 1 ≠ 0) true k (s.dataWord r₁) (s.dataWord r₂)) := by
  have hrun (v : BitVec 56) := stepped_of_run (s := s) (d := d) (v := v) (.nzClearV (v.setWidth 64))
    0 (by rw [flag_nzClearV, resultFlags_sm])
  rw [DspState.execute_eq, DataPath.emit]
  simp only [Alu.emitMpySu, Alu.productSu, Alu.after_bind, Alu.value_bind, Alu.value_pure,
    Alu.after_pure, Alu.value_loadOuter _ h₁ h₁', Alu.after_loadOuter _ h₁',
    Alu.value_loadOuter _ h₂ h₂', Alu.after_loadOuter _ h₂', enter_dsp, sext24_eq, zext24_eq,
    choose_operand, mask56_product, Alu.after_storeAcc, Alu.after_setPending]
  exact hrun _

theorem stepped_macSu (b : Byte) (k : Bool) :
    Stepped s (s.execute (.macSu b k d r₁ r₂)) d
      (s.acc d + product (b &&& 1 ≠ 0) true k (s.dataWord r₁) (s.dataWord r₂)) := by
  have hrun (v p : BitVec 56) := stepped_of_run (s := s) (d := d) (v := v)
    (.dmacVl (v.setWidth 64) (p.setWidth 64) ((s.acc d).setWidth 64)) 0
    (by rw [flag_dmacVl, resultFlags_sm])
  rw [DspState.execute_eq, DataPath.emit]
  simp only [Alu.emitMacSu, Alu.productSu, Alu.after_bind, Alu.value_bind, Alu.value_pure,
    Alu.after_pure, Alu.value_loadOuter _ h₁ h₁', Alu.after_loadOuter _ h₁',
    Alu.value_loadOuter _ h₂ h₂', Alu.after_loadOuter _ h₂', enter_dsp, sext24_eq, zext24_eq,
    choose_operand, mask56_product, Alu.value_loadAcc, Alu.after_loadAcc, enter_acc,
    DspState.reloadAcc_eq, mask56_add, Alu.after_storeAcc, Alu.after_setPending]
  exact hrun _ _

/-- The accumulator moves down by a word before the product is added. -/
theorem stepped_dmac (ss : Byte) (k : Bool) (hss : ss = 0 → s.Unsaturated) :
    Stepped s (s.execute (.dmac ss k d r₁ r₂)) d ((s.acc d).sshiftRight 24 +
      product (ss &&& 1 ≠ 0) (ss &&& 2 ≠ 0) k (s.dataWord r₁) (s.dataWord r₂)) := by
  have hrun (v : BitVec 56) := stepped_of_run (s := s) (d := d) (v := v) (.nzClearV (v.setWidth 64))
    0 (by rw [flag_nzClearV, resultFlags_sm])
  have hrunSm (v : BitVec 56) := stepped_of_run (s := s) (d := d) (v := v)
    (.nzClearVSm (v.setWidth 64)) 0 (by rw [flag_nzClearVSm, resultFlags_sm])
  rw [DspState.execute_eq, DataPath.emit]
  simp only [Alu.emitDmac, Alu.after_bind, Alu.value_loadOuter _ h₁ h₁', Alu.after_loadOuter _ h₁',
    Alu.value_loadOuter _ h₂ h₂', Alu.after_loadOuter _ h₂', enter_dsp, sext24_eq, zext24_eq,
    choose_operand, Alu.value_loadAcc, Alu.after_loadAcc, enter_acc, DspState.reloadAcc_eq,
    mask56_dmac]
  by_cases h0 : ss = 0
  · have hsm : flag (enter s).sr Sr.sm = false := hss h0
    simp only [if_pos h0, Alu.after_bind, Alu.value_saturate_off hsm, Alu.after_saturate_off hsm,
      Alu.after_storeAcc, Alu.after_setPending]
    exact hrunSm _
  · simp only [if_neg h0, Alu.after_bind, Alu.after_storeAcc, Alu.after_setPending]
    exact hrun _

end Steps

/-! The four instructions. -/

def mpyuuX0Y0 : Accumulator → Word
  | .a => 0x0127CD
  | .b => 0x0127ED

def dmacsuX1Y0 : Accumulator → Word
  | .a => 0x012586
  | .b => 0x0125A6

def macsuY1X0 : Accumulator → Word
  | .a => 0x01268C
  | .b => 0x0126AC

def dmacssX1Y1 : Accumulator → Word
  | .a => 0x01248F
  | .b => 0x0124AF

theorem decode_mpyuuX0Y0 (d : Accumulator) :
    decode (mpyuuX0Y0 d) = .mpySU 1 false d Reg.x0 Reg.y0 := by
  cases d
  · exact (decode_at 151 rfl (by decide) (by decide) (by decide)).trans rfl
  · exact (decode_at 151 rfl (by decide) (by decide) (by decide)).trans rfl

theorem decode_dmacsuX1Y0 (d : Accumulator) :
    decode (dmacsuX1Y0 d) = .dmac 2 false d Reg.x1 Reg.y0 := by
  cases d
  · exact (decode_at 70 rfl (by decide) (by decide) (by decide)).trans rfl
  · exact (decode_at 70 rfl (by decide) (by decide) (by decide)).trans rfl

theorem decode_macsuY1X0 (d : Accumulator) :
    decode (macsuY1X0 d) = .macSU 0 false d Reg.y1 Reg.x0 := by
  cases d
  · exact (decode_at 130 rfl (by decide) (by decide) (by decide)).trans rfl
  · exact (decode_at 130 rfl (by decide) (by decide) (by decide)).trans rfl

theorem decode_dmacssX1Y1 (d : Accumulator) :
    decode (dmacssX1Y1 d) = .dmac 0 false d Reg.x1 Reg.y1 := by
  cases d
  · exact (decode_at 70 rfl (by decide) (by decide) (by decide)).trans rfl
  · exact (decode_at 70 rfl (by decide) (by decide) (by decide)).trans rfl

section Instructions

variable (s : DspState σ) (d : Accumulator) (w : Word)

theorem stepped_mpyuuX0Y0 : Stepped s (s.instruct (decode (mpyuuX0Y0 d)) w) d
    (product true true false (s.dataWord Reg.x0) (s.dataWord Reg.y0)) := by
  rw [decode_mpyuuX0Y0, DspState.instruct_data (.mpySu 1 false d Reg.x0 Reg.y0) rfl]
  exact stepped_mpySu s (by decide) (by decide) (by decide) (by decide) d 1 false

theorem stepped_dmacsuX1Y0 : Stepped s (s.instruct (decode (dmacsuX1Y0 d)) w) d
    ((s.acc d).sshiftRight 24 +
      product false true false (s.dataWord Reg.x1) (s.dataWord Reg.y0)) := by
  rw [decode_dmacsuX1Y0, DspState.instruct_data (.dmac 2 false d Reg.x1 Reg.y0) rfl]
  exact stepped_dmac s (by decide) (by decide) (by decide) (by decide) d 2 false
    fun h => absurd h (by decide)

theorem stepped_macsuY1X0 : Stepped s (s.instruct (decode (macsuY1X0 d)) w) d
    (s.acc d + product false true false (s.dataWord Reg.y1) (s.dataWord Reg.x0)) := by
  rw [decode_macsuY1X0, DspState.instruct_data (.macSu 0 false d Reg.y1 Reg.x0) rfl]
  exact stepped_macSu s (by decide) (by decide) (by decide) (by decide) d 0 false

theorem stepped_dmacssX1Y1 (hsm : s.Unsaturated) :
    Stepped s (s.instruct (decode (dmacssX1Y1 d)) w) d ((s.acc d).sshiftRight 24 +
      product false false false (s.dataWord Reg.x1) (s.dataWord Reg.y1)) := by
  rw [decode_dmacssX1Y1, DspState.instruct_data (.dmac 0 false d Reg.x1 Reg.y1) rfl]
  exact stepped_dmac s (by decide) (by decide) (by decide) (by decide) d 0 false fun _ => hsm

end Instructions

namespace DspState

/-- The number in a register pair. -/
def longValue (s : DspState σ) (hi lo : RegIdx) : Int :=
  (s.dataWord hi).toInt * 2 ^ 24 + (s.dataWord lo).toNat

/-- The word in A0 or B0. -/
def lowWord (s : DspState σ) (d : Accumulator) : Nat := ((s.acc d).extractLsb' 0 24).toNat

end DspState

/-- The steps of a long multiplication: each sum is exact, and what the shifts drop was saved. -/
structure LongProduct (s s₁ s₂ s₃ s₄ : DspState σ) (d : Accumulator) : Prop where
  first : (s₁.acc d).toInt = 2 * ((s.dataWord Reg.x0).toNat * (s.dataWord Reg.y0).toNat)
  second : (s₂.acc d).toInt =
    (s₁.acc d).toInt / 2 ^ 24 + 2 * ((s.dataWord Reg.x1).toInt * (s.dataWord Reg.y0).toNat)
  third : (s₃.acc d).toInt =
    (s₂.acc d).toInt + 2 * ((s.dataWord Reg.y1).toInt * (s.dataWord Reg.x0).toNat)
  fourth : (s₄.acc d).toInt =
    (s₃.acc d).toInt / 2 ^ 24 + 2 * ((s.dataWord Reg.x1).toInt * (s.dataWord Reg.y1).toInt)
  total : s₁.lowWord d + 2 ^ 24 * s₃.lowWord d + 2 ^ 48 * (s₄.acc d).toInt =
    2 * s.longValue Reg.x1 Reg.x0 * s.longValue Reg.y1 Reg.y0

/-- Word by word multiplication, the finished words taken off before each shift. -/
theorem long_product {B x₁ x₀ y₁ y₀ t₁ t₂ t₃ t₄ : Int} (h₁ : t₁ = 2 * (x₀ * y₀))
    (h₂ : t₂ = t₁ / B + 2 * (x₁ * y₀)) (h₃ : t₃ = t₂ + 2 * (y₁ * x₀))
    (h₄ : t₄ = t₃ / B + 2 * (x₁ * y₁)) :
    t₁ % B + B * (t₃ % B) + B ^ 2 * t₄ = 2 * (x₁ * B + x₀) * (y₁ * B + y₀) := by
  have hlow := Int.emod_add_mul_ediv t₁ B
  have hmid := Int.emod_add_mul_ediv t₃ B
  linear_combination hlow + B * hmid + h₁ + B * h₂ + B * h₃ + B ^ 2 * h₄

theorem toInt_sshiftRight_word (v : BitVec 56) : (v.sshiftRight 24).toInt = v.toInt / 2 ^ 24 := by
  rw [BitVec.toInt_sshiftRight, Int.shiftRight_eq_div_pow]
  rfl

theorem longProduct_exact {s : DspState σ} (hsm : s.Unsaturated) (d : Accumulator)
    (w₁ w₂ w₃ w₄ : Word) :
    let s₁ := s.instruct (decode (mpyuuX0Y0 d)) w₁
    let s₂ := s₁.instruct (decode (dmacsuX1Y0 d)) w₂
    let s₃ := s₂.instruct (decode (macsuY1X0 d)) w₃
    let s₄ := s₃.instruct (decode (dmacssX1Y1 d)) w₄
    LongProduct s s₁ s₂ s₃ s₄ d := by
  intro s₁ s₂ s₃ s₄
  have h₁ := stepped_mpyuuX0Y0 s d w₁
  have h₂ := stepped_dmacsuX1Y0 s₁ d w₂
  have h₃ := stepped_macsuY1X0 s₂ d w₃
  have h₄ := stepped_dmacssX1Y1 s₃ d w₄ (h₃.sm.trans (h₂.sm.trans (h₁.sm.trans hsm)))
  have hx (r : RegIdx) (hr : DspState.Outside r) (hsr : r ≠ Reg.sr) :
      s₁.dataWord r = s.dataWord r ∧ s₂.dataWord r = s.dataWord r ∧
        s₃.dataWord r = s.dataWord r := by
    have e₁ := h₁.dataWord hr hsr
    have e₂ := (h₂.dataWord hr hsr).trans e₁
    exact ⟨e₁, e₂, (h₃.dataWord hr hsr).trans e₂⟩
  obtain ⟨b₁, b₁'⟩ := mul_bounds true true (s.dataWord Reg.x0) (s.dataWord Reg.y0)
  obtain ⟨b₂, b₂'⟩ := mul_bounds false true (s.dataWord Reg.x1) (s.dataWord Reg.y0)
  obtain ⟨b₃, b₃'⟩ := mul_bounds false true (s.dataWord Reg.y1) (s.dataWord Reg.x0)
  obtain ⟨b₄, b₄'⟩ := mul_bounds false false (s.dataWord Reg.x1) (s.dataWord Reg.y1)
  have v₁ : (s₁.acc d).toInt = 2 * (operandValue true (s.dataWord Reg.x0) *
      operandValue true (s.dataWord Reg.y0)) := by
    rw [h₁.acc, toInt_product, if_neg (by decide)]
  have v₂ : (s₂.acc d).toInt = (s₁.acc d).toInt / 2 ^ 24 +
      2 * (operandValue false (s.dataWord Reg.x1) * operandValue true (s.dataWord Reg.y0)) := by
    rw [h₂.acc, (hx Reg.x1 (by decide) (by decide)).1, (hx Reg.y0 (by decide) (by decide)).1,
      BitVec.toInt_add, toInt_sshiftRight_word, toInt_product, if_neg (by decide),
      bmod_eq_self (by decide) ⟨by omega, by omega⟩]
  have v₃ : (s₃.acc d).toInt = (s₂.acc d).toInt +
      2 * (operandValue false (s.dataWord Reg.y1) * operandValue true (s.dataWord Reg.x0)) := by
    rw [h₃.acc, (hx Reg.y1 (by decide) (by decide)).2.1, (hx Reg.x0 (by decide) (by decide)).2.1,
      BitVec.toInt_add, toInt_product, if_neg (by decide),
      bmod_eq_self (by decide) ⟨by omega, by omega⟩]
  have v₄ : (s₄.acc d).toInt = (s₃.acc d).toInt / 2 ^ 24 +
      2 * (operandValue false (s.dataWord Reg.x1) * operandValue false (s.dataWord Reg.y1)) := by
    rw [h₄.acc, (hx Reg.x1 (by decide) (by decide)).2.2, (hx Reg.y1 (by decide) (by decide)).2.2,
      BitVec.toInt_add, toInt_sshiftRight_word, toInt_product, if_neg (by decide),
      bmod_eq_self (by decide) ⟨by omega, by omega⟩]
  refine ⟨v₁, v₂, v₃, v₄, ?_⟩
  rw [DspState.lowWord, DspState.lowWord, low_toNat, low_toNat]
  exact long_product v₁ v₂ v₃ v₄

/-- Numbers with all bits of their low words set. -/
theorem longProduct_exact_corner :
    let s := DspState.ofRegs [(Reg.x1, 0x800000), (Reg.x0, 0xFFFFFF), (Reg.y1, 0x7FFFFF),
      (Reg.y0, 0xFFFFFF)]
    let s₁ := s.instruct (decode (mpyuuX0Y0 .a)) 0
    let s₂ := s₁.instruct (decode (dmacsuX1Y0 .a)) 0
    let s₃ := s₂.instruct (decode (macsuY1X0 .a)) 0
    let s₄ := s₃.instruct (decode (dmacssX1Y1 .a)) 0
    LongProduct s s₁ s₂ s₃ s₄ .a :=
  longProduct_exact (by decide) .a 0 0 0 0

end Dsp56300
