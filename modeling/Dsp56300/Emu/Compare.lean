import Dsp56300.Emu.AluEffects

/-! Comparisons, sums and differences, and the conditions that follow them. -/

namespace Dsp56300

open Emitter AluState Lib.Bits Lib.Words SrUpdate

variable {σ : Type}

/-! Order, as the conditions tell it. -/

/-- Whether a condition holds. -/
def DspState.CcHolds (s : DspState σ) (code : CondCode) : Prop := code.eval (s.registers Reg.sr) ≠ 0

structure SignedOrder (t : DspState σ) (x y : Int) : Prop where
  ge : t.CcHolds .ge ↔ y ≤ x
  lt : t.CcHolds .lt ↔ x < y
  gt : t.CcHolds .gt ↔ y < x
  le : t.CcHolds .le ↔ x ≤ y
  eq : t.CcHolds .eq ↔ x = y
  ne : t.CcHolds .ne ↔ x ≠ y

structure UnsignedOrder (t : DspState σ) (x y : Nat) : Prop where
  eq : t.CcHolds .eq ↔ x = y
  ne : t.CcHolds .ne ↔ x ≠ y
  cc : t.CcHolds .cc ↔ y ≤ x
  cs : t.CcHolds .cs ↔ x < y

/-- C, V, N and Z of a sum or difference. -/
structure Flagged (t : DspState σ) (isSub : Bool) (x y : BitVec 56) (c : Bool) : Prop where
  carry : flag (t.registers Reg.sr) Sr.c = carryOut isSub x y c
  overflow : flag (t.registers Reg.sr) Sr.v = !decide (Fits 56 (exactSum isSub x y c))
  negative : flag (t.registers Reg.sr) Sr.n = (addSub isSub x y c).msb
  zero : flag (t.registers Reg.sr) Sr.z = decide (addSub isSub x y c = 0)

section Order

variable {t : DspState σ} {isSub : Bool} {x y : BitVec 56} {c : Bool}

theorem flagged_of_flags (sr : Word) (h : ∀ k, flag (regMasks Reg.sr) k = true →
    flag (t.registers Reg.sr) k = addSubFlags isSub x y c sr k) : Flagged t isSub x y c := by
  refine ⟨?_, ?_, ?_, ?_⟩
  · rw [h _ (by decide), addSubFlags, if_pos rfl]
  · rw [h _ (by decide)]
    simp +decide [addSubFlags, resultFlags]
  · rw [h _ (by decide)]
    simp +decide [addSubFlags, resultFlags]
  · rw [h _ (by decide)]
    simp +decide [addSubFlags, resultFlags]

theorem addSub_sub {w : Nat} (x y : BitVec w) : addSub true x y false = x - y := by
  rw [addSub, if_pos rfl, bit_false, BitVec.sub_zero]

theorem Flagged.less (h : Flagged t true x y false) :
    (flag (t.registers Reg.sr) Sr.n ^^ flag (t.registers Reg.sr) Sr.v) =
      decide (x.toInt < y.toInt) := by
  have hexact : exactSum true x y false = x.toInt - y.toInt := by
    rw [exactSum, if_pos rfl]
    exact Int.sub_zero _
  rw [h.negative, h.overflow, hexact, addSub_sub, sub_sign_overflow x y (by decide)]

theorem Flagged.equal (h : Flagged t true x y false) :
    flag (t.registers Reg.sr) Sr.z = decide (x = y) := by
  rw [h.zero, addSub_sub]
  exact decide_eq_decide.mpr (sub_eq_zero_iff x y)

theorem Flagged.signed (h : Flagged t true x y false) : SignedOrder t x.toInt y.toInt := by
  have hless := h.less
  have hequal := h.equal
  have heq : x = y ↔ x.toInt = y.toInt := BitVec.toInt_inj.symm
  simp only [heq] at hequal
  have htest (code : CondCode) : t.CcHolds code ↔ code.test (t.registers Reg.sr) = true :=
    CondCode.eval_ne_zero code _
  refine ⟨?_, ?_, ?_, ?_, ?_, ?_⟩
  · simp [htest, CondCode.test, hless]
  · simp [htest, CondCode.test, hless]
  · simp only [htest, CondCode.test, hless, hequal, Bool.not_eq_true', Bool.or_eq_false_iff,
      decide_eq_false_iff_not]
    omega
  · simp only [htest, CondCode.test, hless, hequal, Bool.or_eq_true, decide_eq_true_eq]
    omega
  · simp [htest, CondCode.test, hequal]
  · simp [htest, CondCode.test, hequal]

/-- The conditions that Z and C decide. -/
theorem unsignedOrder_of_flags {x y : Nat} (hz : flag (t.registers Reg.sr) Sr.z = decide (x = y))
    (hc : flag (t.registers Reg.sr) Sr.c = decide (x < y)) : UnsignedOrder t x y := by
  have htest (code : CondCode) : t.CcHolds code ↔ code.test (t.registers Reg.sr) = true :=
    CondCode.eval_ne_zero code _
  refine ⟨?_, ?_, ?_, ?_⟩
  · simp [htest, CondCode.test, hz]
  · simp [htest, CondCode.test, hz]
  · simp [htest, CondCode.test, hc]
  · simp [htest, CondCode.test, hc]

theorem Flagged.unsigned (h : Flagged t true x y false) : UnsignedOrder t x.toNat y.toNat := by
  apply unsignedOrder_of_flags
  · rw [h.equal]
    exact decide_eq_decide.mpr BitVec.toNat_inj.symm
  · exact h.carry

end Order

/-! The operations. -/

inductive Operation where
  | cmp | cmpm | cmpu | add | sub | adc | sbc

/-- The other operand: an accumulator, a data register, a short or a long immediate, or a register
pair. -/
inductive Source where
  | acc (src : Accumulator)
  | reg (src : RegIdx)
  | short (imm : Byte)
  | long (nextWord : Word)
  | pair (hi lo : RegIdx)

/-- An operation on accumulator `d`, where it takes such a source. -/
def Operation.run (s : DspState σ) (d : Accumulator) : Operation → Source → Option (DspState σ)
  | .cmp, .acc src => some (s.execute (.parallelAlu (.cmpAcc src d)))
  | .cmp, .reg src => some (s.execute (.parallelAlu (.cmpReg src d)))
  | .cmp, .short imm => some (s.instruct (.cmpImm imm d) 0)
  | .cmp, .long nextWord => some (s.instruct (.cmpLong d) nextWord)
  | .cmpm, .acc src => some (s.execute (.parallelAlu (.cmpmAcc src d)))
  | .cmpm, .reg src => some (s.execute (.parallelAlu (.cmpmReg src d)))
  | .cmpu, .acc .a => some (s.instruct (.cmpU Reg.a d) 0)
  | .cmpu, .acc .b => some (s.instruct (.cmpU Reg.b d) 0)
  | .cmpu, .reg src => some (s.instruct (.cmpU src d) 0)
  | .add, .acc src => some (s.execute (.parallelAlu (.addAcc src d)))
  | .add, .reg src => some (s.execute (.parallelAlu (.addReg src d)))
  | .add, .short imm => some (s.instruct (.addImm imm d) 0)
  | .add, .long nextWord => some (s.instruct (.addLong d) nextWord)
  | .add, .pair hi lo => some (s.execute (.parallelAlu (.addXY hi lo d)))
  | .sub, .acc src => some (s.execute (.parallelAlu (.subAcc src d)))
  | .sub, .reg src => some (s.execute (.parallelAlu (.subReg src d)))
  | .sub, .short imm => some (s.instruct (.subImm imm d) 0)
  | .sub, .long nextWord => some (s.instruct (.subLong d) nextWord)
  | .sub, .pair hi lo => some (s.execute (.parallelAlu (.subXY hi lo d)))
  | .adc, .pair hi lo => some (s.execute (.parallelAlu (.adc hi lo d)))
  | .sbc, .pair hi lo => some (s.execute (.parallelAlu (.sbc hi lo d)))
  | _, _ => none

namespace Source

/-- The operand at the width of an accumulator. -/
def value (s : DspState σ) : Source → BitVec 56
  | acc src => s.acc src
  | reg src => wordAcc (s.dataWord src)
  | short imm => wordAcc (imm.setWidth 24)
  | long nextWord => wordAcc (nextWord.setWidth 24)
  | pair hi lo => (s.dataWord hi ++ s.dataWord lo).signExtend 56

/-- The data registers, and the pairs X and Y of them. -/
def Valid : Source → Prop
  | reg src => src ∈ [Reg.x0, Reg.x1, Reg.y0, Reg.y1]
  | pair hi lo => (hi, lo) ∈ [(Reg.x1, Reg.x0), (Reg.y1, Reg.y0)]
  | _ => True

end Source

/-- The data registers hold words. -/
def DspState.DataWords (s : DspState σ) : Prop :=
  ∀ r ∈ [Reg.x0, Reg.x1, Reg.y0, Reg.y1], (s.registers r).toNat < 2 ^ 24

instance (s : DspState σ) : Decidable s.DataWords :=
  inferInstanceAs
    (Decidable (∀ r ∈ [Reg.x0, Reg.x1, Reg.y0, Reg.y1], (s.registers r).toNat < 2 ^ 24))

/-- The result is the exact one up to its width, C its carry or borrow, and V tells where it does
not fit. -/
structure Exact (t : DspState σ) (d : Accumulator) (isSub : Bool) (x y : BitVec 56) (c : Bool) :
    Prop where
  result : t.acc d = addSub isSub x y c
  carry : flag (t.registers Reg.sr) Sr.c = carryOut isSub x y c
  overflow : flag (t.registers Reg.sr) Sr.v = true ↔ ¬ Fits 56 (exactSum isSub x y c)

/-- What an operation from `s` to `t` tells of the accumulator's value `x` and the operand `y`. -/
def Operation.Tells (s t : DspState σ) (d : Accumulator) (x y : BitVec 56) : Operation → Prop
  | .cmp => SignedOrder t x.toInt y.toInt ∧ UnsignedOrder t x.toNat y.toNat
  | .cmpm => x.toInt ≠ -2 ^ 55 → y.toInt ≠ -2 ^ 55 →
    SignedOrder t x.toInt.natAbs y.toInt.natAbs ∧ UnsignedOrder t x.toInt.natAbs y.toInt.natAbs
  | .cmpu => UnsignedOrder t (x.toNat % 2 ^ 48) (y.toNat % 2 ^ 48)
  | .add => s.Unsaturated → Exact t d false x y false
  | .sub => s.Unsaturated →
    (SignedOrder t x.toInt y.toInt ∧ UnsignedOrder t x.toNat y.toNat) ∧ Exact t d true x y false
  | .adc => s.Unsaturated → Exact t d false x y (flag (s.registers Reg.sr) Sr.c)
  | .sbc => s.Unsaturated → Exact t d true x y (flag (s.registers Reg.sr) Sr.c)

/-! The operands as compiled code has them. -/

section Operands

variable (s : DspState σ)

theorem data_outside {r : RegIdx} (h : r ∈ [Reg.x0, Reg.x1, Reg.y0, Reg.y1]) :
    DspState.Outside r ∧ r ≠ Reg.sr := by
  revert r
  decide

theorem data_not_acc {r : RegIdx} (h : r ∈ [Reg.x0, Reg.x1, Reg.y0, Reg.y1]) :
    ¬ (r = Reg.a ∨ r = Reg.b) := by
  revert r
  decide

theorem value_loadData {r : RegIdx} (h : r ∈ [Reg.x0, Reg.x1, Reg.y0, Reg.y1]) :
    Alu.value (Alu.loadReg24AsAcc56 r) (enter s) = ((Source.reg r).value s).setWidth 64 := by
  obtain ⟨hout, hsr⟩ := data_outside h
  rw [Alu.loadReg24AsAcc56, Alu.value_bind, Alu.value_pure, Alu.value_loadOuter _ hout hsr,
    val24ToAcc56_eq]
  rfl

theorem after_loadData (r : RegIdx) :
    Alu.after (Alu.loadReg24AsAcc56 r) (enter s) = enter s := by
  rw [Alu.loadReg24AsAcc56, Alu.after_bind, Alu.after_pure, Alu.after_loadReg]

theorem setWidth_signExtend_pair (x : BitVec 48) :
    (x.signExtend 64).setWidth 56 = x.signExtend 56 := by
  apply BitVec.eq_of_getLsbD_eq
  intro i hi
  have hi' : i < 64 := by omega
  rw [BitVec.getLsbD_setWidth, BitVec.getLsbD_signExtend, BitVec.getLsbD_signExtend,
    decide_eq_true hi, decide_eq_true hi', Bool.true_and]

theorem pair_value {hi lo : Word} (hlo : lo.toNat < 2 ^ 24) :
    mask56 ((((hi.setWidth 64 <<< 24) ||| lo.setWidth 64) <<< 16).sshiftRight 16) =
      ((hi.setWidth 24 ++ lo.setWidth 24).signExtend 56).setWidth 64 := by
  have hword : ((hi.setWidth 64 <<< 24) ||| lo.setWidth 64).setWidth 48 =
      hi.setWidth 24 ++ lo.setWidth 24 := by
    apply BitVec.eq_of_getLsbD_eq
    intro i hi'
    rw [BitVec.getLsbD_append]
    by_cases h24 : i < 24
    · simp [h24, hi']
    · have hge : lo.getLsbD i = false := by
        rw [BitVec.getLsbD]
        exact Nat.testBit_lt_two_pow (hlo.trans_le (Nat.pow_le_pow_right (by decide) (by omega)))
      have hlt : i - 24 < 24 := by omega
      simp [h24, hi', hge, hlt]
  rw [shiftLeft_sshiftRight _ (by decide), hword, mask56_eq, setWidth_signExtend_pair]

theorem value_loadPair {hi lo : RegIdx} (hs : s.DataWords) (h : (Source.pair hi lo).Valid) :
    Alu.value (Alu.loadXyAsAcc56 hi lo) (enter s) = ((Source.pair hi lo).value s).setWidth 64 ∧
      Alu.after (Alu.loadXyAsAcc56 hi lo) (enter s) = enter s := by
  have hregs : hi ∈ [Reg.x0, Reg.x1, Reg.y0, Reg.y1] ∧ lo ∈ [Reg.x0, Reg.x1, Reg.y0, Reg.y1] := by
    simp only [Source.Valid, List.mem_cons, List.not_mem_nil, or_false, Prod.mk.injEq] at h
    rcases h with ⟨rfl, rfl⟩ | ⟨rfl, rfl⟩
    · decide
    · decide
  obtain ⟨hhi, hhi'⟩ := data_outside hregs.1
  obtain ⟨hlo, hlo'⟩ := data_outside hregs.2
  refine ⟨?_, ?_⟩
  · rw [Alu.loadXyAsAcc56]
    simp only [Alu.value_bind, Alu.value_pure, Alu.value_loadOuter _ hhi hhi',
      Alu.after_loadReg, Alu.value_loadOuter _ hlo hlo', enter_dsp]
    exact pair_value (hs lo hregs.2)
  · simp only [Alu.loadXyAsAcc56, Alu.after_bind, Alu.after_pure, Alu.after_loadReg]

end Operands

/-! What each run leaves. -/

section Runs

variable {s : DspState σ} (d : Accumulator)

theorem addSub_plain {w : Nat} (isSub : Bool) (x y : BitVec w) :
    (if isSub then x - y else x + y) = addSub isSub x y false := by
  cases isSub
  · rw [if_neg Bool.false_ne_true, addSub, if_neg Bool.false_ne_true, bit_false, BitVec.add_zero]
  · rw [if_pos rfl, addSub, if_pos rfl, bit_false, BitVec.sub_zero]

/-- The flags of a sum or difference as the last thing of an instruction. -/
theorem flagged_of_pending {t : AluState σ} (ht : t.pendingFlags = none) (hneeds : t.smNeedsSat = 0)
    (isSub : Bool) (x y : BitVec 56) (c : Bool) :
    Flagged (t.setPending (.aluAddSub ((addSub isSub x y c).setWidth 64) (y.setWidth 64)
      (x.setWidth 64) (addSub isSub (x.setWidth 64) (y.setWidth 64) c) isSub)).finalize
      isSub x y c := by
  refine flagged_of_flags t.sr fun k hk => ?_
  rw [finalize_setPending_sr ht, hneeds, flag_aluAddSub isSub x y c t.sr hk]

/-- A comparison keeps the accumulator. -/
theorem after_compare (isSub : Bool) (y : BitVec 56) :
    Alu.after (Alu.emitAccAddsub (y.setWidth 64) d isSub false) (enter s) =
      (enter s).setPending (.aluAddSub ((addSub isSub (s.acc d) y false).setWidth 64)
        (y.setWidth 64) ((s.acc d).setWidth 64)
        (addSub isSub ((s.acc d).setWidth 64) (y.setWidth 64) false) isSub) := by
  simp only [Alu.emitAccAddsub, Alu.after_bind, Alu.value_loadAcc, Alu.after_loadAcc, enter_acc,
    DspState.reloadAcc_eq, addSub_plain, mask56_addSub, Bool.false_eq_true, if_false,
    Alu.after_setPending]

theorem after_store (hsm : s.Unsaturated) (isSub : Bool) (y : BitVec 56) :
    Alu.after (Alu.emitAccAddsub (y.setWidth 64) d isSub true) (enter s) =
      (((enter s).setNeedsSat 0).setAcc d ((addSub isSub (s.acc d) y false).setWidth 64)).setPending
        (.aluAddSub ((addSub isSub (s.acc d) y false).setWidth 64) (y.setWidth 64)
          ((s.acc d).setWidth 64)
          (addSub isSub ((s.acc d).setWidth 64) (y.setWidth 64) false) isSub) := by
  have hoff : flag (enter s).sr Sr.sm = false := hsm
  simp only [Alu.emitAccAddsub, Alu.after_bind, Alu.value_loadAcc, Alu.after_loadAcc, enter_acc,
    DspState.reloadAcc_eq, addSub_plain, mask56_addSub, if_true, Alu.value_saturate_off hoff,
    Alu.after_saturate_off hoff, Alu.after_storeAcc, Alu.after_setPending]

/-- An addition or subtraction with the carry, of a register pair. -/
theorem after_adcSbc (hsm : s.Unsaturated) (hs : s.DataWords) {hi lo : RegIdx}
    (h : (Source.pair hi lo).Valid) (isSub : Bool) :
    Alu.after (Alu.emitAluAdcSbc hi lo d isSub) (enter s) =
      (((enter s).setNeedsSat 0).setAcc d ((addSub isSub (s.acc d) ((Source.pair hi lo).value s)
          (flag (s.registers Reg.sr) Sr.c)).setWidth 64)).setPending
        (.aluAddSub ((addSub isSub (s.acc d) ((Source.pair hi lo).value s)
            (flag (s.registers Reg.sr) Sr.c)).setWidth 64)
          (((Source.pair hi lo).value s).setWidth 64) ((s.acc d).setWidth 64)
          (addSub isSub ((s.acc d).setWidth 64) (((Source.pair hi lo).value s).setWidth 64)
            (flag (s.registers Reg.sr) Sr.c)) isSub) := by
  have hoff : flag (enter s).sr Sr.sm = false := hsm
  obtain ⟨hvalue, hafter⟩ := value_loadPair s hs h
  have hcarry : ((s.registers Reg.sr &&& 1).setWidth 64 : BitVec 64) =
      bit 64 (flag (s.registers Reg.sr) Sr.c) := by
    rw [show (1 : Word) = 1#32 from rfl, and_one, setWidth_bit (by decide) (by decide)]
    rfl
  have hsum (x y : BitVec 64) (c : Bool) : (if isSub then x - y - bit 64 c else x + y + bit 64 c) =
      addSub isSub x y c := rfl
  simp only [Alu.emitAluAdcSbc, Alu.after_bind, hvalue, hafter, Alu.value_loadAcc,
    Alu.after_loadAcc, enter_acc, DspState.reloadAcc_eq, Alu.value_loadSr, Alu.after_loadSr,
    flush_settled (enter_pendingFlags s), enter_sr, hcarry, hsum, mask56_addSub,
    Alu.value_saturate_off hoff, Alu.after_saturate_off hoff, Alu.after_storeAcc,
    Alu.after_setPending]

theorem exact_of_run (isSub : Bool) (y : BitVec 56) (c : Bool) :
    Exact ((((enter s).setNeedsSat 0).setAcc d
      ((addSub isSub (s.acc d) y c).setWidth 64)).setPending
        (.aluAddSub ((addSub isSub (s.acc d) y c).setWidth 64) (y.setWidth 64)
          ((s.acc d).setWidth 64) (addSub isSub ((s.acc d).setWidth 64) (y.setWidth 64) c)
          isSub)).finalize d isSub (s.acc d) y c := by
  have hflagged := flagged_of_pending (t := ((enter s).setNeedsSat 0).setAcc d
    ((addSub isSub (s.acc d) y c).setWidth 64)) rfl rfl isSub (s.acc d) y c
  refine ⟨?_, hflagged.carry, ?_⟩
  · rw [finalize_setPending_acc rfl (((Coherent.enter s).setNeedsSat 0).setAcc d _), setAcc_acc,
      widen_narrow]
  · rw [hflagged.overflow, Bool.not_eq_true', decide_eq_false_iff_not]

theorem sign_word (x : BitVec 56) :
    ((x.setWidth 64 >>> 55).setWidth 32 : Word) = bit 32 x.msb := by
  apply BitVec.eq_of_toNat_eq
  have hlt := x.isLt
  rw [toNat_bit (by decide), BitVec.toNat_setWidth, BitVec.toNat_ushiftRight,
    Nat.shiftRight_eq_div_pow, BitVec.toNat_setWidth_of_le (by decide), BitVec.msb_eq_decide]
  by_cases h : 2 ^ (56 - 1) ≤ x.toNat
  · rw [decide_eq_true h]
    change _ = 1
    omega
  · rw [decide_eq_false h]
    change _ = 0
    omega

theorem mask56_neg (x : BitVec 56) : mask56 (0 - x.setWidth 64) = (-x).setWidth 64 := by
  have h0 : (0 : BitVec 64) = (0 : BitVec 56).setWidth 64 := rfl
  rw [h0, mask56_sub, BitVec.sub_eq_add_neg]
  exact congrArg (BitVec.setWidth 64) (BitVec.zero_add _)

theorem abs56_eq (x : BitVec 56) : abs56 (x.setWidth 64) = x.abs.setWidth 64 := by
  rw [abs56, sign_word, mask56_neg, BitVec.abs_eq]
  cases x.msb
  · rw [if_neg (by decide), if_neg Bool.false_ne_true]
  · rw [if_pos (by decide), if_pos rfl]

theorem flagged_cmpm (x y : BitVec 56) :
    Flagged (Alu.after (Alu.emitCmpm (y.setWidth 64) (x.setWidth 64)) (enter s)).finalize true x.abs
      y.abs false := by
  have hsum (u v : BitVec 64) : u - v = addSub true u v false := addSub_plain true u v
  simp only [Alu.emitCmpm, abs56_eq, Alu.after_setPending, hsum, mask56_addSub]
  refine flagged_of_flags (enter s).sr fun k _ => ?_
  rw [finalize_setPending_sr rfl, flag_nzVclSub]

/-- Below the largest magnitude, absolute values order as the numbers do. -/
theorem toNat_abs {x : BitVec 56} (hx : x.toInt ≠ -2 ^ 55) :
    x.abs.toInt = x.toInt.natAbs ∧ x.abs.toNat = x.toInt.natAbs := by
  have hmin : x ≠ BitVec.intMin 56 := fun h => hx (by rw [h]; rfl)
  have hint := BitVec.toInt_abs_eq_natAbs_of_ne_intMin hmin
  have hlt := x.abs.isLt
  refine ⟨hint, ?_⟩
  rw [BitVec.toInt_eq_toNat_cond] at hint
  split at hint <;> omega

/-! Unsigned comparison. -/

/-- 48 bits of an accumulator. -/
def unsigned48 (x : BitVec 56) : BitVec 48 := x.setWidth 48

theorem mask48_eq (x : BitVec 56) :
    x.setWidth 64 &&& 0x0000FFFFFFFFFFFF = (unsigned48 x).setWidth 64 := by
  have hm : (0x0000FFFFFFFFFFFF : BitVec 64).toNat = 2 ^ 48 - 1 := rfl
  have hcut : (x.setWidth 64).setWidth 48 = x.setWidth 48 :=
    BitVec.setWidth_setWidth_of_le _ (by decide)
  rw [and_lowMask hm (by decide), hcut, unsigned48]

/-- SR after an unsigned comparison. -/
def cmpuSr (x y : BitVec 48) (n : Bool) (sr : Word) : Word :=
  store (clear ((1#32 <<< Sr.n) ||| (1#32 <<< Sr.z) ||| (1#32 <<< Sr.v) ||| (1#32 <<< Sr.c)) sr |||
    shiftToBit (bit 32 (carryOut true x y false)) Sr.c |||
    shiftToBit (bit 32 (decide (x = y))) Sr.z ||| shiftToBit (bit 32 n) Sr.n)

theorem flag_cmpuSr (x y : BitVec 48) (n : Bool) (sr : Word) :
    flag (cmpuSr x y n sr) Sr.z = decide (x = y) ∧
      flag (cmpuSr x y n sr) Sr.c = decide (x.toNat < y.toNat) := by
  have hcarry : carryOut true x y false = decide (x.toNat < y.toNat) := rfl
  have hshift (b : Bool) {f : Nat} (hf : f < 32) (k : Nat) := flag_shiftToBit b hf k
  refine ⟨?_, ?_⟩
  · rw [cmpuSr, flag_store, flag_or, flag_or, flag_or, hshift _ (by decide), hshift _ (by decide),
      hshift _ (by decide)]
    simp +decide
  · rw [cmpuSr, flag_store, flag_or, flag_or, flag_or, hshift _ (by decide), hshift _ (by decide),
      hshift _ (by decide), hcarry]
    simp +decide

theorem unsignedOrder_cmpu {t : DspState σ} {x y : BitVec 48} {n : Bool} {sr : Word}
    (h : t.registers Reg.sr = cmpuSr x y n sr) : UnsignedOrder t x.toNat y.toNat := by
  obtain ⟨hz, hc⟩ := flag_cmpuSr x y n sr
  rw [← h] at hz hc
  apply unsignedOrder_of_flags _ hc
  rw [hz]
  exact decide_eq_decide.mpr BitVec.toNat_inj.symm

theorem execute_cmpu {src : RegIdx} {y : BitVec 48}
    (hvalue : Alu.value (Alu.cmpuSource src) (enter s) = y.setWidth 64)
    (hafter : Alu.after (Alu.cmpuSource src) (enter s) = enter s) :
    ∃ n, (s.execute (.cmpu src d)).registers Reg.sr =
      cmpuSr (unsigned48 (s.acc d)) y n (s.registers Reg.sr) := by
  have hsum (u v : BitVec 64) : u - v = addSub true u v false := addSub_plain true u v
  have hcarry (x : BitVec 48) :
      extractBitI64 (addSub true (x.setWidth 64) (y.setWidth 64) false) 48 =
        bit 32 (carryOut true x y false) := by
    rw [extractBitI64_eq (k := 48) _ rfl (by decide), getLsbD_addSub true x y false (by decide)]
  have hzero (x : BitVec 48) :
      (if addSub true (x.setWidth 64) (y.setWidth 64) false &&& 0x0000FFFFFFFFFFFF = 0 then
        (1 : Word) else 0) = bit 32 (decide (x = y)) := by
    have hm : (0x0000FFFFFFFFFFFF : BitVec 64).toNat = 2 ^ 48 - 1 := rfl
    have hiff : (x - y).setWidth 64 = 0 ↔ x = y :=
      (setWidth_eq_zero_iff (by decide) _).trans (sub_eq_zero_iff x y)
    rw [and_lowMask hm (by decide), setWidth_addSub true x y false (by decide) (by decide),
      addSub_sub]
    by_cases h : x = y
    · rw [if_pos (hiff.mpr h), decide_eq_true h]
      rfl
    · rw [if_neg (mt hiff.mp h), decide_eq_false h]
      rfl
  refine ⟨(addSub true ((unsigned48 (s.acc d)).setWidth 64) (y.setWidth 64) false).getLsbD 55, ?_⟩
  have hneg (x : BitVec 64) : extractBitI64 (mask56 x) 55 = bit 32 (x.getLsbD 55) := by
    rw [extractBitI64_eq (k := 55) _ rfl (by decide), mask56_eq]
    simp
  rw [DspState.execute_eq, DataPath.emit]
  simp only [Alu.emitCmpu, Alu.after_bind, Alu.value_loadAcc, Alu.after_loadAcc, hvalue, hafter,
    enter_acc, DspState.reloadAcc_eq, mask48_eq, hsum, Alu.value_clearSrFlags,
    Alu.after_clearSrFlags, flush_settled (enter_pendingFlags s), enter_sr, hcarry, hzero, hneg,
    Alu.after_storeSr]
  rw [storeSr_settled _ rfl, finalize_sr, flush_settled rfl, setSr_sr, cmpuSr]

/-- Where the source of CMPU holds the low 48 bits of the operand. -/
theorem cmpu_tells {src : RegIdx} {y : BitVec 56} {t : DspState σ}
    (hvalue : Alu.value (Alu.cmpuSource src) (enter s) = (unsigned48 y).setWidth 64)
    (hafter : Alu.after (Alu.cmpuSource src) (enter s) = enter s)
    (ht : s.instruct (.cmpU src d) 0 = t) :
    UnsignedOrder t ((s.acc d).toNat % 2 ^ 48) (y.toNat % 2 ^ 48) := by
  obtain ⟨n, hsr⟩ := execute_cmpu d hvalue hafter
  have horder := unsignedOrder_cmpu hsr
  have hrun : s.instruct (.cmpU src d) 0 = s.execute (.cmpu src d) :=
    DspState.instruct_data (.cmpu src d) rfl
  rw [← ht, hrun]
  simpa only [unsigned48, BitVec.toNat_setWidth] using horder

/-- A word at the top of 48 bits. -/
theorem unsigned48_word {w : Word} (hw : w.toNat < 2 ^ 24) :
    val24ToAcc56Unsigned w = (unsigned48 (wordAcc (w.setWidth 24))).setWidth 64 := by
  have hword (i : Nat) (hi : i < 48) : (unsigned48 (wordAcc (w.setWidth 24))).getLsbD i =
      (decide (24 ≤ i) && w.getLsbD (i - 24)) := by
    have hlt : i - 24 < 24 := by omega
    rw [unsigned48, BitVec.getLsbD_setWidth, getLsbD_wordAcc _ (by omega), if_pos hi,
      decide_eq_true hi, Bool.true_and, BitVec.getLsbD_setWidth, decide_eq_true hlt, Bool.true_and]
  apply BitVec.eq_of_getLsbD_eq
  intro i hi
  rw [val24ToAcc56Unsigned, mask56_eq]
  simp only [BitVec.getLsbD_setWidth, BitVec.getLsbD_shiftLeft, hi, decide_true, Bool.true_and]
  by_cases h48 : i < 48
  · have h56 : i < 56 := by omega
    have hlt : i - 24 < 64 := by omega
    rw [hword i h48]
    by_cases h24 : i < 24
    · simp [h24]
    · have hle : 24 ≤ i := by omega
      simp [h24, h56, hlt, hle]
  · have hge : w.getLsbD (i - 24) = false := by
      rw [BitVec.getLsbD]
      exact Nat.testBit_lt_two_pow (hw.trans_le (Nat.pow_le_pow_right (by decide) (by omega)))
    rw [hge, BitVec.getLsbD_of_ge _ i (by omega)]
    simp

namespace Operation

def subtracts : Operation → Bool
  | add | adc => false
  | cmp | cmpm | cmpu | sub | sbc => true

def stores : Operation → Bool
  | cmp | cmpm | cmpu => false
  | add | sub | adc | sbc => true

/-- The forms of CMP, ADD and SUB differ in how they load the operand. -/
theorem run_addSub (hs : s.DataWords) {src : Source} (hsrc : src.Valid) {op : Operation}
    (hop : op = cmp ∨ op = add ∨ op = sub) {t : DspState σ} (h : op.run s d src = some t) :
    t = (Alu.after (Alu.emitAccAddsub ((src.value s).setWidth 64) d op.subtracts op.stores)
      (enter s)).finalize := by
  have hshort (imm : Byte) : val24ToAcc56 (imm.setWidth 32) =
      ((Source.short imm).value s).setWidth 64 := by
    have hcut : (imm.setWidth 32).setWidth 24 = imm.setWidth 24 :=
      BitVec.setWidth_setWidth_of_le _ (by decide)
    rw [val24ToAcc56_eq, hcut, Source.value]
  have hinst {inst : Instruction} {w : Word} {y : BitVec 64} {isSub store : Bool} {len cycles : Nat}
      (h : emitInstructionBody inst s.pc w = emitData len cycles (.accAddsub y d isSub store)) :
      s.instruct inst w = (Alu.after (Alu.emitAccAddsub y d isSub store) (enter s)).finalize :=
    DspState.instruct_data _ h
  cases src with
  | acc src =>
    rcases hop with rfl | rfl | rfl
    all_goals
      obtain rfl := Option.some.inj h
      rw [DspState.execute_eq, DataPath.emit]
      simp only [Alu.emitParallelAlu, Alu.emitAluCmpAcc, Alu.emitAluAddAcc, Alu.emitAluSubAcc,
        Alu.after_bind, Alu.value_loadAcc, Alu.after_loadAcc, enter_acc, DspState.reloadAcc_eq,
        Source.value, subtracts, stores]
  | reg src =>
    rcases hop with rfl | rfl | rfl
    all_goals
      obtain rfl := Option.some.inj h
      rw [DspState.execute_eq, DataPath.emit]
      simp only [Alu.emitParallelAlu, Alu.emitAluCmpReg24, Alu.emitAluAddReg24,
        Alu.emitAluSubReg24, Alu.after_bind, value_loadData s hsrc, after_loadData, subtracts,
        stores]
  | short imm =>
    rcases hop with rfl | rfl | rfl
    all_goals
      obtain rfl := Option.some.inj h
      rw [hinst rfl, hshort]
      rfl
  | long nextWord =>
    rcases hop with rfl | rfl | rfl
    all_goals
      obtain rfl := Option.some.inj h
      rw [hinst rfl, val24ToAcc56_eq]
      rfl
  | pair hi lo =>
    obtain ⟨hvalue, hafter⟩ := value_loadPair s hs hsrc
    rcases hop with rfl | rfl | rfl
    · simp [run] at h
    all_goals
      obtain rfl := Option.some.inj h
      rw [DspState.execute_eq, DataPath.emit]
      simp only [Alu.emitParallelAlu, Alu.emitAluAddXy, Alu.emitAluSubXy, Alu.after_bind, hvalue,
        hafter, subtracts, stores]

theorem run_cmpm {src : Source} (hsrc : src.Valid) {t : DspState σ}
    (h : cmpm.run s d src = some t) :
    t = (Alu.after (Alu.emitCmpm ((src.value s).setWidth 64) ((s.acc d).setWidth 64))
      (enter s)).finalize := by
  cases src with
  | acc src =>
    obtain rfl := Option.some.inj h
    rw [DspState.execute_eq, DataPath.emit]
    simp only [Alu.emitParallelAlu, Alu.emitAluCmpmAcc, Alu.after_bind, Alu.value_loadAcc,
      Alu.after_loadAcc, enter_acc, DspState.reloadAcc_eq, Source.value]
  | reg src =>
    obtain rfl := Option.some.inj h
    rw [DspState.execute_eq, DataPath.emit]
    simp only [Alu.emitParallelAlu, Alu.emitAluCmpmReg24, Alu.after_bind, value_loadData s hsrc,
      after_loadData, Alu.value_loadAcc, Alu.after_loadAcc, enter_acc, DspState.reloadAcc_eq]
  | short imm => simp [run] at h
  | long nextWord => simp [run] at h
  | pair hi lo => simp [run] at h

theorem run_cmpu (hs : s.DataWords) {src : Source} (hsrc : src.Valid) {t : DspState σ}
    (h : cmpu.run s d src = some t) :
    UnsignedOrder t ((s.acc d).toNat % 2 ^ 48) ((src.value s).toNat % 2 ^ 48) := by
  have hacc (e : Accumulator) :
      Alu.value (Alu.cmpuSource (if e = .a then Reg.a else Reg.b)) (enter s) =
        (unsigned48 (s.acc e)).setWidth 64 := by
    have hload : Alu.value (Alu.cmpuSource (if e = .a then Reg.a else Reg.b)) (enter s) =
        s.reloadAcc e &&& 0x0000FFFFFFFFFFFF := by
      cases e <;> rfl
    rw [hload, DspState.reloadAcc_eq, mask48_eq]
  cases src with
  | acc src =>
    cases src with
    | a => exact cmpu_tells d (hacc .a) rfl (Option.some.inj h)
    | b => exact cmpu_tells d (hacc .b) rfl (Option.some.inj h)
  | reg src =>
    obtain ⟨hout, hsr⟩ := data_outside hsrc
    have hword := data_not_acc hsrc
    refine cmpu_tells d ?_ ?_ (Option.some.inj h)
    · rw [Alu.cmpuSource, if_neg hword, Alu.value_bind, Alu.value_pure,
        Alu.value_loadOuter _ hout hsr]
      exact unsigned48_word (hs src hsrc)
    · rw [Alu.cmpuSource, if_neg hword, Alu.after_bind, Alu.after_pure, Alu.after_loadReg]
  | short imm => simp [run] at h
  | long nextWord => simp [run] at h
  | pair hi lo => simp [run] at h

/-- ADC and SBC, which take pairs alone. -/
theorem run_adcSbc (hsm : s.Unsaturated) (hs : s.DataWords) {src : Source} (hsrc : src.Valid)
    {op : Operation} (hop : op = adc ∨ op = sbc) {t : DspState σ} (h : op.run s d src = some t) :
    Exact t d op.subtracts (s.acc d) (src.value s) (flag (s.registers Reg.sr) Sr.c) := by
  cases src with
  | pair hi lo =>
    have hexact := exact_of_run (s := s) d op.subtracts ((Source.pair hi lo).value s)
      (flag (s.registers Reg.sr) Sr.c)
    rw [← after_adcSbc d hsm hs hsrc] at hexact
    rcases hop with rfl | rfl
    all_goals
      obtain rfl := Option.some.inj h
      exact hexact
  | acc src => rcases hop with rfl | rfl <;> simp [run] at h
  | reg src => rcases hop with rfl | rfl <;> simp [run] at h
  | short imm => rcases hop with rfl | rfl <;> simp [run] at h
  | long nextWord => rcases hop with rfl | rfl <;> simp [run] at h

end Operation

end Runs

/-- Every operation tells the order of its operands, or the exact result. -/
theorem operation_tells {s : DspState σ} (hs : s.DataWords) {src : Source} (hsrc : src.Valid)
    (op : Operation) (d : Accumulator) {t : DspState σ} (h : op.run s d src = some t) :
    op.Tells s t d (s.acc d) (src.value s) := by
  cases op with
  | cmp =>
    have ht := Operation.run_addSub d hs hsrc (.inl rfl) h
    rw [Operation.subtracts, Operation.stores, after_compare] at ht
    have hflagged := flagged_of_pending (t := enter s) rfl rfl true (s.acc d) (src.value s) false
    rw [← ht] at hflagged
    exact ⟨hflagged.signed, hflagged.unsigned⟩
  | cmpm =>
    intro hx hy
    have hflagged := flagged_cmpm (s := s) (s.acc d) (src.value s)
    rw [← Operation.run_cmpm d hsrc h] at hflagged
    have hsigned := hflagged.signed
    have hunsigned := hflagged.unsigned
    rw [(toNat_abs hx).1, (toNat_abs hy).1] at hsigned
    rw [(toNat_abs hx).2, (toNat_abs hy).2] at hunsigned
    exact ⟨hsigned, hunsigned⟩
  | cmpu => exact Operation.run_cmpu d hs hsrc h
  | add =>
    intro hsm
    have ht := Operation.run_addSub d hs hsrc (.inr (.inl rfl)) h
    rw [Operation.subtracts, Operation.stores, after_store d hsm] at ht
    rw [ht]
    exact exact_of_run d false (src.value s) false
  | sub =>
    intro hsm
    have ht := Operation.run_addSub d hs hsrc (.inr (.inr rfl)) h
    rw [Operation.subtracts, Operation.stores, after_store d hsm] at ht
    have hflagged := flagged_of_pending (t := ((enter s).setNeedsSat 0).setAcc d
      ((addSub true (s.acc d) (src.value s) false).setWidth 64)) rfl rfl true (s.acc d)
      (src.value s) false
    rw [← ht] at hflagged
    refine ⟨⟨hflagged.signed, hflagged.unsigned⟩, ?_⟩
    rw [ht]
    exact exact_of_run d true (src.value s) false
  | adc =>
    intro hsm
    exact Operation.run_adcSbc d hsm hs hsrc (.inl rfl) h
  | sbc =>
    intro hsm
    exact Operation.run_adcSbc d hsm hs hsrc (.inr rfl) h

/-- The least value less the greatest. -/
theorem operation_tells_extremes :
    let s := DspState.ofRegs [(Reg.a2, 0x80), (Reg.b2, 0x7F), (Reg.b1, 0xFFFFFF),
      (Reg.b0, 0xFFFFFF)]
    let t := s.execute (.parallelAlu (.subAcc .b .a))
    (SignedOrder t (s.acc .a).toInt (s.acc .b).toInt ∧
      UnsignedOrder t (s.acc .a).toNat (s.acc .b).toNat) ∧
      Exact t .a true (s.acc .a) (s.acc .b) false := by
  intro s t
  have hacc : (Source.acc .b).Valid := trivial
  exact operation_tells (s := s) (by decide) hacc .sub .a rfl (by decide)

end Dsp56300
