import Dsp56300.Emu.ArithShifts
import Dsp56300.Emu.Compare
import Dsp56300.Emu.MultiplyForms
import Dsp56300.Emu.RoundForms
import Dsp56300.Emu.Saturation

/-! The operations that saturate, and their exact results. -/

namespace Dsp56300

open Emitter AluState Lib.Bits Lib.Words SrUpdate

variable {σ : Type}

/-- The factors of a product: two registers, a register and the next word, a register and a power
of two. -/
inductive Factors where
  | regs (s1 s2 : RegIdx)
  | word (src : RegIdx) (nextWord : Word)
  | power (src : RegIdx) (shift : Byte)

/-- The operations, in all forms of their operands. ASL has a form of its own and the immediate one
by a single bit. -/
inductive SatOp where
  | sum (isSub : Bool) (src : Source) (d : Accumulator)
  | adcSbc (isSub : Bool) (hi lo : RegIdx) (d : Accumulator)
  | addlSubl (isSub : Bool) (src d : Accumulator)
  | addrSubr (isSub : Bool) (src d : Accumulator)
  | incDec (isSub : Bool) (d : Accumulator)
  | neg (d : Accumulator)
  | abs (d : Accumulator)
  | asl (d : Accumulator)
  | aslOne (s d : Accumulator)
  | rnd (d : Accumulator)
  | multiply (op : MulShiftOp) (negate : Bool) (factors : Factors) (d : Accumulator)

/-! The exact results. -/

/-- The multiple of 2^24 next to a number; a tie goes to the even one, or up. -/
def roundTo (convergent : Bool) (z : Int) : Int :=
  if convergent ∧ z % 2 ^ 24 = 2 ^ 23 then (z + 2 ^ 23) / 2 ^ 25 * 2 ^ 25
  else (z + 2 ^ 23) / 2 ^ 24 * 2 ^ 24

/-- A fractional product has one bit more than that of the words. A power of two out of range
stands for zero. -/
def Factors.product (s : DspState σ) : Factors → Int
  | regs s1 s2 => 2 * ((s.dataWord s1).toInt * (s.dataWord s2).toInt)
  | word src nextWord => 2 * ((s.dataWord src).toInt * (nextWord.setWidth 24).toInt)
  | power src shift =>
    if shift.toNat = 0 ∨ shift.toNat ≥ 24 then 0
    else (s.dataWord src).toInt * 2 ^ (24 - shift.toNat)

def MulShiftOp.accumulates : MulShiftOp → Bool
  | .mpy | .mpyr => false
  | .mac | .macr => true

def MulShiftOp.rounds : MulShiftOp → Bool
  | .mpy | .mac => false
  | .mpyr | .macr => true

namespace SatOp

def dest : SatOp → Accumulator
  | sum _ _ d | adcSbc _ _ _ d | addlSubl _ _ d | addrSubr _ _ d | incDec _ d | neg d | abs d
  | asl d | aslOne _ d | rnd d | multiply _ _ _ d => d

/-- The accumulators an operation reads. -/
def operands : SatOp → List Accumulator
  | sum _ (.acc src) d | addlSubl _ src d | addrSubr _ src d => [src, d]
  | sum _ _ d | adcSbc _ _ _ d | incDec _ d | neg d | abs d | asl d | rnd d => [d]
  | aslOne s _ => [s]
  | multiply op _ _ d => if op.accumulates then [d] else []

def rounds : SatOp → Bool
  | rnd _ => true
  | multiply op _ _ _ => op.rounds
  | _ => false

/-- A product as it is added. -/
def signedProduct (s : DspState σ) (negate : Bool) (factors : Factors) : Int :=
  if negate then -factors.product s else factors.product s

/-- The value before a multiplication rounds it. -/
def unrounded (s : DspState σ) (op : MulShiftOp) (negate : Bool) (factors : Factors)
    (d : Accumulator) : Int :=
  if op.accumulates then (s.acc d).toInt + signedProduct s negate factors
  else signedProduct s negate factors

/-- Convergent rounding is the one where RM is clear. -/
def convergent (s : DspState σ) : Bool := !flag (s.registers Reg.sr) Sr.rm

/-- The result as an integer. -/
def exact (s : DspState σ) : SatOp → Int
  | sum isSub src d => exactSum isSub (s.acc d) (src.value s) false
  | adcSbc isSub hi lo d =>
    exactSum isSub (s.acc d) ((Source.pair hi lo).value s) (flag (s.registers Reg.sr) Sr.c)
  | addlSubl isSub src d =>
    if isSub then 2 * (s.acc d).toInt - (s.acc src).toInt
    else 2 * (s.acc d).toInt + (s.acc src).toInt
  | addrSubr isSub src d =>
    if isSub then (s.acc d).toInt / 2 - (s.acc src).toInt
    else (s.acc d).toInt / 2 + (s.acc src).toInt
  | incDec isSub d => if isSub then (s.acc d).toInt - 1 else (s.acc d).toInt + 1
  | neg d => -(s.acc d).toInt
  | abs d => (s.acc d).toInt.natAbs
  | asl d => 2 * (s.acc d).toInt
  | aslOne src _ => 2 * (s.acc src).toInt
  | rnd d => roundTo (convergent s) (s.acc d).toInt
  | multiply op negate factors d =>
    if op.rounds then roundTo (convergent s) (unrounded s op negate factors d)
    else unrounded s op negate factors d

/-- The exact result, clamped. -/
def clamped (s : DspState σ) (op : SatOp) : Int :=
  clampTo (positiveRail op.rounds) (op.exact s)

/-- From `s` to `s'`, the operation stores the clamped result, V tells that clamping changed it,
and L collects V. -/
structure Clamps (op : SatOp) (s s' : DspState σ) : Prop where
  stored : (s'.acc op.dest).toInt = op.clamped s
  overflow : flag (s'.registers Reg.sr) Sr.v = true ↔ op.clamped s ≠ op.exact s
  limit : flag (s'.registers Reg.sr) Sr.l =
    (flag (s.registers Reg.sr) Sr.l || flag (s'.registers Reg.sr) Sr.v)

/-- A rounded multiplication of negative accumulator and product whose sum rounds to zero. -/
def RoundsToZero (s : DspState σ) : SatOp → Prop
  | multiply .macr negate factors d =>
    (s.acc d).toInt < 0 ∧ signedProduct s negate factors < 0 ∧
      -2 ^ 23 ≤ (s.acc d).toInt + signedProduct s negate factors
  | _ => False

/-! The code. -/

/-- The instruction: one next to a parallel move, or one with its next word. -/
def code : SatOp → ParallelAlu ⊕ Instruction × Word
  | sum false (.acc src) d => .inl (.addAcc src d)
  | sum false (.reg src) d => .inl (.addReg src d)
  | sum false (.short imm) d => .inr (.addImm imm d, 0)
  | sum false (.long nextWord) d => .inr (.addLong d, nextWord)
  | sum false (.pair hi lo) d => .inl (.addXY hi lo d)
  | sum true (.acc src) d => .inl (.subAcc src d)
  | sum true (.reg src) d => .inl (.subReg src d)
  | sum true (.short imm) d => .inr (.subImm imm d, 0)
  | sum true (.long nextWord) d => .inr (.subLong d, nextWord)
  | sum true (.pair hi lo) d => .inl (.subXY hi lo d)
  | adcSbc false hi lo d => .inl (.adc hi lo d)
  | adcSbc true hi lo d => .inl (.sbc hi lo d)
  | addlSubl false src d => .inl (.addl src d)
  | addlSubl true src d => .inl (.subl src d)
  | addrSubr false src d => .inl (.addr src d)
  | addrSubr true src d => .inl (.subr src d)
  | incDec false d => .inr (.inc d, 0)
  | incDec true d => .inr (.dec d, 0)
  | neg d => .inl (.neg d)
  | abs d => .inl (.abs d)
  | asl d => .inl (.asl d)
  | aslOne s d => .inr (.aslImm 1 s d, 0)
  | rnd d => .inl (.rnd d)
  | multiply op negate (.regs s1 s2) d => .inl (registerForm op negate s1 s2 d)
  | multiply op negate (.word src nextWord) d => .inr (immediateForm op negate src d, nextWord)
  | multiply op negate (.power src shift) d => .inr (.mulShift op shift src d negate, 0)

/-- The operation within compiled code. -/
def step (t : AluState σ) (op : SatOp) : AluState σ :=
  match op.code with
  | .inl alu => Alu.after (Alu.emitParallelAlu alu) t
  | .inr (inst, nextWord) => ((emitInstructionBody inst t.dsp.pc nextWord).run aluOps t).2

/-- The data registers as operands. -/
def Valid : SatOp → Prop
  | sum _ src _ => src.Valid
  | adcSbc _ hi lo _ => (Source.pair hi lo).Valid
  | multiply _ _ (.regs s1 s2) _ =>
    s1 ∈ [Reg.x0, Reg.x1, Reg.y0, Reg.y1] ∧ s2 ∈ [Reg.x0, Reg.x1, Reg.y0, Reg.y1]
  | multiply _ _ (.word src _) _ | multiply _ _ (.power src _) _ =>
    src ∈ [Reg.x0, Reg.x1, Reg.y0, Reg.y1]
  | _ => True

end SatOp

/-- Saturation mode without scaling. -/
structure DspState.Saturating (s : DspState σ) : Prop where
  on : flag (s.registers Reg.sr) Sr.sm = true
  unscaled : flag (s.registers Reg.sr) Sr.s0 = false ∧ flag (s.registers Reg.sr) Sr.s1 = false
  words : s.DataWords

/-! The operands, in the middle of compiled code. -/

section Operands

variable {t : AluState σ}

theorem AluState.Settles.acc_eq (ht : t.Settles) (d : Accumulator) : t.acc d = (t.finalize.acc d).setWidth 64 := by
  rw [finalize_acc ht.coherent]
  exact ht.packed d

theorem AluState.Settles.flag_control (ht : t.Settles) {k : Nat} (hk : k ∈ controlBits) :
    flag t.sr k = flag (t.finalize.registers Reg.sr) k := by
  rw [finalize_sr, ht.control k hk]

theorem finalize_data {r : RegIdx} (h : r ∈ [Reg.x0, Reg.x1, Reg.y0, Reg.y1]) :
    t.finalize.registers r = t.dsp.registers r := by
  obtain ⟨hout, hsr⟩ := data_outside h
  rw [finalize_registers hout, flush_registers hsr]

theorem value_loadData_mid {r : RegIdx} (h : r ∈ [Reg.x0, Reg.x1, Reg.y0, Reg.y1]) :
    Alu.value (Alu.loadReg r) t = t.finalize.registers r ∧ Alu.after (Alu.loadReg r) t = t := by
  obtain ⟨hout, hsr⟩ := data_outside h
  rw [Alu.value_loadOuter _ hout hsr, Alu.after_loadOuter _ hsr, finalize_data h]
  exact ⟨rfl, rfl⟩

theorem value_loadPair_mid {hi lo : RegIdx} (hs : t.finalize.DataWords)
    (h : (Source.pair hi lo).Valid) :
    Alu.value (Alu.loadXyAsAcc56 hi lo) t = ((Source.pair hi lo).value t.finalize).setWidth 64 ∧
      Alu.after (Alu.loadXyAsAcc56 hi lo) t = t := by
  have hregs : hi ∈ [Reg.x0, Reg.x1, Reg.y0, Reg.y1] ∧ lo ∈ [Reg.x0, Reg.x1, Reg.y0, Reg.y1] := by
    simp only [Source.Valid, List.mem_cons, List.not_mem_nil, or_false, Prod.mk.injEq] at h
    rcases h with ⟨rfl, rfl⟩ | ⟨rfl, rfl⟩
    · decide
    · decide
  obtain ⟨hhi, hhi'⟩ := value_loadData_mid (t := t) hregs.1
  obtain ⟨hlo, hlo'⟩ := value_loadData_mid (t := t) hregs.2
  simp only [Alu.loadXyAsAcc56, Alu.value_bind, Alu.after_bind, Alu.value_pure, Alu.after_pure,
    hhi, hhi', hlo, hlo', and_true]
  exact pair_value (hs lo hregs.2)

end Operands

theorem toInt_addSub {isSub c : Bool} {x y : BitVec 56} (h : Fits 56 (exactSum isSub x y c)) :
    (addSub isSub x y c).toInt = exactSum isSub x y c := by
  cases isSub with
  | false => exact (toInt_add_bit x y c (by decide)).trans (bmod_eq_self (by decide) h)
  | true => exact (toInt_sub_bit x y c (by decide)).trans (bmod_eq_self (by decide) h)

/-- How an operation ends: from `u`, where only V and C may differ from `t`, with the value `v`. -/
structure SatOp.Ends (op : SatOp) (t u : AluState σ) (v : BitVec 56) (flags : PendingFlags)
    (ov : Bool) (carry : Option Bool) : Prop where
  settles : u.Settles
  acc : u.acc = t.acc
  registers : ∀ r, r ≠ Reg.sr → u.dsp.registers r = t.dsp.registers r
  kept : ∀ k ∈ Sr.l :: controlBits, flag (u.flush false).sr k = flag (t.flush false).sr k
  raises : flags.Raises (u.flush false).sr ov carry
  step : op.step t = u.finish (!decide (Fits 48 v.toInt)) op.dest (Alu.clamped op.rounds v) flags
  value : v.toInt = op.exact t.finalize
  fits : Fits 50 v.toInt
  grid : op.rounds = true → v.toInt % 2 ^ 24 = 0
  overflow : ov = true ↔ op.RoundsToZero t.finalize

namespace SatOp

/-- Most operations flush nothing before their end, or only read SR. -/
theorem Ends.of_flush {op : SatOp} {t u : AluState σ} {v : BitVec 56} {flags : PendingFlags}
    {ov : Bool} {carry : Option Bool} (ht : t.Settles) (hu : u = t ∨ u = t.flush false)
    (hr : flags.Raises (t.flush false).sr ov carry)
    (hstep : op.step t =
      u.finish (!decide (Fits 48 v.toInt)) op.dest (Alu.clamped op.rounds v) flags)
    (hvalue : v.toInt = op.exact t.finalize) (hfits : Fits 50 v.toInt)
    (hgrid : op.rounds = true → v.toInt % 2 ^ 24 = 0)
    (hov : ov = true ↔ op.RoundsToZero t.finalize) : op.Ends t u v flags ov carry := by
  rcases hu with rfl | rfl
  · exact ⟨ht, rfl, fun _ _ => rfl, fun _ _ => rfl, hr, hstep, hvalue, hfits, hgrid, hov⟩
  · have hflush : (t.flush false).flush false = t.flush false :=
      flush_settled (flush_pendingFlags _)
    refine ⟨ht.flush, flush_acc _, fun r hsr => flush_registers hsr _, fun k _ => ?_, ?_, hstep,
      hvalue, hfits, hgrid, hov⟩
    · rw [hflush]
    · rw [hflush]
      exact hr

/-- Some such end. -/
def Ending (op : SatOp) (t : AluState σ) : Prop :=
  ∃ u v flags ov carry, op.Ends t u v flags ov carry

/-- The end of an operation that neither rounds nor raises V of its own. -/
theorem Ending.plain {op : SatOp} {t u : AluState σ} {v : BitVec 56} {flags : PendingFlags}
    {carry : Option Bool} (ht : t.Settles) (hu : u = t ∨ u = t.flush false)
    (hr : flags.Raises (t.flush false).sr false carry) (hrounds : op.rounds = false)
    (hzero : ¬ op.RoundsToZero t.finalize)
    (hstep : op.step t = u.finish (!decide (Fits 48 v.toInt)) op.dest (Alu.clamped false v) flags)
    (hvalue : v.toInt = op.exact t.finalize) (hfits : Fits 50 v.toInt) : op.Ending t := by
  refine ⟨u, v, flags, false, carry, .of_flush ht hu hr ?_ hvalue hfits (fun h => ?_) ?_⟩
  · rw [hrounds]
    exact hstep
  · rw [hrounds] at h
    cases h
  · exact iff_of_false Bool.false_ne_true hzero

section Sums

variable {t : AluState σ}

theorem sm_on (ht : t.Settles) (hs : t.finalize.Saturating) : flag t.sr Sr.sm = true := by
  rw [ht.flag_control (by decide)]
  exact hs.on

/-- No sum of 50 bits overflows 56. -/
theorem overflows_sum {isSub c : Bool} {x y : BitVec 56} (h : Fits 50 (exactSum isSub x y c)) :
    overflows ((y.setWidth 64).setWidth 56) ((x.setWidth 64).setWidth 56)
      ((addSub isSub (x.setWidth 64) (y.setWidth 64) c).setWidth 56) isSub = false := by
  have hfits : Fits 56 (exactSum isSub x y c) := by
    obtain ⟨hlo, hhi⟩ := h
    exact ⟨by omega, by omega⟩
  rw [widen_narrow, widen_narrow, setWidth_addSub isSub x y c (by decide) (by decide)]
  refine (addSub_overflow isSub x y c (by decide)).trans ?_
  rw [decide_eq_true hfits]
  rfl

/-- The tail of ADD, SUB, INC and DEC. -/
theorem after_addSub (ht : t.Settles) (hs : t.finalize.Saturating) (isSub : Bool) (d : Accumulator) (y : BitVec 56)
    (h : Fits 50 (exactSum isSub (t.finalize.acc d) y false)) :
    Alu.after (Alu.emitAccAddsub (y.setWidth 64) d isSub true) t =
      t.finish (!decide (Fits 48 (addSub isSub (t.finalize.acc d) y false).toInt)) d
        (Alu.clamped false (addSub isSub (t.finalize.acc d) y false))
        (.aluAddSub (Alu.clamped false (addSub isSub (t.finalize.acc d) y false)) (y.setWidth 64)
          ((t.finalize.acc d).setWidth 64)
          (addSub isSub ((t.finalize.acc d).setWidth 64) (y.setWidth 64) false) isSub) := by
  have hfits : Fits 56 (exactSum isSub (t.finalize.acc d) y false) := by
    obtain ⟨hlo, hhi⟩ := h
    exact ⟨by omega, by omega⟩
  have hv : Fits 50 (addSub isSub (t.finalize.acc d) y false).toInt := by
    rw [toInt_addSub hfits]
    exact h
  simp only [Alu.emitAccAddsub, Alu.after_bind, Alu.value_loadAcc, Alu.after_loadAcc,
    ht.acc_eq d, addSub_plain, mask56_addSub, if_true, Alu.value_saturate_on (sm_on ht hs) hv,
    Alu.after_saturate_on (sm_on ht hs) hv, Alu.after_storeAcc, Alu.after_setPending]
  rfl

/-- Every operand of a sum has 48 bits, an accumulator where it is required to. -/
theorem fits_source {s : DspState σ} (src : Source)
    (hacc : ∀ e, src = .acc e → Fits 48 (s.acc e).toInt) : Fits 48 (src.value s).toInt := by
  have hword (m : BitVec 24) : Fits 48 (wordAcc m).toInt := by
    obtain ⟨hlo, hhi⟩ := fits_toInt m
    rw [toInt_wordAcc]
    exact ⟨by omega, by omega⟩
  cases src with
  | acc e => exact hacc e rfl
  | reg r => exact hword _
  | short imm => exact hword _
  | long nextWord => exact hword _
  | pair hi lo =>
    rw [Source.value, BitVec.toInt_signExtend_of_le (by decide)]
    exact fits_toInt _

theorem fits_exactSum {isSub c : Bool} {x y : BitVec 56} (hx : Fits 49 x.toInt)
    (hy : Fits 48 y.toInt) : Fits 50 (exactSum isSub x y c) := by
  have hc : c.toNat ≤ 1 := Bool.toNat_le c
  obtain ⟨hxlo, hxhi⟩ := hx
  obtain ⟨hylo, hyhi⟩ := hy
  rw [exactSum]
  split <;> exact ⟨by omega, by omega⟩

theorem fits_wide {z : Int} (h : Fits 50 z) : Fits 56 z := by
  obtain ⟨hlo, hhi⟩ := h
  exact ⟨by omega, by omega⟩

/-- The forms of ADD and SUB differ in how they load the operand. -/
theorem step_sum (ht : t.Settles) (hs : t.finalize.Saturating) (isSub : Bool) {src : Source}
    (hsrc : src.Valid) (d : Accumulator) : (sum isSub src d).step t =
      Alu.after (Alu.emitAccAddsub ((src.value t.finalize).setWidth 64) d isSub true) t := by
  cases src with
  | acc e =>
    cases isSub
    all_goals
      simp only [step, code, Alu.emitParallelAlu, Alu.emitAluAddAcc, Alu.emitAluSubAcc,
        Alu.after_bind, Alu.value_loadAcc, Alu.after_loadAcc, ht.acc_eq e, Source.value]
  | reg r =>
    obtain ⟨hvalue, hafter⟩ := value_loadData_mid (t := t) hsrc
    cases isSub
    all_goals
      simp only [step, code, Alu.emitParallelAlu, Alu.emitAluAddReg24, Alu.emitAluSubReg24,
        Alu.loadReg24AsAcc56, Alu.after_bind, Alu.value_bind, Alu.value_pure, Alu.after_pure,
        hvalue, hafter, val24ToAcc56_eq, Source.value, DspState.dataWord]
  | short imm =>
    have hcut : (imm.setWidth 32).setWidth 24 = imm.setWidth 24 :=
      BitVec.setWidth_setWidth_of_le _ (by decide)
    have hload : val24ToAcc56 (imm.setWidth 32) =
        ((Source.short imm).value t.finalize).setWidth 64 := by
      rw [val24ToAcc56_eq, hcut, Source.value]
    rw [← hload]
    cases isSub <;> rfl
  | long nextWord =>
    have hload : val24ToAcc56 nextWord =
        ((Source.long nextWord).value t.finalize).setWidth 64 := val24ToAcc56_eq nextWord
    rw [← hload]
    cases isSub <;> rfl
  | pair hi lo =>
    obtain ⟨hvalue, hafter⟩ := value_loadPair_mid (t := t) hs.words hsrc
    cases isSub
    all_goals
      simp only [step, code, Alu.emitParallelAlu, Alu.emitAluAddXy, Alu.emitAluSubXy,
        Alu.after_bind, hvalue, hafter]

theorem ends_sum (ht : t.Settles) (hs : t.finalize.Saturating) (isSub : Bool) {src : Source}
    (hsrc : src.Valid) (d : Accumulator)
    (hfits : Fits 50 (exactSum isSub (t.finalize.acc d) (src.value t.finalize) false)) :
    (sum isSub src d).Ending t := by
  have hraises := overflows_sum hfits ▸ @raises_aluAddSub (t.flush false).sr
    (Alu.clamped false (addSub isSub (t.finalize.acc d) (src.value t.finalize) false))
    ((src.value t.finalize).setWidth 64) ((t.finalize.acc d).setWidth 64)
    (addSub isSub ((t.finalize.acc d).setWidth 64) ((src.value t.finalize).setWidth 64) false) isSub
  have hvalue := toInt_addSub (fits_wide hfits)
  refine .plain ht (.inl rfl) hraises rfl id ?_ hvalue (hvalue.symm ▸ hfits)
  rw [step_sum ht hs isSub hsrc, after_addSub ht hs isSub d _ hfits]
  rfl

theorem ends_incDec (ht : t.Settles) (hs : t.finalize.Saturating) (isSub : Bool) (d : Accumulator)
    (hfits : Fits 50 (exactSum isSub (t.finalize.acc d) 1 false)) :
    (incDec isSub d).Ending t := by
  have hone : (1 : BitVec 56).setWidth 64 = (1 : BitVec 64) := rfl
  have hraises := overflows_sum hfits ▸ @raises_aluAddSub (t.flush false).sr
    (Alu.clamped false (addSub isSub (t.finalize.acc d) 1 false))
    ((1 : BitVec 56).setWidth 64) ((t.finalize.acc d).setWidth 64)
    (addSub isSub ((t.finalize.acc d).setWidth 64) ((1 : BitVec 56).setWidth 64) false) isSub
  have hstep : (incDec isSub d).step t =
      Alu.after (Alu.emitAccAddsub ((1 : BitVec 56).setWidth 64) d isSub true) t := by
    rw [hone]
    cases isSub <;> rfl
  have hvalue := toInt_addSub (fits_wide hfits)
  refine .plain ht (.inl rfl) hraises rfl id ?_ ?_ (hvalue.symm ▸ hfits)
  · rw [hstep, after_addSub ht hs isSub d _ hfits]
    rfl
  · rw [hvalue]
    cases isSub <;> simp [exactSum, exact]

theorem ends_adcSbc (ht : t.Settles) (hs : t.finalize.Saturating) (isSub : Bool)
    {hi lo : RegIdx} (h : (Source.pair hi lo).Valid) (d : Accumulator) {y : BitVec 56} {c : Bool}
    (hy : (Source.pair hi lo).value t.finalize = y) (hc : flag (t.finalize.registers Reg.sr) Sr.c = c)
    (hfits : Fits 50 (exactSum isSub (t.finalize.acc d) y c)) :
    (adcSbc isSub hi lo d).Ending t := by
  obtain ⟨hvalue, hafter⟩ := value_loadPair_mid (t := t) hs.words h
  have hraises := overflows_sum hfits ▸ @raises_aluAddSub (t.flush false).sr
    (Alu.clamped false (addSub isSub (t.finalize.acc d) y c))
    (y.setWidth 64) ((t.finalize.acc d).setWidth 64)
    (addSub isSub ((t.finalize.acc d).setWidth 64) (y.setWidth 64) c) isSub
  have hv : Fits 50 (addSub isSub (t.finalize.acc d) y c).toInt := by
    rw [toInt_addSub (fits_wide hfits)]
    exact hfits
  have hcarry : (((t.flush false).sr &&& 1).setWidth 64 : BitVec 64) = bit 64 c := by
    rw [← hc, finalize_sr, show (1 : Word) = 1#32 from rfl, and_one,
      setWidth_bit (by decide) (by decide)]
    rfl
  have hsum (x y : BitVec 64) : (if isSub then x - y - bit 64 c else x + y + bit 64 c) =
      addSub isSub x y c := rfl
  have hon : flag (t.flush false).sr Sr.sm = true := by
    rw [← finalize_sr]
    exact hs.on
  have hstep : (adcSbc isSub hi lo d).step t = Alu.after (Alu.emitAluAdcSbc hi lo d isSub) t := by
    cases isSub <;> rfl
  refine .plain ht (.inr rfl) hraises rfl id ?_ ?_ hv
  · rw [hstep]
    simp only [Alu.emitAluAdcSbc, Alu.after_bind, hvalue, hafter, hy, Alu.value_loadAcc,
      Alu.after_loadAcc, ht.acc_eq d, Alu.value_loadSr, Alu.after_loadSr, hcarry, hsum,
      mask56_addSub, Alu.value_saturate_on hon hv, Alu.after_saturate_on hon hv,
      Alu.after_storeAcc, Alu.after_setPending]
    rfl
  · rw [toInt_addSub (fits_wide hfits), exact, hy, hc]

theorem ends_addlSubl (ht : t.Settles) (hs : t.finalize.Saturating) (isSub : Bool)
    (src d : Accumulator) (hsrc : Fits 48 (t.finalize.acc src).toInt)
    (hd : Fits 48 (t.finalize.acc d).toInt) : (addlSubl isSub src d).Ending t := by
  have hdouble : (t.finalize.acc d <<< 1).toInt = 2 * (t.finalize.acc d).toInt := by
    obtain ⟨hlo, hhi⟩ := hd
    rw [toInt_shiftLeft_of_fits (by decide) ⟨by omega, by omega⟩]
    omega
  have hfits : Fits 50 (exactSum isSub (t.finalize.acc d <<< 1) (t.finalize.acc src) false) := by
    refine fits_exactSum ?_ hsrc
    obtain ⟨hlo, hhi⟩ := hd
    rw [hdouble]
    exact ⟨by omega, by omega⟩
  have hv := (toInt_addSub (fits_wide hfits)).symm ▸ hfits
  have hshift : mask56 ((t.finalize.acc d).setWidth 64 <<< 1) =
      (t.finalize.acc d <<< 1).setWidth 64 := asl_value (t.finalize.acc d) (n := 1) (by decide)
  have hasl : extractBitI64 ((t.finalize.acc d).setWidth 64) 55 ^^^
      extractBitI64 ((t.finalize.acc d <<< 1).setWidth 64) 55 = bit 32 false := by
    have h55 (w : BitVec 56) : extractBitI64 (w.setWidth 64) 55 = bit 32 w.msb := extract_55 w
    have hsame : (t.finalize.acc d <<< 1).msb = (t.finalize.acc d).msb := by
      rw [BitVec.msb_eq_toInt, BitVec.msb_eq_toInt, hdouble]
      exact decide_eq_decide.mpr (by omega)
    rw [h55, h55, hsame, bit_xor, Bool.xor_self]
  have hraises := overflows_sum hfits ▸ @raises_addlSubl (t.flush false).sr
    (Alu.clamped false (addSub isSub (t.finalize.acc d <<< 1) (t.finalize.acc src) false))
    ((t.finalize.acc src).setWidth 64) ((t.finalize.acc d <<< 1).setWidth 64)
    (addSub isSub ((t.finalize.acc d <<< 1).setWidth 64) ((t.finalize.acc src).setWidth 64) false)
    isSub
  have hstep : (addlSubl isSub src d).step t =
      Alu.after (Alu.emitAluAddlSubl src d isSub) t := by
    cases isSub <;> rfl
  refine .plain ht (.inl rfl) hraises rfl id ?_ ?_ hv
  · rw [hstep]
    simp only [Alu.emitAluAddlSubl, Alu.after_bind, Alu.value_loadAcc, Alu.after_loadAcc,
      ht.acc_eq d, ht.acc_eq src, hshift, hasl, addSub_plain, mask56_addSub,
      Alu.value_saturate_on (sm_on ht hs) hv, Alu.after_saturate_on (sm_on ht hs) hv,
      Alu.after_storeAcc, Alu.after_setPending]
    rfl
  · rw [toInt_addSub (fits_wide hfits), exactSum, hdouble]
    cases isSub <;> simp [exact]

theorem ends_addrSubr (ht : t.Settles) (hs : t.finalize.Saturating) (isSub : Bool)
    (src d : Accumulator) (hsrc : Fits 48 (t.finalize.acc src).toInt)
    (hd : Fits 48 (t.finalize.acc d).toInt) : (addrSubr isSub src d).Ending t := by
  have hhalf : ((t.finalize.acc d).sshiftRight 1).toInt = (t.finalize.acc d).toInt / 2 := by
    rw [BitVec.toInt_sshiftRight, Int.shiftRight_eq_div_pow]
    rfl
  have hfits : Fits 50 (exactSum isSub ((t.finalize.acc d).sshiftRight 1) (t.finalize.acc src)
      false) := by
    refine fits_exactSum ?_ hsrc
    obtain ⟨hlo, hhi⟩ := hd
    rw [hhalf]
    exact ⟨by omega, by omega⟩
  have hv := (toInt_addSub (fits_wide hfits)).symm ▸ hfits
  have hraises := overflows_sum hfits ▸ @raises_aluAddSub (t.flush false).sr
    (Alu.clamped false (addSub isSub ((t.finalize.acc d).sshiftRight 1) (t.finalize.acc src) false))
    ((t.finalize.acc src).setWidth 64) (((t.finalize.acc d).sshiftRight 1).setWidth 64)
    (addSub isSub (((t.finalize.acc d).sshiftRight 1).setWidth 64)
      ((t.finalize.acc src).setWidth 64) false) isSub
  have hstep : (addrSubr isSub src d).step t =
      Alu.after (Alu.emitAluAddrSubr src d isSub) t := by
    cases isSub <;> rfl
  refine .plain ht (.inl rfl) hraises rfl id ?_ ?_ hv
  · rw [hstep]
    simp only [Alu.emitAluAddrSubr, Alu.after_bind, Alu.value_loadAcc, Alu.after_loadAcc,
      ht.acc_eq d, ht.acc_eq src, asrOne_eq, addSub_plain, mask56_addSub,
      Alu.value_saturate_on (sm_on ht hs) hv, Alu.after_saturate_on (sm_on ht hs) hv,
      Alu.after_storeAcc, Alu.after_setPending]
    rfl
  · rw [toInt_addSub (fits_wide hfits), exactSum, hhalf]
    cases isSub <;> simp [exact]

end Sums

section Unary

variable {t : AluState σ}

theorem ending_neg (ht : t.Settles) (hs : t.finalize.Saturating) (d : Accumulator)
    (hd : Fits 48 (t.finalize.acc d).toInt) : (neg d).Ending t := by
  obtain ⟨hlo, hhi⟩ := hd
  have hvalue : (-(t.finalize.acc d)).toInt = -(t.finalize.acc d).toInt := by
    rw [BitVec.toInt_neg]
    exact bmod_eq_self (by decide) ⟨by omega, by omega⟩
  have hv : Fits 50 (-(t.finalize.acc d)).toInt := by
    rw [hvalue]
    exact ⟨by omega, by omega⟩
  have hmin : Emitter.ofBool (decide ((t.finalize.acc d).setWidth 64 = 0x80000000000000)) =
      bit 32 false := by
    have hne : (t.finalize.acc d).setWidth 64 ≠ 0x80000000000000 := fun h => by
      have hmin : t.finalize.acc d = 0x80000000000000 := by
        rw [← widen_narrow (t.finalize.acc d), h]
        rfl
      rw [hmin] at hlo
      exact absurd hlo (by decide)
    rw [Emitter.ofBool_eq, decide_eq_false hne]
  refine .plain ht (.inl rfl)
    (raises_nzVlSm (Alu.clamped false (-(t.finalize.acc d))) false) rfl id ?_ hvalue hv
  simp only [step, code, Alu.emitParallelAlu, Alu.emitAluNeg, Alu.after_bind, Alu.value_loadAcc,
    Alu.after_loadAcc, ht.acc_eq d, mask56_neg, hmin, Alu.value_saturate_on (sm_on ht hs) hv,
    Alu.after_saturate_on (sm_on ht hs) hv, Alu.after_storeAcc, Alu.after_setPending]
  rfl

theorem ending_abs (ht : t.Settles) (hs : t.finalize.Saturating) (d : Accumulator)
    (hd : Fits 48 (t.finalize.acc d).toInt) : (abs d).Ending t := by
  obtain ⟨hlo, hhi⟩ := hd
  have hvalue : (t.finalize.acc d).abs.toInt = (t.finalize.acc d).toInt.natAbs :=
    (toNat_abs (by omega)).1
  have hv : Fits 50 (t.finalize.acc d).abs.toInt := by
    rw [hvalue]
    exact ⟨by omega, by omega⟩
  have hresult : (if bit 32 (t.finalize.acc d).msb ≠ 0 then (-(t.finalize.acc d)).setWidth 64
      else (t.finalize.acc d).setWidth 64) = (t.finalize.acc d).abs.setWidth 64 := by
    rw [BitVec.abs_eq]
    cases (t.finalize.acc d).msb
    · rw [if_neg (by decide), if_neg Bool.false_ne_true]
    · rw [if_pos (by decide), if_pos rfl]
  have hover : (if bit 32 (t.finalize.acc d).msb ≠ 0 then
      (bit 32 (t.finalize.acc d).msb &&& 1) &&&
        extractBitI64 ((-(t.finalize.acc d)).setWidth 64) 55 else 0) = bit 32 false := by
    have h55 (w : BitVec 56) : extractBitI64 (w.setWidth 64) 55 = bit 32 w.msb := extract_55 w
    cases hmsb : (t.finalize.acc d).msb with
    | false => rfl
    | true =>
      have hneg : (-(t.finalize.acc d)).msb = false := by
        rw [BitVec.msb_eq_toInt, decide_eq_true_eq] at hmsb
        rw [BitVec.msb_eq_toInt, BitVec.toInt_neg, decide_eq_false_iff_not,
          bmod_eq_self (by decide) ⟨by omega, by omega⟩]
        omega
      rw [if_pos (by decide), h55, hneg]
      rfl
  refine .plain ht (.inl rfl) (raises_nzVlSm (Alu.clamped false (t.finalize.acc d).abs) false) rfl
    id ?_ hvalue hv
  simp only [step, code, Alu.emitParallelAlu, Alu.emitAluAbs, Alu.after_bind, Alu.value_loadAcc,
    Alu.after_loadAcc, ht.acc_eq d, mask56_neg, sign_word, hresult, hover,
    Alu.value_saturate_on (sm_on ht hs) hv, Alu.after_saturate_on (sm_on ht hs) hv,
    Alu.after_storeAcc, Alu.after_setPending]
  rfl

/-- SR after the carry and overflow of a shift by one bit that loses none. -/
def aslSr (carry : Bool) (sr : Word) : Word :=
  store (orVl (clear ((1#32 <<< Sr.v) ||| (1#32 <<< Sr.c)) sr ||| bit 32 carry) (bit 32 false))

theorem aslSr_fold (carry : Bool) (sr : Word) :
    store (orVl (clear ((1#32 <<< Sr.v) ||| (1#32 <<< Sr.c)) sr ||| bit 32 carry) (bit 32 false)) =
      aslSr carry sr := rfl

theorem aslSr_fold_imm (carry : Bool) (sr : Word) :
    store (orVl (clear ((1#32 <<< Sr.c) ||| (1#32 <<< Sr.v)) sr |||
      shiftToBit (bit 32 carry) Sr.c) (bit 32 false)) = aslSr carry sr := by
  have hbit : shiftToBit (bit 32 carry) Sr.c = bit 32 carry := BitVec.shiftLeft_zero _
  rw [BitVec.or_comm (1#32 <<< Sr.c), hbit, aslSr]

theorem flag_aslSr (carry : Bool) (sr : Word) :
    flag (aslSr carry sr) Sr.v = false ∧
      ∀ k ∈ Sr.l :: controlBits, flag (aslSr carry sr) k = flag sr k := by
  refine ⟨?_, fun k hk => ?_⟩
  · rw [aslSr, flag_store, flag_orVl, flag_or, flag_clear, flag_or, flag_single (by decide), flag_bit]
    simp
  · have hk' : k ≠ Sr.v ∧ k ≠ Sr.c ∧ flag (regMasks Reg.sr) k = true := by
      revert k
      decide
    obtain ⟨hv, hc, hmask⟩ := hk'
    rw [aslSr, flag_store, hmask, Bool.and_true, flag_orVl, Bool.and_false, Bool.or_false, flag_or,
      flag_clear, flag_or, flag_single (by decide), flag_single (by decide), flag_bit,
      decide_eq_false hv, decide_eq_false hc]
    simp

/-- Both forms write SR before their end, at a marker `m`. -/
def shiftSr (t : AluState σ) (m : Word) (carry : Bool) : AluState σ :=
  ((t.setNeedsSat m).flush false).setSr (aslSr carry ((t.setNeedsSat m).flush false).sr)

theorem shiftSr_setNeedsSat (t : AluState σ) (m : Word) (carry : Bool) :
    (shiftSr t m carry).setNeedsSat m = shiftSr t m carry := by
  have hflush := flush_setNeedsSat (t := t) (m := m) false
  exact congrArg (fun u : AluState σ => u.setSr (aslSr carry ((t.setNeedsSat m).flush false).sr))
    hflush

theorem ending_shift {op : SatOp} {v : BitVec 56} {m : Word} {carry : Bool} (ht : t.Settles)
    (hrounds : op.rounds = false) (hzero : ¬ op.RoundsToZero t.finalize)
    (hstep : op.step t = (shiftSr t m carry).finish (!decide (Fits 48 v.toInt)) op.dest
      (Alu.clamped false v) (.nzSm (Alu.clamped false v)))
    (hvalue : v.toInt = op.exact t.finalize) (hfits : Fits 50 v.toInt) : op.Ending t := by
  obtain ⟨hv, hkept⟩ := flag_aslSr carry ((t.setNeedsSat m).flush false).sr
  have hnone : (shiftSr t m carry).pendingFlags = none :=
    flush_pendingFlags (t := t.setNeedsSat m) false
  have hsr : ((shiftSr t m carry).flush false).sr = aslSr carry ((t.setNeedsSat m).flush false).sr := by
    rw [flush_settled hnone]
    exact setSr_sr ..
  have hacc : (shiftSr t m carry).acc = t.acc := flush_acc (t := t.setNeedsSat m) false
  have hsettles : (shiftSr t m carry).Settles := by
    refine .of_none hnone (((ht.coherent.setNeedsSat m).flush false).setSr _) fun d => ?_
    rw [hacc]
    exact ht.packed d
  have hraises : (PendingFlags.nzSm (Alu.clamped false v)).Raises
      ((shiftSr t m carry).flush false).sr false none := raises_nzSm _ (by rw [hsr, hv])
  have hregisters (r : RegIdx) (hr : r ≠ Reg.sr) :
      (shiftSr t m carry).dsp.registers r = t.dsp.registers r :=
    (DspState.setReg_other _ _ hr).trans (flush_registers hr false)
  have hbits (k : Nat) (hk : k ∈ Sr.l :: controlBits) :
      flag ((shiftSr t m carry).flush false).sr k = flag (t.flush false).sr k := by
    have hlazy : k ∉ lazyFlags := by
      revert k
      decide
    rw [hsr, hkept k hk, ht.settled m false k hlazy]
  refine ⟨_, v, _, false, none, hsettles, hacc, hregisters, hbits, hraises, ?_, hvalue, hfits,
    fun h => ?_, iff_of_false Bool.false_ne_true hzero⟩
  · rw [hrounds]
    exact hstep
  · rw [hrounds] at h
    cases h

theorem toInt_double {x : BitVec 56} (hx : Fits 48 x.toInt) :
    (x <<< 1).toInt = 2 * x.toInt ∧ Fits 50 (x <<< 1).toInt := by
  obtain ⟨hlo, hhi⟩ := hx
  have hdouble : (x <<< 1).toInt = 2 * x.toInt := by
    rw [toInt_shiftLeft_of_fits (by decide) ⟨by omega, by omega⟩]
    omega
  exact ⟨hdouble, by rw [hdouble]; exact ⟨by omega, by omega⟩⟩

/-- The bits a doubled value of 48 bits loses are its sign. -/
theorem top_bits {x : BitVec 56} (hx : Fits 48 x.toInt) : x.getLsbD 54 = x.msb := by
  have hfits : Fits (54 + 1) x.toInt := by
    obtain ⟨hlo, hhi⟩ := hx
    exact ⟨by omega, by omega⟩
  exact (fits_iff_bits x (by decide)).mp hfits 54 (by decide) (by decide)

theorem ending_asl (ht : t.Settles) (hs : t.finalize.Saturating) (d : Accumulator)
    (hd : Fits 48 (t.finalize.acc d).toInt) : (asl d).Ending t := by
  obtain ⟨hdouble, hv⟩ := toInt_double hd
  have hshift : mask56 ((t.finalize.acc d).setWidth 64 <<< 1) =
      (t.finalize.acc d <<< 1).setWidth 64 := asl_value (t.finalize.acc d) (n := 1) (by decide)
  have h55 : extractBitI64 ((t.finalize.acc d).setWidth 64) 55 =
      bit 32 (t.finalize.acc d).msb := extract_55 _
  have h54 : extractBitI64 ((t.finalize.acc d).setWidth 64) 54 =
      bit 32 (t.finalize.acc d).msb := by
    rw [← top_bits hd]
    exact extract_54 _
  have hpending : (t.flush false).pendingFlags = none := flush_pendingFlags false
  have hon : flag ((t.flush false).setSr (aslSr (t.finalize.acc d).msb (t.flush false).sr)).sr
      Sr.sm = true := by
    rw [setSr_sr, (flag_aslSr ..).2 _ (by decide), ← finalize_sr]
    exact hs.on
  refine @ending_shift _ _ _ _ t.smNeedsSat (t.finalize.acc d).msb ht rfl id ?_ hdouble hv
  simp only [step, code, Alu.emitParallelAlu, Alu.emitAluAsl, Alu.after_bind, Alu.value_loadAcc,
    Alu.after_loadAcc, ht.acc_eq d, h55, h54, bit_xor, Bool.xor_self, Alu.value_clearSrFlags,
    Alu.after_clearSrFlags, Alu.after_storeSr, storeSr_settled _ hpending, hshift, aslSr_fold,
    Alu.value_saturate_on hon hv, Alu.after_saturate_on hon hv, Alu.after_storeAcc,
    Alu.after_setPending]
  rfl

theorem ending_aslOne (ht : t.Settles) (hs : t.finalize.Saturating) (src d : Accumulator)
    (hsrc : Fits 48 (t.finalize.acc src).toInt) : (aslOne src d).Ending t := by
  obtain ⟨hdouble, hv⟩ := toInt_double hsrc
  have hshift : mask56 (ishl ((t.finalize.acc src).setWidth 64) ((1 : Byte).setWidth 32)) =
      (t.finalize.acc src <<< 1).setWidth 64 := asl_value (t.finalize.acc src) (by decide)
  have hcarry : extractBitI64 ((t.finalize.acc src).setWidth 64) (56 - (1 : Byte).setWidth 32) =
      bit 32 (t.finalize.acc src).msb := extract_55 _
  have hover : aslImmOverflow (t.finalize.acc src) 1 = false := by
    have hfits : Fits (56 - 1) (t.finalize.acc src).toInt := by
      obtain ⟨hlo, hhi⟩ := hsrc
      exact ⟨by omega, by omega⟩
    rw [aslImmOverflow_eq _ (by decide) (by decide)]
    exact decide_eq_false (mt (signChanges_iff_fits _ (by decide)).mp (not_not.mpr hfits))
  have hvBit : (if (1 : Byte) = 0 then 0 else 1 - Emitter.ofBool
      (decide ((t.finalize.acc src).setWidth 64 >>> (55 - (1 : Byte).toNat) &&&
          (Alu.aslFieldMask (1 : Byte).toNat).getD 0 = 0) ||
        decide ((t.finalize.acc src).setWidth 64 >>> (55 - (1 : Byte).toNat) &&&
          (Alu.aslFieldMask (1 : Byte).toNat).getD 0 =
            (Alu.aslFieldMask (1 : Byte).toNat).getD 0))) = bit 32 false := by
    rw [if_neg (by decide), one_sub_ofBool, ← hover]
    rfl
  have hpending (m : Word) (v : BitVec 64) :
      (((t.setNeedsSat m).flush false).setAcc d v).pendingFlags = none :=
    flush_pendingFlags (t := t.setNeedsSat m) false
  have hstep : (aslOne src d).step t = Alu.after (Alu.emitAslImm 1 src d) t := rfl
  refine @ending_shift _ _ _ _ (bit 32 (!decide (Fits 48 (t.finalize.acc src <<< 1).toInt)))
    (t.finalize.acc src).msb ht rfl id ?_ hdouble hv
  rw [hstep]
  simp only [Alu.emitAslImm, Alu.after_bind, Alu.value_loadAcc, Alu.after_loadAcc, ht.acc_eq src,
    hshift, hcarry, hvBit, Alu.value_saturate_on (sm_on ht hs) hv,
    Alu.after_saturate_on (sm_on ht hs) hv, Alu.after_storeAcc, Alu.value_clearSrFlags,
    Alu.after_clearSrFlags, Alu.after_storeSr, Alu.after_setPending, flush_setAcc,
    storeSr_settled _ (hpending _ _), setAcc_sr, aslSr_fold_imm]
  rw [finish, shiftSr_setNeedsSat]
  rfl

end Unary

end SatOp

end Dsp56300
