import Dsp56300.Emu.Compare

/-! Maxima by repeated comparison. -/

namespace Dsp56300

open Emitter AluState Lib.Bits Lib.Words SrUpdate

variable {σ : Type}

/-- The two instructions: by value, and by magnitude. -/
inductive MaxForm where
  | max | maxm

namespace MaxForm

def alu : MaxForm → ParallelAlu
  | max => .max
  | maxm => .maxm

/-- What the form orders accumulators by. -/
def key : MaxForm → BitVec 56 → Int
  | max, v => v.toInt
  | maxm, v => v.toInt.natAbs

/-- The larger of A and B; A on a tie. -/
def larger (form : MaxForm) (a b : BitVec 56) : BitVec 56 := if form.key b ≤ form.key a then a else b

/-- The difference of the keys is the value of an accumulator. -/
def Comparable (form : MaxForm) (a b : BitVec 56) : Prop := Fits 56 (form.key b - form.key a)

instance (form : MaxForm) (a b : BitVec 56) : Decidable (form.Comparable a b) :=
  inferInstanceAs (Decidable (Fits _ _))

/-- B is the larger of A and B, and C tells which. -/
structure Chosen (form : MaxForm) (s t : DspState σ) : Prop where
  kept : t.acc .a = s.acc .a
  chosen : t.acc .b = form.larger (s.acc .a) (s.acc .b)
  greatest : form.key (t.acc .b) = Max.max (form.key (s.acc .a)) (form.key (s.acc .b))
  carry : flag (t.registers Reg.sr) Sr.c = false ↔ form.key (s.acc .b) ≤ form.key (s.acc .a)

/-- What the form subtracts: a magnitude wraps at the least value. -/
def image : MaxForm → BitVec 56 → BitVec 56
  | max, v => v
  | maxm, v => v.abs

theorem image_eq (form : MaxForm) (v : BitVec 56) :
    form.image v = BitVec.ofInt 56 (form.key v) := by
  cases form with
  | max => exact (BitVec.ofInt_toInt ..).symm
  | maxm =>
    by_cases h : v.toInt = -2 ^ 55
    · have hv : v = BitVec.intMin 56 := BitVec.eq_of_toInt_eq h
      rw [hv]
      rfl
    · apply BitVec.eq_of_toNat_eq
      have hlt := v.abs.isLt
      rw [image, key, (toNat_abs h).2, BitVec.ofInt_natCast, BitVec.toNat_ofNat, Nat.mod_eq_of_lt]
      rw [← (toNat_abs h).2]
      exact hlt

theorem key_bounds (form : MaxForm) (a b : BitVec 56) :
    -2 ^ 56 < form.key b - form.key a ∧ form.key b - form.key a < 2 ^ 56 := by
  obtain ⟨halo, hahi⟩ := fits_toInt a
  obtain ⟨hblo, hbhi⟩ := fits_toInt b
  cases form <;> simp only [key] <;> constructor <;> omega

theorem key_larger (form : MaxForm) (a b : BitVec 56) :
    form.key (form.larger a b) = Max.max (form.key a) (form.key b) := by
  rw [larger]
  split <;> omega

end MaxForm

/-- The decision both forms take: the difference is not positive. -/
def notPositive (v : BitVec 56) : Bool := v.msb || decide (v = 0)

theorem notPositive_iff (v : BitVec 56) : notPositive v = true ↔ v.toInt ≤ 0 := by
  have hzero : v = 0 ↔ v.toInt = 0 := BitVec.toInt_inj.symm
  rw [notPositive, Bool.or_eq_true, decide_eq_true_eq, hzero, BitVec.msb_eq_toInt,
    decide_eq_true_eq]
  omega

/-- A wrapped difference keeps its sign exactly where it fits. -/
theorem bmod_nonpos_iff {z : Int} (hlo : -2 ^ 56 < z) (hhi : z < 2 ^ 56) :
    (z.bmod (2 ^ 56) ≤ 0 ↔ z ≤ 0) ↔ Fits 56 z := by
  rcases bmod_cases (v := 56) (by decide) hlo.le hhi with ⟨hfits, heq⟩ | ⟨hge, heq⟩ | ⟨hlt, heq⟩
  · rw [heq]
    exact iff_of_true Iff.rfl hfits
  · rw [heq]
    simp only [Fits]
    omega
  · rw [heq]
    simp only [Fits]
    omega

theorem MaxForm.notPositive_image (form : MaxForm) (a b : BitVec 56) :
    (notPositive (form.image b - form.image a) = true ↔ form.key b ≤ form.key a) ↔
      form.Comparable a b := by
  obtain ⟨hlo, hhi⟩ := form.key_bounds a b
  have hdiff : (form.image b - form.image a).toInt = (form.key b - form.key a).bmod (2 ^ 56) := by
    rw [form.image_eq, form.image_eq, BitVec.toInt_sub, BitVec.toInt_ofInt, BitVec.toInt_ofInt,
      Int.bmod_sub_bmod, Int.sub_bmod_bmod]
  rw [notPositive_iff, hdiff, MaxForm.Comparable, ← bmod_nonpos_iff hlo hhi]
  omega

/-! One execution. -/

theorem packAcc_extract (v : BitVec 56) :
    Emitter.packAcc (extractAccHi (v.setWidth 64)) (extractAccMid (v.setWidth 64))
      (extractAccLo (v.setWidth 64)) = v.setWidth 64 := by
  have hlt := v.isLt
  have hv : (v.setWidth 64).toNat = v.toNat := BitVec.toNat_setWidth_of_le (by decide)
  have h0 : (extractAccLo (v.setWidth 64)).toNat = v.toNat % 2 ^ 24 := by
    rw [extractAccLo, field_toNat (k := 24) rfl (by decide), hv]
  have h1 : (extractAccMid (v.setWidth 64)).toNat = v.toNat / 2 ^ 24 % 2 ^ 24 := by
    rw [extractAccMid, field_toNat (k := 24) rfl (by decide), BitVec.toNat_ushiftRight, hv,
      Nat.shiftRight_eq_div_pow]
  have h2 : (extractAccHi (v.setWidth 64)).toNat = v.toNat / 2 ^ 48 % 2 ^ 8 := by
    rw [extractAccHi, field_toNat (k := 8) rfl (by decide), BitVec.toNat_ushiftRight, hv,
      Nat.shiftRight_eq_div_pow]
  apply BitVec.eq_of_toNat_eq
  rw [Emitter.packAcc, pack_toNat (by omega) (by omega) (by omega), h0, h1, h2, hv]
  omega

section Step

variable (s : DspState σ)

/-- SR after the shared tail of both forms. -/
def maxSr (pass : Bool) (sr : Word) : Word :=
  let srNew := clear (1#32 <<< Sr.c) sr ||| bit 32 (!pass)
  store (srNew ||| ((srNew &&& (1#32 <<< Sr.v)) <<< (Sr.l - Sr.v)))

theorem flag_maxSr (pass : Bool) (sr : Word) : flag (maxSr pass sr) Sr.c = !pass := by
  have hlow (x : Word) : (x <<< (Sr.l - Sr.v)).getLsbD Sr.c = false := by
    rw [BitVec.getLsbD_shiftLeft]
    simp +decide
  rw [maxSr, flag_store, flag_or, flag, flag, hlow, Bool.or_false, ← flag, flag_or, flag_clear]
  simp +decide

theorem after_maxTail (a b diff : BitVec 56) :
    Alu.after (Alu.emitMaxTail (a.setWidth 64) (b.setWidth 64) (diff.setWidth 64)) (enter s) =
      ((enter s).setAcc .b ((if notPositive diff then a else b).setWidth 64)).setSr
        (maxSr (notPositive diff) (s.registers Reg.sr)) := by
  have hzero : Emitter.ofBool (decide (diff.setWidth 64 = 0)) = bit 32 (decide (diff = 0)) := by
    rw [Emitter.ofBool_eq]
    exact congrArg (bit 32) (decide_eq_decide.mpr (setWidth_eq_zero_iff (by decide) diff))
  have hpass : extractBitI64 (diff.setWidth 64) 55 |||
      Emitter.ofBool (decide (diff.setWidth 64 = 0)) = bit 32 (notPositive diff) := by
    rw [hzero]
    exact (congrArg (· ||| _) (extract_55 diff)).trans (bit_or ..)
  have hnot : (bit 32 (notPositive diff) ^^^ 1) &&& 1 = bit 32 (!notPositive diff) := by
    cases notPositive diff <;> rfl
  have hchoice : (if bit 32 (notPositive diff) ≠ 0 then a.setWidth 64 else b.setWidth 64) =
      (if notPositive diff then a else b).setWidth 64 := by
    cases notPositive diff <;> rfl
  simp only [Alu.emitMaxTail, hpass, packAcc_extract, hchoice, hnot, Alu.after_bind,
    Alu.after_storeAcc, Alu.value_clearSrFlags, Alu.after_clearSrFlags, Alu.after_storeSr]
  rw [flush_settled rfl, storeSr_settled _ rfl, setAcc_sr, enter_sr, maxSr]

theorem execute_max (form : MaxForm) :
    s.execute (.parallelAlu form.alu) =
      (((enter s).setAcc .b ((if notPositive (form.image (s.acc .b) - form.image (s.acc .a))
        then s.acc .a else s.acc .b).setWidth 64)).setSr
        (maxSr (notPositive (form.image (s.acc .b) - form.image (s.acc .a)))
          (s.registers Reg.sr))).finalize := by
  rw [DspState.execute_eq, DataPath.emit, ← after_maxTail]
  cases form with
  | max =>
    simp only [MaxForm.alu, Alu.emitParallelAlu, Alu.emitAluMax, Alu.after_bind, Alu.value_loadAcc,
      Alu.after_loadAcc, enter_acc, DspState.reloadAcc_eq, mask56_sub, MaxForm.image]
  | maxm =>
    simp only [MaxForm.alu, Alu.emitParallelAlu, Alu.emitAluMaxm, Alu.after_bind,
      Alu.value_loadAcc, Alu.after_loadAcc, enter_acc, DspState.reloadAcc_eq, abs56_eq, mask56_sub,
      MaxForm.image]

theorem max_coherent (v : BitVec 64) (w : Word) : (((enter s).setAcc .b v).setSr w).Coherent :=
  ((Coherent.enter s).setAcc .b v).setSr w

theorem max_acc_a (form : MaxForm) : (s.execute (.parallelAlu form.alu)).acc .a = s.acc .a := by
  rw [execute_max, finalize_acc (max_coherent s _ _), setSr_acc,
    setAcc_acc_other _ _ _ (by decide)]
  rfl

theorem max_acc_b (form : MaxForm) : (s.execute (.parallelAlu form.alu)).acc .b =
    if notPositive (form.image (s.acc .b) - form.image (s.acc .a)) then s.acc .a else s.acc .b := by
  rw [execute_max, finalize_acc (max_coherent s _ _), setSr_acc, setAcc_acc, widen_narrow]

theorem max_carry (form : MaxForm) :
    flag ((s.execute (.parallelAlu form.alu)).registers Reg.sr) Sr.c =
      !notPositive (form.image (s.acc .b) - form.image (s.acc .a)) := by
  rw [execute_max, finalize_sr, flush_settled rfl, setSr_sr, flag_maxSr]

/-- The form chooses the larger exactly where it can tell. -/
theorem chosen_iff (form : MaxForm) :
    form.Chosen s (s.execute (.parallelAlu form.alu)) ↔ form.Comparable (s.acc .a) (s.acc .b) := by
  rw [← form.notPositive_image]
  constructor
  · intro h
    rw [← h.carry, max_carry, Bool.not_eq_false']
  · intro h
    have hchosen : (s.execute (.parallelAlu form.alu)).acc .b =
        form.larger (s.acc .a) (s.acc .b) := by
      rw [max_acc_b, MaxForm.larger]
      simp only [h]
    refine ⟨max_acc_a s form, hchosen, ?_, ?_⟩
    · rw [hchosen, form.key_larger]
    · rw [max_carry, Bool.not_eq_false', h]

end Step

/-! Runs. -/

namespace MaxForm

/-- Values are loaded in A one after the other, each followed by the form. -/
inductive Run (form : MaxForm) : DspState σ → List (BitVec 56) → DspState σ → Prop
  | nil (s) : Run form s [] s
  | snoc {s t u : DspState σ} {vs : List (BitVec 56)} {v : BitVec 56} (run : Run form s vs t)
      (loaded : u.acc .a = v) (other : u.acc .b = t.acc .b) :
      Run form s (vs ++ [v]) (u.execute (.parallelAlu form.alu))

/-- Every value can be told from the largest before it. -/
def Ordered (form : MaxForm) : BitVec 56 → List (BitVec 56) → Prop
  | _, [] => True
  | b, v :: vs => form.Comparable v b ∧ form.Ordered (form.larger v b) vs

instance (form : MaxForm) : ∀ b vs, Decidable (form.Ordered b vs)
  | _, [] => inferInstanceAs (Decidable True)
  | b, v :: vs =>
    have := instDecidableOrdered form (form.larger v b) vs
    inferInstanceAs (Decidable (_ ∧ _))

/-- B is the largest of the values and of what it was, and A the last value. -/
structure Maximum (form : MaxForm) (s : DspState σ) (vs : List (BitVec 56)) (t : DspState σ) :
    Prop where
  among : t.acc .b ∈ s.acc .b :: vs
  largest : ∀ v ∈ s.acc .b :: vs, form.key v ≤ form.key (t.acc .b)
  kept : ∀ v, vs.getLast? = some v → t.acc .a = v

/-- The largest so far. -/
def running (form : MaxForm) (b : BitVec 56) (vs : List (BitVec 56)) : BitVec 56 :=
  vs.foldl (fun b v => form.larger v b) b

theorem ordered_snoc (form : MaxForm) (b v : BitVec 56) (vs : List (BitVec 56)) :
    form.Ordered b (vs ++ [v]) ↔ form.Ordered b vs ∧ form.Comparable v (form.running b vs) := by
  induction vs generalizing b with
  | nil => simp [Ordered, running]
  | cons w vs ih => simp [Ordered, running, ih, and_assoc]

theorem Run.running {form : MaxForm} {s t : DspState σ} {vs : List (BitVec 56)}
    (h : form.Run s vs t) (hordered : form.Ordered (s.acc .b) vs) :
    t.acc .b = form.running (s.acc .b) vs := by
  induction h with
  | nil => rfl
  | snoc run loaded other ih =>
    obtain ⟨hvs, hv⟩ := (form.ordered_snoc ..).mp hordered
    have hb := other.trans (ih hvs)
    have hchosen := ((chosen_iff _ form).mpr (by rw [loaded, hb]; exact hv)).chosen
    rw [hchosen, loaded, hb, MaxForm.running, MaxForm.running, List.foldl_append]
    rfl

theorem running_spec (form : MaxForm) (b : BitVec 56) (vs : List (BitVec 56)) :
    form.running b vs ∈ b :: vs ∧ ∀ v ∈ b :: vs, form.key v ≤ form.key (form.running b vs) := by
  induction vs generalizing b with
  | nil => simp [running]
  | cons w vs ih =>
    obtain ⟨hmem, hle⟩ := ih (form.larger w b)
    have hkey := form.key_larger w b
    have hnext : form.running b (w :: vs) = form.running (form.larger w b) vs := rfl
    have hlarger : form.larger w b = w ∨ form.larger w b = b := by
      rw [larger]
      split
      · exact .inl rfl
      · exact .inr rfl
    have hfirst := hle _ (List.mem_cons_self ..)
    rw [hnext]
    refine ⟨?_, fun v hv => ?_⟩
    · rcases List.mem_cons.mp hmem with h | h
      · rw [h]
        rcases hlarger with h' | h' <;> simp [h']
      · simp [h]
    · rcases List.mem_cons.mp hv with rfl | hv
      · omega
      · rcases List.mem_cons.mp hv with rfl | hv
        · omega
        · exact hle v (List.mem_cons_of_mem _ hv)

/-- The form leaves A as it was loaded, whatever B was. -/
theorem Run.kept {form : MaxForm} {s t : DspState σ} {vs : List (BitVec 56)}
    (h : form.Run s vs t) (v : BitVec 56) (hv : vs.getLast? = some v) : t.acc .a = v := by
  cases h with
  | nil => simp at hv
  | snoc run loaded other =>
    rw [List.getLast?_concat] at hv
    rw [max_acc_a, loaded, Option.some.inj hv]

end MaxForm

/-- One execution is the maximum exactly where the difference of the keys fits; so is every run of
such executions. -/
theorem maxima (form : MaxForm) :
    (∀ s : DspState σ, form.Chosen s (s.execute (.parallelAlu form.alu)) ↔
      form.Comparable (s.acc .a) (s.acc .b)) ∧
    ∀ (s t : DspState σ) (vs : List (BitVec 56)), form.Run s vs t →
      form.Ordered (s.acc .b) vs → form.Maximum s vs t := by
  refine ⟨fun s => chosen_iff s form, fun s t vs hrun hordered => ?_⟩
  obtain ⟨hmem, hle⟩ := form.running_spec (s.acc .b) vs
  rw [← hrun.running hordered] at hmem hle
  exact ⟨hmem, hle, hrun.kept⟩

/-- -7 loaded over 5. -/
theorem maxima_loaded :
    let s := DspState.ofRegs [(Reg.b0, 5)]
    let u := s.flushAccToMemory .a 0xFFFFFFFFFFFFF9
    MaxForm.maxm.Maximum s [0xFFFFFFFFFFFFF9] (u.execute (.parallelAlu .maxm)) := by
  intro s u
  have hrun : MaxForm.maxm.Run s ([] ++ [0xFFFFFFFFFFFFF9]) (u.execute (.parallelAlu .maxm)) :=
    .snoc (.nil s) (DspState.acc_flush _) (DspState.acc_flush_other (by decide) _)
  exact (maxima .maxm).2 s _ _ hrun (by decide)

/-- The greatest value is not chosen over the least, nor the largest magnitude over zero. -/
theorem max_wraps :
    (let s := DspState.ofRegs [(Reg.a2, 0x7F), (Reg.a1, 0xFFFFFF), (Reg.a0, 0xFFFFFF),
      (Reg.b2, 0x80)]
    ¬ MaxForm.max.Chosen s (s.execute (.parallelAlu .max))) ∧
    (let s := DspState.ofRegs [(Reg.b2, 0x80)]
    ¬ MaxForm.maxm.Chosen s (s.execute (.parallelAlu .maxm))) := by
  refine ⟨fun h => ?_, fun h => ?_⟩
  · exact absurd ((chosen_iff _ .max).mp h) (by decide)
  · exact absurd ((chosen_iff _ .maxm).mp h) (by decide)

end Dsp56300
