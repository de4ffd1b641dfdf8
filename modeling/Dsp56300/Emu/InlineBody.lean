import Dsp56300.Emu.LoopInline

namespace Dsp56300.Pram

open Instruction

variable {p : Pram} {la pc depth count : Nat} {skips : List Nat}

/-- The DO bodies [pc, la] the scan accepts, one instruction at a time. -/
inductive InlineBody (p : Pram) : (la pc : Nat) → Prop where
  | done {la : Nat} : InlineBody p la (la + 1)
  | skip {la pc target : Nat} (hpc : pc ≤ la)
      (ht : (p.instAt pc).forwardSkipTarget pc (p.nextWord pc) = some target)
      (hr : InlineBody p la (pc + instructionLength (p.instAt pc))) : InlineBody p la pc
  | nest {la pc : Nat} (hpc : pc ≤ la)
      (ht : (p.instAt pc).forwardSkipTarget pc (p.nextWord pc) = none)
      (hd : (p.instAt pc).isDoInstruction = true)
      (hstart : pc + 2 ≤ (p.instAt pc).computeDoLa pc (p.nextWord pc))
      (hla : (p.instAt pc).computeDoLa pc (p.nextWord pc) < la)
      (hi : InlineBody p ((p.instAt pc).computeDoLa pc (p.nextWord pc)) (pc + 2))
      (hr : InlineBody p la ((p.instAt pc).computeDoLa pc (p.nextWord pc) + 1)) :
      InlineBody p la pc
  | rep {la pc : Nat} (hpc : pc ≤ la)
      (ht : (p.instAt pc).forwardSkipTarget pc (p.nextWord pc) = none)
      (hd : (p.instAt pc).isDoInstruction = false)
      (hrep : (p.instAt pc).isRepInstruction = true)
      (hw : (p.instAt (pc + 1)).writesPMemory = false) (hend : p.afterRep pc ≤ la + 1)
      (hr : InlineBody p la (p.afterRep pc)) : InlineBody p la pc
  | plain {la pc : Nat} (hpc : pc ≤ la)
      (ht : (p.instAt pc).forwardSkipTarget pc (p.nextWord pc) = none)
      (hd : (p.instAt pc).isDoInstruction = false)
      (hrep : (p.instAt pc).isRepInstruction = false)
      (hw : (p.instAt pc).writesPMemory = false)
      (hr : InlineBody p la (pc + instructionLength (p.instAt pc))) : InlineBody p la pc

theorem bodyFits_start {bodyStart outerStopPc : Nat}
    (h : p.bodyFits depth bodyStart la outerStopPc = true) :
    bodyStart ≤ la ∧ la + 1 < outerStopPc ∧ la < p.spaceEnd := by
  simp only [bodyFits, Bool.and_eq_true, decide_eq_true_eq] at h
  exact ⟨h.2, h.1.2, h.1.1.2⟩

theorem writesPMemory_of_unsafeInBody {inst : Instruction} (h : unsafeInBody inst = false) :
    inst.writesPMemory = false := by
  simp only [unsafeInBody, Bool.or_eq_false_iff] at h
  exact h.1.2

theorem writesPMemory_of_unsafeRepTarget {inst : Instruction}
    (h : unsafeRepTarget inst = false) : inst.writesPMemory = false := by
  simp only [unsafeRepTarget, Bool.or_eq_false_iff] at h
  exact h.1.1.1.2

/-- What the scan accepts is an inlineable body. -/
theorem InlineBody.of_scan {fuel : Nat} (h : p.bodyScan fuel depth la pc count skips = some true) :
    InlineBody p la pc := by
  induction fuel generalizing depth la pc count skips with
  | zero => simp [bodyScan] at h
  | succ fuel ih =>
    simp only [bodyScan] at h
    by_cases hpc : pc ≤ la
    · rw [if_pos hpc] at h
      split at h
      · simp at h
      · cases ht : (p.instAt pc).forwardSkipTarget pc (p.nextWord pc) with
        | some target =>
          simp only [ht] at h
          split at h
          · simp at h
          · exact .skip hpc ht (ih h)
        | none =>
          simp only [ht] at h
          split at h
          · rename_i hd
            split at h
            · simp at h
            · rename_i hn
              split at h
              · simp at h
              · rename_i hf
                simp only [Option.bind_eq_bind, Option.bind_eq_some_iff] at h
                obtain ⟨inner, hi, h⟩ := h
                split at h
                · simp at h
                · rename_i hin
                  simp only [Option.bind_eq_some_iff] at h
                  obtain ⟨n, -, h⟩ := h
                  have hinner : inner = true := by simpa using hin
                  subst hinner
                  simp only [ge_iff_le, Bool.or_eq_true, decide_eq_true_eq, not_or] at hn
                  have hfit := bodyFits_start (by simpa using hf)
                  exact .nest hpc ht hd hfit.1 (by omega) (ih hi) (ih h)
          · rename_i hd
            split at h
            · simp at h
            · rename_i hu
              split at h
              · rename_i hrep
                split at h
                · simp at h
                · rename_i hn
                  simp only [Bool.or_eq_true, not_or, Bool.not_eq_true,
                    decide_eq_false_iff_not] at hn
                  exact .rep hpc ht (by simpa using hd) hrep
                    (writesPMemory_of_unsafeRepTarget hn.1.2) (by omega) (ih h)
              · rename_i hrep
                exact .plain hpc ht (by simpa using hd) (by simpa using hrep)
                  (writesPMemory_of_unsafeInBody (by simpa using hu)) (ih h)
    · rw [if_neg hpc] at h
      simp only [Option.some.injEq, Bool.and_eq_true, decide_eq_true_eq] at h
      rw [h.1.1]
      exact .done

theorem lt_walkFuel (h : pc ≤ la) : la + 1 < pc + walkFuel pc la := by
  simp only [walkFuel]
  omega

/-- What `isDoBodyInlineable` accepts is an inlineable body. -/
theorem InlineBody.of_inlineable {bodyStart outerStopPc : Nat}
    (h : p.isDoBodyInlineable bodyStart la outerStopPc = some true) :
    bodyStart ≤ la ∧ InlineBody p la bodyStart := by
  simp only [isDoBodyInlineable] at h
  split at h
  · rename_i hf
    exact ⟨(bodyFits_start hf).1, .of_scan h⟩
  · simp at h

theorem lt_afterRep (p : Pram) (pc : Nat) : pc + 1 < p.afterRep pc := by
  have := instructionLength_pos (p.instAt (pc + 1))
  simp only [afterRep]
  omega

theorem afterRep_of {inst : Instruction} (h : p.instAt (pc + 1) = inst) :
    p.afterRep pc = pc + 1 + instructionLength inst := by
  rw [afterRep, h]

theorem maskPc_ofNat (v : Nat) : (maskPc (BitVec.ofNat 32 v)).toNat = v % 2 ^ 24 := by
  rw [toNat_maskPc, BitVec.toNat_ofNat]
  exact Nat.mod_mod_of_dvd v (by decide)

theorem nextWord_of_lt (p : Pram) {pc : Nat} (h : pc + 1 < 2 ^ 24) :
    p.nextWord pc = p.word (pc + 1) := by
  rw [nextWord, maskPc_ofNat, Nat.mod_eq_of_lt h]

/-- The budget count of an inlineable body is defined. -/
theorem InlineBody.count_defined (h : InlineBody p la pc) (hla : la < 2 ^ 24) (fuel : Nat)
    (hf : la + 1 < pc + fuel) : ∃ n, p.countBodyInstructions fuel pc la = some n := by
  induction h generalizing fuel with
  | done =>
    obtain ⟨fuel, rfl⟩ : ∃ k, fuel = k + 1 := ⟨fuel - 1, by omega⟩
    exact ⟨0, by simp [countBodyInstructions]⟩
  | @skip la pc target hpc ht hr ih =>
    obtain ⟨fuel, rfl⟩ : ∃ k, fuel = k + 1 := ⟨fuel - 1, by omega⟩
    have hl := instructionLength_pos (p.instAt pc)
    obtain ⟨n, hn⟩ := ih hla fuel (by omega)
    have hk := not_loop_of_skip ht
    exact ⟨1 + n, by simp [countBodyInstructions, hpc, hk, hn]⟩
  | @nest la pc hpc ht hd hstart hinner hi hr ihi ihr =>
    obtain ⟨fuel, rfl⟩ : ∃ k, fuel = k + 1 := ⟨fuel - 1, by omega⟩
    obtain ⟨m, hm⟩ := ihi (by omega) fuel (by omega)
    obtain ⟨n, hn⟩ := ihr hla fuel (by omega)
    exact ⟨1 + m + n, by simp [countBodyInstructions, hpc, hd, hm, hn]⟩
  | @rep la pc hpc ht hd hrep hw hend hr ih =>
    obtain ⟨fuel, rfl⟩ : ∃ k, fuel = k + 1 := ⟨fuel - 1, by omega⟩
    have hl := p.lt_afterRep pc
    obtain ⟨n, hn⟩ := ih hla fuel (by omega)
    rw [afterRep, instAt, ← p.nextWord_of_lt (by omega)] at hn
    exact ⟨2 + n, by simp [countBodyInstructions, hpc, hd, hrep, hn]⟩
  | @plain la pc hpc ht hd hrep hw hr ih =>
    obtain ⟨fuel, rfl⟩ : ∃ k, fuel = k + 1 := ⟨fuel - 1, by omega⟩
    have hl := instructionLength_pos (p.instAt pc)
    obtain ⟨n, hn⟩ := ih hla fuel (by omega)
    exact ⟨1 + n, by simp [countBodyInstructions, hpc, hd, hrep, hn]⟩

/-- The code emitted for an inlineable body is defined and writes no P memory. -/
theorem InlineBody.emit_defined (h : InlineBody p la pc) (fuel : Nat)
    (hf : la + 1 < pc + fuel) :
    ∃ es, p.emitDoBody fuel pc la = some es ∧ ∀ e ∈ es, e.inst.writesPMemory = false := by
  induction h generalizing fuel with
  | done =>
    obtain ⟨fuel, rfl⟩ : ∃ k, fuel = k + 1 := ⟨fuel - 1, by omega⟩
    exact ⟨[], by simp [emitDoBody]⟩
  | @skip la pc target hpc ht hr ih =>
    obtain ⟨fuel, rfl⟩ : ∃ k, fuel = k + 1 := ⟨fuel - 1, by omega⟩
    have hl := instructionLength_pos (p.instAt pc)
    obtain ⟨es, he, hes⟩ := ih fuel (by omega)
    exact ⟨⟨pc, p.instAt pc⟩ :: es, by simp [emitDoBody, hpc, ht, he],
      List.forall_mem_cons.mpr ⟨not_writesPMemory_of_skip ht, hes⟩⟩
  | @nest la pc hpc ht hd hstart hinner hi hr ihi ihr =>
    obtain ⟨fuel, rfl⟩ : ∃ k, fuel = k + 1 := ⟨fuel - 1, by omega⟩
    obtain ⟨es, he, hes⟩ := ihi fuel (by omega)
    obtain ⟨fs, hf', hfs⟩ := ihr fuel (by omega)
    exact ⟨⟨pc, p.instAt pc⟩ :: es ++ fs, by simp [emitDoBody, hpc, ht, hd, he, hf'],
      List.forall_mem_cons.mpr ⟨not_writesPMemory_of_do hd, List.forall_mem_append.mpr ⟨hes, hfs⟩⟩⟩
  | @rep la pc hpc ht hd hrep hw hend hr ih =>
    obtain ⟨fuel, rfl⟩ : ∃ k, fuel = k + 1 := ⟨fuel - 1, by omega⟩
    have hl := p.lt_afterRep pc
    obtain ⟨es, he, hes⟩ := ih fuel (by omega)
    refine ⟨p.emitRepInline (p.instAt pc) pc ++ es,
      by simp [emitDoBody, hpc, ht, hd, hrep, he], List.forall_mem_append.mpr ⟨?_, hes⟩⟩
    simp [emitRepInline, hw, not_writesPMemory_of_rep hrep]
  | @plain la pc hpc ht hd hrep hw hr ih =>
    obtain ⟨fuel, rfl⟩ : ∃ k, fuel = k + 1 := ⟨fuel - 1, by omega⟩
    have hl := instructionLength_pos (p.instAt pc)
    obtain ⟨es, he, hes⟩ := ih fuel (by omega)
    exact ⟨⟨pc, p.instAt pc⟩ :: es, by simp [emitDoBody, hpc, ht, hd, hrep, he],
      List.forall_mem_cons.mpr ⟨hw, hes⟩⟩

theorem computeDoLa_lt (inst : Instruction) (pc : Nat) (nw : Word) :
    inst.computeDoLa pc nw < 2 ^ 24 := by
  cases inst <;> first | exact mask24_lt _ | exact Nat.two_pow_pos 24

/-- The scan ends within the fuel `walkFuel` gives it. -/
theorem bodyScan_defined (p : Pram) {fuel : Nat} (depth la pc count : Nat) (skips : List Nat)
    (hla : la < 2 ^ 24) (hf : la + 1 < pc + fuel) (hpos : 0 < fuel) :
    ∃ b, p.bodyScan fuel depth la pc count skips = some b := by
  induction fuel generalizing depth la pc count skips with
  | zero => omega
  | succ fuel ih =>
    have hl := instructionLength_pos (p.instAt pc)
    have hl' := p.lt_afterRep pc
    simp only [bodyScan]
    by_cases hpc : pc ≤ la
    · rw [if_pos hpc]
      split
      · exact ⟨_, rfl⟩
      · cases ht : (p.instAt pc).forwardSkipTarget pc (p.nextWord pc) with
        | some target =>
          simp only
          split
          · exact ⟨_, rfl⟩
          · exact ih _ _ _ _ _ hla (by omega) (by omega)
        | none =>
          simp only
          split
          · split
            · exact ⟨_, rfl⟩
            · rename_i hn
              split
              · exact ⟨_, rfl⟩
              · rename_i hfit
                have hs := bodyFits_start (by simpa using hfit)
                simp only [ge_iff_le, Bool.or_eq_true, decide_eq_true_eq, not_or] at hn
                obtain ⟨b, hb⟩ := ih (depth + 1) ((p.instAt pc).computeDoLa pc (p.nextWord pc))
                  (pc + 2) 0 [] (by omega) (by omega) (by omega)
                rw [hb]
                cases b with
                | false => exact ⟨_, rfl⟩
                | true =>
                  obtain ⟨n, hc⟩ := (InlineBody.of_scan hb).count_defined (by omega) fuel
                    (by omega)
                  simp only [Option.bind_eq_bind, Option.bind_some, hc]
                  exact ih _ _ _ _ _ hla (by omega) (by omega)
          · split
            · exact ⟨_, rfl⟩
            · split
              · split
                · exact ⟨_, rfl⟩
                · exact ih _ _ _ _ _ hla (by omega) (by omega)
              · exact ih _ _ _ _ _ hla (by omega) (by omega)
    · rw [if_neg hpc]
      exact ⟨_, rfl⟩

theorem isDoBodyInlineable_defined (p : Pram) (bodyStart outerStopPc : Nat)
    (hla : la < 2 ^ 24) :
    ∃ b, p.isDoBodyInlineable bodyStart la outerStopPc = some b := by
  simp only [isDoBodyInlineable]
  split
  · rename_i hf
    have hs := bodyFits_start hf
    exact bodyScan_defined p 0 la bodyStart 0 [] hla (lt_walkFuel hs.1)
      (by simp only [walkFuel]; omega)
  · exact ⟨_, rfl⟩

/-- Where the scan accepts a DO body, what the translator emits for the loop and what it
counts for it are defined, and no instruction of it writes P memory. -/
theorem emitDoInline_spec (inst : Instruction) {doPc outerStopPc : Nat} (hla : la < 2 ^ 24)
    (h : p.isDoBodyInlineable (doPc + 2) la outerStopPc = some true) :
    doPc + 2 ≤ la ∧ (∃ n, p.countBodyInstructions (walkFuel (doPc + 2) la) (doPc + 2) la = some n) ∧
      ∃ es, p.emitDoInline inst doPc la = some (⟨doPc, inst⟩ :: es) ∧
        ∀ e ∈ es, e.inst.writesPMemory = false := by
  obtain ⟨hle, hb⟩ := InlineBody.of_inlineable h
  obtain ⟨es, he, hes⟩ := hb.emit_defined _ (lt_walkFuel hle)
  exact ⟨hle, hb.count_defined hla _ (lt_walkFuel hle), es, by simp [emitDoInline, he], hes⟩

end Dsp56300.Pram
