import Mathlib.Logic.Relation
import Dsp56300.Core.DecodeTable
import Dsp56300.Emu.EmitBlock

namespace Dsp56300

open Instruction

/-- No instruction but the last writes P memory. -/
def PWritesLast (es : List Emitted) : Prop :=
  ∀ e ∈ es.dropLast, e.inst.writesPMemory = false

theorem PWritesLast.of_forall {es : List Emitted} (h : ∀ e ∈ es, e.inst.writesPMemory = false) :
    PWritesLast es :=
  fun e he => h e (List.mem_of_mem_dropLast he)

theorem PWritesLast.of_append {es fs : List Emitted} (hf : fs ≠ [])
    (h : PWritesLast (es ++ fs)) : ∀ e ∈ es, e.inst.writesPMemory = false := by
  intro e he
  refine h e ?_
  rw [List.dropLast_append_of_ne_nil hf]
  exact List.mem_append_left _ he

theorem PWritesLast.append_singleton {es : List Emitted} (e : Emitted)
    (h : ∀ e ∈ es, e.inst.writesPMemory = false) : PWritesLast (es ++ [e]) := by
  intro x hx
  rw [List.dropLast_concat] at hx
  exact h x hx

namespace Pram

variable {p : Pram} {maxLen stopPc fuel : Nat} {s t : BlockState}

/-- The iteration at `s` inlines a REP whose target writes P memory. -/
def InlinesRepWrite (p : Pram) (maxLen : Nat) (s : BlockState) : Prop :=
  p.exhausted maxLen s = false ∧ (p.instAt s.pc).isRepInstruction = true ∧
    repFallsBack (decode (p.nextWord s.pc)) = false ∧
    (p.instAt (s.pc + 1)).writesPMemory = true

/-- The iteration at `s` inlines a REP whose target writes P memory, and neither the loop
boundary nor the budget nor the end of P memory ends the block behind it. -/
def RunsOnPastRepWrite (p : Pram) (maxLen stopPc : Nat) (s : BlockState) : Prop :=
  p.InlinesRepWrite maxLen s ∧ p.afterRep s.pc < stopPc ∧ p.afterRep s.pc < p.spaceEnd ∧
    s.count + 2 < maxLen

/-- One iteration after which the block goes on. -/
def GoesOn (p : Pram) (maxLen stopPc : Nat) (s t : BlockState) : Prop :=
  p.emitIteration maxLen stopPc s = some (.next t)

/-- How an iteration that emits ends: what it appends, and where a P write can be in it. -/
structure Emits (p : Pram) (maxLen stopPc : Nat) (s : BlockState) (it : Iteration)
    (es : List Emitted) : Prop where
  nonempty : es ≠ []
  emitted : it.state.emitted = s.emitted ++ es
  advances : s.pc < it.state.pc
  writes : (∀ e ∈ es, e.inst.writesPMemory = false) ∨
    (∃ e t b, es = [e] ∧ it = .done t b) ∨
    p.InlinesRepWrite maxLen s ∧ es = p.emitRepInline (p.instAt s.pc) s.pc ∧
      it.state.pc = p.afterRep s.pc ∧ it.state.count = s.count + 2 ∧
      (∀ t, it = .next t → p.afterRep s.pc < stopPc)

theorem emitRep_inlines (stopPc : Nat) (hf : repFallsBack (decode (p.nextWord s.pc)) = false) :
    ∃ t : BlockState, t.pc = p.afterRep s.pc ∧ t.count = s.count + 2 ∧
      t.emitted = s.emitted ++ p.emitRepInline (p.instAt s.pc) s.pc ∧
      p.emitRep stopPc s = if p.afterRep s.pc ≥ stopPc then .done t false else .next t :=
  ⟨⟨p.afterRep s.pc, s.count + 2, s.openSkips, s.emitted ++ p.emitRepInline (p.instAt s.pc) s.pc⟩,
    rfl, rfl, rfl, by simp only [emitRep, hf, Bool.false_eq_true, ↓reduceIte]⟩

theorem emitRep_emits (stopPc : Nat) (hx : p.exhausted maxLen s = false)
    (hr : (p.instAt s.pc).isRepInstruction = true) :
    ∃ es, p.Emits maxLen stopPc s (p.emitRep stopPc s) es := by
  have hl := instructionLength_pos (p.instAt s.pc)
  have ha := p.lt_afterRep s.pc
  cases hf : repFallsBack (decode (p.nextWord s.pc)) with
  | true =>
    simp only [emitRep, hf, ↓reduceIte]
    exact ⟨[⟨s.pc, p.instAt s.pc⟩], by simp, rfl, Nat.lt_add_of_pos_right hl,
      .inl (by simpa using not_writesPMemory_of_rep hr)⟩
  | false =>
    obtain ⟨t, hpc, hcount, hemitted, he⟩ := emitRep_inlines stopPc hf
    have hst : (p.emitRep stopPc s).state = t := by
      rw [he]
      split <;> rfl
    refine ⟨p.emitRepInline (p.instAt s.pc) s.pc, by simp [emitRepInline], by rw [hst, hemitted],
      by rw [hst]; omega, ?_⟩
    cases hw : (p.instAt (s.pc + 1)).writesPMemory with
    | true =>
      refine .inr (.inr ⟨⟨hx, hr, hf, hw⟩, rfl, by rw [hst, hpc], by rw [hst, hcount], ?_⟩)
      intro u hu
      rw [he] at hu
      split at hu
      · cases hu
      · omega
    | false => exact .inl (by simp [emitRepInline, hw, not_writesPMemory_of_rep hr])

theorem emitDo_emits (hd : (p.instAt s.pc).isDoInstruction = true) :
    ∃ it es, p.emitDo stopPc s = some it ∧ p.Emits maxLen stopPc s it es := by
  have hl := instructionLength_pos (p.instAt s.pc)
  have hw := not_writesPMemory_of_do hd
  have hla := computeDoLa_lt (p.instAt s.pc) s.pc (p.nextWord s.pc)
  have hterm : p.Emits maxLen stopPc s (.done { s with
      pc := s.pc + instructionLength (p.instAt s.pc)
      emitted := s.emitted ++ [⟨s.pc, p.instAt s.pc⟩] } true) [⟨s.pc, p.instAt s.pc⟩] :=
    ⟨by simp, rfl, Nat.lt_add_of_pos_right hl, .inl (by simpa using hw)⟩
  simp only [emitDo]
  by_cases hf : (p.instAt s.pc).isDoForever = true
  · simp only [if_pos hf, Option.bind_eq_bind, Option.bind_some, Bool.false_eq_true, ↓reduceIte]
    exact ⟨_, _, rfl, hterm⟩
  · rw [if_neg hf]
    obtain ⟨b, hb⟩ := isDoBodyInlineable_defined p (s.pc + 2) stopPc hla
    cases b with
    | false =>
      simp only [hb, Option.bind_eq_bind, Option.bind_some, Bool.false_eq_true, ↓reduceIte]
      exact ⟨_, _, rfl, hterm⟩
    | true =>
      obtain ⟨hle, ⟨n, hn⟩, es, he, hes⟩ := emitDoInline_spec (p.instAt s.pc) hla hb
      simp only [hb, he, hn, Option.bind_eq_bind, Option.bind_some, ↓reduceIte]
      refine ⟨_, ⟨s.pc, p.instAt s.pc⟩ :: es, rfl, List.cons_ne_nil _ _, ?_, ?_,
        .inl (List.forall_mem_cons.mpr ⟨hw, hes⟩)⟩
      · split <;> rfl
      · split <;> (simp only [Iteration.state]; omega)

theorem emitPlain_emits (p : Pram) (maxLen stopPc : Nat) (s : BlockState) :
    ∃ es, p.Emits maxLen stopPc s (p.emitPlain stopPc s) es := by
  have hl := instructionLength_pos (p.instAt s.pc)
  refine ⟨[⟨s.pc, p.instAt s.pc⟩], by simp, ?_, ?_, ?_⟩
  · simp only [emitPlain]
    split <;> rfl
  · simp only [emitPlain]
    split <;> exact Nat.lt_add_of_pos_right hl
  · simp only [emitPlain]
    split
    · exact .inr (.inl ⟨_, _, _, rfl, rfl⟩)
    · rename_i h
      simp only [Bool.or_eq_true, not_or, Bool.not_eq_true] at h
      exact .inl (by simpa using h.2)

/-- Every instruction the translator takes up is emitted. -/
theorem emitNext_emits (stopPc : Nat) (hx : p.exhausted maxLen s = false) :
    ∃ it es, p.emitNext maxLen stopPc s = some it ∧ p.Emits maxLen stopPc s it es := by
  simp only [emitNext]
  cases ha : p.acceptedSkip maxLen stopPc s with
  | some target =>
    refine ⟨_, [⟨s.pc, p.instAt s.pc⟩], rfl, by simp, rfl, ?_, .inl ?_⟩
    · exact Nat.lt_add_of_pos_right (instructionLength_pos _)
    · rw [acceptedSkip, Option.filter_eq_some_iff] at ha
      simpa using not_writesPMemory_of_skip ha.1
  | none =>
    simp only
    split
    · rename_i hr
      obtain ⟨es, he⟩ := emitRep_emits stopPc hx hr
      exact ⟨_, es, rfl, he⟩
    · split
      · rename_i hd
        exact emitDo_emits hd
      · obtain ⟨es, he⟩ := emitPlain_emits p maxLen stopPc s
        exact ⟨_, es, rfl, he⟩

theorem emitNext_rep (hr : (p.instAt s.pc).isRepInstruction = true) :
    p.emitNext maxLen stopPc s = some (p.emitRep stopPc s) := by
  have hs : p.acceptedSkip maxLen stopPc s = none := by
    cases ha : p.acceptedSkip maxLen stopPc s with
    | none => rfl
    | some target =>
      rw [acceptedSkip, Option.filter_eq_some_iff] at ha
      rw [(not_loop_of_skip ha.1).2] at hr
      cases hr
  simp only [emitNext, hs, hr, ↓reduceIte]

theorem emitIteration_exhausted (hx : p.exhausted maxLen s = true) :
    p.emitIteration maxLen stopPc s = some (.done s.closeSkips false) := by
  simp only [emitIteration, exhausted_closeSkips, hx, ↓reduceIte]

theorem emitIteration_emits (stopPc : Nat) (hx : p.exhausted maxLen s = false) :
    ∃ it es, p.emitIteration maxLen stopPc s = some it ∧ p.Emits maxLen stopPc s it es := by
  have hx' : p.exhausted maxLen s.closeSkips = false := hx
  obtain ⟨it, es, hi, he⟩ := emitNext_emits stopPc hx'
  refine ⟨it, es, ?_, he.nonempty, he.emitted, he.advances, he.writes⟩
  simp only [emitIteration, hx', Bool.false_eq_true, ↓reduceIte, hi]

/-- The block loop ends: every iteration moves on, and P memory is finite. -/
theorem emitLoop_defined (hf : p.spaceEnd < s.pc + fuel) (hpos : 0 < fuel) :
    ∃ b, p.emitLoop maxLen stopPc fuel s = some b := by
  induction fuel generalizing s with
  | zero => omega
  | succ fuel ih =>
    simp only [emitLoop]
    cases hx : p.exhausted maxLen s with
    | true => exact ⟨_, by rw [emitIteration_exhausted hx]; rfl⟩
    | false =>
      have hlt : s.pc < p.spaceEnd := by
        simp only [exhausted, Bool.or_eq_false_iff, decide_eq_false_iff_not] at hx
        omega
      obtain ⟨it, es, hi, he⟩ := emitIteration_emits stopPc hx
      rw [hi]
      cases it with
      | done t b => exact ⟨_, rfl⟩
      | next t =>
        have ha := he.advances
        simp only [Iteration.state] at ha
        exact ih (by omega) (by omega)

/-- A block only grows, and within the budget it does grow. -/
theorem emitLoop_appends {b : EmittedBlock} (h : p.emitLoop maxLen stopPc fuel s = some b) :
    ∃ es, b.emitted = s.emitted ++ es ∧ (p.exhausted maxLen s = false → es ≠ []) := by
  induction fuel generalizing s with
  | zero => simp [emitLoop] at h
  | succ fuel ih =>
    simp only [emitLoop] at h
    cases hx : p.exhausted maxLen s with
    | true =>
      rw [emitIteration_exhausted hx] at h
      cases h
      exact ⟨[], by simp⟩
    | false =>
      obtain ⟨it, es, hi, he⟩ := emitIteration_emits stopPc hx
      rw [hi] at h
      have hm := he.emitted
      cases it with
      | done t b =>
        cases h
        exact ⟨es, hm, fun _ => he.nonempty⟩
      | next t =>
        obtain ⟨fs, hb, -⟩ := ih h
        simp only [Iteration.state] at hm
        exact ⟨es ++ fs, by rw [hb, hm, List.append_assoc], fun _ => by simp [he.nonempty]⟩

/-- The loop goes through every state it can reach. -/
theorem emitLoop_of_reaches {b : EmittedBlock}
    (hr : Relation.ReflTransGen (p.GoesOn maxLen stopPc) s t)
    (h : p.emitLoop maxLen stopPc fuel s = some b) :
    ∃ fuel', p.emitLoop maxLen stopPc fuel' t = some b := by
  induction hr using Relation.ReflTransGen.head_induction_on generalizing fuel with
  | refl => exact ⟨fuel, h⟩
  | head hs _ ih =>
    cases fuel with
    | zero => simp [emitLoop] at h
    | succ fuel =>
      simp only [emitLoop, show p.emitIteration maxLen stopPc _ = _ from hs] at h
      exact ih h

/-- A run whose iterations never go on past a repeated P write builds a block in which only
the last instruction writes P memory. -/
theorem emitLoop_pWritesLast {b : EmittedBlock}
    (hclean : ∀ e ∈ s.emitted, e.inst.writesPMemory = false)
    (hn : ∀ t, Relation.ReflTransGen (p.GoesOn maxLen stopPc) s t →
      ¬ p.RunsOnPastRepWrite maxLen stopPc t)
    (h : p.emitLoop maxLen stopPc fuel s = some b) : PWritesLast b.emitted := by
  induction fuel generalizing s with
  | zero => simp [emitLoop] at h
  | succ fuel ih =>
    simp only [emitLoop] at h
    cases hx : p.exhausted maxLen s with
    | true =>
      rw [emitIteration_exhausted hx] at h
      cases h
      exact .of_forall hclean
    | false =>
      obtain ⟨it, es, hi, he⟩ := emitIteration_emits stopPc hx
      have hm := he.emitted
      rcases he.writes with hc | ⟨e, t, b', rfl, rfl⟩ | ⟨hw, rfl, hpc, hcount, hstop⟩
      · have hclean' : ∀ e ∈ it.state.emitted, e.inst.writesPMemory = false := by
          rw [hm]
          exact List.forall_mem_append.mpr ⟨hclean, hc⟩
        rw [hi] at h
        cases it with
        | done t b =>
          cases h
          exact .of_forall hclean'
        | next t => exact ih hclean' (fun u hu => hn u (.head hi hu)) h
      · rw [hi] at h
        cases h
        simp only [Iteration.state] at hm
        rw [hm]
        exact .append_singleton e hclean
      · have hlast : PWritesLast it.state.emitted := by
          rw [hm, emitRepInline, List.append_cons]
          refine .append_singleton _ (List.forall_mem_append.mpr ⟨hclean, ?_⟩)
          simpa using not_writesPMemory_of_rep hw.2.1
        rw [hi] at h
        cases it with
        | done t b =>
          cases h
          exact hlast
        | next t =>
          -- the block stops behind the write: the loop boundary is not reached
          have hxt : p.exhausted maxLen t = true := by
            by_contra hxt
            simp only [exhausted, Bool.not_eq_true, Bool.or_eq_false_iff,
              decide_eq_false_iff_not] at hxt
            simp only [Iteration.state] at hpc hcount
            exact hn s .refl ⟨hw, hstop t rfl, by omega, by omega⟩
          cases fuel with
          | zero => simp [emitLoop] at h
          | succ fuel =>
            change p.emitLoop maxLen stopPc (fuel + 1) t = some b at h
            simp only [emitLoop, emitIteration_exhausted hxt] at h
            cases h
            exact hlast

/-- An iteration that runs on past a repeated P write leaves a block that holds an
instruction behind the write. -/
theorem not_pWritesLast_of_runsOn {b : EmittedBlock} (hr : p.RunsOnPastRepWrite maxLen stopPc s)
    (h : p.emitLoop maxLen stopPc fuel s = some b) : ¬ PWritesLast b.emitted := by
  obtain ⟨⟨hx, hrep, hfall, hw⟩, hstop, hend, hcount⟩ := hr
  have hx' : p.exhausted maxLen s.closeSkips = false := hx
  have hfall' : repFallsBack (decode (p.nextWord s.closeSkips.pc)) = false := hfall
  obtain ⟨t, hpc, hc, hm, he⟩ := emitRep_inlines stopPc hfall'
  have hi : p.emitIteration maxLen stopPc s = some (.next t) := by
    simp only [emitIteration, hx', Bool.false_eq_true, ↓reduceIte]
    rw [emitNext_rep (show (p.instAt s.closeSkips.pc).isRepInstruction = true from hrep), he,
      if_neg (show ¬ p.afterRep s.closeSkips.pc ≥ stopPc from Nat.not_le.mpr hstop)]
  have hxt : p.exhausted maxLen t = false := by
    simp only [exhausted, Bool.or_eq_false_iff, decide_eq_false_iff_not, hpc, hc,
      BlockState.closeSkips_pc, BlockState.closeSkips_count]
    omega
  cases fuel with
  | zero => simp [emitLoop] at h
  | succ fuel =>
    simp only [emitLoop, hi, Option.bind_eq_bind, Option.bind_some] at h
    obtain ⟨es, hb, hne⟩ := emitLoop_appends h
    intro hl
    rw [hb] at hl
    have hn := hl.of_append (hne hxt) ⟨s.pc + 1, p.instAt (s.pc + 1)⟩ (by
      rw [hm]
      simp [emitRepInline])
    rw [hn] at hw
    cases hw

theorem emitBlock_defined (p : Pram) (startPc maxLen stopPc : Nat) :
    ∃ b, p.emitBlock startPc maxLen stopPc = some b :=
  emitLoop_defined (by simp only [blockStart]; omega) (Nat.succ_pos _)

/-- In the block `emitBlock` builds, an instruction that writes P memory is the last one,
exactly when no iteration of its loop inlines a REP of such an instruction and runs on. -/
theorem p_writes_end_block_iff (p : Pram) (startPc maxLen stopPc : Nat) :
    ∃ b, p.emitBlock startPc maxLen stopPc = some b ∧
      (PWritesLast b.emitted ↔
        ∀ s, Relation.ReflTransGen (p.GoesOn maxLen stopPc) (blockStart startPc) s →
          ¬ p.RunsOnPastRepWrite maxLen stopPc s) := by
  obtain ⟨b, hb⟩ := p.emitBlock_defined startPc maxLen stopPc
  refine ⟨b, hb, ?_, ?_⟩
  · intro hl s hs hr
    obtain ⟨fuel, hf⟩ := emitLoop_of_reaches hs hb
    exact not_pWritesLast_of_runsOn hr hf hl
  · intro hn
    exact emitLoop_pWritesLast (by simp [blockStart]) hn hb

/-- rep #2, then movem r0,p:(r1)+, then a nop. -/
def repeatedPWrite : Pram where
  spaceEnd := 3
  word
    | 0 => 0x0602A0
    | 1 => 0x075990
    | _ => 0

/-- The nop stands in the block behind the repeated P write. -/
theorem repeated_p_write_mid_block :
    ∃ b, repeatedPWrite.emitBlock 0 32 0xFFFFFFFF = some b ∧ ¬ PWritesLast b.emitted := by
  have hrep : repeatedPWrite.instAt 0 = .repImm 2 := by
    rw [show repeatedPWrite.instAt 0 = decode 0x0602A0 from rfl,
      decode_at 170 rfl (by decide) (by decide) (by decide)]
    rfl
  have hword : decode 0x075990 = .movemEa 0x19 0x10 false := by
    rw [decode_at 140 rfl (by decide) (by decide) (by decide)]
    rfl
  have hmovem : repeatedPWrite.instAt (0 + 1) = .movemEa 0x19 0x10 false := hword
  have hnext : repeatedPWrite.nextWord 0 = 0x075990 := by decide
  have hafter : repeatedPWrite.afterRep 0 = 2 := afterRep_of hmovem
  obtain ⟨b, hb⟩ := repeatedPWrite.emitBlock_defined 0 32 0xFFFFFFFF
  refine ⟨b, hb, not_pWritesLast_of_runsOn ⟨⟨by decide, ?_, ?_, ?_⟩, ?_, ?_, by decide⟩ hb⟩
  · exact congrArg isRepInstruction hrep
  · rw [show (blockStart 0).pc = 0 from rfl, hnext, hword]
    decide
  · exact congrArg writesPMemory hmovem
  · exact hafter.symm ▸ (by decide)
  · exact hafter.symm ▸ (by decide)

end Pram

end Dsp56300
