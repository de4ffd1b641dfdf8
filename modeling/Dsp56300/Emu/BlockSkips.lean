import Dsp56300.Emu.SkipWalks

namespace Dsp56300

open Instruction Lib.Spans

theorem Instruction.instructionLength_do {inst : Instruction} (h : inst.isDoInstruction = true) :
    instructionLength inst = 2 := by
  cases inst <;> first | rfl | simp [isDoInstruction] at h

theorem Instruction.instructionLength_rep {inst : Instruction} (h : inst.isRepInstruction = true) :
    instructionLength inst = 1 := by
  cases inst <;> first | rfl | simp [isRepInstruction] at h

namespace Pram

variable {p : Pram} {la pc depth count maxLen stopPc target : Nat} {skips : List Nat}
  {ms : List Mark} {s : BlockState}

/-- The DO bodies [pc, la] the scan accepts with `skips` open, and what it comes by there. -/
inductive SkipBody (p : Pram) : (la pc : Nat) → (skips : List Nat) → List Mark → Prop where
  | done {la : Nat} : SkipBody p la (la + 1) [] []
  | skip {la pc target : Nat} {skips : List Nat} {ms : List Mark} (hpc : pc ≤ la)
      (ht : (p.instAt pc).forwardSkipTarget pc (p.nextWord pc) = some target)
      (hlo : pc + p.width pc ≤ target)
      (hr : SkipBody p la (pc + p.width pc) (target :: popSkips pc skips) ms) :
      SkipBody p la pc skips (closings pc skips ++ .opens pc target :: ms)
  | nest {la pc : Nat} {skips : List Nat} {inner ms : List Mark} (hpc : pc ≤ la)
      (ht : (p.instAt pc).forwardSkipTarget pc (p.nextWord pc) = none)
      (hd : (p.instAt pc).isDoInstruction = true)
      (hstart : pc + 2 ≤ (p.instAt pc).computeDoLa pc (p.nextWord pc))
      (hla : (p.instAt pc).computeDoLa pc (p.nextWord pc) < la)
      (hopen : popSkips pc skips = [])
      (hi : SkipBody p ((p.instAt pc).computeDoLa pc (p.nextWord pc)) (pc + 2) [] inner)
      (hr : SkipBody p la ((p.instAt pc).computeDoLa pc (p.nextWord pc) + 1) [] ms) :
      SkipBody p la pc skips (closings pc skips ++ .item pc :: inner ++ ms)
  | rep {la pc : Nat} {skips : List Nat} {ms : List Mark} (hpc : pc ≤ la)
      (ht : (p.instAt pc).forwardSkipTarget pc (p.nextWord pc) = none)
      (hd : (p.instAt pc).isDoInstruction = false)
      (hrep : (p.instAt pc).isRepInstruction = true)
      (hend : p.afterRep pc ≤ la + 1)
      (hr : SkipBody p la (p.afterRep pc) (popSkips pc skips) ms) :
      SkipBody p la pc skips (closings pc skips ++ .item pc :: .item (pc + 1) :: ms)
  | plain {la pc : Nat} {skips : List Nat} {ms : List Mark} (hpc : pc ≤ la)
      (ht : (p.instAt pc).forwardSkipTarget pc (p.nextWord pc) = none)
      (hd : (p.instAt pc).isDoInstruction = false)
      (hrep : (p.instAt pc).isRepInstruction = false)
      (hr : SkipBody p la (pc + p.width pc) (popSkips pc skips) ms) :
      SkipBody p la pc skips (closings pc skips ++ .item pc :: ms)

/-- What the scan accepts. -/
theorem SkipBody.of_scan {fuel : Nat}
    (h : p.scanMarks fuel depth la pc count skips = some (some ms)) :
    SkipBody p la pc skips ms := by
  induction fuel generalizing depth la pc count skips ms with
  | zero => simp [scanMarks] at h
  | succ fuel ih =>
    -- the rest of the scan, behind what this step comes by
    have rest {d l q c : Nat} {ss : List Nat} {f : List Mark → List Mark}
        (h : Option.map f <$> p.scanMarks fuel d l q c ss = some (some ms)) :
        ∃ ns, SkipBody p l q ss ns ∧ ms = f ns := by
      simp only [Option.map_eq_map, Option.map_eq_some_iff] at h
      obtain ⟨_, hs, ns, rfl, rfl⟩ := h
      exact ⟨ns, ih hs, rfl⟩
    simp only [scanMarks] at h
    by_cases hpc : pc ≤ la
    · rw [if_pos hpc] at h
      split at h
      · simp at h
      · cases ht : (p.instAt pc).forwardSkipTarget pc (p.nextWord pc) with
        | some target =>
          simp only [ht] at h
          split at h
          · simp at h
          · rename_i hn
            obtain ⟨ns, hr, rfl⟩ := rest h
            simp only [Bool.or_eq_true, decide_eq_true_eq, not_or, Nat.not_lt] at hn
            exact .skip hpc ht hn.1.1 hr
        | none =>
          simp only [ht] at h
          split at h
          · rename_i hd
            split at h
            · simp at h
            · rename_i hn
              split at h
              · simp at h
              · rename_i hf
                simp only [Option.bind_eq_bind, Option.bind_eq_some_iff] at h
                obtain ⟨inner, hi, h⟩ := h
                cases inner with
                | none => simp at h
                | some inner =>
                  simp only [Option.bind_eq_some_iff] at h
                  obtain ⟨n, -, h⟩ := h
                  obtain ⟨ns, hr, rfl⟩ := rest h
                  simp only [ge_iff_le, Bool.or_eq_true, decide_eq_true_eq, not_or,
                    Bool.not_eq_true, Bool.not_eq_false', List.isEmpty_iff] at hn
                  have hfit := bodyFits_start (by simpa using hf)
                  rw [hn.1.1] at hr
                  exact .nest hpc ht hd hfit.1 (by omega) hn.1.1 (ih hi) hr
          · rename_i hd
            split at h
            · simp at h
            · split at h
              · rename_i hrep
                split at h
                · simp at h
                · rename_i hn
                  obtain ⟨ns, hr, rfl⟩ := rest h
                  simp only [Bool.or_eq_true, not_or, Bool.not_eq_true,
                    decide_eq_false_iff_not] at hn
                  exact .rep hpc ht (by simpa using hd) hrep (by omega) hr
              · rename_i hrep
                obtain ⟨ns, hr, rfl⟩ := rest h
                exact .plain hpc ht (by simpa using hd) (by simpa using hrep) hr
    · rw [if_neg hpc] at h
      simp only [Option.some.injEq] at h
      split at h
      · rename_i hn
        simp only [Bool.and_eq_true, decide_eq_true_eq, List.isEmpty_iff] at hn
        cases h
        rw [hn.1.1, hn.1.2]
        exact .done
      · cases h

/-- The scan comes by every instruction of the body and closes every skip where it ends. -/
theorem SkipBody.follow (h : SkipBody p la pc skips ms) :
    Lib.Spans.follow p.width (pc, skips) ms = some (la + 1, []) := by
  induction h with
  | done => rfl
  | @skip la pc target skips ms hpc ht hlo hr ih =>
    exact follow_trans (follow_closings p.width pc skips) (follow_opens hlo ih)
  | @nest la pc skips inner ms hpc ht hd hstart hla hopen hi hr ihi ihr =>
    have hw : p.width pc = 2 := instructionLength_do hd
    rw [List.append_assoc]
    refine follow_trans (follow_closings p.width pc skips) ?_
    rw [show skips.dropWhile (· = pc) = [] from hopen]
    exact follow_item (by rw [hw]; exact follow_trans ihi ihr)
  | @rep la pc skips ms hpc ht hd hrep hend hr ih =>
    have hw : p.width pc = 1 := instructionLength_rep hrep
    refine follow_trans (follow_closings p.width pc skips) (follow_item ?_)
    rw [hw]
    exact follow_item ih
  | @plain la pc skips ms hpc ht hd hrep hr ih =>
    exact follow_trans (follow_closings p.width pc skips) (follow_item ih)

/-- The walk that emits the body comes by what the scan comes by. -/
theorem SkipBody.emitDoMarks (h : SkipBody p la pc skips ms) (fuel : Nat)
    (hf : la + 1 < pc + fuel) : p.emitDoMarks fuel pc la skips = some ms := by
  induction h generalizing fuel with
  | done =>
    obtain ⟨fuel, rfl⟩ : ∃ k, fuel = k + 1 := ⟨fuel - 1, by omega⟩
    simp [Pram.emitDoMarks]
  | @skip la pc target skips ms hpc ht hlo hr ih =>
    obtain ⟨fuel, rfl⟩ : ∃ k, fuel = k + 1 := ⟨fuel - 1, by omega⟩
    have hl := instructionLength_pos (p.instAt pc)
    have he := ih fuel (by simp only [width]; omega)
    simp only [width] at he
    simp [Pram.emitDoMarks, hpc, ht, he]
  | @nest la pc skips inner ms hpc ht hd hstart hla hopen hi hr ihi ihr =>
    obtain ⟨fuel, rfl⟩ : ∃ k, fuel = k + 1 := ⟨fuel - 1, by omega⟩
    simp [Pram.emitDoMarks, hpc, ht, hd, hopen, ihi fuel (by omega), ihr fuel (by omega)]
  | @rep la pc skips ms hpc ht hd hrep hend hr ih =>
    obtain ⟨fuel, rfl⟩ : ∃ k, fuel = k + 1 := ⟨fuel - 1, by omega⟩
    have hl := p.lt_afterRep pc
    simp [Pram.emitDoMarks, hpc, ht, hd, hrep, ih fuel (by omega)]
  | @plain la pc skips ms hpc ht hd hrep hr ih =>
    obtain ⟨fuel, rfl⟩ : ∃ k, fuel = k + 1 := ⟨fuel - 1, by omega⟩
    have hl := instructionLength_pos (p.instAt pc)
    have he := ih fuel (by simp only [width]; omega)
    simp only [width] at he
    simp [Pram.emitDoMarks, hpc, ht, hd, hrep, he]

/-- The walk that counts the body counts the instructions the scan comes by. -/
theorem SkipBody.countedPcs (h : SkipBody p la pc skips ms) (hla : la < 2 ^ 24) (fuel : Nat)
    (hf : la + 1 < pc + fuel) : p.countedPcs fuel pc la = some (items ms) := by
  induction h generalizing fuel with
  | done =>
    obtain ⟨fuel, rfl⟩ : ∃ k, fuel = k + 1 := ⟨fuel - 1, by omega⟩
    simp [Pram.countedPcs, items]
  | @skip la pc target skips ms hpc ht hlo hr ih =>
    obtain ⟨fuel, rfl⟩ : ∃ k, fuel = k + 1 := ⟨fuel - 1, by omega⟩
    have hl := instructionLength_pos (p.instAt pc)
    have hc := ih hla fuel (by simp only [width]; omega)
    have hk := not_loop_of_skip ht
    simp only [width] at hc
    simp [Pram.countedPcs, hpc, hk, hc, items]
  | @nest la pc skips inner ms hpc ht hd hstart hinner hopen hi hr ihi ihr =>
    obtain ⟨fuel, rfl⟩ : ∃ k, fuel = k + 1 := ⟨fuel - 1, by omega⟩
    simp [Pram.countedPcs, hpc, hd, ihi (by omega) fuel (by omega), ihr hla fuel (by omega), items]
  | @rep la pc skips ms hpc ht hd hrep hend hr ih =>
    obtain ⟨fuel, rfl⟩ : ∃ k, fuel = k + 1 := ⟨fuel - 1, by omega⟩
    have hl := p.lt_afterRep pc
    have hc := ih hla fuel (by omega)
    rw [afterRep, instAt, ← p.nextWord_of_lt (by omega)] at hc
    simp [Pram.countedPcs, hpc, hd, hrep, hc, items]
  | @plain la pc skips ms hpc ht hd hrep hr ih =>
    obtain ⟨fuel, rfl⟩ : ∃ k, fuel = k + 1 := ⟨fuel - 1, by omega⟩
    have hl := instructionLength_pos (p.instAt pc)
    have hc := ih hla fuel (by simp only [width]; omega)
    simp only [width] at hc
    simp [Pram.countedPcs, hpc, hd, hrep, hc, items]

/-- The instructions inlining a DO loop emits are those the scan of its body comes by. -/
theorem SkipBody.emitDoInline {inst : Instruction} {es : List Emitted}
    (h : SkipBody p la (pc + 2) [] ms) (hle : pc + 2 ≤ la)
    (he : p.emitDoInline inst pc la = some es) : es.map Emitted.pc = pc :: items ms := by
  obtain ⟨fs, hfs, rfl⟩ := Option.map_eq_some_iff.mp he
  have hm := p.emitDoMarks_items (walkFuel (pc + 2) la) (pc + 2) la []
  rw [h.emitDoMarks _ (lt_walkFuel hle), hfs] at hm
  simpa using hm.symm

/-- What a scan of an accepted DO body comes by. -/
theorem isDoBodyInlineable_marks {bodyStart outerStopPc : Nat}
    (h : p.isDoBodyInlineable bodyStart la outerStopPc = some true) :
    bodyStart ≤ la ∧ ∃ ms,
      p.scanMarks (walkFuel bodyStart la) 0 la bodyStart 0 [] = some (some ms) ∧
        SkipBody p la bodyStart [] ms := by
  simp only [isDoBodyInlineable] at h
  split at h
  · rename_i hf
    rw [← scanMarks_isSome, Option.map_eq_some_iff] at h
    obtain ⟨r, hr, hs⟩ := h
    obtain ⟨ms, rfl⟩ := Option.isSome_iff_exists.mp hs
    exact ⟨(bodyFits_start hf).1, ms, hr, .of_scan hr⟩
  · simp at h

/-- One instruction inside a region: a nested skip, or one that neither loops nor ends a block. -/
theorem skipRegionMarks_step (hpc : pc < target)
    (h : p.skipRegionMarks target pc skips = some ms) :
    (∃ inner ns, (p.instAt pc).forwardSkipTarget pc (p.nextWord pc) = some inner ∧
      pc + p.width pc ≤ inner ∧ ms = closings pc skips ++ .opens pc inner :: ns ∧
      p.skipRegionMarks target (pc + p.width pc) (inner :: popSkips pc skips) = some ns) ∨
    (∃ ns, (p.instAt pc).forwardSkipTarget pc (p.nextWord pc) = none ∧
      (p.instAt pc).isDoInstruction = false ∧ (p.instAt pc).isRepInstruction = false ∧
      (p.instAt pc).isBlockTerminator = false ∧ (p.instAt pc).writesPMemory = false ∧
      ms = closings pc skips ++ .item pc :: ns ∧
      p.skipRegionMarks target (pc + p.width pc) (popSkips pc skips) = some ns) := by
  rw [skipRegionMarks, if_pos hpc] at h
  cases ht : (p.instAt pc).forwardSkipTarget pc (p.nextWord pc) with
  | some inner =>
    simp only [ht] at h
    split at h
    · cases h
    · rename_i hn
      simp only [Bool.or_eq_true, decide_eq_true_eq, not_or, Nat.not_lt] at hn
      obtain ⟨ns, hr, rfl⟩ := Option.map_eq_some_iff.mp h
      exact .inl ⟨inner, ns, rfl, hn.1, rfl, hr⟩
  | none =>
    simp only [ht] at h
    split at h
    · cases h
    · rename_i hn
      simp only [Bool.or_eq_true, not_or, Bool.not_eq_true] at hn
      obtain ⟨ns, hr, rfl⟩ := Option.map_eq_some_iff.mp h
      exact .inr ⟨ns, rfl, hn.1.1.1, hn.1.1.2, hn.1.2, hn.2, rfl, hr⟩

/-- A region ends at its target, where every skip still open in it ends too. -/
theorem skipRegionMarks_end (hpc : ¬ pc < target)
    (h : p.skipRegionMarks target pc skips = some ms) :
    pc = target ∧ ms = [] ∧ ∀ t ∈ skips, t = target := by
  rw [skipRegionMarks, if_neg hpc] at h
  split at h
  · cases h
  · rename_i hn
    simp only [ne_eq, Bool.or_eq_true, decide_eq_true_eq, not_or, not_not, Bool.not_eq_true,
      List.any_eq_false] at hn
    exact ⟨hn.1, by simpa using h.symm, fun t ht => by simpa using hn.2 t ht⟩

theorem skipRegionMarks_le (h : p.skipRegionMarks target pc skips = some ms) : pc ≤ target := by
  by_cases hpc : pc < target
  · exact hpc.le
  · exact (skipRegionMarks_end hpc h).1.le

/-- What an iteration of the block loop comes by is walked from the state it is at to the state it
comes to, and is what it emits. -/
structure Walks (p : Pram) (maxLen stopPc : Nat) (s : BlockState) (it : Iteration)
    (ms : List Mark) : Prop where
  emits : p.emitIteration maxLen stopPc s = some it
  marks : p.iterationMarks maxLen stopPc s = some ms
  follows : follow p.width (s.pc, s.openSkips) ms = some (it.state.pc, it.state.openSkips)
  emitted : it.state.emitted.map Emitted.pc = s.emitted.map Emitted.pc ++ items ms

/-- The skips that end at an instruction are closed, and the instruction is taken up. -/
theorem Walks.of_next {it : Iteration} (ms : List Mark) (hx : p.exhausted maxLen s = false)
    (he : p.emitNext maxLen stopPc s.closeSkips = some it)
    (hm : p.nextMarks maxLen stopPc s.closeSkips = some ms)
    (hf : follow p.width (s.pc, popSkips s.pc s.openSkips) ms =
      some (it.state.pc, it.state.openSkips))
    (hi : it.state.emitted.map Emitted.pc = s.emitted.map Emitted.pc ++ items ms) :
    Walks p maxLen stopPc s it (closings s.pc s.openSkips ++ ms) where
  emits := by
    simp only [emitIteration, exhausted_closeSkips, hx, Bool.false_eq_true, ↓reduceIte, he]
  marks := by
    simp only [iterationMarks, exhausted_closeSkips, hx, Bool.false_eq_true, ↓reduceIte, hm]
    rfl
  follows := follow_trans (follow_closings p.width s.pc s.openSkips) hf
  emitted := by simp [hi]

theorem walks_skip (hx : p.exhausted maxLen s = false)
    (ha : p.acceptedSkip maxLen stopPc s.closeSkips = some target)
    (hlo : s.pc + p.width s.pc ≤ target) :
    Walks p maxLen stopPc s
      (.next ⟨s.pc + p.width s.pc, s.count + 1, target :: popSkips s.pc s.openSkips,
        s.emitted ++ [⟨s.pc, p.instAt s.pc⟩]⟩)
      (closings s.pc s.openSkips ++ [.opens s.pc target]) := by
  refine .of_next _ hx ?_ ?_ (follow_opens hlo rfl) (by simp [Iteration.state, items])
  · simp only [emitNext, ha]
    rfl
  · simp only [nextMarks, ha]
    rfl

theorem emitPlain_state (p : Pram) (stopPc : Nat) (s : BlockState) :
    (p.emitPlain stopPc s).state = { s with
      pc := s.pc + p.width s.pc
      count := s.count + 1
      emitted := s.emitted ++ [⟨s.pc, p.instAt s.pc⟩] } := by
  simp only [emitPlain]
  split <;> rfl

theorem walks_plain (hx : p.exhausted maxLen s = false)
    (ha : p.acceptedSkip maxLen stopPc s.closeSkips = none)
    (hr : (p.instAt s.pc).isRepInstruction = false)
    (hd : (p.instAt s.pc).isDoInstruction = false) :
    Walks p maxLen stopPc s (p.emitPlain stopPc s.closeSkips)
      (closings s.pc s.openSkips ++ [.item s.pc]) := by
  have hs := p.emitPlain_state stopPc s.closeSkips
  refine .of_next _ hx ?_ ?_ ?_ ?_
  · simp [emitNext, ha, hr, hd]
  · simp [nextMarks, ha, hr, hd]
  · rw [hs]
    exact follow_item rfl
  · simp [hs, items]

theorem walks_rep (hx : p.exhausted maxLen s = false)
    (ha : p.acceptedSkip maxLen stopPc s.closeSkips = none)
    (hr : (p.instAt s.pc).isRepInstruction = true) :
    ∃ ms, Walks p maxLen stopPc s (p.emitRep stopPc s.closeSkips) ms ∧
      (p.emitRep stopPc s.closeSkips).state.openSkips = popSkips s.pc s.openSkips := by
  have hw : p.width s.pc = 1 := instructionLength_rep hr
  cases hf : repFallsBack (decode (p.nextWord s.pc)) with
  | true =>
    refine ⟨_, .of_next [.item s.pc] hx ?_ ?_ ?_ ?_, ?_⟩
    · simp [emitNext, ha, hr]
    · simp [nextMarks, ha, hr, hf]
    · simp only [emitRep, BlockState.closeSkips_pc, hf, ↓reduceIte]
      exact follow_item rfl
    · simp [emitRep, hf, Iteration.state, items]
    · simp [emitRep, hf, Iteration.state, BlockState.closeSkips]
  | false =>
    have hs : (p.emitRep stopPc s.closeSkips).state = { s.closeSkips with
        pc := p.afterRep s.pc
        count := s.count + 2
        emitted := s.emitted ++ p.emitRepInline (p.instAt s.pc) s.pc } := by
      simp only [emitRep, BlockState.closeSkips_pc, hf, Bool.false_eq_true, ↓reduceIte]
      exact (apply_ite Iteration.state _ _ _).trans (ite_self _)
    refine ⟨_, .of_next [.item s.pc, .item (s.pc + 1)] hx ?_ ?_ ?_ ?_, by rw [hs]; rfl⟩
    · simp [emitNext, ha, hr]
    · simp [nextMarks, ha, hr, hf]
    · rw [hs]
      refine follow_item ?_
      rw [hw]
      exact follow_item rfl
    · simp [hs, items, emitRepInline]

/-- A DO stands where no skip is open: its body is walked as the scan walked it, or the block ends
with it. -/
theorem walks_do (hx : p.exhausted maxLen s = false)
    (ha : p.acceptedSkip maxLen stopPc s.closeSkips = none)
    (hr : (p.instAt s.pc).isRepInstruction = false)
    (hd : (p.instAt s.pc).isDoInstruction = true) (hopen : popSkips s.pc s.openSkips = []) :
    ∃ it ms, Walks p maxLen stopPc s it ms ∧ it.state.openSkips = [] := by
  have hla := computeDoLa_lt (p.instAt s.pc) s.pc (p.nextWord s.pc)
  have hw : p.width s.pc = 2 := instructionLength_do hd
  have hnext : p.emitNext maxLen stopPc s.closeSkips = p.emitDo stopPc s.closeSkips := by
    simp [emitNext, ha, hr, hd]
  have hmarks : p.nextMarks maxLen stopPc s.closeSkips = p.doMarks stopPc s.closeSkips := by
    simp [nextMarks, ha, hr, hd]
  -- the block ends with a DO the scan rejects
  have hreject (hb : (p.instAt s.pc).isDoForever = true ∨ p.isDoBodyInlineable (s.pc + 2)
      ((p.instAt s.pc).computeDoLa s.pc (p.nextWord s.pc)) stopPc = some false) :
      ∃ it ms, Walks p maxLen stopPc s it ms ∧ it.state.openSkips = [] := by
    let it := Iteration.done { s.closeSkips with
      pc := s.pc + p.width s.pc
      emitted := s.emitted ++ [⟨s.pc, p.instAt s.pc⟩] } true
    refine ⟨it, _, .of_next [.item s.pc] hx (hnext.trans ?_) (hmarks.trans ?_)
      (follow_item rfl) (by simp [it, Iteration.state, items]), hopen⟩
    · simp only [emitDo, BlockState.closeSkips_pc]
      rcases hb with hb | hb <;> simp [hb, it, width]
    · simp only [doMarks, BlockState.closeSkips_pc]
      rcases hb with hb | hb <;> simp [hb]
  cases hf : (p.instAt s.pc).isDoForever with
  | true => exact hreject (.inl hf)
  | false =>
    obtain ⟨b, hin⟩ := isDoBodyInlineable_defined p (s.pc + 2) stopPc hla
    cases b with
    | false => exact hreject (.inr hin)
    | true =>
      obtain ⟨hle, ms, -, hbody⟩ := isDoBodyInlineable_marks hin
      obtain ⟨-, ⟨n, hn⟩, es, he, -⟩ := emitDoInline_spec (p.instAt s.pc) hla hin
      have hm := hbody.emitDoMarks _ (lt_walkFuel hle)
      have hes := hbody.emitDoInline hle he
      let t : BlockState := { s.closeSkips with
        pc := (p.instAt s.pc).computeDoLa s.pc (p.nextWord s.pc) + 1
        count := s.count + (1 + n)
        emitted := s.emitted ++ ⟨s.pc, p.instAt s.pc⟩ :: es }
      let it : Iteration := if t.pc ≥ stopPc then .done t false else .next t
      have hit : it.state = t := (apply_ite Iteration.state _ _ _).trans (ite_self _)
      refine ⟨it, _, .of_next (.item s.pc :: ms) hx (hnext.trans ?_) (hmarks.trans ?_) ?_ ?_,
        by rw [hit]; exact hopen⟩
      · simp [emitDo, hf, hin, he, hn, it, t]
      · simp [doMarks, hf, hin, hm]
      · rw [hit, hopen, show t.openSkips = [] from hopen]
        refine follow_item ?_
        rw [hw]
        exact hbody.follow
      · rw [hit]
        simpa [t, items] using hes

/-- Inside the region of a compiled forward skip: what its scan still comes by, and room for it. -/
structure InRegion (p : Pram) (maxLen stopPc target : Nat) (s : BlockState)
    (ms : List Mark) : Prop where
  scan : ∃ nested, s.openSkips = nested ++ [target] ∧
    p.skipRegionMarks target s.pc nested = some ms
  budget : s.count + (items ms).length ≤ maxLen
  stop : target < stopPc
  space : target ≤ p.spaceEnd

theorem acceptedSkip_none (h : (p.instAt s.pc).forwardSkipTarget s.pc (p.nextWord s.pc) = none) :
    p.acceptedSkip maxLen stopPc s = none := by
  simp [acceptedSkip, h]

theorem emitPlain_next (hterm : (p.instAt s.pc).isBlockTerminator = false)
    (hw : (p.instAt s.pc).writesPMemory = false) (hstop : s.pc + p.width s.pc < stopPc) :
    p.emitPlain stopPc s = .next { s with
      pc := s.pc + p.width s.pc
      count := s.count + 1
      emitted := s.emitted ++ [⟨s.pc, p.instAt s.pc⟩] } := by
  simp only [width] at hstop
  simp [emitPlain, hterm, hw, Nat.not_le.mpr hstop, width]

/-- Every skip of a region is closed at its target. -/
theorem InRegion.merged (h : InRegion p maxLen stopPc target s ms) (hpc : ¬ s.pc < target) :
    s.pc = target ∧ ms = [] ∧ s.closeSkips.openSkips = [] := by
  obtain ⟨nested, ho, hs⟩ := h.scan
  obtain ⟨rfl, rfl, hall⟩ := skipRegionMarks_end hpc hs
  refine ⟨rfl, rfl, ?_⟩
  simp only [BlockState.closeSkips, popSkips, ho, List.dropWhile_eq_nil_iff, List.mem_append,
    List.mem_singleton, decide_eq_true_eq]
  rintro t (ht | rfl)
  · exact hall t ht
  · rfl

/-- Inside a region no iteration breaks the block loop, and each takes up what the scan took up. -/
theorem InRegion.step (h : InRegion p maxLen stopPc target s ms) (hpc : s.pc < target) :
    ∃ m ns t, ms = m ++ ns ∧ (items m).length = 1 ∧ Walks p maxLen stopPc s (.next t) m ∧
      t.count = s.count + 1 ∧ InRegion p maxLen stopPc target t ns := by
  obtain ⟨⟨nested, ho, hs⟩, hb, hstop, hspace⟩ := h
  have hc := closings_append nested hpc.ne'
  have hpop : popSkips s.pc s.openSkips = popSkips s.pc nested ++ [target] := by
    rw [ho]
    exact hc.2
  rcases skipRegionMarks_step hpc hs with
    ⟨inner, ns, ht, hlo, rfl, hr⟩ | ⟨ns, ht, hd, hrep, hterm, hw, rfl, hr⟩
  · simp only [items_append, items_closings, items, List.nil_append, List.length_cons] at hb
    have hx : p.exhausted maxLen s = false := by
      simp only [exhausted, Bool.or_eq_false_iff, decide_eq_false_iff_not]
      omega
    have ha : p.acceptedSkip maxLen stopPc s.closeSkips = some inner := by
      rw [acceptedSkip, Option.filter_eq_some_iff]
      refine ⟨ht, ?_⟩
      simp [BlockState.closeSkips, hpop]
    have hwalk := walks_skip hx ha hlo
    rw [hpop, show closings s.pc s.openSkips = closings s.pc nested by rw [ho]; exact hc.1] at hwalk
    exact ⟨_, ns, _, by simp, by simp [items], hwalk, rfl,
      ⟨_, rfl, hr⟩, by simp only; omega, hstop, hspace⟩
  · simp only [items_append, items_closings, items, List.nil_append, List.length_cons] at hb
    have hx : p.exhausted maxLen s = false := by
      simp only [exhausted, Bool.or_eq_false_iff, decide_eq_false_iff_not]
      omega
    have ha : p.acceptedSkip maxLen stopPc s.closeSkips = none := acceptedSkip_none ht
    have hle := skipRegionMarks_le hr
    have hwalk := walks_plain hx ha hrep hd
    rw [emitPlain_next (s := s.closeSkips) hterm hw (Nat.lt_of_le_of_lt hle hstop),
      show closings s.pc s.openSkips = closings s.pc nested by rw [ho]; exact hc.1] at hwalk
    exact ⟨_, ns, _, by simp, by simp [items], hwalk, rfl,
      ⟨_, hpop, hr⟩, by simp only [BlockState.closeSkips_count]; omega, hstop, hspace⟩

/-- The iterations inside a region all go on; they come by what the scan came by, and come to the
target with the region counted in full. -/
theorem InRegion.goOn (h : InRegion p maxLen stopPc target s ms) :
    ∃ t, p.goOn maxLen stopPc (items ms).length s = some (ms, t) ∧ t.pc = target ∧
      t.count = s.count + (items ms).length ∧ t.closeSkips.openSkips = [] ∧
      follow p.width (s.pc, s.openSkips) ms = some (t.pc, t.openSkips) := by
  generalize hn : (items ms).length = n
  induction n generalizing s ms with
  | zero =>
    have hpc : ¬ s.pc < target := by
      intro hpc
      obtain ⟨m, ns, t, rfl, hm, -⟩ := h.step hpc
      simp only [items_append, List.length_append] at hn
      omega
    obtain ⟨hend, rfl, ho⟩ := h.merged hpc
    exact ⟨s, rfl, hend, rfl, ho, rfl⟩
  | succ n ih =>
    have hpc : s.pc < target := by
      by_contra hpc
      obtain ⟨-, rfl, -⟩ := h.merged hpc
      simp [items] at hn
    obtain ⟨m, ns, t, rfl, hm, hw, hcount, ht⟩ := h.step hpc
    have hlen : (items ns).length = n := by
      simp only [items_append, List.length_append] at hn
      omega
    obtain ⟨u, hu, hupc, hucount, huo, huf⟩ := ih ht hlen
    refine ⟨u, ?_, hupc, by omega, huo, follow_trans hw.follows huf⟩
    simp [Pram.goOn, hw.emits, hw.marks, hu]

/-- A compiled branch where no skip is open enters its region. -/
theorem InRegion.of_accepted (ho : s.closeSkips.openSkips = [])
    (ha : p.acceptedSkip maxLen stopPc s.closeSkips = some target) :
    ∃ ms, p.skipRegionMarks target (s.pc + p.width s.pc) [] = some ms ∧
      s.pc + p.width s.pc ≤ target ∧
      InRegion p maxLen stopPc target ⟨s.pc + p.width s.pc, s.count + 1,
        target :: popSkips s.pc s.openSkips, s.emitted ++ [⟨s.pc, p.instAt s.pc⟩]⟩ ms := by
  rw [acceptedSkip, Option.filter_eq_some_iff] at ha
  obtain ⟨-, ha⟩ := ha
  simp only [ho, List.isEmpty_nil, Bool.not_true, Bool.false_or, BlockState.closeSkips_pc,
    BlockState.closeSkips_count, Option.any_eq_true] at ha
  obtain ⟨n, hn, hbudget⟩ := ha
  have hbudget := of_decide_eq_true hbudget
  rw [straightlineSkipRegionLen] at hn
  split at hn
  · cases hn
  · rename_i hok
    simp only [Bool.or_eq_true, decide_eq_true_eq, not_or, Nat.not_lt, Nat.not_le] at hok
    rw [← skipRegionMarks_items] at hn
    obtain ⟨ms, hms, rfl⟩ := Option.map_eq_some_iff.mp hn
    have hp : popSkips s.pc s.openSkips = [] := ho
    refine ⟨ms, hms, hok.1.1, ⟨[], by rw [hp]; rfl, hms⟩, ?_, hok.1.2, hok.2⟩
    simp only
    omega

/-- Between two instructions of a block: no skip is open, or those of a region are. -/
def Structured (p : Pram) (maxLen stopPc : Nat) (s : BlockState) : Prop :=
  s.closeSkips.openSkips = [] ∨ ∃ target ms, InRegion p maxLen stopPc target s ms

theorem Structured.of_nil (h : s.openSkips = []) : Structured p maxLen stopPc s :=
  .inl (by simp [BlockState.closeSkips, popSkips, h])

/-- One iteration of the block loop: where it breaks the loop, no skip is open. -/
theorem Structured.step (h : Structured p maxLen stopPc s) :
    ∃ it ms, Walks p maxLen stopPc s it ms ∧
      ((∃ t, it = .next t ∧ Structured p maxLen stopPc t) ∨
        ∃ t b, it = .done t b ∧ t.openSkips = []) := by
  -- an iteration that leaves no skip open may go on or break the loop
  have closed {it : Iteration} {ms : List Mark} (hw : Walks p maxLen stopPc s it ms)
      (ho : it.state.openSkips = []) :
      ∃ it ms, Walks p maxLen stopPc s it ms ∧
        ((∃ t, it = .next t ∧ Structured p maxLen stopPc t) ∨
          ∃ t b, it = .done t b ∧ t.openSkips = []) := by
    cases it with
    | next t => exact ⟨_, _, hw, .inl ⟨t, rfl, .of_nil ho⟩⟩
    | done t b => exact ⟨_, _, hw, .inr ⟨t, b, rfl, ho⟩⟩
  by_cases hr : ∃ target ms, InRegion p maxLen stopPc target s ms ∧ s.pc < target
  · obtain ⟨target, ms, hr, hpc⟩ := hr
    obtain ⟨m, ns, t, -, -, hw, -, ht⟩ := hr.step hpc
    exact ⟨_, _, hw, .inl ⟨t, rfl, .inr ⟨target, ns, ht⟩⟩⟩
  · have ho : popSkips s.pc s.openSkips = [] := by
      rcases h with ho | ⟨target, ms, hin⟩
      · exact ho
      · exact (hin.merged fun hpc => hr ⟨target, ms, hin, hpc⟩).2.2
    cases hx : p.exhausted maxLen s with
    | true =>
      have hm : p.iterationMarks maxLen stopPc s = some (closings s.pc s.openSkips) := by
        simp only [iterationMarks, exhausted_closeSkips, hx, ↓reduceIte]
      have hw : Walks p maxLen stopPc s (.done s.closeSkips false) (closings s.pc s.openSkips) :=
        ⟨emitIteration_exhausted hx, hm, follow_closings p.width s.pc s.openSkips,
          by simp [Iteration.state]⟩
      exact closed hw ho
    | false =>
      cases ha : p.acceptedSkip maxLen stopPc s.closeSkips with
      | some target =>
        obtain ⟨ms, -, hlo, hin⟩ := InRegion.of_accepted ho ha
        exact ⟨_, _, walks_skip hx ha hlo, .inl ⟨_, rfl, .inr ⟨target, ms, hin⟩⟩⟩
      | none =>
        cases hrep : (p.instAt s.pc).isRepInstruction with
        | true =>
          obtain ⟨ms, hw, hs⟩ := walks_rep hx ha hrep
          exact closed hw (hs.trans ho)
        | false =>
          cases hd : (p.instAt s.pc).isDoInstruction with
          | true =>
            obtain ⟨it, ms, hw, hs⟩ := walks_do hx ha hrep hd ho
            exact closed hw hs
          | false =>
            refine closed (walks_plain hx ha hrep hd) ?_
            rw [emitPlain_state]
            exact ho

/-- The block loop from a structured state: what it comes by is walked from there to the end of
the block, and no skip is left open. -/
theorem Structured.loop {fuel : Nat} {b : EmittedBlock} (h : Structured p maxLen stopPc s)
    (hb : p.emitLoop maxLen stopPc fuel s = some b) :
    ∃ ms, p.loopMarks maxLen stopPc fuel s = some ms ∧
      follow p.width (s.pc, s.openSkips) ms = some (b.endPc, []) ∧ b.openSkips = [] ∧
      b.emitted.map Emitted.pc = s.emitted.map Emitted.pc ++ items ms := by
  induction fuel generalizing s with
  | zero => simp [emitLoop] at hb
  | succ fuel ih =>
    obtain ⟨it, m, hw, ⟨t, rfl, ht⟩ | ⟨t, e, rfl, ho⟩⟩ := h.step
    · simp only [emitLoop, hw.emits, Option.bind_eq_bind, Option.bind_some] at hb
      obtain ⟨ms, hm, hf, ho, he⟩ := ih ht hb
      refine ⟨m ++ ms, by simp [loopMarks, hw.emits, hw.marks, hm], follow_trans hw.follows hf, ho,
        ?_⟩
      have hi := hw.emitted
      simp only [Iteration.state] at hi
      rw [he, hi, items_append, List.append_assoc]
    · simp only [emitLoop, hw.emits, Option.bind_eq_bind, Option.bind_some, Option.some.injEq] at hb
      subst hb
      refine ⟨m, by simp [loopMarks, hw.emits, hw.marks], ?_, ho, hw.emitted⟩
      have hf := hw.follows
      simp only [Iteration.state, ho] at hf
      exact hf

/-- The walks over the DO body [bodyStart, la] all come by `ms`, which tile it and close in it every
skip they open. -/
structure BodyWalks (p : Pram) (bodyStart la : Nat) (ms : List Mark) : Prop where
  scanned : p.scanMarks (walkFuel bodyStart la) 0 la bodyStart 0 [] = some (some ms)
  emitted : p.emitDoMarks (walkFuel bodyStart la) bodyStart la [] = some ms
  counted : p.countedPcs (walkFuel bodyStart la) bodyStart la = some (items ms)
  code : ∃ es, p.emitDoBody (walkFuel bodyStart la) bodyStart la = some es ∧
    es.map Emitted.pc = items ms
  count : p.countBodyInstructions (walkFuel bodyStart la) bodyStart la = some (items ms).length
  follows : follow p.width (bodyStart, []) ms = some (la + 1, [])

/-- From the branch at `s` the block loop goes on through the whole region up to `target`, by what
the scan of the region came by, and closes every skip there. -/
structure RegionWalks (p : Pram) (maxLen stopPc target n : Nat) (s t : BlockState)
    (ms : List Mark) : Prop where
  scanned : p.skipRegionMarks target (s.pc + p.width s.pc) [] = some ms
  counted : (items ms).length = n
  goesOn : p.goOn maxLen stopPc (n + 1) s =
    some (closings s.pc s.openSkips ++ .opens s.pc target :: ms, t)
  pc : t.pc = target
  count : t.count = s.count + 1 + n
  closed : t.closeSkips.openSkips = []
  follows : follow p.width (s.pc, []) (.opens s.pc target :: ms ++ closings target t.openSkips) =
    some (target, [])

/-- The block at `startPc` is tiled by what the block loop comes by, every skip in it closed. -/
structure BlockWalks (p : Pram) (startPc maxLen stopPc : Nat) (b : EmittedBlock)
    (ms : List Mark) : Prop where
  built : p.emitBlock startPc maxLen stopPc = some b
  marks : p.blockMarks startPc maxLen stopPc = some ms
  emitted : b.emitted.map Emitted.pc = items ms
  follows : follow p.width (startPc, []) ms = some (b.endPc, [])
  closed : b.openSkips = []

/-- The walks over a DO body the scan accepts. -/
theorem BodyWalks.of_inlineable {bodyStart outerStopPc : Nat} (hla : la < 2 ^ 24)
    (h : p.isDoBodyInlineable bodyStart la outerStopPc = some true) :
    ∃ ms, BodyWalks p bodyStart la ms := by
  obtain ⟨hle, ms, hs, hbody⟩ := isDoBodyInlineable_marks h
  have hm := hbody.emitDoMarks _ (lt_walkFuel hle)
  have hc := hbody.countedPcs hla _ (lt_walkFuel hle)
  refine ⟨ms, hs, hm, hc, ?_, ?_, hbody.follow⟩
  · have he := p.emitDoMarks_items (walkFuel bodyStart la) bodyStart la []
    rw [hm] at he
    exact Option.map_eq_some_iff.mp he.symm
  · rw [← countedPcs_length, hc]
    rfl

/-- The block loop over a region the scan accepts, from a state where no skip is open. -/
theorem RegionWalks.of_region {n : Nat} (ho : s.closeSkips.openSkips = [])
    (ht : (p.instAt s.pc).forwardSkipTarget s.pc (p.nextWord s.pc) = some target)
    (hn : p.straightlineSkipRegionLen s.pc (p.width s.pc) target stopPc = some n)
    (hbudget : s.count + 1 + n ≤ maxLen) :
    ∃ t ms, RegionWalks p maxLen stopPc target n s t ms := by
  have ha : p.acceptedSkip maxLen stopPc s.closeSkips = some target := by
    rw [acceptedSkip, Option.filter_eq_some_iff]
    refine ⟨ht, ?_⟩
    simp only [width] at hn
    simp [hn, hbudget]
  obtain ⟨ms, hms, hlo, hin⟩ := InRegion.of_accepted ho ha
  have hlen : (items ms).length = n := by
    rw [straightlineSkipRegionLen] at hn
    split at hn
    · cases hn
    · rw [← skipRegionMarks_items, hms] at hn
      simpa using hn
  have hx : p.exhausted maxLen s = false := by
    have := hin.space
    have := instructionLength_pos (p.instAt s.pc)
    simp only [width] at hlo
    simp only [exhausted, Bool.or_eq_false_iff, decide_eq_false_iff_not]
    omega
  obtain ⟨t, hgo, hpc, hcount, hclosed, hf⟩ := hin.goOn
  have hw := walks_skip hx ha hlo
  rw [hlen] at hgo hcount
  refine ⟨t, ms, hms, hlen, ?_, hpc, by simpa using hcount, hclosed, ?_⟩
  · simp [Pram.goOn, hw.emits, hw.marks, hgo]
  · have hp : popSkips s.pc s.openSkips = [] := ho
    have hend : t.openSkips.dropWhile (· = target) = [] := by
      rw [← hpc]
      exact hclosed
    simp only [hp, hpc] at hf
    refine follow_opens hlo (follow_trans hf ?_)
    rw [follow_closings, hend]

/-- Forward skips are well structured: whatever P memory holds, the walks over a DO body or a skip
region that a scan accepts agree, and every block is built with each skip in it closed. A loop-end
address has 24 bits, as `computeDoLa` masks it. -/
theorem blocks_well_structured (p : Pram) (startPc maxLen stopPc : Nat) :
    (∀ bodyStart la outerStopPc, la < 2 ^ 24 →
      p.isDoBodyInlineable bodyStart la outerStopPc = some true →
      ∃ ms, BodyWalks p bodyStart la ms) ∧
    (∀ (s : BlockState) target n, s.closeSkips.openSkips = [] →
      (p.instAt s.pc).forwardSkipTarget s.pc (p.nextWord s.pc) = some target →
      p.straightlineSkipRegionLen s.pc (p.width s.pc) target stopPc = some n →
      s.count + 1 + n ≤ maxLen → ∃ t ms, RegionWalks p maxLen stopPc target n s t ms) ∧
    ∃ b ms, BlockWalks p startPc maxLen stopPc b ms := by
  refine ⟨fun _ _ _ hla h => BodyWalks.of_inlineable hla h,
    fun s target n ho ht hn hb => RegionWalks.of_region ho ht hn hb, ?_⟩
  obtain ⟨b, hb⟩ := p.emitBlock_defined startPc maxLen stopPc
  obtain ⟨ms, hm, hf, ho, he⟩ := (Structured.of_nil (s := blockStart startPc) rfl).loop hb
  exact ⟨b, ms, hb, hm, he, hf, ho⟩

/-- A branch over the one instruction behind it. -/
def branchOver : Pram := ⟨4, fun
  | 0 => 0x050402
  | _ => 0⟩

theorem branchOver_skip :
    (branchOver.instAt 0).forwardSkipTarget 0 (branchOver.nextWord 0) = some 2 ∧
      branchOver.width 0 = 1 := by
  rw [width, instAt, show branchOver.word 0 = 0x050402 from rfl,
    decode_at 10 rfl (by decide) (by decide) (by decide)]
  exact ⟨rfl, rfl⟩

theorem branchOver_region :
    branchOver.straightlineSkipRegionLen 0 (branchOver.width 0) 2 8 = some 1 := by
  have hnop : branchOver.instAt 1 = .nop := decode_nop
  have hend : branchOver.skipRegionScan 2 2 1 [] = some 1 := by
    rw [skipRegionScan]
    rfl
  have hbody : branchOver.skipRegionScan 2 1 0 [] = some 1 := by
    rw [skipRegionScan, if_pos (by decide)]
    simp only [hnop]
    exact hend
  rw [branchOver_skip.2, straightlineSkipRegionLen, if_neg (by decide)]
  exact hbody

theorem blocks_well_structured_branch :
    ∃ t ms, RegionWalks branchOver 8 8 2 1 (blockStart 0) t ms :=
  (blocks_well_structured branchOver 0 8 8).2.1 (blockStart 0) 2 1 rfl branchOver_skip.1
    branchOver_region (by decide)

end Pram

end Dsp56300
