import Dsp56300.Emu.HwStack
import Dsp56300.Lib.Bits

namespace Dsp56300

namespace InterruptPipeline

open Lib.Bits

theorem pending_eq (p : InterruptPipeline) (i : Fin Interrupt.count) :
    p.pending i = (p.pendingBits (wordOf i)).getLsbD (i.val % 64) := by
  have h := and_bit_ne_zero_iff (p.pendingBits (wordOf i)) (Nat.mod_lt i.val (by decide : 0 < 64))
  rw [pending, Bool.eq_iff_iff, decide_eq_true_eq]
  exact h

theorem pending_congr {p q : InterruptPipeline} (h : q.pendingBits = p.pendingBits)
    (j : Fin Interrupt.count) : q.pending j = p.pending j := by
  rw [pending_eq, pending_eq, h]

/-- A source is its word and its bit. -/
theorem source_ext {i j : Fin Interrupt.count} (hw : wordOf i = wordOf j)
    (hb : i.val % 64 = j.val % 64) : i = j := by
  have hd : i.val / 64 = j.val / 64 := congrArg Fin.val hw
  omega

@[simp] theorem pending_setPending (p : InterruptPipeline) (i j : Fin Interrupt.count) :
    (p.setPending i).pending j = (p.pending j || decide (i = j)) := by
  have hi := Nat.mod_lt i.val (by decide : 0 < 64)
  simp only [pending_eq, setPending]
  by_cases hw : wordOf j = wordOf i
  · rw [hw, Function.update_self, getLsbD_insert _ hi]
    congr 2
    exact propext ⟨source_ext hw.symm, fun h => h ▸ rfl⟩
  · rw [Function.update_of_ne hw]
    have hij : i ≠ j := fun h => hw (h ▸ rfl)
    simp [hij]

@[simp] theorem pending_clearPending (p : InterruptPipeline) (i j : Fin Interrupt.count) :
    (p.clearPending i).pending j = (p.pending j && !decide (i = j)) := by
  have hi := Nat.mod_lt i.val (by decide : 0 < 64)
  simp only [pending_eq, clearPending]
  by_cases hw : wordOf j = wordOf i
  · rw [hw, Function.update_self, getLsbD_erase _ hi]
    congr 3
    exact propext ⟨source_ext hw.symm, fun h => h ▸ rfl⟩
  · rw [Function.update_of_ne hw]
    have hij : i ≠ j := fun h => hw (h ▸ rfl)
    simp [hij]

/-- Posting only ever sets bits. -/
theorem pending_add {p : InterruptPipeline} {j : Fin Interrupt.count} (inter : Nat)
    (hp : p.pending j = true) : (p.add inter).pending j = true := by
  unfold add
  split
  · split
    · exact hp
    · simp [hp]
  · exact hp

/-- A source that arbitration may dispatch over the mask. -/
def Eligible (p : InterruptPipeline) (mask : Int) (i : Fin Interrupt.count) : Prop :=
  p.pending i = true ∧ (p.ipl i = 3 ∨ mask ≤ p.ipl i)

/-- The eligible source of highest level and, among equals, of lowest index. -/
def Wins (p : InterruptPipeline) (mask : Int) (i : Fin Interrupt.count) : Prop :=
  p.Eligible mask i ∧
    ∀ j, p.Eligible mask j → p.ipl j < p.ipl i ∨ (p.ipl j = p.ipl i ∧ i ≤ j)

theorem Wins.unique {p : InterruptPipeline} {mask : Int} {i j : Fin Interrupt.count}
    (hi : p.Wins mask i) (hj : p.Wins mask j) : i = j := by
  have h1 := hi.2 j hj.1
  have h2 := hj.2 i hi.1
  omega

/-- What the arbitration loop owes: `w` is the first best among the best source seen so
far and the eligible ones still to visit. -/
def BestOf (p : InterruptPipeline) (mask : Int) (index : Option (Fin Interrupt.count))
    (is : List (Fin Interrupt.count)) (w : Fin Interrupt.count) : Prop :=
  (w ∈ index ∨ (w ∈ is ∧ p.Eligible mask w)) ∧
    ∀ j, (j ∈ index ∨ (j ∈ is ∧ p.Eligible mask j)) →
      p.ipl j < p.ipl w ∨ (p.ipl j = p.ipl w ∧ w ≤ j)

theorem BestOf.skip {p : InterruptPipeline} {mask : Int} {index : Option (Fin Interrupt.count)}
    {i w : Fin Interrupt.count} {is : List (Fin Interrupt.count)}
    (hw : p.BestOf mask index is w) (hi : ¬ p.Eligible mask i) :
    p.BestOf mask index (i :: is) w := by
  refine ⟨?_, ?_⟩
  · rcases hw.1 with hx | ⟨hx, he⟩
    · exact Or.inl hx
    · exact Or.inr ⟨List.mem_cons_of_mem i hx, he⟩
  · intro j hj
    apply hw.2
    rcases hj with hx | ⟨hx, he⟩
    · exact Or.inl hx
    · rcases List.mem_cons.mp hx with rfl | hx
      · exact absurd he hi
      · exact Or.inr ⟨hx, he⟩

/-- Entered with the sources still to visit in ascending order, all to the right of the
best one so far, the loop leaves with the best of both. -/
theorem arbitrate_best {p : InterruptPipeline} {mask : Int} (hl : ∀ i, p.ipl i ≤ 3)
    (hm : 0 ≤ mask) (is : List (Fin Interrupt.count)) (index : Option (Fin Interrupt.count))
    (best : Int) (ho : is.Pairwise (· < ·))
    (hb : ∀ b, index = some b → p.ipl b = best ∧ best < 3 ∧ ∀ i ∈ is, b < i)
    (hn : index = none → best = -1) {w : Fin Interrupt.count}
    (hw : p.arbitrate mask is index best = some w) : p.BestOf mask index is w := by
  induction is generalizing index best with
  | nil =>
    obtain rfl : index = some w := hw
    refine ⟨Or.inl rfl, fun j hj => ?_⟩
    rcases hj with hj | ⟨hj, _⟩
    · obtain rfl := Option.some.inj hj
      exact Or.inr ⟨rfl, le_refl w⟩
    · exact absurd hj (List.not_mem_nil)
  | cons i is ih =>
    obtain ⟨hlt, ho⟩ := List.pairwise_cons.mp ho
    have hb' : ∀ b, index = some b → p.ipl b = best ∧ best < 3 ∧ ∀ j ∈ is, b < j :=
      fun b hx => ⟨(hb b hx).1, (hb b hx).2.1, fun j hj =>
        (hb b hx).2.2 j (List.mem_cons_of_mem i hj)⟩
    simp only [arbitrate] at hw
    split at hw
    · -- not pending
      rename_i hp
      exact (ih index best ho hb' hn hw).skip fun he => hp he.1
    · split at hw
      · -- level 3 ends the search: whatever came before was below it
        rename_i hp h3
        obtain rfl := Option.some.inj hw
        refine ⟨Or.inr ⟨List.mem_cons_self, by simpa using hp, Or.inl h3⟩, fun j hj => ?_⟩
        rcases hj with hj | ⟨hj, _⟩
        · have hx := hb j hj
          omega
        · rcases List.mem_cons.mp hj with rfl | hj
          · exact Or.inr ⟨rfl, le_refl j⟩
          · have hx := hlt j hj
            have h3' := hl j
            omega
      · split at hw
        · -- masked
          rename_i hp h3 hmask
          apply (ih index best ho hb' hn hw).skip
          rintro ⟨_, he | he⟩ <;> omega
        · have he : p.Eligible mask i := by
            refine ⟨?_, Or.inr ?_⟩
            · simp_all
            · omega
          split at hw
          · -- a higher level takes over
            rename_i hp h3 hmask hgt
            have h3' := hl i
            have hr := ih (some i) (p.ipl i) ho (by
              intro b hx
              obtain rfl := Option.some.inj hx
              exact ⟨rfl, by omega, hlt⟩) (by simp) hw
            refine ⟨?_, fun j hj => ?_⟩
            · rcases hr.1 with hx | ⟨hx, hw'⟩
              · obtain rfl := Option.some.inj hx
                exact Or.inr ⟨List.mem_cons_self, he⟩
              · exact Or.inr ⟨List.mem_cons_of_mem i hx, hw'⟩
            · rcases hj with hj | ⟨hj, hje⟩
              · have hx := hr.2 i (Or.inl rfl)
                have hjb := hb j hj
                omega
              · rcases List.mem_cons.mp hj with rfl | hj
                · exact hr.2 j (Or.inl rfl)
                · exact hr.2 j (Or.inr ⟨hj, hje⟩)
          · -- the best so far keeps its place, at a lower index
            rename_i hp h3 hmask hle
            have hr := ih index best ho hb' hn hw
            refine ⟨?_, fun j hj => ?_⟩
            · rcases hr.1 with hx | ⟨hx, hw'⟩
              · exact Or.inl hx
              · exact Or.inr ⟨List.mem_cons_of_mem i hx, hw'⟩
            · rcases hj with hj | ⟨hj, hje⟩
              · exact hr.2 j (Or.inl hj)
              · rcases List.mem_cons.mp hj with rfl | hj
                · cases hx : index with
                  | none => have := hn hx; omega
                  | some b =>
                    obtain ⟨hbe, _, hbi⟩ := hb b hx
                    have hbj := hbi j List.mem_cons_self
                    have hbw := hr.2 b (Or.inl hx)
                    omega
                · exact hr.2 j (Or.inr ⟨hj, hje⟩)

/-- The loop comes out empty-handed only if nothing is eligible. -/
theorem arbitrate_none {p : InterruptPipeline} {mask : Int} (hm : 0 ≤ mask)
    (is : List (Fin Interrupt.count)) (index : Option (Fin Interrupt.count)) (best : Int)
    (hn : index = none → best = -1) (hw : p.arbitrate mask is index best = none) :
    index = none ∧ ∀ i ∈ is, ¬ p.Eligible mask i := by
  induction is generalizing index best with
  | nil => exact ⟨hw, by simp⟩
  | cons i is ih =>
    simp only [arbitrate] at hw
    split at hw
    · rename_i hp
      obtain ⟨h1, h2⟩ := ih index best hn hw
      refine ⟨h1, fun j hj he => ?_⟩
      rcases List.mem_cons.mp hj with rfl | hj
      · exact hp he.1
      · exact h2 j hj he
    · split at hw
      · cases hw
      · split at hw
        · rename_i hp h3 hmask
          obtain ⟨h1, h2⟩ := ih index best hn hw
          refine ⟨h1, fun j hj he => ?_⟩
          rcases List.mem_cons.mp hj with rfl | hj
          · rcases he.2 with he | he <;> omega
          · exact h2 j hj he
        · split at hw
          · obtain ⟨h1, _⟩ := ih (some i) _ (by simp) hw
            cases h1
          · -- with nothing seen yet the level would have beaten -1
            obtain ⟨h1, _⟩ := ih index best hn hw
            have := hn h1
            omega

theorem wins_of_arbitrate {p : InterruptPipeline} {mask : Int} (hl : ∀ i, p.ipl i ≤ 3)
    (hm : 0 ≤ mask) {w : Fin Interrupt.count}
    (hw : p.arbitrate mask (List.finRange Interrupt.count) none (-1) = some w) :
    p.Wins mask w := by
  have hr := arbitrate_best hl hm _ none (-1) (List.pairwise_lt_finRange _) (by simp) (by simp) hw
  refine ⟨?_, fun j hj => hr.2 j (Or.inr ⟨List.mem_finRange j, hj⟩)⟩
  rcases hr.1 with hx | ⟨_, hx⟩
  · cases hx
  · exact hx

/-- The first pending level 3 source wins whatever the mask. -/
theorem wins_of_find {p : InterruptPipeline} {mask : Int} (hl : ∀ i, p.ipl i ≤ 3)
    {w : Fin Interrupt.count}
    (hw : (List.finRange Interrupt.count).find? (fun i => p.pending i && p.ipl i = 3) = some w) :
    p.Wins mask w := by
  have h3 := List.find?_some hw
  simp only [Bool.and_eq_true, decide_eq_true_eq] at h3
  refine ⟨⟨h3.1, Or.inl h3.2⟩, fun j hj => ?_⟩
  by_cases hj3 : p.ipl j = 3
  · refine Or.inr ⟨by omega, ?_⟩
    by_contra hlt
    obtain ⟨_, as, bs, he, hall⟩ := List.find?_eq_some_iff_append.mp hw
    have hs := List.pairwise_lt_finRange Interrupt.count
    rw [he] at hs
    have hmem : j ∈ as ++ w :: bs := he ▸ List.mem_finRange j
    rcases List.mem_append.mp hmem with ha | ha
    · have := hall j ha
      simp [hj.1, hj3] at this
    · have hb := (List.pairwise_append.mp hs).2.1
      rcases List.mem_cons.mp ha with rfl | ha
      · exact hlt (le_refl j)
      · exact hlt (le_of_lt ((List.pairwise_cons.mp hb).1 j ha))
  · have := hl j
    omega

/-- What a vector fetch leaves of the pipeline: it may find a long interrupt and it may
post a stack error, but it drops nothing. -/
structure Keeps (p q : InterruptPipeline) : Prop where
  vector : q.vectorAddr = p.vectorAddr
  state : q.state = p.state ∨ q.state = .long
  ipl : q.ipl = p.ipl
  pending : ∀ j, p.pending j = true → q.pending j = true

theorem Keeps.refl (p : InterruptPipeline) : p.Keeps p := ⟨rfl, Or.inl rfl, rfl, fun _ h => h⟩

theorem add_vectorAddr (p : InterruptPipeline) (n : Nat) : (p.add n).vectorAddr = p.vectorAddr := by
  unfold add
  split
  · split <;> rfl
  · rfl

theorem add_ipl (p : InterruptPipeline) (n : Nat) : (p.add n).ipl = p.ipl := by
  unfold add
  split
  · split <;> rfl
  · rfl

theorem add_state (p : InterruptPipeline) (n : Nat) : (p.add n).state = p.state := by
  unfold add
  split
  · split <;> rfl
  · rfl

end InterruptPipeline

namespace DspState

open InterruptPipeline

variable {σ : Type}

theorem stackPush_pc (s : DspState σ) (v w : Word) : (s.stackPush v w).pc = s.pc := by
  have hpost : s.postStackError.pc = s.pc := rfl
  simp only [stackPush, mirrorSlots, setReg_pc, apply_ite DspState.pc, setSlot_pc, hpost, ite_self]

theorem stackPush_keeps (s : DspState σ) (v w : Word) :
    s.interrupts.Keeps (s.stackPush v w).interrupts := by
  rw [stackPush_interrupts]
  split
  · refine ⟨add_vectorAddr _ _, Or.inl (add_state _ _), add_ipl _ _, fun j hj => ?_⟩
    exact (pending_congr rfl j).trans (pending_add Interrupt.stackError hj)
  · exact Keeps.refl _

theorem detectLongInterrupt_keeps (s : DspState σ) (instr : Word) :
    s.interrupts.Keeps (s.detectLongInterrupt instr).interrupts ∧
      (s.detectLongInterrupt instr).pc = s.pc := by
  simp only [detectLongInterrupt]
  split
  · have hk := stackPush_keeps (s.setInterrupts { s.interrupts with state := .long })
      s.interrupts.savedPc (s.registers Reg.sr)
    have hlong (p : InterruptPipeline) (hp : Keeps { s.interrupts with state := .long } p) :
        s.interrupts.Keeps p :=
      ⟨hp.vector, .inr (hp.state.elim id id), hp.ipl,
        fun j hj => hp.pending j ((pending_congr rfl j).trans hj)⟩
    simp only [setReg_interrupts, setReg_pc]
    exact ⟨hlong _ hk, stackPush_pc _ _ _⟩
  · exact ⟨Keeps.refl _, rfl⟩

theorem fetchVector_keeps (s : DspState σ) :
    s.interrupts.Keeps s.fetchVector.interrupts ∧ s.fetchVector.pc = s.pc :=
  detectLongInterrupt_keeps { s with world := (s.map.readMemory .p s.pc s.world).2 } _

/-- Delivery annuls at the latched vector; the frame it may stack drops no request. -/
theorem deliverArmedFault_spec (s : DspState σ) :
    s.deliverArmedFault.interrupts.vectorAddr = s.interrupts.vectorAddr ∧
    s.deliverArmedFault.pc = s.interrupts.vectorAddr ∧
    (s.deliverArmedFault.interrupts.state = .fast ∨ s.deliverArmedFault.interrupts.state = .long) ∧
    s.deliverArmedFault.interrupts.ipl = s.interrupts.ipl ∧
    ∀ j, s.interrupts.pending j = true → s.deliverArmedFault.interrupts.pending j = true := by
  obtain ⟨hk, hpc⟩ := fetchVector_keeps (({ s.setInterrupts
    { s.interrupts with savedPc := s.pc } with pc := s.interrupts.vectorAddr }).setInterrupts
    { s.interrupts with savedPc := s.pc, state := .fast, faultBudget := invalidFaultBudget })
  refine ⟨hk.vector, hpc, hk.state, hk.ipl, fun j hj => ?_⟩
  exact (pending_congr rfl j).trans (hk.pending j ((pending_congr rfl j).trans hj))

theorem iplSr_nonneg (s : DspState σ) : 0 ≤ s.iplSr := Int.natCast_nonneg _

/-- Source `i`'s vector address is latched: arbitration starts the pipeline with it, or
a parked fault is delivered at it. -/
structure Latches (s t : DspState σ) (i : Fin Interrupt.count) : Prop where
  vector : t.interrupts.vectorAddr = s.vectorOf i
  entered : (t.interrupts.state = .fast ∨ t.interrupts.state = .armed) ∨
    (s.interrupts.state = .parked ∧ t.interrupts.state = .long ∧ t.pc = s.vectorOf i)

/-- A vector address is left alone or reset. -/
def VectorIdle (s t : DspState σ) : Prop :=
  t.interrupts.vectorAddr = s.interrupts.vectorAddr ∨ t.interrupts.vectorAddr = 0xFFFF

/-- A step that serves no source keeps every request and latches nothing; one that serves
`i` serves the winner, latches its vector and keeps the requests of all others. Only the
frame of a parked stack error can post its own source again. -/
inductive Serves (s t : DspState σ) : Prop where
  | nobody (hk : ∀ j, s.interrupts.pending j = true → t.interrupts.pending j = true)
      (hi : VectorIdle s t)
  | source (i : Fin Interrupt.count) (hw : s.interrupts.Wins s.iplSr i) (hv : Latches s t i)
      (hk : ∀ j, j ≠ i → s.interrupts.pending j = true → t.interrupts.pending j = true)
      (hc : s.interrupts.state ≠ .parked → ¬ t.interrupts.pending i = true)

theorem dispatch_spec (s : DspState σ) (i : Fin Interrupt.count) :
    Latches s (s.dispatch i) i ∧
    ∀ j, (s.dispatch i).interrupts.pending j = (s.interrupts.pending j && !decide (i = j)) := by
  simp only [dispatch]
  split
  · exact ⟨⟨rfl, .inl (.inr rfl)⟩, fun j => pending_clearPending s.interrupts i j⟩
  · exact ⟨⟨rfl, .inl (.inl rfl)⟩, fun j => pending_clearPending s.interrupts i j⟩

theorem arbitrate_serves {s : DspState σ} (hl : ∀ i, s.interrupts.ipl i ≤ 3) :
    Serves s s.arbitrate := by
  unfold arbitrate
  split
  · exact .nobody (fun _ h => h) (.inl rfl)
  · cases hw : s.interrupts.arbitrate s.iplSr (List.finRange Interrupt.count) none (-1) with
    | none => exact .nobody (fun _ h => h) (.inl rfl)
    | some i =>
      obtain ⟨hv, hp⟩ := dispatch_spec s i
      refine .source i (wins_of_arbitrate hl s.iplSr_nonneg hw) hv (fun j hj h => ?_) fun _ => ?_
      · simp [hp, h, hj.symm]
      · simp [hp]

theorem deliverParkedFault_serves {s : DspState σ} (hl : ∀ i, s.interrupts.ipl i ≤ 3)
    (hs : s.interrupts.state = .parked) : Serves s s.deliverParkedFault := by
  unfold deliverParkedFault
  cases hw : (List.finRange Interrupt.count).find?
      (fun i => s.interrupts.pending i && s.interrupts.ipl i = 3) with
  | none => exact .nobody (fun _ h => h) (.inl rfl)
  | some i =>
    have hd := deliverArmedFault_spec ((s.setInterrupts (s.interrupts.clearPending i)).setInterrupts
      { s.interrupts.clearPending i with vectorAddr := s.vectorOf i, iplToRaise := 3 })
    obtain ⟨hv, hpc, hst, _, hk⟩ := hd
    refine .source i (wins_of_find hl hw) ⟨hv, ?_⟩ (fun j hj h => hk j ?_) fun h => absurd hs h
    · rcases hst with h | h
      · exact .inl (.inl h)
      · exact .inr ⟨hs, h, hpc⟩
    · have hc := pending_clearPending s.interrupts i j
      rw [h, decide_eq_false hj.symm] at hc
      exact (pending_congr rfl j).trans hc

theorem countParked_keeps (p : InterruptPipeline) :
    (countParked p).pendingBits = p.pendingBits ∧ (countParked p).ipl = p.ipl ∧
      (countParked p).state = p.state ∧ (countParked p).vectorAddr = p.vectorAddr := by
  simp only [countParked]
  split <;> split <;> exact ⟨rfl, rfl, rfl, rfl⟩

/-- What serving sees of a state: requests, levels, mask, vector base and whether a
fault is parked. -/
theorem Serves.of_same {s u t : DspState σ}
    (hb : u.interrupts.pendingBits = s.interrupts.pendingBits)
    (hi : u.interrupts.ipl = s.interrupts.ipl) (hr : u.registers = s.registers)
    (hp : u.interrupts.state = .parked ↔ s.interrupts.state = .parked) (hx : VectorIdle s u)
    (hs : Serves u t) : Serves s t := by
  have hpend : u.interrupts.pending = s.interrupts.pending := funext (pending_congr hb)
  cases hs with
  | nobody hk hn =>
    refine .nobody (hpend ▸ hk) ?_
    rcases hn with hn | hn
    · rcases hx with hx | hx
      · exact .inl (hn.trans hx)
      · exact .inr (hn.trans hx)
    · exact .inr hn
  | source i hw hv hk hc =>
    have hvec : u.vectorOf i = s.vectorOf i := by rw [vectorOf, vectorOf, hr]
    have hsr : u.iplSr = s.iplSr := by rw [iplSr, iplSr, hr]
    refine .source i ?_ ⟨hvec ▸ hv.vector, ?_⟩ (hpend ▸ hk) fun h => hc (mt hp.mp h)
    · rw [← hsr]
      simpa only [Wins, Eligible, hpend, hi] using hw
    · rcases hv.entered with h | ⟨h1, h2, h3⟩
      · exact .inl h
      · exact .inr ⟨hp.mp h1, h2, hvec ▸ h3⟩

theorem tickIdle_serves {s : DspState σ} (hl : ∀ i, s.interrupts.ipl i ≤ 3) :
    Serves s s.tickIdle := by
  unfold tickIdle
  split
  · rename_i hs
    obtain ⟨hb, hi, hst, hv⟩ := countParked_keeps s.interrupts
    simp only [tickParked]
    split
    · apply Serves.of_same (u := s.setInterrupts (countParked s.interrupts)) hb hi rfl
        (iff_of_true (hst.trans hs) hs) (.inl hv)
      apply deliverParkedFault_serves
      · intro i
        exact hi ▸ hl i
      · exact hst.trans hs
    · exact .nobody (fun j hj => (pending_congr hb j).trans hj) (.inl hv)
  · split
    · exact .nobody (fun _ h => h) (.inl rfl)
    · exact arbitrate_serves hl

/-- A fast pipeline drops no request, and goes on to arbitration only with requests,
levels and registers as they were. -/
theorem tickFast_spec (s : DspState σ) :
    (∀ j, s.interrupts.pending j = true → s.tickFast.1.interrupts.pending j = true) ∧
    VectorIdle s s.tickFast.1 ∧
    (s.tickFast.2 = true → s.tickFast.1.interrupts.pendingBits = s.interrupts.pendingBits ∧
      s.tickFast.1.interrupts.ipl = s.interrupts.ipl ∧ s.tickFast.1.registers = s.registers ∧
      s.tickFast.1.interrupts.state = .none) := by
  have hsame (j : Fin Interrupt.count) : s.nextStage.interrupts.pending j = s.interrupts.pending j :=
    pending_congr rfl j
  simp only [tickFast]
  split
  · exact ⟨fun j hj => (hsame j).trans hj, .inl rfl, by simp⟩
  · obtain ⟨hk, _⟩ := fetchVector_keeps { s.setInterrupts { s.interrupts with savedPc := s.pc } with
      pc := s.interrupts.vectorAddr }
    refine ⟨fun j hj => ?_, .inl hk.vector, by simp⟩
    exact (pending_congr rfl j).trans (hk.pending j ((pending_congr rfl j).trans hj))
  · have hk := (fetchVector_keeps s).1
    split
    · exact ⟨fun j hj => (pending_congr rfl j).trans (hk.pending j hj), .inl hk.vector, by simp⟩
    · exact ⟨fun j hj => (hsame j).trans hj, .inl rfl, by simp⟩
  · split <;> exact ⟨fun j hj => (pending_congr rfl j).trans hj, .inl rfl, by simp⟩
  · exact ⟨fun j hj => (hsame j).trans hj, .inl rfl, by simp⟩
  · split
    · exact ⟨fun j hj => (pending_congr rfl j).trans hj, .inr rfl, by simp⟩
    · exact ⟨fun j hj => (pending_congr rfl j).trans hj, .inr rfl, fun _ => ⟨rfl, rfl, rfl, rfl⟩⟩
  · exact ⟨fun _ hj => hj, .inl rfl, by simp⟩

theorem processPendingInterrupts_serves {s : DspState σ} (hl : ∀ i, s.interrupts.ipl i ≤ 3) :
    Serves s s.processPendingInterrupts := by
  unfold processPendingInterrupts
  split
  · exact .nobody (fun _ h => h) (.inl rfl)
  · split
    · rename_i hst
      obtain ⟨hk, hv, hgo⟩ := tickFast_spec s
      split
      · rename_i hf
        obtain ⟨hb, hi, hr, hn⟩ := hgo hf
        apply Serves.of_same hb hi hr (by simp [hn, hst]) hv
        apply tickIdle_serves
        intro i
        exact hi ▸ hl i
      · exact .nobody hk hv
    · exact tickIdle_serves hl

theorem tickIdle_ipl (s : DspState σ) : s.tickIdle.interrupts.ipl = s.interrupts.ipl := by
  obtain ⟨_, hi, _, _⟩ := countParked_keeps s.interrupts
  simp only [tickIdle, tickParked, arbitrate, dispatch, deliverParkedFault]
  split
  · split
    · split
      · exact hi
      · exact (deliverArmedFault_spec _).2.2.2.1.trans hi
    · exact hi
  · split
    · rfl
    · split
      · rfl
      · split
        · rfl
        · split <;> rfl

theorem tickFast_ipl (s : DspState σ) : s.tickFast.1.interrupts.ipl = s.interrupts.ipl := by
  simp only [tickFast]
  split
  · rfl
  · exact (fetchVector_keeps { s.setInterrupts { s.interrupts with savedPc := s.pc } with
      pc := s.interrupts.vectorAddr }).1.ipl
  · split
    · exact (fetchVector_keeps s).1.ipl
    · rfl
  · split <;> rfl
  · rfl
  · split <;> rfl
  · rfl

theorem processPendingInterrupts_ipl (s : DspState σ) :
    s.processPendingInterrupts.interrupts.ipl = s.interrupts.ipl := by
  unfold processPendingInterrupts
  split
  · rfl
  · split
    · split
      · exact (tickIdle_ipl _).trans (tickFast_ipl s)
      · exact tickFast_ipl s
    · exact tickIdle_ipl s

/-- What drives the pipeline. `other` stands for guest code and the host between ticks:
they leave the pending bits alone and keep every source's level at most 3. -/
inductive PipelineEvent where
  | add (inter : Nat)
  | process
  | deliver
  | other

def pipelineStep (s : DspState σ) (e : PipelineEvent) (t : DspState σ) : Prop :=
  match e with
  | .add inter => t = s.setInterrupts (s.interrupts.add inter)
  | .process => t = s.processPendingInterrupts
  | .deliver => t = s.deliverArmedFault
  | .other => t.interrupts.pendingBits = s.interrupts.pendingBits ∧ ∀ i, t.interrupts.ipl i ≤ 3

theorem pipelineStep_levels (s : DspState σ) (e : PipelineEvent) (t : DspState σ)
    (hl : ∀ i, s.interrupts.ipl i ≤ 3) (hs : pipelineStep s e t) :
    ∀ i, t.interrupts.ipl i ≤ 3 := by
  cases e with
  | add n =>
    intro i
    obtain rfl : t = _ := hs
    exact le_of_eq_of_le (congrFun (add_ipl s.interrupts n) i) (hl i)
  | process =>
    intro i
    obtain rfl : t = _ := hs
    exact le_of_eq_of_le (congrFun (processPendingInterrupts_ipl s) i) (hl i)
  | deliver =>
    intro i
    obtain rfl : t = _ := hs
    exact le_of_eq_of_le (congrFun (deliverArmedFault_spec s).2.2.2.1 i) (hl i)
  | other => exact hs.2

theorem reachable_levels (map : MemoryMap σ) (world : World σ) {es : List PipelineEvent}
    {s : DspState σ} (hr : Lib.Runs.Run pipelineStep (new map world) es s) :
    ∀ i, s.interrupts.ipl i ≤ 3 := by
  refine hr.invariant (p := fun s => ∀ i, s.interrupts.ipl i ≤ 3) pipelineStep_levels ?_
  intro i
  simp only [new, InterruptPipeline.new]
  split <;> omega

/-- The request of `i` is there before the step and gone after it. -/
def Clears (s t : DspState σ) (i : Fin Interrupt.count) : Prop :=
  s.interrupts.pending i = true ∧ ¬ t.interrupts.pending i = true

/-- Only a tick clears requests, and the one it clears is the winner's. -/
theorem pipelineStep_clears {s t : DspState σ} {e : PipelineEvent}
    (hl : ∀ i, s.interrupts.ipl i ≤ 3) (hs : pipelineStep s e t) {i : Fin Interrupt.count}
    (hc : Clears s t i) :
    e = .process ∧ Latches s t i ∧ s.interrupts.Wins s.iplSr i := by
  obtain ⟨hp, hn⟩ := hc
  cases e with
  | add n =>
    obtain rfl : t = _ := hs
    exact absurd (pending_add n hp) hn
  | process =>
    obtain rfl : t = _ := hs
    cases processPendingInterrupts_serves hl with
    | nobody hk _ => exact absurd (hk i hp) hn
    | source j hw hv hk _ =>
      by_cases hij : i = j
      · subst hij
        exact ⟨rfl, hv, hw⟩
      · exact absurd (hk i hij hp) hn
  | deliver =>
    obtain rfl : t = _ := hs
    exact absurd ((deliverArmedFault_spec s).2.2.2.2 i hp) hn
  | other => exact absurd ((pending_congr hs.1 i).trans hp) hn

theorem add_pends {p : InterruptPipeline} (i : Fin Interrupt.count) (hi : p.ipl i ≠ -1) :
    (p.add i.val).pending i = true := by
  simp [add, hi]

/-- In every state the pipeline can reach, posting an enabled source pends it; a request is
only cleared by the tick that latches its vector, and its source outranks every other
eligible one; no step clears two; and arbitration latches no vector without clearing. -/
theorem interrupts_served_in_order (map : MemoryMap σ) (world : World σ)
    {es : List PipelineEvent} {s t : DspState σ} {e : PipelineEvent}
    (hr : Lib.Runs.Run pipelineStep (new map world) es s) (hs : pipelineStep s e t) :
    (∀ i : Fin Interrupt.count, e = .add i.val → s.interrupts.ipl i ≠ -1 →
      t.interrupts.pending i = true) ∧
    (∀ i, Clears s t i → e = .process ∧ Latches s t i ∧ s.interrupts.Wins s.iplSr i) ∧
    (∀ i j, Clears s t i → Clears s t j → i = j) ∧
    (e = .process → VectorIdle s t ∨ ∃ i, s.interrupts.Wins s.iplSr i ∧ Latches s t i ∧
      (s.interrupts.state ≠ .parked → Clears s t i)) := by
  have hl := reachable_levels map world hr
  refine ⟨?_, fun i hc => pipelineStep_clears hl hs hc, fun i j hi hj => ?_, ?_⟩
  · rintro i rfl hi
    obtain rfl : t = _ := hs
    exact add_pends i hi
  · have h1 := (pipelineStep_clears hl hs hi).2.2
    have h2 := (pipelineStep_clears hl hs hj).2.2
    exact h1.unique h2
  · rintro rfl
    obtain rfl : t = _ := hs
    cases processPendingInterrupts_serves hl with
    | nobody _ hi => exact .inl hi
    | source i hw hv _ hc => exact .inr ⟨i, hw, hv, fun h => ⟨hw.1.1, hc h⟩⟩

/-- A TRAP request posted on a reset core and the tick that dispatches it. -/
theorem interrupts_served_in_order_trap :
    let s := (new ⟨[], [], []⟩ ⟨fun _ => 0, ()⟩).setInterrupts (InterruptPipeline.new.add 4)
    let t := s.processPendingInterrupts
    (∀ i : Fin Interrupt.count, PipelineEvent.process = .add i.val → s.interrupts.ipl i ≠ -1 →
      t.interrupts.pending i = true) ∧
    (∀ i, Clears s t i →
      PipelineEvent.process = .process ∧ Latches s t i ∧ s.interrupts.Wins s.iplSr i) ∧
    (∀ i j, Clears s t i → Clears s t j → i = j) ∧
    (PipelineEvent.process = .process → VectorIdle s t ∨
      ∃ i, s.interrupts.Wins s.iplSr i ∧ Latches s t i ∧
        (s.interrupts.state ≠ .parked → Clears s t i)) :=
  @interrupts_served_in_order _ ⟨[], [], []⟩ ⟨fun _ => 0, ()⟩ [.add 4] _ _ .process
    (.cons rfl (.nil _)) rfl

end DspState

end Dsp56300
