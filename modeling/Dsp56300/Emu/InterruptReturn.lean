import Dsp56300.Emu.Arbitration
import Dsp56300.Emu.CallSites
import Dsp56300.Emu.CoreWidths

namespace Dsp56300

open Emitter

variable {σ φ : Type}

namespace DspState

theorem maskPc_maskPc (v : Word) : maskPc (maskPc v) = maskPc v := by
  rw [maskPc, maskPc, BitVec.and_assoc]
  rfl

/-- The DO loop flag. -/
def loopFlag (s : DspState σ) : Word := s.registers Reg.sr &&& (1#32 <<< Sr.lf)

/-- Code that neither branches nor touches the hardware stack, a loop or the interrupt
pipeline. -/
structure KeepsControl (s t : DspState σ) : Prop where
  pc : t.pc = s.pc
  pcAdvance : t.pcAdvance = s.pcAdvance
  loopRep : t.loopRep = s.loopRep
  loopFlag : t.loopFlag = s.loopFlag
  stackPart : t.stackPart = s.stackPart
  state : t.interrupts.state = s.interrupts.state
  pipelineStage : t.interrupts.pipelineStage = s.interrupts.pipelineStage
  vectorAddr : t.interrupts.vectorAddr = s.interrupts.vectorAddr
  savedPc : t.interrupts.savedPc = s.interrupts.savedPc

theorem KeepsControl.refl (s : DspState σ) : s.KeepsControl s :=
  ⟨rfl, rfl, rfl, rfl, rfl, rfl, rfl, rfl, rfl⟩

theorem KeepsControl.withBudget (s : DspState σ) (budget : ℤ) :
    s.KeepsControl (s.withBudget budget) := ⟨rfl, rfl, rfl, rfl, rfl, rfl, rfl, rfl, rfl⟩

theorem KeepsControl.trans {s t u : DspState σ} (h : s.KeepsControl t) (k : t.KeepsControl u) :
    s.KeepsControl u where
  pc := k.pc.trans h.pc
  pcAdvance := k.pcAdvance.trans h.pcAdvance
  loopRep := k.loopRep.trans h.loopRep
  loopFlag := k.loopFlag.trans h.loopFlag
  stackPart := k.stackPart.trans h.stackPart
  state := k.state.trans h.state
  pipelineStage := k.pipelineStage.trans h.pipelineStage
  vectorAddr := k.vectorAddr.trans h.vectorAddr
  savedPc := k.savedPc.trans h.savedPc

/-- An interrupt is delivered: by the pipeline's fourth stage, as an armed fault or as a parked
one. None of the three happens inside a REP. -/
inductive Delivers (s : DspState σ) : DspState σ → Prop where
  | pipeline (hr : s.loopRep = false) (hf : s.interrupts.state = .fast)
      (h4 : s.interrupts.pipelineStage = 4) : Delivers s s.processPendingInterrupts
  | armed (hr : s.loopRep = false) : Delivers s s.deliverArmedFault
  | parked (hr : s.loopRep = false) (i : Fin Interrupt.count)
      (hi : (List.finRange Interrupt.count).find?
        (fun i => s.interrupts.pending i && s.interrupts.ipl i = 3) = some i) :
      Delivers s s.deliverParkedFault

/-- The word the vector fetch looks at. -/
def vectorWord (s : DspState σ) : Word := (s.map.readMemory .p s.pc s.world).1

/-- `s` redirected to its vector, before the fetch. -/
structure Redirects (s u : DspState σ) : Prop where
  pc : u.pc = u.interrupts.vectorAddr
  savedPc : u.interrupts.savedPc = s.pc
  state : u.interrupts.state = .fast
  loopRep : u.loopRep = false
  registers : u.registers = s.registers
  stack : u.stack = s.stack
  map : u.map = s.map
  world : u.world = s.world

/-- `u` has fetched the first vector word and enters stage 3. -/
def enterVector (u : DspState σ) : DspState σ :=
  u.fetchVector.setInterrupts { u.fetchVector.interrupts with pipelineStage := 3 }

theorem fetchVector_fast {u : DspState σ} (h : isSubroutineCall (decode u.vectorWord) = false) :
    u.fetchVector = { u with world := (u.map.readMemory .p u.pc u.world).2 } :=
  if_neg fun hc => Bool.false_ne_true (h.symm.trans hc.1)

/-- What long-interrupt detection leaves: one frame with the saved PC and SR. -/
structure Stacked (u r : DspState σ) : Prop where
  pc : r.pc = u.pc
  loopRep : r.loopRep = u.loopRep
  state : r.interrupts.state = .long
  pipelineStage : r.interrupts.pipelineStage = u.interrupts.pipelineStage
  vectorAddr : r.interrupts.vectorAddr = u.interrupts.vectorAddr
  stackPart : r.stackPart = (u.stackPush u.interrupts.savedPc (u.registers Reg.sr)).stackPart

theorem add_pipelineStage (p : InterruptPipeline) (n : Nat) :
    (p.add n).pipelineStage = p.pipelineStage := by
  unfold InterruptPipeline.add
  split
  · split <;> rfl
  · rfl

theorem stackPush_pipelineStage (s : DspState σ) (v w : Word) :
    (s.stackPush v w).interrupts.pipelineStage = s.interrupts.pipelineStage := by
  rw [stackPush_interrupts]
  split
  · exact add_pipelineStage _ _
  · rfl

theorem stackPush_state (s : DspState σ) (v w : Word) :
    (s.stackPush v w).interrupts.state = s.interrupts.state := by
  rw [stackPush_interrupts]
  split
  · exact InterruptPipeline.add_state _ _
  · rfl

theorem stackPush_loopRep (s : DspState σ) (v w : Word) :
    (s.stackPush v w).loopRep = s.loopRep := by
  have hr (t : DspState σ) (r : RegIdx) (x : Word) : (t.setReg r x).loopRep = t.loopRep := rfl
  have hs (t : DspState σ) (h : Fin 2) (i : Fin 16) (x : Word) :
      (t.setSlot h i x).loopRep = t.loopRep := rfl
  have hp : s.postStackError.loopRep = s.loopRep := rfl
  simp only [stackPush, mirrorSlots, hr, apply_ite DspState.loopRep, hs, hp, ite_self]

/-- A push looks at the stack and nothing else. -/
theorem stackPush_stackPart_congr {s t : DspState σ} (h : t.stackPart = s.stackPart) (v w : Word) :
    (t.stackPush v w).stackPart = (s.stackPush v w).stackPart := by
  simp only [stackPart, Prod.mk.injEq] at h
  obtain ⟨hp, hc, _, _, hk⟩ := h
  have hne := nibble_succ_ne_zero (s.registers Reg.sp)
  simp (disch := decide) only [stackPart, stackPush, setReg_other, setReg_same, setSlot_registers,
    post_registers, hne, hp, hc, hk, ne_eq, not_false_eq_true, if_true, mirrorSlots_other,
    mirrorSlots_ssh, mirrorSlots_ssl, mirrorSlots_stack, setReg_stack, setSlot_stack, post_stack]

theorem fetchVector_long {u : DspState σ} (h : isSubroutineCall (decode u.vectorWord) = true)
    (hl : u.interrupts.state ≠ .long) : Stacked u u.fetchVector := by
  let t : DspState σ := { u with world := (u.map.readMemory .p u.pc u.world).2 }
  let k : DspState σ := t.setInterrupts { t.interrupts with state := .long }
  let f := k.stackPush k.interrupts.savedPc (k.registers Reg.sr)
  have he : ∃ sr, u.fetchVector = f.setReg Reg.sr sr := by
    have hd : u.fetchVector = t.detectLongInterrupt u.vectorWord := rfl
    rw [hd, detectLongInterrupt, if_pos ⟨h, hl⟩]
    exact ⟨_, setReg_setReg f Reg.sr _ _⟩
  obtain ⟨sr, he⟩ := he
  have hv := (stackPush_keeps k k.interrupts.savedPc (k.registers Reg.sr)).vector
  rw [he]
  refine ⟨?_, ?_, ?_, ?_, ?_, ?_⟩
  · exact stackPush_pc k _ _
  · exact stackPush_loopRep k _ _
  · exact stackPush_state k _ _
  · exact stackPush_pipelineStage k _ _
  · exact hv
  · exact (stackPart_setReg f sr (by decide)).trans
      (stackPush_stackPart_congr (s := u) (t := k) rfl _ _)

/-- `deliverArmedFault` up to the fetch. -/
def redirect (s : DspState σ) : DspState σ :=
  let s := s.setInterrupts { s.interrupts with savedPc := s.pc }
  let s := { s with pc := s.interrupts.vectorAddr }
  s.setInterrupts { s.interrupts with state := .fast, faultBudget := invalidFaultBudget }

theorem deliverArmedFault_eq (s : DspState σ) : s.deliverArmedFault = s.redirect.enterVector := by
  unfold deliverArmedFault enterVector redirect
  rfl

theorem fetchVector_pipelineStage (u : DspState σ) :
    u.fetchVector.interrupts.pipelineStage = u.interrupts.pipelineStage := by
  by_cases hl : u.interrupts.state = .long
  · have hk : u.fetchVector = { u with world := (u.map.readMemory .p u.pc u.world).2 } :=
      if_neg fun hc => hc.2 hl
    rw [hk]
  · cases hw : isSubroutineCall (decode u.vectorWord) with
    | true => exact (fetchVector_long hw hl).pipelineStage
    | false => rw [fetchVector_fast hw]

/-- Every delivery redirects to the vector and fetches its first word. -/
theorem Delivers.redirects {s d : DspState σ} (h : Delivers s d) :
    ∃ u, Redirects s u ∧ d = u.enterVector := by
  cases h with
  | pipeline hr hf h4 =>
    let u : DspState σ := { s.setInterrupts { s.interrupts with savedPc := s.pc } with
      pc := s.interrupts.vectorAddr }
    refine ⟨u, ⟨rfl, rfl, hf, hr, rfl, rfl, rfl, rfl⟩, ?_⟩
    have ht : s.tickFast = (u.fetchVector.nextStage, false) := by
      unfold tickFast
      rw [h4]
      rfl
    have hs : u.fetchVector.interrupts.pipelineStage = 4 := (fetchVector_pipelineStage u).trans h4
    unfold processPendingInterrupts
    simp only [hr, hf, ht, Bool.false_eq_true, if_false, if_true]
    unfold nextStage enterVector
    rw [hs]
  | armed hr => exact ⟨s.redirect, ⟨rfl, rfl, rfl, hr, rfl, rfl, rfl, rfl⟩, deliverArmedFault_eq s⟩
  | parked hr i hi =>
    let t := s.setInterrupts (s.interrupts.clearPending i)
    let l := t.setInterrupts { t.interrupts with vectorAddr := t.vectorOf i, iplToRaise := 3 }
    have hd : s.deliverParkedFault = l.deliverArmedFault := by
      unfold deliverParkedFault
      rw [hi]
    refine ⟨l.redirect, ⟨rfl, rfl, rfl, hr, rfl, rfl, rfl, rfl⟩, ?_⟩
    rw [hd, deliverArmedFault_eq]

/-- Without a REP, and where no loop can end, advancing only moves PC. -/
theorem advancePc_straight {t : DspState σ} (hr : t.loopRep = false)
    (hl : t.loopFlag = 0 ∨ t.pcAdvance = 0) : ∃ w u, t.advancePc =
      { t with pc := maskPc (t.pc + t.pcAdvance), warnedBits := w, unimplReported := u } := by
  have hc : ∃ w u, t.checkUnimplementedModes = { t with warnedBits := w, unimplReported := u } := by
    unfold checkUnimplementedModes
    extract_lets
    split
    · exact ⟨t.warnedBits, t.unimplReported, rfl⟩
    · exact ⟨_, _, rfl⟩
  obtain ⟨w, u, hc⟩ := hc
  refine ⟨w, u, ?_⟩
  have ha : ({ t with warnedBits := w, unimplReported := u } : DspState σ).advanceRep =
      { t with warnedBits := w, unimplReported := u } := if_pos (by simp [hr])
  unfold advancePc
  rw [hc]
  dsimp only
  rw [ha]
  refine if_neg fun hn => ?_
  rcases hl with h0 | h0
  · exact hn.1 h0
  · exact hn.2.1 h0

/-- Stage 3 looks for a call in the second vector word. -/
theorem tick_three {t : DspState σ} (hr : t.loopRep = false) (hf : t.interrupts.state = .fast)
    (h3 : t.interrupts.pipelineStage = 3) : t.processPendingInterrupts =
      (if t.pc = maskPc (t.interrupts.vectorAddr + 1) then t.fetchVector else t).nextStage := by
  have ht : t.tickFast =
      ((if t.pc = maskPc (t.interrupts.vectorAddr + 1) then t.fetchVector else t).nextStage,
        false) := by
    unfold tickFast
    rw [h3]
    rfl
  unfold processPendingInterrupts
  rw [if_neg (by simp [hr]), if_pos hf, ht]
  rfl

/-- Stage 2 ends a fast interrupt behind its second word. -/
theorem tick_two {t : DspState σ} (hr : t.loopRep = false) (hf : t.interrupts.state = .fast)
    (h2 : t.interrupts.pipelineStage = 2) : t.processPendingInterrupts =
      (if t.pc = maskPc (t.interrupts.vectorAddr + 2) then { t with pc := t.interrupts.savedPc }
        else t).nextStage := by
  have hl : t.interrupts.state ≠ .long := by rw [hf]; exact fun h => by cases h
  have ht : t.tickFast =
      ((if t.pc = maskPc (t.interrupts.vectorAddr + 2) then { t with pc := t.interrupts.savedPc }
        else t).nextStage, false) := by
    unfold tickFast
    rw [h2]
    simp only [hl, ne_eq, not_false_eq_true, true_and]
  unfold processPendingInterrupts
  rw [if_neg (by simp [hr]), if_pos hf, ht]
  rfl

/-- A long interrupt leaves the tick to arbitration, which only latches a vector. -/
theorem tick_long {t : DspState σ} (hr : t.loopRep = false) (hl : t.interrupts.state = .long) :
    t.processPendingInterrupts.pc = t.pc ∧
      t.processPendingInterrupts.stackPart = t.stackPart := by
  have ht : t.processPendingInterrupts = t.arbitrate := by
    unfold processPendingInterrupts tickIdle
    rw [if_neg (by simp [hr]), if_neg (by simp [hl]), if_neg (by simp [hl]),
      if_neg (by simp [hl])]
  rw [ht]
  unfold arbitrate
  split
  · exact ⟨rfl, rfl⟩
  · split
    · exact ⟨rfl, rfl⟩
    · unfold dispatch
      dsimp only
      split <;> exact ⟨rfl, rfl⟩

/-- `d` runs the vector an interrupt of `s` was redirected to, at a pipeline stage, with nothing
stacked. -/
structure InVector (s d : DspState σ) (stage : Nat) : Prop where
  loopRep : d.loopRep = false
  loopFlag : d.loopFlag = 0
  stackPart : d.stackPart = s.stackPart
  state : d.interrupts.state = .fast
  pipelineStage : d.interrupts.pipelineStage = stage
  savedPc : d.interrupts.savedPc = s.pc

theorem InVector.keeps {s d t : DspState σ} {n : Nat} (h : InVector s d n) (k : d.KeepsControl t) :
    InVector s t n where
  loopRep := k.loopRep.trans h.loopRep
  loopFlag := k.loopFlag.trans h.loopFlag
  stackPart := k.stackPart.trans h.stackPart
  state := k.state.trans h.state
  pipelineStage := k.pipelineStage.trans h.pipelineStage
  savedPc := k.savedPc.trans h.savedPc

/-- The first word of the vector `d` was redirected to, as the delivery read it. -/
def deliveredWord (s d : DspState σ) : Word :=
  (s.map.readMemory .p d.interrupts.vectorAddr s.world).1

/-- The vector word the fetch of a redirected state looks at is the delivered one. -/
theorem Redirects.vectorWord {s u : DspState σ} (h : Redirects s u) :
    u.vectorWord = (s.map.readMemory .p u.interrupts.vectorAddr s.world).1 := by
  rw [DspState.vectorWord, h.map, h.world, h.pc]

theorem enterVector_vectorAddr (u : DspState σ) :
    u.enterVector.interrupts.vectorAddr = u.interrupts.vectorAddr ∧ u.enterVector.pc = u.pc :=
  ⟨(fetchVector_keeps u).1.vector, (fetchVector_keeps u).2⟩

theorem enterVector_eq {u : DspState σ} {w : Word} (hw : u.vectorWord = w) :
    let d := ({ u with world := (u.map.readMemory .p u.pc u.world).2 } :
      DspState σ).detectLongInterrupt w
    u.enterVector = d.setInterrupts { d.interrupts with pipelineStage := 3 } := by
  rw [← hw]
  rfl

theorem Redirects.stackPart {s u : DspState σ} (h : Redirects s u) :
    u.stackPart = s.stackPart := by
  simp only [DspState.stackPart, h.registers, h.stack]

/-- Without a call at the vector nothing is stacked. -/
theorem Delivers.inVector {s d : DspState σ} (h : Delivers s d) (hl : s.loopFlag = 0)
    (hw : isSubroutineCall (decode (deliveredWord s d)) = false) :
    InVector s d 3 ∧ d.pc = d.interrupts.vectorAddr := by
  obtain ⟨u, hu, rfl⟩ := h.redirects
  obtain ⟨hv, hp⟩ := enterVector_vectorAddr u
  have hf : u.fetchVector = _ := fetchVector_fast (by rwa [hu.vectorWord, ← hv])
  refine ⟨?_, by rw [hv, hp, hu.pc]⟩
  unfold enterVector
  rw [hf]
  refine ⟨hu.loopRep, ?_, hu.stackPart, hu.state, rfl, hu.savedPc⟩
  exact (congrArg (· &&& (1#32 <<< Sr.lf)) (congrFun hu.registers Reg.sr)).trans hl

/-- A call at the vector stacks the interrupted context. -/
theorem Delivers.stacked {s d : DspState σ} (h : Delivers s d)
    (hw : isSubroutineCall (decode (deliveredWord s d)) = true) :
    d.loopRep = false ∧ d.interrupts.state = .long ∧ d.interrupts.pipelineStage = 3 ∧
      d.pc = d.interrupts.vectorAddr ∧
      d.stackPart = (s.stackPush s.pc (s.registers Reg.sr)).stackPart := by
  obtain ⟨u, hu, rfl⟩ := h.redirects
  obtain ⟨hv, hp⟩ := enterVector_vectorAddr u
  have hne : u.interrupts.state ≠ .long := by rw [hu.state]; exact fun h => by cases h
  have hs := fetchVector_long (by rwa [hu.vectorWord, ← hv]) hne
  refine ⟨hs.loopRep.trans hu.loopRep, hs.state, rfl, by rw [hv, hp, hu.pc], ?_⟩
  have hf : u.enterVector.stackPart = u.fetchVector.stackPart := rfl
  rw [hf, hs.stackPart, hu.savedPc, hu.registers]
  exact stackPush_stackPart_congr hu.stackPart _ _

end DspState

namespace Machine

variable (e : Translator σ φ)

/-- The code `stepOne` runs, with the instruction's length. -/
def code (m : Machine σ φ) : φ × Word :=
  let ((opcode, nextWord), s) := fetch m.dsp
  (getOrCompileInstruction e m.instrCache s.pc opcode nextWord s.map).1

/-- The state that code starts in, and the one it leaves. -/
def entry (m : Machine σ φ) : DspState σ := { (fetch m.dsp).2 with pcAdvance := (m.code e).2 }

def coded (m : Machine σ φ) : DspState σ := (e.call (m.code e).1 (m.entry e)).1

theorem stepOne_dsp {m : Machine σ φ} (h : m.dsp.interrupts.state ≠ .armed) :
    ∃ c, (m.stepOne e).1.dsp =
      { (m.coded e).advancePc.processPendingInterrupts with cycleCount := c } := by
  have hg : (fetch m.dsp).2.armedGate (fetch m.dsp).1.1 (m.code e).2 = some (fetch m.dsp).2 :=
    if_neg fun hc => h hc.1
  unfold stepOne execute
  simp only [code] at hg
  dsimp only
  rw [hg]
  exact ⟨_, rfl⟩

/-- An instruction of `len` words that leaves the control state alone. -/
def Plain (m : Machine σ φ) (len : Word) : Prop :=
  (m.code e).2 = len ∧ (m.entry e).KeepsControl (m.coded e)

theorem stepOne_plain {m : Machine σ φ} {s : DspState σ} {n : Nat} {len : Word}
    (hp : m.Plain e len)
    (hv : s.InVector m.dsp n) : ∃ t c,
      (m.stepOne e).1.dsp = { t.processPendingInterrupts with cycleCount := c } ∧
      s.InVector t n ∧ t = (m.coded e).advancePc ∧ t.pc = maskPc (m.dsp.pc + len) ∧
      t.interrupts.vectorAddr = m.dsp.interrupts.vectorAddr ∧
      t.registers = (m.coded e).registers := by
  obtain ⟨h1, hk⟩ := hp
  have ha : m.dsp.interrupts.state ≠ .armed := by rw [hv.state]; exact fun h => by cases h
  obtain ⟨c, hc⟩ := m.stepOne_dsp e ha
  have he : s.InVector (m.entry e) n :=
    ⟨hv.loopRep, hv.loopFlag, hv.stackPart, hv.state, hv.pipelineStage, hv.savedPc⟩
  have hm := he.keeps hk
  obtain ⟨w, u, ht⟩ := DspState.advancePc_straight hm.loopRep (.inl hm.loopFlag)
  refine ⟨(m.coded e).advancePc, c, hc, ?_, rfl, ?_, ?_, ?_⟩
  · rw [ht]
    exact ⟨hm.loopRep, hm.loopFlag, hm.stackPart, hm.state, hm.pipelineStage, hm.savedPc⟩
  · rw [ht]
    have hpc : (m.coded e).pc = m.dsp.pc := hk.pc
    have hadv : (m.coded e).pcAdvance = len := hk.pcAdvance.trans h1
    simp only [hpc, hadv]
  · rw [ht]
    exact hk.vectorAddr
  · rw [ht]

/-- What the code of a call finds before its push: whether it is taken, the address and the state. -/
def operand (m : Machine σ φ) (c : CallSite) : (Bool × Word) × Point (DspState σ) :=
  c.operand ((m.entry e).withBudget 0)

/-- A jump to subroutine, its condition met or not. -/
def Calls (m : Machine σ φ) (c : CallSite) (taken : Bool) : Prop :=
  m.coded e = (m.entry e).emitCall c ∧
    (m.entry e).KeepsControl (m.operand e c).2.state ∧ (m.operand e c).1.1 = taken

/-- Compiled code of a jump to subroutine calls. -/
theorem calls_of_runs {e : Translator σ φ} {m : Machine σ φ} {opcode pc nextWord : Word}
    {c : CallSite} {taken : Bool} (hf : e.Runs (m.code e).1 (instructionCode opcode pc nextWord))
    (hc : (decode opcode).callSite pc nextWord = some c) (hs : (m.entry e).Within)
    (hk : (m.entry e).KeepsControl (m.operand e c).2.state)
    (ht : (m.operand e c).1.1 = taken) : m.Calls e c taken :=
  ⟨hf.calls hc hs, hk, ht⟩

/-- Where it goes. -/
def callTarget (m : Machine σ φ) (c : CallSite) : Word :=
  c.goal (m.operand e c).1.2 (c.push (m.operand e c).2)

/-- A call that finds its frame stacked already skips its own push. -/
theorem stepOne_calls {m : Machine σ φ} {c : CallSite} (hc : m.Calls e c true)
    (hr : m.dsp.loopRep = false) (hl : m.dsp.interrupts.state = .long) : ∃ t k,
      (m.stepOne e).1.dsp = { t.processPendingInterrupts with cycleCount := k } ∧
      t = (m.coded e).advancePc ∧ t.pc = m.callTarget e c ∧ t.loopRep = false ∧
      t.interrupts.state = .fast ∧ t.stackPart = m.dsp.stackPart ∧
      t.interrupts.pipelineStage = m.dsp.interrupts.pipelineStage ∧
      t.interrupts.vectorAddr = m.dsp.interrupts.vectorAddr := by
  obtain ⟨he, hk, ht⟩ := hc
  have ha : m.dsp.interrupts.state ≠ .armed := by rw [hl]; exact fun h => by cases h
  obtain ⟨k, hd⟩ := m.stepOne_dsp e ha
  let q := (m.operand e c).2.state
  have hol : q.interrupts.state = .long := hk.state.trans hl
  have hpush : (c.push (m.operand e c).2).state =
      q.setInterrupts { q.interrupts with state := .fast } := if_pos hol
  have hcode : m.coded e = ({ q.setInterrupts { q.interrupts with state := .fast } with
      pc := m.callTarget e c, pcAdvance := 0 } : DspState σ).withBudget
        (m.entry e).cycleBudget := by
    have hcall : c.call ((m.entry e).withBudget 0) =
        { (c.push (m.operand e c).2).state with pc := m.callTarget e c, pcAdvance := 0 } :=
      if_pos ht
    rw [he, DspState.emitCall, hcall, hpush]
  have hrc : (m.coded e).loopRep = false := by rw [hcode]; exact hk.loopRep.trans hr
  obtain ⟨w, u, hadv⟩ := DspState.advancePc_straight hrc (.inr (by rw [hcode]))
  refine ⟨_, k, hd, rfl, ?_⟩
  rw [hadv, hcode]
  refine ⟨?_, hk.loopRep.trans hr, rfl, hk.stackPart, hk.pipelineStage, hk.vectorAddr⟩
  exact (congrArg maskPc (BitVec.add_zero _)).trans (DspState.maskPc_maskPc _)

/-- A call whose condition is not met moves on, with the frame detection stacked for it. -/
theorem stepOne_passes {m : Machine σ φ} {c : CallSite} (hc : m.Calls e c false)
    (hr : m.dsp.loopRep = false) (hf : m.dsp.loopFlag = 0)
    (hl : m.dsp.interrupts.state = .long) :
    (m.stepOne e).1.dsp.pc = maskPc (m.dsp.pc + BitVec.ofNat 32 c.len) ∧
      (m.stepOne e).1.dsp.stackPart = m.dsp.stackPart := by
  obtain ⟨he, hk, ht⟩ := hc
  have ha : m.dsp.interrupts.state ≠ .armed := by rw [hl]; exact fun h => by cases h
  obtain ⟨k, hd⟩ := m.stepOne_dsp e ha
  let q := (m.operand e c).2.state
  have hcode : m.coded e = ({ q with pcAdvance := BitVec.ofNat 32 c.len } : DspState σ).withBudget
      (m.entry e).cycleBudget := by
    have hcall : c.call ((m.entry e).withBudget 0) =
        { (m.operand e c).2.state with pcAdvance := BitVec.ofNat 32 c.len } :=
      if_neg fun h => Bool.false_ne_true (ht.symm.trans h)
    rw [he, DspState.emitCall, hcall]
  have hrc : (m.coded e).loopRep = false := by rw [hcode]; exact hk.loopRep.trans hr
  have hfc : (m.coded e).loopFlag = 0 := by rw [hcode]; exact hk.loopFlag.trans hf
  obtain ⟨w, u, hadv⟩ := DspState.advancePc_straight hrc (.inl hfc)
  have hlong : (m.coded e).advancePc.interrupts.state = .long := by
    rw [hadv, hcode]
    exact hk.state.trans hl
  have hra : (m.coded e).advancePc.loopRep = false := by rw [hadv]; exact hrc
  obtain ⟨hp, hs⟩ := DspState.tick_long hra hlong
  rw [hd]
  refine ⟨hp.trans ?_, hs.trans ?_⟩
  · rw [hadv, hcode]
    exact congrArg (fun v => maskPc (v + BitVec.ofNat 32 c.len)) hk.pc
  · rw [hadv, hcode]
    exact hk.stackPart

variable {e} {s d : DspState σ} {m : Machine σ φ}

/-- A one-word instruction at the vector that is not a call brings the second word up. -/
theorem first_word (h : s.Delivers d) (hl : s.loopFlag = 0) (hm : m.dsp = d)
    (hw : isSubroutineCall (decode (s.deliveredWord d)) = false) (hp : m.Plain e 1) : ∃ t c,
    (m.stepOne e).1.dsp = { t.fetchVector.nextStage with cycleCount := c } ∧ s.InVector t 3 ∧
      t = (m.coded e).advancePc ∧ t.pc = maskPc (t.interrupts.vectorAddr + 1) ∧
      t.interrupts.vectorAddr = d.interrupts.vectorAddr ∧
      t.registers = (m.coded e).registers := by
  obtain ⟨hv, hpc⟩ := h.inVector hl hw
  subst hm
  obtain ⟨t, c, hd, ht, hta, htp, htv, htr⟩ := stepOne_plain e hp hv
  have h1 : t.pc = maskPc (t.interrupts.vectorAddr + 1) := by rw [htp, htv, hpc]
  refine ⟨t, c, ?_, ht, hta, h1, htv, htr⟩
  rw [hd, DspState.tick_three ht.loopRep ht.state ht.pipelineStage, if_pos h1]

/-- Two one-word instructions run and control is back where it was. -/
theorem fast_returns (h : s.Delivers d) (hl : s.loopFlag = 0) (hm : m.dsp = d)
    (hw : isSubroutineCall (decode (s.deliveredWord d)) = false) (hp : m.Plain e 1)
    (hw' : isSubroutineCall (decode (m.coded e).advancePc.vectorWord) = false)
    (hp' : (m.stepOne e).1.Plain e 1) :
    let r := ((m.stepOne e).1.stepOne e).1.dsp
    r.pc = s.pc ∧ r.stackPart = s.stackPart ∧ r.interrupts.state = .fast := by
  obtain ⟨t, c, hd, ht, rfl, hpc, -, -⟩ := first_word h hl hm hw hp
  rw [DspState.fetchVector_fast hw'] at hd
  have hv : s.InVector (m.stepOne e).1.dsp 2 := by
    rw [hd]
    exact ⟨ht.loopRep, ht.loopFlag, ht.stackPart, ht.state,
      congrArg (· - 1) ht.pipelineStage, ht.savedPc⟩
  obtain ⟨u, k, hd', hu, -, hup, huv, -⟩ := stepOne_plain e hp' hv
  have h2 : u.pc = maskPc (u.interrupts.vectorAddr + 2) := by
    rw [hup, huv, hd]
    change maskPc ((m.coded e).advancePc.pc + 1) = _
    rw [hpc, maskPc_succ, BitVec.add_assoc]
    rfl
  intro r
  have hr : r = { ({ u with pc := u.interrupts.savedPc } : DspState σ).nextStage with
      cycleCount := k } := by
    change ((m.stepOne e).1.stepOne e).1.dsp = _
    rw [hd', DspState.tick_two hu.loopRep hu.state hu.pipelineStage, if_pos h2]
  rw [hr]
  exact ⟨hu.savedPc, hu.stackPart, hu.state⟩

/-- A call at the vector leaves one frame and goes to its target. -/
theorem long_enters (h : s.Delivers d) (hm : m.dsp = d) {c : CallSite}
    (hw : isSubroutineCall (decode (s.deliveredWord d)) = true) (hc : m.Calls e c true)
    (ht : m.callTarget e c = maskPc (d.interrupts.vectorAddr + 1) →
      isSubroutineCall (decode (m.coded e).advancePc.vectorWord) = false) :
    let r := (m.stepOne e).1.dsp
    r.pc = m.callTarget e c ∧
      r.stackPart = (s.stackPush s.pc (s.registers Reg.sr)).stackPart ∧
      r.interrupts.state = .fast := by
  obtain ⟨hr, hl, h3, -, hk⟩ := h.stacked hw
  rw [← hm] at hr hl h3 hk ht
  obtain ⟨t, k, hd, rfl, hpc, htr, htf, hts, ht3, htv⟩ := stepOne_calls e hc hr hl
  intro r
  have he : r = { (if (m.coded e).advancePc.pc =
      maskPc ((m.coded e).advancePc.interrupts.vectorAddr + 1) then
        (m.coded e).advancePc.fetchVector else (m.coded e).advancePc).nextStage with
      cycleCount := k } := by
    change (m.stepOne e).1.dsp = _
    rw [hd, DspState.tick_three htr htf (ht3.trans h3)]
  rw [he]
  split
  · rename_i h1
    rw [hpc, htv] at h1
    rw [DspState.fetchVector_fast (ht h1)]
    exact ⟨hpc, hts.trans hk, htf⟩
  · exact ⟨hpc, hts.trans hk, htf⟩

/-- A call in the second word is found behind the first; its frame has the SR that left. -/
theorem second_word_stacks (h : s.Delivers d) (hl : s.loopFlag = 0) (hm : m.dsp = d)
    (hw : isSubroutineCall (decode (s.deliveredWord d)) = false) (hp : m.Plain e 1)
    (hw' : isSubroutineCall (decode (m.coded e).advancePc.vectorWord) = true) :
    let u := (m.stepOne e).1.dsp
    u.loopRep = false ∧ u.interrupts.state = .long ∧ u.interrupts.pipelineStage = 2 ∧
      u.interrupts.vectorAddr = d.interrupts.vectorAddr ∧
      u.pc = maskPc (d.interrupts.vectorAddr + 1) ∧
      u.stackPart = (s.stackPush s.pc ((m.coded e).registers Reg.sr)).stackPart := by
  obtain ⟨t, k, hd, hv, rfl, hpc, htv, htr⟩ := first_word h hl hm hw hp
  have hne : (m.coded e).advancePc.interrupts.state ≠ .long := by
    rw [hv.state]
    exact fun h => by cases h
  have hs := DspState.fetchVector_long hw' hne
  intro u
  have hu : u = { (m.coded e).advancePc.fetchVector.nextStage with cycleCount := k } := hd
  rw [hu]
  refine ⟨hs.loopRep.trans hv.loopRep, hs.state, ?_, hs.vectorAddr.trans htv, ?_, ?_⟩
  · exact congrArg (· - 1) (hs.pipelineStage.trans hv.pipelineStage)
  · rw [← htv, ← hpc]
    exact hs.pc
  · change (m.coded e).advancePc.fetchVector.stackPart = _
    rw [hs.stackPart, hv.savedPc, htr]
    exact DspState.stackPush_stackPart_congr hv.stackPart _ _

/-- A call in the second word goes to its target, its frame in place. -/
theorem long_enters_second (h : s.Delivers d) (hl : s.loopFlag = 0) (hm : m.dsp = d)
    {c : CallSite} (hw : isSubroutineCall (decode (s.deliveredWord d)) = false)
    (hp : m.Plain e 1)
    (hw' : isSubroutineCall (decode (m.coded e).advancePc.vectorWord) = true)
    (hc : (m.stepOne e).1.Calls e c true)
    (ht : (m.stepOne e).1.callTarget e c ≠ maskPc (d.interrupts.vectorAddr + 2)) :
    let r := ((m.stepOne e).1.stepOne e).1.dsp
    r.pc = (m.stepOne e).1.callTarget e c ∧
      r.stackPart = (s.stackPush s.pc ((m.coded e).registers Reg.sr)).stackPart ∧
      r.interrupts.state = .fast := by
  obtain ⟨hr1, hl1, h21, hv1, -, hk1⟩ := second_word_stacks h hl hm hw hp hw'
  obtain ⟨u, j, hd, -, hup, hur, huf, hus, hu2, huv⟩ := stepOne_calls e hc hr1 hl1
  have hn : u.pc ≠ maskPc (u.interrupts.vectorAddr + 2) := by
    rw [hup, huv, hv1]
    exact ht
  intro r
  have he : r = { u.nextStage with cycleCount := j } := by
    change ((m.stepOne e).1.stepOne e).1.dsp = _
    rw [hd, DspState.tick_two hur huf (hu2.trans h21), if_neg hn]
  rw [he]
  exact ⟨hup, hus.trans hk1, huf⟩

/-- The frame of a call whose condition is not met stays, and control moves on behind it. -/
theorem long_passes (h : s.Delivers d) (hm : m.dsp = d) (hf : d.loopFlag = 0)
    {c : CallSite} (hw : isSubroutineCall (decode (s.deliveredWord d)) = true)
    (hc : m.Calls e c false) :
    (m.stepOne e).1.dsp.pc = maskPc (d.interrupts.vectorAddr + BitVec.ofNat 32 c.len) ∧
      (m.stepOne e).1.dsp.stackPart = (s.stackPush s.pc (s.registers Reg.sr)).stackPart := by
  obtain ⟨hr, hl, h3, hpc, hk⟩ := h.stacked hw
  subst hm
  obtain ⟨hp, hs⟩ := stepOne_passes e hc hr hf hl
  exact ⟨by rw [hp, hpc], hs.trans hk⟩

theorem long_passes_second (h : s.Delivers d) (hl : s.loopFlag = 0) (hm : m.dsp = d)
    {c : CallSite} (hw : isSubroutineCall (decode (s.deliveredWord d)) = false)
    (hp : m.Plain e 1)
    (hw' : isSubroutineCall (decode (m.coded e).advancePc.vectorWord) = true)
    (hf : (m.stepOne e).1.dsp.loopFlag = 0) (hc : (m.stepOne e).1.Calls e c false) :
    let r := ((m.stepOne e).1.stepOne e).1.dsp
    r.pc = maskPc (maskPc (d.interrupts.vectorAddr + 1) + BitVec.ofNat 32 c.len) ∧
      r.stackPart = (s.stackPush s.pc ((m.coded e).registers Reg.sr)).stackPart := by
  obtain ⟨hr1, hl1, -, -, hpc, hk1⟩ := second_word_stacks h hl hm hw hp hw'
  obtain ⟨hp2, hs2⟩ := stepOne_passes e hc hr1 hf hl1
  exact ⟨by rw [hp2, hpc], hs2.trans hk1⟩

/-- A two-word instruction leaves the vector behind without the saved PC coming back. -/
theorem long_word_runs_past (h : s.Delivers d) (hl : s.loopFlag = 0) (hm : m.dsp = d)
    (hw : isSubroutineCall (decode (s.deliveredWord d)) = false) (hp : m.Plain e 2) :
    (m.stepOne e).1.dsp.pc = maskPc (d.interrupts.vectorAddr + 2) := by
  obtain ⟨hv, hpc⟩ := h.inVector hl hw
  subst hm
  obtain ⟨t, c, hd, ht, -, htp, -, -⟩ := stepOne_plain e hp hv
  have hk : (m.stepOne e).1.dsp.pc = t.pc := by
    rw [hd, DspState.tick_three ht.loopRep ht.state ht.pipelineStage]
    split
    · exact (DspState.fetchVector_keeps t).2
    · rfl
  rw [hk, htp, hpc]

/-- An interrupt comes back, or a call in its vector has left one frame behind. For every delivery
with LF clear: two one-word instructions return to the saved PC with the stack as it was; a call in
either word has the frame of the saved PC stacked when it is fetched, and goes to its target if its
condition is met and past itself if not. -/
theorem interrupt_comes_back (h : s.Delivers d) (hl : s.loopFlag = 0) (hm : m.dsp = d) :
    let r := (m.stepOne e).1.dsp
    let r' := ((m.stepOne e).1.stepOne e).1.dsp
    let frame := s.stackPush s.pc (s.registers Reg.sr)
    let frame' := s.stackPush s.pc ((m.coded e).registers Reg.sr)
    let second := isSubroutineCall (decode (m.coded e).advancePc.vectorWord)
    (isSubroutineCall (decode (s.deliveredWord d)) = true →
      (∀ c, m.Calls e c true →
        (m.callTarget e c = maskPc (d.interrupts.vectorAddr + 1) → second = false) →
        r.pc = m.callTarget e c ∧ r.stackPart = frame.stackPart ∧ r.interrupts.state = .fast) ∧
      ∀ c, m.Calls e c false → d.loopFlag = 0 →
        r.pc = maskPc (d.interrupts.vectorAddr + BitVec.ofNat 32 c.len) ∧
          r.stackPart = frame.stackPart) ∧
    (isSubroutineCall (decode (s.deliveredWord d)) = false → m.Plain e 1 →
      (second = false → (m.stepOne e).1.Plain e 1 →
        r'.pc = s.pc ∧ r'.stackPart = s.stackPart ∧ r'.interrupts.state = .fast) ∧
      (second = true →
        (∀ c, (m.stepOne e).1.Calls e c true →
          (m.stepOne e).1.callTarget e c ≠ maskPc (d.interrupts.vectorAddr + 2) →
          r'.pc = (m.stepOne e).1.callTarget e c ∧ r'.stackPart = frame'.stackPart ∧
            r'.interrupts.state = .fast) ∧
        ∀ c, (m.stepOne e).1.Calls e c false → r.loopFlag = 0 →
          r'.pc = maskPc (maskPc (d.interrupts.vectorAddr + 1) + BitVec.ofNat 32 c.len) ∧
            r'.stackPart = frame'.stackPart)) := by
  intro r r' frame frame' second
  constructor
  · intro hw
    exact ⟨fun c hc ht => long_enters h hm hw hc ht, fun c hc hf => long_passes h hm hf hw hc⟩
  · intro hw hp
    constructor
    · intro hw' hp'
      exact fast_returns h hl hm hw hp hw' hp'
    · intro hw'
      exact ⟨fun c hc ht => long_enters_second h hl hm hw hp hw' hc ht,
        fun c hc hf => long_passes_second h hl hm hw hp hw' hf hc⟩

/-! Vectors of one word throughout P memory, on an engine that runs the emitted operations. -/

/-- A core with `op` throughout its P memory. -/
def filled (op : Word) : DspState Unit :=
  .new ⟨[], [], [⟨0, 0xFFFFFFFF, .buffer 0 0⟩]⟩ ⟨fun _ => op, ()⟩

/-- A core fault has been delivered to it, and nothing is compiled yet. -/
def faulted (op : Word) : Machine Unit OpFunc :=
  ⟨(filled op).deliverArmedFault, .new 0, fun _ => none⟩

theorem faulted_delivers (op : Word) : (filled op).Delivers (faulted op).dsp := .armed rfl

theorem faulted_enters (op : Word) : (faulted op).dsp = (filled op).redirect.enterVector :=
  DspState.deliverArmedFault_eq _

theorem faulted_word {op w : Word} (hw : ((filled op).map.readMemory .p 0xFFFF
    (filled op).world).1 = w) : (filled op).deliveredWord (faulted op).dsp = w := by
  rw [DspState.deliveredWord, show (faulted op).dsp.interrupts.vectorAddr = 0xFFFF from
    (DspState.deliverArmedFault_spec _).1, hw]

theorem filled_within {op : Word} (hop : Is24 op) : (filled op).Within := by
  refine DspState.within_new ⟨fun _ => hop, fun space r hr f g hk => ?_⟩
  have hbuffer : r.kind = .buffer 0 0 := by
    cases space with
    | p => exact congrArg MemoryRegion.kind (List.mem_singleton.mp hr)
    | x | y => exact absurd hr List.not_mem_nil
  rw [hbuffer] at hk
  cases hk

theorem faulted_entry_within {op : Word} (hop : Is24 op) :
    ((faulted op).entry opEngine).Within := by
  have hdsp : (faulted op).dsp.Within := (filled_within hop).deliverArmedFault
  have hfetched : (fetch (faulted op).dsp).2.Within :=
    (hdsp.readP (faulted op).dsp.pc).readP (maskPc ((faulted op).dsp.pc + 1))
  exact hfetched.same ⟨rfl, rfl, rfl, rfl, id⟩

/-- With nothing in the cache, what is compiled is the instruction at PC. -/
theorem code_of_empty {m : Machine Unit OpFunc} (hm : m.instrCache = fun _ => none)
    {op nextWord : Word} (hf : (fetch m.dsp).1 = (op, nextWord)) :
    m.code opEngine =
      (opEngine.compileInstruction (decode op) m.dsp.pc nextWord (fetch m.dsp).2.map,
        BitVec.ofNat 32 (instructionLength (decode op))) := by
  unfold code
  rw [show fetch m.dsp = (((fetch m.dsp).1.1, (fetch m.dsp).1.2), (fetch m.dsp).2) from rfl, hf, hm]
  rfl

theorem decode_jscc : decode 0x0F9100 = .jscc .lt 0x100 := by
  rw [decode_at 101 rfl (by decide) (by decide) (by decide)]
  rfl

/-- JSLT $100 at the core fault vector. -/
def jscc : CallSite where
  decodeLen := 1
  lead := do
    setCycles 4
    let taken ← evalCcBool .lt
    return (taken, 0x100)
  retAddr := 0x10000
  len := 1

theorem jscc_operand (s : DspState Unit) : (jscc.operand s).2.state = s ∧
    (jscc.operand s).1.1 = decide (CondCode.lt.eval (s.registers Reg.sr) ≠ 0) := ⟨rfl, rfl⟩

/-- With N and V equal it is not taken. -/
theorem calls_jscc {m : Machine Unit OpFunc} (hm : m.instrCache = fun _ => none)
    (hf : (fetch m.dsp).1 = (0x0F9100, 0x0F9100)) (hpc : m.dsp.pc = 0xFFFF)
    (hs : (m.entry opEngine).Within) (hcc : CondCode.lt.eval (m.dsp.registers Reg.sr) = 0) :
    m.Calls opEngine jscc false := by
  have hcode : (opEngine (σ := Unit)).Runs (m.code opEngine).1
      (instructionCode 0x0F9100 m.dsp.pc 0x0F9100) := by
    rw [code_of_empty hm hf]
    exact opEngine_instruction 0x0F9100 m.dsp.pc 0x0F9100 (fetch m.dsp).2.map
  have hsite : (decode 0x0F9100).callSite m.dsp.pc 0x0F9100 = some jscc := by
    rw [decode_jscc, hpc]
    rfl
  obtain ⟨hstate, htaken⟩ := jscc_operand ((m.entry opEngine).withBudget 0)
  refine calls_of_runs hcode hsite hs ?_ ?_
  · rw [operand, hstate]
    exact .withBudget _ _
  · rw [operand, htaken]
    exact decide_eq_false fun h => h hcc

/-- It is delivered with its frame and with LF clear, and out of reset N and V are. -/
theorem faulted_jscc : (fetch (faulted 0x0F9100).dsp).1 = (0x0F9100, 0x0F9100) ∧
    (faulted 0x0F9100).dsp.loopFlag = 0 ∧
    CondCode.lt.eval ((faulted 0x0F9100).dsp.registers Reg.sr) = 0 := by
  have hw : (filled 0x0F9100).redirect.vectorWord = 0x0F9100 := by decide +kernel
  rw [faulted_enters, DspState.enterVector_eq hw, DspState.detectLongInterrupt,
    if_pos ⟨congrArg isSubroutineCall decode_jscc, by decide⟩]
  decide +kernel

theorem faulted_call : isSubroutineCall (decode
    ((filled 0x0F9100).deliveredWord (faulted 0x0F9100).dsp)) = true := by
  rw [faulted_word (w := 0x0F9100) (by decide +kernel), decode_jscc]
  rfl

theorem faulted_calls : (faulted 0x0F9100).Calls opEngine jscc false := by
  obtain ⟨hf, -, hcc⟩ := faulted_jscc
  have h24 : Is24 0x0F9100 := by unfold Is24; decide
  have hpc : (faulted 0x0F9100).dsp.pc = 0xFFFF :=
    (DspState.deliverArmedFault_spec (filled 0x0F9100)).2.1
  exact calls_jscc rfl hf hpc (faulted_entry_within h24) hcc

/-- The frame of a call that is not taken is there, and control is behind the call. -/
theorem interrupt_comes_back_jscc :
    let m := faulted 0x0F9100
    let frame := (filled 0x0F9100).stackPush 0 0x00C00300
    (m.stepOne opEngine).1.dsp.pc = 0x10000 ∧
      (m.stepOne opEngine).1.dsp.stackPart = frame.stackPart := by
  obtain ⟨-, hf, -⟩ := faulted_jscc
  have hv : (faulted 0x0F9100).dsp.interrupts.vectorAddr = 0xFFFF :=
    (DspState.deliverArmedFault_spec _).1
  have h := interrupt_comes_back (e := opEngine) (faulted_delivers 0x0F9100) (by decide) rfl
  obtain ⟨hp, hs⟩ := (h.1 faulted_call).2 jscc faulted_calls hf
  have hpc : maskPc (0xFFFF + BitVec.ofNat 32 jscc.len) = 0x10000 := by decide
  exact ⟨by rw [hp, hv, hpc], hs⟩

/-- A two-word instruction runs past its vector, and a call that is not taken leaves its frame
behind. -/
theorem interrupt_stays_away :
    ((faulted 0x0140C0).stepOne opEngine).1.dsp.pc ≠ (filled 0x0140C0).pc ∧
      ((faulted 0x0F9100).stepOne opEngine).1.dsp.pc ≠ 0x100 ∧
      ((faulted 0x0F9100).stepOne opEngine).1.dsp.stackPart ≠ (filled 0x0F9100).stackPart := by
  refine ⟨by decide +kernel, ?_⟩
  obtain ⟨-, hf, -⟩ := faulted_jscc
  have hv : (faulted 0x0F9100).dsp.interrupts.vectorAddr = 0xFFFF :=
    (DspState.deliverArmedFault_spec _).1
  obtain ⟨hp, hs⟩ := long_passes (faulted_delivers 0x0F9100) rfl hf faulted_call
    faulted_calls
  have hpc : maskPc (0xFFFF + BitVec.ofNat 32 jscc.len) ≠ 0x100 := by decide
  constructor
  · rw [hp, hv]
    exact hpc
  · rw [hs]
    intro he
    exact absurd (congrArg Prod.fst he) (by decide)

end Machine

end Dsp56300
