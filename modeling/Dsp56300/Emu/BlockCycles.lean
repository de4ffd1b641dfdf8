import Dsp56300.Emu.EmitCycles
import Dsp56300.Emu.PcAdvance
import Dsp56300.Lib.PathRuns

/-! The cycles of a block: gathered where its code is emitted, and added up where it runs. -/

namespace Dsp56300

open Instruction Emitter Lib.Paths

/-- An instruction with the words it was fetched with. -/
structure Fetched where
  inst : Instruction
  pc : Nat
  nextWord : Word

/-- The cycles `compileInstruction` returns for it. -/
def Fetched.cycles (e : Fetched) : Nat :=
  Emitter.cycles (emitInstruction e.inst (BitVec.ofNat 32 e.pc) e.nextWord)

/-- A block as far as its cycles go: the instructions it executes, and its additions to
`total_cycles`. -/
inductive CycleAct where
  | executes (e : Fetched)
  | addCycles (n : Nat)

abbrev CycleCode := Prog CycleAct BlockExit

/-- Code under construction: the innermost open arm, the merge targets of the open skips with the
code before them, and the cycles charged to no path yet. -/
structure CycleBuilder where
  code : CycleCode := .nop
  openSkips : List (Nat × CycleCode) := []
  pendingCycles : Nat := 0

namespace CycleBuilder

/-- Code that executes `e` and charges `n`. -/
def execute (b : CycleBuilder) (e : Fetched) (n : Nat) : CycleBuilder :=
  { b with code := .seq b.code (.act (.executes e)), pendingCycles := b.pendingCycles + n }

def flushPendingCycles (b : CycleBuilder) : CycleBuilder :=
  if b.pendingCycles > 0 then
    { b with code := .seq b.code (.act (.addCycles b.pendingCycles)), pendingCycles := 0 }
  else b

/-- A way out, in front of which the cycles are flushed. -/
def bail (b : CycleBuilder) (e : BlockExit) : CycleBuilder :=
  let b := b.flushPendingCycles
  { b with code := .seq b.code (.branch (.exit e) .nop) }

/-- The predicate of a skip, and the arm it may skip. -/
def openSkip (b : CycleBuilder) (e : Fetched) (target : Nat) : CycleBuilder :=
  let b := (b.execute e (Emitter.cycles (emitSkipPredicate e.inst))).flushPendingCycles
  { code := .nop, openSkips := (target, b.code) :: b.openSkips, pendingCycles := b.pendingCycles }

/-- Close the innermost skip: the arm ends with its own cycles flushed. -/
def closeSkip (b : CycleBuilder) (before : CycleCode) (skips : List (Nat × CycleCode)) :
    CycleBuilder :=
  let b := b.flushPendingCycles
  { b with code := .seq before (.branch .nop b.code), openSkips := skips }

/-- Close the skips that merge at `pc`. -/
def mergeAt (pc : Nat) (b : CycleBuilder) : CycleBuilder := go b b.openSkips
where
  go (b : CycleBuilder) : List (Nat × CycleCode) → CycleBuilder
    | [] => b
    | (target, before) :: skips => if target = pc then go (b.closeSkip before skips) skips else b

/-- What comes before the loop of an inlined DO. -/
def doHeader (b : CycleBuilder) (e : Fetched) (la : Nat) : CycleBuilder :=
  let b := b.execute e (Emitter.cycles (emitDoInlineSetup e.inst e.pc la))
  (b.bail (.faultArmed (e.pc + 2))).flushPendingCycles

/-- A loop that may be annulled, with the body that was built behind `b`. -/
def inlineLoop (b body : CycleBuilder) : CycleBuilder :=
  { b with
    code := .seq b.code (.branch .nop (.loop body.code))
    pendingCycles := body.pendingCycles }

/-- Where the body of a loop starts. -/
def loopTop (b : CycleBuilder) : CycleBuilder := { pendingCycles := b.pendingCycles }

end CycleBuilder

namespace Pram

def fetched (p : Pram) (pc : Nat) : Fetched := ⟨p.instAt pc, pc, p.nextWord pc⟩

/-- An inlined REP. -/
def repCycles (p : Pram) (repPc : Nat) (b : CycleBuilder) : CycleBuilder :=
  let target := p.fetched (repPc + 1)
  let b := b.execute (p.fetched repPc) (Emitter.cycles (emitRepInlineSetup (p.instAt repPc)))
  let b := b.flushPendingCycles
  let body := b.loopTop.execute target (Emitter.cycles
    (emitRepIteration target.inst (BitVec.ofNat 32 target.pc) target.nextWord))
  b.inlineLoop body.flushPendingCycles

/-- The body [bodyPc, la] of an inlined DO. -/
def bodyCycles (p : Pram) : (fuel bodyPc la : Nat) → CycleBuilder → Option CycleBuilder
  | 0, _, _, _ => none
  | fuel + 1, bodyPc, la, b =>
    if bodyPc ≤ la then
      let b := b.mergeAt bodyPc
      let inst := p.instAt bodyPc
      let e := p.fetched bodyPc
      match inst.forwardSkipTarget bodyPc (p.nextWord bodyPc) with
      | some target =>
        p.bodyCycles fuel (bodyPc + instructionLength inst) la (b.openSkip e target)
      | none =>
        if inst.isDoInstruction then do
          let innerLa := inst.computeDoLa bodyPc (p.nextWord bodyPc)
          let b := b.doHeader e innerLa
          let inner ← p.bodyCycles fuel (bodyPc + 2) innerLa b.loopTop
          p.bodyCycles fuel (innerLa + 1) la
            (b.inlineLoop (inner.bail (.quantumSpent (bodyPc + 2))))
        else if inst.isRepInstruction then
          p.bodyCycles fuel (p.afterRep bodyPc) la (p.repCycles bodyPc b)
        else
          p.bodyCycles fuel (bodyPc + instructionLength inst) la (b.execute e e.cycles)
    else some b

/-- An instruction outside loops. Whether its code may arm a fault is counted while it is
emitted; here `arms` tells. -/
def plainCycles (p : Pram) (arms : Fetched → Bool) (pc : Nat) (b : CycleBuilder) : CycleBuilder :=
  let inst := p.instAt pc
  let e := p.fetched pc
  let next := pc + instructionLength inst
  let b := b.execute e e.cycles
  if inst.isBlockTerminator then b
  else
    let b := if arms e then b.bail (.faultArmed next) else b
    if inst.needsExitCheck then b.bail (.exitRequested next) else b

/-- A DO outside loops. -/
def doCycles (p : Pram) (stopPc pc : Nat) (b : CycleBuilder) : Option CycleBuilder := do
  let inst := p.instAt pc
  let e := p.fetched pc
  let la := inst.computeDoLa pc (p.nextWord pc)
  let inlineable ← if inst.isDoForever then some false
    else p.isDoBodyInlineable (pc + 2) la stopPc
  if inlineable then
    let b := b.doHeader e la
    let body ← p.bodyCycles (walkFuel (pc + 2) la) (pc + 2) la b.loopTop
    some (b.inlineLoop (body.bail (.quantumSpent (pc + 2))))
  else some (b.execute e e.cycles)

/-- What `emitNext` adds at `s`. A REP that is not inlined flushes before its first call. -/
def cyclesNext (p : Pram) (arms : Fetched → Bool) (maxLen stopPc : Nat) (s : BlockState)
    (b : CycleBuilder) : Option CycleBuilder :=
  let inst := p.instAt s.pc
  let e := p.fetched s.pc
  match p.acceptedSkip maxLen stopPc s with
  | some target => some (b.openSkip e target)
  | none =>
    if inst.isRepInstruction then
      some (if repFallsBack (decode (p.nextWord s.pc)) then
        (b.execute e e.cycles).flushPendingCycles
      else p.repCycles s.pc b)
    else if inst.isDoInstruction then p.doCycles stopPc s.pc b
    else some (p.plainCycles arms s.pc b)

/-- The end of a block: the last flush, and the return of `total_cycles`. -/
def finalizeCycles (b : CycleBuilder) : CycleCode := .seq b.flushPendingCycles.code (.exit .finalize)

/-- The block loop, with the cycles of the code it builds. -/
def cyclesLoop (p : Pram) (arms : Fetched → Bool) (maxLen stopPc : Nat) :
    Nat → BlockState → CycleBuilder → Option CycleCode
  | 0, _, _ => none
  | fuel + 1, s, b =>
    let b := b.mergeAt s.pc
    if p.exhausted maxLen s.closeSkips then some (finalizeCycles b)
    else do
      let b ← p.cyclesNext arms maxLen stopPc s.closeSkips b
      match ← p.emitNext maxLen stopPc s.closeSkips with
      | .next t => p.cyclesLoop arms maxLen stopPc fuel t b
      | .done _ _ => some (finalizeCycles b)

/-- The cycles of the block at `startPc`. -/
def blockCycles (p : Pram) (arms : Fetched → Bool) (startPc maxLen stopPc : Nat) :
    Option CycleCode :=
  p.cyclesLoop arms maxLen stopPc (p.spaceEnd - startPc + 1) (blockStart startPc) {}

end Pram

/-- What a path through a block has come to: `total_cycles`, and the instructions executed. -/
structure Tally where
  totalCycles : Nat := 0
  executed : List Fetched := []

def cycleEffects : Effects CycleAct BlockExit Tally where
  act
    | .executes e, s, t => t = { s with executed := s.executed ++ [e] }
    | .addCycles n, s, t => t = { s with totalCycles := s.totalCycles + n }
  exit _ s t := t = s

/-- The instruction is the one P memory holds at its address. -/
def Fetched.InPram (e : Fetched) (p : Pram) : Prop := e = p.fetched e.pc

/-- All but `n` of the cycles of the instructions executed are in `total_cycles`, and these are
instructions of P memory. -/
structure Owes (p : Pram) (n : Nat) (s : Tally) : Prop where
  cycles : s.totalCycles + n = (s.executed.map Fetched.cycles).sum
  inPram : ∀ e ∈ s.executed, e.InPram p

namespace CycleBuilder

variable {p : Pram} {b body : CycleBuilder} {pc n : Nat}

/-- On every path through the code so far, what is not in `total_cycles` is pending. -/
structure Accounts (p : Pram) (b : CycleBuilder) : Prop where
  code : Triple cycleEffects (Owes p 0) b.code (Owes p b.pendingCycles) (Owes p 0)
  before : ∀ o ∈ b.openSkips, Triple cycleEffects (Owes p 0) o.2 (Owes p 0) (Owes p 0)

theorem accounts_start (h : b.pendingCycles = 0) : b.loopTop.Accounts p where
  code := by
    apply Triple.nop
    intro s hs
    rw [loopTop, h]
    exact hs
  before o ho := nomatch ho

theorem Accounts.execute (hb : b.Accounts p) (hn : n = (p.fetched pc).cycles) :
    (b.execute (p.fetched pc) n).Accounts p where
  code := by
    apply hb.code.seq
    apply Triple.act
    rintro s _ ⟨hcycles, hexecuted⟩ rfl
    refine ⟨?_, List.forall_mem_append.mpr ⟨hexecuted, List.forall_mem_singleton.mpr rfl⟩⟩
    simp only [CycleBuilder.execute, List.map_append, List.map_cons, List.map_nil,
      List.sum_append, List.sum_cons, List.sum_nil]
    omega
  before := hb.before

@[simp] theorem flushPendingCycles_pending (b : CycleBuilder) :
    b.flushPendingCycles.pendingCycles = 0 := by
  unfold flushPendingCycles
  split
  · rfl
  · omega

theorem Accounts.flush (hb : b.Accounts p) : b.flushPendingCycles.Accounts p := by
  unfold flushPendingCycles
  split
  · refine ⟨?_, hb.before⟩
    apply hb.code.seq
    apply Triple.act
    rintro s _ ⟨hcycles, hexecuted⟩ rfl
    exact ⟨hcycles, hexecuted⟩
  · exact hb

@[simp] theorem bail_pending (b : CycleBuilder) (e : BlockExit) : (b.bail e).pendingCycles = 0 :=
  b.flushPendingCycles_pending

theorem Accounts.bail (hb : b.Accounts p) (e : BlockExit) : (b.bail e).Accounts p where
  code := by
    apply hb.flush.code.seq
    rw [bail_pending, flushPendingCycles_pending]
    apply Triple.branch
    · apply Triple.exit
      rintro s _ hs rfl
      exact hs
    · exact Triple.nop fun _ hs => hs
  before := hb.flush.before

theorem Accounts.openSkip {target : Nat} (hb : b.Accounts p)
    (he : (p.instAt pc).forwardSkipTarget pc (p.nextWord pc) = some target) :
    (b.openSkip (p.fetched pc) target).Accounts p := by
  have hf := (hb.execute (emitSkipPredicate_cycles _ (BitVec.ofNat 32 pc) _ he)).flush
  have hc := hf.code
  rw [flushPendingCycles_pending] at hc
  refine ⟨(accounts_start (flushPendingCycles_pending _)).code, ?_⟩
  intro o ho
  rcases List.mem_cons.mp ho with rfl | ho
  · exact hc
  · exact hf.before o ho

theorem Accounts.closeSkip {before : CycleCode} {skips : List (Nat × CycleCode)} (hb : b.Accounts p)
    (hbefore : Triple cycleEffects (Owes p 0) before (Owes p 0) (Owes p 0))
    (hs : ∀ o ∈ skips, Triple cycleEffects (Owes p 0) o.2 (Owes p 0) (Owes p 0)) :
    (b.closeSkip before skips).Accounts p := by
  have hc := hb.flush.code
  refine ⟨?_, hs⟩
  apply hbefore.seq
  apply Triple.branch
  · apply Triple.nop
    intro s hs
    rw [CycleBuilder.closeSkip, flushPendingCycles_pending]
    exact hs
  · exact hc

theorem Accounts.mergeAt (hb : b.Accounts p) (pc : Nat) : (b.mergeAt pc).Accounts p := by
  have hgo (skips : List (Nat × CycleCode)) (c : CycleBuilder) (hc : c.Accounts p)
      (hs : ∀ o ∈ skips, Triple cycleEffects (Owes p 0) o.2 (Owes p 0) (Owes p 0)) :
      (mergeAt.go pc c skips).Accounts p := by
    induction skips generalizing c with
    | nil => exact hc
    | cons o skips ih =>
      have hs' := fun o' ho' => hs o' (List.mem_cons_of_mem o ho')
      unfold mergeAt.go
      split
      · exact ih _ (hc.closeSkip (hs o List.mem_cons_self) hs') hs'
      · exact hc
  exact hgo b.openSkips b hb hb.before

/-- Nothing is pending where a loop is entered, left or repeated. -/
theorem Accounts.inlineLoop (hb : b.Accounts p) (hbody : body.Accounts p) (h : b.pendingCycles = 0)
    (hn : body.pendingCycles = 0) : (b.inlineLoop body).Accounts p where
  code := by
    have hc := hb.code
    have hl := hbody.code
    rw [h] at hc
    rw [hn] at hl
    apply hc.seq
    rw [CycleBuilder.inlineLoop, hn]
    exact (Triple.nop fun _ hs => hs).branch (hl.loop fun _ hs => hs)
  before := hb.before

theorem Accounts.doHeader {la : Nat} (hb : b.Accounts p) (hd : (p.instAt pc).isDoInstruction = true)
    (hf : (p.instAt pc).isDoForever = false) : (b.doHeader (p.fetched pc) la).Accounts p :=
  ((hb.execute (emitDoInlineSetup_cycles _ _ _ hd hf pc la)).bail _).flush

@[simp] theorem doHeader_pending (b : CycleBuilder) (e : Fetched) (la : Nat) :
    (b.doHeader e la).pendingCycles = 0 := flushPendingCycles_pending _

theorem Accounts.doInline {la resumePc : Nat} (hb : b.Accounts p)
    (hd : (p.instAt pc).isDoInstruction = true) (hf : (p.instAt pc).isDoForever = false)
    (hbody : body.Accounts p) :
    ((b.doHeader (p.fetched pc) la).inlineLoop (body.bail (.quantumSpent resumePc))).Accounts p :=
  (hb.doHeader hd hf).inlineLoop (hbody.bail _) (doHeader_pending _ _ _) (bail_pending _ _)

end CycleBuilder

namespace Pram

variable {p : Pram} {b : CycleBuilder} {pc la fuel : Nat}

open CycleBuilder

theorem repCycles_accounts (hb : b.Accounts p) (hr : (p.instAt pc).isRepInstruction = true) :
    (p.repCycles pc b).Accounts p := by
  have hs := (hb.execute (emitRepInlineSetup_cycles _ _ _ hr)).flush
  have h0 := (b.execute (p.fetched pc)
    (cycles (emitRepInlineSetup (p.instAt pc)))).flushPendingCycles_pending
  have hbody : (CycleBuilder.execute _ (p.fetched (pc + 1)) _).Accounts p :=
    (accounts_start h0).execute (emitRepIteration_cycles _ _ _)
  exact hs.inlineLoop hbody.flush h0 (flushPendingCycles_pending _)

/-- The scan accepts a nested DO with its body and with what follows it. -/
theorem bodyScan_do {depth count : Nat} {skips : List Nat}
    (h : p.bodyScan (fuel + 1) depth la pc count skips = some true) (hpc : pc ≤ la)
    (ht : (p.instAt pc).forwardSkipTarget pc (p.nextWord pc) = none)
    (hd : (p.instAt pc).isDoInstruction = true) :
    let innerLa := (p.instAt pc).computeDoLa pc (p.nextWord pc)
    (p.instAt pc).isDoForever = false ∧
    p.bodyScan fuel (depth + 1) innerLa (pc + 2) 0 [] = some true ∧
    ∃ n ss, p.bodyScan fuel depth la (innerLa + 1) n ss = some true := by
  simp only [bodyScan, if_pos hpc, ht, if_pos hd] at h
  split at h
  · simp at h
  · split at h
    · simp at h
    · rename_i hn
      simp only [Bool.or_eq_true, not_or, Bool.not_eq_true] at hn
      split at h
      · simp at h
      · simp only [Option.bind_eq_bind, Option.bind_eq_some_iff] at h
        obtain ⟨inner, hi, h⟩ := h
        cases inner with
        | false => simp at h
        | true =>
          simp only [Bool.not_true, Bool.false_eq_true, if_false, Option.bind_eq_some_iff] at h
          obtain ⟨n, -, h⟩ := h
          exact ⟨hn.1.2, hi, _, _, h⟩

/-- The code of a body the scan accepts accounts for its cycles. -/
theorem bodyCycles_accounts {depth count : Nat} {skips : List Nat}
    (h : p.bodyScan fuel depth la pc count skips = some true) (hb : b.Accounts p) :
    ∃ b', p.bodyCycles fuel pc la b = some b' ∧ b'.Accounts p := by
  induction fuel generalizing depth la pc count skips b with
  | zero => simp [bodyScan] at h
  | succ fuel ih =>
    simp only [bodyCycles]
    have hm := hb.mergeAt pc
    by_cases hpc : pc ≤ la
    · rw [if_pos hpc]
      cases ht : (p.instAt pc).forwardSkipTarget pc (p.nextWord pc) with
      | some target =>
        simp only [bodyScan, if_pos hpc, ht] at h ⊢
        split at h
        · simp at h
        · split at h
          · simp at h
          · exact ih h (hm.openSkip ht)
      | none =>
        by_cases hd : (p.instAt pc).isDoInstruction = true
        · obtain ⟨hf, hi, n, ss, hr⟩ := bodyScan_do h hpc ht hd
          obtain ⟨body, hbody, hacc⟩ := ih hi (accounts_start
            (doHeader_pending (b.mergeAt pc) (p.fetched pc)
              ((p.instAt pc).computeDoLa pc (p.nextWord pc))))
          simp only [if_pos hd, hbody, Option.bind_eq_bind, Option.bind_some]
          exact ih hr (hm.doInline hd hf hacc)
        · simp only [bodyScan, if_pos hpc, ht, if_neg hd] at h ⊢
          split at h
          · simp at h
          · split at h
            · simp at h
            · split at h
              · rename_i hrep
                rw [if_pos hrep]
                split at h
                · simp at h
                · exact ih h (repCycles_accounts hm hrep)
              · rename_i hrep
                rw [if_neg hrep]
                exact ih h (hm.execute rfl)
    · rw [if_neg hpc]
      exact ⟨b, rfl, hb⟩

theorem plainCycles_accounts (arms : Fetched → Bool) (hb : b.Accounts p) (pc : Nat) :
    (p.plainCycles arms pc b).Accounts p := by
  have he : (b.execute (p.fetched pc) (p.fetched pc).cycles).Accounts p := hb.execute rfl
  unfold plainCycles
  dsimp only
  split
  · exact he
  · split <;> split
    · exact (he.bail _).bail _
    · exact he.bail _
    · exact he.bail _
    · exact he

theorem doCycles_accounts (stopPc pc : Nat) (hb : b.Accounts p)
    (hd : (p.instAt pc).isDoInstruction = true) :
    ∃ b', p.doCycles stopPc pc b = some b' ∧ b'.Accounts p := by
  have hla := computeDoLa_lt (p.instAt pc) pc (p.nextWord pc)
  obtain ⟨inl, hinl⟩ := p.isDoBodyInlineable_defined (pc + 2) stopPc hla
  unfold doCycles
  cases hf : (p.instAt pc).isDoForever with
  | true => exact ⟨_, by simp only [if_pos hf]; rfl, hb.execute rfl⟩
  | false =>
    simp only [hf, Bool.false_eq_true, if_false, hinl, Option.bind_eq_bind, Option.bind_some]
    cases inl with
    | false => exact ⟨_, rfl, hb.execute rfl⟩
    | true =>
      unfold isDoBodyInlineable at hinl
      split at hinl
      · obtain ⟨body, hbody, hacc⟩ := bodyCycles_accounts hinl
          (accounts_start (doHeader_pending b (p.fetched pc) _))
        rw [if_pos rfl, hbody]
        exact ⟨_, rfl, hb.doInline hd hf hacc⟩
      · simp at hinl

theorem cyclesNext_accounts (arms : Fetched → Bool) (maxLen stopPc : Nat) (s : BlockState)
    (hb : b.Accounts p) :
    ∃ b', p.cyclesNext arms maxLen stopPc s b = some b' ∧ b'.Accounts p := by
  unfold cyclesNext
  cases ha : p.acceptedSkip maxLen stopPc s with
  | some target =>
    have ht := (Option.filter_eq_some_iff.mp ha).1
    exact ⟨_, rfl, hb.openSkip ht⟩
  | none =>
    dsimp only
    split
    · rename_i hr
      split
      · exact ⟨_, rfl, (hb.execute rfl).flush⟩
      · exact ⟨_, rfl, repCycles_accounts hb hr⟩
    · split
      · exact doCycles_accounts stopPc s.pc hb ‹_›
      · exact ⟨_, rfl, plainCycles_accounts arms hb s.pc⟩

theorem finalizeCycles_accounts (hb : b.Accounts p) :
    Triple cycleEffects (Owes p 0) (finalizeCycles b) (fun _ => False) (Owes p 0) := by
  have hc := hb.flush.code
  rw [flushPendingCycles_pending] at hc
  apply hc.seq
  apply Triple.exit
  rintro s _ hs rfl
  exact hs

theorem cyclesLoop_accounts (arms : Fetched → Bool) (maxLen stopPc : Nat) {s : BlockState}
    (hf : p.spaceEnd < s.pc + fuel) (hpos : 0 < fuel) (hb : b.Accounts p) :
    ∃ code, p.cyclesLoop arms maxLen stopPc fuel s b = some code ∧
      Triple cycleEffects (Owes p 0) code (fun _ => False) (Owes p 0) := by
  induction fuel generalizing s b with
  | zero => omega
  | succ fuel ih =>
    have hm := hb.mergeAt s.pc
    simp only [cyclesLoop]
    cases hx : p.exhausted maxLen s with
    | true =>
      rw [exhausted_closeSkips, hx, if_pos rfl]
      exact ⟨_, rfl, finalizeCycles_accounts hm⟩
    | false =>
      have hx' : p.exhausted maxLen s.closeSkips = false := hx
      have hlt : s.pc < p.spaceEnd := by
        simp only [exhausted, Bool.or_eq_false_iff, decide_eq_false_iff_not] at hx
        omega
      obtain ⟨it, es, hi, he⟩ := emitNext_emits stopPc hx'
      obtain ⟨b', hn, hb'⟩ := cyclesNext_accounts (p := p) arms maxLen stopPc s.closeSkips hm
      simp only [hx', Bool.false_eq_true, ↓reduceIte, hn, hi, Option.bind_eq_bind, Option.bind_some]
      cases it with
      | done t ended => exact ⟨_, rfl, finalizeCycles_accounts hb'⟩
      | next t =>
        have ha := he.advances
        simp only [Iteration.state, BlockState.closeSkips_pc] at ha
        exact ih (by omega) (by omega) hb'

end Pram

/-- A run of a compiled block, from its entry to its return. -/
structure BlockRun where
  pram : Pram
  arms : Fetched → Bool
  startPc : Nat
  maxLen : Nat
  stopPc : Nat
  code : CycleCode
  compiled : pram.blockCycles arms startPc maxLen stopPc = some code
  final : Tally
  path : Path cycleEffects code {} true final

theorem Tally.start_owes (p : Pram) : Owes p 0 {} := ⟨rfl, fun _ h => absurd h List.not_mem_nil⟩

theorem Pram.blockCycles_accounts (p : Pram) (arms : Fetched → Bool) (startPc maxLen stopPc : Nat) :
    ∃ code, p.blockCycles arms startPc maxLen stopPc = some code ∧
      Triple cycleEffects (Owes p 0) code (fun _ => False) (Owes p 0) :=
  p.cyclesLoop_accounts arms maxLen stopPc (by simp only [blockStart]; omega) (Nat.succ_pos _)
    (CycleBuilder.accounts_start (b := {}) rfl)

theorem BlockRun.totalCycles_eq (r : BlockRun) :
    r.final.totalCycles = (r.final.executed.map Fetched.cycles).sum := by
  obtain ⟨code, hc, ht⟩ := r.pram.blockCycles_accounts r.arms r.startPc r.maxLen r.stopPc
  obtain rfl : r.code = code := Option.some.inj (r.compiled.symm.trans hc)
  exact (ht _ _ _ (Tally.start_owes _) r.path).cycles

/-- The instructions executed are those P memory holds. -/
theorem BlockRun.executed_inPram (r : BlockRun) : ∀ e ∈ r.final.executed, e.InPram r.pram := by
  obtain ⟨code, hc, ht⟩ := r.pram.blockCycles_accounts r.arms r.startPc r.maxLen r.stopPc
  obtain rfl : r.code = code := Option.some.inj (r.compiled.symm.trans hc)
  exact (ht _ _ _ (Tally.start_owes _) r.path).inPram

theorem BlockRun.sum_totalCycles (rs : List BlockRun) :
    (rs.map (·.final.totalCycles)).sum =
      ((rs.flatMap (·.final.executed)).map Fetched.cycles).sum := by
  induction rs with
  | nil => rfl
  | cons r rs ih =>
    simp only [List.map_cons, List.sum_cons, List.flatMap_cons, List.map_append, List.sum_append, ih,
      r.totalCycles_eq]

/-- Every path through a block leaves it, with the cycles of the instructions executed: for each,
what the code of that instruction alone returns on any machine. So blocks that execute the same
instructions charge the same, wherever the program is cut. -/
theorem block_cycles (p : Pram) (arms : Fetched → Bool) (startPc maxLen stopPc : Nat) :
    (∃ code, p.blockCycles arms startPc maxLen stopPc = some code ∧
      ∀ left t, Path cycleEffects code {} left t →
        left = true ∧ t.totalCycles = (t.executed.map Fetched.cycles).sum) ∧
    (∀ (e : Fetched) (σ : Type) (h : Lib.Programs.Code.Handler Op σ) (s : σ),
      (compileInstruction h e.inst (BitVec.ofNat 32 e.pc) e.nextWord s).2.totalCycles = e.cycles) ∧
    ∀ rs rs' : List BlockRun,
      rs.flatMap (·.final.executed) = rs'.flatMap (·.final.executed) →
      (rs.map (·.final.totalCycles)).sum = (rs'.map (·.final.totalCycles)).sum := by
  refine ⟨?_, ?_, ?_⟩
  · obtain ⟨code, hc, ht⟩ := p.blockCycles_accounts arms startPc maxLen stopPc
    refine ⟨code, hc, ?_⟩
    intro left t hpath
    have hleft := ht _ _ _ (Tally.start_owes _) hpath
    cases left with
    | false => exact absurd hleft id
    | true => exact ⟨rfl, hleft.cycles⟩
  · intro e σ h s
    exact compileInstruction_cycles e.inst _ e.nextWord h s
  · intro rs rs' h
    rw [BlockRun.sum_totalCycles, BlockRun.sum_totalCycles, h]

/-- A DO over an addition. -/
def doAdds : Pram := ⟨16, fun a => if a = 0 then 0x060280 else if a = 1 then 2 else 0x014180⟩

def CycleAct.apply (a : CycleAct) (s : Tally) : Tally :=
  match a with
  | .executes e => { s with executed := s.executed ++ [e] }
  | .addCycles n => { s with totalCycles := s.totalCycles + n }

theorem CycleAct.apply_effect (a : CycleAct) (s : Tally) : cycleEffects.act a s (a.apply s) := by
  cases a <;> rfl

/-- Two passes over the addition. -/
def doAddsPath : Bool × Tally :=
  ((doAdds.blockCycles (fun _ => false) 0 2 0x1000000).getD .nop).follow CycleAct.apply
    (fun _ s => s) {}

theorem block_cycles_do :
    doAddsPath.2.executed.map (fun e => (e.pc, e.cycles)) = [(0, 5), (2, 1), (2, 1)] ∧
      doAddsPath.2.totalCycles = 7 := by
  have hexecuted : doAddsPath.2.executed.map (fun e => (e.pc, e.cycles)) =
      [(0, 5), (2, 1), (2, 1)] := by
    decide +kernel
  obtain ⟨code, hcode, hpaths⟩ := (block_cycles doAdds (fun _ => false) 0 2 0x1000000).1
  have hpath : Path cycleEffects code {} doAddsPath.1 doAddsPath.2 := by
    rw [doAddsPath, hcode]
    exact code.follow_path CycleAct.apply_effect (fun _ _ => rfl) {}
  have hcycles : doAddsPath.2.executed.map Fetched.cycles = [5, 1, 1] := by
    have hsnd := congrArg (List.map Prod.snd) hexecuted
    rwa [List.map_map] at hsnd
  refine ⟨hexecuted, ?_⟩
  rw [(hpaths _ _ hpath).2, hcycles]
  rfl

/-- DO FOREVER costs 4 where an inlined DO is charged 5; no body the scan accepts holds one. -/
example : Fetched.cycles ⟨.doForever, 0, 4⟩ = 4 ∧
    Emitter.cycles (emitDoInlineSetup .doForever 0 4) = 5 := ⟨rfl, rfl⟩

end Dsp56300
