import Dsp56300.Emu.EmitCycles
import Dsp56300.Emu.HostRuns
import Dsp56300.Emu.InterruptReturn
import Dsp56300.Emu.RepPaths
import Dsp56300.Emu.Slicing
import Dsp56300.Emu.Twins
import Dsp56300.Lib.Runs

/-! What a core restored from a saved record goes through. -/

namespace Dsp56300

open Lib.Runs

variable {σ φ : Type}

namespace DspState

/-- What the record leaves out and a run may look at: `u` has it as `s` does. -/
structure Restorable (s u : DspState σ) : Prop where
  faultBudget : u.interrupts.faultBudget = s.interrupts.faultBudget
  faultBudgetHint : u.faultBudgetHint = s.faultBudgetHint
  exitRequested : u.exitRequested = s.exitRequested
  parked : s.interrupts.state = .parked →
    u.interrupts.parkedCountdown = s.interrupts.parkedCountdown ∧
      u.interrupts.parkedSpWrite = s.interrupts.parkedSpWrite

theorem Restorable.twin {s u : DspState σ} (h : s.Restorable u) (hmap : u.map = s.map)
    (hworld : u.world = s.world) : s.Twin (u.setState s.getState) where
  same := by
    simp only [setState, getState, withMargin, margin, PowerState.ofByte_toByte,
      InterruptState.ofByte_toByte, h.faultBudget, h.faultBudgetHint, h.exitRequested, hmap, hworld]
  cycleBudget := rfl
  parked := h.parked

/-- Twins show the same record and the same memory. -/
def Looks (s t : DspState σ) : Prop := t.getState = s.getState ∧ t.world = s.world

theorem Twin.looks {s t : DspState σ} (h : s.Twin t) : s.Looks t := by
  have hg : (s.withMargin t.margin).getState =
      { s.getState with cycleBudget := t.cycleBudget } := rfl
  refine ⟨?_, ?_⟩
  · calc t.getState = (s.withMargin t.margin).getState := congrArg getState h.same
      _ = { s.getState with cycleBudget := t.cycleBudget } := hg
      _ = s.getState := by rw [h.cycleBudget]; rfl
  · rw [h.same]
    rfl

end DspState

/-- Reading P memory has no effect. -/
def MemoryMap.PureReads (map : MemoryMap σ) : Prop := ∀ addr w, (map.readPram addr w).2 = w

namespace Machine

open DspState

variable (e : Translator σ φ)

/-- Compiled code as a function of the state and the memory: what any instance a host comes to
finds in its caches does what `instruction` and `block` do, and finding it leaves no mark on the
memory. The two look at nothing of the margin but the countdown of a parked fault. -/
structure Functional (map : MemoryMap σ) where
  instruction : Word → Word → DspState σ → DspState σ × Nat
  block : DspState σ → DspState σ × Nat
  instruction_twin : ∀ opcode nextWord (s t : DspState σ), s.Twin t →
    (instruction opcode nextWord t).2 = (instruction opcode nextWord s).2 ∧
      (instruction opcode nextWord s).1.Twin (instruction opcode nextWord t).1
  block_twin : ∀ s t : DspState σ, s.Twin t →
    (block t).2 = (block s).2 ∧ (block s).1.Twin (block t).1
  call_instruction : ∀ m, Reachable e map m → ∀ opcode nextWord (s : DspState σ), s.pc = m.dsp.pc →
    e.call (getOrCompileInstruction e m.instrCache m.dsp.pc opcode nextWord m.dsp.map).1.1 s =
      instruction opcode nextWord s
  call_block : ∀ m, Reachable e map m → ∀ b,
    (m.dsp.dispatchBlock m.jit e.compileBlock).2.cache.get m.dsp.pc.toNat = some b →
    e.call b.func (m.dsp.dispatchBlock m.jit e.compileBlock).1 =
      block (m.dsp.dispatchBlock m.jit e.compileBlock).1
  quiet : ∀ m, Reachable e map m →
    (m.dsp.dispatchBlock m.jit e.compileBlock).1.world = m.dsp.world

variable {e : Translator σ φ} {map : MemoryMap σ} {m n : Machine σ φ}

/-! Twins in a run. -/

theorem twin_fetch {s t : DspState σ} (h : s.Twin t) :
    (fetch t).1 = (fetch s).1 ∧ (fetch s).2.Twin (fetch t).2 := by
  have hf : KeepsTwins fun s : DspState σ => (fetch s).2 := .of_inner (fun _ _ => rfl) fun _ h => h
  refine ⟨?_, hf s t h⟩
  rw [h.same]
  rfl

theorem twin_armedGate {s t : DspState σ} (h : s.Twin t) (opcode instLen : Word) :
    (s.armedGate opcode instLen = none ∧ t.armedGate opcode instLen = none) ∨
    ∃ s' t', s.armedGate opcode instLen = some s' ∧ t.armedGate opcode instLen = some t' ∧
      s'.Twin t' ∧ s'.pc = s.pc ∧ t'.pc = t.pc := by
  let cost : Word := if isRep (decode opcode) then 2 else instLen
  let charge (v : DspState σ) := v.setInterrupts { v.interrupts with
    faultBudget := v.interrupts.faultBudget - cost }
  have hcharge : KeepsTwins charge := .of_inner (fun _ _ => rfl) fun _ h => h
  have hgate (v : DspState σ) : v.armedGate opcode instLen =
      if v.interrupts.state = .armed ∧ ¬ v.loopRep then
        if instLen = 0 ∨ cost > v.interrupts.faultBudget then none else some (charge v)
      else some v := rfl
  have hrep : t.loopRep = s.loopRep := by
    rw [h.same]
    rfl
  have hb : t.interrupts.faultBudget = s.interrupts.faultBudget := by
    rw [h.same]
    rfl
  rw [hgate, hgate, h.state, hrep, hb]
  split
  · split
    · exact .inl ⟨rfl, rfl⟩
    · exact .inr ⟨charge s, charge t, rfl, rfl, hcharge s t h, rfl, rfl⟩
  · exact .inr ⟨s, t, rfl, rfl, h, rfl, rfl⟩

/-- Twins execute one instruction alike. -/
theorem Functional.execute (c : Functional e map) {s t : DspState σ} (h : s.Twin t)
    {opcode nextWord : Word} (len : Word) {f g : φ}
    (hf : ∀ v : DspState σ, v.pc = s.pc → e.call f v = c.instruction opcode nextWord v)
    (hg : ∀ v : DspState σ, v.pc = t.pc → e.call g v = c.instruction opcode nextWord v) :
    (Machine.execute e t opcode g len).2 = (Machine.execute e s opcode f len).2 ∧
      (Machine.execute e s opcode f len).1.Twin (Machine.execute e t opcode g len).1 := by
  have hcount (n : Nat) : KeepsTwins fun s : DspState σ =>
      { s with cycleCount := s.cycleCount + BitVec.ofNat 32 n } :=
    .of_inner (fun _ _ => rfl) fun _ h => h
  unfold Machine.execute
  rcases twin_armedGate h opcode len with ⟨hs, ht⟩ | ⟨s', t', hs, ht, h', hps, hpt⟩
  · rw [hs, ht]
    exact ⟨rfl, hcount 2 _ _ (keepsTwins_deliverArmedFault s t h)⟩
  · have hadv : KeepsTwins fun s : DspState σ => { s with pcAdvance := len } :=
      .of_inner (fun _ _ => rfl) fun _ h => h
    obtain ⟨hn, hi⟩ := c.instruction_twin opcode nextWord _ _ (hadv s' t' h')
    rw [hs, ht]
    simp only [hf { s' with pcAdvance := len } hps, hg { t' with pcAdvance := len } hpt, hn]
    refine ⟨trivial, hcount _ _ _ ?_⟩
    exact keepsTwins_processPendingInterrupts _ _ (keepsTwins_advancePc _ _ hi)

/-- Instances that a host cannot tell apart. -/
structure Alike (e : Translator σ φ) (map : MemoryMap σ) (m n : Machine σ φ) : Prop where
  reachable : Reachable e map m
  reachable' : Reachable e map n
  twin : m.dsp.Twin n.dsp
  pramSize : n.jit.pramSize = m.jit.pramSize

theorem Alike.symm (h : Alike e map m n) : Alike e map n m :=
  ⟨h.reachable', h.reachable, h.twin.symm, h.pramSize.symm⟩

/-- The function and the length that a step finds for its opcode and next word. -/
def found (e : Translator σ φ) (m : Machine σ φ) : (φ × Word) × InstrCache φ :=
  getOrCompileInstruction e m.instrCache m.dsp.pc (fetch m.dsp).1.1 (fetch m.dsp).1.2 m.dsp.map

theorem stepOne_eq (m : Machine σ φ) : m.stepOne e =
    let r := Machine.execute e (fetch m.dsp).2 (fetch m.dsp).1.1 (m.found e).1.1 (m.found e).1.2
    ({ m with dsp := r.1, instrCache := (m.found e).2 }, r.2) := rfl

theorem Sized.found (h : m.Sized) : (m.found e).1.2 =
    BitVec.ofNat 32 (instructionLength (decode (fetch m.dsp).1.1)) :=
  (getOrCompileInstruction_length h.lengths _ _ _ _).1

theorem Alike.stepOne (c : Functional e map) (h : Alike e map m n) :
    (n.stepOne e).2 = (m.stepOne e).2 ∧ Alike e map (m.stepOne e).1 (n.stepOne e).1 := by
  obtain ⟨hfetch, htwin⟩ := twin_fetch h.twin
  have hcm (v : DspState σ) (hv : v.pc = (fetch m.dsp).2.pc) : e.call (m.found e).1.1 v =
      c.instruction (fetch m.dsp).1.1 (fetch m.dsp).1.2 v :=
    c.call_instruction m h.reachable _ _ v hv
  have hcn (v : DspState σ) (hv : v.pc = (fetch n.dsp).2.pc) : e.call (n.found e).1.1 v =
      c.instruction (fetch m.dsp).1.1 (fetch m.dsp).1.2 v := by
    rw [← hfetch]
    exact c.call_instruction n h.reachable' _ _ v hv
  obtain ⟨hcycles, ht⟩ := c.execute htwin (m.found e).1.2 hcm hcn
  have hlen : (n.found e).1.2 = (m.found e).1.2 := by
    rw [h.reachable'.sized.found, h.reachable.sized.found, hfetch]
  refine ⟨?_, h.reachable.step, h.reachable'.step, ?_, h.pramSize⟩
  · rw [stepOne_eq, stepOne_eq, hlen, hfetch]
    exact hcycles
  · rw [stepOne_eq, stepOne_eq, hlen, hfetch]
    exact ht

theorem twin_spend {s t : DspState σ} (h : s.Twin t) (n : Nat) :
    ({ s with cycleBudget := s.cycleBudget - n } : DspState σ).Twin
      { t with cycleBudget := t.cycleBudget - n } where
  same := congrArg (fun v : DspState σ => { v with cycleBudget := t.cycleBudget - n }) h.same
  cycleBudget := congrArg (· - (n : Int)) h.cycleBudget
  parked := h.parked

theorem keepsTwins_afterBlock : KeepsTwins (afterBlock (σ := σ)) :=
  keepsTwins_processPendingInterrupts.comp (keepsTwins_advanceDo.comp keepsTwins_check)

/-- Looking up the block leaves a twin, and a block to call. -/
theorem Functional.lookup (c : Functional e map) (h : Reachable e map m)
    (hs : m.dsp.needsStep m.jit.pramSize = false) :
    m.dsp.Twin (m.dsp.dispatchBlock m.jit e.compileBlock).1 ∧
    ∃ b, (m.dsp.dispatchBlock m.jit e.compileBlock).2.cache.get
        (m.dsp.dispatchBlock m.jit e.compileBlock).1.pc.toNat = some b ∧
      e.call b.func (m.dsp.dispatchBlock m.jit e.compileBlock).1 =
        c.block (m.dsp.dispatchBlock m.jit e.compileBlock).1 := by
  obtain ⟨w, d, hd⟩ := dispatchBlock_state m.dsp m.jit e.compileBlock
  have hw : w = m.dsp.world := by
    have hq := c.quiet m h
    rw [hd] at hq
    exact hq
  have hpc : (m.dsp.dispatchBlock m.jit e.compileBlock).1.pc = m.dsp.pc := by rw [hd]
  have hlt : m.dsp.pc.toNat < m.jit.cache.blocks.length := by
    simp only [needsStep, Bool.or_eq_false_iff, decide_eq_false_iff_not, not_le, ge_iff_le] at hs
    rw [h.sized.blocks]
    exact hs.2
  refine ⟨?_, ?_⟩
  · rw [hd, hw]
    exact ⟨rfl, rfl, fun _ => ⟨rfl, rfl⟩⟩
  · obtain ⟨b, hb⟩ := CacheSystem.dispatchBlock_get e.compileBlock hlt
      fun j _ _ _ => CacheSystem.getOrCompileBlock_cache j _ _ _ _ _ _
    rw [hpc]
    exact ⟨b, hb, c.call_block m h b hb⟩

theorem Alike.runBlock (c : Functional e map) (h : Alike e map m n)
    (hs : m.dsp.needsStep m.jit.pramSize = false)
    (hs' : n.dsp.needsStep n.jit.pramSize = false) :
    (m.runBlock e).dsp.Twin (n.runBlock e).dsp := by
  obtain ⟨ht, b, hb, hcall⟩ := c.lookup h.reachable hs
  obtain ⟨ht', b', hb', hcall'⟩ := c.lookup h.reachable' hs'
  obtain ⟨hcycles, hblock⟩ := c.block_twin _ _ ((ht.symm.trans h.twin).trans ht')
  have hexit (k : Nat) : KeepsTwins fun s : DspState σ =>
      { s with exitRequested := false, cycleCount := s.cycleCount + BitVec.ofNat 32 k } :=
    .of_inner (fun _ _ => rfl) fun _ h => h
  unfold Machine.runBlock callBlock
  simp only [hb, hb', hcall, hcall', hcycles]
  exact keepsTwins_afterBlock _ _ (twin_spend (hexit _ _ _ hblock) _)

theorem Alike.dispatch (c : Functional e map) (h : Alike e map m n) :
    (m.dispatch e).dsp.Twin (n.dispatch e).dsp := by
  have hneeds : n.dsp.needsStep n.jit.pramSize = m.dsp.needsStep m.jit.pramSize := by
    rw [h.pramSize, h.twin.same]
    rfl
  unfold Machine.dispatch
  rw [hneeds]
  cases hs : m.dsp.needsStep m.jit.pramSize with
  | true =>
    obtain ⟨hcycles, hstep⟩ := h.stepOne c
    dsimp only [if_true]
    rw [hcycles]
    exact twin_spend hstep.twin _
  | false => exact h.runBlock c hs (hneeds.trans hs)

theorem runBlock_pramSize (m : Machine σ φ) :
    (m.runBlock e).jit.pramSize = m.jit.pramSize := by
  have hs := (dispatchBlock_size m.dsp m.jit e.compileBlock).2
  unfold Machine.runBlock callBlock
  dsimp only
  split
  · exact hs
  · exact hs

theorem dispatch_pramSize (m : Machine σ φ) :
    (m.dispatch e).jit.pramSize = m.jit.pramSize := by
  unfold Machine.dispatch
  split
  · rfl
  · exact m.runBlock_pramSize

theorem turn_pramSize (m : Machine σ φ) : (m.turn e).jit.pramSize = m.jit.pramSize := by
  unfold Machine.turn
  split
  · rfl
  · split
    · exact dispatch_pramSize _
    · rfl
  · exact dispatch_pramSize m

theorem twin_sleep {s t : DspState σ} (h : s.Twin t) :
    ({ s with cycleBudget := 0 } : DspState σ).Twin { t with cycleBudget := 0 } where
  same := congrArg (fun v : DspState σ => { v with cycleBudget := 0 }) h.same
  cycleBudget := rfl
  parked := h.parked

theorem Alike.turn (c : Functional e map) (h : Alike e map m n) :
    Alike e map (m.turn e) (n.turn e) := by
  refine ⟨h.reachable.turn, h.reachable'.turn, ?_, ?_⟩
  · have hp : n.dsp.powerState = m.dsp.powerState := by
      rw [h.twin.same]
      rfl
    have hw : n.dsp.canWake = m.dsp.canWake := by
      rw [h.twin.same]
      rfl
    unfold Machine.turn
    rw [hp, hw]
    cases hs : m.dsp.powerState with
    | stop => exact twin_sleep h.twin
    | normal => exact h.dispatch c
    | wait =>
      dsimp only
      split
      · rename_i hc
        have hwake : KeepsTwins fun s : DspState σ => { s with powerState := .normal } :=
          .of_inner (fun _ _ => rfl) fun _ h => h
        have ha : Alike e map (m.withDsp fun s => { s with powerState := .normal })
            (n.withDsp fun s => { s with powerState := .normal }) :=
          ⟨h.reachable.wake hs hc, h.reachable'.wake (hp.trans hs) (hw.trans hc),
            hwake _ _ h.twin, h.pramSize⟩
        exact ha.dispatch c
      · exact twin_sleep h.twin
  · rw [turn_pramSize, turn_pramSize, h.pramSize]

theorem Alike.iterate (c : Functional e map) (h : Alike e map m n) :
    (iterate e m = none ∧ iterate e n = none) ∨
      ∃ m' n', iterate e m = some m' ∧ iterate e n = some n' ∧ Alike e map m' n' := by
  have hh : n.dsp.haltRequested = m.dsp.haltRequested := by
    rw [h.twin.same]
    rfl
  unfold Machine.iterate
  rw [h.twin.cycleBudget, hh]
  split
  · exact .inr ⟨_, _, rfl, rfl, h.turn c⟩
  · exact .inl ⟨rfl, rfl⟩

theorem Alike.grant (h : Alike e map m n) (cycles : Int) :
    Alike e map (m.grant cycles) (n.grant cycles) where
  reachable := h.reachable.grant cycles
  reachable' := h.reachable'.grant cycles
  twin :=
    { same := congrArg (fun v : DspState σ => { v with cycleBudget := n.dsp.cycleBudget + cycles })
        h.twin.same
      cycleBudget := congrArg (· + cycles) h.twin.cycleBudget
      parked := h.twin.parked }
  pramSize := h.pramSize

theorem keepsTwins_addInterrupt (inter : Nat) : KeepsTwins (addInterrupt (σ := σ) inter) := by
  refine .of_inner ?_ fun s h => ?_
  · intro s m
    simp only [addInterrupt, InterruptPipeline.add]
    split_ifs <;> first | rfl | contradiction
  · have hs : (s.interrupts.add inter).state = s.interrupts.state := by
      unfold InterruptPipeline.add
      split
      · split <;> rfl
      · rfl
    exact hs.symm.trans h

theorem keepsTwins_writeMemory (space : MemSpace) (addr v : Word) :
    KeepsTwins fun s : DspState σ => s.writeMemory space addr v := by
  obtain ⟨write, hw⟩ := writeMemory_state (σ := σ) space addr v
  intro s t h
  obtain ⟨d, hs⟩ := hw s
  obtain ⟨d', ht⟩ := hw t
  have hwrite : write t.map t.world = write s.map s.world := by
    rw [h.same]
    rfl
  dsimp only
  rw [hs, ht, hwrite]
  exact ⟨congrArg (fun v : DspState σ => { v with world := write s.map s.world, pramDirty := d' })
    h.same, h.cycleBudget, h.parked⟩

theorem keepsTwins_writeMemoryRun (space : MemSpace) (addr : Word) (vals : List Word) :
    KeepsTwins fun s : DspState σ => s.writeMemoryRun space addr vals := by
  induction vals generalizing addr with
  | nil => exact .id
  | cons v vs ih => exact (ih (addr + 1)).comp (keepsTwins_writeMemory space addr v)

/-- Whatever a host does to one instance it can do to the other, with the same outcome. -/
theorem Alike.step (c : Functional e map) {op : HostOp} {m' : Machine σ φ} (h : Alike e map m n)
    (hs : HostOp.Step e m op m') : ∃ n', HostOp.Step e n op n' ∧ Alike e map m' n' := by
  cases hs with
  | run hr =>
    obtain ⟨n', hn, ha⟩ := Lib.Loops.Ends.simulate (fun _ _ h => h.iterate c) hr (h.grant _)
    exact ⟨n', .run hn, ha⟩
  | step => exact ⟨_, .step, (h.stepOne c).2⟩
  | post =>
    exact ⟨_, .post, h.reachable.post _, h.reachable'.post _,
      keepsTwins_addInterrupt _ _ _ h.twin, h.pramSize⟩
  | write =>
    exact ⟨_, .write, h.reachable.write _ _ _, h.reachable'.write _ _ _,
      keepsTwins_writeMemoryRun _ _ _ _ _ h.twin, h.pramSize⟩

/-- Whatever a host goes on to do, one instance shows what the other does. -/
def Indistinguishable (e : Translator σ φ) (m n : Machine σ φ) : Prop :=
  ∀ ops, (∀ m', Run (HostOp.Step e) m ops m' →
      ∃ n', Run (HostOp.Step e) n ops n' ∧ m'.dsp.Looks n'.dsp) ∧
    ∀ n', Run (HostOp.Step e) n ops n' →
      ∃ m', Run (HostOp.Step e) m ops m' ∧ m'.dsp.Looks n'.dsp

theorem Alike.indistinguishable (c : Functional e map) (h : Alike e map m n) :
    Indistinguishable e m n := by
  have hstep (m : Machine σ φ) (op : HostOp) (m' n : Machine σ φ) (hs : HostOp.Step e m op m')
      (h : Alike e map m n) : ∃ n', HostOp.Step e n op n' ∧ Alike e map m' n' := h.step c hs
  intro ops
  refine ⟨?_, ?_⟩
  · intro m' hm
    obtain ⟨n', hn, ha⟩ := hm.simulate hstep h
    exact ⟨n', hn, ha.twin.looks⟩
  · intro n' hn
    obtain ⟨m', hm, ha⟩ := hn.simulate hstep h.symm
    exact ⟨m', hm, ha.symm.twin.looks⟩

/-- `u` is an instance over the memory of `m`, with nothing compiled. -/
structure Blank (m u : Machine σ φ) : Prop where
  map : u.dsp.map = m.dsp.map
  world : u.dsp.world = m.dsp.world
  jit : u.jit = .new m.jit.pramSize
  instrCache : u.instrCache = fun _ => none

/-- A step of a machine with no instruction compiled yet. -/
theorem stepOne_blank {opcode nextWord len : Word} {inst : Instruction} {f : φ}
    (hc : m.instrCache = fun _ => none) (hf : (fetch m.dsp).1 = (opcode, nextWord))
    (hd : decode opcode = inst) (hfn : e.compileInstruction inst m.dsp.pc nextWord m.dsp.map = f)
    (hlen : BitVec.ofNat 32 (instructionLength inst) = len) :
    (m.stepOne e).1.dsp = (Machine.execute e (fetch m.dsp).2 opcode f len).1 := by
  have hfound : (m.found e).1 = (f, len) := by
    rw [Machine.found, hc, hf, ← hfn, ← hlen, ← hd]
    rfl
  rw [stepOne_eq, hfound, hf]

theorem readWords_world (hq : map.PureReads) (pc : Word) (n : Nat) (w : World σ) :
    (map.readWords pc n w).2 = w := by
  induction n generalizing pc w with
  | zero => rfl
  | succ n ih => exact (ih _ _).trans (hq pc w)

theorem pramMatches_world (hq : map.PureReads) (pc : Word) (words : List Word) (w : World σ) :
    (map.pramMatches pc words w).2 = w := by
  induction words generalizing pc w with
  | nil => rfl
  | cons v vs ih =>
    simp only [MemoryMap.pramMatches]
    split
    · exact (ih _ _).trans (hq pc w)
    · exact hq pc w

theorem findTranslation_world (hq : map.PureReads) (pc : Word) (ts : List (Translation φ))
    (w : World σ) :
    (map.findTranslation pc ts w).2 = w := by
  induction ts generalizing w with
  | nil => rfl
  | cons t ts ih =>
    have hm := pramMatches_world hq pc t.words w
    simp only [MemoryMap.findTranslation]
    split
    · exact hm
    · exact (ih _).trans hm

/-- Where reading P memory changes nothing, looking a block up changes nothing in the world. -/
theorem dispatchBlock_world (hq : map.PureReads) {compile : Compiler σ φ}
    (hc : ∀ startPc stopPc generation w, (compile startPc stopPc generation map w).2 = w)
    {s : DspState σ} (hs : s.map = map) (jit : JitEngine φ) :
    (s.dispatchBlock jit compile).1.world = s.world := by
  have hb (jit : JitEngine φ) : (jit.getOrCompileBlock compile s.pc s.stopPc
      s.pramDirty.generation s.map s.world).2.2 = s.world := by
    rw [hs]
    have hf := findTranslation_world hq s.pc (jit.translations (s.pc, s.stopPc)) s.world
    unfold JitEngine.getOrCompileBlock
    generalize map.findTranslation s.pc (jit.translations (s.pc, s.stopPc)) s.world = found at hf
    obtain ⟨t, w⟩ := found
    cases t with
    | some t => exact hf
    | none => exact (readWords_world hq _ _ _).trans ((hc _ _ _ _).trans hf)
  unfold dispatchBlock
  dsimp only
  split
  · rfl
  · unfold rebuildBlock
    dsimp only
    split
    · exact hb _
    · exact hb _

/-! A core with plain registers and core faults. -/

open Emitter Lib.Programs

section Faults

set_option linter.constructorNameAsVariable false

/-- Data paths with core faults posted and armed by compiled code. -/
def faultPaths : Code.Handler Op (DspState σ)
  | _, .addInterrupt inter, s => ((), s.emitAddInterrupt (Fin.ofNat Interrupt.count inter))
  | _, .armFaultBudget words, s => ((), s.emitArmFaultBudget (BitVec.ofNat 32 words))
  | γ, op, s => registerPaths.exec γ op s

/-- Code run from a state, with the cycles it takes. -/
def runCode (x : Emit Unit) (s : DspState σ) : DspState σ × Nat :=
  ((x.run faultPaths s).2, Emitter.cycles x)

/-- A block of the one instruction at PC, which leaves PC behind it. -/
def runWord (s : DspState σ) : DspState σ × Nat :=
  let r := runCode (emitInstruction (decode (fetch s).1.1) s.pc (fetch s).1.2) (fetch s).2
  ({ r.1 with pc := maskPc (r.1.pc + r.1.pcAdvance) }, r.2)

theorem runCode_budget (x : Emit Unit) (s : DspState σ) (n : Int) :
    runCode x (s.withBudget n) = ((runCode x s).1.withBudget n, (runCode x s).2) := by
  have h := Code.run_rel (h := faultPaths (σ := σ)) (R := fun s t => t = s.withBudget n) (by
    rintro γ op s _ rfl
    cases op <;> exact ⟨rfl, rfl⟩) x (rfl : s.withBudget n = _)
  exact congrArg (·, Emitter.cycles x) h.2

theorem runCode_twin (x : Emit Unit) {s t : DspState σ} (h : s.Twin t) :
    (runCode x s).1.Twin (runCode x t).1 := by
  refine (Code.run_rel (h := faultPaths (σ := σ)) (R := Twin) ?_ x h).2
  intro γ op s t h
  have hi : Inner fun s : DspState σ => (faultPaths γ op s).2 := by
    intro s m
    cases op <;> rfl
  have hs (s : DspState σ) : (faultPaths γ op s).2.interrupts.state = s.interrupts.state := by
    cases op <;> rfl
  refine ⟨?_, KeepsTwins.of_inner hi (fun s hp => (hs s).symm.trans hp) s t h⟩
  rw [h.same]
  cases op <;> rfl

theorem runCode_map (x : Emit Unit) (s : DspState σ) : (runCode x s).1.map = s.map := by
  refine (Code.run_rel (h := faultPaths (σ := σ)) (R := fun t u => u.map = s.map ∧ t = u) ?_ x
    ⟨rfl, rfl⟩).2.1
  rintro γ op t _ ⟨hm, rfl⟩
  cases op <;> exact ⟨rfl, hm, rfl⟩

end Faults

/-- Instructions run as the code emitted for them, blocks one instruction at a time. -/
def faultEngine : Translator σ (Option (Instruction × Word × Word)) where
  compileBlock := fun pc _ generation _ w => (⟨none, pc + 1, generation, true⟩, w)
  compileInstruction := fun inst pc nextWord _ => some (inst, pc, nextWord)
  call
    | none, s => runWord s
    | some (inst, pc, nextWord), s => runCode (emitInstruction inst pc nextWord) s
  call_budget := by
    intro f s n
    cases f with
    | none =>
      have h := runCode_budget (emitInstruction (decode (fetch s).1.1) s.pc (fetch s).1.2)
        (fetch s).2 n
      exact congrArg (fun r : DspState σ × Nat =>
        ({ r.1 with pc := maskPc (r.1.pc + r.1.pcAdvance) }, r.2)) h
    | some f => exact runCode_budget _ s n


theorem runWord_map (s : DspState σ) : (runWord s).1.map = s.map :=
  runCode_map _ (fetch s).2

theorem call_map (f : Option (Instruction × Word × Word)) (s : DspState σ) :
    (faultEngine.call f s).1.map = s.map := by
  cases f with
  | none => exact runWord_map s
  | some f => exact runCode_map _ s

/-- Over P memory whose reads change nothing, the engine is a function of the state. -/
def faultFunctional (hq : map.PureReads) :
    Functional (faultEngine (σ := σ)) map where
  instruction opcode nextWord s := runCode (emitInstruction (decode opcode) s.pc nextWord) s
  block := runWord
  instruction_twin := by
    intro opcode nextWord s t h
    have hpc : t.pc = s.pc := by
      rw [h.same]
      rfl
    rw [hpc]
    exact ⟨rfl, runCode_twin _ h⟩
  block_twin := by
    intro s t h
    obtain ⟨hwords, hf⟩ := twin_fetch h
    have hpc : t.pc = s.pc := by
      rw [h.same]
      rfl
    have hend : KeepsTwins fun s : DspState σ => { s with pc := maskPc (s.pc + s.pcAdvance) } :=
      .of_inner (fun _ _ => rfl) fun _ h => h
    unfold runWord
    rw [hwords, hpc]
    exact ⟨rfl, hend _ _ (runCode_twin _ hf)⟩
  call_instruction := by
    intro m hm opcode nextWord s hs
    let Q (key : Word × Word × Word) (f : Option (Instruction × Word × Word)) :=
      ∃ pc opcode nextWord, key = instrKey pc opcode nextWord ∧
        f = some (decode opcode, pc, nextWord)
    have hQ (opcode pc nextWord : Word) (map : MemoryMap σ) : Q (instrKey pc opcode nextWord)
        (faultEngine.compileInstruction (decode opcode) pc nextWord map) :=
      ⟨pc, opcode, nextWord, rfl, rfl⟩
    have hh := hm.holds (P := fun _ f => f = none) (fun _ _ _ _ _ => rfl) hQ
    obtain ⟨pc, op, nw, hk, hf⟩ := (getOrCompileInstruction_holds hQ hh.instructions m.dsp.pc opcode
      nextWord m.dsp.map).1
    rw [hf, hs, emitInstruction_of_key hk]
    rfl
  call_block := by
    intro m hm b hb
    let Q (_ : Word × Word × Word) (_ : Option (Instruction × Word × Word)) := True
    have hh := hm.holds (P := fun _ f => f = none) (Q := Q) (fun _ _ _ _ _ => rfl)
      fun _ _ _ _ => trivial
    have hP (startPc stopPc generation : Word) (map : MemoryMap σ) (w : World σ) :
        ((faultEngine.compileBlock startPc stopPc generation map w).1.func) = none := rfl
    have hf := (dispatchBlock_holds (P := fun _ f => f = none) hP m.dsp hh.blocks hh.translations).1
      _ b hb
    rw [hf]
    rfl
  quiet := by
    intro m hm
    exact dispatchBlock_world hq (fun _ _ _ _ => rfl) (hm.map_eq call_map) m.jit

/-- A step that goes elsewhere tells two instances apart. -/
theorem distinguished_by_step (h : (n.stepOne e).1.dsp.pc ≠ (m.stepOne e).1.dsp.pc) :
    ¬ Indistinguishable e m n := by
  intro hi
  obtain ⟨n', hn, hlook, -⟩ := (hi [.step]).1 _ (.cons .step (.nil _))
  cases hn with
  | cons hs hr =>
    cases hs
    cases hr
    exact h (congrArg CDspState.pc hlook)

/-- P memory alone, in a buffer. -/
def flatMap : MemoryMap Unit := ⟨[], [], [⟨0, 16, .buffer 0 0⟩]⟩

theorem flatMap_pure : flatMap.PureReads := by
  intro addr w
  unfold MemoryMap.readPram MemoryMap.readMemory
  cases hl : flatMap.lookup .p addr with
  | none => rfl
  | some r =>
    have hr := (MemoryMap.lookup_mem hl).1
    obtain rfl := List.mem_singleton.mp hr
    rfl

/-- A core with an ILLEGAL at address 0 and NOPs behind it. -/
def illegalCore : Machine Unit (Option (Instruction × Word × Word)) :=
  create flatMap ⟨fun cell => if cell = 0 then 5 else 0, ()⟩

theorem decode_illegal : decode 5 = .illegal := by
  rw [decode_at 88 rfl (by decide) (by decide) (by decide)]
  rfl

/-- The core with its fault armed. -/
def armedCore : Machine Unit (Option (Instruction × Word × Word)) :=
  (illegalCore.stepOne faultEngine).1

/-- What the step left: the fault dispatched, with no words to run before it. -/
def armedState : DspState Unit :=
  { illegalCore.dsp with
    pc := 1
    pcAdvance := 1
    cycleCount := 5
    interrupts := { (illegalCore.dsp.interrupts.setPending 2).clearPending 2 with
      state := .armed, vectorAddr := 4, iplToRaise := 3, faultBudget := 0 } }

theorem armedCore_dsp : armedCore.dsp = armedState := by
  have hf : (fetch illegalCore.dsp).1 = (5, 0) := rfl
  unfold armedCore
  rw [stepOne_blank rfl hf decode_illegal rfl rfl]
  rfl

/-- An armed fault whose shadow is used up is delivered by the next step. -/
theorem stepOne_delivers (m : Machine σ φ) (ha : m.dsp.interrupts.state = .armed)
    (hr : m.dsp.loopRep = false) (hb : m.dsp.interrupts.faultBudget = 0)
    (hl : (m.found e).1.2 = 1) :
    (m.stepOne e).1.dsp.pc = m.dsp.interrupts.vectorAddr := by
  have hg : (fetch m.dsp).2.armedGate (fetch m.dsp).1.1 (m.found e).1.2 = none := by
    have hs : (fetch m.dsp).2.interrupts = m.dsp.interrupts := rfl
    have hrep : (fetch m.dsp).2.loopRep = false := hr
    unfold armedGate
    rw [hs, ha, hrep, hb, hl, if_pos ⟨rfl, Bool.false_ne_true⟩]
    apply if_pos
    right
    split <;> decide
  rw [stepOne_eq]
  unfold execute
  rw [hg]
  exact (deliverArmedFault_spec (fetch m.dsp).2).2.1

def restoredCore : Machine Unit (Option (Instruction × Word × Word)) :=
  illegalCore.restore armedCore.dsp.getState

theorem restoredCore_dsp : restoredCore.dsp = illegalCore.dsp.setState armedState.getState :=
  congrArg (fun s : DspState Unit => illegalCore.dsp.setState s.getState) armedCore_dsp

/-- A NOP in the shadow of an armed fault is executed. -/
theorem execute_nop_shadow {s : DspState σ} (ha : s.interrupts.state = .armed)
    (hr : s.loopRep = false) (hb : ¬ 1 > s.interrupts.faultBudget) (hl : s.loopFlag = 0)
    (pc : Word) : (Machine.execute faultEngine s 0 (some (.nop, pc, 0)) 1).1.pc =
      maskPc (s.pc + 1) := by
  let charged := s.setInterrupts { s.interrupts with faultBudget := s.interrupts.faultBudget - 1 }
  have hg : s.armedGate 0 1 = some charged := by
    unfold armedGate
    rw [decode_nop, if_pos ⟨ha, by simp [hr]⟩]
    exact if_neg (not_or.mpr ⟨by decide, hb⟩)
  let executed : DspState σ := { charged with pcAdvance := 1 }
  have he : (Machine.execute faultEngine s 0 (some (.nop, pc, 0)) 1).1.pc =
      executed.advancePc.processPendingInterrupts.pc := by
    unfold execute
    rw [hg]
    rfl
  have hp (t : DspState σ) (hs : t.interrupts.state = .armed) (hrep : t.loopRep = false) :
      t.processPendingInterrupts = t := by
    simp [processPendingInterrupts, tickIdle, hs, hrep]
  obtain ⟨w, u, hadv⟩ := advancePc_straight (t := executed) hr (.inl hl)
  have hs : executed.advancePc.interrupts.state = .armed := by
    rw [hadv]
    exact ha
  have hrep : executed.advancePc.loopRep = false := by
    rw [hadv]
    exact hr
  rw [he, hp _ hs hrep, hadv]
  rfl

/-- The snapshot of a core whose ILLEGAL is at the end of its shadow: the core goes on at the
vector, the core restored from it executes the next word. -/
theorem restored_fault_passes :
    (armedCore.stepOne faultEngine).1.dsp.pc = 4 ∧
      (restoredCore.stepOne faultEngine).1.dsp.pc = 2 := by
  refine ⟨?_, ?_⟩
  · have hl : (armedCore.found faultEngine).1.2 = 1 := by
      have hf : (fetch armedCore.dsp).1.1 = 0 := by
        rw [armedCore_dsp]
        decide +kernel
      have hs : armedCore.Sized := (Reachable.create (e := faultEngine) _).step.sized
      rw [hs.found, hf, decode_nop]
      rfl
    rw [stepOne_delivers armedCore (by rw [armedCore_dsp]; decide +kernel)
      (by rw [armedCore_dsp]; decide +kernel) (by rw [armedCore_dsp]; decide +kernel) hl,
      armedCore_dsp]
    decide +kernel
  · have hf : (fetch restoredCore.dsp).1 = (0, 0) := by
      rw [restoredCore_dsp]
      decide +kernel
    have hfn : faultEngine.compileInstruction .nop restoredCore.dsp.pc 0 restoredCore.dsp.map =
        some (.nop, 1, 0) := by
      rw [restoredCore_dsp]
      rfl
    have hlen : BitVec.ofNat 32 (instructionLength .nop) = 1 := rfl
    rw [stepOne_blank rfl hf decode_nop hfn hlen, restoredCore_dsp]
    have h := execute_nop_shadow (s := (fetch (illegalCore.dsp.setState armedState.getState)).2)
      rfl rfl (by decide +kernel) (by decide +kernel) 1
    rw [h]
    rfl

/-- Restoring is transparent where the target has what the record leaves out: the shadow budget of
the core fault and its hint, the request to leave a block, and the countdown of a parked fault. -/
theorem restore_transparent (c : Functional e map) {m u : Machine σ φ} (hm : Reachable e map m)
    (hu : Reachable e map u) (hb : Blank m u) (hr : m.dsp.Restorable u.dsp) :
    Indistinguishable e m (u.restore m.dsp.getState) := by
  have ha : Alike e map m (u.restore m.dsp.getState) :=
    ⟨hm, hm.restore hu, hr.twin hb.map hb.world,
      (congrArg JitEngine.pramSize hb.jit : u.jit.pramSize = _)⟩
  exact ha.indistinguishable c

theorem restore_transparent_pending :
    let m := illegalCore.withDsp (addInterrupt 4)
    Indistinguishable faultEngine m (illegalCore.restore m.dsp.getState) :=
  restore_transparent (faultFunctional flatMap_pure) ((Reachable.create _).post 4)
    (.create _) ⟨rfl, rfl, rfl, rfl⟩ ⟨rfl, rfl, rfl, nofun⟩

/-- The record of a core whose fault is armed does not hold how many words may still execute. -/
theorem armed_fault_not_restored :
    ∃ (map : MemoryMap Unit) (m u : Machine Unit (Option (Instruction × Word × Word))),
      Nonempty (Functional faultEngine map) ∧ Reachable faultEngine map m ∧
      Reachable faultEngine map u ∧ Blank m u ∧
      ¬ Indistinguishable faultEngine m (u.restore m.dsp.getState) := by
  have hm : Reachable faultEngine flatMap illegalCore := .create _
  refine ⟨flatMap, armedCore, illegalCore, ⟨faultFunctional flatMap_pure⟩, hm.step, hm,
    ?_, ?_⟩
  · have hjit : armedCore.jit = illegalCore.jit := by
      unfold armedCore
      rw [stepOne_eq]
    refine ⟨?_, ?_, ?_, rfl⟩
    · rw [armedCore_dsp]
      rfl
    · rw [armedCore_dsp]
      rfl
    · rw [hjit]
      rfl
  · have hpc : (restoredCore.stepOne faultEngine).1.dsp.pc ≠
        (armedCore.stepOne faultEngine).1.dsp.pc := by
      rw [restored_fault_passes.1, restored_fault_passes.2]
      decide
    have hn : ¬ Indistinguishable faultEngine armedCore restoredCore := distinguished_by_step hpc
    exact hn

end Machine

end Dsp56300
