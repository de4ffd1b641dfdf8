import Dsp56300.Emu.Coherence
import Dsp56300.Emu.InstructionCode
import Dsp56300.Emu.Margin

/-! What a host does to a core, and what its machine keeps from the first instance on. -/

namespace Dsp56300

variable {σ φ : Type}

def PowerState.toByte : PowerState → Byte
  | .normal => 0
  | .wait => 1
  | .stop => 2

def PowerState.ofByte (v : Byte) : PowerState :=
  match v.toNat with
  | 1 => .wait
  | 2 => .stop
  | _ => .normal

def InterruptState.toByte : InterruptState → Byte
  | .none => 0
  | .fast => 1
  | .long => 2
  | .armed => 3
  | .parked => 4

def InterruptState.ofByte (v : Byte) : InterruptState :=
  match v.toNat with
  | 1 => .fast
  | 2 => .long
  | 3 => .armed
  | 4 => .parked
  | _ => .none

@[simp] theorem PowerState.ofByte_toByte (p : PowerState) : ofByte p.toByte = p := by
  cases p <;> rfl

@[simp] theorem InterruptState.ofByte_toByte (i : InterruptState) : ofByte i.toByte = i := by
  cases i <;> rfl

/-- Interrupt pipeline state for save and restore. -/
structure CInterruptState where
  pendingBits : Fin 2 → BitVec 64
  pipelineStage : Nat
  vectorAddr : Word
  savedPc : Word
  state : Byte
  ipl : Fin Interrupt.count → Int
  iplToRaise : Byte

/-- Bulk state for save and restore, including registers and stack. -/
structure CDspState where
  pc : Word
  pcAdvance : Word
  pcOnRep : Bool
  cycleCount : Word
  cycleBudget : Int
  interrupts : CInterruptState
  loopRep : Bool
  haltRequested : Bool
  powerState : Byte
  registers : RegIdx → Word
  stack : Fin 2 → Fin 16 → Word

namespace DspState

def getState (s : DspState σ) : CDspState where
  pc := s.pc
  pcAdvance := s.pcAdvance
  pcOnRep := s.pcOnRep
  cycleCount := s.cycleCount
  cycleBudget := s.cycleBudget
  interrupts :=
    { pendingBits := s.interrupts.pendingBits
      pipelineStage := s.interrupts.pipelineStage
      vectorAddr := s.interrupts.vectorAddr
      savedPc := s.interrupts.savedPc
      state := s.interrupts.state.toByte
      ipl := s.interrupts.ipl
      iplToRaise := s.interrupts.iplToRaise }
  loopRep := s.loopRep
  haltRequested := s.haltRequested
  powerState := s.powerState.toByte
  registers := s.registers
  stack := s.stack

def setState (s : DspState σ) (src : CDspState) : DspState σ :=
  { s with
    pc := src.pc
    pcAdvance := src.pcAdvance
    pcOnRep := src.pcOnRep
    cycleCount := src.cycleCount
    cycleBudget := src.cycleBudget
    interrupts := { s.interrupts with
      pendingBits := src.interrupts.pendingBits
      pipelineStage := src.interrupts.pipelineStage
      vectorAddr := src.interrupts.vectorAddr
      savedPc := src.interrupts.savedPc
      state := .ofByte src.interrupts.state
      ipl := src.interrupts.ipl
      iplToRaise := src.interrupts.iplToRaise }
    loopRep := src.loopRep
    haltRequested := src.haltRequested
    powerState := .ofByte src.powerState
    registers := src.registers
    stack := src.stack }

/-! The memory map stays. -/

theorem checkUnimplementedModes_map (s : DspState σ) : s.checkUnimplementedModes.map = s.map := by
  simp only [checkUnimplementedModes]
  split <;> rfl

theorem stackPush_map (s : DspState σ) (ssh ssl : Word) : (s.stackPush ssh ssl).map = s.map := by
  simp only [stackPush, mirrorSlots, setReg, setSlot, apply_ite DspState.map, postStackError,
    raiseStackError, ite_self]

theorem stackPop_map (s : DspState σ) : s.stackPop.2.map = s.map := by
  simp only [stackPop, mirrorSlots, setReg, apply_ite DspState.map, postStackError,
    raiseStackError, ite_self]

theorem advanceRep_map (s : DspState σ) : s.advanceRep.map = s.map := by
  simp only [advanceRep, repTruncateArmedWindow]
  split_ifs <;> rfl

theorem advanceDo_map (s : DspState σ) : s.advanceDo.map = s.map := by
  have hreg (s : DspState σ) (r : RegIdx) (v : Word) : (s.setReg r v).map = s.map := rfl
  simp only [advanceDo, apply_ite DspState.map, hreg, stackPop_map, ite_self]

theorem advancePc_map (s : DspState σ) : s.advancePc.map = s.map :=
  (advanceDo_map _).trans ((advanceRep_map _).trans s.checkUnimplementedModes_map)

theorem fetchVector_map (s : DspState σ) : s.fetchVector.map = s.map := by
  have hreg (s : DspState σ) (r : RegIdx) (v : Word) : (s.setReg r v).map = s.map := rfl
  simp only [fetchVector, detectLongInterrupt, apply_ite DspState.map, hreg, stackPush_map,
    setInterrupts, ite_self]

theorem deliverParkedFault_map (s : DspState σ) : s.deliverParkedFault.map = s.map := by
  unfold deliverParkedFault
  split
  · rfl
  · exact fetchVector_map _

theorem arbitrate_map (s : DspState σ) : s.arbitrate.map = s.map := by
  simp only [arbitrate, dispatch]
  split
  · rfl
  · split
    · rfl
    · split <;> rfl

theorem tickIdle_map (s : DspState σ) : s.tickIdle.map = s.map := by
  simp only [tickIdle, tickParked]
  split_ifs
  · exact deliverParkedFault_map _
  · rfl
  · rfl
  · exact s.arbitrate_map

theorem tickFast_map (s : DspState σ) : s.tickFast.1.map = s.map := by
  unfold tickFast
  split
  · rfl
  · exact fetchVector_map _
  · dsimp only [nextStage]
    split
    · exact fetchVector_map _
    · rfl
  · dsimp only
    split <;> rfl
  · rfl
  · dsimp only
    split <;> rfl
  · rfl

theorem processPendingInterrupts_map (s : DspState σ) :
    s.processPendingInterrupts.map = s.map := by
  simp only [processPendingInterrupts]
  split_ifs
  · rfl
  · exact (tickIdle_map _).trans s.tickFast_map
  · exact s.tickFast_map
  · exact s.tickIdle_map

end DspState

namespace Machine

open DspState Emitter

variable (e : Translator σ φ)

/-- What a host does to an instance. -/
inductive HostOp where
  | run (cycles : Int)
  | step
  | post (inter : Nat)
  | write (space : MemSpace) (addr : Word) (vals : List Word)

def withDsp (m : Machine σ φ) (f : DspState σ → DspState σ) : Machine σ φ :=
  { m with dsp := f m.dsp }

def addInterrupt (inter : Nat) (s : DspState σ) : DspState σ :=
  s.setInterrupts (s.interrupts.add inter)

inductive HostOp.Step : Machine σ φ → HostOp → Machine σ φ → Prop where
  | run {m t : Machine σ φ} {cycles : Int} (h : Runs e cycles m t) : Step m (.run cycles) t
  | step {m : Machine σ φ} : Step m .step (m.stepOne e).1
  | post {m : Machine σ φ} {inter : Nat} : Step m (.post inter) (m.withDsp (addInterrupt inter))
  | write {m : Machine σ φ} {space : MemSpace} {addr : Word} {vals : List Word} :
    Step m (.write space addr vals) (m.withDsp (·.writeMemoryRun space addr vals))

/-- An instance just created. -/
def create (map : MemoryMap σ) (world : World σ) : Machine σ φ :=
  ⟨.new map world, .new map.pSpaceEnd.toNat, fun _ => none⟩

def restore (u : Machine σ φ) (src : CDspState) : Machine σ φ := u.withDsp (·.setState src)

/-- The machines that hosts come to over one memory map, between the iterations of a run too. -/
inductive Reachable (map : MemoryMap σ) : Machine σ φ → Prop where
  | create (world : World σ) : Reachable map (create map world)
  | grant {m : Machine σ φ} (h : Reachable map m) (cycles : Int) : Reachable map (m.grant cycles)
  | turn {m : Machine σ φ} (h : Reachable map m) : Reachable map (m.turn e)
  | wake {m : Machine σ φ} (h : Reachable map m) (hw : m.dsp.powerState = .wait)
    (hc : m.dsp.canWake = true) :
    Reachable map (m.withDsp fun s => { s with powerState := .normal })
  | step {m : Machine σ φ} (h : Reachable map m) : Reachable map (m.stepOne e).1
  | post {m : Machine σ φ} (h : Reachable map m) (inter : Nat) :
    Reachable map (m.withDsp (addInterrupt inter))
  | write {m : Machine σ φ} (h : Reachable map m) (space : MemSpace) (addr : Word)
    (vals : List Word) :
    Reachable map (m.withDsp (·.writeMemoryRun space addr vals))
  | restore {m u : Machine σ φ} (h : Reachable map m) (hu : Reachable map u) :
    Reachable map (u.restore m.dsp.getState)

variable {e : Translator σ φ} {map : MemoryMap σ} {m n : Machine σ φ}

/-- The block cache covers P memory, and cached instructions have the length they decode to. -/
structure Sized (m : Machine σ φ) : Prop where
  blocks : m.jit.cache.blocks.length = m.jit.pramSize
  lengths : ∀ key entry, m.instrCache key = some entry →
    entry.2 = BitVec.ofNat 32 (instructionLength (decode key.2.1))

theorem getOrCompileInstruction_length {cache : InstrCache φ}
    (h : ∀ key entry, cache key = some entry →
      entry.2 = BitVec.ofNat 32 (instructionLength (decode key.2.1)))
    (pc opcode nextWord : Word) (map : MemoryMap σ) :
    let r := getOrCompileInstruction e cache pc opcode nextWord map
    r.1.2 = BitVec.ofNat 32 (instructionLength (decode opcode)) ∧
      ∀ key entry, r.2 key = some entry →
        entry.2 = BitVec.ofNat 32 (instructionLength (decode key.2.1)) := by
  unfold getOrCompileInstruction
  dsimp only
  cases hc : cache (instrKey pc opcode nextWord) with
  | some entry => exact ⟨h _ _ hc, h⟩
  | none =>
    refine ⟨rfl, ?_⟩
    intro key entry he
    dsimp only at he
    by_cases hk : key = instrKey pc opcode nextWord
    · rw [hk, Function.update_self, Option.some.injEq] at he
      rw [← he, hk]
      rfl
    · rw [Function.update_of_ne hk] at he
      exact h key entry he

theorem getOrCompileBlock_pramSize (jit : JitEngine φ) (compile : Compiler σ φ)
    (startPc stopPc generation : Word) (map : MemoryMap σ) (w : World σ) :
    (jit.getOrCompileBlock compile startPc stopPc generation map w).2.1.pramSize =
      jit.pramSize := by
  simp only [JitEngine.getOrCompileBlock]
  split
  · rfl
  · exact (CacheSystem.retain_cache _ _ _).2

theorem dispatchBlock_size (s : DspState σ) (jit : JitEngine φ) (compile : Compiler σ φ) :
    (s.dispatchBlock jit compile).2.cache.blocks.length = jit.cache.blocks.length ∧
      (s.dispatchBlock jit compile).2.pramSize = jit.pramSize := by
  obtain ⟨-, hlen, hsize, -⟩ := CacheSystem.checkBlock_cache s jit
  have hcache := CacheSystem.getOrCompileBlock_cache (s.checkBlock jit) compile s.pc s.stopPc
    s.pramDirty.generation s.map s.world
  have hpram := getOrCompileBlock_pramSize (s.checkBlock jit) compile s.pc s.stopPc
    s.pramDirty.generation s.map s.world
  unfold DspState.dispatchBlock
  dsimp only
  split
  · exact ⟨hlen, hsize⟩
  · unfold DspState.rebuildBlock
    dsimp only
    split
    · exact ⟨by simp [hcache, hlen], hpram.trans hsize⟩
    · exact ⟨by simp [hcache, hlen], hpram.trans hsize⟩

/-- Looking a block up changes the marks on P memory, and what reading it changes. -/
theorem dispatchBlock_state (s : DspState σ) (jit : JitEngine φ) (compile : Compiler σ φ) :
    ∃ w d, (s.dispatchBlock jit compile).1 = { s with world := w, pramDirty := d } := by
  unfold DspState.dispatchBlock
  dsimp only
  split
  · exact ⟨s.world, s.pramDirty, rfl⟩
  · unfold DspState.rebuildBlock
    dsimp only
    split
    · exact ⟨_, _, rfl⟩
    · exact ⟨_, s.pramDirty, rfl⟩

theorem Sized.stepOne (h : m.Sized) : (m.stepOne e).1.Sized :=
  ⟨h.blocks, (getOrCompileInstruction_length h.lengths _ _ _ _).2⟩

theorem Sized.runBlock (h : m.Sized) : (m.runBlock e).Sized := by
  obtain ⟨hl, hp⟩ := dispatchBlock_size m.dsp m.jit e.compileBlock
  have hs : (m.dsp.dispatchBlock m.jit e.compileBlock).2.cache.blocks.length =
      (m.dsp.dispatchBlock m.jit e.compileBlock).2.pramSize := by rw [hl, hp, h.blocks]
  unfold Machine.runBlock callBlock
  dsimp only
  split
  · exact ⟨hs, h.lengths⟩
  · exact ⟨hs, h.lengths⟩

theorem Sized.dispatch (h : m.Sized) : (m.dispatch e).Sized := by
  unfold Machine.dispatch
  split
  · have hs : (m.stepOne e).1.Sized := h.stepOne
    exact ⟨hs.blocks, hs.lengths⟩
  · exact h.runBlock

theorem Sized.turn (h : m.Sized) : (m.turn e).Sized := by
  unfold Machine.turn
  split
  · exact ⟨h.blocks, h.lengths⟩
  · split
    · exact Sized.dispatch ⟨h.blocks, h.lengths⟩
    · exact ⟨h.blocks, h.lengths⟩
  · exact h.dispatch

theorem Reachable.sized (h : Reachable e map m) : m.Sized := by
  induction h with
  | create world => exact ⟨List.length_replicate, nofun⟩
  | turn _ ih => exact ih.turn
  | step _ ih => exact ih.stepOne
  | restore _ _ _ ih => exact ⟨ih.blocks, ih.lengths⟩
  | grant _ _ ih | wake _ _ _ ih | post _ _ ih | write _ _ _ _ ih => exact ⟨ih.blocks, ih.lengths⟩

/-! The memory map of a machine. -/

/-- A host write changes memory, and the marks on P memory. -/
theorem writeMemory_state (space : MemSpace) (addr v : Word) : ∃ write : MemoryMap σ → World σ →
    World σ, ∀ s : DspState σ, ∃ d, s.writeMemory space addr v =
      { s with world := write s.map s.world, pramDirty := d } := by
  refine ⟨fun map w => map.writeMemory space addr v
    (if space = .p then (map.readPram addr w).2 else w), ?_⟩
  intro s
  unfold writeMemory
  by_cases hp : space = .p
  · simp only [hp, if_true]
    split
    · exact ⟨_, rfl⟩
    · exact ⟨s.pramDirty, rfl⟩
  · simp only [hp, if_false]
    exact ⟨s.pramDirty, rfl⟩

theorem writeMemoryRun_map (s : DspState σ) (space : MemSpace) (addr : Word) (vals : List Word) :
    (s.writeMemoryRun space addr vals).map = s.map := by
  induction vals generalizing s addr with
  | nil => rfl
  | cons v vs ih =>
    obtain ⟨_, hw⟩ := writeMemory_state (σ := σ) space addr v
    obtain ⟨d, hd⟩ := hw s
    exact (ih _ _).trans (by rw [hd])

theorem execute_map (hcall : ∀ f (s : DspState σ), (e.call f s).1.map = s.map) (s : DspState σ)
    (opcode len : Word) (f : φ) : (execute e s opcode f len).1.map = s.map := by
  unfold execute
  cases hg : s.armedGate opcode len with
  | none => exact fetchVector_map _
  | some t =>
    have ht : t.map = s.map := by
      simp only [armedGate] at hg
      split_ifs at hg <;> cases hg <;> rfl
    exact (processPendingInterrupts_map _).trans
      ((advancePc_map _).trans ((hcall _ _).trans ht))

theorem dispatch_map (hcall : ∀ f (s : DspState σ), (e.call f s).1.map = s.map)
    (m : Machine σ φ) : (m.dispatch e).dsp.map = m.dsp.map := by
  have hafter (s : DspState σ) : (afterBlock s).map = s.map :=
    (processPendingInterrupts_map _).trans ((advanceDo_map _).trans s.checkUnimplementedModes_map)
  obtain ⟨w, d, hd⟩ := dispatchBlock_state m.dsp m.jit e.compileBlock
  unfold Machine.dispatch
  split
  · exact execute_map hcall _ _ _ _
  · unfold runBlock callBlock
    dsimp only
    split
    · rw [hd]
    · refine (hafter _).trans ((hcall _ _).trans ?_)
      rw [hd]

/-- Machines over a map keep it, where compiled code does. -/
theorem Reachable.map_eq (hcall : ∀ f (s : DspState σ), (e.call f s).1.map = s.map)
    (h : Reachable e map m) : m.dsp.map = map := by
  induction h with
  | create => rfl
  | turn _ ih =>
    unfold Machine.turn
    split
    · exact ih
    · split
      · exact (dispatch_map hcall _).trans ih
      · exact ih
    · exact (dispatch_map hcall _).trans ih
  | step _ ih => exact (execute_map hcall _ _ _ _).trans ih
  | restore _ _ _ ih => exact ih
  | grant _ _ ih | wake _ _ _ ih | post _ _ ih => exact ih
  | write _ _ _ _ ih => exact (writeMemoryRun_map _ _ _ _).trans ih

/-! The functions in the caches of a machine. -/

/-- What the functions in the caches of a machine are known to be, those of blocks by where they
start. -/
structure Holds (P : Nat → φ → Prop) (Q : Word × Word × Word → φ → Prop) (m : Machine σ φ) :
    Prop where
  blocks : ∀ pc b, m.jit.cache.get pc = some b → P pc b.func
  translations : ∀ key, ∀ t ∈ m.jit.translations key, P key.1.toNat t.func
  instructions : ∀ key entry, m.instrCache key = some entry → Q key entry.1

theorem getOrCompileInstruction_holds {Q : Word × Word × Word → φ → Prop} {cache : InstrCache φ}
    (hQ : ∀ opcode pc nextWord map,
      Q (instrKey pc opcode nextWord) (e.compileInstruction (decode opcode) pc nextWord map))
    (h : ∀ key entry, cache key = some entry → Q key entry.1) (pc opcode nextWord : Word)
    (map : MemoryMap σ) :
    let r := getOrCompileInstruction e cache pc opcode nextWord map
    Q (instrKey pc opcode nextWord) r.1.1 ∧ ∀ key entry, r.2 key = some entry → Q key entry.1 := by
  unfold getOrCompileInstruction
  dsimp only
  cases hc : cache (instrKey pc opcode nextWord) with
  | some entry => exact ⟨h _ _ hc, h⟩
  | none =>
    refine ⟨hQ opcode pc nextWord map, ?_⟩
    intro key entry he
    dsimp only at he
    by_cases hk : key = instrKey pc opcode nextWord
    · rw [hk, Function.update_self, Option.some.injEq] at he
      rw [← he, hk]
      exact hQ opcode pc nextWord map
    · rw [Function.update_of_ne hk] at he
      exact h key entry he

theorem get_of_set {c : CodeCache φ} {pc q : Nat} {x : Option (CompiledBlock φ)}
    {b : CompiledBlock φ} (h : (c.set pc x).get q = some b) :
    (pc = q ∧ x = some b) ∨ c.get q = some b := by
  simp only [CodeCache.get, CodeCache.set, List.getD_eq_getElem?_getD, List.getElem?_set] at h ⊢
  split_ifs at h with h1 h2
  · exact .inl ⟨h1, h⟩
  · cases h
  · exact .inr h

variable {P : Nat → φ → Prop} {jit : JitEngine φ}

theorem checkBlock_holds (s : DspState σ)
    (h : ∀ pc b, jit.cache.get pc = some b → P pc b.func) :
    ∀ pc b, (s.checkBlock jit).cache.get pc = some b → P pc b.func := by
  intro pc b hb
  unfold checkBlock at hb
  cases hg : jit.cache.get s.pc.toNat with
  | none =>
    rw [hg] at hb
    exact h pc b hb
  | some x =>
    simp only [hg] at hb
    split at hb
    · rcases get_of_set hb with ⟨-, hx⟩ | hb
      · cases hx
      · exact h pc b hb
    · rcases get_of_set hb with ⟨rfl, hx⟩ | hb
      · rw [← Option.some.inj hx]
        exact h _ x hg
      · exact h pc b hb

theorem findTranslation_mem {map : MemoryMap σ} {startPc : Word} {ts : List (Translation φ)}
    {w : World σ} {t : Translation φ} (h : (map.findTranslation startPc ts w).1 = some t) :
    t ∈ ts := by
  induction ts generalizing w with
  | nil => cases h
  | cons u us ih =>
    simp only [MemoryMap.findTranslation] at h
    split at h
    · rw [← Option.some.inj h]
      exact List.mem_cons_self
    · exact List.mem_cons_of_mem u (ih h)

theorem getOrCompileBlock_holds {compile : Compiler σ φ}
    (hP : ∀ startPc stopPc generation map w,
      P startPc.toNat (compile startPc stopPc generation map w).1.func)
    (ht : ∀ key, ∀ t ∈ jit.translations key, P key.1.toNat t.func)
    (startPc stopPc generation : Word) (map : MemoryMap σ) (w : World σ) :
    let r := jit.getOrCompileBlock compile startPc stopPc generation map w
    P startPc.toNat r.1.func ∧ ∀ key, ∀ t ∈ r.2.1.translations key, P key.1.toNat t.func := by
  unfold JitEngine.getOrCompileBlock
  dsimp only
  split
  · rename_i t w' hf
    exact ⟨ht _ t (findTranslation_mem (congrArg Prod.fst hf)), ht⟩
  · refine ⟨hP _ _ _ _ _, ?_⟩
    intro key u hu
    rcases CacheSystem.retain_mem hu with hu | ⟨rfl, rfl⟩
    · exact ht key u hu
    · exact hP _ _ _ _ _

theorem dispatchBlock_holds {compile : Compiler σ φ}
    (hP : ∀ startPc stopPc generation map w,
      P startPc.toNat (compile startPc stopPc generation map w).1.func) (s : DspState σ)
    (hb : ∀ pc b, jit.cache.get pc = some b → P pc b.func)
    (ht : ∀ key, ∀ t ∈ jit.translations key, P key.1.toNat t.func) :
    (∀ pc b, (s.dispatchBlock jit compile).2.cache.get pc = some b → P pc b.func) ∧
      ∀ key, ∀ t ∈ (s.dispatchBlock jit compile).2.translations key, P key.1.toNat t.func := by
  have hc := checkBlock_holds s hb
  have ht' : ∀ key, ∀ t ∈ (s.checkBlock jit).translations key, P key.1.toNat t.func := by
    rw [(CacheSystem.checkBlock_cache s jit).2.2.2]
    exact ht
  obtain ⟨hblock, htr⟩ := getOrCompileBlock_holds hP ht' s.pc s.stopPc s.pramDirty.generation s.map
    s.world
  have hcache := CacheSystem.getOrCompileBlock_cache (s.checkBlock jit) compile s.pc s.stopPc
    s.pramDirty.generation s.map s.world
  unfold dispatchBlock
  dsimp only
  split
  · exact ⟨hc, ht'⟩
  · unfold rebuildBlock
    dsimp only
    split
    · refine ⟨?_, htr⟩
      intro pc b h
      rcases get_of_set h with ⟨rfl, hx⟩ | h
      · rw [← Option.some.inj hx]
        exact hblock
      · have hk := (CodeCache.get_invalidateRange h).1
        rw [hcache] at hk
        exact hc pc b hk
    · refine ⟨?_, htr⟩
      intro pc b h
      rcases get_of_set h with ⟨rfl, hx⟩ | h
      · rw [← Option.some.inj hx]
        exact hblock
      · rw [hcache] at h
        exact hc pc b h

/-- The functions in the caches come from the compilers. -/
theorem Reachable.holds {Q : Word × Word × Word → φ → Prop}
    (hP : ∀ startPc stopPc generation map w,
      P startPc.toNat (e.compileBlock startPc stopPc generation map w).1.func)
    (hQ : ∀ opcode pc nextWord map,
      Q (instrKey pc opcode nextWord) (e.compileInstruction (decode opcode) pc nextWord map))
    (h : Reachable e map m) : m.Holds P Q := by
  have hstep (m : Machine σ φ) (h : m.Holds P Q) : (m.stepOne e).1.Holds P Q :=
    ⟨h.blocks, h.translations, (getOrCompileInstruction_holds hQ h.instructions _ _ _ _).2⟩
  have hdispatch (m : Machine σ φ) (h : m.Holds P Q) : (m.dispatch e).Holds P Q := by
    unfold Machine.dispatch
    split
    · have hs := hstep m h
      exact ⟨hs.blocks, hs.translations, hs.instructions⟩
    · obtain ⟨hb, ht⟩ := dispatchBlock_holds hP m.dsp h.blocks h.translations
      unfold Machine.runBlock callBlock
      dsimp only
      split
      · exact ⟨hb, ht, h.instructions⟩
      · exact ⟨hb, ht, h.instructions⟩
  induction h with
  | create world =>
    refine ⟨?_, nofun, nofun⟩
    intro pc b h
    have hn : (Machine.create map world : Machine σ φ).jit.cache.get pc = none :=
      CodeCache.get_new _ _
    rw [hn] at h
    cases h
  | turn _ ih =>
    unfold Machine.turn
    split
    · exact ⟨ih.blocks, ih.translations, ih.instructions⟩
    · split
      · exact hdispatch _ ⟨ih.blocks, ih.translations, ih.instructions⟩
      · exact ⟨ih.blocks, ih.translations, ih.instructions⟩
    · exact hdispatch _ ih
  | step _ ih => exact hstep _ ih
  | restore _ _ _ ih => exact ⟨ih.blocks, ih.translations, ih.instructions⟩
  | grant _ _ ih | wake _ _ _ ih | post _ _ ih | write _ _ _ _ ih =>
    exact ⟨ih.blocks, ih.translations, ih.instructions⟩

/-- Where the compiler works from the emitted code, an entry of the instruction cache is what every
fetch that finds it would compile to. -/
theorem Reachable.instrCache_current {compile : Emit Unit → φ}
    (he : ∀ inst pc nextWord map,
      e.compileInstruction inst pc nextWord map = compile (emitInstruction inst pc nextWord))
    (h : Reachable e map m) {pc opcode nextWord : Word} {entry : φ × Word}
    (hentry : m.instrCache (instrKey pc opcode nextWord) = some entry) :
    entry = (compile (emitInstruction (decode opcode) pc nextWord),
      BitVec.ofNat 32 (instructionLength (decode opcode))) := by
  have hcompiled : m.Holds (fun _ _ => True) fun key f => ∀ pc opcode nextWord,
      instrKey pc opcode nextWord = key →
        f = compile (emitInstruction (decode opcode) pc nextWord) := by
    refine h.holds (fun _ _ _ _ _ => trivial) fun opcode pc nextWord map => ?_
    intro pc' opcode' nextWord' hk
    rw [he, emitInstruction_of_key hk]
  exact Prod.ext (hcompiled.instructions _ _ hentry pc opcode nextWord rfl)
    (h.sized.lengths _ _ hentry)

end Machine

end Dsp56300
