import Dsp56300.Emu.CoreWidths
import Dsp56300.Emu.HostRuns
import Dsp56300.Emu.OpEngine

/-! Widths are kept by compiled code and by hosts, over whole runs. -/

namespace Dsp56300

open Emitter Lib.Paths Lib.Programs Lib.Runs

variable {σ φ : Type}

namespace DspState.Within

open DspState

variable {s : DspState σ}

/-! The host. -/

theorem addInterrupt (h : s.Within) (inter : Nat) : (Machine.addInterrupt inter s).Within :=
  h.setUnlatched (InterruptPipeline.add_latched ..)

theorem writeMemory (h : s.Within) (space : MemSpace) (addr v : Word) :
    (s.writeMemory space addr v).Within := by
  have hread := h.readP addr
  unfold DspState.writeMemory
  by_cases hp : space = .p
  · simp only [hp, if_true]
    split
    · exact ⟨hread.registers, hread.slots, hread.pc, hread.interrupts,
        hread.memory.writeMemory .p addr v⟩
    · exact ⟨hread.registers, hread.slots, hread.pc, hread.interrupts,
        hread.memory.writeMemory .p addr v⟩
  · simp only [hp, if_false]
    exact ⟨h.registers, h.slots, h.pc, h.interrupts, h.memory.writeMemory space addr v⟩

theorem writeMemoryRun (h : s.Within) (space : MemSpace) (addr : Word) (vals : List Word) :
    (s.writeMemoryRun space addr vals).Within := by
  induction vals generalizing s addr with
  | nil => exact h
  | cons v vs ih => exact ih (h.writeMemory space addr v) (addr + 1)

end DspState.Within

/-! Reading P memory for the translator. -/

namespace MemoryMap.Holds

variable {map : MemoryMap σ} {w : World σ}

theorem readWords (h : map.Holds w) (pc : Word) (n : Nat) :
    map.Holds (map.readWords pc n w).2 := by
  induction n generalizing pc w with
  | zero => exact h
  | succ n ih => exact ih (h.readMemory .p pc) (pc + 1)

theorem pramMatches (h : map.Holds w) (pc : Word) (words : List Word) :
    map.Holds (map.pramMatches pc words w).2 := by
  induction words generalizing pc w with
  | nil => exact h
  | cons v vs ih =>
    have hread := h.readMemory .p pc
    unfold MemoryMap.pramMatches
    dsimp only
    split
    · exact ih hread (pc + 1)
    · exact hread

theorem findTranslation (h : map.Holds w) (startPc : Word) (ts : List (Translation φ)) :
    map.Holds (map.findTranslation startPc ts w).2 := by
  induction ts generalizing w with
  | nil => exact h
  | cons t ts ih =>
    have hmatched := h.pramMatches startPc t.words
    unfold MemoryMap.findTranslation
    dsimp only
    split
    · exact hmatched
    · exact ih hmatched

end MemoryMap.Holds

/-! Compiled code. -/

namespace Translator

/-- A function compiled for P memory at `pc` runs the block that memory holds there. -/
def RunsBlock (e : Translator σ φ) (pc : Nat) (f : φ) : Prop :=
  ∃ (map : MemoryMap σ) (w : World σ) (startPc stopPc generation : Word) (maxLen : Nat)
    (code : BlockCode), startPc.toNat = pc ∧
      f = (e.compileBlock startPc stopPc generation map w).1.func ∧ 0 < maxLen ∧
      (map.pram w).blockCode pc maxLen stopPc.toNat = some code ∧ e.Runs f code

def RunsInstruction (e : Translator σ φ) (f : φ) : Prop :=
  ∃ opcode pc nextWord, e.Runs f (instructionCode opcode pc nextWord)

/-- What the code generator is relied on for. -/
structure Faithful (e : Translator σ φ) : Prop where
  instruction : ∀ opcode pc nextWord map,
    e.Runs (e.compileInstruction (decode opcode) pc nextWord map)
      (instructionCode opcode pc nextWord)
  block : ∀ startPc stopPc generation (map : MemoryMap σ) w, ∃ maxLen code, 0 < maxLen ∧
    (map.pram w).blockCode startPc.toNat maxLen stopPc.toNat = some code ∧
      e.Runs (e.compileBlock startPc stopPc generation map w).1.func code
  reads : ∀ startPc stopPc generation (map : MemoryMap σ) w, map.Holds w →
    map.Holds (e.compileBlock startPc stopPc generation map w).2

theorem Faithful.runsBlock {e : Translator σ φ} (h : e.Faithful)
    (startPc stopPc generation : Word) (map : MemoryMap σ) (w : World σ) :
    e.RunsBlock startPc.toNat (e.compileBlock startPc stopPc generation map w).1.func := by
  obtain ⟨maxLen, code, hpos, hcode, hruns⟩ := h.block startPc stopPc generation map w
  exact ⟨map, w, startPc, stopPc, generation, maxLen, code, rfl, rfl, hpos, hcode, hruns⟩

end Translator

theorem opEngine_faithful : (opEngine (σ := σ)).Faithful where
  instruction := opEngine_instruction
  block startPc stopPc _ map w := by
    obtain ⟨code, hcode⟩ := (map.pram w).blockCode_defined startPc.toNat maxBlockLen stopPc.toNat
    exact ⟨maxBlockLen, code, by decide, hcode, opEngine_block hcode⟩
  reads _ _ _ _ _ h := h

/-! Machines. -/

namespace DspState.Within

variable {s t : DspState σ}

theorem armedGate (h : s.Within) {opcode len : Word} (ht : s.armedGate opcode len = some t) :
    t.Within := by
  simp only [DspState.armedGate] at ht
  split_ifs at ht <;> cases ht
  · exact h.setUnlatched rfl
  · exact h.setUnlatched rfl
  · exact h

theorem dispatchBlock (h : s.Within) {e : Translator σ φ} (he : e.Faithful) (jit : JitEngine φ) :
    (s.dispatchBlock jit e.compileBlock).1.Within := by
  have hfound := h.memory.findTranslation s.pc ((s.checkBlock jit).translations (s.pc, s.stopPc))
  have hworld : s.map.Holds ((s.checkBlock jit).getOrCompileBlock e.compileBlock s.pc s.stopPc
      s.pramDirty.generation s.map s.world).2.2 := by
    unfold JitEngine.getOrCompileBlock
    split
    · rename_i hf
      rw [hf] at hfound
      exact hfound
    · rename_i hf
      rw [hf] at hfound
      exact (he.reads _ _ _ _ _ hfound).readWords _ _
  have hread : DspState.Within { s with
      world := ((s.checkBlock jit).getOrCompileBlock e.compileBlock s.pc s.stopPc
        s.pramDirty.generation s.map s.world).2.2 } :=
    ⟨h.registers, h.slots, h.pc, h.interrupts, hworld⟩
  unfold DspState.dispatchBlock
  dsimp only
  split
  · exact h
  · unfold rebuildBlock
    dsimp only
    split
    · exact hread.same ⟨rfl, rfl, rfl, rfl, id⟩
    · exact hread

theorem execute (h : s.Within) {e : Translator σ φ} {f : φ} (hf : e.RunsInstruction f)
    (opcode len : Word) : (Machine.execute e s opcode f len).1.Within := by
  unfold Machine.execute
  cases hg : s.armedGate opcode len with
  | none => exact h.deliverArmedFault.same ⟨rfl, rfl, rfl, rfl, id⟩
  | some t =>
    obtain ⟨_, _, _, hruns⟩ := hf
    have hcalled := hruns.within (s := { t with pcAdvance := len })
      ((h.armedGate hg).same ⟨rfl, rfl, rfl, rfl, id⟩)
    exact hcalled.advancePc.processPendingInterrupts.same ⟨rfl, rfl, rfl, rfl, id⟩

theorem afterBlock (h : s.Within) : (Machine.afterBlock s).Within :=
  h.checkUnimplementedModes.advanceDo.processPendingInterrupts

end DspState.Within

namespace Machine

variable {e : Translator σ φ} {map : MemoryMap σ} {m t : Machine σ φ}

/-- The functions in the caches of a machine run the code they were generated from. -/
theorem Reachable.runs (he : e.Faithful) (h : Reachable e map m) :
    m.Holds e.RunsBlock fun _ => e.RunsInstruction :=
  h.holds he.runsBlock fun opcode pc nextWord map =>
    ⟨opcode, pc, nextWord, he.instruction opcode pc nextWord map⟩

/-- A machine that a host came to, whose core is within its widths. -/
structure Sound (e : Translator σ φ) (map : MemoryMap σ) (m : Machine σ φ) : Prop where
  reachable : Reachable e map m
  within : m.dsp.Within

namespace Sound

variable (he : e.Faithful)

include he

theorem stepOne (h : m.Sound e map) : (m.stepOne e).1.Sound e map := by
  have hfetched : (fetch m.dsp).2.Within :=
    (h.within.readP m.dsp.pc).readP (maskPc (m.dsp.pc + 1))
  have hfound := (getOrCompileInstruction_holds (e := e) (Q := fun _ => e.RunsInstruction)
    (fun opcode pc nextWord map => ⟨opcode, pc, nextWord, he.instruction opcode pc nextWord map⟩)
    (h.reachable.runs he).instructions (fetch m.dsp).2.pc (fetch m.dsp).1.1 (fetch m.dsp).1.2
    (fetch m.dsp).2.map).1
  exact ⟨h.reachable.step, hfetched.execute hfound _ _⟩

theorem dispatch (h : m.Sound e map) : (m.dispatch e).dsp.Within := by
  unfold Machine.dispatch
  split
  · exact (h.stepOne he).within.same ⟨rfl, rfl, rfl, rfl, id⟩
  · have hlooked := h.within.dispatchBlock he m.jit
    have hruns := (dispatchBlock_holds (P := e.RunsBlock) he.runsBlock m.dsp
      (h.reachable.runs he).blocks (h.reachable.runs he).translations).1
    unfold runBlock callBlock
    dsimp only
    split
    · exact hlooked
    · rename_i block hblock
      obtain ⟨_, _, _, _, _, _, _, -, -, -, -, hcode⟩ := hruns _ block hblock
      refine DspState.Within.afterBlock ?_
      exact (hcode.within hlooked).same ⟨rfl, rfl, rfl, rfl, id⟩

theorem turn (h : m.Sound e map) : (m.turn e).Sound e map := by
  refine ⟨h.reachable.turn, ?_⟩
  unfold Machine.turn
  split
  · exact h.within.same ⟨rfl, rfl, rfl, rfl, id⟩
  · rename_i hp
    split
    · rename_i hc
      exact dispatch he ⟨h.reachable.wake hp hc, h.within.same ⟨rfl, rfl, rfl, rfl, id⟩⟩
    · exact h.within.same ⟨rfl, rfl, rfl, rfl, id⟩
  · exact h.dispatch he

theorem run {cycles : Int} (hr : Runs e cycles m t) (h : m.Sound e map) : t.Sound e map := by
  refine Lib.Loops.Ends.invariant (fun s u hs hu => ?_) hr
    ⟨h.reachable.grant cycles, h.within.same ⟨rfl, rfl, rfl, rfl, id⟩⟩
  unfold iterate at hu
  split at hu
  · cases hu
    exact hs.turn he
  · cases hu

theorem host {op : HostOp} (hs : HostOp.Step e m op t) (h : m.Sound e map) : t.Sound e map := by
  cases hs with
  | run hr => exact h.run he hr
  | step => exact h.stepOne he
  | post => exact ⟨h.reachable.post _, h.within.addInterrupt _⟩
  | write => exact ⟨h.reachable.write _ _ _, h.within.writeMemoryRun _ _ _⟩

end Sound

theorem sound_create {world : World σ} (h : map.Holds world) :
    (Machine.create map world : Machine σ φ).Sound e map := ⟨.create world, DspState.within_new h⟩

/-- Calling a cached block does what the stretches do one at a time that the P memory it was
compiled from holds where it starts. -/
def CallsStretches (e : Translator σ φ) (m : Machine σ φ) : Prop :=
  ∀ pc b, m.jit.cache.get pc = some b →
    ∃ (map : MemoryMap σ) (w : World σ) (startPc stopPc generation : Word) (maxLen : Nat)
      (code : BlockCode) (left : Bool) (u : Walk (DspState σ)), startPc.toNat = pc ∧
      b.func = (e.compileBlock startPc stopPc generation map w).1.func ∧ 0 < maxLen ∧
      (map.pram w).blockCode pc maxLen stopPc.toNat = some code ∧
      Path stretchByStretch code (.start (m.dsp.withBudget 0)) left u ∧
      (e.call b.func m.dsp).1 = u.point.state.withBudget m.dsp.cycleBudget

/-- Whatever a host does to a core it created, in whatever order, every register keeps its width,
stack slots, PC, the latches of the interrupt pipeline and memory words their bits, and what a cached
block does when it is called is what its stretches do one at a time. -/
theorem widths_kept (he : e.Faithful) {world : World σ} (hw : map.Holds world) {ops : List HostOp}
    (hr : Run (HostOp.Step e) (create map world) ops t) : t.dsp.Within ∧ t.CallsStretches e := by
  have hsound : t.Sound e map :=
    hr.invariant (fun _ _ _ hs hstep => hs.host he hstep) (sound_create hw)
  refine ⟨hsound.within, fun pc b hb => ?_⟩
  obtain ⟨map, w, startPc, stopPc, generation, maxLen, code, hpc, hfunc, hpos, hcode, hruns⟩ :=
    (hsound.reachable.runs he).blocks pc b hb
  obtain ⟨left, u, hu, hcall, -⟩ := hruns.stretched hsound.within
  exact ⟨map, w, startPc, stopPc, generation, maxLen, code, left, u, hpc, hfunc, hpos, hcode, hu,
    hcall⟩

/-- A branch over an addition, a MAC, and a branch to itself. -/
def skipProgram : List Word := [0x058402, 0x200040, 0x2000D2, 0x050C00]

/-- P memory of 256 words, all clear. -/
def smallMap : MemoryMap Unit := ⟨[], [], [⟨0, 0x100, .buffer 0 0⟩]⟩

def smallMachine : Machine Unit OpFunc := create smallMap ⟨fun _ => 0, ()⟩

theorem smallMap_holds : smallMap.Holds ⟨fun _ => 0, ()⟩ := by
  refine ⟨fun _ => Nat.two_pow_pos 24, fun space r hr f g hk => ?_⟩
  have hbuffer : r.kind = .buffer 0 0 := by
    cases space with
    | p => exact congrArg MemoryRegion.kind (List.mem_singleton.mp hr)
    | x | y => exact absurd hr List.not_mem_nil
  rw [hbuffer] at hk
  cases hk

/-- The block at 0, once the program is there. -/
def skipTurn : Machine Unit OpFunc :=
  ((smallMachine.withDsp (·.writeMemoryRun .p 0 skipProgram)).grant 9).turn opEngine

theorem skipTurn_ends : skipTurn.dsp.cycleBudget ≤ 0 ∧ (skipTurn.jit.cache.get 0).isSome := by
  decide +kernel

theorem widths_kept_skip : (skipTurn.jit.cache.get 0).isSome ∧ skipTurn.dsp.Within ∧
    skipTurn.CallsStretches opEngine := by
  obtain ⟨hspent, hcached⟩ := skipTurn_ends
  have hruns : Runs opEngine 9 (smallMachine.withDsp (·.writeMemoryRun .p 0 skipProgram))
      skipTurn := by
    refine (Lib.Loops.ends_of_some ?_).mpr ((Lib.Loops.ends_of_none ?_).mpr rfl)
    · exact if_pos ⟨by decide, rfl⟩
    · exact if_neg fun h => absurd h.1 (Int.not_lt.mpr hspent)
  exact ⟨hcached, widths_kept opEngine_faithful smallMap_holds
    (.cons .write (.cons (.run hruns) (.nil _)))⟩

end Machine

end Dsp56300
