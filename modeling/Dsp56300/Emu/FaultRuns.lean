import Dsp56300.Emu.FaultTrace
import Dsp56300.Emu.HostRuns

/-! The runs of a machine as the events of a trace, and when a hint can stand at all. -/

namespace Dsp56300

open Emitter Lib.Paths Lib.Programs Lib.Programs.Code Lib.Runs FaultTrace

variable {σ φ α : Type}

/-! What hosts do to a core. -/

/-- The function does to a core what the event does to a trace over it. -/
def Translator.Follows (e : Translator σ φ) (q : QuietPaths σ) (func : φ) (ev : Event) : Prop :=
  ∀ t : FaultTrace σ, ∃ u, Step q t ev u ∧ u.dsp = (e.call func t.dsp).1

/-- Compiled code does what the code does that it was generated from. -/
structure Translator.Traced (e : Translator σ φ) (q : QuietPaths σ) : Prop where
  instruction : ∀ opcode pc nextWord map,
    e.Follows q (e.compileInstruction (decode opcode) pc nextWord map)
      (.instruction opcode pc nextWord)
  block : ∀ startPc stopPc generation map w, ∃ p maxLen,
    e.Follows q (e.compileBlock startPc stopPc generation map w).1.func
      (.block p startPc.toNat maxLen stopPc.toNat)

theorem DspState.armedGate_hint {s t : DspState σ} {opcode len : Word}
    (h : s.armedGate opcode len = some t) : t.faultBudgetHint = s.faultBudgetHint := by
  unfold armedGate at h
  by_cases ha : s.interrupts.state = .armed ∧ ¬ s.loopRep
  · rw [if_pos ha] at h
    exact Option.some.inj (Option.ite_none_left_eq_some.mp h).2 ▸ rfl
  · rw [if_neg ha] at h
    exact Option.some.inj h ▸ rfl

theorem DspState.writeMemoryRun_hint (s : DspState σ) (space : MemSpace) (addr : Word)
    (vals : List Word) :
    (s.writeMemoryRun space addr vals).faultBudgetHint = s.faultBudgetHint := by
  induction vals generalizing s addr with
  | nil => rfl
  | cons v vs ih =>
    obtain ⟨_, hw⟩ := Machine.writeMemory_state (σ := σ) space addr v
    obtain ⟨d, hd⟩ := hw s
    exact (ih _ _).trans (by rw [hd])

namespace Machine

variable {e : Translator σ φ} {q : QuietPaths σ} {map : MemoryMap σ} {m n : Machine σ φ}
  {s d : DspState σ} {t u : FaultTrace σ}

/-- A trace over `s` goes on to one over `d`. -/
def Traces (q : QuietPaths σ) (s d : DspState σ) : Prop :=
  ∀ t : FaultTrace σ, t.dsp = s → ∃ es u, Run (Step q) t es u ∧ u.dsp = d

namespace Traces

theorem refl : Traces q s s := fun t ht => ⟨[], t, .nil t, ht⟩

theorem trans {v : DspState σ} (h : Traces q s d) (h' : Traces q d v) : Traces q s v := by
  intro t ht
  obtain ⟨es, u, hu, hd⟩ := h t ht
  obtain ⟨fs, w, hw, hv⟩ := h' u hd
  exact ⟨es ++ fs, w, hu.append hw, hv⟩

theorem event (ev : Event) (h : ∀ t : FaultTrace σ, t.dsp = s → ∃ u, Step q t ev u ∧ u.dsp = d) :
    Traces q s d := by
  intro t ht
  obtain ⟨u, hu, hd⟩ := h t ht
  exact ⟨[ev], u, .cons hu (.nil u), hd⟩

theorem other (h : d.faultBudgetHint = s.faultBudgetHint) : Traces q s d :=
  event .other fun t ht => ⟨t.update d, ⟨d, by rw [h, ht], rfl⟩, rfl⟩

theorem call {func : φ} {ev : Event} (h : e.Follows q func ev) : Traces q s (e.call func s).1 :=
  event ev fun t ht => by
    obtain ⟨u, hu, hd⟩ := h t
    exact ⟨u, hu, hd.trans (by rw [ht])⟩

theorem loopEnd : Traces q s s.advanceDo :=
  event .loopEnd fun t ht => ⟨t.loopEnd, rfl, congrArg DspState.advanceDo ht⟩

theorem annul : Traces q s s.deliverArmedFault :=
  event .annul fun t ht => ⟨t.annul, rfl, congrArg DspState.deliverArmedFault ht⟩

theorem tick : Traces q s s.processPendingInterrupts :=
  event .tick fun t ht => ⟨t.tick, rfl, congrArg DspState.processPendingInterrupts ht⟩

theorem advancePc : Traces q s s.advancePc :=
  (other (fallThrough_hint s)).trans loopEnd

theorem afterBlock : Traces q s (Machine.afterBlock s) :=
  ((other (checkUnimplementedModes_hint s)).trans loopEnd).trans tick

/-- An instruction is annulled, or its code run, PC advanced and the pipeline ticked. -/
theorem execute {func : φ} {ev : Event} (h : e.Follows q func ev) (opcode len : Word) :
    Traces q s (Machine.execute e s opcode func len).1 := by
  cases hg : s.armedGate opcode len with
  | none =>
    unfold Machine.execute
    rw [hg]
    exact annul.trans (other rfl)
  | some v =>
    obtain ⟨n, hn⟩ := execute_of_gate (e := e) hg func
    have hhint := DspState.armedGate_hint hg
    have hgate : Traces q s { v with pcAdvance := len } := other hhint
    rw [hn]
    exact (((hgate.trans (call h)).trans advancePc).trans tick).trans (other rfl)

end Traces

section Hosts

variable (he : e.Traced q)

include he

/-- What the functions in the caches follow. -/
theorem Reachable.follows (h : Reachable e map m) :
    m.Holds (fun _ f => ∃ ev, e.Follows q f ev) (fun _ f => ∃ ev, e.Follows q f ev) :=
  h.holds
    (fun startPc stopPc generation map w =>
      let ⟨_, _, hf⟩ := he.block startPc stopPc generation map w
      ⟨_, hf⟩)
    fun opcode pc nextWord map => ⟨_, he.instruction opcode pc nextWord map⟩

theorem Reachable.traces_stepOne (h : Reachable e map m) :
    Traces q m.dsp (m.stepOne e).1.dsp := by
  have hcompiled (opcode pc nextWord : Word) (map : MemoryMap σ) :
      ∃ ev, e.Follows q (e.compileInstruction (decode opcode) pc nextWord map) ev :=
    ⟨_, he.instruction opcode pc nextWord map⟩
  obtain ⟨ev, hev⟩ := (getOrCompileInstruction_holds (e := e)
    (Q := fun _ f => ∃ ev, e.Follows q f ev) hcompiled (h.follows he).instructions
    (fetch m.dsp).2.pc (fetch m.dsp).1.1 (fetch m.dsp).1.2 (fetch m.dsp).2.map).1
  have hfetched : Traces q m.dsp (fetch m.dsp).2 := .other rfl
  exact hfetched.trans (.execute hev _ _)

theorem Reachable.traces_dispatch (h : Reachable e map m) :
    Traces q m.dsp (m.dispatch e).dsp := by
  unfold Machine.dispatch
  split
  · exact (h.traces_stepOne he).trans (.other rfl)
  · have hfollows := (dispatchBlock_holds (P := fun _ f => ∃ ev, e.Follows q f ev)
      (fun startPc stopPc generation map w =>
        let ⟨_, _, hf⟩ := he.block startPc stopPc generation map w
        ⟨_, hf⟩)
      m.dsp (h.follows he).blocks (h.follows he).translations).1
    have hlooked : Traces q m.dsp (m.dsp.dispatchBlock m.jit e.compileBlock).1 := by
      obtain ⟨w, d, hd⟩ := dispatchBlock_state m.dsp m.jit e.compileBlock
      rw [hd]
      exact .other rfl
    unfold runBlock callBlock
    dsimp only
    split
    · exact hlooked
    · rename_i block hblock
      obtain ⟨ev, hev⟩ := hfollows _ block hblock
      change Traces q m.dsp (Machine.afterBlock _)
      refine Traces.trans ?_ .afterBlock
      exact (hlooked.trans (.call hev)).trans (.other rfl)

theorem Reachable.traces_turn (h : Reachable e map m) : Traces q m.dsp (m.turn e).dsp := by
  unfold Machine.turn
  split
  · exact .other rfl
  · rename_i hp
    split
    · rename_i hc
      have hwoken : Traces q m.dsp { m.dsp with powerState := .normal } := .other rfl
      exact hwoken.trans ((h.wake hp hc).traces_dispatch he)
    · exact .other rfl
  · exact h.traces_dispatch he

/-- A machine that a host came to, and a trace that came with it. -/
structure Accompanied (e : Translator σ φ) (q : QuietPaths σ) (map : MemoryMap σ)
    (s : DspState σ) (m : Machine σ φ) : Prop where
  reachable : Reachable e map m
  traces : Traces q s m.dsp

theorem Accompanied.host {op : HostOp} (hs : HostOp.Step e m op n)
    (h : Accompanied e q map s m) : Accompanied e q map s n := by
  cases hs with
  | run hr =>
    refine Lib.Loops.Ends.invariant (fun v w hv hw => ?_) hr
      ⟨h.reachable.grant _, h.traces.trans (.other rfl)⟩
    unfold iterate at hw
    split at hw
    · cases hw
      exact ⟨hv.reachable.turn, hv.traces.trans (hv.reachable.traces_turn he)⟩
    · cases hw
  | step => exact ⟨h.reachable.step, h.traces.trans (h.reachable.traces_stepOne he)⟩
  | post => exact ⟨h.reachable.post _, h.traces.trans (.other rfl)⟩
  | write =>
    exact ⟨h.reachable.write _ _ _, h.traces.trans (.other (DspState.writeMemoryRun_hint _ _ _ _))⟩

/-- Whatever a host does to a core it created is a run of events from reset. -/
theorem hosts_trace {world : World σ} {ops : List HostOp}
    (hr : Run (HostOp.Step e) (create map world) ops m) :
    ∃ es t, Run (Step q) (FaultTrace.reset map world) es t ∧ t.dsp = m.dsp := by
  have h : Accompanied e q map (.new map world) m :=
    hr.invariant (fun _ _ _ h hstep => h.host he hstep) ⟨.create world, .refl⟩
  exact h.traces (FaultTrace.reset map world) rfl

end Hosts

end Machine

/-! Stepping code that leaves the hint alone. -/

/-- Operations that neither spill a budget nor record a spilled one. -/
def Emitter.Op.Hintless : (γ : Type) → Op γ → Prop
  | _, .readRegForMove idx => idx ≠ Reg.ssh.val
  | _, .writeRegForMove idx _ => idx ≠ Reg.ssh.val ∧ idx ≠ Reg.sp.val
  | _, .spillFaultBudget _ | _, .readSsh | _, .writeSshTos _ | _, .writeSp _ => False
  | _, _ => True

namespace DspState

theorem emitStackPush_hint (s : DspState σ) (ssh ssl words : Word) :
    (s.emitStackPush ssh ssl words).faultBudgetHint = s.faultBudgetHint := by
  have hreg (s : DspState σ) (r : RegIdx) (v : Word) :
      (s.storeReg r v).faultBudgetHint = s.faultBudgetHint := rfl
  have hslot (s : DspState σ) (h : Fin 2) (i : Fin 16) (v : Word) :
      (s.setSlot h i v).faultBudgetHint = s.faultBudgetHint := rfl
  simp only [emitStackPush, hreg, hslot, apply_ite DspState.faultBudgetHint]
  exact ite_self _

theorem emitStackPop_hint (s : DspState σ) (words : Word) :
    (s.emitStackPop words).2.faultBudgetHint = s.faultBudgetHint := by
  have hreg (s : DspState σ) (r : RegIdx) (v : Word) :
      (s.storeReg r v).faultBudgetHint = s.faultBudgetHint := rfl
  simp only [emitStackPop, hreg, apply_ite DspState.faultBudgetHint]
  exact ite_self _

/-- A loop end may consume a hint, and makes none. -/
theorem advanceDo_hint {s : DspState σ} (h : s.faultBudgetHint = invalidFaultBudget) :
    s.advanceDo.faultBudgetHint = invalidFaultBudget := by
  have hpop (v : DspState σ) (hv : v.faultBudgetHint = invalidFaultBudget) :
      v.stackPop.2.faultBudgetHint = invalidFaultBudget := by
    rw [stackPop_hint, hv, ite_self]
  by_cases he : s.EndsLoop
  · rw [advanceDo_of_endsLoop he]
    exact hpop s.countedDown.unstackSr (hpop s.countedDown h)
  · exact (advanceDo_of_not_endsLoop he).1.trans h

theorem RecordsIf.noHint {c : Prop} {s : DspState σ} (h : RecordsIf c invalidFaultBudget s) :
    s.faultBudgetHint = invalidFaultBudget := by
  by_cases hc : c
  · exact h.consumed hc
  · exact h.stands hc

end DspState

namespace FaultTrace

variable {q : QuietPaths σ} {t u : FaultTrace σ}

set_option linter.constructorNameAsVariable false in
theorem exec_hint {γ : Type} {op : Op γ} (h : op.Hintless) (t : FaultTrace σ) :
    (exec q γ op t).2.dsp.faultBudgetHint = t.dsp.faultBudgetHint := by
  cases op with
  | stackPush ssh ssl budget => exact t.dsp.emitStackPush_hint _ _ _
  | stackPop budget => exact t.dsp.emitStackPop_hint _
  | readRegForMove idx =>
    change (t.readRegForMove q idx).2.dsp.faultBudgetHint = _
    rw [readRegForMove, if_neg h]
    exact q.hint _ _ _
  | writeRegForMove idx v =>
    change (t.writeRegForMove q idx v).dsp.faultBudgetHint = _
    rw [writeRegForMove, if_neg h.1, if_neg h.2]
    split
    · rfl
    · exact q.hint _ _ _
  | setDecodeLen | setFaultAnchorBump | writeSsl => rfl
  | spillFaultBudget | readSsh | writeSshTos | writeSp => exact h.elim
  | _ => exact q.hint _ _ _

/-- Code of such operations leaves the hint as it stands. -/
theorem Emits.hint {x : Emit α} (hx : x.All Op.Hintless) {a : α} (h : t.Emits q x a u) :
    u.dsp.faultBudgetHint = t.dsp.faultBudgetHint := by
  have hr := All.run (I := fun v : FaultTrace σ => v.dsp.faultBudgetHint = t.dsp.faultBudgetHint)
    (fun γ op v hop hv => (exec_hint (q := q) hop v).trans hv) hx (s := t.enter) rfl
  rw [h] at hr
  exact hr

/-- A step that neither spills nor runs a block. -/
def Event.Hintless : Event → Prop
  | .instruction opcode pc nextWord =>
    (emitInstruction (decode opcode) pc nextWord).All Op.Hintless
  | .block _ _ _ _ => False
  | .loopEnd | .annul | .tick | .other => True

/-- No hint stands, and no stack error inherited one. -/
structure Clean (t : FaultTrace σ) : Prop where
  hint : t.dsp.faultBudgetHint = invalidFaultBudget
  own : t.AllOwn

theorem Clean.step {e : Event} (he : e.Hintless) (h : Step q t e u) (ht : t.Clean) : u.Clean := by
  have hown : u.AllOwn := (step_allOwn h).mpr ⟨ht.own, fun _ => ht.hint⟩
  refine ⟨?_, hown⟩
  cases e with
  | instruction opcode pc nextWord => exact (Emits.hint he h).trans ht.hint
  | block => exact he.elim
  | loopEnd =>
    subst h
    exact DspState.advanceDo_hint ht.hint
  | annul =>
    subst h
    exact (ht.hint ▸ t.dsp.deliverArmedFault_records).noHint
  | tick =>
    subst h
    exact (ht.hint ▸ t.dsp.processPendingInterrupts_records).noHint
  | other =>
    obtain ⟨d, hd, rfl⟩ := h
    exact hd.trans ht.hint

/-- Stepped from reset through instructions that leave the hint alone, a core records no budget of
another instruction. -/
theorem own_of_hintless {map : MemoryMap σ} {world : World σ} {es : List Event}
    (h : Run (fun t e u => Step q t e u ∧ e.Hintless) (reset map world) es t) : t.AllOwn := by
  have hclean : t.Clean := h.invariant (fun _ _ _ ht hs => ht.step hs.2 hs.1) ⟨rfl, nofun⟩
  exact hclean.own

end FaultTrace

end Dsp56300
