import Dsp56300.Emu.CorePosts
import Dsp56300.Emu.FaultCode
import Dsp56300.Emu.RepPaths

/-! Where the shadow budget recorded with a stack error comes from. -/

namespace Dsp56300

open Emitter Lib.Paths Lib.Programs Lib.Runs

variable {σ φ α : Type}

namespace DspState

/-- A rewrite of the top slot of an empty stack, SE clear. -/
def TosFaults (s : DspState σ) : Prop :=
  spIndex (s.registers Reg.sp) = 0 ∧ s.registers Reg.sp &&& (1#32 <<< 4) = 0

/-- A write of SE over an SP with neither flag set. -/
def SpWriteFaults (s : DspState σ) (v : Word) : Prop :=
  s.registers Reg.sp &&& (3#32 <<< 4) = 0 ∧ v &&& (1#32 <<< 4) ≠ 0

instance (s : DspState σ) : Decidable s.TosFaults := inferInstanceAs (Decidable (_ ∧ _))

instance (s : DspState σ) (v : Word) : Decidable (s.SpWriteFaults v) :=
  inferInstanceAs (Decidable (_ ∧ _))

/-! A helper that posts a stack error records the hint it finds. -/

theorem jitReadSsh_budget {s : DspState σ} (h : s.PopFaults) :
    s.jitReadSsh.2.interrupts.faultBudget = s.faultBudgetHint :=
  s.stackPop_budget.trans (if_pos h)

theorem jitWriteSsh_budget {s : DspState σ} (h : s.PushFaults) (v : Word) :
    (s.jitWriteSsh v).interrupts.faultBudget = s.faultBudgetHint := by
  rw [jitWriteSsh_interrupts, if_pos h]
  rfl

theorem jitWriteSshTos_budget {s : DspState σ} (h : s.TosFaults) (v : Word) :
    (s.jitWriteSshTos v).interrupts.faultBudget = s.faultBudgetHint := by
  simp only [jitWriteSshTos, h.1, h.2, ne_eq, not_true_eq_false, if_false, if_true,
    setReg_interrupts]
  rfl

theorem jitWriteSp_budget {s : DspState σ} {v : Word} (h : s.SpWriteFaults v) :
    (s.jitWriteSp v).interrupts.faultBudget = s.faultBudgetHint := by
  have hn : s.noteSpWrite.faultBudgetHint = s.faultBudgetHint := by
    simp only [noteSpWrite, apply_ite DspState.faultBudgetHint, ite_self]
  simp only [jitWriteSp, noteSpWrite_registers, h.1, h.2, ne_eq, not_false_eq_true, and_self,
    if_true, mirrorSlots, setReg_interrupts]
  exact hn

end DspState

/-- Who posts a stack error: the code of an instruction, with the budget it has spilled or armed
and not used yet, or the core itself. -/
inductive PostedBy where
  | code (own : Option Word)
  | core

/-- A stack error, and the budget recorded with it. -/
structure StackPost where
  source : PostedBy
  recorded : Word

/-- Compiled code records a budget of its own, the core none. -/
def StackPost.HasOwnBudget (p : StackPost) : Prop :=
  match p.source with
  | .code own => own = some p.recorded
  | .core => p.recorded = invalidFaultBudget

/-- What the operations do that neither push nor pop nor spill. -/
structure QuietPaths (σ : Type) where
  run : Code.Handler Op (DspState σ)
  hint : ∀ (γ : Type) (op : Op γ) (s : DspState σ),
    (run γ op s).2.faultBudgetHint = s.faultBudgetHint

/-- A core, the emitter's fields, the budget the running instruction has spilled or armed, and the
stack errors posted so far, the latest first. -/
structure FaultTrace (σ : Type) where
  dsp : DspState σ
  anchor : FaultAnchor := {}
  own : Option Word := none
  posts : List StackPost := []

namespace FaultTrace

def reset (map : MemoryMap σ) (world : World σ) : FaultTrace σ where
  dsp := .new map world

def update (t : FaultTrace σ) (d : DspState σ) : FaultTrace σ := { t with dsp := d }

/-- An instruction starts with no budget of its own. -/
def enter (t : FaultTrace σ) : FaultTrace σ := { t with own := none }

/-- `emit_spill_fault_budget`. -/
def spill (t : FaultTrace σ) (fault : FaultClass) : FaultTrace σ :=
  let words := fault.budget t.anchor
  { t with dsp := { t.dsp with faultBudgetHint := words }, own := some words }

/-- What compiled code does to the stack, and whether it posts an error: either way the budget
is used up. -/
def helper (t : FaultTrace σ) (fails : Prop) [Decidable fails] (d : DspState σ) : FaultTrace σ :=
  { t with
    dsp := d
    own := none
    posts := if fails then ⟨.code t.own, d.interrupts.faultBudget⟩ :: t.posts else t.posts }

def readSsh (t : FaultTrace σ) : Word × FaultTrace σ :=
  (t.dsp.jitReadSsh.1, t.helper t.dsp.PopFaults t.dsp.jitReadSsh.2)

def writeSsh (t : FaultTrace σ) (v : Word) : FaultTrace σ :=
  t.helper t.dsp.PushFaults (t.dsp.jitWriteSsh v)

def writeSp (t : FaultTrace σ) (v : Word) : FaultTrace σ :=
  t.helper (t.dsp.SpWriteFaults v) (t.dsp.jitWriteSp v)

/-- `stack_push` as the emitter inlines it, with the budget it arms. -/
def stackPush (t : FaultTrace σ) (ssh ssl words : Word) : FaultTrace σ :=
  { t with own := some words }.helper t.dsp.PushFaults (t.dsp.emitStackPush ssh ssl words)

def stackPop (t : FaultTrace σ) (words : Word) : (Word × Word) × FaultTrace σ :=
  ((t.dsp.emitStackPop words).1,
    { t with own := some words }.helper t.dsp.PopFaults (t.dsp.emitStackPop words).2)

variable (q : QuietPaths σ)

def quiet (t : FaultTrace σ) (op : Op α) : α × FaultTrace σ :=
  ((q.run α op t.dsp).1, t.update (q.run α op t.dsp).2)

/-- Reading SSH pops the stack. -/
def readRegForMove (t : FaultTrace σ) (idx : Nat) : Word × FaultTrace σ :=
  if idx = Reg.ssh.val then (t.spill .pop).readSsh else t.quiet q (.readRegForMove idx)

/-- Writing SSH pushes, and a write of SP may fault. -/
def writeRegForMove (t : FaultTrace σ) (idx : Nat) (v : Word) : FaultTrace σ :=
  if idx = Reg.ssh.val then (t.spill .push).writeSsh v
  else if idx = Reg.ssl.val then t.update (t.dsp.jitWriteSsl v)
  else if idx = Reg.sp.val then (t.spill .spWrite).writeSp v
  else (t.quiet q (.writeRegForMove idx v)).2

/-- Emitted operations on the state. -/
def exec : Code.Handler Op (FaultTrace σ)
  | _, .setDecodeLen len, t => ((), { t with anchor := { t.anchor with decodeLen := len } })
  | _, .setFaultAnchorBump n, t => ((), { t with anchor := { t.anchor with anchorBump := n } })
  | _, .spillFaultBudget fault, t => ((), t.spill fault)
  | _, .stackPush ssh ssl budget, t => ((), t.stackPush ssh ssl (budget.value t.anchor))
  | _, .stackPop budget, t => t.stackPop (budget.value t.anchor)
  | _, .readSsh, t => t.readSsh
  | _, .writeSshTos v, t => ((), t.helper t.dsp.TosFaults (t.dsp.jitWriteSshTos v))
  | _, .writeSsl v, t => ((), t.update (t.dsp.jitWriteSsl v))
  | _, .writeSp v, t => ((), t.writeSp v)
  | _, .readRegForMove idx, t => t.readRegForMove q idx
  | _, .writeRegForMove idx v, t => ((), t.writeRegForMove q idx v)
  | _, op, t => t.quiet q op

/-- Every stack error posted so far has its own budget. -/
def AllOwn (t : FaultTrace σ) : Prop := ∀ p ∈ t.posts, p.HasOwnBudget

/-! Compiled code. -/

theorem helper_allOwn {t : FaultTrace σ} {fails : Prop} [Decidable fails] {d : DspState σ}
    (h : fails → t.own = some d.interrupts.faultBudget) :
    (t.helper fails d).AllOwn ↔ t.AllOwn := by
  unfold AllOwn helper
  by_cases hf : fails
  · rw [if_pos hf, List.forall_mem_cons]
    exact and_iff_right (h hf)
  · rw [if_neg hf]

theorem readSsh_allOwn {t : FaultTrace σ} (h : t.own = some t.dsp.faultBudgetHint) :
    t.readSsh.2.AllOwn ↔ t.AllOwn :=
  helper_allOwn fun hf => h.trans (congrArg some (DspState.jitReadSsh_budget hf).symm)

theorem writeSsh_allOwn {t : FaultTrace σ} (h : t.own = some t.dsp.faultBudgetHint) (v : Word) :
    (t.writeSsh v).AllOwn ↔ t.AllOwn :=
  helper_allOwn fun hf => h.trans (congrArg some (DspState.jitWriteSsh_budget hf v).symm)

theorem writeSp_allOwn {t : FaultTrace σ} (h : t.own = some t.dsp.faultBudgetHint) (v : Word) :
    (t.writeSp v).AllOwn ↔ t.AllOwn :=
  helper_allOwn fun hf => h.trans (congrArg some (DspState.jitWriteSp_budget hf).symm)

theorem stackPush_allOwn (t : FaultTrace σ) (ssh ssl words : Word) :
    (t.stackPush ssh ssl words).AllOwn ↔ t.AllOwn := by
  refine helper_allOwn (t := { t with own := some words }) fun hf => ?_
  rw [DspState.emitStackPush_interrupts, if_pos hf]

theorem stackPop_allOwn (t : FaultTrace σ) (words : Word) :
    (t.stackPop words).2.AllOwn ↔ t.AllOwn := by
  refine helper_allOwn (t := { t with own := some words }) fun hf => ?_
  rw [DspState.emitStackPop_interrupts, if_pos hf]

theorem readRegForMove_allOwn (t : FaultTrace σ) (idx : Nat) :
    (t.readRegForMove q idx).2.AllOwn ↔ t.AllOwn := by
  unfold readRegForMove
  split
  · exact readSsh_allOwn (t := t.spill .pop) rfl
  · exact Iff.rfl

theorem writeRegForMove_allOwn (t : FaultTrace σ) (idx : Nat) (v : Word) :
    (t.writeRegForMove q idx v).AllOwn ↔ t.AllOwn := by
  unfold writeRegForMove
  split
  · exact writeSsh_allOwn (t := t.spill .push) rfl v
  · split
    · exact Iff.rfl
    · split
      · exact writeSp_allOwn (t := t.spill .spWrite) rfl v
      · exact Iff.rfl

/-- Behind a spill the hint is the budget of the running instruction; what was posted stands. -/
structure Keeps (before : Prop) (t : FaultTrace σ) (spilled : Bool) : Prop where
  own : spilled = true → t.own = some t.dsp.faultBudgetHint
  posts : t.AllOwn ↔ before

set_option linter.constructorNameAsVariable false in
theorem exec_keeps {before : Prop} (γ : Type) (op : Op γ) (t : FaultTrace σ) (spilled : Bool)
    (hop : SpillsFirst γ op spilled) (h : Keeps before t spilled) :
    Keeps before (exec q γ op t).2 (justSpilled γ op spilled) := by
  cases op with
  | spillFaultBudget fault => exact ⟨fun _ => rfl, h.posts⟩
  | stackPush ssh ssl budget => exact ⟨nofun, (stackPush_allOwn _ _ _ _).trans h.posts⟩
  | stackPop budget => exact ⟨nofun, (stackPop_allOwn _ _).trans h.posts⟩
  | readSsh => exact ⟨nofun, (readSsh_allOwn (h.own (hop trivial))).trans h.posts⟩
  | writeSp v => exact ⟨nofun, (writeSp_allOwn (h.own (hop trivial)) v).trans h.posts⟩
  | writeSshTos v =>
    have hf (hf : t.dsp.TosFaults) :
        t.own = some (t.dsp.jitWriteSshTos v).interrupts.faultBudget := by
      rw [DspState.jitWriteSshTos_budget hf]
      exact h.own (hop trivial)
    exact ⟨nofun, (helper_allOwn hf).trans h.posts⟩
  | readRegForMove idx => exact ⟨nofun, (readRegForMove_allOwn q t idx).trans h.posts⟩
  | writeRegForMove idx v => exact ⟨nofun, (writeRegForMove_allOwn q t idx v).trans h.posts⟩
  | _ => exact ⟨nofun, h.posts⟩

/-- Code that spills in front of every helper posts under its own budgets only. -/
theorem run_allOwn (x : Emit α) [hx : Anchored x] (t : FaultTrace σ) :
    (x.run (exec q) t).2.AllOwn ↔ t.AllOwn := by
  obtain ⟨_, h⟩ := (hx.meets false).run (exec_keeps q) ⟨nofun, Iff.rfl⟩
  exact h.posts

/-- A stretch of code run to the answer `a`, with no budget of its own yet. -/
def Emits (t : FaultTrace σ) (x : Emit α) (a : α) (u : FaultTrace σ) : Prop :=
  x.run (exec q) t.enter = (a, u)

/-- Anything that leaves the hint alone and posts nothing. -/
def Quiet (t u : FaultTrace σ) : Prop :=
  ∃ d : DspState σ, d.faultBudgetHint = t.dsp.faultBudgetHint ∧ u = t.update d

end FaultTrace

/-- A stretch of a block's code, run. -/
def BlockAct.fault (q : QuietPaths σ) (a : BlockAct) (t u : FaultTrace σ) : Prop :=
  match a with
  | .instruction opcode pc nextWord => t.Emits q (emitInstruction (decode opcode) pc nextWord) () u
  | .skip branch taken => t.Emits q (emitSkipPredicate branch.inst) taken u
  | .repSetup repInst annul =>
    ∃ lc, (lc = 0 ↔ annul) ∧ t.Emits q (emitRepInlineSetup repInst) lc u
  | .repIteration opcode pc nextWord =>
    t.Emits q (emitRepIteration (decode opcode) pc nextWord) () u
  | .repRestore => t.Emits q emitRepRestore () u
  | .repLegacy opcode pc nextWord =>
    t.Emits q (do emitInstruction (decode opcode) pc nextWord; emitRepFirstCallArm pc) () u
  | .doSetup doInst doPc la annul =>
    ∃ lc, (lc = 0 ↔ annul) ∧ t.Emits q (emitDoInlineSetup doInst doPc la) lc u
  | .doAnnul la => t.Emits q (emitDoInlineAnnul la) () u
  | .lcDecrement => t.Emits q emitLcDecrement () u
  | .enddoCleanup => t.Emits q emitEnddoCleanup () u
  | .storePcAdvance _ _ => t.Quiet u

def blockFaults (q : QuietPaths σ) : Effects BlockAct BlockExit (FaultTrace σ) where
  act := BlockAct.fault q
  exit _ := FaultTrace.Quiet

namespace FaultTrace

variable {q : QuietPaths σ} {t u : FaultTrace σ}

theorem Emits.allOwn {x : Emit α} [Anchored x] {a : α} (h : t.Emits q x a u) :
    u.AllOwn ↔ t.AllOwn := by
  have hr := run_allOwn q x t.enter
  rw [h] at hr
  exact hr

theorem Quiet.allOwn (h : t.Quiet u) : u.AllOwn ↔ t.AllOwn := by
  obtain ⟨d, -, rfl⟩ := h
  exact Iff.rfl

theorem act_allOwn {a : BlockAct} (h : a.fault q t u) : u.AllOwn ↔ t.AllOwn := by
  cases a with
  | repSetup repInst annul =>
    obtain ⟨lc, -, h⟩ := h
    exact h.allOwn
  | doSetup doInst doPc la annul =>
    obtain ⟨lc, -, h⟩ := h
    exact h.allOwn
  | storePcAdvance ended pc => exact Quiet.allOwn h
  | _ => exact Emits.allOwn h

/-- No path through the code of a block records another instruction's budget. -/
theorem path_allOwn {code : BlockCode} {b : Bool} (h : Path (blockFaults q) code t b u) :
    u.AllOwn ↔ t.AllOwn := by
  have hact (a : BlockAct) (s v : FaultTrace σ) (hs : s.AllOwn ↔ t.AllOwn)
      (ha : a.fault q s v) : v.AllOwn ↔ t.AllOwn := (act_allOwn ha).trans hs
  have hexit (_ : BlockExit) (s v : FaultTrace σ) (hs : s.AllOwn ↔ t.AllOwn)
      (he : s.Quiet v) : v.AllOwn ↔ t.AllOwn := he.allOwn.trans hs
  have hc := Triple.of_invariant (m := blockFaults q) hact hexit code t b u Iff.rfl h
  cases b with
  | false => exact hc
  | true => exact hc

/-! The core's own steps. -/

/-- The stack errors of a loop end. -/
def loopEndPosts (s : DspState σ) : List StackPost :=
  (s.loopEndPops.filter fun d => d.PopFaults).map fun d =>
    ⟨.core, d.stackPop.2.interrupts.faultBudget⟩

/-- The stack error of a context push, if one is made in a step to `d`. -/
def contextPosts (pushes : Bool) (s d : DspState σ) : List StackPost :=
  if pushes = true ∧ s.PushFaults then [⟨.core, d.interrupts.faultBudget⟩] else []

def post (t : FaultTrace σ) (d : DspState σ) (posts : List StackPost) : FaultTrace σ :=
  { t with dsp := d, posts := posts ++ t.posts }

def loopEnd (t : FaultTrace σ) : FaultTrace σ := t.post t.dsp.advanceDo (loopEndPosts t.dsp)

def annul (t : FaultTrace σ) : FaultTrace σ :=
  t.post t.dsp.deliverArmedFault
    (contextPosts (t.dsp.callAt t.dsp.interrupts.vectorAddr) t.dsp t.dsp.deliverArmedFault)

def tick (t : FaultTrace σ) : FaultTrace σ :=
  t.post t.dsp.processPendingInterrupts
    (contextPosts t.dsp.stacksContext t.dsp t.dsp.processPendingInterrupts)

/-- What happens to a core: the code of an instruction or of a block, a loop end behind it, the
annulment of an instruction for an armed fault, a tick of the interrupt pipeline. All else leaves
the stack and the hint alone. -/
inductive Event where
  | instruction (opcode pc nextWord : Word)
  | block (p : Pram) (startPc maxLen stopPc : Nat)
  | loopEnd
  | annul
  | tick
  | other

variable (q) in
def Step (t : FaultTrace σ) (e : Event) (u : FaultTrace σ) : Prop :=
  match e with
  | .instruction opcode pc nextWord =>
    { t with anchor := {} }.Emits q (emitInstruction (decode opcode) pc nextWord) () u
  | .block p startPc maxLen stopPc =>
    ∃ code, p.blockCode startPc maxLen stopPc = some code ∧
      Path (blockFaults q) code { t with anchor := {} } true u
  | .loopEnd => u = t.loopEnd
  | .annul => u = t.annul
  | .tick => u = t.tick
  | .other => t.Quiet u

/-- No hint stands where the core itself is about to post a stack error. -/
def Safe (t : FaultTrace σ) (e : Event) : Prop :=
  let fails : Prop := match e with
    | .loopEnd => t.dsp.EndsLoop ∧ t.dsp.Underflows
    | .annul => t.dsp.callAt t.dsp.interrupts.vectorAddr = true ∧ t.dsp.PushFaults
    | .tick => t.dsp.stacksContext = true ∧ t.dsp.PushFaults
    | .instruction _ _ _ | .block _ _ _ _ | .other => False
  fails → t.dsp.faultBudgetHint = invalidFaultBudget

theorem post_allOwn {t : FaultTrace σ} {d : DspState σ} {posts : List StackPost} {c : Prop}
    (h : (∀ p ∈ posts, p.HasOwnBudget) ↔ c) : (t.post d posts).AllOwn ↔ t.AllOwn ∧ c := by
  rw [← h, and_comm]
  exact List.forall_mem_append

theorem loopEndPosts_own (s : DspState σ) : (∀ p ∈ loopEndPosts s, p.HasOwnBudget) ↔
    (s.EndsLoop ∧ s.Underflows → s.faultBudgetHint = invalidFaultBudget) := by
  rw [← s.loopEndPops_fault]
  simp only [loopEndPosts, List.forall_mem_map, List.mem_filter, decide_eq_true_eq]
  constructor
  · rintro h ⟨d, hd, hf⟩
    exact (DspState.loopEndPops_budget hd hf).symm.trans (h d ⟨hd, hf⟩)
  · rintro h d ⟨hd, hf⟩
    exact (DspState.loopEndPops_budget hd hf).trans (h ⟨d, hd, hf⟩)

theorem contextPosts_own {pushes : Bool} {s d : DspState σ}
    (h : DspState.RecordsIf (pushes = true ∧ s.PushFaults) s.faultBudgetHint d) :
    (∀ p ∈ contextPosts pushes s d, p.HasOwnBudget) ↔
      (pushes = true ∧ s.PushFaults → s.faultBudgetHint = invalidFaultBudget) := by
  unfold contextPosts
  by_cases hc : pushes = true ∧ s.PushFaults
  · rw [if_pos hc, List.forall_mem_singleton, forall_prop_of_true hc, ← h.budget hc]
    rfl
  · rw [if_neg hc]
    exact iff_of_true nofun fun h => absurd h hc

/-- A step records a foreign budget exactly where the core fails while a hint stands. -/
theorem step_allOwn {e : Event} (h : Step q t e u) : u.AllOwn ↔ t.AllOwn ∧ t.Safe e := by
  cases e with
  | instruction opcode pc nextWord => exact h.allOwn.trans (and_iff_left nofun).symm
  | block p startPc maxLen stopPc =>
    obtain ⟨code, -, h⟩ := h
    exact (path_allOwn h).trans (and_iff_left nofun).symm
  | loopEnd =>
    subst h
    exact post_allOwn (loopEndPosts_own _)
  | annul =>
    subst h
    exact post_allOwn (contextPosts_own (DspState.deliverArmedFault_records _))
  | tick =>
    subst h
    exact post_allOwn (contextPosts_own (DspState.processPendingInterrupts_records _))
  | other => exact h.allOwn.trans (and_iff_left nofun).symm

/-! The machine's steps are such runs. -/

/-- The core with PC advanced, before the loop end of `advance_pc`. -/
def fallThrough (s : DspState σ) : DspState σ :=
  let s := s.checkUnimplementedModes.advanceRep
  { s with pc := maskPc (s.pc + s.pcAdvance) }

theorem checkUnimplementedModes_hint (s : DspState σ) :
    s.checkUnimplementedModes.faultBudgetHint = s.faultBudgetHint := by
  simp only [DspState.checkUnimplementedModes, apply_ite DspState.faultBudgetHint, ite_self]

theorem advanceRep_hint (s : DspState σ) : s.advanceRep.faultBudgetHint = s.faultBudgetHint := by
  simp only [DspState.advanceRep, DspState.repTruncateArmedWindow]
  split_ifs <;> rfl

theorem fallThrough_hint (s : DspState σ) : (fallThrough s).faultBudgetHint = s.faultBudgetHint :=
  (advanceRep_hint _).trans (checkUnimplementedModes_hint s)

/-- An instruction run and PC advanced behind it. -/
def stepped (q : QuietPaths σ) (inst : Instruction) (pc nextWord : Word) (t : FaultTrace σ) :
    FaultTrace σ :=
  let u := ((emitInstruction inst pc nextWord).run (exec q) ({ t with anchor := {} } :
    FaultTrace σ).enter).2
  (u.update (fallThrough u.dsp)).loopEnd.tick

theorem stepped_run (t : FaultTrace σ) (opcode pc nextWord : Word) :
    Run (Step q) t [.instruction opcode pc nextWord, .other, .loopEnd, .tick]
      (stepped q (decode opcode) pc nextWord t) :=
  .cons rfl (.cons ⟨_, fallThrough_hint _, rfl⟩ (.cons rfl (.cons rfl (.nil _))))

/-- In every run from reset, no stack error inherits the budget of another instruction exactly if
no hint stands whenever the core itself posts one. -/
theorem budgets_own_iff (q : QuietPaths σ) (map : MemoryMap σ) (world : World σ)
    (es : List Event) (t : FaultTrace σ) :
    Run (Step q) (reset map world) es t ∧ t.AllOwn ↔
      Run (fun t e u => Step q t e u ∧ t.Safe e) (reset map world) es t :=
  Run.restrict (fun _ _ _ h => step_allOwn h) nofun

/-- Plain registers behind the operations that leave the stack alone. -/
def plainPaths : QuietPaths Unit where
  run := registerPaths.exec
  hint := by
    intro γ op s
    cases op <;> rfl

/-- A loop of one pass whose body reads SSH: the read leaves one frame, the loop end pops two, and
the second pop records the budget of the read. -/
theorem loop_end_inherits_budget :
    ∃ es t, Run (Step plainPaths) (reset ⟨[], [], []⟩ ⟨fun _ => 0, ()⟩) es t ∧
      es = [.instruction 0x060180 0 2, .other, .loopEnd, .tick,
        .instruction 0x0444BC 2 0, .other, .loopEnd, .tick] ∧
      ⟨.core, 7⟩ ∈ t.posts ∧ ¬ t.AllOwn := by
  let entered := stepped plainPaths (decode 0x060180) 0 2 (reset ⟨[], [], []⟩ ⟨fun _ => 0, ()⟩)
  have hp : (stepped plainPaths (decode 0x0444BC) 2 0 entered).posts = [⟨.core, 7⟩] := by
    have hdo : decode 0x060180 = .doImm 1 := by
      rw [decode_at 73 rfl (by decide) (by decide) (by decide)]
      rfl
    have hmove : decode 0x0444BC = .movecReg 4 0x3C false := by
      rw [decode_at 138 rfl (by decide) (by decide) (by decide)]
      rfl
    dsimp only [entered]
    rw [hdo, hmove]
    rfl
  refine ⟨_, _, (stepped_run _ _ _ _).append (stepped_run _ 0x0444BC 2 0), rfl, ?_, ?_⟩
  · rw [hp]
    exact List.mem_singleton_self _
  · intro h
    have h7 : StackPost.HasOwnBudget ⟨.core, 7⟩ := by
      apply h
      rw [hp]
      exact List.mem_singleton_self _
    exact absurd h7 (by decide : (7 : Word) ≠ invalidFaultBudget)

end FaultTrace

end Dsp56300
