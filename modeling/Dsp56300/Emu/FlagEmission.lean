import Dsp56300.Emu.BackEdges
import Dsp56300.Lib.PathPairs

/-! How the emitter defers condition codes: what it keeps track of, the flushes it writes between
the operations it is asked for, and what the operations do when nothing is deferred. -/

namespace Dsp56300

open Emitter Lib.Paths

variable {σ : Type}

/-- What the code emitted so far has computed. -/
abbrev Values := List (BitVec 64)

/-- A computation of flags to defer: of one kind, with values for operands. -/
structure Deferral where
  flags : Values → PendingFlags
  kindRewrites : ∀ vs, (flags vs).rewritesEunz = (flags []).rewritesEunz
  kindConsumes : ∀ vs, (flags vs).consumesSmMarker = (flags []).consumesSmMarker

def Deferral.rewritesEunz (d : Deferral) : Bool := (d.flags []).rewritesEunz

def Deferral.consumesSmMarker (d : Deferral) : Bool := (d.flags []).consumesSmMarker

/-- The operations of the emitter on SR and the accumulators. -/
inductive FlagOp where
  | setPending (d : Deferral)
  | saturateSm (result : Values → BitVec 64)
  | loadSr
  /-- For a consumer that cannot observe E, U, N and Z. -/
  | loadSrTransparent (consumer : Word → Word)
      (h : ∀ x y, SameSettled x y → consumer x = consumer y)
  /-- A transparent load, written back with E, U, N and Z reaching no other bit. -/
  | updateSr (f : Values → Word → Word) (h : ∀ vs, Contained (f vs))
  | storeSr (v : Values → Word)
  | loadAcc (d : Accumulator)
  | storeAcc (d : Accumulator) (v : Values → BitVec 64)
  | readAccu24 (d : Accumulator)
  | ifcc (opcode : Word) (alu : ParallelAlu) (updateCcr : Bool) (h : Reg.sr ∉ alu.operands)

/-- Structured code over them. Conditionals are those of `begin_conditional` and
`begin_conditional_skip`, loops the inlined REP and the preemptible inlined DO. -/
inductive FlagCode where
  | op (a : FlagOp)
  | seq (p q : FlagCode)
  | conditional (c : Values → Bool) (p q : FlagCode)
  /-- The block is left early. -/
  | bail (c : Values → Bool)
  | loop (preemptible : Bool) (body : FlagCode)

/-! What the emitter knows where it emits. -/

structure SrEmission where
  /-- Whether the pending computation, if there is one, rewrites E, U, N and Z. -/
  pendingFlags : Option Bool := none
  eunzCurrent : Bool := false
  condDepth : Nat := 0
  deferHazardSites : Nat := 0

namespace SrEmission

/-- A helper call that updates E, U, N and Z makes them current, unless in a conditional arm. -/
def flush (e : SrEmission) (eunzDead : Bool) : SrEmission :=
  match e.pendingFlags with
  | none => e
  | some rewrites =>
    { e with
      pendingFlags := none
      eunzCurrent := e.eunzCurrent || (rewrites && !eunzDead && e.condDepth == 0) }

/-- No read here can see an E, U, N or Z left behind. -/
def dominated (e : SrEmission) : Bool := e.eunzCurrent || e.pendingFlags == some true

def loadSr (e : SrEmission) (transparent : Bool) : SrEmission :=
  let sites := if transparent || e.dominated then 0 else 1
  { e with deferHazardSites := e.deferHazardSites + sites }.flush false

def beginConditional (e : SrEmission) : SrEmission :=
  { e.flush false with condDepth := e.condDepth + 1 }

def endConditionalArm (e : SrEmission) : SrEmission := e.flush false

def mergeConditional (e : SrEmission) : SrEmission := { e with condDepth := e.condDepth - 1 }

/-- The block can be left here. -/
def flushAllToMemory (e : SrEmission) : SrEmission :=
  { e with deferHazardSites := e.deferHazardSites + 1 }

/-- An earlier pass may have left E, U, N and Z behind. -/
def enterLoop (e : SrEmission) : SrEmission := { e.flush false with eunzCurrent := false }

/-- The loop may have been skipped. -/
def leaveLoop (e : SrEmission) : SrEmission :=
  { e with pendingFlags := none, eunzCurrent := false }

end SrEmission

def FlagOp.emission (a : FlagOp) (e : SrEmission) : SrEmission :=
  match a with
  | .setPending d => { e.flush d.rewritesEunz with pendingFlags := some d.rewritesEunz }
  | .loadSr => e.loadSr false
  | .loadSrTransparent .. | .updateSr .. => e.loadSr true
  | .storeSr _ => { e with pendingFlags := none }
  -- the operation's own flags are materialized or dropped, and do not count as current
  | .ifcc opcode .. => e.loadSr (ifccCond opcode).transparent
  | .saturateSm _ | .loadAcc _ | .storeAcc .. | .readAccu24 _ => e

/-- An operation, or the test of a condition with its outcome. -/
inductive FlagStep where
  | op (a : FlagOp)
  | test (c : Values → Bool) (outcome : Bool)

/-- What is emitted. -/
inductive EmittedStep where
  | step (a : FlagStep)
  | flush
  | flushBackedge
  | deferredNz

namespace FlagCode

/-- The code, and what is known behind it. -/
def emit : FlagCode → SrEmission → Prog EmittedStep Unit × SrEmission
  | .op a, e => (.act (.step (.op a)), a.emission e)
  | .seq p q, e =>
    let first := p.emit e
    let rest := q.emit first.2
    (.seq first.1 rest.1, rest.2)
  | .conditional c p q, e =>
    let taken := p.emit e.beginConditional
    let other := q.emit taken.2.endConditionalArm
    let arm outcome code : Prog EmittedStep Unit :=
      .seq (.act (.step (.test c outcome))) (.seq code (.act .flush))
    (.seq (.act .flush) (.branch (arm true taken.1) (arm false other.1)),
      other.2.endConditionalArm.mergeConditional)
  | .bail c, e =>
    (.seq (.act .flush) (.branch (.seq (.act (.step (.test c true))) (.exit ()))
      (.act (.step (.test c false)))),
      (e.flush false).flushAllToMemory)
  | .loop preemptible body, e =>
    let pass := body.emit e.enterLoop
    let quiet := pass.2.deferHazardSites == e.deferHazardSites
    let defers := quiet && pass.2.pendingFlags == some true
    let bail : Prog EmittedStep Unit :=
      if defers then .seq (.act .deferredNz) (.exit ()) else .exit ()
    let preempt := if preemptible then .branch bail .nop else .nop
    let backedge := if quiet then EmittedStep.flushBackedge else .flush
    let passes := Prog.loop (.seq pass.1 (.seq (.act backedge) preempt))
    (.seq (.act .flush) (.branch .nop
      (if defers then .seq passes (.act .deferredNz) else passes)),
      (if preemptible then pass.2.flushAllToMemory else pass.2).leaveLoop)

/-- The code of a block, up to where it is left. -/
def emitBlock (p : FlagCode) : Prog EmittedStep Unit :=
  .seq (p.emit {}).1 (.seq (.act .flush) (.exit ()))

/-- The operations alone. -/
def reference : FlagCode → Prog FlagStep Unit
  | .op a => .act (.op a)
  | .seq p q => .seq p.reference q.reference
  | .conditional c p q =>
    .branch (.seq (.act (.test c true)) p.reference) (.seq (.act (.test c false)) q.reference)
  | .bail c => .branch (.seq (.act (.test c true)) (.exit ())) (.act (.test c false))
  | .loop preemptible body =>
    let preempt := if preemptible then .branch (.exit ()) .nop else .nop
    .branch .nop (.loop (.seq body.reference preempt))

def referenceBlock (p : FlagCode) : Prog FlagStep Unit := .seq p.reference (.exit ())

end FlagCode

/-! What it does. -/

/-- A point of a path: the words of SR that plain loads have delivered, and the path so far, the
latest step first. -/
structure FlagPoint (σ : Type) where
  alu : AluState σ
  values : Values := []
  reads : List Word := []
  trace : List FlagStep := []
  /-- The argument of the call that the last back edge deferred. -/
  deferred : BitVec 64 := 0

/-- The code of an operation: what it computes, and the SR it lets be seen. -/
def FlagOp.code (a : FlagOp) (vs : Values) : Alu σ (Values × List Word) :=
  match a with
  | .setPending d => do
    Alu.setPending (d.flags vs)
    return ([], [])
  | .saturateSm result => return ([← Alu.emitSaturateSm (result vs)], [])
  | .loadSr => do
    let sr ← Alu.loadSr
    return ([sr.setWidth 64], [sr])
  | .loadSrTransparent consumer _ => return ([(consumer (← Alu.loadSr)).setWidth 64], [])
  | .updateSr f _ => do
    Alu.storeReg Reg.sr (f vs (← Alu.loadSr))
    return ([], [])
  | .storeSr v => do
    Alu.storeReg Reg.sr (v vs)
    return ([], [])
  | .loadAcc d => return ([← Alu.loadAcc d], [])
  | .storeAcc d v => do
    Alu.storeAcc d (mask56 (v vs))
    return ([], [])
  | .readAccu24 d => do
    let (value, noLimit) ← Alu.readAccu24Inner d
    return ([value.setWidth 64, noLimit.setWidth 64], [])
  | .ifcc opcode alu updateCcr _ => do
    -- the condition is evaluated first
    let sr ← Alu.loadSr
    Alu.emitIfcc opcode alu updateCcr
    return ([], if (ifccCond opcode).transparent then [] else [sr])

namespace FlagPoint

def perform (w : FlagPoint σ) (a : FlagOp) : FlagPoint σ :=
  let r := (a.code w.values).run w.alu
  { w with
    alu := r.2
    values := w.values ++ r.1.1
    reads := w.reads ++ r.1.2
    trace := .op a :: w.trace }

/-- The block is left: what is stored. -/
def leave (w : FlagPoint σ) : FlagPoint σ := { w with alu := .enter w.alu.spill }

def start (s : DspState σ) : FlagPoint σ := { alu := .enter s }

end FlagPoint

/-- A test has one outcome. -/
def FlagStep.does (a : FlagStep) (w v : FlagPoint σ) : Prop :=
  match a with
  | .op a => v = w.perform a
  | .test c outcome => c w.values = outcome ∧ v = { w with trace := .test c outcome :: w.trace }

namespace FlagPoint

def flush (w : FlagPoint σ) : FlagPoint σ := { w with alu := w.alu.flush false }

/-- Behind the flush of a back edge. -/
def flushBackedge (w : FlagPoint σ) : FlagPoint σ :=
  { w with alu := w.alu.flushBackedge.2, deferred := w.alu.flushBackedge.1.getD 0 }

/-- Behind the call that a back edge deferred. -/
def deferredNz (w : FlagPoint σ) : FlagPoint σ :=
  { w with alu := Alu.after (Alu.emitDeferredNz w.deferred) w.alu }

end FlagPoint

namespace FlagCode

/-- Emitted code. -/
def deferring : Effects EmittedStep Unit (FlagPoint σ) where
  act a w v := match a with
    | .step a => a.does w v
    | .flush => v = w.flush
    | .flushBackedge => v = w.flushBackedge
    | .deferredNz => v = w.deferredNz
  exit _ w v := v = w.leave

/-- The operations with nothing deferred: each updates SR before the next. -/
def immediate : Effects FlagStep Unit (FlagPoint σ) where
  act a w v := ∃ u, a.does w u ∧ v = u.flush
  exit _ w v := v = w.leave

end FlagCode

end Dsp56300
