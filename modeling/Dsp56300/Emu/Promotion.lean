import Dsp56300.Core.Registers
import Dsp56300.Lib.Paths

/-! Register promotion: what the emitter tracks while it emits, and the loads and stores it
emits for it. -/

namespace Dsp56300

open Lib.Paths

/-- Registers held in a variable each while compiled code runs. -/
def promotedRegs : List RegIdx :=
  [Reg.sr, Reg.x0, Reg.x1, Reg.y0, Reg.y1, 0x10, 0x11, 0x12, 0x13, 0x14, 0x15, 0x16, 0x17,
    0x18, 0x19, 0x1a, 0x1b, 0x1c, 0x1d, 0x1e, 0x1f, 0x20, 0x21, 0x22, 0x23, 0x24, 0x25, 0x26, 0x27,
    Reg.lc, Reg.la, Reg.sp, Reg.ssh, Reg.ssl, Reg.omr, Reg.temp]

/-- What a variable or a place in memory holds: a register, or an accumulator with its three
sub-registers packed. -/
abbrev Slot := RegIdx ⊕ Accumulator

/-- Registers without a variable are read and written in memory. -/
def isPromoted : Slot → Bool
  | .inl idx => promotedRegs.contains idx
  | .inr _ => true

/-- Flags with one more set. -/
def mark (slots : Slot → Bool) (slot : Slot) : Slot → Bool := fun r => r = slot || slots r

@[simp] theorem mark_eq_true {slots : Slot → Bool} {slot r : Slot} :
    mark slots slot r = true ↔ r = slot ∨ slots r = true := by
  simp [mark]

@[simp] theorem mark_eq_false {slots : Slot → Bool} {slot r : Slot} :
    mark slots slot r = false ↔ r ≠ slot ∧ slots r = false := by
  simp [mark]

/-- The accumulator a sub-register is part of. -/
def accOf (idx : RegIdx) : Option Accumulator :=
  if idx = Reg.a0 ∨ idx = Reg.a1 ∨ idx = Reg.a2 then some .a
  else if idx = Reg.b0 ∨ idx = Reg.b1 ∨ idx = Reg.b2 then some .b
  else none

/-- What an operation reads or writes: a register, a sub-register among them, or a whole
accumulator. -/
inductive RegPlace where
  | reg (idx : RegIdx)
  | acc (d : Accumulator)
  deriving DecidableEq

/-- A sub-register is accessed through its accumulator. -/
def RegPlace.slot : RegPlace → Slot
  | .reg idx => match accOf idx with
    | some d => .inr d
    | none => .inl idx
  | .acc d => .inr d

def RegPlace.isPart : RegPlace → Bool
  | .reg idx => (accOf idx).isSome
  | .acc _ => false

/-- Emitted accesses to variables and to memory. -/
inductive SlotAct where
  /-- Use the variable. -/
  | use (place : RegPlace)
  /-- Load from memory without a variable. -/
  | peek (place : RegPlace)
  /-- Define variables from memory. -/
  | reload (slots : Slot → Bool)
  /-- Define the variable with a new value. -/
  | define (place : RegPlace)
  /-- Store a new value in memory. -/
  | poke (place : RegPlace)
  /-- Store variables to memory. -/
  | spill (slots : Slot → Bool)
  /-- Call a helper that changes registers in memory. -/
  | helper (changed : Slot → Bool)

/-- Emitted code; a way out stores the variables it is marked with. -/
abbrev SlotCode := Prog SlotAct (Slot → Bool)

/-- Deferred loads of a scope, which go before it, and what was valid at its entry. -/
structure DeferredScope where
  deferred : Slot → Bool
  entryValid : Slot → Bool

/-- What the emitter tracks: registers whose variable memory has not seen, registers whose
variable can be used, and the open scopes, the innermost apart. -/
structure EmitState where
  dirty : Slot → Bool
  valid : Slot → Bool
  scope : DeferredScope
  outer : List DeferredScope

namespace EmitState

/-- Nothing is in a variable when a block starts. -/
def start : EmitState :=
  ⟨fun _ => false, fun _ => false, ⟨fun _ => false, fun _ => false⟩, []⟩

/-- `invalidate_promoted`: the next load of a register reads memory where it stands. -/
def invalidatePromoted (st : EmitState) : EmitState where
  dirty _ := false
  valid _ := false
  scope := { st.scope with entryValid := fun _ => true }
  outer := st.outer.map fun scope => { scope with entryValid := fun _ => true }

def pushLoopScope (st : EmitState) : EmitState :=
  { st with scope := ⟨fun _ => false, st.valid⟩, outer := st.scope :: st.outer }

end EmitState

/-- One access of a register. -/
inductive Access where
  | load (place : RegPlace)
  | store (place : RegPlace)
  deriving DecidableEq

def Access.place : Access → RegPlace
  | .load place | .store place => place

/-- Emission: code, and the state behind it. -/
abbrev Emission := EmitState → SlotCode × EmitState

namespace Emission

def nop : Emission := fun st => (.nop, st)

def andThen (f g : Emission) : Emission := fun st =>
  let (code, st) := f st
  let (code', st) := g st
  (.seq code code', st)

/-- `load_reg` and `load_acc`: a register that was invalid when the scope began is loaded before
the scope, one that became invalid since is loaded here. -/
def load (place : RegPlace) : Emission := fun st =>
  if isPromoted place.slot then
    let st' := { st with valid := mark st.valid place.slot }
    if st.valid place.slot then (.act (.use place), st)
    else if st.scope.entryValid place.slot then
      (.seq (.act (.reload (· = place.slot))) (.act (.use place)), st')
    else
      (.act (.use place), { st' with scope.deferred := mark st.scope.deferred place.slot })
  else (.act (.peek place), st)

/-- The common part of `store_reg` and `store_acc`. -/
def define (place : RegPlace) : Emission := fun st =>
  if isPromoted place.slot then
    (.act (.define place), { st with
      valid := mark st.valid place.slot
      dirty := mark st.dirty place.slot })
  else (.act (.poke place), st)

/-- `store_reg` and `store_acc`: a sub-register is put into its accumulator. -/
def store (place : RegPlace) : Emission :=
  if place.isPart then (load place).andThen (define place) else define place

def flushPromoted : Emission := fun st =>
  (.act (.spill st.dirty), { st with dirty := fun _ => false })

/-- `flush_reg`, which leaves the register dirty. -/
def flushReg (idx : RegIdx) : Emission := fun st =>
  (.act (.spill fun r => r = .inl idx && st.dirty r), st)

/-- A helper call: flush, call, invalidate, and reload the registers the helper changed. -/
def helper (changed : Slot → Bool) : Emission := fun st =>
  (.seq (.act (.spill st.dirty))
      (.seq (.act (.helper changed)) (.act (.reload fun r => changed r && isPromoted r))),
    { st.invalidatePromoted with valid := fun r => changed r && isPromoted r })

/-- A way out of the block that a path may take: `flush_all_to_memory` and return. -/
def wayOut : Emission := fun st => (.branch (.exit st.dirty) .nop, st)

def access : Access → Emission
  | .load place => load place
  | .store place => store place

def accesses : List Access → Emission
  | [] => nop
  | a :: as => (access a).andThen (accesses as)

end Emission

/-- The tracking before a conditional branch, and the registers its arms modified. -/
structure ConditionalState where
  recordInvalidations : Bool
  savedDirty : Slot → Bool
  savedValid : Slot → Bool
  modified : Slot → Bool

/-- `begin_conditional` and `begin_conditional_skip`, without the flush of the latter. -/
def conditionalSnapshot (recordInvalidations : Bool) (st : EmitState) : ConditionalState :=
  ⟨recordInvalidations, st.dirty, st.valid, fun _ => false⟩

namespace ConditionalState

/-- Registers that became dirty in an arm. -/
def newlyDirty (cond : ConditionalState) (st : EmitState) : Slot → Bool :=
  fun r => st.dirty r && !cond.savedDirty r

/-- `end_conditional_arm`: store what became dirty, and restore the tracking. -/
def endArm (cond : ConditionalState) (st : EmitState) :
    SlotCode × ConditionalState × EmitState :=
  let invalidated r := cond.recordInvalidations && cond.savedValid r && !st.valid r
  (.act (.spill (cond.newlyDirty st)),
    { cond with modified := fun r => cond.modified r || cond.newlyDirty st r || invalidated r },
    { st with dirty := cond.savedDirty, valid := cond.savedValid })

/-- `merge_conditional`: what an arm modified is read from memory. -/
def merge (cond : ConditionalState) (st : EmitState) : EmitState :=
  { st with
    valid := fun r => st.valid r && !cond.modified r
    scope.entryValid := fun r => st.scope.entryValid r || cond.modified r }

end ConditionalState

/-- The loop an inlined REP or DO is compiled to: its header, what undoes it where a DO is
annulled or done, and whether it can be left. The cleanup touches only what the
header stores. -/
structure LoopShape where
  header : List Access
  cleanup : List Access
  preemptible : Bool
  cleanup_stored : ∀ a ∈ cleanup, .store a.place ∈ header

namespace Emission

/-- `pop_loop_scope`: the deferred loads of a loop go before it, or before an outer scope. -/
def popLoopScope : Emission := fun st =>
  match st.outer with
  | [] => (.nop, st) -- unreachable in the source
  | parent :: outer =>
    let deferred r := parent.deferred r || (st.scope.deferred r && !parent.entryValid r)
    (.act (.reload fun r => st.scope.deferred r && parent.entryValid r),
      { st with scope := { parent with deferred := deferred }, outer := outer })

/-- Two arms and their merge; a skip flushes before it branches. -/
def conditional (skip : Bool) (p q : Emission) : Emission := fun st =>
  let (code, st) := if skip then flushPromoted st else (.nop, st)
  let cond := conditionalSnapshot skip st
  let (codeP, st) := p st
  let (endP, cond, st) := cond.endArm st
  let (codeQ, st) := q st
  let (endQ, cond, st) := cond.endArm st
  (.seq code (.branch (.seq codeP endP) (.seq codeQ endQ)), cond.merge st)

/-- What the back edge of a loop does: flush, decrement LC and store it, and for a DO leave once
the quantum is spent. -/
def backEdge (shape : LoopShape) : Emission :=
  flushPromoted.andThen <|
    (if shape.preemptible then load (.reg Reg.lc) else nop).andThen <|
      (store (.reg Reg.lc)).andThen <| (flushReg Reg.lc).andThen <|
        if shape.preemptible then wayOut else nop

/-- An inlined REP or DO: header, annulled arm or native loop, and the merge. The code before the
loop is emitted behind its body. -/
def loop (shape : LoopShape) (body : Emission) : Emission := fun st =>
  let (header, st) := (accesses shape.header).andThen
    ((if shape.preemptible then wayOut else nop).andThen flushPromoted) st
  let (annul, st) := (accesses shape.cleanup).andThen flushPromoted st
  let (iteration, st) := body.andThen (backEdge shape) st.pushLoopScope
  let (preLoop, st) := popLoopScope st
  let (exit, st) := (accesses shape.cleanup).andThen flushPromoted st
  (.seq header (.branch annul (.seq preLoop (.seq (.loop iteration) exit))),
    st.invalidatePromoted)

end Emission

/-- Well-bracketed sequences of emitter operations. -/
inductive EmitterOps where
  | nop
  | seq (p q : EmitterOps)
  | load (place : RegPlace)
  | store (place : RegPlace)
  | flushPromoted
  | flushReg (idx : RegIdx)
  | helper (changed : Slot → Bool)
  | wayOut
  | conditional (skip : Bool) (p q : EmitterOps)
  | loop (shape : LoopShape) (body : EmitterOps)

namespace EmitterOps

def emit : EmitterOps → Emission
  | .nop => Emission.nop
  | .seq p q => p.emit.andThen q.emit
  | .load place => Emission.load place
  | .store place => Emission.store place
  | .flushPromoted => Emission.flushPromoted
  | .flushReg idx => Emission.flushReg idx
  | .helper changed => Emission.helper changed
  | .wayOut => Emission.wayOut
  | .conditional skip p q => Emission.conditional skip p.emit q.emit
  | .loop shape body => Emission.loop shape body.emit

/-- What an inlined push or pop of the hardware stack accesses. -/
def stackAccesses : List Access :=
  [.load (.reg Reg.sp), .store (.reg Reg.sp), .load (.reg Reg.sc), .store (.reg Reg.sc),
    .store (.reg Reg.ssh), .store (.reg Reg.ssl)]

def doSetupAccesses : List Access :=
  [.load (.reg Reg.la), .load (.reg Reg.lc)] ++ stackAccesses ++
    [.store (.reg Reg.la), .load (.reg Reg.sr)] ++ stackAccesses ++
    [.store (.reg Reg.sr), .store (.reg Reg.lc)]

def enddoCleanupAccesses : List Access :=
  stackAccesses ++ [.load (.reg Reg.sr), .store (.reg Reg.sr)] ++ stackAccesses ++
    [.store (.reg Reg.la), .store (.reg Reg.lc)]

/-- `emit_rep_inline`, with the reads of the count. -/
def repInline (count : List Access) (body : EmitterOps) : EmitterOps :=
  let shape : LoopShape :=
    { header := [.load (.reg Reg.lc), .store (.reg Reg.temp)] ++ count ++ [.store (.reg Reg.lc)]
      cleanup := []
      preemptible := false
      cleanup_stored := nofun }
  .seq (.loop shape (.seq (.load (.reg Reg.lc)) body))
    (.seq (.load (.reg Reg.temp)) (.seq (.store (.reg Reg.lc)) (.flushReg Reg.lc)))

/-- `emit_do_inline`, with the reads of the count. -/
def doInline (count : List Access) (body : EmitterOps) : EmitterOps :=
  let shape : LoopShape :=
    { header := count ++ doSetupAccesses
      cleanup := enddoCleanupAccesses
      preemptible := true
      cleanup_stored := fun a ha => by
        have hstored : ∀ a ∈ enddoCleanupAccesses, .store a.place ∈ doSetupAccesses := by decide
        exact List.mem_append_right _ (hstored a ha) }
  .loop shape body

/-- The code of a block: the entry's deferred loads, the operations, and the final spill. -/
def block (ops : EmitterOps) : SlotCode :=
  let (code, st) := ops.emit .start
  .seq (.act (.reload st.scope.deferred)) (.seq code (.exit st.dirty))

end EmitterOps

/-! What the emitted code does to the registers. -/

/-- The three words of an accumulator. -/
inductive AccPart where
  | hi
  | mid
  | lo
  deriving DecidableEq

namespace AccPart

def shift : AccPart → Nat
  | .hi => 48
  | .mid => 24
  | .lo => 0

def mask : AccPart → Word
  | .hi => 0xFF
  | .mid | .lo => 0xFFFFFF

end AccPart

/-- The sub-register of an accumulator. -/
def accReg : Accumulator → AccPart → RegIdx
  | .a, .hi => Reg.a2
  | .a, .mid => Reg.a1
  | .a, .lo => Reg.a0
  | .b, .hi => Reg.b2
  | .b, .mid => Reg.b1
  | .b, .lo => Reg.b0

/-- The part of an accumulator a sub-register is. -/
def accPart (idx : RegIdx) : AccPart :=
  if idx = Reg.a2 ∨ idx = Reg.b2 then .hi
  else if idx = Reg.a1 ∨ idx = Reg.b1 then .mid
  else .lo

/-- `extract_acc_lo`, `extract_acc_mid` and `extract_acc_hi`. -/
def extractAcc (val : BitVec 64) (part : AccPart) : Word :=
  ((val >>> part.shift) &&& part.mask.setWidth 64).setWidth 32

def packAcc (a2 a1 a0 : Word) : BitVec 64 :=
  a2.setWidth 64 <<< 48 ||| a1.setWidth 64 <<< 24 ||| a0.setWidth 64

/-- `store_acc_subreg` without the load and the store. -/
def insertAcc (cur : BitVec 64) (part : AccPart) (val : Word) : BitVec 64 :=
  (cur &&& ~~~(part.mask.setWidth 64 <<< part.shift)) |||
    (val.setWidth 64 &&& part.mask.setWidth 64) <<< part.shift

/-- The value of an accumulator in memory, as `reload_acc` reads it. -/
def accWords (regs : RegIdx → Word) (acc : Accumulator) : BitVec 64 :=
  packAcc (regs (accReg acc .hi) &&& AccPart.mask .hi)
    (regs (accReg acc .mid) &&& AccPart.mask .mid) (regs (accReg acc .lo) &&& AccPart.mask .lo)

/-- Variables and memory on a path; `cur` holds what a store or a helper last wrote to each
register, `seen` what each load returned beside what it should have. -/
structure RegFile where
  vars : RegIdx → Word
  accs : Accumulator → BitVec 64
  mem : RegIdx → Word
  cur : RegIdx → Word
  seen : List (BitVec 64 × BitVec 64)

namespace RegFile

/-- Registers as memory holds them. -/
def readWords (regs : RegIdx → Word) : RegPlace → BitVec 64
  | .reg idx => (regs idx).setWidth 64
  | .acc acc => accWords regs acc

def writeWords (regs : RegIdx → Word) (place : RegPlace) (val : BitVec 64) : RegIdx → Word :=
  match place with
  | .reg idx => Function.update regs idx (val.setWidth 32 &&& regMasks idx)
  | .acc acc => fun idx => if accOf idx = some acc then extractAcc val (accPart idx) else regs idx

def readVar (s : RegFile) : RegPlace → BitVec 64
  | .reg idx => match accOf idx with
    | some acc => (extractAcc (s.accs acc) (accPart idx)).setWidth 64
    | none => (s.vars idx).setWidth 64
  | .acc acc => s.accs acc

def writeVar (s : RegFile) (place : RegPlace) (val : BitVec 64) : RegFile :=
  match place with
  | .reg idx =>
    let v := val.setWidth 32 &&& regMasks idx
    match accOf idx with
    | some acc =>
      { s with accs := Function.update s.accs acc (insertAcc (s.accs acc) (accPart idx) v) }
    | none => { s with vars := Function.update s.vars idx v }
  | .acc acc => { s with accs := Function.update s.accs acc val }

def spill (s : RegFile) (slots : Slot → Bool) : RegFile :=
  { s with mem := fun idx =>
      if slots (RegPlace.reg idx).slot then (s.readVar (.reg idx)).setWidth 32 else s.mem idx }

def reload (s : RegFile) (slots : Slot → Bool) : RegFile :=
  { s with
    vars := fun idx => if slots (.inl idx) then s.mem idx else s.vars idx
    accs := fun acc => if slots (.inr acc) then accWords s.mem acc else s.accs acc }

end RegFile

def SlotAct.effect (a : SlotAct) (s t : RegFile) : Prop :=
  match a with
  | .use place =>
    t = { s with seen := (s.readVar place, RegFile.readWords s.cur place) :: s.seen }
  | .peek place =>
    t = { s with seen :=
      (RegFile.readWords s.mem place, RegFile.readWords s.cur place) :: s.seen }
  | .reload slots => t = s.reload slots
  | .define place => ∃ v < 2 ^ 56, t =
      { s.writeVar place v with cur := RegFile.writeWords s.cur place v }
  | .poke place => ∃ v < 2 ^ 56, t = { s with
      mem := RegFile.writeWords s.mem place v
      cur := RegFile.writeWords s.cur place v }
  | .spill slots => t = s.spill slots
  | .helper changed => ∃ v : RegIdx → Word,
    let written idx := changed (RegPlace.reg idx).slot
    t = { s with
      mem := fun idx => if written idx then v idx &&& regMasks idx else s.mem idx
      cur := fun idx => if written idx then v idx &&& regMasks idx else s.cur idx }

/-- A way out stores the variables it is marked with. -/
def regEffects : Effects SlotAct (Slot → Bool) RegFile where
  act := SlotAct.effect
  exit slots s t := t = s.spill slots

end Dsp56300
