import Dsp56300.Emu.Execution
import Dsp56300.Emu.FaultCode
import Dsp56300.Emu.LongMoves

/-! Every emitted operation on the state that compiled code works on. -/

namespace Dsp56300

open Emitter Lib.Programs

variable {σ α : Type}

/-- Memory once the changed accumulators are stored. -/
def AluState.spill (t : AluState σ) : DspState σ :=
  let dsp := if t.accDirty .a then t.dsp.flushAccToMemory .a (t.acc .a) else t.dsp
  if t.accDirty .b then dsp.flushAccToMemory .b (t.acc .b) else dsp

namespace Alu

/-- Code on the part of the state the accumulators have nothing to do with. -/
def outer (f : DspState σ → α × DspState σ) : Alu σ α :=
  modifyGet fun t => ((f t.dsp).1, { t with dsp := (f t.dsp).2 })

/-- A helper, called with everything in memory; the accumulators are loaded again after it. What
is pending stays so. -/
def helper (f : DspState σ → α × DspState σ) : Alu σ α :=
  modifyGet fun t =>
    let (a, dsp) := f t.spill
    (a, { t with dsp, acc := dsp.reloadAcc, accDirty := fun _ => false })

def change (f : DspState σ → DspState σ) : DspState σ → Unit × DspState σ := fun s => ((), f s)

def spillFaultBudget (anchor : FaultAnchor) (fault : FaultClass) : Alu σ Unit :=
  outer (change fun s => { s with faultBudgetHint := fault.budget anchor })

/-- A register as a move reads it: A and B are limited, SSH is popped, A2 and B2 are
sign-extended. -/
def readRegForMove (anchor : FaultAnchor) (idx : RegIdx) : Alu σ Word :=
  if idx = Reg.a then readAccu24 .a
  else if idx = Reg.b then readAccu24 .b
  else if idx = Reg.ssh then do
    spillFaultBudget anchor .pop
    helper DspState.jitReadSsh
  else if idx = Reg.a2 ∨ idx = Reg.b2 then do
    let raw ← loadReg idx
    return mask24 (sshr (ishl raw 24) 24)
  else loadReg idx

/-- A register as a move writes it: A and B whole, SSH is pushed, SSL and SP go through their
helpers. -/
def writeRegForMove (anchor : FaultAnchor) (idx : RegIdx) (v : Word) : Alu σ Unit :=
  if idx = Reg.a then storeAcc .a (val24ToAcc56 v)
  else if idx = Reg.b then storeAcc .b (val24ToAcc56 v)
  else if idx = Reg.ssh then do
    spillFaultBudget anchor .push
    helper (change fun s => s.jitWriteSsh v)
  else if idx = Reg.ssl then helper (change fun s => s.jitWriteSsl v)
  else if idx = Reg.sp then do
    spillFaultBudget anchor .spWrite
    helper (change fun s => s.jitWriteSp v)
  else storeReg idx v

/-- P memory is written by the helper, for its dirty tracking. -/
def writeMemDyn (space : MemSpace) (addr v : Word) : Alu σ Unit :=
  if space = .p then helper (change fun s => s.writeMemDyn space addr v)
  else outer (change fun s => s.writeMemDyn space addr v)

def evalCcBool (code : CondCode) : Alu σ Bool := return code.eval (← loadSr) ≠ 0

end Alu

namespace DspState

/-- Memory reads and writes of compiled code, on the state. -/
def readMem (space : MemSpace) (addr : Word) (s : DspState σ) : Word × DspState σ :=
  let (v, world) := s.map.readMem space addr s.world
  (v, { s with world })

def readMemDyn (space : MemSpace) (addr : Word) (s : DspState σ) : Word × DspState σ :=
  let (v, world) := s.map.readMemDyn space addr s.world
  (v, { s with world })

def writeMem (space : MemSpace) (addr v : Word) (s : DspState σ) : DspState σ :=
  { s with world := s.map.writeMem space addr v s.world }

end DspState

theorem neZero_eight : NeZero 8 := ⟨by decide⟩

/-- The address register a number names. -/
def addressReg (numreg : Nat) : Fin 8 := @Fin.ofNat 8 neZero_eight numreg

/-- The code of an operation. Those on the emitter's own fields have none. -/
def Emitter.Op.code (anchor : FaultAnchor) : {γ : Type} → Op γ → Alu σ γ
  | _, .setDecodeLen _ | _, .setInstLen _ | _, .setCycles _ | _, .setFaultAnchorBump _ => pure ()
  | _, .storePc v => Alu.outer (Alu.change fun s => { s with pc := v })
  | _, .loadReg idx => Alu.loadReg (regAt idx)
  | _, .storeReg idx v => Alu.storeReg (regAt idx) v
  | _, .loadAcc d => Alu.loadAcc d
  | _, .storeAcc d v => Alu.storeAcc d v
  | _, .readRegForMove idx => Alu.readRegForMove anchor (regAt idx)
  | _, .writeRegForMove idx v => Alu.writeRegForMove anchor (regAt idx) v
  | _, .readLReg numreg => Alu.readLReg numreg
  | _, .writeLReg numreg lx ly => Alu.writeLReg numreg lx ly
  | _, .readMem space addr => Alu.outer (DspState.readMem space addr)
  | _, .writeMem space addr v => Alu.outer (Alu.change (DspState.writeMem space addr v))
  | _, .readMemDyn space addr => Alu.outer (DspState.readMemDyn space addr)
  | _, .writeMemDyn space addr v => Alu.writeMemDyn space addr v
  | _, .updateRn numreg modifier =>
    Alu.outer (Alu.change fun s => s.emitUpdateRn (addressReg numreg) modifier)
  | _, .evalCcBool code => Alu.evalCcBool code
  | _, .stackPush ssh ssl budget =>
    Alu.outer (Alu.change fun s => s.emitStackPush ssh ssl (budget.value anchor))
  | _, .stackPop budget => Alu.outer fun s => s.emitStackPop (budget.value anchor)
  | _, .loadInterruptState => Alu.outer fun s => (s.interrupts.state, s)
  | _, .storeInterruptState state =>
    Alu.outer (Alu.change fun s => { s with interrupts := { s.interrupts with state } })
  | _, .storePowerState powerState => Alu.outer (Alu.change fun s => { s with powerState })
  | _, .storeLoopRep loopRep => Alu.outer (Alu.change fun s => { s with loopRep })
  | _, .storePcOnRep pcOnRep => Alu.outer (Alu.change fun s => { s with pcOnRep })
  | _, .addInterrupt inter =>
    Alu.outer (Alu.change fun s => s.emitAddInterrupt (Fin.ofNat 128 inter))
  | _, .armFaultBudget words =>
    Alu.outer (Alu.change fun s => s.emitArmFaultBudget (BitVec.ofNat 32 words))
  | _, .spillFaultBudget fault => Alu.spillFaultBudget anchor fault
  | _, .readSsh => Alu.helper DspState.jitReadSsh
  | _, .writeSshTos v => Alu.helper (Alu.change fun s => s.jitWriteSshTos v)
  | _, .writeSsl v => Alu.helper (Alu.change fun s => s.jitWriteSsl v)
  | _, .writeSp v => Alu.helper (Alu.change fun s => s.jitWriteSp v)
  | _, .data path => path.emit

/-- The emitter between two operations, with the length and the cycles of the code so far. -/
structure EmitterState where
  anchor : FaultAnchor := {}
  instLen : Nat := 0
  cycles : Nat := 0

/-- What an operation does to the emitter. -/
def Emitter.Op.emission : {γ : Type} → Op γ → EmitterState → EmitterState
  | _, .setDecodeLen len, e => { e with anchor := { e.anchor with decodeLen := len } }
  | _, .setInstLen len, e => { e with instLen := len }
  | _, .setCycles n, e => { e with cycles := e.cycles + n }
  | _, .setFaultAnchorBump n, e => { e with anchor := { e.anchor with anchorBump := n } }
  | _, _, e => e

end Dsp56300
