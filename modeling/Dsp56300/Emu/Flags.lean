import Dsp56300.Emu.AluState

/-! Deferred condition codes: what an instruction declares, and how it reaches SR. -/

namespace Dsp56300

open Emitter

variable {σ : Type}

namespace Emitter

/-- Shift `overflow` (0/1) to V and L bit positions and OR into `sr`. -/
def orVl (sr overflow : Word) : Word := sr ||| shiftToBit overflow Sr.v ||| shiftToBit overflow Sr.l

end Emitter

/-! The updates a flush makes, from one SR to the next. The pending computation is taken by then,
so SR is read and stored directly. -/

namespace SrUpdate

def store (v : Word) : Word := maskReg Reg.sr v

def clear (flags sr : Word) : Word := sr &&& ~~~flags

/-- `update_nz_now`, unless E/U/N/Z are dead. -/
def updateNzMaybe (accVal : BitVec 64) (dead : Bool) (sr : Word) : Word :=
  if dead then sr else store (DspState.jitUpdateNz sr accVal)

/-- Logical operations only clear N, Z, V and set N and Z from the 24-bit result. -/
def updateNzvLogical (result24 sr : Word) : Word :=
  let nRaw := (result24 >>> 23) &&& 1
  let srNew := clear ((1#32 <<< Sr.n) ||| (1#32 <<< Sr.z) ||| (1#32 <<< Sr.v)) sr |||
    shiftToBit nRaw Sr.n
  store (srNew ||| shiftToBit (ofBool (result24 = 0)) Sr.z)

/-- Clears V, sets V and L (sticky). Does not modify C. -/
def setVlOverflow (overflow sr : Word) : Word :=
  store (orVl (clear (1#32 <<< Sr.v) sr) overflow)

/-- Both input signs agree but differ from the result. -/
def macSetVl (product acc result : BitVec 64) (sr : Word) : Word :=
  let signS := extractBitI64 product 55
  let signD := extractBitI64 acc 55
  let signR := extractBitI64 result 55
  setVlOverflow ((signS ^^^ signR) &&& (signD ^^^ signR)) sr

def updateShift24Flags (carry : Word) (nVal : Option Word) (result sr : Word) : Word :=
  let srNew := clear ((1#32 <<< Sr.c) ||| (1#32 <<< Sr.n) ||| (1#32 <<< Sr.z) |||
    (1#32 <<< Sr.v)) sr ||| carry
  let srNew := match nVal with
    | some n => srNew ||| shiftToBit n Sr.n
    | none => srNew
  store (srNew ||| shiftToBit (ofBool (result = 0)) Sr.z)

/-- V, C, L for a 56-bit add or subtract, `result` unmasked. -/
def updateVcl (source dest result : BitVec 64) (isSub : Bool) (sr : Word) : Word :=
  let carry := extractBitI64 result 56
  let signS := extractBitI64 source 55
  let signD := extractBitI64 dest 55
  let signR := extractBitI64 (mask56 result) 55
  let overflow := if isSub then (signS ^^^ signD) &&& (signR ^^^ signD)
    else (signS ^^^ signR) &&& (signD ^^^ signR)
  store (orVl (clear ((1#32 <<< Sr.v) ||| (1#32 <<< Sr.c)) sr ||| carry) overflow)

def clearVFlag (sr : Word) : Word := store (clear (1#32 <<< Sr.v) sr)

/-- OR `overflow` into SR.V and SR.L. -/
def orVlSr (overflow sr : Word) : Word := store (orVl sr overflow)

end SrUpdate

open SrUpdate

/-- SR after the pending computation, with what it consumes of the SM saturation marker. -/
def Emitter.PendingFlags.materialize (eunzDead : Bool) (needsSat sr : Word) : PendingFlags → Word
  | .aluAddSub result56 source dest resultRaw isSub =>
    let sr := updateVcl source dest resultRaw isSub (updateNzMaybe result56 eunzDead sr)
    orVlSr needsSat sr
  | .nzClearV result56 => clearVFlag (updateNzMaybe result56 eunzDead sr)
  | .nzOnly result56 => updateNzMaybe result56 eunzDead sr
  | .nzClearVSm result56 => orVlSr needsSat (clearVFlag (updateNzMaybe result56 eunzDead sr))
  | .macVlSm result56 product acc =>
    orVlSr needsSat (macSetVl product acc result56 (updateNzMaybe result56 eunzDead sr))
  | .nzVlSm result56 overflow =>
    orVlSr needsSat (setVlOverflow overflow (updateNzMaybe result56 eunzDead sr))
  | .nzSm result56 => orVlSr needsSat (updateNzMaybe result56 eunzDead sr)
  | .nzVclSub result56 source dest resultRaw =>
    updateVcl source dest resultRaw true (updateNzMaybe result56 eunzDead sr)
  | .addlSubl result56 source destShifted resultRaw isSub aslV =>
    let sr := updateVcl source destShifted resultRaw isSub (updateNzMaybe result56 eunzDead sr)
    orVlSr needsSat (orVlSr aslV sr)
  | .dmacVl result56 product acc =>
    macSetVl product acc result56 (updateNzMaybe result56 eunzDead sr)
  | .shift24 carry nVal result => updateShift24Flags carry nVal result sr
  | .logical result24 => updateNzvLogical result24 sr

/-- Code between the accumulators, the registers and SR. -/
abbrev Alu (σ : Type) := StateM (AluState σ)

namespace AluState

def sr (s : AluState σ) : Word := s.dsp.registers Reg.sr

def setSr (s : AluState σ) (v : Word) : AluState σ := { s with dsp := s.dsp.setReg Reg.sr v }

/-- The flush of the pending computation; the marker is the variable itself where none was
snapshotted. -/
def flush (s : AluState σ) (eunzDead : Bool) : AluState σ :=
  match s.pendingFlags with
  | none => s
  | some flags =>
    let needsSat := s.pendingSmMarker.getD s.smNeedsSat
    { s.setSr (flags.materialize eunzDead needsSat s.sr) with
      pendingFlags := none
      pendingSmMarker := if flags.consumesSmMarker then none else s.pendingSmMarker }

/-- A register other than SR; accumulator parts are extracted from the packed variable. -/
def readReg (s : AluState σ) (idx : RegIdx) : Word :=
  if idx = Reg.a0 then extractAccLo (s.acc .a)
  else if idx = Reg.a1 then extractAccMid (s.acc .a)
  else if idx = Reg.a2 then extractAccHi (s.acc .a)
  else if idx = Reg.b0 then extractAccLo (s.acc .b)
  else if idx = Reg.b1 then extractAccMid (s.acc .b)
  else if idx = Reg.b2 then extractAccHi (s.acc .b)
  else s.dsp.registers idx

def setAcc (s : AluState σ) (d : Accumulator) (v : BitVec 64) : AluState σ :=
  { s with acc := Function.update s.acc d v, accDirty := Function.update s.accDirty d true }

/-- Insert a sub-register value into the packed accumulator. -/
def setAccSubreg (s : AluState σ) (d : Accumulator) (shift : Nat) (fieldMask : BitVec 64)
    (v : Word) : AluState σ :=
  s.setAcc d ((s.acc d &&& ~~~(fieldMask <<< shift)) ||| ((v.setWidth 64 &&& fieldMask) <<< shift))

/-- A register other than SR, already masked to its width. -/
def writeReg (s : AluState σ) (idx : RegIdx) (v : Word) : AluState σ :=
  if idx = Reg.a0 then s.setAccSubreg .a 0 0xFFFFFF v
  else if idx = Reg.a1 then s.setAccSubreg .a 24 0xFFFFFF v
  else if idx = Reg.a2 then s.setAccSubreg .a 48 0xFF v
  else if idx = Reg.b0 then s.setAccSubreg .b 0 0xFFFFFF v
  else if idx = Reg.b1 then s.setAccSubreg .b 24 0xFFFFFF v
  else if idx = Reg.b2 then s.setAccSubreg .b 48 0xFF v
  else { s with dsp := s.dsp.setReg idx v }

/-- A direct SR write supersedes the pending computation and its marker. -/
def storeSr (s : AluState σ) (v : Word) : AluState σ :=
  let s := match s.pendingFlags with
    | none => s
    | some _ => { s with pendingFlags := none, pendingSmMarker := none, smNeedsSat := 0 }
  s.setSr (maskReg Reg.sr v)

/-- Defer `flags`: what was pending is materialized first, up to what `flags` overwrites. -/
def setPending (s : AluState σ) (flags : PendingFlags) : AluState σ :=
  let s := s.flush flags.rewritesEunz
  if flags.consumesSmMarker then
    { s with pendingFlags := some flags, pendingSmMarker := some s.smNeedsSat, smNeedsSat := 0 }
  else { s with pendingFlags := some flags }

end AluState

namespace Alu

def flushPendingFlags : Alu σ Unit := modify fun s => s.flush false

def loadSr : Alu σ Word := do
  flushPendingFlags
  return (← get).sr

def loadReg (idx : RegIdx) : Alu σ Word :=
  if idx = Reg.sr then loadSr else return (← get).readReg idx

def storeReg (idx : RegIdx) (v : Word) : Alu σ Unit :=
  modify fun s => if idx = Reg.sr then s.storeSr v else s.writeReg idx (maskReg idx v)

def loadAcc (d : Accumulator) : Alu σ (BitVec 64) := return (← get).acc d

def storeAcc (d : Accumulator) (v : BitVec 64) : Alu σ Unit := modify fun s => s.setAcc d v

/-- Load SR and clear the given flag bits. -/
def clearSrFlags (flags : Word) : Alu σ Word := return clear flags (← loadSr)

/-- Record a flag computation; what was pending is materialized first. -/
def setPending (flags : PendingFlags) : Alu σ Unit := modify fun s => s.setPending flags

def setCarry (cBit : Word) : Alu σ Unit := do
  let srC ← clearSrFlags (1#32 <<< Sr.c)
  storeReg Reg.sr (srC ||| (cBit &&& 1))

def clearVFlag : Alu σ Unit := do
  let sr ← clearSrFlags (1#32 <<< Sr.v)
  storeReg Reg.sr sr

/-- Update the carry bit in SR from a specific bit of a value. -/
def updateCarryFromBit (val : Word) (bitNum : Word) : Alu σ Unit := do
  let srC ← clearSrFlags (1#32 <<< Sr.c)
  storeReg Reg.sr (srC ||| (ushr val bitNum &&& 1))

/-- Arithmetic saturation mode; the marker tells whether the value was clamped. -/
def emitSaturateSm (result : BitVec 64) : Alu σ (BitVec 64) := do
  let packed := (← get).dsp.jitSaturateSm result
  modify fun s => { s with smNeedsSat := extractBitI64 packed 56 }
  return mask56 packed

/-- Rounding instructions clamp to the rounded grid: the low 24 bits are zero. -/
def emitSaturateSmRnd (result : BitVec 64) : Alu σ (BitVec 64) := do
  let sat ← emitSaturateSm result
  let didSat := (← get).smNeedsSat ≠ 0
  return if didSat then sat &&& mask56 (~~~0xFFFFFF) else sat

end Alu

end Dsp56300
