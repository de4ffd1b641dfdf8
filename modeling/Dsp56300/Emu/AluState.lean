import Dsp56300.Emu.AccRounding
import Dsp56300.Emu.Emitter

/-! The accumulators and condition codes as compiled code holds them. -/

namespace Dsp56300

namespace Emitter

variable {w : Nat}

/-! Shifts by a run-time amount, which wraps at the width of the value. -/

def ishl (x : BitVec w) (n : Word) : BitVec w := x <<< (n.toNat % w)

def ushr (x : BitVec w) (n : Word) : BitVec w := x >>> (n.toNat % w)

def sshr (x : BitVec w) (n : Word) : BitVec w := x.sshiftRight (n.toNat % w)

/-- An `icmp` result extended to an integer. -/
def ofBool (b : Bool) : Word := (BitVec.ofBool b).setWidth 32

def shiftToBit (val : Word) (flag : Nat) : Word := val <<< flag

/-- Extract single bit from an i32 value. -/
def extractBit (srVal : Word) (bit : Nat) : Word := (srVal >>> bit) &&& 1

/-- Extract a single bit from an i64 value as an i32 (0 or 1). -/
def extractBitI64 (val : BitVec 64) (bit : Word) : Word := (ushr val bit).setWidth 32 &&& 1

def mask24 (val : Word) : Word := val &&& 0x00FFFFFF

def mask56 (val : BitVec 64) : BitVec 64 := val &&& 0x00FFFFFFFFFFFFFF

/-- Pack three i32 sub-register values into a 56-bit i64 accumulator. -/
def packAcc (a2 a1 a0 : Word) : BitVec 64 :=
  (a2.setWidth 64 <<< 48) ||| (a1.setWidth 64 <<< 24) ||| a0.setWidth 64

def extractAccLo (acc : BitVec 64) : Word := (acc &&& 0x00FFFFFF).setWidth 32

def extractAccMid (acc : BitVec 64) : Word := ((acc >>> 24) &&& 0x00FFFFFF).setWidth 32

def extractAccHi (acc : BitVec 64) : Word := ((acc >>> 48) &&& 0xFF).setWidth 32

/-- The sub-registers A2, A1, A0 of an accumulator. -/
def accRegs : Accumulator → RegIdx × RegIdx × RegIdx
  | .a => (Reg.a2, Reg.a1, Reg.a0)
  | .b => (Reg.b2, Reg.b1, Reg.b0)

/-- Deferred CCR flag computation. -/
inductive PendingFlags where
  /-- Standard ALU: EUNZ from result, VCL from add/sub operands. -/
  | aluAddSub (result56 source dest resultRaw : BitVec 64) (isSub : Bool)
  /-- EUNZ only, V cleared, C unchanged. -/
  | nzClearV (result56 : BitVec 64)
  | nzOnly (result56 : BitVec 64)
  | nzClearVSm (result56 : BitVec 64)
  | macVlSm (result56 product acc : BitVec 64)
  | nzVlSm (result56 : BitVec 64) (overflow : Word)
  | nzSm (result56 : BitVec 64)
  | nzVclSub (result56 source dest resultRaw : BitVec 64)
  /-- The shift of ADDL and SUBL contributes V and L, not C. -/
  | addlSubl (result56 source destShifted resultRaw : BitVec 64) (isSub : Bool) (aslV : Word)
  | dmacVl (result56 product acc : BitVec 64)
  | shift24 (carry : Word) (nVal : Option Word) (result : Word)
  | logical (result24 : Word)

/-- Whether materializing this kind rewrites all of E, U, N and Z. -/
def PendingFlags.rewritesEunz : PendingFlags → Bool
  | .shift24 .. | .logical .. => false
  | _ => true

/-- Whether materializing this kind consumes the deferred SM saturation marker. -/
def PendingFlags.consumesSmMarker : PendingFlags → Bool
  | .aluAddSub .. | .nzClearVSm .. | .macVlSm .. | .nzVlSm .. | .nzSm .. | .addlSubl .. => true
  | _ => false

end Emitter

open Emitter

/-- What compiled code works on: the state, with the accumulators in variables, and the deferred
condition codes. -/
structure AluState (σ : Type) where
  dsp : DspState σ
  acc : Accumulator → BitVec 64
  accDirty : Accumulator → Bool
  smNeedsSat : Word
  pendingFlags : Option PendingFlags
  pendingSmMarker : Option Word

variable {σ : Type}

namespace DspState

/-- Update E, U, N, Z in SR from a 56-bit accumulator value. -/
def jitUpdateNz (sr : Word) (accVal : BitVec 64) : Word :=
  let reg0 : Word := ((accVal.sshiftRight 48) &&& 0xFF).setWidth 32
  let reg1 : Word := ((accVal.sshiftRight 24) &&& 0xFFFFFF).setWidth 32
  let (e, u) : Bool × Bool :=
    if sr &&& ((1#32 <<< Sr.s0) ||| (1#32 <<< Sr.s1)) = 0 then
      let valE := ((reg0 <<< 1) ||| (reg1 >>> 23)) &&& 0x1FF
      let bits := reg1 &&& 0xC00000
      (valE ≠ 0 && valE ≠ 0x1FF, bits = 0 || bits = 0xC00000)
    else euScaled sr reg0 reg1
  let n : Bool := (accVal.sshiftRight 55) &&& 1 ≠ 0
  let z : Bool := accVal &&& 0x00FFFFFFFFFFFFFF = 0
  let newSr := sr &&&
    ~~~((1#32 <<< Sr.e) ||| (1#32 <<< Sr.u) ||| (1#32 <<< Sr.n) ||| (1#32 <<< Sr.z))
  let newSr := if e then newSr ||| (1#32 <<< Sr.e) else newSr
  let newSr := if u then newSr ||| (1#32 <<< Sr.u) else newSr
  let newSr := if n then newSr ||| (1#32 <<< Sr.n) else newSr
  if z then newSr ||| (1#32 <<< Sr.z) else newSr
where
  /-- E and U in the scaling modes; the reserved one clears both. -/
  euScaled (sr reg0 reg1 : Word) : Bool × Bool :=
    match ((sr >>> Sr.s0) &&& 3).toNat with
    | 1 =>
      let val := ((reg0 <<< 1) ||| (reg1 >>> 23)) &&& 3
      (reg0 ≠ 0 && reg0 ≠ 0xFF, val = 0 || val = 3)
    | 2 =>
      let valE := ((reg0 <<< 2) ||| (reg1 >>> 22)) &&& 0x3FF
      let bits := reg1 &&& 0x600000
      (valE ≠ 0 && valE ≠ 0x3FF, bits = 0 || bits = 0x600000)
    | _ => (false, false)

/-- Clamp a 56-bit accumulator in saturation mode; bit 56 tells whether it was clamped. -/
def jitSaturateSm (s : DspState σ) (val : BitVec 64) : BitVec 64 :=
  if s.registers Reg.sr &&& (1#32 <<< Sr.sm) = 0 then val
  else
    let b55 := (val.sshiftRight 55) &&& 1
    let b48 := (val.sshiftRight 48) &&& 1
    let b47 := (val.sshiftRight 47) &&& 1
    if (b55 ^^^ b48) ||| (b48 ^^^ b47) = 0 then val
    else (if b55 ≠ 0 then 0x00FF800000000000 else 0x00007FFFFFFFFFFF) ||| (1#64 <<< 56)

/-- Read accumulator as 24-bit value with scaling and limiting; bit 24 tells that it was not
clamped. L and S of SR are updated. -/
def jitReadAccu24 (s : DspState σ) (acc : Accumulator) : Word × DspState σ :=
  let (r2, r1, r0) := accRegs acc
  let a2 := s.registers r2
  let a1 := s.registers r1
  let a0 := s.registers r0
  let sr := s.registers Reg.sr
  let scaling := ((sr >>> Sr.s0) &&& 3).toNat
  let combined := (a2 <<< 24) ||| a1
  let shifted : Word := match scaling with
    | 1 => combined >>> 1
    | 2 => (combined <<< 1) ||| ((a0 >>> 23) &&& 1)
    | _ => combined
  let value := shifted &&& 0x00FFFFFF
  let okPos : Bool := a2 = 0 && value ≤ 0x7FFFFF
  let okNeg : Bool := a2 = 0xFF && value ≥ 0x800000
  let a1Bit23 := (a1 >>> 23) &&& 1
  let noLimit : Bool :=
    if scaling = 2 then (okPos && a1Bit23 = 0) || (okNeg && a1Bit23 ≠ 0) else okPos || okNeg
  let result : Word :=
    if noLimit then value else if a2 &&& 0x80 ≠ 0 then 0x800000 else 0x7FFFFF
  let newSr := if noLimit then sr else sr ||| (1#32 <<< Sr.l)
  let packed : BitVec 64 := ((a2.setWidth 64 &&& 0xFF) <<< 48) |||
    ((a1.setWidth 64 &&& 0xFFFFFF) <<< 24) ||| (a0.setWidth 64 &&& 0xFFFFFF)
  let growth : BitVec 64 := match scaling with
    | 1 => (packed >>> 47) ^^^ (packed >>> 46)
    | 2 => (packed >>> 45) ^^^ (packed >>> 44)
    | _ => (packed >>> 46) ^^^ (packed >>> 45)
  let newSr := if growth &&& 1 ≠ 0 then newSr ||| (1#32 <<< Sr.s) else newSr
  (result ||| (if noLimit then 1#32 <<< 24 else 0), s.setReg Reg.sr newSr)

end DspState

end Dsp56300
