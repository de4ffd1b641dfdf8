import Dsp56300.Emu.Alu

/-! The logical data paths: bits, shifts of A1 and B1, and bit fields. -/

namespace Dsp56300

open Emitter

variable {σ : Type}

namespace Alu

/-- The word A1 or B1 the logical operations work on. -/
def midReg (d : Accumulator) : RegIdx := (accRegs d).2.1

/-- AND with MR, CCR, COM or EOM, by the EE field. -/
def emitAndi (imm dest : Byte) : Alu σ Unit :=
  let high : Word := (imm.setWidth 32 <<< 8) ||| 0xFF00FF
  let low : Word := imm.setWidth 32 ||| 0xFFFF00
  match dest.toNat with
  | 0 => do storeReg Reg.sr ((← loadSr) &&& high)
  | 1 => do storeReg Reg.sr ((← loadSr) &&& low)
  | 2 => do storeReg Reg.omr ((← loadReg Reg.omr) &&& low)
  | 3 => do storeReg Reg.omr ((← loadReg Reg.omr) &&& high)
  | _ => pure ()

def emitOri (imm dest : Byte) : Alu σ Unit :=
  let high : Word := imm.setWidth 32 <<< 8
  let low : Word := imm.setWidth 32
  match dest.toNat with
  | 0 => do storeReg Reg.sr ((← loadSr) ||| high)
  | 1 => do storeReg Reg.sr ((← loadSr) ||| low)
  | 2 => do storeReg Reg.omr ((← loadReg Reg.omr) ||| low)
  | 3 => do storeReg Reg.omr ((← loadReg Reg.omr) ||| high)
  | _ => pure ()

def emitLogicalOpAcc (d : Accumulator) (src : Word) (op : LogicalOp) : Alu σ Unit := do
  let dst ← loadReg (midReg d)
  let result := match op with
    | .and => dst &&& src
    | .or => dst ||| src
    | .eor => dst ^^^ src
  storeReg (midReg d) result
  setPending (.logical result)

def emitAluNot (d : Accumulator) : Alu σ Unit := do
  let val ← loadReg (midReg d)
  let notted := val ^^^ 0x00FFFFFF
  storeReg (midReg d) notted
  setPending (.logical notted)

/-- AND, OR and EOR of a register into A1 or B1. -/
def emitAluBitwise (op : Word → Word → Word) (src : RegIdx) (d : Accumulator) : Alu σ Unit := do
  let src ← loadReg src
  let dst ← loadReg (midReg d)
  let result := mask24 (op src dst)
  storeReg (midReg d) result
  setPending (.logical result)

def emitAluAndReg (src : RegIdx) (d : Accumulator) : Alu σ Unit := emitAluBitwise (· &&& ·) src d

def emitAluOrReg (src : RegIdx) (d : Accumulator) : Alu σ Unit := emitAluBitwise (· ||| ·) src d

def emitAluEorReg (src : RegIdx) (d : Accumulator) : Alu σ Unit := emitAluBitwise (· ^^^ ·) src d

/-- Logical shift right by 1: C is the old bit 0. N is left cleared. -/
def emitAluLsr (d : Accumulator) : Alu σ Unit := do
  let val ← loadReg (midReg d)
  let result := ushr val 1
  storeReg (midReg d) result
  setPending (.shift24 (val &&& 1) none result)

def emitAluLsl (d : Accumulator) : Alu σ Unit := do
  let val ← loadReg (midReg d)
  let carry := ushr val 23 &&& 1
  let result := mask24 (ishl val 1)
  storeReg (midReg d) result
  setPending (.shift24 carry (some (ushr result 23 &&& 1)) result)

/-- Rotate right: the old C enters at bit 23, the old bit 0 becomes C. -/
def emitAluRor (d : Accumulator) : Alu σ Unit := do
  let val ← loadReg (midReg d)
  let oldCarry := (← loadSr) &&& 1
  let result := ushr val 1 ||| ishl oldCarry 23
  storeReg (midReg d) result
  setPending (.shift24 (val &&& 1) (some oldCarry) result)

/-- Rotate left: the old C enters at bit 0, the old bit 23 becomes C. -/
def emitAluRol (d : Accumulator) : Alu σ Unit := do
  let val ← loadReg (midReg d)
  let newCarry := ushr val 23 &&& 1
  let oldCarry := (← loadSr) &&& 1
  let result := mask24 (ishl val 1 ||| oldCarry)
  storeReg (midReg d) result
  setPending (.shift24 newCarry (some (ushr result 23 &&& 1)) result)

/-- A shift by 0 clears C and leaves the word, with N, Z and V of its value. -/
def shiftByZero (d : Accumulator) : Alu σ Unit := do
  let sr ← clearSrFlags (1#32 <<< Sr.c)
  storeReg Reg.sr sr
  let val ← loadReg (midReg d)
  setPending (.logical val)

def emitLslImm (shift : Byte) (d : Accumulator) : Alu σ Unit :=
  let ii := shift.setWidth 32
  if ii = 0 then shiftByZero d
  else do
    let val ← loadReg (midReg d)
    -- the last bit shifted out; the position saturates at 0
    updateCarryFromBit val (BitVec.ofNat 32 (24 - ii.toNat))
    let result := mask24 (ishl val ii)
    storeReg (midReg d) result
    setPending (.logical result)

def emitLsrImm (shift : Byte) (d : Accumulator) : Alu σ Unit :=
  let ii := shift.setWidth 32
  if ii = 0 then shiftByZero d
  else do
    let val ← loadReg (midReg d)
    updateCarryFromBit val (BitVec.ofNat 32 (ii.toNat - 1))
    let result := ushr val ii
    storeReg (midReg d) result
    setPending (.logical result)

def emitLslReg (src : RegIdx) (d : Accumulator) : Alu σ Unit := do
  let val ← loadReg (midReg d)
  let shift := (← loadReg src) &&& 0x3F
  let carryBit := ushr val (24 - shift) &&& 1
  let result := mask24 (ishl val shift)
  storeReg (midReg d) result
  let sr ← clearSrFlags (1#32 <<< Sr.c)
  storeReg Reg.sr (sr ||| shiftToBit carryBit Sr.c)
  setPending (.logical result)

def emitLsrReg (src : RegIdx) (d : Accumulator) : Alu σ Unit := do
  let val ← loadReg (midReg d)
  let shift := (← loadReg src) &&& 0x3F
  let carryBit := ushr val (shift - 1) &&& 1
  let result := ushr val shift
  storeReg (midReg d) result
  let sr ← clearSrFlags (1#32 <<< Sr.c)
  storeReg Reg.sr (sr ||| shiftToBit carryBit Sr.c)
  setPending (.logical result)

/-- Count leading bits: 9 less the number of bits that match the sign, 0 for a zero source. -/
def emitClb (s d : Accumulator) : Alu σ Unit := do
  let acc ← loadAcc s
  let signBit := (acc >>> 55) &&& 1
  let val := if signBit ≠ 0 then acc ^^^ 0x00FFFFFFFFFFFFFF else acc
  let lz32 : Word := (val <<< 8).clz.setWidth 32
  let clamped : Word := if lz32 ≤ 56 then lz32 else 56
  let result : Word := if acc = 0 then 0 else 9 - clamped
  let packed := val24ToAcc56 (mask24 result)
  storeAcc d packed
  setPending (.logical (extractAccMid packed))

/-- Width and offset of a bit field. -/
def fieldBounds (control : Word) : Word × Word := ((control >>> 12) &&& 0x3F, control &&& 0x3F)

/-- The low `width` bits. -/
def lowMask (width : Word) : BitVec 64 := ishl (1 : BitVec 64) width - 1

/-- V and C are cleared, E, U, N and Z follow the result. -/
def fieldFlags (result : BitVec 64) : Alu σ Unit := do
  let sr ← clearSrFlags ((1#32 <<< Sr.v) ||| (1#32 <<< Sr.c))
  storeReg Reg.sr sr
  setPending (.nzOnly result)

def emitExtract (control : Word) (s2 d : Accumulator) (unsigned : Bool) : Alu σ Unit := do
  let (width, offset) := fieldBounds control
  let srcAcc ← loadAcc s2
  let mask := lowMask width
  let field := ushr srcAcc offset &&& mask
  let signBit := ushr field (width - 1) &&& 1
  let result := if unsigned then field
    else if signBit ≠ 0 then field ||| (mask ^^^ 0x00FFFFFFFFFFFFFF) else field
  storeAcc d (mask56 result)
  fieldFlags (mask56 result)

def emitInsert (control : Word) (s2 : RegIdx) (d : Accumulator) : Alu σ Unit := do
  let (width, offset) := fieldBounds control
  let s2Val ← loadReg s2
  let acc ← loadAcc d
  let fieldMask := lowMask width
  let fieldShifted := ishl (s2Val.setWidth 64 &&& fieldMask) offset
  let accCleared := acc &&& ~~~(ishl fieldMask offset)
  let result := mask56 (accCleared ||| fieldShifted)
  storeAcc d result
  fieldFlags result

/-- The low 12 bits of a register above the low 12 bits of A1 or B1. -/
def emitMerge (src : RegIdx) (d : Accumulator) : Alu σ Unit := do
  let srcLo12 := (← loadReg src) &&& 0xFFF
  let acc ← loadAcc d
  let newA1 := (srcLo12 <<< 12) ||| (extractAccMid acc &&& 0xFFF)
  storeAcc d ((acc &&& 0xFF000000FFFFFF) ||| (newA1.setWidth 64 <<< 24))
  setPending (.logical newA1)

end Alu

end Dsp56300
