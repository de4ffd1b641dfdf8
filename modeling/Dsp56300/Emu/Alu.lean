import Dsp56300.Emu.EmitInstruction
import Dsp56300.Emu.Flags

/-! The arithmetic data paths. -/

namespace Dsp56300

open Emitter

variable {σ : Type}

namespace Emitter

/-- Sign-extend a 56-bit value packed in i64 to a proper 64-bit signed value. -/
def sext56ToI64 (val : BitVec 64) : BitVec 64 := (val <<< 8).sshiftRight 8

/-- Arithmetic shift right by 1 for a 56-bit accumulator, preserving bit 55 (sign). -/
def asrOne56bit (val : BitVec 64) : BitVec 64 := (val >>> 1) ||| (val &&& (1#64 <<< 55))

/-- Sign-extend a 24-bit i32 value to full i64 (for multiplication). -/
def sext24ToI64 (val : Word) : BitVec 64 := ((val <<< 8).sshiftRight 8).signExtend 64

def zext24ToI64 (val : Word) : BitVec 64 := (val &&& 0x00FFFFFF).setWidth 64

/-- A 24-bit value at the A1 position, without sign extension. -/
def val24ToAcc56Unsigned (val : Word) : BitVec 64 := mask56 (val.setWidth 64 <<< 24)

/-- The absolute value of a 56-bit accumulator value. -/
def abs56 (val : BitVec 64) : BitVec 64 :=
  if (val >>> 55).setWidth 32 ≠ (0 : Word) then mask56 (0 - val) else val

/-- The product of two sign- or zero-extended operands, in fractional format. -/
def fractional (s1 s2 : BitVec 64) (negate : Bool) : BitVec 64 :=
  let productShifted := (s1 * s2) <<< 1
  if negate then 0 - productShifted else productShifted

end Emitter

namespace Alu

/-- Load X or Y 48-bit register pair as 56-bit accumulator value. -/
def loadXyAsAcc56 (hi lo : RegIdx) : Alu σ (BitVec 64) := do
  let hi32 ← loadReg hi
  let lo32 ← loadReg lo
  let loMid := (hi32.setWidth 64 <<< 24) ||| lo32.setWidth 64
  return mask56 ((loMid <<< 16).sshiftRight 16)

def loadReg24AsAcc56 (idx : RegIdx) : Alu σ (BitVec 64) := return val24ToAcc56 (← loadReg idx)

/-- Add or subtract `src` from an accumulator, optionally store, and defer NZ + VCL flags. -/
def emitAccAddsub (src : BitVec 64) (d : Accumulator) (isSub store : Bool) : Alu σ Unit := do
  let dst ← loadAcc d
  let result := if isSub then dst - src else dst + src
  let result56 := mask56 result
  if store then
    let sat ← emitSaturateSm result56
    storeAcc d sat
    setPending (.aluAddSub sat src dst result isSub)
  else setPending (.aluAddSub result56 src dst result isSub)

def emitAluClr (d : Accumulator) : Alu σ Unit := do
  storeAcc d 0
  let srC ← clearSrFlags ((1#32 <<< Sr.e) ||| (1#32 <<< Sr.n) ||| (1#32 <<< Sr.v))
  storeReg Reg.sr (srC ||| ((1#32 <<< Sr.u) ||| (1#32 <<< Sr.z)))

def emitAluTst (d : Accumulator) : Alu σ Unit := do
  let acc ← loadAcc d
  setPending (.nzClearV (mask56 acc))

def emitAluTfrAcc (src dst : Accumulator) : Alu σ Unit := do storeAcc dst (← loadAcc src)

def emitAluTfrReg24 (src : RegIdx) (d : Accumulator) : Alu σ Unit := do
  storeAcc d (val24ToAcc56 (← loadReg src))

def emitAluAddAcc (src dst : Accumulator) : Alu σ Unit := do
  emitAccAddsub (← loadAcc src) dst false true

def emitAluSubAcc (src dst : Accumulator) : Alu σ Unit := do
  emitAccAddsub (← loadAcc src) dst true true

def emitAluCmpAcc (src dst : Accumulator) : Alu σ Unit := do
  emitAccAddsub (← loadAcc src) dst true false

def emitAluAddReg24 (src : RegIdx) (d : Accumulator) : Alu σ Unit := do
  emitAccAddsub (← loadReg24AsAcc56 src) d false true

def emitAluSubReg24 (src : RegIdx) (d : Accumulator) : Alu σ Unit := do
  emitAccAddsub (← loadReg24AsAcc56 src) d true true

def emitAluCmpReg24 (src : RegIdx) (d : Accumulator) : Alu σ Unit := do
  emitAccAddsub (← loadReg24AsAcc56 src) d true false

def emitAluAddXy (hi lo : RegIdx) (d : Accumulator) : Alu σ Unit := do
  emitAccAddsub (← loadXyAsAcc56 hi lo) d false true

def emitAluSubXy (hi lo : RegIdx) (d : Accumulator) : Alu σ Unit := do
  emitAccAddsub (← loadXyAsAcc56 hi lo) d true true

def emitAluNeg (d : Accumulator) : Alu σ Unit := do
  let acc ← loadAcc d
  let result56 ← emitSaturateSm (mask56 (0 - acc))
  storeAcc d result56
  -- NEG: V set only if value is most negative
  setPending (.nzVlSm result56 (ofBool (acc = 0x80000000000000)))

def emitAluAbs (d : Accumulator) : Alu σ Unit := do
  let acc ← loadAcc d
  let negated56 := mask56 (0 - acc)
  let sign32 : Word := (acc >>> 55).setWidth 32
  let result := if sign32 ≠ 0 then negated56 else acc
  let result ← emitSaturateSm result
  storeAcc d result
  let rawOverflow := (sign32 &&& 1) &&& extractBitI64 negated56 55
  setPending (.nzVlSm result (if sign32 ≠ 0 then rawOverflow else 0))

def emitAluAsr (d : Accumulator) : Alu σ Unit := do
  let acc ← loadAcc d
  setCarry (extractBitI64 acc 0)
  clearVFlag
  let result56 ← emitSaturateSm (mask56 (asrOne56bit acc))
  storeAcc d result56
  setPending (.nzSm result56)

def emitAluAsl (d : Accumulator) : Alu σ Unit := do
  let acc ← loadAcc d
  let carry := extractBitI64 acc 55
  let overflow := carry ^^^ extractBitI64 acc 54
  let srNew ← clearSrFlags ((1#32 <<< Sr.v) ||| (1#32 <<< Sr.c))
  storeReg Reg.sr (orVl (srNew ||| carry) overflow)
  let result56 ← emitSaturateSm (mask56 (acc <<< 1))
  storeAcc d result56
  setPending (.nzSm result56)

/-- Shared ADDR/SUBR implementation: ASR dest by 1, then add or subtract source. -/
def emitAluAddrSubr (src dst : Accumulator) (isSub : Bool) : Alu σ Unit := do
  let s ← loadAcc src
  let d ← loadAcc dst
  let dShifted := asrOne56bit d
  let result := if isSub then dShifted - s else dShifted + s
  let result56 ← emitSaturateSm (mask56 result)
  storeAcc dst result56
  setPending (.aluAddSub result56 s dShifted result isSub)

/-- Shared ADDL/SUBL implementation: LSL dest by 1, then add or subtract source. -/
def emitAluAddlSubl (src dst : Accumulator) (isSub : Bool) : Alu σ Unit := do
  let s ← loadAcc src
  let d ← loadAcc dst
  let dShifted := mask56 (d <<< 1)
  let aslV := extractBitI64 d 55 ^^^ extractBitI64 dShifted 55
  let result := if isSub then dShifted - s else dShifted + s
  let result56 ← emitSaturateSm (mask56 result)
  storeAcc dst result56
  setPending (.addlSubl result56 s dShifted result isSub aslV)

/-- Shared ADC/SBC implementation: add or subtract X/Y + carry to/from accumulator. -/
def emitAluAdcSbc (hi lo : RegIdx) (d : Accumulator) (isSub : Bool) : Alu σ Unit := do
  let src56 ← loadXyAsAcc56 hi lo
  let dst ← loadAcc d
  let srVal ← loadSr
  let curCarry64 : BitVec 64 := (srVal &&& 1).setWidth 64
  let result := if isSub then dst - src56 - curCarry64 else dst + src56 + curCarry64
  let result56 ← emitSaturateSm (mask56 result)
  storeAcc d result56
  setPending (.aluAddSub result56 src56 dst result isSub)

/-- |D| - |S|: update flags, don't store. -/
def emitCmpm (s d : BitVec 64) : Alu σ Unit :=
  let absS := abs56 s
  let absD := abs56 d
  let result := absD - absS
  setPending (.nzVclSub (mask56 result) absS absD result)

def emitAluCmpmAcc (src dst : Accumulator) : Alu σ Unit := do
  let s ← loadAcc src
  let d ← loadAcc dst
  emitCmpm s d

def emitAluCmpmReg24 (src : RegIdx) (d : Accumulator) : Alu σ Unit := do
  let src56 ← loadReg24AsAcc56 src
  let dst ← loadAcc d
  emitCmpm src56 dst

/-- The rounding of RND before saturation, by the scaling and rounding bits of SR. -/
def rndValue (srVal : Word) (acc : BitVec 64) : BitVec 64 :=
  let isS0 := srVal &&& (1#32 <<< Sr.s0) ≠ 0
  let isS1 := srVal &&& (1#32 <<< Sr.s1) ≠ 0
  let isConvergent := srVal &&& (1#32 <<< Sr.rm) = 0
  let maskA0 := mask56 (~~~0xFFFFFF)
  -- no scaling
  let rd := mask56 (acc + 0x800000)
  let rd := if rd &&& 0xFFFFFF = 0 ∧ isConvergent then rd &&& ~~~(1#64 <<< 24) else rd
  let resultDef := rd &&& maskA0
  -- scale down
  let rs0 := mask56 (acc + (1#64 <<< 24))
  let rs0A1 := (rs0 >>> 24) &&& 0xFFFFFF
  let rs0 := if (rs0 &&& 0xFFFFFF = 0 ∧ rs0A1 &&& 1 = 0) ∧ isConvergent then
    rs0 &&& ~~~(3#64 <<< 24) else rs0
  let resultS0 := (rs0 &&& ~~~(1#64 <<< 24)) &&& maskA0
  -- scale up
  let rs1 := mask56 (acc + 0x400000)
  let rs1 := if (rs1 &&& 0xFFFFFF) &&& 0x7FFFFF = 0 ∧ isConvergent then rs1 &&& ~~~0xFFFFFF
    else rs1
  let resultS1 := (rs1 &&& ~~~0xFFFFFF) ||| (rs1 &&& 0x800000)
  let result := if isS0 then resultS0 else resultDef
  if isS1 then resultS1 else result

def emitAluRnd (d : Accumulator) : Alu σ Unit := do
  let acc ← loadAcc d
  let srVal ← loadSr
  let result ← emitSaturateSmRnd (rndValue srVal acc)
  storeAcc d result
  let signChanged := extractBitI64 acc 55 ^^^ extractBitI64 result 55
  setPending (.nzVlSm result (signChanged &&& extractBitI64 result 55))

/-- Shared MAX/MAXM tail: conditionally copy A to B when diff <= 0, set C flag, L = L | V. -/
def emitMaxTail (a b diff56 : BitVec 64) : Alu σ Unit := do
  let pass := extractBitI64 diff56 55 ||| ofBool (diff56 = 0)
  let aPacked := Emitter.packAcc (extractAccHi a) (extractAccMid a) (extractAccLo a)
  storeAcc .b (if pass ≠ 0 then aPacked else b)
  let srNew ← clearSrFlags (1#32 <<< Sr.c)
  let srNew := srNew ||| ((pass ^^^ 1) &&& 1)
  let lFromV := (srNew &&& (1#32 <<< Sr.v)) <<< (Sr.l - Sr.v)
  storeReg Reg.sr (srNew ||| lFromV)

/-- MAX: if B - A <= 0, copy A to B. -/
def emitAluMax : Alu σ Unit := do
  let a ← loadAcc .a
  let b ← loadAcc .b
  emitMaxTail a b (mask56 (b - a))

/-- MAXM: if |B| - |A| <= 0, copy A to B. -/
def emitAluMaxm : Alu σ Unit := do
  let a ← loadAcc .a
  let b ← loadAcc .b
  emitMaxTail a b (mask56 (abs56 b - abs56 a))

/-- Shared multiply core: load sources, multiply, shift, optionally negate. -/
def emitAluMpyCore (s1 s2 : RegIdx) (negate : Bool) : Alu σ (BitVec 64) := do
  let s1 ← loadReg s1
  let s2 ← loadReg s2
  return mask56 (fractional (sext24ToI64 s1) (sext24ToI64 s2) negate)

def emitRnd56 (val : BitVec 64) : Alu σ (BitVec 64) := return (← get).dsp.jitRnd56 val

def emitAluMpy (s1 s2 : RegIdx) (d : Accumulator) (negate : Bool) : Alu σ Unit := do
  let result56 ← emitAluMpyCore s1 s2 negate
  let result56 ← emitSaturateSm result56
  storeAcc d result56
  setPending (.nzClearVSm result56)

def emitAluMpyr (s1 s2 : RegIdx) (d : Accumulator) (negate : Bool) : Alu σ Unit := do
  let result56 ← emitAluMpyCore s1 s2 negate
  let rounded ← emitRnd56 result56
  let rounded ← emitSaturateSmRnd rounded
  storeAcc d rounded
  setPending (.nzClearVSm rounded)

def emitAluMac (s1 s2 : RegIdx) (d : Accumulator) (negate : Bool) : Alu σ Unit := do
  let result56 ← emitAluMpyCore s1 s2 negate
  let acc ← loadAcc d
  let saturated ← emitSaturateSm (mask56 (acc + result56))
  storeAcc d saturated
  setPending (.macVlSm saturated result56 acc)

def emitAluMacr (s1 s2 : RegIdx) (d : Accumulator) (negate : Bool) : Alu σ Unit := do
  let product ← emitAluMpyCore s1 s2 negate
  let acc ← loadAcc d
  let rounded ← emitRnd56 (mask56 (acc + product))
  let saturated ← emitSaturateSmRnd rounded
  storeAcc d saturated
  setPending (.macVlSm saturated product acc)

/-- Shift left by a negative amount, right by a positive one. -/
def emitNormf (src : RegIdx) (d : Accumulator) : Alu σ Unit := do
  let sregVal ← loadReg src
  let acc ← loadAcc d
  let isNeg := (sregVal >>> 23) &&& 1 ≠ 0
  let absVal := if isNeg then mask24 (-sregVal) else sregVal
  let shiftAmt := absVal &&& 0x3F
  let aslResult := mask56 (ishl acc shiftAmt)
  let asrResult := mask56 (sshr (sext56ToI64 acc) shiftAmt)
  let result ← emitSaturateSm (if isNeg then aslResult else asrResult)
  storeAcc d result
  let fieldMask := ishl (1 : BitVec 64) (shiftAmt + 1) - 1
  let field := ushr acc (55 - shiftAmt) &&& fieldMask
  let aslVBit := 1 - ofBool (field = 0 || field = fieldMask)
  setPending (.nzVlSm result (if isNeg then aslVBit else 0))

/-- The mask of an immediate ASL's `shift + 1` bits, folded at emission time: the shift of a `u64`
by 64 overflows. -/
def aslFieldMask (shift : Nat) : Option (BitVec 64) :=
  if shift + 1 < 64 then some ((1#64 <<< (shift + 1)) - 1) else none

def emitAslImm (shift : Byte) (s d : Accumulator) : Alu σ Unit := do
  let acc ← loadAcc s
  let carryI32 := extractBitI64 acc (56 - shift.setWidth 32)
  let resultM ← emitSaturateSm (mask56 (ishl acc (shift.setWidth 32)))
  storeAcc d resultM
  let vBit : Word := if shift = 0 then 0 else
    -- Without overflow checks the shift wraps, and the mask of a shift by 63 is empty.
    let fieldMask := (aslFieldMask shift.toNat).getD 0
    let field := (acc >>> (55 - shift.toNat)) &&& fieldMask
    1 - ofBool (field = 0 || field = fieldMask)
  let sr ← clearSrFlags ((1#32 <<< Sr.c) ||| (1#32 <<< Sr.v))
  storeReg Reg.sr (orVl (sr ||| shiftToBit carryI32 Sr.c) vBit)
  setPending (.nzSm resultM)

def emitAsrImm (shift : Byte) (s d : Accumulator) : Alu σ Unit := do
  let acc ← loadAcc s
  let carryBit := if 0 < shift.toNat then extractBitI64 acc (shift.setWidth 32 - 1) else 0
  let resultM ← emitSaturateSm (mask56 (sshr (sext56ToI64 acc) (shift.setWidth 32)))
  storeAcc d resultM
  let sr ← clearSrFlags ((1#32 <<< Sr.c) ||| (1#32 <<< Sr.v))
  storeReg Reg.sr (sr ||| shiftToBit carryBit Sr.c)
  setPending (.nzSm resultM)

def emitAslReg (src : RegIdx) (s d : Accumulator) : Alu σ Unit := do
  let acc ← loadAcc s
  let sregVal ← loadReg src
  let shift := sregVal &&& 0x3F
  let carryI32 : Word := (ushr acc (56 - shift) &&& 1).setWidth 32
  let resultM ← emitSaturateSm (mask56 (ishl acc shift))
  storeAcc d resultM
  let fieldMask := ishl (1 : BitVec 64) (shift + 1) - 1
  let field := ushr acc (55 - shift) &&& fieldMask
  let vBit := 1 - ofBool (field = 0 || field = fieldMask)
  let sr ← clearSrFlags ((1#32 <<< Sr.c) ||| (1#32 <<< Sr.v))
  storeReg Reg.sr (orVl (sr ||| shiftToBit carryI32 Sr.c) vBit)
  setPending (.nzSm resultM)

def emitAsrReg (src : RegIdx) (s d : Accumulator) : Alu σ Unit := do
  let acc ← loadAcc s
  let sregVal ← loadReg src
  let shift := sregVal &&& 0x3F
  let carryI32 : Word := (ushr acc (shift - 1) &&& 1).setWidth 32
  let resultM ← emitSaturateSm (mask56 (sshr (sext56ToI64 acc) shift))
  storeAcc d resultM
  let sr ← clearSrFlags ((1#32 <<< Sr.c) ||| (1#32 <<< Sr.v))
  storeReg Reg.sr (sr ||| shiftToBit carryI32 Sr.c)
  setPending (.nzSm resultM)

/-- The source of CMPU: 48 bits of an accumulator, or a register aligned left. -/
def cmpuSource (src : RegIdx) : Alu σ (BitVec 64) :=
  if src = Reg.a ∨ src = Reg.b then do
    let acc ← loadAcc (if src = Reg.a then .a else .b)
    return acc &&& 0x0000FFFFFFFFFFFF
  else return val24ToAcc56Unsigned (← loadReg src)

/-- Unsigned 48-bit comparison. -/
def emitCmpu (src : RegIdx) (d : Accumulator) : Alu σ Unit := do
  let dstFull ← loadAcc d
  let dst := dstFull &&& 0x0000FFFFFFFFFFFF
  let src ← cmpuSource src
  let result := dst - src
  let sr ← clearSrFlags ((1#32 <<< Sr.n) ||| (1#32 <<< Sr.z) ||| (1#32 <<< Sr.v) |||
    (1#32 <<< Sr.c))
  let sr := sr ||| shiftToBit (extractBitI64 result 48) Sr.c
  let zVal : Word := if result &&& 0x0000FFFFFFFFFFFF = 0 then 1 else 0
  let sr := sr ||| shiftToBit zVal Sr.z
  storeReg Reg.sr (sr ||| shiftToBit (extractBitI64 (mask56 result) 55) Sr.n)

/-- The address register `Rn` of an instruction field. -/
def rreg (idx : Byte) : RegIdx := Fin.ofNat 64 (Reg.r0.val + idx.toNat)

/-- One normalization step, by the E, U and Z of SR. -/
def emitNorm (rregIdx : Byte) (d : Accumulator) : Alu σ Unit := do
  let sr ← loadSr
  let eVal := extractBit sr Sr.e
  let uVal := extractBit sr Sr.u
  let zVal := extractBit sr Sr.z
  let euz := ((1 - eVal) &&& uVal) &&& (1 - zVal)
  let dst ← loadAcc d
  let shiftedLeft := mask56 (dst <<< 1)
  let shiftedRight := asrOne56bit dst
  let isEuz := euz ≠ 0
  let isE := eVal ≠ 0
  let result := if isE then shiftedRight else if isEuz then shiftedLeft else dst
  let result ← emitSaturateSm result
  storeAcc d result
  let rn ← loadReg (rreg rregIdx)
  let rnFinal := if isE then rn + 1 else if isEuz then rn - 1 else rn
  storeReg (rreg rregIdx) (rnFinal &&& regMasks Reg.r0)
  let aslVRaw := extractBitI64 dst 55 ^^^ extractBitI64 shiftedLeft 55
  setPending (.nzVlSm result (aslVRaw &&& ofBool isEuz))

/-- Multiply by 2^-n. Shift counts 0 and >= 24 multiply by zero. -/
def emitMulShift (op : MulShiftOp) (shift : Byte) (src : RegIdx) (d : Accumulator) (k : Bool) :
    Alu σ Unit := do
  let sVal ← loadReg src
  let sSext := sext24ToI64 sVal
  let result := if shift.toNat = 0 ∨ shift.toNat ≥ 24 then 0 else sSext <<< (24 - shift.toNat)
  let result := if k then 0 - result else result
  let resultM := mask56 result
  match op with
  | .mpy =>
    let finalVal ← emitSaturateSm resultM
    storeAcc d finalVal
    setPending (.nzClearVSm finalVal)
  | .mpyr =>
    let rounded ← emitRnd56 resultM
    let finalVal ← emitSaturateSmRnd rounded
    storeAcc d finalVal
    setPending (.nzClearVSm finalVal)
  | .mac =>
    let acc ← loadAcc d
    let finalVal ← emitSaturateSm (mask56 (acc + resultM))
    storeAcc d finalVal
    setPending (.macVlSm finalVal resultM acc)
  | .macr =>
    let acc ← loadAcc d
    let rounded ← emitRnd56 (mask56 (acc + resultM))
    let finalVal ← emitSaturateSmRnd rounded
    storeAcc d finalVal
    setPending (.macVlSm finalVal resultM acc)

/-- Signed product of the next word and a register, not masked. -/
def emitImmMultiply (k : Bool) (src : RegIdx) (nextWord : Word) : Alu σ (BitVec 64) := do
  let s2 ← loadReg src
  let s1 := (nextWord.setWidth 64 <<< 40).sshiftRight 40
  return fractional s1 (sext24ToI64 s2) k

/-- Shared MPYI/MPYRI/MACI/MACRI implementation. -/
def emitMpyiFamily (k : Bool) (d : Accumulator) (src : RegIdx) (nextWord : Word)
    (accumulate round : Bool) : Alu σ Unit := do
  let product ← emitImmMultiply k src nextWord
  let productM := mask56 product
  if accumulate then
    let acc ← loadAcc d
    let sumM := mask56 (acc + productM)
    let finalVal ← if round then do emitSaturateSmRnd (← emitRnd56 sumM) else emitSaturateSm sumM
    storeAcc d finalVal
    setPending (.macVlSm finalVal productM acc)
  else
    let finalVal ← if round then do emitSaturateSmRnd (← emitRnd56 productM)
      else emitSaturateSm productM
    storeAcc d finalVal
    setPending (.nzClearVSm finalVal)

/-- DMAC: D = (D >> 24) + S1*S2. Bit 0 of `ss` makes S1 unsigned, bit 1 makes S2 so. -/
def emitDmac (ss : Byte) (k : Bool) (d : Accumulator) (s1 s2 : RegIdx) : Alu σ Unit := do
  let s1Val ← loadReg s1
  let s2Val ← loadReg s2
  let s1 := if ss &&& 1 ≠ 0 then zext24ToI64 s1Val else sext24ToI64 s1Val
  let s2 := if ss &&& 2 ≠ 0 then zext24ToI64 s2Val else sext24ToI64 s2Val
  let product := fractional s1 s2 k
  let acc ← loadAcc d
  let resultM := mask56 ((sext56ToI64 acc).sshiftRight 24 + product)
  if ss = 0 then
    let resultM ← emitSaturateSm resultM
    storeAcc d resultM
    setPending (.nzClearVSm resultM)
  else
    storeAcc d resultM
    setPending (.nzClearV resultM)

/-- The operands of MAC(su,uu) and MPY(su,uu): S2 is unsigned, S1 too where `s` is 1. -/
def productSu (s : Byte) (k : Bool) (s1 s2 : RegIdx) : Alu σ (BitVec 64) := do
  let s1Val ← loadReg s1
  let s2Val ← loadReg s2
  let s1 := if s &&& 1 ≠ 0 then zext24ToI64 s1Val else sext24ToI64 s1Val
  return mask56 (fractional s1 (zext24ToI64 s2Val) k)

def emitMacSu (s : Byte) (k : Bool) (d : Accumulator) (s1 s2 : RegIdx) : Alu σ Unit := do
  let productM ← productSu s k s1 s2
  let acc ← loadAcc d
  let resultM := mask56 (acc + productM)
  storeAcc d resultM
  setPending (.dmacVl resultM productM acc)

def emitMpySu (s : Byte) (k : Bool) (d : Accumulator) (s1 s2 : RegIdx) : Alu σ Unit := do
  let resultM ← productSu s k s1 s2
  storeAcc d resultM
  setPending (.nzClearV resultM)

/-- One step of a non-restoring division. -/
def emitDiv (src : RegIdx) (d : Accumulator) : Alu σ Unit := do
  let srcVal ← loadReg src
  let dst ← loadAcc d
  let srcSign := (srcVal >>> 23) &&& 1
  let xorSigns := extractBitI64 dst 55 ^^^ srcSign
  let shiftedM := mask56 (dst <<< 1)
  let srcAcc := val24ToAcc56 srcVal
  let resultM := mask56 (if xorSigns ≠ 0 then shiftedM + srcAcc else shiftedM - srcAcc)
  let sr ← loadSr
  let resultM := resultM ||| (extractBit sr Sr.c).setWidth 64
  storeAcc d resultM
  let newCarry := 1 - extractBitI64 resultM 55
  let divV := extractBitI64 dst 55 ^^^ extractBitI64 shiftedM 55
  let sr2 ← clearSrFlags ((1#32 <<< Sr.c) ||| (1#32 <<< Sr.v))
  storeReg Reg.sr (orVl (sr2 ||| newCarry) divV)

end Alu

end Dsp56300
