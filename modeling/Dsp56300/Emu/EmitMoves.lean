import Dsp56300.Emu.Emitter

namespace Dsp56300.Emitter

open Lib.Programs

def ppAddr (ppOffset : Byte) : Word := 0xFFFFC0 + ppOffset.setWidth 32

def qqAddr (qqOffset : Byte) : Word := 0xFFFF80 + qqOffset.setWidth 32

def emitMovep0 (space : MemSpace) (ppOffset regIdx : Byte) (w : Bool) : Emit Unit := do
  setInstLen 1
  setCycles 1
  if w then
    let val ← readRegForMove regIdx.toNat
    writeMem space (ppAddr ppOffset) val
  else
    let val ← readMem space (ppAddr ppOffset)
    writeRegForMove regIdx.toNat val

def emitMovep1 (space : MemSpace) (ppOffset eaMode : Byte) (w : Bool) (nextWord : Word) :
    Emit Unit := do
  setInstLen 1
  setCycles 6
  let ea ← emitCalcEaExt (eaMode.setWidth 32) nextWord
  -- Mode 6 makes this a two-word instruction.
  setInstLen (instLenForEa eaMode)
  if w then
    let val ← readMemDyn .p ea.1
    writeMem space (ppAddr ppOffset) val
  else
    let val ← readMem space (ppAddr ppOffset)
    writeMemDyn .p ea.1 val

/-- The operand of a move from an EA: memory, or the address itself where it is an immediate. -/
def readEa (space : MemSpace) (ea : Word × Bool) : Emit Word :=
  if ea.2 then pure ea.1 else readMemDyn space ea.1

def emitMovep23 (ppOffset eaMode : Byte) (w : Bool) (perspace easpace : MemSpace)
    (nextWord : Word) : Emit Unit := do
  setInstLen 1
  setCycles 2
  let ea ← emitCalcEaExt (eaMode.setWidth 32) nextWord
  setInstLen (instLenForEa eaMode)
  if w then
    let val ← readEa easpace ea
    writeMem perspace (ppAddr ppOffset) val
  else
    let val ← readMem perspace (ppAddr ppOffset)
    writeMemDyn easpace ea.1 val

def emitMovepQq (qqOffset eaMode : Byte) (w : Bool) (qqspace easpace : MemSpace)
    (nextWord : Word) : Emit Unit := do
  setCycles 2
  setInstLen (instLenForEa eaMode)
  let ea ← emitCalcEaExt (eaMode.setWidth 32) nextWord
  if w then
    let val ← readEa easpace ea
    writeMem qqspace (qqAddr qqOffset) val
  else
    let val ← readMem qqspace (qqAddr qqOffset)
    writeMemDyn easpace ea.1 val

def emitMovepQqPea (qqOffset eaMode : Byte) (w : Bool) (space : MemSpace) (nextWord : Word) :
    Emit Unit := do
  setCycles 6
  setInstLen (instLenForEa eaMode)
  let ea ← emitCalcEaExt (eaMode.setWidth 32) nextWord
  if w then
    let val ← readMemDyn .p ea.1
    writeMem space (qqAddr qqOffset) val
  else
    let val ← readMem space (qqAddr qqOffset)
    writeMemDyn .p ea.1 val

def emitMovepQqR (qqOffset regIdx : Byte) (w : Bool) (space : MemSpace) : Emit Unit := do
  setInstLen 1
  setCycles 1
  if w then
    let val ← readRegForMove regIdx.toNat
    writeMem space (qqAddr qqOffset) val
  else
    let val ← readMem space (qqAddr qqOffset)
    writeRegForMove regIdx.toNat val

def emitMovecImm (imm dest : Byte) : Emit Unit := do
  setInstLen 1
  setCycles 1
  writeRegForMove dest.toNat (imm.setWidth 32)

def moveReg (src dst : Byte) : Emit Unit := do
  let val ← readRegForMove src.toNat
  writeRegForMove dst.toNat val

def emitMovecReg (srcReg dstReg : Byte) (w : Bool) : Emit Unit := do
  setInstLen 1
  setCycles 1
  .call (.setFaultAnchorBump 1)
  (if w then moveReg srcReg dstReg else moveReg dstReg srcReg)
  .call (.setFaultAnchorBump 0)

/-- Read a register whose value goes to memory: an SSH pop anchors its fault one word later. -/
def readRegForStore (numreg : Byte) : Emit Word := do
  .call (.setFaultAnchorBump 1)
  let val ← readRegForMove numreg.toNat
  .call (.setFaultAnchorBump 0)
  return val

def emitMovecEa (eaMode numreg : Byte) (w : Bool) (space : MemSpace) (nextWord : Word) :
    Emit Unit := do
  setCycles 1
  setInstLen (instLenForEa eaMode)
  let ea ← emitCalcEaExt (eaMode.setWidth 32) nextWord
  if w then
    let val ← readEa space ea
    writeRegForMove numreg.toNat val
  else
    let val ← readRegForStore numreg
    writeMemDyn space ea.1 val

def emitMovecAa (addr numreg : Byte) (w : Bool) (space : MemSpace) : Emit Unit := do
  setInstLen 1
  setCycles 1
  if w then
    let val ← readMem space (addr.setWidth 32)
    writeRegForMove numreg.toNat val
  else
    let val ← readRegForStore numreg
    writeMem space (addr.setWidth 32) val

def emitMovemEa (eaMode numreg : Byte) (w : Bool) (nextWord : Word) : Emit Unit := do
  setCycles 6
  setInstLen (instLenForEa eaMode)
  let ea ← emitCalcEaExt (eaMode.setWidth 32) nextWord
  if w then
    let val ← readMemDyn .p ea.1
    writeRegForMove numreg.toNat val
  else
    let val ← readRegForStore numreg
    writeMemDyn .p ea.1 val

def emitMovemAa (addr numreg : Byte) (w : Bool) : Emit Unit := do
  setInstLen 1
  setCycles 6
  if w then
    let val ← readMemDyn .p (addr.setWidth 32)
    writeRegForMove numreg.toNat val
  else
    let val ← readRegForStore numreg
    writeMemDyn .p (addr.setWidth 32) val

def emitParallelAlu (alu : ParallelAlu) : Emit Unit := dataPath (.parallelAlu alu)

/-- An EA of a parallel move: mode 6 makes it a two-word instruction. -/
def emitParallelEa (eaField nextWord : Word) : Emit (Word × Bool) := do
  let ea ← emitCalcEaExt eaField nextWord
  (if (eaField >>> 3) &&& 7 = 6 then setInstLen 2 else pure ())
  return ea

def emitPm0 (opcode : Word) (alu : ParallelAlu) (nextWord : Word) : Emit Unit := do
  let dBit := (opcode >>> 16) &&& 1
  let memspace := MemSpace.xy ((opcode >>> 15) &&& 1)
  let eaField := (opcode >>> 8) &&& 0x3F
  let ea ← emitParallelEa eaField nextWord
  let acc := Reg.a.val + dBit.toNat
  let accEnum : Accumulator := if dBit = 0 then .a else .b
  let xy0Reg := if memspace = .x then Reg.x0.val else Reg.y0.val
  let saveAcc ← readRegForMove acc
  let saveXy0 ← loadReg xy0Reg
  let pre ← loadAcc accEnum
  emitParallelAlu alu
  let post ← loadAcc accEnum
  writeMemDyn memspace ea.1 saveAcc
  writeRegForMove acc saveXy0
  -- Where the ALU changed the accumulator, its result wins over the move.
  let cur ← loadAcc accEnum
  storeAcc accEnum (if pre ≠ post then post else cur)

/-- A move register named by two bits: a data register of `x`, or an accumulator. -/
def pairReg (r0 r1 : RegIdx) (bits : Word) : Nat :=
  match bits.toNat with
  | 0 => r0.val
  | 1 => r1.val
  | 2 => Reg.a.val
  | _ => Reg.b.val

def emitPm1 (opcode : Word) (alu : ParallelAlu) (nextWord : Word) : Emit Unit := do
  let eaField := (opcode >>> 8) &&& 0x3F
  let ea ← emitParallelEa eaField nextWord
  let memspace := MemSpace.xy ((opcode >>> 14) &&& 1)
  let numreg1 := if memspace = .y then pairReg Reg.y0 Reg.y1 ((opcode >>> 16) &&& 3)
    else pairReg Reg.x0 Reg.x1 ((opcode >>> 18) &&& 3)
  let w := (opcode >>> 15) &&& 1
  let save1 ← (if w = 1 then readEa memspace ea else readRegForMove numreg1)
  let numreg2Src := if memspace = .y then Reg.a.val + ((opcode >>> 19) &&& 1).toNat
    else Reg.a.val + ((opcode >>> 17) &&& 1).toNat
  let save2 ← readRegForMove numreg2Src
  emitParallelAlu alu
  (if w = 1 then writeRegForMove numreg1 save1 else writeMemDyn memspace ea.1 save1)
  let numreg2Dst := if memspace = .y then Reg.x0.val + ((opcode >>> 18) &&& 1).toNat
    else Reg.y0.val + ((opcode >>> 16) &&& 1).toNat
  storeReg numreg2Dst save2

def emitPm22 (opcode : Word) (alu : ParallelAlu) : Emit Unit := do
  let saveVal ← readRegForMove ((opcode >>> 13) &&& 0x1F).toNat
  emitParallelAlu alu
  writeRegForMove ((opcode >>> 8) &&& 0x1F).toNat saveVal

def emitPm3 (opcode : Word) (alu : ParallelAlu) : Emit Unit := do
  let dstReg := ((opcode >>> 16) &&& 0x1F).toNat
  let imm := (opcode >>> 8) &&& 0xFF
  let dataReg := dstReg ∈ [Reg.x0.val, Reg.x1.val, Reg.y0.val, Reg.y1.val, Reg.a.val, Reg.b.val]
  emitParallelAlu alu
  writeRegForMove dstReg (if dataReg then imm <<< 16 else imm)

def emitPm2 (opcode : Word) (alu : ParallelAlu) : Emit Unit :=
  if opcode &&& 0xFFFF00 = 0x200000 then emitParallelAlu alu
  else if opcode &&& 0xFFE000 = 0x204000 then do
    let _ ← emitCalcEa ((opcode >>> 8) &&& 0x1F)
    emitParallelAlu alu
  else if opcode &&& 0xFFF000 = 0x202000 then dataPath (.ifcc opcode alu false)
  else if opcode &&& 0xFFF000 = 0x203000 then dataPath (.ifcc opcode alu true)
  else if opcode &&& 0xFC0000 = 0x200000 then emitPm22 opcode alu
  else emitPm3 opcode alu

def emitPm4x (opcode : Word) (alu : ParallelAlu) (nextWord : Word) : Emit Unit := do
  let eaField := (opcode >>> 8) &&& 0x3F
  let numreg := ((opcode >>> 16) &&& 3) ||| (((opcode >>> 19) &&& 1) <<< 2)
  let w := (opcode >>> 15) &&& 1
  if (opcode >>> 14) &&& 1 ≠ 0 then
    let ea ← emitParallelEa eaField nextWord
    if w = 1 then
      let saveLx ← readMemDyn .x ea.1
      let saveLy ← readMemDyn .y ea.1
      emitParallelAlu alu
      .call (.writeLReg numreg saveLx saveLy)
    else
      let save ← .call (.readLReg numreg)
      emitParallelAlu alu
      writeMemDyn .x ea.1 save.1
      writeMemDyn .y ea.1 save.2
  else
    if w = 1 then
      let saveLx ← readMem .x eaField
      let saveLy ← readMem .y eaField
      emitParallelAlu alu
      .call (.writeLReg numreg saveLx saveLy)
    else
      let save ← .call (.readLReg numreg)
      emitParallelAlu alu
      writeMem .x eaField save.1
      writeMem .y eaField save.2

def emitPm5 (opcode : Word) (alu : ParallelAlu) (nextWord : Word) : Emit Unit := do
  let memspace := MemSpace.xy ((opcode >>> 19) &&& 1)
  let numreg := (((opcode >>> 16) &&& 7) ||| ((opcode >>> 17) &&& (3 <<< 3))).toNat
  let w := (opcode >>> 15) &&& 1
  let eaField := (opcode >>> 8) &&& 0x3F
  if (opcode >>> 14) &&& 1 = 0 then
    if w = 1 then
      let saveVal ← readMem memspace eaField
      emitParallelAlu alu
      writeRegForMove numreg saveVal
    else
      let saveVal ← readRegForMove numreg
      emitParallelAlu alu
      writeMem memspace eaField saveVal
  else
    let ea ← emitParallelEa eaField nextWord
    if w = 1 then
      let saveVal ← readEa memspace ea
      emitParallelAlu alu
      writeRegForMove numreg saveVal
    else
      let saveVal ← readRegForMove numreg
      emitParallelAlu alu
      writeMemDyn memspace ea.1 saveVal

def emitPm4 (opcode : Word) (alu : ParallelAlu) (nextWord : Word) : Emit Unit :=
  if opcode &&& 0xF40000 = 0x400000 then emitPm4x opcode alu nextWord
  else emitPm5 opcode alu nextWord

/-- A five-bit address mode, with 0 standing for (Rn). -/
def pm8Ea (ea : Word) : Word := if ea >>> 3 = 0 then ea ||| (1 <<< 5) else ea

def emitPm8 (opcode : Word) (alu : ParallelAlu) : Emit Unit := do
  let ea1 := pm8Ea ((opcode >>> 8) &&& 0x1F)
  let ea2 := ((opcode >>> 13) &&& 3) ||| ((opcode >>> 17) &&& (3 <<< 3))
  let ea2 := if ea1 &&& (1 <<< 2) = 0 then ea2 ||| (1 <<< 2) else ea2
  let xEa ← emitCalcEa ea1
  let yEa ← emitCalcEa (pm8Ea ea2)
  let numreg1 := pairReg Reg.x0 Reg.x1 ((opcode >>> 18) &&& 3)
  let numreg2 := pairReg Reg.y0 Reg.y1 ((opcode >>> 16) &&& 3)
  let w1 := (opcode >>> 15) &&& 1
  let w2 := (opcode >>> 22) &&& 1
  let save1 ← (if w1 = 1 then readMemDyn .x xEa.1 else readRegForMove numreg1)
  let save2 ← (if w2 = 1 then readMemDyn .y yEa.1 else readRegForMove numreg2)
  emitParallelAlu alu
  (if w1 = 1 then writeRegForMove numreg1 save1 else writeMemDyn .x xEa.1 save1)
  (if w2 = 1 then writeRegForMove numreg2 save2 else writeMemDyn .y yEa.1 save2)

def emitParallel (opcode : Word) (moveType : ParallelMoveType) (alu : ParallelAlu)
    (nextWord : Word) : Emit Unit := do
  setInstLen 1
  setCycles 1
  match moveType with
  | .pm0 => emitPm0 opcode alu nextWord
  | .pm1 => emitPm1 opcode alu nextWord
  | .pm2 => emitPm2 opcode alu
  | .pm3 => emitPm3 opcode alu
  | .pm4 => emitPm4 opcode alu nextWord
  | .pm5 => emitPm5 opcode alu nextWord
  | .pm8 => emitPm8 opcode alu

/-- A move through Rn plus a displacement. -/
def emitMoveDisp (space : MemSpace) (w : Bool) (offregIdx numreg : Byte) (offset : Word) :
    Emit Unit := do
  let rn ← loadReg (Reg.r0.val + offregIdx.toNat)
  let addr := maskPc (rn + offset)
  if w then
    let val ← readMemDyn space addr
    writeRegForMove numreg.toNat val
  else
    let val ← readRegForMove numreg.toNat
    writeMemDyn space addr val

def emitMoveLongDisp (space : MemSpace) (w : Bool) (offregIdx numreg : Byte) (nextWord : Word) :
    Emit Unit := do
  setInstLen 2
  setCycles 3
  emitMoveDisp space w offregIdx numreg nextWord

/-- Sign-extend a 7-bit offset. -/
def sext7 (offset : Byte) : Word := (offset.setWidth 32 <<< 25).sshiftRight 25

def emitMoveShortDisp (offset : Byte) (w : Bool) (offregIdx numreg : Byte) (space : MemSpace) :
    Emit Unit := do
  setInstLen 1
  setCycles 2
  emitMoveDisp space w offregIdx numreg (sext7 offset)

def emitVsl (s : Accumulator) (eaMode iBit : Byte) (nextWord : Word) : Emit Unit := do
  setInstLen (if (eaMode >>> 3) &&& 7 = 6 then 2 else 1)
  setCycles 1
  let ea ← emitCalcEaExt (eaMode.setWidth 32) nextWord
  let acc ← loadAcc s
  let upper := maskPc ((acc >>> 24).setWidth 32)
  writeMemDyn .x ea.1 upper
  let lower := maskPc (acc.setWidth 32)
  writeMemDyn .y ea.1 (maskPc ((lower <<< 1) ||| iBit.setWidth 32))

def emitLua (eaMode dstReg : Byte) : Emit Unit := do
  setInstLen 1
  setCycles 3
  let srcreg := (eaMode &&& 7).toNat
  let savedRn ← loadReg (Reg.r0.val + srcreg)
  let _ ← emitCalcEa (eaMode.setWidth 32)
  let newRn ← loadReg (Reg.r0.val + srcreg)
  storeReg (Reg.r0.val + srcreg) savedRn
  writeRegForMove dstReg.toNat newRn

def emitLuaRel (aa addrReg dstReg : Byte) (destIsN : Bool) : Emit Unit := do
  setInstLen 1
  setCycles 3
  let off : Word := if aa &&& 0x40 ≠ 0 then aa.setWidth 32 ||| ~~~0x7F else aa.setWidth 32
  let rn ← loadReg (Reg.r0.val + addrReg.toNat)
  let result := maskPc (rn + off)
  if destIsN then storeReg (Reg.n0.val + dstReg.toNat) result
  else storeReg (Reg.r0.val + dstReg.toNat) result

def emitLraRn (addrReg dstReg : Byte) (pc : Word) : Emit Unit := do
  setInstLen 1
  setCycles 3
  let rn ← loadReg (Reg.r0.val + addrReg.toNat)
  writeRegForMove dstReg.toNat (maskPc (rn + pc))

def emitLraDisp (dstReg : Byte) (pc nextWord : Word) : Emit Unit := do
  setInstLen 2
  setCycles 3
  writeRegForMove dstReg.toNat (maskPc (pc + nextWord))

/-! Instances see through the emitters of one instruction. -/

attribute [reducible]
  emitMovep0 emitMovepQqR emitMovecImm emitMovecReg emitMovecAa emitMovemAa emitLuaRel emitLua
  emitLraRn emitMoveShortDisp emitMoveLongDisp emitLraDisp emitMovep1 emitMovep23 emitMovepQq
  emitMovepQqPea emitMovecEa emitMovemEa emitVsl

end Dsp56300.Emitter
