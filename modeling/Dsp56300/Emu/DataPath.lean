import Dsp56300.Emu.Logical

/-! The data paths together, and one of them as the code of one instruction. -/

namespace Dsp56300

open Emitter Lib.Programs

variable {σ : Type}

/-- Evaluate a condition code, returning 1 for true and 0 for false. -/
def CondCode.eval (code : CondCode) (sr : Word) : Word :=
  let c := extractBit sr Sr.c
  let z := extractBit sr Sr.z
  let n := extractBit sr Sr.n
  let v := extractBit sr Sr.v
  let u := extractBit sr Sr.u
  let e := extractBit sr Sr.e
  let l := extractBit sr Sr.l
  let nxv := n ^^^ v
  let normal := z ||| ((u ^^^ 1) &&& (e ^^^ 1))
  match code with
  | .cc => c ^^^ 1
  | .cs => c
  | .eq => z
  | .ne => z ^^^ 1
  | .pl => n ^^^ 1
  | .mi => n
  | .ge => nxv ^^^ 1
  | .lt => nxv
  | .gt => (z ||| nxv) ^^^ 1
  | .le => z ||| nxv
  | .nn => normal ^^^ 1
  | .nr => normal
  | .ec => e ^^^ 1
  | .es => e
  | .lc => l ^^^ 1
  | .ls => l

namespace Alu

def emitParallelAlu : ParallelAlu → Alu σ Unit
  | .move | .undefined => pure ()
  | .tfrAcc src d => emitAluTfrAcc src d
  | .addr src d => emitAluAddrSubr src d false
  | .tst d => emitAluTst d
  | .cmpAcc src d => emitAluCmpAcc src d
  | .subr src d => emitAluAddrSubr src d true
  | .cmpmAcc src d => emitAluCmpmAcc src d
  | .addAcc src d => emitAluAddAcc src d
  | .rnd d => emitAluRnd d
  | .addl src d => emitAluAddlSubl src d false
  | .clr d => emitAluClr d
  | .subAcc src d => emitAluSubAcc src d
  | .max => emitAluMax
  | .maxm => emitAluMaxm
  | .subl src d => emitAluAddlSubl src d true
  | .not d => emitAluNot d
  | .addXY hi lo d => emitAluAddXy hi lo d
  | .adc hi lo d => emitAluAdcSbc hi lo d false
  | .subXY hi lo d => emitAluSubXy hi lo d
  | .sbc hi lo d => emitAluAdcSbc hi lo d true
  | .asr d => emitAluAsr d
  | .lsr d => emitAluLsr d
  | .abs d => emitAluAbs d
  | .ror d => emitAluRor d
  | .asl d => emitAluAsl d
  | .lsl d => emitAluLsl d
  | .neg d => emitAluNeg d
  | .rol d => emitAluRol d
  | .addReg src d => emitAluAddReg24 src d
  | .tfrReg src d => emitAluTfrReg24 src d
  | .or src d => emitAluOrReg src d
  | .eor src d => emitAluEorReg src d
  | .subReg src d => emitAluSubReg24 src d
  | .cmpReg src d => emitAluCmpReg24 src d
  | .and src d => emitAluAndReg src d
  | .cmpmReg src d => emitAluCmpmReg24 src d
  | .mpy negate s1 s2 d => emitAluMpy s1 s2 d negate
  | .mpyr negate s1 s2 d => emitAluMpyr s1 s2 d negate
  | .mac negate s1 s2 d => emitAluMac s1 s2 d negate
  | .macr negate s1 s2 d => emitAluMacr s1 s2 d negate

/-- A conditional ALU operation: it is run, and undone where the condition is false. -/
def emitIfcc (opcode : Word) (alu : ParallelAlu) (updateCcr : Bool) : Alu σ Unit := do
  let cond := (CondCode.fromBits ((opcode >>> 8) &&& 0xF)).eval (← loadSr)
  let saveA ← loadAcc .a
  let saveB ← loadAcc .b
  let saveSr ← loadSr
  emitParallelAlu alu
  if updateCcr then
    let postSr ← loadSr
    storeReg Reg.sr (if cond ≠ 0 then postSr else saveSr)
  else
    -- the pending computation would land on the restored SR at the next flush
    modify fun s => { s with pendingFlags := none, pendingSmMarker := none, smNeedsSat := 0 }
    storeReg Reg.sr saveSr
  let postA ← loadAcc .a
  storeAcc .a (if cond ≠ 0 then postA else saveA)
  let postB ← loadAcc .b
  storeAcc .b (if cond ≠ 0 then postB else saveB)

end Alu

/-- The code a data path emits. -/
def Emitter.DataPath.emit : DataPath → Alu σ Unit
  | .accAddsub src d isSub store => Alu.emitAccAddsub src d isSub store
  | .logicalOpAcc d src op => Alu.emitLogicalOpAcc d src op
  | .parallelAlu alu => Alu.emitParallelAlu alu
  | .ifcc opcode alu updateCcr => Alu.emitIfcc opcode alu updateCcr
  | .andi imm dest => Alu.emitAndi imm dest
  | .ori imm dest => Alu.emitOri imm dest
  | .aslImm shift s d => Alu.emitAslImm shift s d
  | .asrImm shift s d => Alu.emitAsrImm shift s d
  | .aslReg src s d => Alu.emitAslReg src s d
  | .asrReg src s d => Alu.emitAsrReg src s d
  | .lslImm shift d => Alu.emitLslImm shift d
  | .lsrImm shift d => Alu.emitLsrImm shift d
  | .lslReg src d => Alu.emitLslReg src d
  | .lsrReg src d => Alu.emitLsrReg src d
  | .cmpu src d => Alu.emitCmpu src d
  | .mulShift op shift src d k => Alu.emitMulShift op shift src d k
  | .mpyiFamily k d src nextWord accumulate round =>
    Alu.emitMpyiFamily k d src nextWord accumulate round
  | .dmac ss k d s1 s2 => Alu.emitDmac ss k d s1 s2
  | .macSu s k d s1 s2 => Alu.emitMacSu s k d s1 s2
  | .mpySu s k d s1 s2 => Alu.emitMpySu s k d s1 s2
  | .div src d => Alu.emitDiv src d
  | .norm rregIdx d => Alu.emitNorm rregIdx d
  | .normf src d => Alu.emitNormf src d
  | .clb s d => Alu.emitClb s d
  | .merge src d => Alu.emitMerge src d
  | .extract control s2 d unsigned => Alu.emitExtract control s2 d unsigned
  | .insert control s2 d => Alu.emitInsert control s2 d
  | .updateCarryFromBit val bitNum => Alu.updateCarryFromBit val (bitNum.setWidth 32)

namespace DspState

/-- Load the sub-registers of an accumulator, masked to their widths. -/
def reloadAcc (s : DspState σ) (d : Accumulator) : BitVec 64 :=
  let (r2, r1, r0) := accRegs d
  Emitter.packAcc (s.registers r2 &&& 0xFF) (s.registers r1 &&& 0x00FFFFFF)
    (s.registers r0 &&& 0x00FFFFFF)

/-- Store an accumulator to its sub-registers. -/
def flushAccToMemory (s : DspState σ) (d : Accumulator) (v : BitVec 64) : DspState σ :=
  let (r2, r1, r0) := accRegs d
  ((s.setReg r0 (extractAccLo v)).setReg r1 (extractAccMid v)).setReg r2 (extractAccHi v)

end DspState

namespace AluState

/-- The entry of compiled code: nothing is pending, the accumulators are in memory. -/
def enter (s : DspState σ) : AluState σ where
  dsp := s
  acc := s.reloadAcc
  accDirty := fun _ => false
  smNeedsSat := 0
  pendingFlags := none
  pendingSmMarker := none

/-- The exit: pending flags are materialized and changed accumulators stored. -/
def finalize (s : AluState σ) : DspState σ :=
  let s := s.flush false
  let dsp := if s.accDirty .a then s.dsp.flushAccToMemory .a (s.acc .a) else s.dsp
  if s.accDirty .b then dsp.flushAccToMemory .b (s.acc .b) else dsp

end AluState

/-- A data path run as the whole code of an instruction. -/
def DspState.execute (s : DspState σ) (path : DataPath) : DspState σ :=
  (path.emit.run (AluState.enter s)).2.finalize

/-- The operations an instruction on registers and accumulators is made of. The others are not its,
and do nothing. -/
def aluOps : Code.Handler Op (AluState σ)
  | _, .loadReg idx, s => (Alu.loadReg (Fin.ofNat 64 idx)).run s
  | _, .storeReg idx v, s => (Alu.storeReg (Fin.ofNat 64 idx) v).run s
  | _, .loadAcc d, s => (Alu.loadAcc d).run s
  | _, .storeAcc d v, s => (Alu.storeAcc d v).run s
  | _, .data path, s => path.emit.run s
  | _, op, s => (op.silent, s)

/-- Such an instruction, run on its own. -/
def DspState.instruct (s : DspState σ) (inst : Instruction) (nextWord : Word) : DspState σ :=
  ((emitInstructionBody inst s.pc nextWord).run aluOps (AluState.enter s)).2.finalize

end Dsp56300
