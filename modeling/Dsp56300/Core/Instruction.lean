import Dsp56300.Core.ParallelAlu

namespace Dsp56300

set_option linter.constructorNameAsVariable false

/-- Decoded DSP56300 instruction. -/
inductive Instruction where
  -- Parallel move + ALU
  | parallel (alu : ParallelAlu) (moveType : ParallelMoveType) (opcode : Word)
  -- Arithmetic with immediate
  | addImm (imm : Byte) (d : Accumulator)
  | addLong (d : Accumulator)
  | subImm (imm : Byte) (d : Accumulator)
  | subLong (d : Accumulator)
  | cmpImm (imm : Byte) (d : Accumulator)
  | cmpLong (d : Accumulator)
  | cmpU (src : RegIdx) (d : Accumulator)
  | andImm (imm : Byte) (d : Accumulator)
  | andLong (d : Accumulator)
  | orLong (d : Accumulator)
  | orImm (imm : Byte) (d : Accumulator)
  | eorImm (imm : Byte) (d : Accumulator)
  | eorLong (d : Accumulator)
  | andI (imm dest : Byte)
  | orI (imm dest : Byte)
  -- Shifts
  | aslImm (shift : Byte) (s d : Accumulator)
  | asrImm (shift : Byte) (s d : Accumulator)
  | lslImm (shift : Byte) (d : Accumulator)
  | lsrImm (shift : Byte) (d : Accumulator)
  | aslReg (src : RegIdx) (s d : Accumulator)
  | asrReg (src : RegIdx) (s d : Accumulator)
  | lslReg (src : RegIdx) (d : Accumulator)
  | lsrReg (src : RegIdx) (d : Accumulator)
  -- Branches
  | bcc (cc : CondCode) (addr : Word)
  | bccLong (cc : CondCode)
  | bra (addr : Word)
  | braLong
  | bsr (addr : Word)
  | bsrLong
  | bccRn (cc : CondCode) (rn : Byte)
  | braRn (rn : Byte)
  | bsrRn (rn : Byte)
  | bscc (cc : CondCode) (addr : Word)
  | bsccLong (cc : CondCode)
  | bsccRn (cc : CondCode) (rn : Byte)
  | brkcc (cc : CondCode)
  | jcc (cc : CondCode) (addr : Word)
  | jccEa (cc : CondCode) (eaMode : Byte)
  | jmp (addr : Word)
  | jmpEa (eaMode : Byte)
  | jscc (cc : CondCode) (addr : Word)
  | jsccEa (cc : CondCode) (eaMode : Byte)
  | jsr (addr : Word)
  | jsrEa (eaMode : Byte)
  -- Bit manipulation
  | bchgEa (space : MemSpace) (eaMode bitNum : Byte)
  | bchgAa (space : MemSpace) (addr bitNum : Byte)
  | bchgPp (space : MemSpace) (ppOffset bitNum : Byte)
  | bchgQq (space : MemSpace) (qqOffset bitNum : Byte)
  | bchgReg (regIdx bitNum : Byte)
  | bclrEa (space : MemSpace) (eaMode bitNum : Byte)
  | bclrAa (space : MemSpace) (addr bitNum : Byte)
  | bclrPp (space : MemSpace) (ppOffset bitNum : Byte)
  | bclrQq (space : MemSpace) (qqOffset bitNum : Byte)
  | bclrReg (regIdx bitNum : Byte)
  | bsetEa (space : MemSpace) (eaMode bitNum : Byte)
  | bsetAa (space : MemSpace) (addr bitNum : Byte)
  | bsetPp (space : MemSpace) (ppOffset bitNum : Byte)
  | bsetQq (space : MemSpace) (qqOffset bitNum : Byte)
  | bsetReg (regIdx bitNum : Byte)
  | btstEa (space : MemSpace) (eaMode bitNum : Byte)
  | btstAa (space : MemSpace) (addr bitNum : Byte)
  | btstPp (space : MemSpace) (ppOffset bitNum : Byte)
  | btstQq (space : MemSpace) (qqOffset bitNum : Byte)
  | btstReg (regIdx bitNum : Byte)
  -- Bit branch
  | brclrEa (space : MemSpace) (eaMode bitNum : Byte)
  | brclrAa (space : MemSpace) (addr bitNum : Byte)
  | brclrPp (space : MemSpace) (ppOffset bitNum : Byte)
  | brclrQq (space : MemSpace) (qqOffset bitNum : Byte)
  | brclrReg (regIdx bitNum : Byte)
  | brsetEa (space : MemSpace) (eaMode bitNum : Byte)
  | brsetAa (space : MemSpace) (addr bitNum : Byte)
  | brsetPp (space : MemSpace) (ppOffset bitNum : Byte)
  | brsetQq (space : MemSpace) (qqOffset bitNum : Byte)
  | brsetReg (regIdx bitNum : Byte)
  -- Bit branch to subroutine
  | bsclrEa (space : MemSpace) (eaMode bitNum : Byte)
  | bsclrAa (space : MemSpace) (addr bitNum : Byte)
  | bsclrPp (space : MemSpace) (ppOffset bitNum : Byte)
  | bsclrQq (space : MemSpace) (qqOffset bitNum : Byte)
  | bsclrReg (regIdx bitNum : Byte)
  | bssetEa (space : MemSpace) (eaMode bitNum : Byte)
  | bssetAa (space : MemSpace) (addr bitNum : Byte)
  | bssetPp (space : MemSpace) (ppOffset bitNum : Byte)
  | bssetQq (space : MemSpace) (qqOffset bitNum : Byte)
  | bssetReg (regIdx bitNum : Byte)
  | jclrEa (space : MemSpace) (eaMode bitNum : Byte)
  | jclrAa (space : MemSpace) (addr bitNum : Byte)
  | jclrPp (space : MemSpace) (ppOffset bitNum : Byte)
  | jclrQq (space : MemSpace) (qqOffset bitNum : Byte)
  | jclrReg (regIdx bitNum : Byte)
  | jsetEa (space : MemSpace) (eaMode bitNum : Byte)
  | jsetAa (space : MemSpace) (addr bitNum : Byte)
  | jsetPp (space : MemSpace) (ppOffset bitNum : Byte)
  | jsetQq (space : MemSpace) (qqOffset bitNum : Byte)
  | jsetReg (regIdx bitNum : Byte)
  | jsclrEa (space : MemSpace) (eaMode bitNum : Byte)
  | jsclrAa (space : MemSpace) (addr bitNum : Byte)
  | jsclrPp (space : MemSpace) (ppOffset bitNum : Byte)
  | jsclrQq (space : MemSpace) (qqOffset bitNum : Byte)
  | jsclrReg (regIdx bitNum : Byte)
  | jssetEa (space : MemSpace) (eaMode bitNum : Byte)
  | jssetAa (space : MemSpace) (addr bitNum : Byte)
  | jssetPp (space : MemSpace) (ppOffset bitNum : Byte)
  | jssetQq (space : MemSpace) (qqOffset bitNum : Byte)
  | jssetReg (regIdx bitNum : Byte)
  -- Loop
  | doEa (space : MemSpace) (eaMode : Byte)
  | doAa (space : MemSpace) (addr : Byte)
  | doImm (count : BitVec 16)
  | doReg (regIdx : Byte)
  | doForever
  | dorEa (space : MemSpace) (eaMode : Byte)
  | dorAa (space : MemSpace) (addr : Byte)
  | dorImm (count : BitVec 16)
  | dorReg (regIdx : Byte)
  | dorForever
  | endDo
  | repEa (space : MemSpace) (eaMode : Byte)
  | repAa (space : MemSpace) (addr : Byte)
  | repImm (count : BitVec 16)
  | repReg (regIdx : Byte)
  -- Move
  | moveLongDisp (space : MemSpace) (w : Bool) (offregIdx numreg : Byte)
  | moveShortDisp (space : MemSpace) (offset : Byte) (w : Bool) (offregIdx numreg : Byte)
  | movecEa (eaMode numreg : Byte) (w : Bool) (space : MemSpace)
  | movecAa (addr numreg : Byte) (w : Bool) (space : MemSpace)
  | movecReg (srcReg dstReg : Byte) (w : Bool)
  | movecImm (imm dest : Byte)
  | movemEa (eaMode numreg : Byte) (w : Bool)
  | movemAa (addr numreg : Byte) (w : Bool)
  | movep23 (ppOffset eaMode : Byte) (w : Bool) (perspace easpace : MemSpace)
  | movepQq (qqOffset eaMode : Byte) (w : Bool) (qqspace easpace : MemSpace)
  | movep1 (ppOffset eaMode : Byte) (w : Bool) (space : MemSpace)
  | movep0 (ppOffset regIdx : Byte) (w : Bool) (space : MemSpace)
  | movepQqPea (qqOffset eaMode : Byte) (w : Bool) (space : MemSpace)
  | movepQqR (qqOffset regIdx : Byte) (w : Bool) (space : MemSpace)
  -- Multiply
  | mulShift (op : MulShiftOp) (shift : Byte) (src : RegIdx) (d : Accumulator) (k : Bool)
  | mpyI (k : Bool) (d : Accumulator) (src : RegIdx)
  | mpyrI (k : Bool) (d : Accumulator) (src : RegIdx)
  | macI (k : Bool) (d : Accumulator) (src : RegIdx)
  | macrI (k : Bool) (d : Accumulator) (src : RegIdx)
  | dmac (ss : Byte) (k : Bool) (d : Accumulator) (s1 s2 : RegIdx)
  | macSU (s : Byte) (k : Bool) (d : Accumulator) (s1 s2 : RegIdx)
  | mpySU (s : Byte) (k : Bool) (d : Accumulator) (s1 s2 : RegIdx)
  | div (src : RegIdx) (d : Accumulator)
  -- Address
  | lua (eaMode dstReg : Byte)
  | luaRel (aa addrReg dstReg : Byte) (destIsN : Bool)
  | lraRn (addrReg dstReg : Byte)
  | lraDisp (dstReg : Byte)
  | norm (rregIdx : Byte) (d : Accumulator)
  -- Transfer conditional
  | tcc (cc : CondCode) (acc : Option (RegIdx × RegIdx)) (r : Option (Byte × Byte))
  -- Misc
  | nop
  | dec (d : Accumulator)
  | inc (d : Accumulator)
  | illegal
  | reset
  | rti
  | rts
  | stop
  | wait
  -- Specialized
  | clb (s d : Accumulator)
  | normf (src : RegIdx) (d : Accumulator)
  | debug
  | debugcc (cc : CondCode)
  | trap
  | trapcc (cc : CondCode)
  | merge (src : RegIdx) (d : Accumulator)
  | extractReg (s1 : RegIdx) (s2 d : Accumulator)
  | extractImm (s2 d : Accumulator)
  | extractuReg (s1 : RegIdx) (s2 d : Accumulator)
  | extractuImm (s2 d : Accumulator)
  | insertReg (s1 s2 : RegIdx) (d : Accumulator)
  | insertImm (s2 : RegIdx) (d : Accumulator)
  | vsl (s : Accumulator) (eaMode iBit : Byte)
  | pflush
  | pflushun
  | pfree
  | plockEa (eaMode : Byte)
  | plockr
  | punlockEa (eaMode : Byte)
  | punlockr
  -- recognized but not yet implemented
  | unimplemented (name : String) (opcode : Word)
  -- invalid encoding
  | unknown (opcode : Word)

end Dsp56300
