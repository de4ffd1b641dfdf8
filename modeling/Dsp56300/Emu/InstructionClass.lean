import Dsp56300.Core.Decode

namespace Dsp56300.Instruction

/-- Whether a register field names `r`. -/
private def names (field : Byte) (r : RegIdx) : Bool := field.toNat = r.val

/-- Instructions that can post a stack-error fault through SSH or SP. -/
def isStackFaultCapable : Instruction → Bool
  | .btstReg r _ | .bsetReg r _ | .bchgReg r _ | .bclrReg r _ => sshOrSp r
  | .movecImm _ dest => sshOrSp dest
  | .movecReg src dst _ => sshOrSp src || sshOrSp dst
  | .movecEa _ n _ _ | .movecAa _ n _ _ => sshOrSp n
  | .movemEa _ n _ | .movemAa _ n _ => sshOrSp n
  | _ => false
where
  sshOrSp (r : Byte) : Bool := names r Reg.ssh || names r Reg.sp

/-- Instructions whose emission can post a core fault, conservatively. -/
def mayArmStackFault : Instruction → Bool
  | .movecEa _ n _ _ | .movecAa _ n _ _ | .movemEa _ n _ | .movemAa _ n _ => stackish n
  | .movecReg src dst _ => stackish src || stackish dst
  | .movecImm _ dest => stackish dest
  | .movep0 _ r _ _ | .movepQqR _ r _ _ => stackish r
  | .bchgReg r _ | .bclrReg r _ | .bsetReg r _ | .btstReg r _ | .brclrReg r _ | .brsetReg r _
  | .bsclrReg r _ | .bssetReg r _ | .jclrReg r _ | .jsetReg r _ | .jsclrReg r _
  | .jssetReg r _ => stackish r
  | .endDo | .rts | .rti | .trap | .trapcc _ | .illegal => true
  | _ => false
where
  stackish (r : Byte) : Bool := names r Reg.sp || names r Reg.ssh || names r Reg.ssl

theorem stackish_eq_false {r : Byte} : mayArmStackFault.stackish r = false ↔
    r.toNat ≠ Reg.sp.val ∧ r.toNat ≠ Reg.ssh.val ∧ r.toNat ≠ Reg.ssl.val := by
  simp [mayArmStackFault.stackish, names, and_assoc]

/-- The taken target of a conditional branch that may compile to a forward skip. -/
def forwardSkipTarget (inst : Instruction) (pc : Nat) (nextWord : Word) : Option Nat :=
  let regOk (r : Byte) : Bool := !names r Reg.ssh
  let rel := (maskPc (BitVec.ofNat 32 pc + nextWord)).toNat
  match inst with
  | .brclrEa .. | .brclrAa .. | .brclrPp .. | .brclrQq .. | .brsetEa .. | .brsetAa ..
  | .brsetPp .. | .brsetQq .. => some rel
  | .brclrReg r _ | .brsetReg r _ => if regOk r then some rel else none
  | .jclrEa .. | .jclrAa .. | .jclrPp .. | .jclrQq .. | .jsetEa .. | .jsetAa .. | .jsetPp ..
  | .jsetQq .. => some nextWord.toNat
  | .jclrReg r _ | .jsetReg r _ => if regOk r then some nextWord.toNat else none
  | .bcc _ addr => some (maskPc (BitVec.ofNat 32 pc + addr)).toNat
  | .bccLong _ => some rel
  | _ => none

/-- Branches, loops, waits and whatever else disrupts sequential control flow. -/
def isBlockTerminator (inst : Instruction) : Bool :=
  inst.isStackFaultCapable ||
  match inst with
  | .jmp .. | .jcc .. | .jsr .. | .rts | .rti | .bra .. | .bcc .. | .braLong | .bsrLong
  | .bccLong .. | .doImm .. | .doEa .. | .doAa .. | .doReg .. | .doForever | .dorImm ..
  | .dorReg .. | .dorForever | .dorAa .. | .dorEa .. | .endDo | .jclrPp .. | .jclrQq ..
  | .jsetPp .. | .jsetQq .. | .jclrReg .. | .jsetReg .. | .jclrEa .. | .jsetEa .. | .jclrAa ..
  | .jsetAa .. | .jsclrPp .. | .jsclrQq .. | .jsclrAa .. | .jsclrReg .. | .jsclrEa ..
  | .jssetPp .. | .jssetQq .. | .jssetAa .. | .jssetReg .. | .jssetEa .. | .bccRn .. | .braRn ..
  | .bsrRn .. | .bscc .. | .bsccLong .. | .bsccRn .. | .brkcc .. | .brclrEa .. | .brclrAa ..
  | .brclrPp .. | .brclrQq .. | .brclrReg .. | .brsetEa .. | .brsetAa .. | .brsetPp ..
  | .brsetQq .. | .brsetReg .. | .bsclrEa .. | .bsclrAa .. | .bsclrPp .. | .bsclrQq ..
  | .bsclrReg .. | .bssetEa .. | .bssetAa .. | .bssetPp .. | .bssetQq .. | .bssetReg .. | .jscc ..
  | .jsccEa .. | .jmpEa .. | .jsrEa .. | .jccEa .. | .bsr .. | .wait | .stop | .illegal | .trap
  | .trapcc .. => true
  | _ => false

/-- Peripheral writes, whose callbacks may ask the block to return. -/
def needsExitCheck : Instruction → Bool
  | .movep0 .. | .movep1 .. | .movep23 .. | .movepQq .. | .movepQqPea .. | .movepQqR ..
  | .bsetPp .. | .bclrPp .. | .bchgPp .. | .bsetQq .. | .bclrQq .. | .bchgQq .. => true
  | _ => false

/-- Instructions that write to P-space memory. -/
def writesPMemory : Instruction → Bool
  | .movemEa _ _ w | .movemAa _ _ w => !w
  | .movep1 _ _ w _ | .movepQqPea _ _ w _ => !w
  | _ => false

def isRepInstruction : Instruction → Bool
  | .repImm .. | .repAa .. | .repEa .. | .repReg .. => true
  | _ => false

def isDoInstruction : Instruction → Bool
  | .doImm .. | .doReg .. | .doForever | .doAa .. | .doEa .. | .dorImm .. | .dorReg ..
  | .dorForever | .dorAa .. | .dorEa .. => true
  | _ => false

def isDoForever : Instruction → Bool
  | .doForever | .dorForever => true
  | _ => false

/-- The loop-end address of a DO (absolute) or a DOR (relative). -/
def computeDoLa (inst : Instruction) (pc : Nat) (nextWord : Word) : Nat :=
  match inst with
  | .doImm .. | .doReg .. | .doForever | .doAa .. | .doEa .. => (nextWord &&& regMasks Reg.la).toNat
  | .dorImm .. | .dorReg .. | .dorForever | .dorAa .. | .dorEa .. =>
    (maskPc (BitVec.ofNat 32 pc + nextWord)).toNat
  | _ => 0 -- unreachable in the source

theorem instructionLength_pos (inst : Instruction) : 0 < instructionLength inst := by
  cases inst <;> simp only [instructionLength] <;> try split
  all_goals first | decide | skip
  all_goals split <;> decide

theorem instructionLength_le_two (inst : Instruction) : instructionLength inst ≤ 2 := by
  cases inst <;> simp only [instructionLength] <;> try split
  all_goals first | decide | skip
  all_goals split <;> decide

theorem not_writesPMemory_of_skip {inst : Instruction} {pc t : Nat} {nw : Word}
    (h : inst.forwardSkipTarget pc nw = some t) : inst.writesPMemory = false := by
  cases inst <;> first | rfl | simp [forwardSkipTarget] at h

theorem not_loop_of_skip {inst : Instruction} {pc t : Nat} {nw : Word}
    (h : inst.forwardSkipTarget pc nw = some t) :
    inst.isDoInstruction = false ∧ inst.isRepInstruction = false := by
  cases inst <;> first | exact ⟨rfl, rfl⟩ | simp [forwardSkipTarget] at h

theorem not_writesPMemory_of_rep {inst : Instruction} (h : inst.isRepInstruction = true) :
    inst.writesPMemory = false := by
  cases inst <;> first | rfl | simp [isRepInstruction] at h

theorem not_writesPMemory_of_do {inst : Instruction} (h : inst.isDoInstruction = true) :
    inst.writesPMemory = false := by
  cases inst <;> first | rfl | simp [isDoInstruction] at h

end Dsp56300.Instruction
