import Dsp56300.Emu.State

namespace Dsp56300.DspState

variable {σ : Type}

/-- Post a stack error under the shadow word budget of the running instruction. -/
def raiseStackError (s : DspState σ) : DspState σ :=
  { s with interrupts :=
      { s.interrupts.add Interrupt.stackError with faultBudget := s.faultBudgetHint } }

/-- Post a stack error and consume the budget. -/
def postStackError (s : DspState σ) : DspState σ :=
  { s.raiseStackError with faultBudgetHint := invalidFaultBudget }

/-- The slot SP points at. -/
def spIndex (sp : Word) : Fin 16 := ⟨(sp &&& 0xF).toNat % 16, Nat.mod_lt _ (by decide)⟩

/-- Read SSH and SSL back from the slots at `idx`. -/
def mirrorSlots (s : DspState σ) (idx : Fin 16) : DspState σ :=
  (s.setReg Reg.ssh (s.stack 0 idx)).setReg Reg.ssl (s.stack 1 idx)

/-- Push SSH and SSL to the hardware stack. -/
def stackPush (s : DspState σ) (sshVal sslVal : Word) : DspState σ :=
  let stackError := s.registers Reg.sp &&& (1#32 <<< 4)
  let underflow := s.registers Reg.sp &&& (1#32 <<< 5)
  let stack := (s.registers Reg.sp &&& 0xF) + 1
  -- Overflow: the stack pointer carries into bit 4 with no prior error.
  let s := if stackError = 0 ∧ stack &&& (1#32 <<< 4) ≠ 0 then s.postStackError else s
  let s := s.setReg Reg.sp ((underflow ||| stackError ||| stack) &&& 0x3F)
  let s := s.setReg Reg.sc ((s.registers Reg.sc + 1) &&& regMasks Reg.sc)
  let idx := spIndex stack
  let s := if stack ≠ 0 then
    (s.setSlot 0 idx (sshVal &&& regMasks Reg.ssh)).setSlot 1 idx (sslVal &&& regMasks Reg.ssl)
  else s
  s.mirrorSlots idx

/-- Pop SSH and SSL from the hardware stack. -/
def stackPop (s : DspState σ) : (Word × Word) × DspState σ :=
  let stackError := s.registers Reg.sp &&& (1#32 <<< 4)
  let underflow := s.registers Reg.sp &&& (1#32 <<< 5)
  let stack := (s.registers Reg.sp &&& 0xF) - 1
  let s := if stackError = 0 ∧ stack &&& (1#32 <<< 4) ≠ 0 then s.postStackError else s
  let s := s.setReg Reg.sp ((underflow ||| stackError ||| stack) &&& 0x3F)
  let s := s.setReg Reg.sc ((s.registers Reg.sc - 1) &&& regMasks Reg.sc)
  ((s.registers Reg.ssh, s.registers Reg.ssl), s.mirrorSlots (spIndex stack))

/-- Write to the SSH register: pushes the value, but leaves the SSL slot untouched. -/
def jitWriteSsh (s : DspState σ) (value : Word) : DspState σ :=
  let stackError := s.registers Reg.sp &&& (1#32 <<< 4)
  let underflow := s.registers Reg.sp &&& (1#32 <<< 5)
  let stack := (s.registers Reg.sp &&& 0xF) + 1
  let s := if stackError = 0 ∧ stack &&& (1#32 <<< 4) ≠ 0 then s.postStackError else s
  let s := s.setReg Reg.sp ((underflow ||| stackError ||| stack) &&& 0x3F)
  let s := s.setReg Reg.sc ((s.registers Reg.sc + 1) &&& regMasks Reg.sc)
  let idx := spIndex stack
  let s := if stack ≠ 0 then s.setSlot 0 idx (value &&& regMasks Reg.ssh) else s
  s.mirrorSlots idx

/-- Read the SSH register with stack pop semantics. -/
def jitReadSsh (s : DspState σ) : Word × DspState σ := (s.stackPop.1.1, s.stackPop.2)

/-- Write SSH in place, without touching SP. At an empty stack nothing is written and
SP latches UF and SE; this path leaves the budget hint standing. -/
def jitWriteSshTos (s : DspState σ) (value : Word) : DspState σ :=
  let sp := s.registers Reg.sp
  let idx := spIndex sp
  let s := if idx ≠ 0 then s.setSlot 0 idx (value &&& regMasks Reg.ssh)
  else
    let s := if sp &&& (1#32 <<< 4) = 0 then s.raiseStackError else s
    s.setReg Reg.sp ((sp ||| (1#32 <<< 5) ||| (1#32 <<< 4)) &&& 0x3F)
  s.setReg Reg.ssh (s.stack 0 idx)

/-- Write to the SSL register: slot 0 is real storage. -/
def jitWriteSsl (s : DspState σ) (value : Word) : DspState σ :=
  let idx := spIndex (s.registers Reg.sp)
  let value := value &&& regMasks Reg.ssl
  (s.setSlot 1 idx value).setReg Reg.ssl value

/-- An SP write is remembered while a parked fault counts down. -/
def noteSpWrite (s : DspState σ) : DspState σ :=
  if s.interrupts.state = .parked then
    { s with interrupts := { s.interrupts with parkedSpWrite := true } }
  else s

/-- Write to the SP register and recompute SSH and SSL. Writing SE over a clean SP is
itself a stack error; a write while a parked fault counts down defers its delivery. -/
def jitWriteSp (s : DspState σ) (value : Word) : DspState σ :=
  let mask := regMasks Reg.sp
  let s := s.noteSpWrite
  let stackError := s.registers Reg.sp &&& (3#32 <<< 4)
  let s := if stackError = 0 ∧ value &&& (1#32 <<< 4) ≠ 0 then s.postStackError else s
  let s := s.setReg Reg.sp (value &&& mask)
  s.mirrorSlots (spIndex (s.registers Reg.sp))

/-- Warn once per unimplemented feature bit (SR SC, SA, DM and OMR SEN, MS). -/
def checkUnimplementedModes (s : DspState σ) : DspState σ :=
  let srUnimpl : Word := (1#32 <<< Sr.sc) ||| (1#32 <<< Sr.sa) ||| (1#32 <<< Sr.dm)
  let omrUnimpl : Word := (1#32 <<< 20) ||| (1#32 <<< 7)
  let sr := s.registers Reg.sr
  let omr := s.registers Reg.omr
  let bits := (sr &&& srUnimpl) ||| (omr &&& omrUnimpl)
  if bits = 0 ∨ bits = s.unimplReported then s
  else
    let warn (v : Word) (bit : Nat) (w : Word) : Word :=
      if v &&& (1#32 <<< bit) ≠ 0 ∧ s.warnedBits &&& w = 0 then w else 0
    let newWarnings := warn sr Sr.sc (1#32 <<< 0) ||| warn sr Sr.sa (1#32 <<< 1) |||
      warn sr Sr.dm (1#32 <<< 2) ||| warn omr 20 (1#32 <<< 3) ||| warn omr 7 (1#32 <<< 4)
    { s with unimplReported := bits, warnedBits := s.warnedBits ||| newWarnings }

/-- A REP retiring inside an armed core-fault window leaves at most one more word. -/
def repTruncateArmedWindow (s : DspState σ) : DspState σ :=
  if s.interrupts.state = .armed then
    { s with interrupts := { s.interrupts with
        faultBudget := if s.interrupts.faultBudget < 1 then s.interrupts.faultBudget else 1 } }
  else s

/-- The REP half of `advancePc`: iterate, retire, or skip a zero-count target. -/
def advanceRep (s : DspState σ) : DspState σ :=
  if ¬ s.loopRep then s
  else if ¬ s.pcOnRep then
    let s := s.setReg Reg.lc ((s.registers Reg.lc - 1) &&& regMasks Reg.lc)
    if s.registers Reg.lc > 0 then { s with pcAdvance := 0 }
    else
      let s := { s with loopRep := false }
      (s.setReg Reg.lc (s.registers Reg.temp)).repTruncateArmedWindow
  else
    let s := if s.registers Reg.lc = 0 then
      let s := { s with loopRep := false }
      let s := s.setReg Reg.lc (s.registers Reg.temp)
      let s := { s with pcAdvance := s.pcAdvance + 1 }
      s.repTruncateArmedWindow
    else s
    { s with pcOnRep := false }

/-- The DO half of `advancePc`: loop back, or unstack the enclosing context. -/
def advanceDo (s : DspState σ) : DspState σ :=
  if s.registers Reg.sr &&& (1#32 <<< Sr.lf) ≠ 0 ∧ s.pcAdvance ≠ 0 ∧
      s.pc = maskPc (s.registers Reg.la + 1) then
    let s := s.setReg Reg.lc ((s.registers Reg.lc - 1) &&& regMasks Reg.lc)
    if s.registers Reg.lc = 0 ∧ s.registers Reg.sr &&& (1#32 <<< Sr.fv) = 0 then
      -- End of loop: pop saved PC and SR, restore LF and FV, pop saved LA and LC.
      let (savedSr, s) := (s.stackPop.1.2, s.stackPop.2)
      let lfFvMask : Word := (1#32 <<< Sr.lf) ||| (1#32 <<< Sr.fv)
      let s := s.setReg Reg.sr ((s.registers Reg.sr &&& ~~~lfFvMask) ||| (savedSr &&& lfFvMask))
      let (la, lc, s) := (s.stackPop.1.1, s.stackPop.1.2, s.stackPop.2)
      (s.setReg Reg.la la).setReg Reg.lc lc
    else { s with pc := s.registers Reg.ssh }
  else s

/-- Post-execution PC update: REP iteration, PC advancement, DO loop end. -/
def advancePc (s : DspState σ) : DspState σ :=
  let s := s.checkUnimplementedModes.advanceRep
  let s := { s with pc := maskPc (s.pc + s.pcAdvance) }
  s.advanceDo

end Dsp56300.DspState
