import Dsp56300.Core.Decode
import Dsp56300.Disasm.ParallelMove

namespace Dsp56300

set_option linter.constructorNameAsVariable false

def bitMnemonic : Instruction → String
  | .bchgEa .. | .bchgAa .. | .bchgPp .. | .bchgQq .. | .bchgReg .. => "bchg"
  | .bclrEa .. | .bclrAa .. | .bclrPp .. | .bclrQq .. | .bclrReg .. => "bclr"
  | .bsetEa .. | .bsetAa .. | .bsetPp .. | .bsetQq .. | .bsetReg .. => "bset"
  | .btstEa .. | .btstAa .. | .btstPp .. | .btstQq .. | .btstReg .. => "btst"
  | _ => "?bit"

def bitbranchMnemonic : Instruction → String
  | .jclrEa .. | .jclrAa .. | .jclrPp .. | .jclrQq .. | .jclrReg .. => "jclr"
  | .jsetEa .. | .jsetAa .. | .jsetPp .. | .jsetQq .. | .jsetReg .. => "jset"
  | .jsclrEa .. | .jsclrAa .. | .jsclrPp .. | .jsclrQq .. | .jsclrReg .. => "jsclr"
  | .jssetEa .. | .jssetAa .. | .jssetPp .. | .jssetQq .. | .jssetReg .. => "jsset"
  | _ => "?bitbr"

def relbranchMnemonic : Instruction → String
  | .brclrEa .. | .brclrAa .. | .brclrPp .. | .brclrQq .. | .brclrReg .. => "brclr"
  | _ => "brset"

def subrBranchMnemonic : Instruction → String
  | .bsclrEa .. | .bsclrAa .. | .bsclrPp .. | .bsclrQq .. | .bsclrReg .. => "bsclr"
  | _ => "bsset"

/-- The name of a control register of andi and ori. -/
def controlName (dest : Byte) : String :=
  if dest = 0 then "mr" else if dest = 1 then "ccr" else if dest = 2 then "com"
  else if dest = 3 then "eom" else "?"

section Arms

variable (pc nextWord : Word) (symbols : SymbolTable)

/-- Length of an instruction whose effective address may take the extension word. -/
def eaLen (extra : Bool) : Nat := if extra then 2 else 1

/-- A short or long branch to a displacement, with the given mnemonic. -/
def branchText (mnemonic : String) (disp : Word) : String :=
  let target := (pc + disp) &&& 0xFFFFFF
  s!"{mnemonic} {fmtTarget 6 target symbols}"

def branchLongText (mnemonic : String) : String :=
  let target := (pc + nextWord) &&& 0xFFFFFF
  s!"{mnemonic} {branchLongPrefix nextWord}{fmtTarget 6 target symbols}"

def jumpText (mnemonic : String) (addr : Word) : String :=
  s!"{mnemonic} {fmtTarget 4 addr symbols}"

/-- A jump through an effective address. -/
def jumpEa (mnemonic : String) (eaMode : Byte) : String × Nat :=
  let ea := eaMode.setWidth 32
  let (addr, _, extra) := calcEa ea nextWord
  let target := if extra && isEaAbsolute ea then fmtTarget 4 nextWord symbols else addr
  (s!"{mnemonic} {jumpEaAddrPrefix ea nextWord}{target}", eaLen extra)

/-- A bit operand in memory: its space and its address. -/
def bitText (mnemonic : String) (bitNum : Byte) (space : MemSpace) (addr : String) : String :=
  s!"{mnemonic} #{dec bitNum},{spaceChar space}:{addr}"

def bitRegText (mnemonic : String) (bitNum regIdx : Byte) : String :=
  s!"{mnemonic} #{dec bitNum},{regName regIdx.toNat}"

/-- Operand of jclr, jset, jsclr and jsset: in mode 6 the second word is both the address
and the target. -/
def jumpBitEaText (mnemonic : String) (space : MemSpace) (eaMode bitNum : Byte) : String :=
  let target := fmtTarget 4 nextWord symbols
  if (eaMode >>> 3) &&& 7 = 6 then
    if (eaMode >>> 2) &&& 1 = 1 then
      bitText mnemonic bitNum space s!"#${hex 6 nextWord},{target}"
    else
      let shortMark := if hasShortAddr nextWord then ">" else ""
      bitText mnemonic bitNum space s!"{shortMark}${hex 4 nextWord},{target}"
  else
    let addr := (calcEa (eaMode.setWidth 32) nextWord).1
    bitText mnemonic bitNum space s!"{addr},{target}"

/-- Effective-address operand with its length mark. -/
def eaText (eaMode : Byte) : String :=
  let ea := eaMode.setWidth 32
  eaAddrPrefix ea nextWord ++ (calcEa ea nextWord).1

/-- Whether an effective address takes the extension word. -/
def eaExtra (eaMode : Byte) : Bool := (calcEa (eaMode.setWidth 32) nextWord).2.2

/-- Target of a bit branch relative to `pc`. -/
def relTarget : Word := (pc + nextWord) &&& 0xFFFFFF

/-- First address behind a DO loop. -/
def doEnd : Word := (nextWord + 1) &&& 0xFFFFFF

/-- First address behind a DOR loop. -/
def dorEnd : Word := (pc + nextWord + 1) &&& 0xFFFFFF

def loopText (mnemonic operand : String) (target : Word) : String :=
  s!"{mnemonic} {operand},{fmtTarget 4 target symbols}"

def spacedText (space : MemSpace) (addr : String) : String := s!"{spaceChar space}:{addr}"

/-- A move between two operands, `w` saying which one is written. -/
def transferText (mnemonic : String) (w : Bool) (operand reg : String) : String :=
  if w then s!"{mnemonic} {operand},{reg}" else s!"{mnemonic} {reg},{operand}"

def dispOperand (space : MemSpace) (mark : String) (offregIdx : Byte) (disp : Int) : String :=
  s!"{spaceChar space}:{mark}({regName (Reg.r0.val + offregIdx.toNat)}{fmtDisp disp})"

def immLongText (mnemonic : String) (shortMax : Word) (width : Nat) (d : Accumulator) : String :=
  s!"{mnemonic} {immPrefix nextWord shortMax}${hex width nextWord},{accName d}"

def immText (mnemonic : String) (imm : Byte) (d : Accumulator) : String :=
  s!"{mnemonic} #${hex 2 imm},{accName d}"

/-- movep between a peripheral and a memory operand; `isImm` when it is immediate data. -/
def movepText (w : Bool) (per src ea : String) : String :=
  if w then s!"movep {src},{per}" else s!"movep {per},{ea}"

def mulShiftName : MulShiftOp → String
  | .mpy => "mpy"
  | .mpyr => "mpyr"
  | .mac => "mac"
  | .macr => "macr"

def mulImmText (mnemonic : String) (k : Bool) (d : Accumulator) (src : RegIdx) : String :=
  s!"{mnemonic} {signText k}#${hex 6 nextWord},{regName src.val},{accName d}"

def dmacSuffix (ss : Byte) : String :=
  if ss = 0 then "ss" else if ss = 1 then "us" else if ss = 2 then "su" else "uu"

def suSuffix (s : Byte) : String := if s &&& 1 ≠ 0 then "uu" else "su"

/-- Text and length of a decoded instruction; `opcode` is the word it was decoded from. -/
def disassembleInst (opcode : Word) (inst : Instruction) : String × Nat :=
  let reg (r : Byte) : String := regName r.toNat
  match inst with
  | .parallel alu moveType op =>
    if alu = .undefined then (s!"dc ${hex 6 opcode}", 1)
    else
      let pm := disasmParallelMove moveType op nextWord
      (if pm.text.isEmpty then alu.toText else s!"{alu.toText} {pm.text}", eaLen pm.extraWord)
  | .addImm imm d => (immText "add" imm d, 1)
  | .addLong d => (immLongText nextWord "add" 0x3F 4 d, 2)
  | .subImm imm d => (immText "sub" imm d, 1)
  | .subLong d => (immLongText nextWord "sub" 0x3F 6 d, 2)
  | .cmpImm imm d => (immText "cmp" imm d, 1)
  | .cmpLong d => (immLongText nextWord "cmp" 0x3F 6 d, 2)
  | .cmpU src d => (s!"cmpu {regName src.val},{accName d}", 1)
  | .andImm imm d => (immText "and" imm d, 1)
  | .andLong d => (immLongText nextWord "and" 0x3F 4 d, 2)
  | .orImm imm d => (immText "or" imm d, 1)
  | .orLong d => (immLongText nextWord "or" 0x3F 4 d, 2)
  | .eorImm imm d => (immText "eor" imm d, 1)
  | .eorLong d => (immLongText nextWord "eor" 0x3F 4 d, 2)
  | .andI imm dest => (s!"andi #${hex 2 imm},{controlName dest}", 1)
  | .orI imm dest => (s!"ori #${hex 2 imm},{controlName dest}", 1)
  | .aslImm shift s d => (s!"asl #${hex 2 shift},{accName s},{accName d}", 1)
  | .asrImm shift s d => (s!"asr #${hex 2 shift},{accName s},{accName d}", 1)
  | .lslImm shift d => (immText "lsl" shift d, 1)
  | .lsrImm shift d => (immText "lsr" shift d, 1)
  | .aslReg src s d => (s!"asl {regName src.val},{accName s},{accName d}", 1)
  | .asrReg src s d => (s!"asr {regName src.val},{accName s},{accName d}", 1)
  | .lslReg src d => (s!"lsl {regName src.val},{accName d}", 1)
  | .lsrReg src d => (s!"lsr {regName src.val},{accName d}", 1)
  | .bcc cc addr => (branchText pc symbols s!"b{cc.name}" addr, 1)
  | .bccLong cc => (branchLongText pc nextWord symbols s!"b{cc.name}", 2)
  | .bra addr => (branchText pc symbols "bra" addr, 1)
  | .braLong => (branchLongText pc nextWord symbols "bra", 2)
  | .bsr addr => (branchText pc symbols "bsr" addr, 1)
  | .bsrLong => (branchLongText pc nextWord symbols "bsr", 2)
  | .bccRn cc rn => (s!"b{cc.name} r{dec rn}", 1)
  | .braRn rn => (s!"bra r{dec rn}", 1)
  | .bsrRn rn => (s!"bsr r{dec rn}", 1)
  | .bscc cc addr => (branchText pc symbols s!"bs{cc.name}" addr, 1)
  | .bsccLong cc => (branchLongText pc nextWord symbols s!"bs{cc.name}", 2)
  | .bsccRn cc rn => (s!"bs{cc.name} r{dec rn}", 1)
  | .brkcc cc => (s!"brk{cc.name}", 1)
  | .jcc cc addr => (jumpText symbols s!"j{cc.name}" addr, 1)
  | .jccEa cc ea => jumpEa nextWord symbols s!"j{cc.name}" ea
  | .jmp addr => (jumpText symbols "jmp" addr, 1)
  | .jmpEa ea => jumpEa nextWord symbols "jmp" ea
  | .jscc cc addr => (jumpText symbols s!"js{cc.name}" addr, 1)
  | .jsccEa cc ea => jumpEa nextWord symbols s!"js{cc.name}" ea
  | .jsr addr => (jumpText symbols "jsr" addr, 1)
  | .jsrEa ea => jumpEa nextWord symbols "jsr" ea
  | .bchgEa space ea bit | .bclrEa space ea bit | .bsetEa space ea bit | .btstEa space ea bit =>
    (bitText (bitMnemonic inst) bit space (eaText nextWord ea), eaLen (eaExtra nextWord ea))
  | .bchgAa space addr bit | .bclrAa space addr bit | .bsetAa space addr bit
  | .btstAa space addr bit => (bitText (bitMnemonic inst) bit space s!"${hex 4 addr}", 1)
  | .bchgPp space pp bit | .bclrPp space pp bit | .bsetPp space pp bit | .btstPp space pp bit =>
    (bitText (bitMnemonic inst) bit space s!"${hex 6 (ppAddr pp)}", 1)
  | .bchgQq space qq bit | .bclrQq space qq bit | .bsetQq space qq bit | .btstQq space qq bit =>
    (bitText (bitMnemonic inst) bit space s!"${hex 6 (qqAddr qq)}", 1)
  | .bchgReg r bit | .bclrReg r bit | .bsetReg r bit | .btstReg r bit =>
    (bitRegText (bitMnemonic inst) bit r, 1)
  | .jclrEa space ea bit | .jsetEa space ea bit | .jsclrEa space ea bit | .jssetEa space ea bit =>
    (jumpBitEaText nextWord symbols (bitbranchMnemonic inst) space ea bit, 2)
  | .jclrAa space addr bit | .jsetAa space addr bit | .jsclrAa space addr bit
  | .jssetAa space addr bit =>
    (bitText (bitbranchMnemonic inst) bit space
      s!"${hex 4 addr},{fmtTarget 4 nextWord symbols}", 2)
  | .jclrPp space pp bit | .jsetPp space pp bit | .jsclrPp space pp bit | .jssetPp space pp bit =>
    (bitText (bitbranchMnemonic inst) bit space
      s!"${hex 6 (ppAddr pp)},{fmtTarget 4 nextWord symbols}", 2)
  | .jclrQq space qq bit | .jsetQq space qq bit | .jsclrQq space qq bit | .jssetQq space qq bit =>
    (bitText (bitbranchMnemonic inst) bit space
      s!"${hex 6 (qqAddr qq)},{fmtTarget 4 nextWord symbols}", 2)
  | .jclrReg r bit | .jsetReg r bit | .jsclrReg r bit | .jssetReg r bit =>
    (s!"{bitRegText (bitbranchMnemonic inst) bit r},{fmtTarget 4 nextWord symbols}", 2)
  | .brclrEa space ea bit | .brsetEa space ea bit =>
    (bitText (relbranchMnemonic inst) bit space
      s!"{eaText nextWord ea},{fmtTarget 6 (relTarget pc nextWord) symbols}", 2)
  | .brclrAa space addr bit | .brsetAa space addr bit =>
    (bitText (relbranchMnemonic inst) bit space
      s!"${hex 4 addr},{fmtTarget 6 (relTarget pc nextWord) symbols}", 2)
  | .brclrPp space pp bit | .brsetPp space pp bit =>
    (bitText (relbranchMnemonic inst) bit space
      s!"${hex 6 (ppAddr pp)},{fmtTarget 6 (relTarget pc nextWord) symbols}", 2)
  | .brclrQq space qq bit | .brsetQq space qq bit =>
    (bitText (relbranchMnemonic inst) bit space
      s!"${hex 6 (qqAddr qq)},{fmtTarget 6 (relTarget pc nextWord) symbols}", 2)
  | .brclrReg r bit | .brsetReg r bit =>
    (s!"{bitRegText (relbranchMnemonic inst) bit r},{fmtTarget 4 (relTarget pc nextWord) symbols}",
      2)
  | .bsclrEa space ea bit | .bssetEa space ea bit =>
    (bitText (subrBranchMnemonic inst) bit space
      s!"{eaText nextWord ea},{fmtTarget 6 (relTarget pc nextWord) symbols}", 2)
  | .bsclrAa space addr bit | .bssetAa space addr bit =>
    (bitText (subrBranchMnemonic inst) bit space
      s!"${hex 4 addr},{fmtTarget 6 (relTarget pc nextWord) symbols}", 2)
  | .bsclrPp space pp bit | .bssetPp space pp bit =>
    (bitText (subrBranchMnemonic inst) bit space
      s!"${hex 6 (ppAddr pp)},{fmtTarget 6 (relTarget pc nextWord) symbols}", 2)
  | .bsclrQq space qq bit | .bssetQq space qq bit =>
    (bitText (subrBranchMnemonic inst) bit space
      s!"${hex 6 (qqAddr qq)},{fmtTarget 6 (relTarget pc nextWord) symbols}", 2)
  | .bsclrReg r bit | .bssetReg r bit =>
    (s!"{bitRegText (subrBranchMnemonic inst) bit r},{fmtTarget 4 (relTarget pc nextWord) symbols}",
      2)
  | .doEa space ea =>
    (loopText symbols "do" (spacedText space (eaText nextWord ea)) (doEnd nextWord), 2)
  | .doAa space addr =>
    (loopText symbols "do" (spacedText space s!"${hex 4 addr}") (doEnd nextWord), 2)
  | .doImm count => (loopText symbols "do" s!"#${hex 4 count}" (doEnd nextWord), 2)
  | .doReg r => (loopText symbols "do" (reg r) (doEnd nextWord), 2)
  | .doForever => (loopText symbols "do" "forever" (doEnd nextWord), 2)
  | .dorEa space ea =>
    (loopText symbols "dor" (spacedText space (eaText nextWord ea)) (dorEnd pc nextWord), 2)
  | .dorAa space addr =>
    (loopText symbols "dor" (spacedText space s!"${hex 4 addr}") (dorEnd pc nextWord), 2)
  | .dorImm count => (loopText symbols "dor" s!"#${hex 4 count}" (dorEnd pc nextWord), 2)
  | .dorReg r => (loopText symbols "dor" (reg r) (dorEnd pc nextWord), 2)
  | .dorForever => (loopText symbols "dor" "forever" (dorEnd pc nextWord), 2)
  | .endDo => ("enddo", 1)
  | .repEa space ea =>
    (s!"rep {spacedText space (eaText nextWord ea)}", eaLen (eaExtra nextWord ea))
  | .repAa space addr => (s!"rep {spaceChar space}:${hex 4 addr}", 1)
  | .repImm count => (s!"rep #${hex 2 count}", 1)
  | .repReg r => (s!"rep {reg r}", 1)
  | .moveLongDisp space w offregIdx numreg =>
    let disp := signextend 24 nextWord
    let mark := if -64 ≤ disp ∧ disp ≤ 63 then ">" else ""
    (transferText "move" w (dispOperand space mark offregIdx disp) (reg numreg), 2)
  | .moveShortDisp space offset w offregIdx numreg =>
    let disp := signextend 7 (offset.setWidth 32)
    (transferText "move" w (dispOperand space "" offregIdx disp) (reg numreg), 1)
  | .movecReg srcReg dstReg w => (transferText "movec" w (reg srcReg) (reg dstReg), 1)
  | .movecAa addr numreg w space =>
    (transferText "movec" w (spacedText space s!"${hex 4 addr}") (reg numreg), 1)
  | .movecEa ea numreg w space =>
    let operand :=
      if w && (calcEa (ea.setWidth 32) nextWord).2.1 then
        immPrefix nextWord 0xFF ++ (calcEa (ea.setWidth 32) nextWord).1
      else spacedText space (eaText nextWord ea)
    (transferText "movec" w operand (reg numreg), eaLen (eaExtra nextWord ea))
  | .movecImm imm dest => (s!"movec #${hex 2 imm},{reg dest}", 1)
  | .movemEa ea numreg w =>
    (transferText "movem" w s!"p:{eaText nextWord ea}" (reg numreg), eaLen (eaExtra nextWord ea))
  | .movemAa addr numreg w => (transferText "movem" w s!"p:${hex 4 addr}" (reg numreg), 1)
  | .movep23 pp ea w perspace easpace =>
    let (addr, isImm, extra) := calcEa (ea.setWidth 32) nextWord
    let src := if isImm then s!"#{addr}" else spacedText easpace addr
    (movepText w (spacedText perspace s!"${hex 6 (ppAddr pp)}") src (spacedText easpace addr),
      eaLen extra)
  | .movepQq qq ea w qqspace easpace =>
    let (addr, isImm, extra) := calcEa (ea.setWidth 32) nextWord
    let src := if isImm then s!"#{addr}" else spacedText easpace addr
    (movepText w (spacedText qqspace s!"${hex 4 (qqAddr qq)}") src (spacedText easpace addr),
      eaLen extra)
  | .movep1 pp ea w space =>
    let (addr, _, extra) := calcEa (ea.setWidth 32) nextWord
    (movepText w (spacedText space s!"${hex 6 (ppAddr pp)}") s!"p:{addr}" s!"p:{addr}", eaLen extra)
  | .movep0 pp r w space =>
    (movepText w (spacedText space s!"${hex 6 (ppAddr pp)}") (reg r) (reg r), 1)
  | .movepQqPea qq ea w space =>
    let (addr, _, extra) := calcEa (ea.setWidth 32) nextWord
    (movepText w (spacedText space s!"${hex 4 (qqAddr qq)}") s!"p:{addr}" s!"p:{addr}", eaLen extra)
  | .movepQqR qq r w space =>
    (movepText w (spacedText space s!"${hex 4 (qqAddr qq)}") (reg r) (reg r), 1)
  | .mulShift op shift src d k =>
    (s!"{mulShiftName op} {signText k}{regName src.val},#{dec shift},{accName d}", 1)
  | .mpyI k d src => (mulImmText nextWord "mpyi" k d src, 2)
  | .mpyrI k d src => (mulImmText nextWord "mpyri" k d src, 2)
  | .macI k d src => (mulImmText nextWord "maci" k d src, 2)
  | .macrI k d src => (mulImmText nextWord "macri" k d src, 2)
  | .dmac ss k d s1 s2 => (ParallelAlu.mulText s!"dmac{dmacSuffix ss}" k s1 s2 d, 1)
  | .macSU s k d s1 s2 => (ParallelAlu.mulText s!"mac{suSuffix s}" k s1 s2 d, 1)
  | .mpySU s k d s1 s2 => (ParallelAlu.mulText s!"mpy{suSuffix s}" k s1 s2 d, 1)
  | .div src d => (s!"div {regName src.val},{accName d}", 1)
  | .lua ea dst =>
    let (addr, _, extra) := calcEa (ea.setWidth 32) nextWord
    (s!"lua {addr},{reg dst}", eaLen extra)
  | .luaRel aa addrReg dstReg destIsN =>
    let disp := fmtDisp (signextend 7 (aa.setWidth 32))
    let dst := if destIsN then s!"n{dec dstReg}" else s!"r{dec dstReg}"
    (s!"lua (r{dec addrReg}{disp}),{dst}", 1)
  | .lraRn addrReg dst => (s!"lra r{dec addrReg},{reg dst}", 1)
  | .lraDisp dst => (s!"lra ${hex 6 (relTarget pc nextWord)},{reg dst}", 2)
  | .norm r d => (s!"norm {regName (Reg.r0.val + r.toNat)},{accName d}", 1)
  | .tcc cc acc r =>
    let accPart := match acc with
      | some (src, dst) => s!" {regName src.val},{regName dst.val}"
      | none => ""
    let rPart := match r with
      | some (src, dst) =>
        s!" {regName (Reg.r0.val + src.toNat)},{regName (Reg.r0.val + dst.toNat)}"
      | none => ""
    (s!"t{cc.name}{accPart}{rPart}", 1)
  | .nop => ("nop", 1)
  | .dec d => (s!"dec {accName d}", 1)
  | .inc d => (s!"inc {accName d}", 1)
  | .illegal => ("illegal", 1)
  | .reset => ("reset", 1)
  | .rti => ("rti", 1)
  | .rts => ("rts", 1)
  | .stop => ("stop", 1)
  | .wait => ("wait", 1)
  | .clb s d => (s!"clb {accName s},{accName d}", 1)
  | .normf src d => (s!"normf {regName src.val},{accName d}", 1)
  | .merge src d => (s!"merge {regName src.val},{accName d}", 1)
  | .extractReg s1 s2 d => (s!"extract {regName s1.val},{accName s2},{accName d}", 1)
  | .extractImm s2 d => (s!"extract #${hex 6 nextWord},{accName s2},{accName d}", 2)
  | .extractuReg s1 s2 d => (s!"extractu {regName s1.val},{accName s2},{accName d}", 1)
  | .extractuImm s2 d => (s!"extractu #${hex 6 nextWord},{accName s2},{accName d}", 2)
  | .insertReg s1 s2 d => (s!"insert {regName s1.val},{regName s2.val},{accName d}", 1)
  | .insertImm s2 d => (s!"insert #${hex 6 nextWord},{regName s2.val},{accName d}", 2)
  | .vsl s ea iBit =>
    let (addr, _, extra) := calcEa (ea.setWidth 32) nextWord
    (s!"vsl {accName s},{dec iBit},l:{addr}", eaLen extra)
  | .debug => ("debug", 1)
  | .debugcc cc => (s!"debug{cc.name}", 1)
  | .trap => ("trap", 1)
  | .trapcc cc => (s!"trap{cc.name}", 1)
  | .pflush => ("pflush", 1)
  | .pflushun => ("pflushun", 1)
  | .pfree => ("pfree", 1)
  | .plockEa ea =>
    let (addr, _, extra) := calcEa (ea.setWidth 32) nextWord
    (s!"plock {addr}", eaLen extra)
  | .plockr => (s!"plockr ${hex 6 (relTarget pc nextWord)}", 2)
  | .punlockEa ea =>
    let (addr, _, extra) := calcEa (ea.setWidth 32) nextWord
    (s!"punlock {addr}", eaLen extra)
  | .punlockr => (s!"punlockr ${hex 6 (relTarget pc nextWord)}", 2)
  | .unimplemented name op => (s!"{name} ; ${hex 6 op}", 1)
  | .unknown op => (s!"dc ${hex 6 op}", 1)

end Arms

/-- Disassemble a single instruction, with symbol names where they are known: its text and
how many words it takes. -/
def disassembleWithSymbols (pc opcode nextWord : Word) (symbols : SymbolTable) : String × Nat :=
  disassembleInst pc nextWord symbols opcode (decode opcode)

def disassemble (pc opcode nextWord : Word) : String × Nat :=
  disassembleWithSymbols pc opcode nextWord fun _ => none

end Dsp56300
