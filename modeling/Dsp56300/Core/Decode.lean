import Dsp56300.Core.Instruction

namespace Dsp56300

set_option linter.constructorNameAsVariable false

/-- A non-parallel opcode table entry. `mode6Ok` says whether MMM=110 (absolute
address or immediate data) is a valid encoding of it; entries that do not own
those code points fall through to the colliding instruction. -/
structure OpcodeEntry where
  mask : Word
  matchVal : Word
  name : String
  hasMmmrrr : Bool
  mode6Ok : Bool
  decode : Option (Word → Instruction)

/-- A template character as (fixed bit, its value); letters are variable bits. -/
def tmplBitOf (c : Char) : Bool × Bool :=
  if c = '0' then (true, false) else if c = '1' then (true, true) else (false, false)

/-- Convert a 24-character template into its (mask, match) pair. -/
def templateToMaskMatch (tmpl : String) : Word × Word :=
  tmpl.toList.zipIdx.foldl (fun acc (c, i) =>
    let (fixed, one) := tmplBitOf c
    (if fixed then acc.1 ||| 1 <<< (23 - i) else acc.1,
      if one then acc.2 ||| 1 <<< (23 - i) else acc.2)) (0, 0)

/-- Whether a template contains MMMRRR addressing mode fields. -/
def tmplHasMmmrrr (tmpl : String) : Bool := tmpl.toList.contains 'M'

/-- Match predicate for MMMRRR field validation. -/
def matchMmmrrr (op : Word) : Bool :=
  let rrr := (op >>> 8) &&& 0x7
  let mmm := (op >>> 11) &&& 0x7
  if mmm = 0x6 then rrr = 0x0 || rrr = 0x4 else true

/-- Normalize the don't-care bits of a mode-6 effective address in an opcode. -/
def normalizeMode6Ea (opcode : Word) : Word :=
  if (opcode >>> 11) &&& 7 ≠ 6 then opcode
  else
    let opcode := opcode &&& ~~~0x0300
    if opcode &&& (1 <<< 15) = 0 then opcode &&& ~~~0x0400 else opcode

/-- Bits of `op` at the positions of `letter` in `tmpl`, packed MSB-first. -/
def tmplField (tmpl : String) (letter : Char) (op : Word) : Word :=
  tmpl.toList.zipIdx.foldl (fun result (c, i) =>
    if c = letter then (result <<< 1) ||| ((op >>> (23 - i)) &&& 1) else result) 0

/-- Two letter groups, the `hi` bits above the `lo` bits. -/
def tmplField2 (tmpl : String) (hi lo : Char) (op : Word) : Word :=
  (tmplField tmpl hi op <<< tmpl.toList.count lo) ||| tmplField tmpl lo op

def tmplSpace (tmpl : String) (letter : Char) (op : Word) : MemSpace :=
  .xy (tmplField tmpl letter op)

def tmplReg (tmpl : String) (letter : Char) (op : Word) : Byte :=
  (tmplField tmpl letter op).setWidth 8

def tmplEa (tmpl : String) (op : Word) : Byte := (tmplField2 tmpl 'M' 'R' op).setWidth 8

def tmplBit (tmpl : String) (op : Word) : Byte := tmplReg tmpl 'b' op

def tmplAddr (tmpl : String) (op : Word) : Byte := tmplReg tmpl 'a' op

def tmplPp (tmpl : String) (op : Word) : Byte := tmplReg tmpl 'p' op

def tmplQq (tmpl : String) (op : Word) : Byte := tmplReg tmpl 'q' op

def tmplImm (tmpl : String) (op : Word) : Byte := tmplReg tmpl 'i' op

def tmplFlag (tmpl : String) (letter : Char) (op : Word) : Bool := tmplField tmpl letter op ≠ 0

def tmplW (tmpl : String) (op : Word) : Bool := tmplFlag tmpl 'W' op

def tmplAcc (tmpl : String) (letter : Char) (op : Word) : Accumulator :=
  if tmplField tmpl letter op = 0 then .a else .b

def tmplCc (tmpl : String) (op : Word) : CondCode := .fromBits (tmplField tmpl 'C' op)

/-- 12-bit loop count from the 'h' (high) and 'i' (low) letters. -/
def tmplCount (tmpl : String) (op : Word) : BitVec 16 := (tmplField2 tmpl 'h' 'i' op).setWidth 16

/-- 9-bit sign-extended displacement from the 'a' letters. -/
def tmplSext9 (tmpl : String) (op : Word) : Word :=
  let val := tmplField tmpl 'a' op
  if val &&& (1 <<< 8) ≠ 0 then val ||| 0xFFFFFE00 else val

/-- The three Tcc templates are told apart by bits 16 and 11. -/
def decTcc (op : Word) : Instruction :=
  let bit16 : Bool := (op >>> 16) &&& 1 ≠ 0
  let bit11 : Bool := (op >>> 11) &&& 1 ≠ 0
  let acc := if bit11 then none else registersTcc[((op >>> 3) &&& 0xF).toNat]?
  let r :=
    if bit16 || bit11 then some (((op >>> 8) &&& 0x7).setWidth 8, (op &&& 0x7).setWidth 8) else none
  .tcc (.fromBits ((op >>> 12) &&& 0xF)) acc r

def entry (tmpl name : String) (decode : Option (Word → Instruction)) : OpcodeEntry where
  mask := (templateToMaskMatch tmpl).1
  matchVal := (templateToMaskMatch tmpl).2
  name := name
  hasMmmrrr := tmplHasMmmrrr tmpl
  mode6Ok := true
  decode := decode

/-- Mark an entry as not owning the MMM=110 code points of its MMMRRR field. -/
def noMode6 (e : OpcodeEntry) : OpcodeEntry := { e with mode6Ok := false }

def opRow (tmpl name : String) (decode : String → Word → Instruction) : OpcodeEntry :=
  entry tmpl name (some (decode tmpl))

section Shapes

variable (t : String) (opc : Word)

def bitEa (v : MemSpace → Byte → Byte → Instruction) : Instruction :=
  v (tmplSpace t 'S' opc) (tmplEa t opc) (tmplBit t opc)

def bitAa (v : MemSpace → Byte → Byte → Instruction) : Instruction :=
  v (tmplSpace t 'S' opc) (tmplAddr t opc) (tmplBit t opc)

def bitPp (v : MemSpace → Byte → Byte → Instruction) : Instruction :=
  v (tmplSpace t 'S' opc) (tmplPp t opc) (tmplBit t opc)

def bitQq (v : MemSpace → Byte → Byte → Instruction) : Instruction :=
  v (tmplSpace t 'S' opc) (tmplQq t opc) (tmplBit t opc)

def bitReg (v : Byte → Byte → Instruction) : Instruction :=
  v (tmplReg t 'D' opc) (tmplBit t opc)

def loopEa (v : MemSpace → Byte → Instruction) : Instruction :=
  v (tmplSpace t 'S' opc) (tmplEa t opc)

def loopAa (v : MemSpace → Byte → Instruction) : Instruction :=
  v (tmplSpace t 'S' opc) (tmplAddr t opc)

def loopImm (v : BitVec 16 → Instruction) : Instruction := v (tmplCount t opc)

def loopReg (v : Byte → Instruction) (letter : Char) : Instruction := v (tmplReg t letter opc)

def aluImm (v : Byte → Accumulator → Instruction) : Instruction :=
  v (tmplImm t opc) (tmplAcc t 'd' opc)

def aluLong (v : Accumulator → Instruction) : Instruction := v (tmplAcc t 'd' opc)

def ccShape (v : CondCode → Instruction) : Instruction := v (tmplCc t opc)

def ccRn (v : CondCode → Byte → Instruction) : Instruction :=
  v (tmplCc t opc) (tmplReg t 'R' opc)

def ccEa (v : CondCode → Byte → Instruction) : Instruction := v (tmplCc t opc) (tmplEa t opc)

def eaShape (v : Byte → Instruction) : Instruction := v (tmplEa t opc)

def accShape (v : Accumulator → Instruction) : Instruction := v (tmplAcc t 'd' opc)

def rnShape (v : Byte → Instruction) : Instruction := v (tmplReg t 'R' opc)

def shiftImm (v : Byte → Accumulator → Instruction) : Instruction :=
  v (tmplImm t opc) (tmplAcc t 'D' opc)

def shiftReg (v : RegIdx → Accumulator → Instruction) : Instruction :=
  match sssReg (tmplField t 's' opc) with
  | some src => v src (tmplAcc t 'D' opc)
  | none => .unknown opc

def mulshift (o : MulShiftOp) : Instruction :=
  .mulShift o (tmplReg t 's' opc) (qqRegMulshift (tmplField t 'Q' opc)) (tmplAcc t 'd' opc)
    (tmplFlag t 'k' opc)

end Shapes

def opcodeTable : List OpcodeEntry :=
  [opRow "0000000101iiiiii1000d000" "add #xx, D" (aluImm · · .addImm),
   opRow "00000001010000001100d000" "add #xxxx, D" (aluLong · · .addLong),
   opRow "0000000101iiiiii1000d110" "and #xx, D" (aluImm · · .andImm),
   opRow "00000001010000001100d110" "and #xxxx, D" (aluLong · · .andLong),
   opRow "00000000iiiiiiii101110EE" "andi #xx, D" fun t opc =>
      .andI (tmplImm t opc) (tmplReg t 'E' opc),
   opRow "0000110000011101SiiiiiiD" "asl #ii, S2, D" fun t opc =>
      .aslImm (tmplImm t opc) (tmplAcc t 'S' opc) (tmplAcc t 'D' opc),
   opRow "0000110000011110010SsssD" "asl S1, S2, D" fun t opc =>
      match sssReg (tmplField t 's' opc) with
      | some src => .aslReg src (tmplAcc t 'S' opc) (tmplAcc t 'D' opc)
      | none => .unknown opc,
   opRow "0000110000011100SiiiiiiD" "asr #ii, S2, D" fun t opc =>
      .asrImm (tmplImm t opc) (tmplAcc t 'S' opc) (tmplAcc t 'D' opc),
   opRow "0000110000011110011SsssD" "asr S1, S2, D" fun t opc =>
      match sssReg (tmplField t 's' opc) with
      | some src => .asrReg src (tmplAcc t 'S' opc) (tmplAcc t 'D' opc)
      | none => .unknown opc,
   opRow "00001101000100000100CCCC" "bcc xxxx" (ccShape · · .bccLong),
   opRow "00000101CCCC01aaaa0aaaaa" "bcc xxx" fun t opc =>
      .bcc (tmplCc t opc) (tmplSext9 t opc),
   opRow "0000110100011RRR0100CCCC" "bcc Rn" (ccRn · · .bccRn),
   opRow "0000101101MMMRRR0S0bbbbb" "bchg #n, [X or Y]:ea" (bitEa · · .bchgEa),
   opRow "0000101100aaaaaa0S0bbbbb" "bchg #n, [X or Y]:aa" (bitAa · · .bchgAa),
   opRow "0000101110pppppp0S0bbbbb" "bchg #n, [X or Y]:pp" (bitPp · · .bchgPp),
   opRow "0000000101qqqqqq0S0bbbbb" "bchg #n, [X or Y]:qq" (bitQq · · .bchgQq),
   opRow "0000101111DDDDDD010bbbbb" "bchg #n, D" (bitReg · · .bchgReg),
   opRow "0000101001MMMRRR0S0bbbbb" "bclr #n, [X or Y]:ea" (bitEa · · .bclrEa),
   opRow "0000101000aaaaaa0S0bbbbb" "bclr #n, [X or Y]:aa" (bitAa · · .bclrAa),
   opRow "0000101010pppppp0S0bbbbb" "bclr #n, [X or Y]:pp" (bitPp · · .bclrPp),
   opRow "0000000100qqqqqq0S0bbbbb" "bclr #n, [X or Y]:qq" (bitQq · · .bclrQq),
   opRow "0000101011DDDDDD010bbbbb" "bclr #n, D" (bitReg · · .bclrReg),
   opRow "000011010001000011000000" "bra xxxx" fun _ _ => .braLong,
   opRow "00000101000011aaaa0aaaaa" "bra xxx" fun t opc =>
      .bra (tmplSext9 t opc),
   opRow "0000110100011RRR11000000" "bra Rn" (rnShape · · .braRn),
   noMode6 (opRow "0000110010MMMRRR0S0bbbbb" "brclr #n, [X or Y]:ea, xxxx" (bitEa · · .brclrEa)),
   opRow "0000110010aaaaaa1S0bbbbb" "brclr #n, [X or Y]:aa, xxxx" (bitAa · · .brclrAa),
   opRow "0000110011pppppp0S0bbbbb" "brclr #n, [X or Y]:pp, xxxx" (bitPp · · .brclrPp),
   opRow "0000010010qqqqqq0S0bbbbb" "brclr #n, [X or Y]:qq, xxxx" (bitQq · · .brclrQq),
   opRow "0000110011DDDDDD100bbbbb" "brclr #n, S, xxxx" (bitReg · · .brclrReg),
   opRow "00000000000000100001CCCC" "brkcc" (ccShape · · .brkcc),
   noMode6 (opRow "0000110010MMMRRR0S1bbbbb" "brset #n, [X or Y]:ea, xxxx" (bitEa · · .brsetEa)),
   opRow "0000110010aaaaaa1S1bbbbb" "brset #n, [X or Y]:aa, xxxx" (bitAa · · .brsetAa),
   opRow "0000110011pppppp0S1bbbbb" "brset #n, [X or Y]:pp, xxxx" (bitPp · · .brsetPp),
   opRow "0000010010qqqqqq0S1bbbbb" "brset #n, [X or Y]:qq, xxxx" (bitQq · · .brsetQq),
   opRow "0000110011DDDDDD101bbbbb" "brset #n, S, xxxx" (bitReg · · .brsetReg),
   opRow "00001101000100000000CCCC" "bscc xxxx" (ccShape · · .bsccLong),
   opRow "00000101CCCC00aaaa0aaaaa" "bscc xxx" fun t opc =>
      .bscc (tmplCc t opc) (tmplSext9 t opc),
   opRow "0000110100011RRR0000CCCC" "bscc Rn" (ccRn · · .bsccRn),
   noMode6 (opRow "0000110110MMMRRR0S0bbbbb" "bsclr #n, [X or Y]:ea, xxxx" (bitEa · · .bsclrEa)),
   opRow "0000110110aaaaaa1S0bbbbb" "bsclr #n, [X or Y]:aa, xxxx" (bitAa · · .bsclrAa),
   opRow "0000010010qqqqqq1S0bbbbb" "bsclr #n, [X or Y]:qq, xxxx" (bitQq · · .bsclrQq),
   opRow "0000110111pppppp0S0bbbbb" "bsclr #n, [X or Y]:pp, xxxx" (bitPp · · .bsclrPp),
   opRow "0000110111DDDDDD100bbbbb" "bsclr #n, S, xxxx" (bitReg · · .bsclrReg),
   opRow "0000101001MMMRRR0S1bbbbb" "bset #n, [X or Y]:ea" (bitEa · · .bsetEa),
   opRow "0000101000aaaaaa0S1bbbbb" "bset #n, [X or Y]:aa" (bitAa · · .bsetAa),
   opRow "0000101010pppppp0S1bbbbb" "bset #n, [X or Y]:pp" (bitPp · · .bsetPp),
   opRow "0000000100qqqqqq0S1bbbbb" "bset #n, [X or Y]:qq" (bitQq · · .bsetQq),
   opRow "0000101011DDDDDD011bbbbb" "bset #n, D" (bitReg · · .bsetReg),
   opRow "000011010001000010000000" "bsr xxxx" fun _ _ => .bsrLong,
   opRow "00000101000010aaaa0aaaaa" "bsr xxx" fun t opc =>
      .bsr (tmplSext9 t opc),
   opRow "0000110100011RRR10000000" "bsr Rn" (rnShape · · .bsrRn),
   noMode6 (opRow "0000110110MMMRRR0S1bbbbb" "bsset #n, [X or Y]:ea, xxxx" (bitEa · · .bssetEa)),
   opRow "0000110110aaaaaa1S1bbbbb" "bsset #n, [X or Y]:aa, xxxx" (bitAa · · .bssetAa),
   opRow "0000110111pppppp0S1bbbbb" "bsset #n, [X or Y]:pp, xxxx" (bitPp · · .bssetPp),
   opRow "0000010010qqqqqq1S1bbbbb" "bsset #n, [X or Y]:qq, xxxx" (bitQq · · .bssetQq),
   opRow "0000110111DDDDDD101bbbbb" "bsset #n, S, xxxx" (bitReg · · .bssetReg),
   opRow "0000101101MMMRRR0S1bbbbb" "btst #n, [X or Y]:ea" (bitEa · · .btstEa),
   opRow "0000101100aaaaaa0S1bbbbb" "btst #n, [X or Y]:aa" (bitAa · · .btstAa),
   opRow "0000101110pppppp0S1bbbbb" "btst #n, [X or Y]:pp" (bitPp · · .btstPp),
   opRow "0000000101qqqqqq0S1bbbbb" "btst #n, [X or Y]:qq" (bitQq · · .btstQq),
   opRow "0000101111DDDDDD011bbbbb" "btst #n, D" (bitReg · · .btstReg),
   opRow "0000110000011110000000SD" "clb S, D" fun t opc =>
      .clb (tmplAcc t 'S' opc) (tmplAcc t 'D' opc),
   opRow "0000000101iiiiii1000d101" "cmp #xx, S2" (aluImm · · .cmpImm),
   opRow "00000001010000001100d101" "cmp #xxxx, S2" (aluLong · · .cmpLong),
   opRow "00001100000111111111gggd" "cmpu S1, S2" fun t opc =>
      let d := tmplAcc t 'd' opc
      match gggReg (tmplField t 'g' opc) d with
      | some src => .cmpU src d
      | none => .unknown opc,
   opRow "000000000000001000000000" "debug" fun _ _ => .debug,
   opRow "00000000000000110000CCCC" "debugcc" (ccShape · · .debugcc),
   opRow "00000000000000000000101d" "dec D" (accShape · · .dec),
   opRow "000000011000000001JJd000" "div S, D" fun t opc =>
      .div (qqReg (tmplField t 'J' opc)) (tmplAcc t 'd' opc),
   opRow "000000010010010s1sdkQQQQ" "dmac(ss,su,uu) S1, S2, D" fun t opc =>
      match qqqqRegs (tmplField t 'Q' opc) with
      | some (s1, s2) =>
        .dmac (tmplReg t 's' opc &&& 3) (tmplFlag t 'k' opc) (tmplAcc t 'd' opc) s1 s2
      | none => .unknown opc,
   noMode6 (opRow "0000011001MMMRRR0S000000" "do [X or Y]:ea, expr" (loopEa · · .doEa)),
   opRow "0000011000aaaaaa0S000000" "do [X or Y]:aa, expr" (loopAa · · .doAa),
   opRow "00000110iiiiiiii1000hhhh" "do #xxx, expr" (loopImm · · .doImm),
   opRow "0000011011DDDDDD00000000" "do S, expr" (loopReg · · .doReg 'D'),
   opRow "000000000000001000000011" "do forever, expr" fun _ _ => .doForever,
   noMode6 (opRow "0000011001MMMRRR0S010000" "dor [X or Y]:ea, label" (loopEa · · .dorEa)),
   opRow "0000011000aaaaaa0S010000" "dor [X or Y]:aa, label" (loopAa · · .dorAa),
   opRow "00000110iiiiiiii1001hhhh" "dor #xxx, label" (loopImm · · .dorImm),
   opRow "0000011011DDDDDD00010000" "dor S, label" (loopReg · · .dorReg 'D'),
   opRow "000000000000001000000010" "dor forever, label" fun _ _ => .dorForever,
   opRow "000000000000000010001100" "enddo" fun _ _ => .endDo,
   opRow "0000000101iiiiii1000d011" "eor #xx, D" (aluImm · · .eorImm),
   opRow "00000001010000001100d011" "eor #xxxx, D" (aluLong · · .eorLong),
   opRow "0000110000011010000sSSSD" "extract S1, S2, D" fun t opc =>
      match sssReg (tmplField t 'S' opc) with
      | some s1 => .extractReg s1 (tmplAcc t 's' opc) (tmplAcc t 'D' opc)
      | none => .unknown opc,
   opRow "0000110000011000000s000D" "extract #CO, S2, D" fun t opc =>
      .extractImm (tmplAcc t 's' opc) (tmplAcc t 'D' opc),
   opRow "0000110000011010100sSSSD" "extractu S1, S2, D" fun t opc =>
      match sssReg (tmplField t 'S' opc) with
      | some s1 => .extractuReg s1 (tmplAcc t 's' opc) (tmplAcc t 'D' opc)
      | none => .unknown opc,
   opRow "0000110000011000100s000D" "extractu #CO, S2, D" fun t opc =>
      .extractuImm (tmplAcc t 's' opc) (tmplAcc t 'D' opc),
   opRow "000000000000000000000101" "illegal" fun _ _ => .illegal,
   opRow "00000000000000000000100d" "inc D" (accShape · · .inc),
   opRow "00001100000110110qqqSSSD" "insert S1, S2, D" fun t opc =>
      match sssReg (tmplField t 'S' opc), qqqReg (tmplField t 'q' opc) with
      | some s1, some s2 => .insertReg s1 s2 (tmplAcc t 'D' opc)
      | _, _ => .unknown opc,
   opRow "00001100000110010qqq000D" "insert #CO, S2, D" fun t opc =>
      match qqqReg (tmplField t 'q' opc) with
      | some s2 => .insertImm s2 (tmplAcc t 'D' opc)
      | none => .unknown opc,
   opRow "00001110CCCCaaaaaaaaaaaa" "jcc xxx" fun t opc =>
      .jcc (tmplCc t opc) (tmplField t 'a' opc),
   opRow "0000101011MMMRRR1010CCCC" "jcc ea" (ccEa · · .jccEa),
   noMode6 (opRow "0000101001MMMRRR1S0bbbbb" "jclr #n, [X or Y]:ea, xxxx" (bitEa · · .jclrEa)),
   opRow "0000101000aaaaaa1S0bbbbb" "jclr #n, [X or Y]:aa, xxxx" (bitAa · · .jclrAa),
   opRow "0000101010pppppp1S0bbbbb" "jclr #n, [X or Y]:pp, xxxx" (bitPp · · .jclrPp),
   opRow "0000000110qqqqqq1S0bbbbb" "jclr #n, [X or Y]:qq, xxxx" (bitQq · · .jclrQq),
   opRow "0000101011DDDDDD000bbbbb" "jclr #n, S, xxxx" (bitReg · · .jclrReg),
   opRow "0000101011MMMRRR10000000" "jmp ea" (eaShape · · .jmpEa),
   opRow "000011000000aaaaaaaaaaaa" "jmp xxx" fun t opc =>
      .jmp (tmplField t 'a' opc),
   opRow "00001111CCCCaaaaaaaaaaaa" "jscc xxx" fun t opc =>
      .jscc (tmplCc t opc) (tmplField t 'a' opc),
   opRow "0000101111MMMRRR1010CCCC" "jscc ea" (ccEa · · .jsccEa),
   noMode6 (opRow "0000101101MMMRRR1S0bbbbb" "jsclr #n, [X or Y]:ea, xxxx" (bitEa · · .jsclrEa)),
   opRow "0000101100aaaaaa1S0bbbbb" "jsclr #n, [X or Y]:aa, xxxx" (bitAa · · .jsclrAa),
   opRow "0000101110pppppp1S0bbbbb" "jsclr #n, [X or Y]:pp, xxxx" (bitPp · · .jsclrPp),
   opRow "0000000111qqqqqq1S0bbbbb" "jsclr #n, [X or Y]:qq, xxxx" (bitQq · · .jsclrQq),
   opRow "0000101111DDDDDD000bbbbb" "jsclr #n, S, xxxx" (bitReg · · .jsclrReg),
   noMode6 (opRow "0000101001MMMRRR1S1bbbbb" "jset #n, [X or Y]:ea, xxxx" (bitEa · · .jsetEa)),
   opRow "0000101000aaaaaa1S1bbbbb" "jset #n, [X or Y]:aa, xxxx" (bitAa · · .jsetAa),
   opRow "0000101010pppppp1S1bbbbb" "jset #n, [X or Y]:pp, xxxx" (bitPp · · .jsetPp),
   opRow "0000000110qqqqqq1S1bbbbb" "jset #n, [X or Y]:qq, xxxx" (bitQq · · .jsetQq),
   opRow "0000101011DDDDDD001bbbbb" "jset #n, S, xxxx" (bitReg · · .jsetReg),
   opRow "0000101111MMMRRR10000000" "jsr ea" (eaShape · · .jsrEa),
   opRow "000011010000aaaaaaaaaaaa" "jsr xxx" fun t opc =>
      .jsr (tmplField t 'a' opc),
   noMode6 (opRow "0000101101MMMRRR1S1bbbbb" "jsset #n, [X or Y]:ea, xxxx" (bitEa · · .jssetEa)),
   opRow "0000101100aaaaaa1S1bbbbb" "jsset #n, [X or Y]:aa, xxxx" (bitAa · · .jssetAa),
   opRow "0000101110pppppp1S1bbbbb" "jsset #n, [X or Y]:pp, xxxx" (bitPp · · .jssetPp),
   opRow "0000000111qqqqqq1S1bbbbb" "jsset #n, [X or Y]:qq, xxxx" (bitQq · · .jssetQq),
   opRow "0000101111DDDDDD001bbbbb" "jsset #n, S, xxxx" (bitReg · · .jssetReg),
   opRow "0000010011000RRR000ddddd" "lra Rn, D" fun t opc =>
      .lraRn (tmplReg t 'R' opc) (tmplReg t 'd' opc),
   opRow "0000010001000000010ddddd" "lra xxxx, D" fun t opc =>
      .lraDisp (tmplReg t 'd' opc),
   opRow "000011000001111010iiiiiD" "lsl #ii, D" (shiftImm · · .lslImm),
   opRow "00001100000111100001sssD" "lsl S, D" (shiftReg · · .lslReg),
   opRow "000011000001111011iiiiiD" "lsr #ii, D" (shiftImm · · .lsrImm),
   opRow "00001100000111100011sssD" "lsr S, D" (shiftReg · · .lsrReg),
   opRow "00000100010MMRRR000ddddd" "lua ea, D" fun t opc =>
      .lua (tmplEa t opc) (tmplReg t 'd' opc),
   opRow "0000010000aaaRRRaaaadddd" "lua (Rn + aa), D" fun t opc =>
      .luaRel (tmplReg t 'a' opc) (tmplReg t 'R' opc) ((opc &&& 0x7).setWidth 8)
        ((opc >>> 3) &&& 1 ≠ 0),
   opRow "00000001000sssss11QQdk10" "mac S, #n, D" (mulshift · · .mac),
   opRow "000000010100000111qqdk10" "maci #xxxx, S, D" fun t opc =>
      .macI (tmplFlag t 'k' opc) (tmplAcc t 'd' opc) (qqReg (tmplField t 'q' opc)),
   opRow "00000001001001101sdkQQQQ" "mac(su,uu) S1, S2, D" fun t opc =>
      match qqqqRegs (tmplField t 'Q' opc) with
      | some (s1, s2) => .macSU (tmplReg t 's' opc) (tmplFlag t 'k' opc) (tmplAcc t 'd' opc) s1 s2
      | none => .unknown opc,
   opRow "00000001000sssss11QQdk11" "macr S, #n, D" (mulshift · · .macr),
   opRow "000000010100000111qqdk11" "macri #xxxx, S, D" fun t opc =>
      .macrI (tmplFlag t 'k' opc) (tmplAcc t 'd' opc) (qqReg (tmplField t 'q' opc)),
   opRow "00001100000110111000sssD" "merge S, D" fun t opc =>
      match sssReg (tmplField t 's' opc) with
      | some src => .merge src (tmplAcc t 'D' opc)
      | none => .unknown opc,
   opRow "0000001aaaaaaRRR1asWDDDD" "move [X or Y]:(Rn + xxx) <-> R" fun t opc =>
      .moveShortDisp (tmplSpace t 's' opc) (tmplReg t 'a' opc) (tmplW t opc) (tmplReg t 'R' opc)
        (tmplReg t 'D' opc),
   opRow "0000101s01110RRR1WDDDDDD" "move [X or Y]:(Rn + xxxx) <-> R" fun t opc =>
      .moveLongDisp (tmplSpace t 's' opc) (tmplW t opc) (tmplReg t 'R' opc) (tmplReg t 'D' opc),
   opRow "00000101W1MMMRRR0s1ddddd" "movec [X or Y]:ea <-> R" fun t opc =>
      .movecEa (tmplEa t opc) ((opc &&& 0x3F).setWidth 8) (tmplW t opc) (tmplSpace t 's' opc),
   opRow "00000101W0aaaaaa0s1ddddd" "movec [X or Y]:aa <-> R" fun t opc =>
      .movecAa (tmplAddr t opc) ((opc &&& 0x3F).setWidth 8) (tmplW t opc) (tmplSpace t 's' opc),
   opRow "00000100W1eeeeee101ddddd" "movec R1, R2" fun t opc =>
      .movecReg (tmplReg t 'e' opc) ((opc &&& 0x3F).setWidth 8) (tmplW t opc),
   opRow "00000101iiiiiiii101ddddd" "movec #xx, D1" fun t opc =>
      .movecImm (tmplImm t opc) ((opc &&& 0x3F).setWidth 8),
   opRow "00000111W1MMMRRR10dddddd" "movem P:ea <-> R" fun t opc =>
      .movemEa (tmplEa t opc) (tmplReg t 'd' opc) (tmplW t opc),
   opRow "00000111W0aaaaaa00dddddd" "movem P:aa <-> R" fun t opc =>
      .movemAa (tmplAddr t opc) (tmplReg t 'd' opc) (tmplW t opc),
   opRow "0000100sW1MMMRRR1Spppppp" "movep [X or Y]:ea <-> [X or Y]:pp" fun t opc =>
      .movep23 (tmplPp t opc) (tmplEa t opc) (tmplW t opc) (tmplSpace t 's' opc)
        (tmplSpace t 'S' opc),
   opRow "00000111W1MMMRRR0Sqqqqqq" "movep [X or Y]:ea <-> X:qq" fun t opc =>
      .movepQq (tmplQq t opc) (tmplEa t opc) (tmplW t opc) .x (tmplSpace t 'S' opc),
   opRow "00000111W0MMMRRR1Sqqqqqq" "movep [X or Y]:ea <-> Y:qq" fun t opc =>
      .movepQq (tmplQq t opc) (tmplEa t opc) (tmplW t opc) .y (tmplSpace t 'S' opc),
   opRow "0000100sW1MMMRRR01pppppp" "movep [X or Y]:pp <-> P:ea" fun t opc =>
      .movep1 (tmplPp t opc) (tmplEa t opc) (tmplW t opc) (tmplSpace t 's' opc),
   opRow "000000001WMMMRRR0sqqqqqq" "movep [X or Y]:qq <-> P:ea" fun t opc =>
      .movepQqPea (tmplQq t opc) (tmplEa t opc) (tmplW t opc) (tmplSpace t 's' opc),
   opRow "0000100sW1dddddd00pppppp" "movep [X or Y]:pp <-> R" fun t opc =>
      .movep0 (tmplPp t opc) (tmplReg t 'd' opc) (tmplW t opc) (tmplSpace t 's' opc),
   opRow "00000100W1dddddd1q0qqqqq" "movep X:qq <-> R" fun t opc =>
      .movepQqR (tmplQq t opc) (tmplReg t 'd' opc) (tmplW t opc) .x,
   opRow "00000100W1dddddd0q1qqqqq" "movep Y:qq <-> R" fun t opc =>
      .movepQqR (tmplQq t opc) (tmplReg t 'd' opc) (tmplW t opc) .y,
   opRow "00000001000sssss11QQdk00" "mpy S, #n, D" (mulshift · · .mpy),
   opRow "00000001001001111sdkQQQQ" "mpy(su,uu) S1, S2, D" fun t opc =>
      match qqqqRegs (tmplField t 'Q' opc) with
      | some (s1, s2) => .mpySU (tmplReg t 's' opc) (tmplFlag t 'k' opc) (tmplAcc t 'd' opc) s1 s2
      | none => .unknown opc,
   opRow "000000010100000111qqdk00" "mpyi #xxxx, S, D" fun t opc =>
      .mpyI (tmplFlag t 'k' opc) (tmplAcc t 'd' opc) (qqReg (tmplField t 'q' opc)),
   opRow "00000001000sssss11QQdk01" "mpyr S, #n, D" (mulshift · · .mpyr),
   opRow "000000010100000111qqdk01" "mpyri #xxxx, S, D" fun t opc =>
      .mpyrI (tmplFlag t 'k' opc) (tmplAcc t 'd' opc) (qqReg (tmplField t 'q' opc)),
   opRow "000000000000000000000000" "nop" fun _ _ => .nop,
   opRow "0000000111011RRR0001d101" "norm Rn, D" fun t opc =>
      .norm (tmplReg t 'R' opc) (tmplAcc t 'd' opc),
   opRow "00001100000111100010sssD" "normf S, D" (shiftReg · · .normf),
   opRow "0000000101iiiiii1000d010" "or #xx, D" (aluImm · · .orImm),
   opRow "00000001010000001100d010" "or #xxxx, D" (aluLong · · .orLong),
   opRow "00000000iiiiiiii111110EE" "ori #xx, D" fun t opc =>
      .orI (tmplImm t opc) (tmplReg t 'E' opc),
   opRow "000000000000000000000011" "pflush" fun _ _ => .pflush,
   opRow "000000000000000000000001" "pflushun" fun _ _ => .pflushun,
   opRow "000000000000000000000010" "pfree" fun _ _ => .pfree,
   opRow "0000101111MMMRRR10000001" "plock ea" (eaShape · · .plockEa),
   opRow "000000000000000000001111" "plockr xxxx" fun _ _ => .plockr,
   opRow "0000101011MMMRRR10000001" "punlock ea" (eaShape · · .punlockEa),
   opRow "000000000000000000001110" "punlockr xxxx" fun _ _ => .punlockr,
   noMode6 (opRow "0000011001MMMRRR0S100000" "rep [X or Y]:ea" (loopEa · · .repEa)),
   opRow "0000011000aaaaaa0S100000" "rep [X or Y]:aa" (loopAa · · .repAa),
   opRow "00000110iiiiiiii1010hhhh" "rep #xxx" (loopImm · · .repImm),
   opRow "0000011011dddddd00100000" "rep S" (loopReg · · .repReg 'd'),
   opRow "000000000000000010000100" "reset" fun _ _ => .reset,
   opRow "000000000000000000000100" "rti" fun _ _ => .rti,
   opRow "000000000000000000001100" "rts" fun _ _ => .rts,
   opRow "000000000000000010000111" "stop" fun _ _ => .stop,
   opRow "0000000101iiiiii1000d100" "sub #xx, D" (aluImm · · .subImm),
   opRow "00000001010000001100d100" "sub #xxxx, D" (aluLong · · .subLong),
   opRow "00000010CCCC00000JJJd000" "tcc S1, D1" fun _ => decTcc,
   opRow "00000011CCCC0ttt0JJJdTTT" "tcc S1,D1 S2,D2" fun _ => decTcc,
   opRow "00000010CCCC1ttt00000TTT" "tcc S2, D2" fun _ => decTcc,
   opRow "000000000000000000000110" "trap" fun _ _ => .trap,
   opRow "00000000000000000001CCCC" "trapcc" (ccShape · · .trapcc),
   opRow "0000101S11MMMRRR110i0000" "vsl" fun t opc =>
      .vsl (tmplAcc t 'S' opc) (tmplEa t opc) (tmplReg t 'i' opc),
   opRow "000000000000000010000110" "wait" fun _ _ => .wait]

/-- Entries whose fixed bits among 19:16 agree with `pfx`, in table order. -/
def prefixBucket (pfx : Word) : List OpcodeEntry :=
  opcodeTable.filter fun e => (pfx &&& ((e.mask >>> 16) &&& 0xF)) = ((e.matchVal >>> 16) &&& 0xF)

/-- The match test of the table walk: the fixed bits agree and, where the entry
has an MMMRRR field, its addressing mode is one the entry owns. -/
def OpcodeEntry.accepts (e : OpcodeEntry) (opcode : Word) : Bool :=
  (opcode &&& e.mask) = e.matchVal &&
    (!e.hasMmmrrr || !((((opcode >>> 11) &&& 0x7) = 0x6 && !e.mode6Ok) || !matchMmmrrr opcode))

/-- The table entry `decode` goes through, below $100000 and outside Pm0. -/
def selectEntry (opcode : Word) : Option OpcodeEntry :=
  (prefixBucket ((opcode >>> 16) &&& 0xF)).find? (·.accepts opcode)

def normLo (ea : Byte) : Byte := if (ea >>> 3) &&& 7 = 6 then ea &&& ~~~0x03 else ea

def normAll (ea : Byte) : Byte := if (ea >>> 3) &&& 7 = 6 then ea &&& ~~~0x07 else ea

/-- Normalize the mode-6 don't-care bits of an instruction's ea field. -/
def normalizeEaMode : Instruction → Instruction
  | .movep1 p ea w s => .movep1 p (normAll ea) w s
  | .movepQqPea q ea w s => .movepQqPea q (normAll ea) w s
  | .plockEa ea => .plockEa (normAll ea)
  | .punlockEa ea => .punlockEa (normAll ea)
  | .vsl s ea i => .vsl s (normAll ea) i
  | .movemEa ea n w => .movemEa (normAll ea) n w
  | .jmpEa ea => .jmpEa (normAll ea)
  | .jsrEa ea => .jsrEa (normAll ea)
  | .jccEa cc ea => .jccEa cc (normAll ea)
  | .jsccEa cc ea => .jsccEa cc (normAll ea)
  | .doEa s ea => .doEa s (normAll ea)
  | .dorEa s ea => .dorEa s (normAll ea)
  | .repEa s ea => .repEa s (normAll ea)
  | .bchgEa s ea b => .bchgEa s (normAll ea) b
  | .bclrEa s ea b => .bclrEa s (normAll ea) b
  | .bsetEa s ea b => .bsetEa s (normAll ea) b
  | .btstEa s ea b => .btstEa s (normAll ea) b
  | .jclrEa s ea b => .jclrEa s (normAll ea) b
  | .jsetEa s ea b => .jsetEa s (normAll ea) b
  | .jsclrEa s ea b => .jsclrEa s (normAll ea) b
  | .jssetEa s ea b => .jssetEa s (normAll ea) b
  | .brclrEa s ea b => .brclrEa s (normAll ea) b
  | .brsetEa s ea b => .brsetEa s (normAll ea) b
  | .bsclrEa s ea b => .bsclrEa s (normAll ea) b
  | .bssetEa s ea b => .bssetEa s (normAll ea) b
  | .movep23 p ea w ps es => .movep23 p (if w then normLo ea else normAll ea) w ps es
  | .movepQq q ea w qs es => .movepQq q (if w then normLo ea else normAll ea) w qs es
  | .movecEa ea n w s => .movecEa (if w then normLo ea else normAll ea) n w s
  | inst => inst

/-- A register code that maps to an empty name. -/
def badReg (r : Byte) : Bool := registerNames[r.toNat]? = some ""

/-- Whether the instruction references a reserved register slot. -/
def hasInvalidRegister : Instruction → Bool
  | .movemAa _ n _ | .movemEa _ n _ => badReg n
  | .movecAa _ n _ _ | .movecEa _ n _ _ => badReg n
  | .movecImm _ dest => badReg dest
  | .movecReg src dst _ => badReg src || badReg dst
  | .moveLongDisp _ _ _ n => badReg n
  | .moveShortDisp _ _ _ _ n => badReg n
  | .jclrReg r _ | .jsetReg r _ | .jsclrReg r _ | .jssetReg r _ => badReg r
  | .brclrReg r _ | .brsetReg r _ | .bsclrReg r _ | .bssetReg r _ => badReg r
  | .doReg r | .dorReg r | .repReg r => badReg r
  | .andI _ dest | .orI _ dest => dest > 3
  | .tcc _ acc _ =>
    match acc with
    | some (s, d) => s = Reg.null || d = Reg.null
    | none => false
  | .lua _ d | .lraRn _ d | .lraDisp d => badReg d
  | .bchgReg r _ | .bclrReg r _ | .bsetReg r _ | .btstReg r _ => badReg r
  | .movep0 _ r _ _ | .movepQqR _ r _ _ => badReg r
  | .dmac ss _ _ _ _ => ss = 1
  | _ => false

/-- Parallel classes whose bits 13:8 are a standard MMMRRR effective address. -/
def hasStandardEa (moveBits opcode : Word) : Bool :=
  moveBits = 1 || (4 ≤ moveBits && moveBits ≤ 7 && opcode &&& (1 <<< 14) ≠ 0)

/-- A Pm2 word that is a register-to-register move. -/
def isRegToReg (opcode : Word) : Bool :=
  let upper := (opcode >>> 8) &&& 0xFFFF
  upper ≠ 0x2000 && upper &&& 0xFFF0 ≠ 0x2020 && upper &&& 0xFFF0 ≠ 0x2030
    && upper &&& 0xFFE0 ≠ 0x2040 && upper &&& 0xFC00 = 0x2000

/-- The parallel-move half of `decode`, opcodes from $100000 on. -/
def decodeParallel (opcode : Word) : Instruction :=
  let moveBits := (opcode >>> 20) &&& 0xF
  let standard := hasStandardEa moveBits opcode
  let opcode := if standard then normalizeMode6Ea opcode else opcode
  let mmm := (opcode >>> 11) &&& 7
  let rrr := (opcode >>> 8) &&& 7
  let value := ((opcode >>> 16) &&& 7) ||| ((opcode >>> 17) &&& (3 <<< 3))
  let mode6Imm := 4 ≤ moveBits && moveBits ≤ 7 && standard && mmm = 6 && rrr = 4
  if mode6Imm && value >>> 2 = 0 then .unknown opcode
  else
    let opcode := if mode6Imm then opcode &&& ~~~(1 <<< 19 : Word) else opcode
    if (moveBits = 2 || moveBits = 3) && isRegToReg opcode
        && (badReg (((opcode >>> 13) &&& 0x1F).setWidth 8)
          || badReg (((opcode >>> 8) &&& 0x1F).setWidth 8)) then .unknown opcode
    else
      .parallel (decodeParallelAlu ((opcode &&& 0xFF).setWidth 8)) (.fromBits moveBits) opcode

/-- The Pm0 half of `decode`: an ea that is always written, so never an immediate. -/
def decodePm0 (opcode : Word) : Instruction :=
  let opcode := normalizeMode6Ea opcode
  let opcode := if (opcode >>> 11) &&& 7 = 6 then opcode &&& ~~~0x0400 else opcode
  .parallel (decodeParallelAlu ((opcode &&& 0xFF).setWidth 8)) .pm0 opcode

/-- What the table walk returns at the entry it stops at. -/
def OpcodeEntry.run (e : OpcodeEntry) (opcode : Word) : Instruction :=
  match e.decode with
  | some f => if hasInvalidRegister (f opcode) then .unknown opcode else normalizeEaMode (f opcode)
  | none => .unimplemented e.name opcode

/-- The words of the Pm0 space: bits 23:17 are 0000100 and bit 14 is clear. -/
def isPm0 (opcode : Word) : Bool := (opcode &&& 0xFE4000) = 0x080000

/-- Decode a 24-bit DSP56300 instruction word. -/
def decode (opcode : Word) : Instruction :=
  if opcode ≥ 0x100000 then decodeParallel opcode
  else if isPm0 opcode then decodePm0 opcode
  else
    match selectEntry opcode with
    | some e => e.run opcode
    | none => .unknown opcode

/-- Number of words the instruction occupies. -/
def instructionLength : Instruction → Nat
  | .addLong _ | .subLong _ | .cmpLong _ | .andLong _ | .orLong _ | .eorLong _ | .bccLong _
  | .braLong | .bsrLong | .moveLongDisp _ _ _ _ | .mpyI _ _ _ | .mpyrI _ _ _ | .macI _ _ _
  | .macrI _ _ _ | .doEa _ _ | .doAa _ _ | .doImm _ | .doReg _ | .doForever | .dorEa _ _
  | .dorAa _ _ | .dorImm _ | .dorReg _ | .dorForever | .jclrEa _ _ _ | .jclrAa _ _ _
  | .jclrPp _ _ _ | .jclrQq _ _ _ | .jclrReg _ _ | .jsetEa _ _ _ | .jsetAa _ _ _ | .jsetPp _ _ _
  | .jsetQq _ _ _ | .jsetReg _ _ | .jsclrEa _ _ _ | .jsclrAa _ _ _ | .jsclrPp _ _ _
  | .jsclrQq _ _ _ | .jsclrReg _ _ | .jssetEa _ _ _ | .jssetAa _ _ _ | .jssetPp _ _ _
  | .jssetQq _ _ _ | .jssetReg _ _ | .brclrEa _ _ _ | .brclrAa _ _ _ | .brclrPp _ _ _
  | .brclrQq _ _ _ | .brclrReg _ _ | .brsetEa _ _ _ | .brsetAa _ _ _ | .brsetPp _ _ _
  | .brsetQq _ _ _ | .brsetReg _ _ | .bsccLong _ | .bsclrEa _ _ _ | .bsclrAa _ _ _
  | .bsclrPp _ _ _ | .bsclrQq _ _ _ | .bsclrReg _ _ | .bssetEa _ _ _ | .bssetAa _ _ _
  | .bssetPp _ _ _ | .bssetQq _ _ _ | .bssetReg _ _ | .lraDisp _ | .extractImm _ _
  | .extractuImm _ _ | .insertImm _ _ | .plockr | .punlockr => 2
  | .movep23 _ ea _ _ _ | .movep1 _ ea _ _ | .movepQq _ ea _ _ _ | .movepQqPea _ ea _ _
  | .movecEa ea _ _ _ | .movemEa ea _ _ | .jmpEa ea | .jsrEa ea | .jccEa _ ea | .jsccEa _ ea
  | .bclrEa _ ea _ | .bsetEa _ ea _ | .btstEa _ ea _ | .bchgEa _ ea _ | .plockEa ea
  | .punlockEa ea | .vsl _ ea _ =>
    if ea >>> 3 = 6 then 2 else 1
  | .parallel _ moveType opcode =>
    let eaMode6 := (opcode >>> 11) &&& 7 = 6
    let pm5Mode6 := (opcode >>> 14) &&& 1 = 1 ∧ eaMode6
    match moveType with
    | .pm0 | .pm1 => if eaMode6 then 2 else 1
    | .pm4 | .pm5 => if pm5Mode6 then 2 else 1
    | _ => 1
  | _ => 1

end Dsp56300
