import Dsp56300.Core.Registers

namespace Dsp56300

abbrev Byte := BitVec 8

/-- Decoded parallel ALU operation (bits 7:0 of a parallel instruction). -/
inductive ParallelAlu where
  | move
  -- JJJ=000: accumulator to accumulator
  | tfrAcc (src d : Accumulator)
  | addr (src d : Accumulator)
  | tst (d : Accumulator)
  | cmpAcc (src d : Accumulator)
  | subr (src d : Accumulator)
  | cmpmAcc (src d : Accumulator)
  -- JJJ=001
  | addAcc (src d : Accumulator)
  | rnd (d : Accumulator)
  | addl (src d : Accumulator)
  | clr (d : Accumulator)
  | subAcc (src d : Accumulator)
  | max
  | maxm
  | subl (src d : Accumulator)
  | not (d : Accumulator)
  -- JJJ=01x: X or Y register pair source
  | addXY (hi lo : RegIdx) (d : Accumulator)
  | adc (hi lo : RegIdx) (d : Accumulator)
  | subXY (hi lo : RegIdx) (d : Accumulator)
  | sbc (hi lo : RegIdx) (d : Accumulator)
  | asr (d : Accumulator)
  | lsr (d : Accumulator)
  | abs (d : Accumulator)
  | ror (d : Accumulator)
  | asl (d : Accumulator)
  | lsl (d : Accumulator)
  | neg (d : Accumulator)
  | rol (d : Accumulator)
  -- JJJ=1xx: single register source
  | addReg (src : RegIdx) (d : Accumulator)
  | tfrReg (src : RegIdx) (d : Accumulator)
  | or (src : RegIdx) (d : Accumulator)
  | eor (src : RegIdx) (d : Accumulator)
  | subReg (src : RegIdx) (d : Accumulator)
  | cmpReg (src : RegIdx) (d : Accumulator)
  | and (src : RegIdx) (d : Accumulator)
  | cmpmReg (src : RegIdx) (d : Accumulator)
  -- 1 QQQ d kkk: multiply
  | mpy (negate : Bool) (s1 s2 : RegIdx) (d : Accumulator)
  | mpyr (negate : Bool) (s1 s2 : RegIdx) (d : Accumulator)
  | mac (negate : Bool) (s1 s2 : RegIdx) (d : Accumulator)
  | macr (negate : Bool) (s1 s2 : RegIdx) (d : Accumulator)
  | undefined
  deriving DecidableEq, Repr

/-- QQQ register pairs of the parallel multiplies. -/
def qqqMpyRegs (qqq : Nat) : RegIdx × RegIdx :=
  match qqq with
  | 0 => (Reg.x0, Reg.x0)
  | 1 => (Reg.y0, Reg.y0)
  | 2 => (Reg.x1, Reg.x0)
  | 3 => (Reg.y1, Reg.y0)
  | 4 => (Reg.x0, Reg.y1)
  | 5 => (Reg.y0, Reg.x0)
  | 6 => (Reg.x1, Reg.y0)
  | _ => (Reg.y1, Reg.x1)

/-- JJ register mapping of the single-register operations. -/
def jjRegs (jj : Nat) : RegIdx :=
  match jj with
  | 0 => Reg.x0
  | 1 => Reg.y0
  | 2 => Reg.x1
  | _ => Reg.y1

/-- Decode the parallel ALU byte. -/
def decodeParallelAlu (b : Byte) : ParallelAlu :=
  if b = 0 then .move
  else
    let d := if (b >>> 3) &&& 1 = 0 then Accumulator.a else .b
    if b &&& 0x80 ≠ 0 then
      let negate := (b >>> 2) &&& 1 = 1
      let (s1, s2) := qqqMpyRegs ((b >>> 4) &&& 7).toNat
      match (b &&& 3).toNat with
      | 0 => .mpy negate s1 s2 d
      | 1 => .mpyr negate s1 s2 d
      | 2 => .mac negate s1 s2 d
      | _ => .macr negate s1 s2 d
    else
      let jjj := ((b >>> 4) &&& 7).toNat
      let src := match d with | .a => Accumulator.b | .b => .a
      let kkk := (b &&& 7).toNat
      match jjj with
      | 0 =>
        match kkk with
        | 1 => .tfrAcc src d
        | 2 => .addr src d
        | 3 => .tst d
        | 5 => .cmpAcc src d
        | 6 => .subr src d
        | 7 => .cmpmAcc src d
        | _ => .undefined
      | 1 =>
        match kkk with
        | 0 => .addAcc src d
        | 1 => .rnd d
        | 2 => .addl src d
        | 3 => .clr d
        | 4 => .subAcc src d
        | 5 => if b = 0x1D then .max else if b = 0x15 then .maxm else .undefined
        | 6 => .subl src d
        | _ => .not d
      | 2 =>
        match kkk with
        | 0 => .addXY Reg.x1 Reg.x0 d
        | 1 => .adc Reg.x1 Reg.x0 d
        | 2 => .asr d
        | 3 => .lsr d
        | 4 => .subXY Reg.x1 Reg.x0 d
        | 5 => .sbc Reg.x1 Reg.x0 d
        | 6 => .abs d
        | _ => .ror d
      | 3 =>
        match kkk with
        | 0 => .addXY Reg.y1 Reg.y0 d
        | 1 => .adc Reg.y1 Reg.y0 d
        | 2 => .asl d
        | 3 => .lsl d
        | 4 => .subXY Reg.y1 Reg.y0 d
        | 5 => .sbc Reg.y1 Reg.y0 d
        | 6 => .neg d
        | _ => .rol d
      | _ =>
        let src := jjRegs (jjj % 4)
        match kkk with
        | 0 => .addReg src d
        | 1 => .tfrReg src d
        | 2 => .or src d
        | 3 => .eor src d
        | 4 => .subReg src d
        | 5 => .cmpReg src d
        | 6 => .and src d
        | _ => .cmpmReg src d

/-- Encode a register index to the JJ field. -/
def jjEncode (src : RegIdx) : Option Byte :=
  if src = Reg.x0 then some 0 else if src = Reg.y0 then some 1
  else if src = Reg.x1 then some 2 else if src = Reg.y1 then some 3 else none

/-- Encode a register pair to the QQQ field of the parallel multiplies. -/
def qqqMpyEncode (s1 s2 : RegIdx) : Option Byte :=
  if s1 = Reg.x0 ∧ s2 = Reg.x0 then some 0 else if s1 = Reg.y0 ∧ s2 = Reg.y0 then some 1
  else if s1 = Reg.x1 ∧ s2 = Reg.x0 then some 2 else if s1 = Reg.y1 ∧ s2 = Reg.y0 then some 3
  else if s1 = Reg.x0 ∧ s2 = Reg.y1 then some 4 else if s1 = Reg.y0 ∧ s2 = Reg.x0 then some 5
  else if s1 = Reg.x1 ∧ s2 = Reg.y0 then some 6 else if s1 = Reg.y1 ∧ s2 = Reg.x1 then some 7
  else none

/-- `(d as u8) << 3`. -/
def Accumulator.at3 : Accumulator → Byte
  | .a => 0
  | .b => 8

namespace ParallelAlu

/-- Encode back to the ALU byte; undefined encodings have none. -/
def encode : ParallelAlu → Option Byte
  | .move => some 0x00
  | .tfrAcc _ d => some (0x01 ||| d.at3)
  | .addr _ d => some (0x02 ||| d.at3)
  | .tst d => some (0x03 ||| d.at3)
  | .cmpAcc _ d => some (0x05 ||| d.at3)
  | .subr _ d => some (0x06 ||| d.at3)
  | .cmpmAcc _ d => some (0x07 ||| d.at3)
  | .addAcc _ d => some (0x10 ||| d.at3)
  | .rnd d => some (0x11 ||| d.at3)
  | .addl _ d => some (0x12 ||| d.at3)
  | .clr d => some (0x13 ||| d.at3)
  | .subAcc _ d => some (0x14 ||| d.at3)
  | .max => some 0x1D
  | .maxm => some 0x15
  | .subl _ d => some (0x16 ||| d.at3)
  | .not d => some (0x17 ||| d.at3)
  | .addXY hi _ d => some ((if hi = Reg.x1 then 0x20 else 0x30) ||| d.at3)
  | .adc hi _ d => some ((if hi = Reg.x1 then 0x21 else 0x31) ||| d.at3)
  | .asr d => some (0x22 ||| d.at3)
  | .lsr d => some (0x23 ||| d.at3)
  | .subXY hi _ d => some ((if hi = Reg.x1 then 0x24 else 0x34) ||| d.at3)
  | .sbc hi _ d => some ((if hi = Reg.x1 then 0x25 else 0x35) ||| d.at3)
  | .abs d => some (0x26 ||| d.at3)
  | .ror d => some (0x27 ||| d.at3)
  | .asl d => some (0x32 ||| d.at3)
  | .lsl d => some (0x33 ||| d.at3)
  | .neg d => some (0x36 ||| d.at3)
  | .rol d => some (0x37 ||| d.at3)
  | .addReg src d => do some (0x40 ||| (← jjEncode src) <<< 4 ||| d.at3)
  | .tfrReg src d => do some (0x41 ||| (← jjEncode src) <<< 4 ||| d.at3)
  | .or src d => do some (0x42 ||| (← jjEncode src) <<< 4 ||| d.at3)
  | .eor src d => do some (0x43 ||| (← jjEncode src) <<< 4 ||| d.at3)
  | .subReg src d => do some (0x44 ||| (← jjEncode src) <<< 4 ||| d.at3)
  | .cmpReg src d => do some (0x45 ||| (← jjEncode src) <<< 4 ||| d.at3)
  | .and src d => do some (0x46 ||| (← jjEncode src) <<< 4 ||| d.at3)
  | .cmpmReg src d => do some (0x47 ||| (← jjEncode src) <<< 4 ||| d.at3)
  | .mpy k s1 s2 d => do
    some (0x80 ||| (← qqqMpyEncode s1 s2) <<< 4 ||| d.at3 ||| if k then 4 else 0)
  | .mpyr k s1 s2 d => do
    some (0x81 ||| (← qqqMpyEncode s1 s2) <<< 4 ||| d.at3 ||| if k then 4 else 0)
  | .mac k s1 s2 d => do
    some (0x82 ||| (← qqqMpyEncode s1 s2) <<< 4 ||| d.at3 ||| if k then 4 else 0)
  | .macr k s1 s2 d => do
    some (0x83 ||| (← qqqMpyEncode s1 s2) <<< 4 ||| d.at3 ||| if k then 4 else 0)
  | .undefined => none

end ParallelAlu

/-- Parallel move class (bits 23:20 of a parallel instruction). -/
inductive ParallelMoveType where
  | pm0 | pm1 | pm2 | pm3 | pm4 | pm5 | pm8
  deriving DecidableEq, Repr

def ParallelMoveType.fromBits (bits : Word) : ParallelMoveType :=
  match bits.toNat with
  | 0 => .pm0
  | 1 => .pm1
  | 2 => .pm2
  | 3 => .pm3
  | 4 => .pm4
  | 5 | 6 | 7 => .pm5
  | _ => .pm8

end Dsp56300
