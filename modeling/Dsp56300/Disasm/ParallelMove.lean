import Dsp56300.Disasm.Format

namespace Dsp56300

/-- The text of a parallel move, and whether it takes the extension word. -/
structure ParallelMoveResult where
  text : String
  extraWord : Bool

/-- Bits `i` and up of `op`, under `mask`, as a register offset. -/
private def field (op : Word) (i : Nat) (mask : Word) : Nat := ((op >>> i) &&& mask).toNat

private def pick (x0 x1 : RegIdx) (n : Nat) : Nat :=
  match n with
  | 0 => x0.val
  | 1 => x1.val
  | 2 => Reg.a.val
  | _ => Reg.b.val

/-- The operand of a move from memory or from the extension word. -/
def readOperand (space addr : String) (isImm : Bool) (nextWord : Word) : String :=
  if isImm then immPrefix nextWord 0xFF ++ addr else s!"{space}:{addr}"

def disasmPm0 (op nextWord : Word) : ParallelMoveResult :=
  let numreg1 := Reg.a.val + field op 16 1
  let (addr, _, extra) := calcEa ((op >>> 8) &&& 0x3F) nextWord
  let (space, numreg2) :=
    if (op >>> 15) &&& 1 ≠ 0 then ("y", Reg.y0.val) else ("x", Reg.x0.val)
  ⟨s!"{regName numreg1},{space}:{addr} {regName numreg2},{regName numreg1}", extra⟩

def disasmPm1 (op nextWord : Word) : ParallelMoveResult :=
  let (addr, isImm, extra) := calcEa ((op >>> 8) &&& 0x3F) nextWord
  let write := (op >>> 15) &&& 1 ≠ 0
  let text :=
    if (op >>> 14) &&& 1 = 1 then
      let d2 := regName (pick Reg.y0 Reg.y1 (field op 16 3))
      let s1 := regName (Reg.a.val + field op 19 1)
      let d1 := regName (Reg.x0.val + field op 18 1)
      let src := readOperand "y" addr isImm nextWord
      if write then s!"{s1},{d1} {src},{d2}"
      else s!"{s1},{d1} {d2},y:{addr}"
    else
      let d1 := regName (pick Reg.x0 Reg.x1 (field op 18 3))
      let s2 := regName (Reg.a.val + field op 17 1)
      let d2 := regName (Reg.y0.val + field op 16 1)
      let src := readOperand "x" addr isImm nextWord
      if write then s!"{src},{d1} {s2},{d2}"
      else s!"{d1},x:{addr} {s2},{d2}"
  ⟨text, extra⟩

def disasmPm2 (op : Word) : ParallelMoveResult :=
  let upper := (op >>> 8) &&& 0xFFFF
  let cc := ccNames.getD (field op 8 0xF) ""
  let text :=
    if upper = 0x2000 then ""
    else if upper &&& 0xFFF0 = 0x2020 then s!"if{cc}"
    else if upper &&& 0xFFF0 = 0x2030 then s!"if{cc}.u"
    else if upper &&& 0xFFE0 = 0x2040 then
      let addr := (calcEa ((op >>> 8) &&& 0x1F) 0).1
      s!"{addr},r{field op 8 7}"
    else if upper &&& 0xFC00 = 0x2000 then
      s!"{regName (field op 13 0x1F)},{regName (field op 8 0x1F)}"
    else
      let imm := (op >>> 8) &&& 0xFF
      s!"#${hex 2 imm},{regName (field op 16 0x1F)}"
  ⟨text, false⟩

def disasmPm4 (op nextWord : Word) : ParallelMoveResult :=
  let value := ((op >>> 16) &&& 7#32) ||| ((op >>> 17) &&& (3#32 <<< 3))
  let eaMode := (op >>> 8) &&& 0x3F
  let (addr, isImm, extra) :=
    if op &&& (1#32 <<< 14) ≠ 0 then calcEa eaMode nextWord else (s!"${hex 4 eaMode}", false, false)
  let (reg, space) :=
    if value >>> 2 = 0 then
      (registersLmove.getD (((op >>> 16) &&& 3#32) ||| ((op >>> 17) &&& (1#32 <<< 2))).toNat "", "l")
    else (regName value.toNat, spaceName ((op >>> 19) &&& 1))
  let text :=
    if op &&& (1#32 <<< 15) ≠ 0 then s!"{readOperand space addr isImm nextWord},{reg}"
    else s!"{reg},{space}:{addr}"
  ⟨text, extra⟩

def disasmPm8 (op nextWord : Word) : ParallelMoveResult :=
  let r1 := regName (pick Reg.x0 Reg.x1 (field op 18 3))
  let r2 := regName (pick Reg.y0 Reg.y1 (field op 16 3))
  let eaMode1 := (op >>> 8) &&& 0x1F
  let eaMode1 := if eaMode1 >>> 3 = 0 then eaMode1 ||| (1#32 <<< 5) else eaMode1
  let eaMode2 := ((op >>> 13) &&& 3#32) ||| (((op >>> 20) &&& 3#32) <<< 3)
  let eaMode2 := if eaMode1 &&& (1#32 <<< 2) = 0 then eaMode2 ||| (1#32 <<< 2) else eaMode2
  let eaMode2 := if eaMode2 >>> 3 = 0 then eaMode2 ||| (1#32 <<< 5) else eaMode2
  let (addr1, _, extra1) := calcEa eaMode1 nextWord
  let (addr2, _, extra2) := calcEa eaMode2 nextWord
  let x := if op &&& (1#32 <<< 15) ≠ 0 then s!"x:{addr1},{r1}" else s!"{r1},x:{addr1}"
  let y := if op &&& (1#32 <<< 22) ≠ 0 then s!"y:{addr2},{r2}" else s!"{r2},y:{addr2}"
  ⟨s!"{x} {y}", extra1 || extra2⟩

/-- The parallel move portion of a parallel instruction. -/
def disasmParallelMove (moveType : ParallelMoveType) (op nextWord : Word) : ParallelMoveResult :=
  match moveType with
  | .pm0 => disasmPm0 op nextWord
  | .pm1 => disasmPm1 op nextWord
  | .pm2 | .pm3 => disasmPm2 op
  | .pm4 | .pm5 => disasmPm4 op nextWord
  | .pm8 => disasmPm8 op nextWord

end Dsp56300
