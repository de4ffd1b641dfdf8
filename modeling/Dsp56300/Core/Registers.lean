import Mathlib.Data.BitVec
import Mathlib.Logic.Function.Basic

namespace Dsp56300

/-- The `u32` of the source: opcodes, register contents and addresses alike. -/
abbrev Word := BitVec 32

def pcMask : Word := 0xFFFFFF

/-- Mask a value to the 24-bit program address space. -/
def maskPc (v : Word) : Word := v &&& pcMask

theorem mask_mask (v m : Word) : v &&& m &&& m = v &&& m := by
  rw [BitVec.and_assoc, BitVec.and_self]

theorem toNat_mask24 (v : Word) : (v &&& 0xFFFFFF).toNat = v.toNat % 2 ^ 24 :=
  Nat.and_two_pow_sub_one_eq_mod v.toNat 24

theorem mask24_lt (v : Word) : (v &&& 0xFFFFFF).toNat < 2 ^ 24 := by
  rw [toNat_mask24]
  exact Nat.mod_lt _ (Nat.two_pow_pos 24)

theorem toNat_maskPc (v : Word) : (maskPc v).toNat = v.toNat % 2 ^ 24 := toNat_mask24 v

theorem maskPc_succ (v : Word) : maskPc (maskPc v + 1) = maskPc (v + 1) := by
  apply BitVec.eq_of_toNat_eq
  rw [toNat_maskPc, toNat_maskPc, BitVec.toNat_add, BitVec.toNat_add, toNat_maskPc]
  have h1 : (1 : Word).toNat = 1 := rfl
  omega

/-- A register file index (the 6-bit DDDDDD code). -/
abbrev RegIdx := Fin 64

instance neZeroRegs : NeZero 64 := ⟨by decide⟩

namespace Reg

abbrev null : RegIdx := 0x00
abbrev x0 : RegIdx := 0x04
abbrev x1 : RegIdx := 0x05
abbrev y0 : RegIdx := 0x06
abbrev y1 : RegIdx := 0x07
abbrev a0 : RegIdx := 0x08
abbrev b0 : RegIdx := 0x09
abbrev a2 : RegIdx := 0x0a
abbrev b2 : RegIdx := 0x0b
abbrev a1 : RegIdx := 0x0c
abbrev b1 : RegIdx := 0x0d
abbrev a : RegIdx := 0x0e
abbrev b : RegIdx := 0x0f
abbrev r0 : RegIdx := 0x10
abbrev n0 : RegIdx := 0x18
abbrev m0 : RegIdx := 0x20
abbrev ep : RegIdx := 0x2a
/-- Internal slot REP saves LC in. -/
abbrev temp : RegIdx := 0x2b
abbrev vba : RegIdx := 0x30
abbrev sc : RegIdx := 0x31
abbrev sz : RegIdx := 0x38
abbrev sr : RegIdx := 0x39
abbrev omr : RegIdx := 0x3a
abbrev sp : RegIdx := 0x3b
abbrev ssh : RegIdx := 0x3c
abbrev ssl : RegIdx := 0x3d
abbrev la : RegIdx := 0x3e
abbrev lc : RegIdx := 0x3f

end Reg

/-! Status register bit positions. -/

namespace Sr

abbrev c : Nat := 0
abbrev v : Nat := 1
abbrev z : Nat := 2
abbrev n : Nat := 3
abbrev u : Nat := 4
abbrev e : Nat := 5
abbrev l : Nat := 6
abbrev s : Nat := 7
abbrev i0 : Nat := 8
abbrev i1 : Nat := 9
abbrev s0 : Nat := 10
abbrev s1 : Nat := 11
abbrev sc : Nat := 13
abbrev dm : Nat := 14
abbrev lf : Nat := 15
abbrev fv : Nat := 16
abbrev sa : Nat := 17
abbrev sm : Nat := 20
abbrev rm : Nat := 21

end Sr

/-- Architectural register masks: the single source of truth for widths. -/
def regMasks (r : RegIdx) : Word :=
  match r.val with
  | 0x00 => 0
  | 0x0a | 0x0b => 0xFF
  | 0x30 => 0xFFFF00
  | 0x31 => 0x1F
  | 0x39 => 0xFBEFFF
  | 0x3a => 0xFFFFDF
  | 0x3b => 0x3F
  | 0x04 | 0x05 | 0x06 | 0x07 | 0x08 | 0x09 | 0x0c | 0x0d | 0x0e | 0x0f => 0xFFFFFF
  | 0x10 | 0x11 | 0x12 | 0x13 | 0x14 | 0x15 | 0x16 | 0x17 => 0xFFFFFF
  | 0x18 | 0x19 | 0x1a | 0x1b | 0x1c | 0x1d | 0x1e | 0x1f => 0xFFFFFF
  | 0x20 | 0x21 | 0x22 | 0x23 | 0x24 | 0x25 | 0x26 | 0x27 => 0xFFFFFF
  | 0x2a | 0x2b | 0x38 | 0x3c | 0x3d | 0x3e | 0x3f => 0xFFFFFF
  | _ => 0xFFFFFFFF

/-- Mask a value to the architectural width of register `r`. -/
def maskReg (r : RegIdx) (v : Word) : Word := v &&& regMasks r

@[simp] theorem regMasks_sp : regMasks Reg.sp = 0x3F := rfl
@[simp] theorem regMasks_sc : regMasks Reg.sc = 0x1F := rfl
@[simp] theorem regMasks_ssh : regMasks Reg.ssh = 0xFFFFFF := rfl
@[simp] theorem regMasks_ssl : regMasks Reg.ssl = 0xFFFFFF := rfl
@[simp] theorem regMasks_lc : regMasks Reg.lc = 0xFFFFFF := rfl
@[simp] theorem regMasks_la : regMasks Reg.la = 0xFFFFFF := rfl

/-- Register names, indexed by register number; reserved codes are empty. -/
def registerNames : List String :=
  ["", "", "", "", "x0", "x1", "y0", "y1", "a0", "b0", "a2", "b2", "a1", "b1", "a", "b",
   "r0", "r1", "r2", "r3", "r4", "r5", "r6", "r7", "n0", "n1", "n2", "n3", "n4", "n5", "n6", "n7",
   "m0", "m1", "m2", "m3", "m4", "m5", "m6", "m7", "", "", "ep", "", "", "", "", "",
   "vba", "sc", "", "", "", "", "", "", "sz", "sr", "omr", "sp", "ssh", "ssl", "la", "lc"]

/-- Memory spaces. -/
inductive MemSpace where
  | x | y | p
  deriving DecidableEq, Repr

/-- Space select from an opcode bit; the source panics on anything but 0 and 1. -/
def MemSpace.xy (bit : Word) : MemSpace := if bit = 0 then .x else .y

/-- Accumulator selector (bit d in many encodings). -/
inductive Accumulator where
  | a | b
  deriving DecidableEq, Repr

/-- The discriminant the source casts to an integer. -/
def Accumulator.bit : Accumulator → Word
  | .a => 0
  | .b => 1

/-- Operation of the MulShift (S,#n,D) instructions. -/
inductive MulShiftOp where
  | mpy | mpyr | mac | macr
  deriving DecidableEq, Repr

/-- Condition code (4-bit CCCC field). -/
inductive CondCode where
  | cc | ge | ne | pl | nn | ec | lc | gt | cs | lt | eq | mi | nr | es | ls | le
  deriving DecidableEq, Repr

def CondCode.all : List CondCode :=
  [.cc, .ge, .ne, .pl, .nn, .ec, .lc, .gt, .cs, .lt, .eq, .mi, .nr, .es, .ls, .le]

/-- Only called on 4-bit fields (the source asserts it). -/
def CondCode.fromBits (bits : Word) : CondCode := (CondCode.all[bits.toNat]?).getD .cc

def CondCode.bits (c : CondCode) : Word := BitVec.ofNat 32 (CondCode.all.idxOf c)

/-- QQ register mapping for mpyi/maci and div. -/
def qqReg (qq : Word) : RegIdx :=
  if qq = 0 then Reg.x0 else if qq = 1 then Reg.y0 else if qq = 2 then Reg.x1 else Reg.y1

/-- QQ register mapping for the MulShift instructions. -/
def qqRegMulshift (qq : Word) : RegIdx :=
  if qq = 0 then Reg.y1 else if qq = 1 then Reg.x0 else if qq = 2 then Reg.y0 else Reg.x1

/-- QQQQ register pairs of dmac, mac(su,uu) and mpy(su,uu). -/
def qqqqRegs (qqqq : Word) : Option (RegIdx × RegIdx) :=
  ([(Reg.x0, Reg.x0), (Reg.y0, Reg.y0), (Reg.x1, Reg.x0), (Reg.y1, Reg.y0),
    (Reg.x0, Reg.y1), (Reg.y0, Reg.x0), (Reg.x1, Reg.y0), (Reg.y1, Reg.x1),
    (Reg.x1, Reg.x1), (Reg.y1, Reg.y1), (Reg.x0, Reg.x1), (Reg.y0, Reg.y1),
    (Reg.y1, Reg.x0), (Reg.x0, Reg.y0), (Reg.y0, Reg.x1), (Reg.x1, Reg.y1)] :
      List (RegIdx × RegIdx))[qqqq.toNat]?

/-- SSS register mapping: values 0 and 1 are reserved. -/
def sssReg (sss : Word) : Option RegIdx :=
  match sss.toNat with
  | 2 => some Reg.a1
  | 3 => some Reg.b1
  | 4 => some Reg.x0
  | 5 => some Reg.y0
  | 6 => some Reg.x1
  | 7 => some Reg.y1
  | _ => none

/-- QQQ register mapping of insert: 2 and 3 name A0 and B0. -/
def qqqReg (qqq : Word) : Option RegIdx :=
  match qqq.toNat with
  | 2 => some Reg.a0
  | 3 => some Reg.b0
  | 4 => some Reg.x0
  | 5 => some Reg.y0
  | 6 => some Reg.x1
  | 7 => some Reg.y1
  | _ => none

/-- GGG register mapping of cmpu: 0 names the other accumulator. -/
def gggReg (ggg : Word) (d : Accumulator) : Option RegIdx :=
  match ggg.toNat with
  | 0 => some (match d with | .a => Reg.b | .b => Reg.a)
  | 4 => some Reg.x0
  | 5 => some Reg.y0
  | 6 => some Reg.x1
  | 7 => some Reg.y1
  | _ => none

/-- Tcc register pairs (source, destination), indexed by opcode bits 6-3. -/
def registersTcc : List (RegIdx × RegIdx) :=
  [(Reg.b, Reg.a), (Reg.a, Reg.b), (Reg.null, Reg.null), (Reg.null, Reg.null),
   (Reg.null, Reg.null), (Reg.null, Reg.null), (Reg.null, Reg.null), (Reg.null, Reg.null),
   (Reg.x0, Reg.a), (Reg.x0, Reg.b), (Reg.y0, Reg.a), (Reg.y0, Reg.b),
   (Reg.x1, Reg.a), (Reg.x1, Reg.b), (Reg.y1, Reg.a), (Reg.y1, Reg.b)]

end Dsp56300
