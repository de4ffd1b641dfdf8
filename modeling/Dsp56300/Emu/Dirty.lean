import Dsp56300.Core.Registers

namespace Dsp56300

/-- Dirty bitmap of PRAM writes that invalidate compiled blocks: one bit a word,
with a wrapping counter bumped whenever a bit is set. -/
structure PramDirtyBitmap where
  pramSize : Nat
  dirty : List (BitVec 64)
  generation : Word

namespace PramDirtyBitmap

def new (pramSize : Nat) : PramDirtyBitmap :=
  ⟨pramSize, List.replicate ((pramSize + 63) / 64) 0, 0⟩

/-- Mark a PRAM address as dirty and bump the generation counter. -/
def markDirty (b : PramDirtyBitmap) (addr : Word) : PramDirtyBitmap :=
  let addr := addr.toNat
  if addr < b.pramSize then
    { b with
      dirty := b.dirty.modify (addr / 64) (· ||| (1#64 <<< (addr % 64)))
      generation := b.generation + 1 }
  else b

/-- Bits [loBit, hiBit) of one 64-bit word. -/
def rangeMask (loBit hiBit : Nat) : BitVec 64 :=
  let top := if hiBit ≥ 64 then BitVec.allOnes 64 else (1#64 <<< hiBit) - 1
  top &&& ~~~((1#64 <<< loBit) - 1)

/-- The mask of the last word of a range that spans several. -/
def lastMask (lastBits : Nat) : BitVec 64 :=
  if lastBits ≥ 64 then BitVec.allOnes 64 else (1#64 <<< lastBits) - 1

/-- Check whether any dirty bit is set in the range [startPc, endPc). -/
def isRangeDirty (b : PramDirtyBitmap) (startPc endPc : Word) : Bool :=
  let lo := startPc.toNat
  let hi := min endPc.toNat b.pramSize
  if lo ≥ hi then false
  else
    let firstWord := lo / 64
    let lastWord := (hi - 1) / 64
    if firstWord = lastWord then
      let mask := rangeMask (lo % 64) (min (hi - firstWord * 64) 64)
      b.dirty.getD firstWord 0 &&& mask ≠ 0
    else if b.dirty.getD firstWord 0 &&& (BitVec.allOnes 64 <<< (lo % 64)) ≠ 0 then true
    else if ((b.dirty.take lastWord).drop (firstWord + 1)).any (· ≠ 0) then true
    else b.dirty.getD lastWord 0 &&& lastMask (hi - lastWord * 64) ≠ 0

/-- Clear the dirty bits of the PRAM range [startPc, endPc). -/
def clearDirtyRange (b : PramDirtyBitmap) (startPc endPc : Word) : PramDirtyBitmap :=
  let lo := startPc.toNat
  let hi := min endPc.toNat b.pramSize
  if lo ≥ hi then b
  else
    let firstWord := lo / 64
    let lastWord := (hi - 1) / 64
    if firstWord = lastWord then
      let mask := rangeMask (lo % 64) (min (hi - firstWord * 64) 64)
      { b with dirty := b.dirty.modify firstWord (· &&& ~~~mask) }
    else
      let d := b.dirty.modify firstWord (· &&& ~~~(BitVec.allOnes 64 <<< (lo % 64)))
      let d := d.mapIdx fun i w => if firstWord < i ∧ i < lastWord then 0 else w
      { b with dirty := d.modify lastWord (· &&& ~~~(lastMask (hi - lastWord * 64))) }

end PramDirtyBitmap

end Dsp56300
