import Dsp56300.Emu.CompiledOps
import Dsp56300.Emu.Saturation

/-! What code sees of E, U, N and Z in SR: a loop may leave the four behind where nothing in its
body does. -/

namespace Dsp56300

open Emitter Lib.Words SrUpdate

variable {σ : Type}

/-! The reads of SR that count. -/

/-- The conditions on C and L alone. -/
def CondCode.transparent : CondCode → Bool
  | .cc | .cs | .lc | .ls => true
  | _ => false

/-- The registers an operation loads as its operands. -/
def ParallelAlu.operands : ParallelAlu → List RegIdx
  | .addXY hi lo _ | .adc hi lo _ | .subXY hi lo _ | .sbc hi lo _ => [hi, lo]
  | .addReg src _ | .tfrReg src _ | .or src _ | .eor src _ | .subReg src _ | .cmpReg src _
  | .and src _ | .cmpmReg src _ => [src]
  | .mpy _ s1 s2 _ | .mpyr _ s1 s2 _ | .mac _ s1 s2 _ | .macr _ s1 s2 _ => [s1, s2]
  | _ => []

namespace Emitter

def DataPath.operands : DataPath → List RegIdx
  | .parallelAlu alu | .ifcc _ alu _ => alu.operands
  | .aslReg src _ _ | .asrReg src _ _ | .lslReg src _ | .lsrReg src _ | .cmpu src _
  | .mulShift _ _ src _ _ | .mpyiFamily _ _ src _ _ _ | .div src _ | .normf src _
  | .merge src _ | .insert _ src _ => [src]
  | .dmac _ _ _ s1 s2 | .macSu _ _ _ s1 s2 | .mpySu _ _ _ s1 s2 => [s1, s2]
  | _ => []

/-- The condition of a conditional operation. -/
def ifccCond (opcode : Word) : CondCode := CondCode.fromBits ((opcode >>> 8) &&& 0xF)

/-- A data path that may look at E, U, N or Z. Carries, the scaling and rounding bits, and what is
only written back to SR, are read transparently. -/
def DataPath.hazard (path : DataPath) : Bool :=
  Reg.sr ∈ path.operands || match path with
    | .ifcc opcode _ _ => !(ifccCond opcode).transparent
    | .norm _ _ => true
    | _ => false

/-- An operation that counts in `defer_hazard_sites`, unless the four are up to date there. -/
def Op.hazard : {γ : Type} → Op γ → Bool
  | _, .loadReg idx | _, .readRegForMove idx => regAt idx = Reg.sr
  | _, .evalCcBool code => !code.transparent
  | _, .data path => path.hazard
  | _, _ => false

end Emitter

/-! Two words of SR with the same bits outside E, U, N and Z. -/

section SameSettled

variable {x y : Word}

theorem SameSettled.symm (h : SameSettled x y) : SameSettled y x := fun k hk => (h k hk).symm

theorem SameSettled.trans {z : Word} (h : SameSettled x y) (h' : SameSettled y z) :
    SameSettled x z := fun k hk => (h' k hk).trans (h k hk)

theorem SameSettled.extractBit (h : SameSettled x y) {k : Nat} (hk : k ∉ lazyFlags) :
    extractBit x k = extractBit y k := by
  rw [extractBit_eq, extractBit_eq, h k hk]

theorem SameSettled.carry (h : SameSettled x y) : x &&& 1 = y &&& 1 := by
  have hc : flag y 0 = flag x 0 := h Sr.c (by decide)
  have hbit : x.getLsbD 0 = y.getLsbD 0 := hc.symm
  exact (and_one x).trans ((congrArg _ hbit).trans (and_one y).symm)

/-- A test of one bit. -/
theorem SameSettled.test (h : SameSettled x y) {k : Nat} (hk : k < 32 ∧ k ∉ lazyFlags) :
    (x &&& (1#32 <<< k) = 0) = (y &&& (1#32 <<< k) = 0) := by
  rw [bit_test_iff x hk.1, bit_test_iff y hk.1, h k hk.2]

theorem SameSettled.eval (h : SameSettled x y) {code : CondCode} (hc : code.transparent = true) :
    code.eval x = code.eval y := by
  have hcarry := h.extractBit (k := Sr.c) (by decide)
  have hlimit := h.extractBit (k := Sr.l) (by decide)
  cases code <;> first
    | exact absurd hc (by decide)
    | simp only [CondCode.eval, hcarry, hlimit]

theorem SameSettled.rndValue (h : SameSettled x y) (acc : BitVec 64) :
    Alu.rndValue x acc = Alu.rndValue y acc := by
  have h0 := h.test (k := Sr.s0) (by decide)
  have h1 := h.test (k := Sr.s1) (by decide)
  have hrm := h.test (k := Sr.rm) (by decide)
  simp only [Alu.rndValue, ne_eq, h0, h1, hrm]

end SameSettled

/-- An update of SR through which E, U, N and Z reach no other bit. -/
def Contained (f : Word → Word) : Prop := ∀ x y, SameSettled x y → SameSettled (f x) (f y)

namespace Contained

variable {f : Word → Word}

theorem unchanged : Contained fun x => x := fun _ _ h => h

theorem comp {g : Word → Word} (hf : Contained f) (hg : Contained g) :
    Contained fun x => f (g x) := fun x y h => hf _ _ (hg x y h)

theorem and (hf : Contained f) (w : Word) : Contained fun x => f x &&& w := by
  intro x y h k hk
  have hbit : (f y).getLsbD k = (f x).getLsbD k := hf x y h k hk
  rw [flag, flag, BitVec.getLsbD_and, BitVec.getLsbD_and, hbit]

theorem or (hf : Contained f) (w : Word) : Contained fun x => f x ||| w := by
  intro x y h k hk
  rw [flag_or, flag_or, hf x y h k hk]

theorem orVl (hf : Contained f) (w : Word) : Contained fun x => orVl (f x) w :=
  (hf.or (shiftToBit w Sr.v)).or (shiftToBit w Sr.l)

/-- L collecting V. -/
theorem orLimit (hf : Contained f) :
    Contained fun x => f x ||| (f x &&& (1#32 <<< Sr.v)) <<< (Sr.l - Sr.v) := by
  intro x y h k hk
  have hv : (f x &&& (1#32 <<< Sr.v)) = (f y &&& (1#32 <<< Sr.v)) := by
    refine BitVec.eq_of_getLsbD_eq fun j _ => ?_
    rw [BitVec.getLsbD_and, BitVec.getLsbD_and]
    by_cases hj : j = Sr.v
    · have hbit : (f y).getLsbD Sr.v = (f x).getLsbD Sr.v := hf x y h Sr.v (by decide)
      rw [hj, hbit]
    · have hoff : (1#32 <<< Sr.v).getLsbD j = false := by
        rw [Lib.Bits.getLsbD_bit]
        simp [Ne.symm hj]
      rw [hoff, Bool.and_false, Bool.and_false]
  rw [flag_or, flag_or, hf x y h k hk, hv]

end Contained

/-- SR at two points of compiled code: the same, or, where E, U, N and Z are not up to date, the
same but for them. -/
structure SameSr (now : Bool) (x y : Word) : Prop where
  settled : SameSettled x y
  same : now = true → x = y

namespace SameSr

variable {now : Bool} {x y : Word}

theorem refl (x : Word) : SameSr now x x := ⟨fun _ _ => rfl, fun _ => rfl⟩

theorem eq (h : SameSr true x y) : x = y := h.same rfl

theorem weaken {b : Bool} (h : SameSr b x y) (hb : now = true → b = true) : SameSr now x y :=
  ⟨h.settled, fun hn => h.same (hb hn)⟩

theorem map {f : Word → Word} (hf : Contained f) (h : SameSr now x y) : SameSr now (f x) (f y) :=
  ⟨hf x y h.settled, fun hn => congrArg f (h.same hn)⟩

theorem ite {c : Prop} [Decidable c] {x' y' : Word} (h : SameSr now x y)
    (h' : SameSr now x' y') : SameSr now (if c then x else x') (if c then y else y') := by
  split
  · exact h
  · exact h'

end SameSr

end Dsp56300
