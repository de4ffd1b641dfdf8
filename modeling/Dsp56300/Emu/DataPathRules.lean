import Dsp56300.Emu.Hazards
import Dsp56300.Emu.Widths
import Dsp56300.Lib.Coupling

/-! The data paths as programs over their operations: whatever those operations keep between two
points of compiled code, every data path keeps. -/

namespace Dsp56300

open Emitter Lib.Coupling Lib.Words

variable {σ α : Type}

/-- A carry or an overflow: 0 or 1. -/
def IsBit (w : Word) : Prop := ∃ b, w = bit 32 b

section Bits

variable {v w : Word}

theorem isBit_zero : IsBit 0 := ⟨false, (bit_false ..).symm⟩

theorem isBit_and_one (w : Word) : IsBit (w &&& 1) := ⟨_, and_one w⟩

theorem isBit_some (w : Word) : ∀ n ∈ some (w &&& 1), IsBit n := by
  rintro n hn
  exact Option.some.inj hn ▸ isBit_and_one w

theorem isBit_extract (x : BitVec 64) (n : Word) : IsBit (extractBitI64 x n) := isBit_and_one _

theorem isBit_ofBool (b : Bool) : IsBit (Emitter.ofBool b) := ⟨b, Emitter.ofBool_eq b⟩

theorem isBit_not_ofBool (b : Bool) : IsBit (1 - Emitter.ofBool b) := ⟨!b, one_sub_ofBool b⟩

theorem IsBit.and (hv : IsBit v) (hw : IsBit w) : IsBit (v &&& w) := by
  obtain ⟨a, rfl⟩ := hv
  obtain ⟨b, rfl⟩ := hw
  exact ⟨a && b, bit_and a b⟩

theorem IsBit.xor (hv : IsBit v) (hw : IsBit w) : IsBit (v ^^^ w) := by
  obtain ⟨a, rfl⟩ := hv
  obtain ⟨b, rfl⟩ := hw
  exact ⟨a ^^ b, bit_xor a b⟩

theorem IsBit.ite {c : Prop} [Decidable c] (hv : IsBit v) (hw : IsBit w) :
    IsBit (if c then v else w) := by
  split
  · exact hv
  · exact hw

end Bits

/-- The words a computation is deferred with are bits. -/
def Emitter.PendingFlags.Proper : PendingFlags → Prop
  | .nzVlSm _ overflow => IsBit overflow
  | .addlSubl _ _ _ _ _ aslV => IsBit aslV
  | .shift24 carry nVal _ => IsBit carry ∧ ∀ n ∈ nVal, IsBit n
  | _ => True

/-- What has nothing to do with SR and the accumulators: it commutes with writes of them. It keeps
everything within its width. -/
structure Aside (f : DspState σ → α × DspState σ) : Prop where
  commutes : ∀ r : RegIdx, r = Reg.sr ∨ ¬ DspState.Outside r → ∀ s v,
    f (s.setReg r v) = ((f s).1, (f s).2.setReg r v)
  within : ∀ s, s.Within → (f s).2.Within

namespace Alu

/-- SR written back, with what is pending dropped. -/
def restoreSr (v : Word) : Alu σ Unit := do
  modify fun s => { s with pendingFlags := none, pendingSmMarker := none, smNeedsSat := 0 }
  storeReg Reg.sr v

/-- What the operations of code ask of a relation between two points of it. The first index tells
whether the deferred condition codes are the same at both, the second whether the marker of a
saturation may be under way; `now`, whether E, U, N and Z in SR are the same. -/
structure Rules (now : Bool) (R : Bool → Bool → AluState σ → AluState σ → Prop) : Prop where
  settled : ∀ {b m t u}, R true m t u → R b m t u
  loadAcc : ∀ {b m} d, Couples (R b m) (loadAcc d) Packs (R b m)
  storeAcc : ∀ {b m} d {v}, Packs v → Couples (R b m) (storeAcc d v) anything (R b m)
  loadOther : ∀ {b m} {r}, r ≠ Reg.sr → Couples (R b m) (loadReg r) anything (R b m)
  storeOther : ∀ {b m} {r} v, r ≠ Reg.sr → Couples (R b m) (storeReg r v) anything (R b m)
  loadSr : ∀ {b m}, Relates (R b m) loadSr loadSr (SameSr now) (R true m)
  storeSr : ∀ {m v w}, SameSr now v w →
    Relates (R true m) (storeReg Reg.sr v) (storeReg Reg.sr w) Eq (R true m)
  overwriteSr : ∀ {b} v, Couples (R b false) (storeReg Reg.sr v) anything (R true false)
  saturate : ∀ {b m} v, Couples (R b m) (emitSaturateSm v) Packs (R b true)
  saturateRnd : ∀ {b m} v, Couples (R b m) (emitSaturateSmRnd v) Packs (R b true)
  round : ∀ {b m} v, Couples (R b m) (emitRnd56 v) anything (R b m)
  setPending : ∀ {b m} {flags : PendingFlags}, flags.Proper →
    Couples (R b m) (setPending flags) anything (R b (!flags.consumesSmMarker && m))
  discard : ∀ {b m v w}, SameSr now v w → Relates (R b m) (restoreSr v) (restoreSr w) Eq (R true false)
  limit : ∀ {b m} d, Couples (R b m) (readAccu24Inner d) (fun p => Is24 p.1) (R b m)
  outer : ∀ {α : Type} {b m} {f : DspState σ → α × DspState σ}, Aside f →
    Couples (R b m) (outer f) anything (R b m)
  helper : ∀ {α : Type} {b m} {f : DspState σ → α × DspState σ}, Aside f →
    Couples (R b m) (helper f) anything (R b m)

variable {R : Bool → Bool → AluState σ → AluState σ → Prop}

/-- Code that keeps the relation from one instruction to the next, whether or not anything
different is deferred. -/
def Keeps (R : Bool → Bool → AluState σ → AluState σ → Prop) (x : Alu σ Unit) : Prop :=
  ∀ b, Couples (R b false) x anything (R b false)

/-- A register whose value is the same at both points. -/
def Readable (now : Bool) (r : RegIdx) : Prop := now = true ∨ r ≠ Reg.sr

namespace Rules

variable {now : Bool} (h : Rules now R) {b m : Bool}

include h

theorem resettle {x : Alu σ α} {P : AluState σ → AluState σ → Prop} {A : α → Prop}
    (hx : Couples P x A (R true m)) : Couples P x A (R b m) := hx.to fun _ _ => h.settled

/-! SR. Code that reads it goes on from what the two words have in common. -/

theorem readSr {k : Word → Alu σ α} {A : α → Prop} {Q : AluState σ → AluState σ → Prop}
    (hk : ∀ x y, SameSr now x y → k x = k y) (hx : ∀ x, Couples (R true m) (k x) A Q) :
    Couples (R b m) (Alu.loadSr >>= k) A Q := by
  refine Relates.couples (h.loadSr.bind fun x y hxy => ?_)
  rw [hk x y hxy]
  exact (hx y).relates

theorem observeSr (hn : now = true) : Couples (R b m) Alu.loadSr anything (R true m) := by
  intro t u htu
  obtain ⟨hsr, hq⟩ := h.loadSr t u htu
  exact ⟨hsr.same hn, trivial, hq⟩

theorem updateSr {f : Word → Word} (hf : Contained f) :
    Couples (R b m) (do Alu.storeReg Reg.sr (f (← Alu.loadSr))) anything (R true m) := by
  intro t u htu
  obtain ⟨hsr, hq⟩ := h.loadSr t u htu
  exact ⟨rfl, trivial, (h.storeSr (hsr.map hf) _ _ hq).2⟩

/-- Flags cleared, and set anew. -/
theorem rewriteSr (flags : Word) {f : Word → Word} (hf : Contained f) :
    Couples (R b m) (do Alu.storeReg Reg.sr (f (← Alu.clearSrFlags flags))) anything
      (R true m) := h.updateSr (hf.comp (Contained.unchanged.and (~~~flags)))

theorem loadReg {r : RegIdx} (hr : Readable now r) :
    Couples (R b m) (Alu.loadReg r) anything (R b m) := by
  by_cases hsr : r = Reg.sr
  · subst hsr
    exact h.resettle (h.observeSr (hr.resolve_right fun hne => hne rfl))
  · exact h.loadOther hsr

theorem storeReg (r : RegIdx) (v : Word) :
    Couples (R true m) (Alu.storeReg r v) anything (R true m) := by
  by_cases hr : r = Reg.sr
  · subst hr
    exact fun t u htu => ⟨rfl, trivial, (h.storeSr (.refl v) t u htu).2⟩
  · exact h.storeOther v hr

/-- Where nothing deferred differs, the marker of a saturation may be under way throughout. -/
theorem marked (hm : ∀ {m t u}, R true m t u → R true true t u) :
    Rules now fun _ _ => R true true where
  settled htu := htu
  loadAcc d := h.loadAcc d
  storeAcc d _ hv := h.storeAcc d hv
  loadOther hr := h.loadOther hr
  storeOther v hr := h.storeOther v hr
  loadSr := h.loadSr
  storeSr hv := h.storeSr hv
  overwriteSr v := h.storeReg Reg.sr v
  saturate v := h.saturate v
  saturateRnd v := h.saturateRnd v
  round v := h.round v
  setPending hp := (h.setPending hp).to fun _ _ => hm
  discard hv t u htu := by
    obtain ⟨heq, hq⟩ := h.discard hv t u htu
    exact ⟨heq, hm hq⟩
  limit d := h.limit d
  outer hf := h.outer hf
  helper hf := h.helper hf

theorem setCarry (v : Word) : Couples (R b m) (Alu.setCarry v) anything (R true m) :=
  h.rewriteSr _ (Contained.unchanged.or _)

theorem clearVFlag : Couples (R b m) Alu.clearVFlag anything (R true m) :=
  h.rewriteSr _ .unchanged

theorem updateCarryFromBit (v n : Word) :
    Couples (R b m) (Alu.updateCarryFromBit v n) anything (R true m) :=
  h.rewriteSr _ (Contained.unchanged.or _)

theorem loadXyAsAcc56 {hi lo : RegIdx} (hhi : Readable now hi) (hlo : Readable now lo) :
    Couples (R b m) (Alu.loadXyAsAcc56 hi lo) anything (R b m) :=
  (h.loadReg hhi).bind fun _ _ => (h.loadReg hlo).bind fun _ _ => couples_skip

theorem loadReg24AsAcc56 {r : RegIdx} (hr : Readable now r) :
    Couples (R b m) (Alu.loadReg24AsAcc56 r) anything (R b m) :=
  (h.loadReg hr).bind fun _ _ => couples_skip

/-- A result, its flags deferred: the end of most data paths. -/
theorem finish {d : Accumulator} {v : BitVec 64} {flags : PendingFlags} (hv : Packs v)
    (hc : flags.consumesSmMarker = true) (hp : flags.Proper) :
    Couples (R b m) (do Alu.storeAcc d v; Alu.setPending flags) anything (R b false) := by
  refine (h.storeAcc d hv).bind fun _ _ => ?_
  have hset : Couples (R b m) (Alu.setPending flags) anything
      (R b (!flags.consumesSmMarker && m)) := h.setPending hp
  rw [hc] at hset
  exact hset

theorem emitAccAddsub (src : BitVec 64) (d : Accumulator) (isSub store : Bool) :
    Keeps R (Alu.emitAccAddsub src d isSub store) := by
  intro b
  refine (h.loadAcc d).bind fun dst _ => ?_
  cases store with
  | true => exact (h.saturate _).bind fun sat hsat => h.finish hsat rfl trivial
  | false => exact h.setPending trivial

theorem emitAluClr (d : Accumulator) : Keeps R (Alu.emitAluClr d) := fun _ =>
  (h.storeAcc d packs_zero).bind fun _ _ =>
    h.resettle (h.rewriteSr _ (Contained.unchanged.or _))

theorem emitAluTst (d : Accumulator) : Keeps R (Alu.emitAluTst d) := fun _ =>
  (h.loadAcc d).bind fun _ _ => h.setPending trivial

theorem emitAluTfrAcc (src d : Accumulator) : Keeps R (Alu.emitAluTfrAcc src d) := fun _ =>
  (h.loadAcc src).bind fun _ hv => h.storeAcc d hv

theorem emitAluTfrReg24 {src : RegIdx} (hs : Readable now src) (d : Accumulator) :
    Keeps R (Alu.emitAluTfrReg24 src d) := fun _ =>
  (h.loadReg hs).bind fun v _ => h.storeAcc d (packs_val24ToAcc56 v)

theorem emitAluAddAcc (src d : Accumulator) : Keeps R (Alu.emitAluAddAcc src d) := fun b =>
  (h.loadAcc src).bind fun v _ => h.emitAccAddsub v d false true b

theorem emitAluSubAcc (src d : Accumulator) : Keeps R (Alu.emitAluSubAcc src d) := fun b =>
  (h.loadAcc src).bind fun v _ => h.emitAccAddsub v d true true b

theorem emitAluCmpAcc (src d : Accumulator) : Keeps R (Alu.emitAluCmpAcc src d) := fun b =>
  (h.loadAcc src).bind fun v _ => h.emitAccAddsub v d true false b

theorem emitAluAddReg24 {src : RegIdx} (hs : Readable now src) (d : Accumulator) :
    Keeps R (Alu.emitAluAddReg24 src d) := fun b =>
  (h.loadReg24AsAcc56 hs).bind fun v _ => h.emitAccAddsub v d false true b

theorem emitAluSubReg24 {src : RegIdx} (hs : Readable now src) (d : Accumulator) :
    Keeps R (Alu.emitAluSubReg24 src d) := fun b =>
  (h.loadReg24AsAcc56 hs).bind fun v _ => h.emitAccAddsub v d true true b

theorem emitAluCmpReg24 {src : RegIdx} (hs : Readable now src) (d : Accumulator) :
    Keeps R (Alu.emitAluCmpReg24 src d) := fun b =>
  (h.loadReg24AsAcc56 hs).bind fun v _ => h.emitAccAddsub v d true false b

theorem emitAluAddXy {hi lo : RegIdx} (hhi : Readable now hi) (hlo : Readable now lo)
    (d : Accumulator) : Keeps R (Alu.emitAluAddXy hi lo d) := fun b =>
  (h.loadXyAsAcc56 hhi hlo).bind fun v _ => h.emitAccAddsub v d false true b

theorem emitAluSubXy {hi lo : RegIdx} (hhi : Readable now hi) (hlo : Readable now lo)
    (d : Accumulator) : Keeps R (Alu.emitAluSubXy hi lo d) := fun b =>
  (h.loadXyAsAcc56 hhi hlo).bind fun v _ => h.emitAccAddsub v d true true b

theorem emitAluNeg (d : Accumulator) : Keeps R (Alu.emitAluNeg d) := fun _ =>
  (h.loadAcc d).bind fun _ _ => (h.saturate _).bind fun _ hsat =>
    h.finish hsat rfl (isBit_ofBool _)

theorem emitAluAbs (d : Accumulator) : Keeps R (Alu.emitAluAbs d) := fun _ =>
  (h.loadAcc d).bind fun _ _ => (h.saturate _).bind fun _ hsat =>
    h.finish hsat rfl (.ite ((isBit_and_one _).and (isBit_extract _ _)) isBit_zero)

theorem emitAluAsr (d : Accumulator) : Keeps R (Alu.emitAluAsr d) := fun _ =>
  (h.loadAcc d).bind fun _ _ => (h.setCarry _).bind fun _ _ => h.clearVFlag.bind fun _ _ =>
    (h.saturate _).bind fun _ hsat => h.resettle (h.finish hsat rfl trivial)

theorem emitAluAsl (d : Accumulator) : Keeps R (Alu.emitAluAsl d) := fun _ =>
  (h.loadAcc d).bind fun _ _ => Couples.assoc <|
    (h.rewriteSr _ ((Contained.unchanged.or _).orVl _)).bind fun _ _ =>
      (h.saturate _).bind fun _ hsat => h.resettle (h.finish hsat rfl trivial)

theorem emitAluAddrSubr (src d : Accumulator) (isSub : Bool) :
    Keeps R (Alu.emitAluAddrSubr src d isSub) := fun _ =>
  (h.loadAcc src).bind fun _ _ => (h.loadAcc d).bind fun _ _ =>
    (h.saturate _).bind fun _ hsat => h.finish hsat rfl trivial

theorem emitAluAddlSubl (src d : Accumulator) (isSub : Bool) :
    Keeps R (Alu.emitAluAddlSubl src d isSub) := fun _ =>
  (h.loadAcc src).bind fun _ _ => (h.loadAcc d).bind fun _ _ =>
    (h.saturate _).bind fun _ hsat =>
      h.finish hsat rfl ((isBit_extract _ _).xor (isBit_extract _ _))

theorem emitAluAdcSbc {hi lo : RegIdx} (hhi : Readable now hi) (hlo : Readable now lo)
    (d : Accumulator) (isSub : Bool) : Keeps R (Alu.emitAluAdcSbc hi lo d isSub) := fun _ =>
  (h.loadXyAsAcc56 hhi hlo).bind fun _ _ => (h.loadAcc d).bind fun _ _ =>
    h.readSr (fun x y hxy => by simp only [hxy.settled.carry]) fun _ =>
      (h.saturate _).bind fun _ hsat => h.resettle (h.finish hsat rfl trivial)

theorem emitAluCmpmAcc (src d : Accumulator) : Keeps R (Alu.emitAluCmpmAcc src d) := fun _ =>
  (h.loadAcc src).bind fun _ _ => (h.loadAcc d).bind fun _ _ => h.setPending trivial

theorem emitAluCmpmReg24 {src : RegIdx} (hs : Readable now src) (d : Accumulator) :
    Keeps R (Alu.emitAluCmpmReg24 src d) := fun _ =>
  (h.loadReg24AsAcc56 hs).bind fun _ _ => (h.loadAcc d).bind fun _ _ => h.setPending trivial

theorem emitAluRnd (d : Accumulator) : Keeps R (Alu.emitAluRnd d) := fun _ =>
  (h.loadAcc d).bind fun acc _ =>
    h.readSr (fun x y hxy => by simp only [hxy.settled.rndValue acc]) fun _ =>
      (h.saturateRnd _).bind fun _ hsat => h.resettle (h.finish hsat rfl
        (((isBit_extract _ _).xor (isBit_extract _ _)).and (isBit_extract _ _)))

/-- The result of MAX and MAXM is B, or A packed again. -/
theorem emitMaxTail {x y : BitVec 64} (hy : Packs y) (diff56 : BitVec 64) :
    Keeps R (Alu.emitMaxTail x y diff56) := fun _ =>
  (h.storeAcc .b (.ite (packs_extracted x) hy)).bind fun _ _ =>
    h.resettle (h.rewriteSr _ (Contained.unchanged.or _).orLimit)

theorem emitAluMax : Keeps R (Alu.emitAluMax (σ := σ)) := fun b =>
  (h.loadAcc .a).bind fun _ _ => (h.loadAcc .b).bind fun _ hy => h.emitMaxTail hy _ b

theorem emitAluMaxm : Keeps R (Alu.emitAluMaxm (σ := σ)) := fun b =>
  (h.loadAcc .a).bind fun _ _ => (h.loadAcc .b).bind fun _ hy => h.emitMaxTail hy _ b

theorem emitAluMpyCore {s1 s2 : RegIdx} (h1 : Readable now s1) (h2 : Readable now s2)
    (negate : Bool) : Couples (R b m) (Alu.emitAluMpyCore s1 s2 negate) anything (R b m) :=
  (h.loadReg h1).bind fun _ _ => (h.loadReg h2).bind fun _ _ => couples_skip

theorem emitAluMpy {s1 s2 : RegIdx} (h1 : Readable now s1) (h2 : Readable now s2)
    (d : Accumulator) (negate : Bool) : Keeps R (Alu.emitAluMpy s1 s2 d negate) := fun _ =>
  (h.emitAluMpyCore h1 h2 negate).bind fun _ _ =>
    (h.saturate _).bind fun _ hsat => h.finish hsat rfl trivial

theorem emitAluMpyr {s1 s2 : RegIdx} (h1 : Readable now s1) (h2 : Readable now s2)
    (d : Accumulator) (negate : Bool) : Keeps R (Alu.emitAluMpyr s1 s2 d negate) := fun _ =>
  (h.emitAluMpyCore h1 h2 negate).bind fun _ _ => (h.round _).bind fun _ _ =>
    (h.saturateRnd _).bind fun _ hsat => h.finish hsat rfl trivial

theorem emitAluMac {s1 s2 : RegIdx} (h1 : Readable now s1) (h2 : Readable now s2)
    (d : Accumulator) (negate : Bool) : Keeps R (Alu.emitAluMac s1 s2 d negate) := fun _ =>
  (h.emitAluMpyCore h1 h2 negate).bind fun _ _ => (h.loadAcc d).bind fun _ _ =>
    (h.saturate _).bind fun _ hsat => h.finish hsat rfl trivial

theorem emitAluMacr {s1 s2 : RegIdx} (h1 : Readable now s1) (h2 : Readable now s2)
    (d : Accumulator) (negate : Bool) : Keeps R (Alu.emitAluMacr s1 s2 d negate) := fun _ =>
  (h.emitAluMpyCore h1 h2 negate).bind fun _ _ => (h.loadAcc d).bind fun _ _ =>
    (h.round _).bind fun _ _ => (h.saturateRnd _).bind fun _ hsat => h.finish hsat rfl trivial

theorem emitNormf {src : RegIdx} (hs : Readable now src) (d : Accumulator) :
    Keeps R (Alu.emitNormf src d) := fun _ =>
  (h.loadReg hs).bind fun _ _ => (h.loadAcc d).bind fun _ _ =>
    (h.saturate _).bind fun _ hsat =>
      h.finish hsat rfl (.ite (isBit_not_ofBool _) isBit_zero)

/-- A saturated result, C and V at once, the rest deferred: the end of the shifts. -/
theorem shifted {d : Accumulator} {v : BitVec 64} {clear : Word} {sr : Word → Word}
    (hsr : Contained sr) (hv : Packs v) : Couples (R b true) (do
      Alu.storeAcc d v
      let old ← Alu.clearSrFlags clear
      Alu.storeReg Reg.sr (sr old)
      Alu.setPending (.nzSm v)) anything (R b false) :=
  (h.storeAcc d hv).bind fun _ _ => Couples.assoc <| (h.rewriteSr _ hsr).bind fun _ _ =>
    h.resettle (h.setPending trivial)

theorem emitAslImm (shift : Byte) (s d : Accumulator) : Keeps R (Alu.emitAslImm shift s d) :=
  fun _ => (h.loadAcc s).bind fun _ _ => (h.saturate _).bind fun _ hsat =>
    h.shifted ((Contained.unchanged.or _).orVl _) hsat

theorem emitAsrImm (shift : Byte) (s d : Accumulator) : Keeps R (Alu.emitAsrImm shift s d) :=
  fun _ => (h.loadAcc s).bind fun _ _ => (h.saturate _).bind fun _ hsat =>
    h.shifted (Contained.unchanged.or _) hsat

theorem emitAslReg {src : RegIdx} (hs : Readable now src) (s d : Accumulator) :
    Keeps R (Alu.emitAslReg src s d) := fun _ =>
  (h.loadAcc s).bind fun _ _ => (h.loadReg hs).bind fun _ _ =>
    (h.saturate _).bind fun _ hsat => h.shifted ((Contained.unchanged.or _).orVl _) hsat

theorem emitAsrReg {src : RegIdx} (hs : Readable now src) (s d : Accumulator) :
    Keeps R (Alu.emitAsrReg src s d) := fun _ =>
  (h.loadAcc s).bind fun _ _ => (h.loadReg hs).bind fun _ _ =>
    (h.saturate _).bind fun _ hsat => h.shifted (Contained.unchanged.or _) hsat

theorem cmpuSource {src : RegIdx} (hs : Readable now src) :
    Couples (R b m) (Alu.cmpuSource src) anything (R b m) :=
  .ite (fun _ => (h.loadAcc _).bind fun _ _ => couples_skip)
    fun _ => (h.loadReg hs).bind fun _ _ => couples_skip

theorem emitCmpu {src : RegIdx} (hs : Readable now src) (d : Accumulator) :
    Keeps R (Alu.emitCmpu src d) := fun _ =>
  (h.loadAcc d).bind fun _ _ => (h.cmpuSource hs).bind fun _ _ =>
    h.resettle (h.rewriteSr _ (((Contained.unchanged.or _).or _).or _))

/-- NORM looks at E, U and Z. -/
theorem emitNorm (hn : now = true) (rregIdx : Byte) (d : Accumulator) :
    Keeps R (Alu.emitNorm rregIdx d) := fun _ =>
  (h.observeSr hn).bind fun _ _ => (h.loadAcc d).bind fun _ _ => (h.saturate _).bind fun _ hsat =>
    (h.storeAcc d hsat).bind fun _ _ => (h.loadReg (.inl hn)).bind fun _ _ =>
      (h.storeReg _ _).bind fun _ _ => h.resettle
          (h.setPending (((isBit_extract _ _).xor (isBit_extract _ _)).and (isBit_ofBool _)))

theorem emitMulShift (op : MulShiftOp) (shift : Byte) {src : RegIdx} (hs : Readable now src)
    (d : Accumulator) (k : Bool) : Keeps R (Alu.emitMulShift op shift src d k) := by
  intro b
  refine (h.loadReg hs).bind fun _ _ => ?_
  cases op with
  | mpy => exact (h.saturate _).bind fun _ hsat => h.finish hsat rfl trivial
  | mpyr =>
    exact (h.round _).bind fun _ _ => (h.saturateRnd _).bind fun _ hsat => h.finish hsat rfl trivial
  | mac =>
    exact (h.loadAcc d).bind fun _ _ => (h.saturate _).bind fun _ hsat => h.finish hsat rfl trivial
  | macr =>
    exact (h.loadAcc d).bind fun _ _ => (h.round _).bind fun _ _ =>
      (h.saturateRnd _).bind fun _ hsat => h.finish hsat rfl trivial

theorem emitImmMultiply (k : Bool) {src : RegIdx} (hs : Readable now src) (nextWord : Word) :
    Couples (R b m) (Alu.emitImmMultiply k src nextWord) anything (R b m) :=
  (h.loadReg hs).bind fun _ _ => couples_skip

/-- An immediate product, rounded or not. -/
theorem emitMpyiFamily (k : Bool) (d : Accumulator) {src : RegIdx} (hs : Readable now src)
    (nextWord : Word) (accumulate round : Bool) :
    Keeps R (Alu.emitMpyiFamily k d src nextWord accumulate round) := by
  intro b
  refine (h.emitImmMultiply k hs nextWord).bind fun _ _ => .ite (fun _ => ?_) fun _ => ?_
  · exact (h.loadAcc d).bind fun _ _ => .ite
      (fun _ => (h.round _).bind fun _ _ => (h.saturateRnd _).bind fun _ hsat =>
        h.finish hsat rfl trivial)
      fun _ => (h.saturate _).bind fun _ hsat => h.finish hsat rfl trivial
  · exact .ite
      (fun _ => (h.round _).bind fun _ _ => (h.saturateRnd _).bind fun _ hsat =>
        h.finish hsat rfl trivial)
      fun _ => (h.saturate _).bind fun _ hsat => h.finish hsat rfl trivial

theorem emitDmac (ss : Byte) (k : Bool) (d : Accumulator) {s1 s2 : RegIdx}
    (h1 : Readable now s1) (h2 : Readable now s2) : Keeps R (Alu.emitDmac ss k d s1 s2) := fun _ =>
  (h.loadReg h1).bind fun _ _ => (h.loadReg h2).bind fun _ _ => (h.loadAcc d).bind fun _ _ => .ite
    (fun _ => (h.saturate _).bind fun _ hsat => h.finish hsat rfl trivial)
    fun _ => (h.storeAcc d (packs_mask56 _)).bind fun _ _ => h.setPending trivial

theorem productSu (s : Byte) (k : Bool) {s1 s2 : RegIdx} (h1 : Readable now s1)
    (h2 : Readable now s2) : Couples (R b m) (Alu.productSu s k s1 s2) Packs (R b m) :=
  (h.loadReg h1).bind fun _ _ => (h.loadReg h2).bind fun _ _ => couples_pure (packs_mask56 _)

theorem emitMacSu (s : Byte) (k : Bool) (d : Accumulator) {s1 s2 : RegIdx}
    (h1 : Readable now s1) (h2 : Readable now s2) : Keeps R (Alu.emitMacSu s k d s1 s2) := fun _ =>
  (h.productSu s k h1 h2).bind fun _ _ => (h.loadAcc d).bind fun _ _ =>
    (h.storeAcc d (packs_mask56 _)).bind fun _ _ => h.setPending trivial

theorem emitMpySu (s : Byte) (k : Bool) (d : Accumulator) {s1 s2 : RegIdx}
    (h1 : Readable now s1) (h2 : Readable now s2) : Keeps R (Alu.emitMpySu s k d s1 s2) := fun _ =>
  (h.productSu s k h1 h2).bind fun _ hp => (h.storeAcc d hp).bind fun _ _ => h.setPending trivial

theorem emitDiv {src : RegIdx} (hs : Readable now src) (d : Accumulator) :
    Keeps R (Alu.emitDiv src d) := by
  intro b
  refine (h.loadReg hs).bind fun _ _ => (h.loadAcc d).bind fun _ _ =>
    h.readSr (fun x y hxy => ?_) fun _ => ?_
  · have hcarry : extractBit x Sr.c = extractBit y Sr.c := hxy.settled.extractBit (by decide)
    simp only [hcarry]
  · exact (h.storeAcc d ((packs_mask56 _).or (packs_widened _))).bind fun _ _ =>
      h.resettle (h.rewriteSr _ ((Contained.unchanged.or _).orVl _))

theorem loadMid (d : Accumulator) :
    Couples (R b m) (Alu.loadReg (midReg d)) anything (R b m) :=
  h.loadOther (by cases d <;> decide)

theorem storeMid (d : Accumulator) (v : Word) :
    Couples (R b m) (Alu.storeReg (midReg d) v) anything (R b m) :=
  h.storeOther v (by cases d <;> decide)

theorem emitAndi (imm dest : Byte) : Keeps R (Alu.emitAndi imm dest) := by
  intro b
  unfold Alu.emitAndi
  split
  · exact h.resettle (h.updateSr (Contained.unchanged.and _))
  · exact h.resettle (h.updateSr (Contained.unchanged.and _))
  · exact (h.loadOther (by decide)).bind fun _ _ => h.storeOther _ (by decide)
  · exact (h.loadOther (by decide)).bind fun _ _ => h.storeOther _ (by decide)
  · exact couples_skip

theorem emitOri (imm dest : Byte) : Keeps R (Alu.emitOri imm dest) := by
  intro b
  unfold Alu.emitOri
  split
  · exact h.resettle (h.updateSr (Contained.unchanged.or _))
  · exact h.resettle (h.updateSr (Contained.unchanged.or _))
  · exact (h.loadOther (by decide)).bind fun _ _ => h.storeOther _ (by decide)
  · exact (h.loadOther (by decide)).bind fun _ _ => h.storeOther _ (by decide)
  · exact couples_skip

theorem emitLogicalOpAcc (d : Accumulator) (src : Word) (op : LogicalOp) :
    Keeps R (Alu.emitLogicalOpAcc d src op) := fun _ =>
  (h.loadMid d).bind fun _ _ => (h.storeMid d _).bind fun _ _ => h.setPending trivial

theorem emitAluNot (d : Accumulator) : Keeps R (Alu.emitAluNot d) := fun _ =>
  (h.loadMid d).bind fun _ _ => (h.storeMid d _).bind fun _ _ => h.setPending trivial

theorem emitAluBitwise (op : Word → Word → Word) {src : RegIdx} (hs : Readable now src)
    (d : Accumulator) : Keeps R (Alu.emitAluBitwise op src d) := fun _ =>
  (h.loadReg hs).bind fun _ _ => (h.loadMid d).bind fun _ _ => (h.storeMid d _).bind fun _ _ =>
    h.setPending trivial

/-- The flags of a shift by one place: the bit shifted out, and N where it follows the result. -/
theorem finishShift {v c : Word} {n : Option Word} (hc : IsBit c) (hn : ∀ x ∈ n, IsBit x) :
    Couples (R b m) (Alu.setPending (.shift24 c n v)) anything (R b m) := h.setPending ⟨hc, hn⟩

theorem emitAluLsr (d : Accumulator) : Keeps R (Alu.emitAluLsr d) := fun _ =>
  (h.loadMid d).bind fun _ _ => (h.storeMid d _).bind fun _ _ =>
    h.finishShift (isBit_and_one _) (by simp)

theorem emitAluLsl (d : Accumulator) : Keeps R (Alu.emitAluLsl d) := fun _ =>
  (h.loadMid d).bind fun _ _ => (h.storeMid d _).bind fun _ _ =>
    h.finishShift (isBit_and_one _) (isBit_some _)

theorem emitAluRor (d : Accumulator) : Keeps R (Alu.emitAluRor d) := fun _ =>
  (h.loadMid d).bind fun _ _ => h.readSr (fun x y hxy => by simp only [hxy.settled.carry]) fun _ =>
    (h.storeMid d _).bind fun _ _ =>
      h.resettle (h.finishShift (isBit_and_one _) (isBit_some _))

theorem emitAluRol (d : Accumulator) : Keeps R (Alu.emitAluRol d) := fun _ =>
  (h.loadMid d).bind fun _ _ => h.readSr (fun x y hxy => by simp only [hxy.settled.carry]) fun _ =>
    (h.storeMid d _).bind fun _ _ =>
      h.resettle (h.finishShift (isBit_and_one _) (isBit_some _))

theorem shiftByZero (d : Accumulator) : Keeps R (Alu.shiftByZero d) := fun _ =>
  Couples.assoc <| (h.rewriteSr _ .unchanged).bind fun _ _ => (h.loadMid d).bind fun _ _ =>
    h.resettle (h.setPending trivial)

theorem emitLslImm (shift : Byte) (d : Accumulator) : Keeps R (Alu.emitLslImm shift d) := fun b =>
  .ite (fun _ => h.shiftByZero d b) fun _ => (h.loadMid d).bind fun _ _ =>
    (h.updateCarryFromBit _ _).bind fun _ _ => (h.storeMid d _).bind fun _ _ =>
      h.resettle (h.setPending trivial)

theorem emitLsrImm (shift : Byte) (d : Accumulator) : Keeps R (Alu.emitLsrImm shift d) := fun b =>
  .ite (fun _ => h.shiftByZero d b) fun _ => (h.loadMid d).bind fun _ _ =>
    (h.updateCarryFromBit _ _).bind fun _ _ => (h.storeMid d _).bind fun _ _ =>
      h.resettle (h.setPending trivial)

theorem emitLslReg {src : RegIdx} (hs : Readable now src) (d : Accumulator) :
    Keeps R (Alu.emitLslReg src d) := fun _ =>
  (h.loadMid d).bind fun _ _ => (h.loadReg hs).bind fun _ _ => (h.storeMid d _).bind fun _ _ =>
    Couples.assoc <| (h.rewriteSr _ (Contained.unchanged.or _)).bind fun _ _ =>
      h.resettle (h.setPending trivial)

theorem emitLsrReg {src : RegIdx} (hs : Readable now src) (d : Accumulator) :
    Keeps R (Alu.emitLsrReg src d) := fun _ =>
  (h.loadMid d).bind fun _ _ => (h.loadReg hs).bind fun _ _ => (h.storeMid d _).bind fun _ _ =>
    Couples.assoc <| (h.rewriteSr _ (Contained.unchanged.or _)).bind fun _ _ =>
      h.resettle (h.setPending trivial)

theorem emitClb (s d : Accumulator) : Keeps R (Alu.emitClb s d) := fun _ =>
  (h.loadAcc s).bind fun _ _ => (h.storeAcc d (packs_val24ToAcc56 _)).bind fun _ _ =>
    h.setPending trivial

theorem fieldFlags (v : BitVec 64) : Keeps R (Alu.fieldFlags v) := fun _ =>
  Couples.assoc <| (h.rewriteSr _ .unchanged).bind fun _ _ => h.resettle (h.setPending trivial)

theorem emitExtract (control : Word) (s2 d : Accumulator) (unsigned : Bool) :
    Keeps R (Alu.emitExtract control s2 d unsigned) := fun b =>
  (h.loadAcc s2).bind fun _ _ => (h.storeAcc d (packs_mask56 _)).bind fun _ _ => h.fieldFlags _ b

theorem emitInsert (control : Word) {s2 : RegIdx} (hs : Readable now s2) (d : Accumulator) :
    Keeps R (Alu.emitInsert control s2 d) := fun b =>
  (h.loadReg hs).bind fun _ _ => (h.loadAcc d).bind fun _ _ =>
    (h.storeAcc d (packs_mask56 _)).bind fun _ _ => h.fieldFlags _ b

theorem emitMerge {src : RegIdx} (hs : Readable now src) (d : Accumulator) :
    Keeps R (Alu.emitMerge src d) := fun _ =>
  (h.loadReg hs).bind fun _ _ => (h.loadAcc d).bind fun _ hv =>
    (h.storeAcc d (hv.and.or (packs_merged _ _))).bind fun _ _ => h.setPending trivial

theorem emitParallelAlu (alu : ParallelAlu) (hs : ∀ r ∈ alu.operands, Readable now r) :
    Keeps R (Alu.emitParallelAlu alu) := by
  have hone {src : RegIdx} (h : alu.operands = [src]) : Readable now src := hs _ (by simp [h])
  have htwo {s1 s2 : RegIdx} (h : alu.operands = [s1, s2]) : Readable now s1 ∧ Readable now s2 :=
    ⟨hs _ (by simp [h]), hs _ (by simp [h])⟩
  cases alu with
  | move | undefined => exact fun _ => couples_skip
  | tfrAcc src d => exact h.emitAluTfrAcc src d
  | addr src d => exact h.emitAluAddrSubr src d false
  | tst d => exact h.emitAluTst d
  | cmpAcc src d => exact h.emitAluCmpAcc src d
  | subr src d => exact h.emitAluAddrSubr src d true
  | cmpmAcc src d => exact h.emitAluCmpmAcc src d
  | addAcc src d => exact h.emitAluAddAcc src d
  | rnd d => exact h.emitAluRnd d
  | addl src d => exact h.emitAluAddlSubl src d false
  | clr d => exact h.emitAluClr d
  | subAcc src d => exact h.emitAluSubAcc src d
  | max => exact h.emitAluMax
  | maxm => exact h.emitAluMaxm
  | subl src d => exact h.emitAluAddlSubl src d true
  | not d => exact h.emitAluNot d
  | addXY hi lo d => exact h.emitAluAddXy (htwo rfl).1 (htwo rfl).2 d
  | adc hi lo d => exact h.emitAluAdcSbc (htwo rfl).1 (htwo rfl).2 d false
  | subXY hi lo d => exact h.emitAluSubXy (htwo rfl).1 (htwo rfl).2 d
  | sbc hi lo d => exact h.emitAluAdcSbc (htwo rfl).1 (htwo rfl).2 d true
  | asr d => exact h.emitAluAsr d
  | lsr d => exact h.emitAluLsr d
  | abs d => exact h.emitAluAbs d
  | ror d => exact h.emitAluRor d
  | asl d => exact h.emitAluAsl d
  | lsl d => exact h.emitAluLsl d
  | neg d => exact h.emitAluNeg d
  | rol d => exact h.emitAluRol d
  | addReg src d => exact h.emitAluAddReg24 (hone rfl) d
  | tfrReg src d => exact h.emitAluTfrReg24 (hone rfl) d
  | or src d => exact h.emitAluBitwise _ (hone rfl) d
  | eor src d => exact h.emitAluBitwise _ (hone rfl) d
  | subReg src d => exact h.emitAluSubReg24 (hone rfl) d
  | cmpReg src d => exact h.emitAluCmpReg24 (hone rfl) d
  | and src d => exact h.emitAluBitwise _ (hone rfl) d
  | cmpmReg src d => exact h.emitAluCmpmReg24 (hone rfl) d
  | mpy negate s1 s2 d => exact h.emitAluMpy (htwo rfl).1 (htwo rfl).2 d negate
  | mpyr negate s1 s2 d => exact h.emitAluMpyr (htwo rfl).1 (htwo rfl).2 d negate
  | mac negate s1 s2 d => exact h.emitAluMac (htwo rfl).1 (htwo rfl).2 d negate
  | macr negate s1 s2 d => exact h.emitAluMacr (htwo rfl).1 (htwo rfl).2 d negate

/-- The accumulators of a conditional operation are its own, or put back. -/
theorem chosen {c : Prop} [Decidable c] {x y : BitVec 64} (hx : Packs x) (hy : Packs y) :
    Couples (R true false) (do
      let postA ← Alu.loadAcc .a
      Alu.storeAcc .a (if c then postA else x)
      let postB ← Alu.loadAcc .b
      Alu.storeAcc .b (if c then postB else y)) anything (R b false) :=
  (h.loadAcc .a).bind fun _ ha => (h.storeAcc .a (.ite ha hx)).bind fun _ _ =>
    (h.loadAcc .b).bind fun _ hb => h.resettle (h.storeAcc .b (.ite hb hy))

/-- A conditional operation reads SR first: from there on nothing deferred differs. The word it
saved only goes back to SR, so it need not be the same. -/
theorem emitIfcc (opcode : Word) (alu : ParallelAlu) (updateCcr : Bool)
    (hs : ∀ r ∈ alu.operands, Readable now r)
    (hc : now = true ∨ (ifccCond opcode).transparent = true) :
    Keeps R (Alu.emitIfcc opcode alu updateCcr) := by
  intro b
  have hcond {x y : Word} (hxy : SameSr now x y) :
      (ifccCond opcode).eval x = (ifccCond opcode).eval y := by
    rcases hc with hn | hc
    · rw [hxy.same hn]
    · exact hxy.settled.eval hc
  simp only [ifccCond] at hcond
  refine h.readSr (fun x y hxy => by simp only [hcond hxy]) fun _ =>
    (h.loadAcc .a).bind fun _ ha => (h.loadAcc .b).bind fun _ hb => Relates.couples ?_
  refine h.loadSr.bind fun x y hxy => (h.emitParallelAlu alu hs true).relates.bind fun _ _ _ => ?_
  cases updateCcr with
  | true => exact h.loadSr.bind fun _ _ hpost => (h.storeSr (.ite hpost hxy)).bind fun _ _ _ =>
      (h.chosen ha hb).relates
  | false => exact Relates.assoc ((h.discard hxy).bind fun _ _ _ => (h.chosen ha hb).relates)

/-- Every data path keeps what its operations keep, where it may read the operands and SR. -/
theorem emit (path : DataPath) (hp : now = true ∨ path.hazard = false) : Keeps R path.emit := by
  have hs : ∀ r ∈ path.operands, Readable now r := by
    rintro r hr
    refine hp.imp_right fun hp => ?_
    rintro rfl
    simp [DataPath.hazard, hr] at hp
  have hone {src : RegIdx} (h : path.operands = [src]) : Readable now src := hs _ (by simp [h])
  have htwo {s1 s2 : RegIdx} (h : path.operands = [s1, s2]) : Readable now s1 ∧ Readable now s2 :=
    ⟨hs _ (by simp [h]), hs _ (by simp [h])⟩
  cases path with
  | accAddsub src d isSub store => exact h.emitAccAddsub src d isSub store
  | logicalOpAcc d src op => exact h.emitLogicalOpAcc d src op
  | parallelAlu alu => exact h.emitParallelAlu alu hs
  | ifcc opcode alu updateCcr =>
    refine h.emitIfcc opcode alu updateCcr hs (hp.imp_right fun hp => ?_)
    simp only [DataPath.hazard, Bool.or_eq_false_iff] at hp
    simpa using hp.2
  | andi imm dest => exact h.emitAndi imm dest
  | ori imm dest => exact h.emitOri imm dest
  | aslImm shift s d => exact h.emitAslImm shift s d
  | asrImm shift s d => exact h.emitAsrImm shift s d
  | aslReg src s d => exact h.emitAslReg (hone rfl) s d
  | asrReg src s d => exact h.emitAsrReg (hone rfl) s d
  | lslImm shift d => exact h.emitLslImm shift d
  | lsrImm shift d => exact h.emitLsrImm shift d
  | lslReg src d => exact h.emitLslReg (hone rfl) d
  | lsrReg src d => exact h.emitLsrReg (hone rfl) d
  | cmpu src d => exact h.emitCmpu (hone rfl) d
  | mulShift op shift src d k => exact h.emitMulShift op shift (hone rfl) d k
  | mpyiFamily k d src nextWord accumulate round =>
    exact h.emitMpyiFamily k d (hone rfl) nextWord accumulate round
  | dmac ss k d s1 s2 => exact h.emitDmac ss k d (htwo rfl).1 (htwo rfl).2
  | macSu s k d s1 s2 => exact h.emitMacSu s k d (htwo rfl).1 (htwo rfl).2
  | mpySu s k d s1 s2 => exact h.emitMpySu s k d (htwo rfl).1 (htwo rfl).2
  | div src d => exact h.emitDiv (hone rfl) d
  | norm rregIdx d =>
    refine h.emitNorm (hp.resolve_right fun hp => ?_) rregIdx d
    simp [DataPath.hazard] at hp
  | normf src d => exact h.emitNormf (hone rfl) d
  | clb s d => exact h.emitClb s d
  | merge src d => exact h.emitMerge (hone rfl) d
  | extract control s2 d unsigned => exact h.emitExtract control s2 d unsigned
  | insert control s2 d => exact h.emitInsert control (hone rfl) d
  | updateCarryFromBit val bitNum => exact fun _ => h.resettle (h.updateCarryFromBit _ _)

end Rules

end Alu

end Dsp56300
