import Dsp56300.Emu.DataPathRules

/-! A deferred computation is an update of E, U, N and Z followed by one that treats every bit of SR
for itself. -/

namespace Dsp56300

open Emitter Lib.Words SrUpdate AluState

/-- The 56-bit result E, U, N and Z are updated from, for the kinds that rewrite all of them. -/
def Emitter.PendingFlags.nzResult56 : PendingFlags → Option (BitVec 64)
  | .aluAddSub result56 .. | .nzClearV result56 | .nzOnly result56 | .nzClearVSm result56
  | .macVlSm result56 .. | .nzVlSm result56 .. | .nzSm result56 | .nzVclSub result56 ..
  | .addlSubl result56 .. | .dmacVl result56 .. => some result56
  | .shift24 .. | .logical .. => none

theorem Emitter.PendingFlags.rewritesEunz_eq (flags : PendingFlags) :
    flags.rewritesEunz = flags.nzResult56.isSome := by
  cases flags <;> rfl

/-! Updates of single bits. -/

/-- Some bits are kept, some are set, the others cleared. Mode bits are kept, L and S are at most
set, and no bit is set that SR does not have. -/
structure BitUpdate (h : Word → Word) where
  keep : Nat → Bool
  set : Nat → Bool
  bits : ∀ x k, flag (h x) k = (keep k && flag x k || set k)
  modes : ∀ k ∈ controlBits, keep k = true ∧ set k = false
  sticky : keep Sr.l = true ∧ keep Sr.s = true
  masked : ∀ k, flag (regMasks Reg.sr) k = false → set k = false

namespace BitUpdate

variable {g h : Word → Word}

def unchanged : BitUpdate id where
  keep _ := true
  set _ := false
  bits x k := by simp
  modes _ _ := ⟨rfl, rfl⟩
  sticky := ⟨rfl, rfl⟩
  masked _ _ := rfl

/-- One update after the other. -/
def comp (u : BitUpdate g) (v : BitUpdate h) : BitUpdate fun x => g (h x) where
  keep k := u.keep k && v.keep k
  set k := u.keep k && v.set k || u.set k
  bits x k := by
    rw [u.bits, v.bits]
    cases u.keep k <;> simp [Bool.or_assoc]
  modes k hk := by
    obtain ⟨hu, hu'⟩ := u.modes k hk
    obtain ⟨hv, hv'⟩ := v.modes k hk
    simp [hu, hu', hv, hv']
  sticky := by simp [u.sticky, v.sticky]
  masked k hk := by simp [u.masked k hk, v.masked k hk]

def store : BitUpdate store where
  keep k := flag (regMasks Reg.sr) k
  set _ := false
  bits x k := by
    rw [flag_store, Bool.and_comm]
    simp
  modes := by simp +decide
  sticky := by simp +decide
  masked _ _ := rfl

/-- The bits updates clear and set. -/
def ccr : List Nat := [Sr.c, Sr.v, Sr.z, Sr.n, Sr.l]

/-- Bits cleared among C, V, Z and N. -/
def clear (m : Word) (hm : ∀ k, flag m k = true → k ∈ ccr.dropLast) : BitUpdate (clear m) where
  keep k := !flag m k
  set _ := false
  bits x k := by
    rw [flag_clear, Bool.and_comm]
    simp
  modes k hk := by
    have hout : k ∉ ccr.dropLast := by
      revert k
      decide
    simp [Bool.eq_false_iff.mpr (mt (hm k) hout)]
  sticky := by
    have hl : flag m Sr.l = false := Bool.eq_false_iff.mpr (mt (hm _) (by decide))
    have hs : flag m Sr.s = false := Bool.eq_false_iff.mpr (mt (hm _) (by decide))
    simp [hl, hs]
  masked _ _ := rfl

def or {k : Nat} (hk : k ∈ ccr) (b : Bool) :
    BitUpdate fun x => x ||| shiftToBit (bit 32 b) k where
  keep _ := true
  set j := j = k && b
  bits x j := by
    have hlt : k < 32 := by
      revert k
      decide
    rw [flag_or, flag_shiftToBit b hlt]
    simp
  modes j hj := by
    have hne : j ≠ k := by
      rintro rfl
      revert j
      decide
    simp [hne]
  sticky := ⟨rfl, rfl⟩
  masked j hj := by
    have hmask : ∀ i ∈ ccr, flag (regMasks Reg.sr) i = true := by decide
    have hne : j ≠ k := by
      rintro rfl
      rw [hmask j hk] at hj
      cases hj
    simp [hne]

def orVl (b : Bool) : BitUpdate fun x => orVl x (bit 32 b) :=
  (or (k := Sr.l) (by decide) b).comp (or (k := Sr.v) (by decide) b)

end BitUpdate

/-- Code that treats every bit of SR for itself. -/
def Bitwise (h : Word → Word) : Prop := Nonempty (BitUpdate h)

namespace Bitwise

variable {g h : Word → Word} {v : Word}

theorem comp (hg : Bitwise g) (hh : Bitwise h) : Bitwise fun x => g (h x) := by
  obtain ⟨u⟩ := hg
  obtain ⟨v⟩ := hh
  exact ⟨u.comp v⟩

theorem store (hh : Bitwise h) : Bitwise fun x => store (h x) := comp ⟨.store⟩ hh

theorem unchanged : Bitwise fun x => x := ⟨.unchanged⟩

/-- A bit shifted to its place. -/
theorem or {k : Nat} (hk : k ∈ BitUpdate.ccr) (hh : Bitwise h) (hv : IsBit v) :
    Bitwise fun x => h x ||| shiftToBit v k := by
  obtain ⟨b, rfl⟩ := hv
  exact comp ⟨.or hk b⟩ hh

/-- A carry, which is in place. -/
theorem orCarry (hh : Bitwise h) (hv : IsBit v) : Bitwise fun x => h x ||| v := by
  have hor := hh.or (k := Sr.c) (by decide) hv
  simpa only [shiftToBit, BitVec.shiftLeft_zero] using hor

theorem orVl (hh : Bitwise h) (hv : IsBit v) : Bitwise fun x => orVl (h x) v := by
  obtain ⟨b, rfl⟩ := hv
  exact comp ⟨.orVl b⟩ hh

theorem orVlSr (hh : Bitwise h) (hv : IsBit v) : Bitwise fun x => orVlSr v (h x) :=
  (hh.orVl hv).store

theorem clear {m : Word} (hm : ∀ k, flag m k = true → k ∈ BitUpdate.ccr.dropLast) :
    Bitwise (clear m) := ⟨.clear m hm⟩

theorem clearV : Bitwise (SrUpdate.clear (1#32 <<< Sr.v)) := by
  refine clear fun k hk => ?_
  rw [flag_single (by decide), decide_eq_true_eq] at hk
  subst hk
  decide

theorem clearVFlag : Bitwise clearVFlag := clearV.store

theorem setVlOverflow (hv : IsBit v) : Bitwise (setVlOverflow v) := (clearV.orVl hv).store

theorem macSetVl (product acc result : BitVec 64) : Bitwise (macSetVl product acc result) :=
  setVlOverflow (((isBit_extract _ _).xor (isBit_extract _ _)).and
    ((isBit_extract _ _).xor (isBit_extract _ _)))

theorem updateVcl (source dest result : BitVec 64) (isSub : Bool) :
    Bitwise (updateVcl source dest result isSub) := by
  have hclear : Bitwise (SrUpdate.clear ((1#32 <<< Sr.v) ||| (1#32 <<< Sr.c))) := by
    refine clear fun k hk => ?_
    simp only [flag_or, flag_single (by decide : Sr.v < 32), flag_single (by decide : Sr.c < 32),
      Bool.or_eq_true, decide_eq_true_eq] at hk
    rcases hk with rfl | rfl <;> decide
  exact ((hclear.orCarry (isBit_extract _ _)).orVl
    (.ite (((isBit_extract _ _).xor (isBit_extract _ _)).and
        ((isBit_extract _ _).xor (isBit_extract _ _)))
      (((isBit_extract _ _).xor (isBit_extract _ _)).and
        ((isBit_extract _ _).xor (isBit_extract _ _))))).store

theorem updateNzvLogical (result24 : Word) : Bitwise (updateNzvLogical result24) := by
  have hclear : Bitwise
      (SrUpdate.clear ((1#32 <<< Sr.n) ||| (1#32 <<< Sr.z) ||| (1#32 <<< Sr.v))) := by
    refine clear fun k hk => ?_
    simp only [flag_or, flag_single (by decide : Sr.n < 32), flag_single (by decide : Sr.z < 32),
      flag_single (by decide : Sr.v < 32), Bool.or_eq_true, decide_eq_true_eq] at hk
    rcases hk with (rfl | rfl) | rfl <;> decide
  exact ((hclear.or (k := Sr.n) (by decide) (isBit_and_one _)).or (k := Sr.z) (by decide)
    (isBit_ofBool _)).store

theorem updateShift24Flags {nVal : Option Word} (hv : IsBit v) (hn : ∀ n ∈ nVal, IsBit n)
    (result : Word) : Bitwise (updateShift24Flags v nVal result) := by
  have hclear : Bitwise (SrUpdate.clear
      ((1#32 <<< Sr.c) ||| (1#32 <<< Sr.n) ||| (1#32 <<< Sr.z) ||| (1#32 <<< Sr.v))) := by
    refine clear fun k hk => ?_
    simp only [flag_or, flag_single (by decide : Sr.n < 32), flag_single (by decide : Sr.z < 32),
      flag_single (by decide : Sr.v < 32), flag_single (by decide : Sr.c < 32), Bool.or_eq_true,
      decide_eq_true_eq] at hk
    rcases hk with ((rfl | rfl) | rfl) | rfl <;> decide
  cases nVal with
  | none => exact ((hclear.orCarry hv).or (k := Sr.z) (by decide) (isBit_ofBool _)).store
  | some n =>
    exact (((hclear.orCarry hv).or (k := Sr.n) (by decide) (hn n rfl)).or (k := Sr.z) (by decide)
      (isBit_ofBool _)).store

end Bitwise

/-- An update that leaves E, U, N and Z alone. -/
def Spares (h : Word → Word) : Prop := ∀ x, ∀ k ∈ lazyFlags, flag (h x) k = flag x k

/-- E, U, N and Z are bits of SR, and neither C, V nor L. -/
theorem lazy_apart : ∀ k ∈ lazyFlags,
    flag (regMasks Reg.sr) k = true ∧ k ≠ Sr.c ∧ k ≠ Sr.v ∧ k ≠ Sr.l := by decide

namespace Spares

variable {g h : Word → Word} {v : Word}

theorem unchanged : Spares fun x => x := fun _ _ _ => rfl

theorem comp (hg : Spares g) (hh : Spares h) : Spares fun x => g (h x) := fun x k hk =>
  (hg (h x) k hk).trans (hh x k hk)

theorem updateVcl (source dest result : BitVec 64) (isSub : Bool) :
    Spares (updateVcl source dest result isSub) := by
  intro x k hk
  obtain ⟨hmask, hc, hv, hl⟩ := lazy_apart k hk
  rw [flag_updateVcl, if_neg hc, if_neg hv, if_neg hl, hmask, Bool.and_true]

theorem orVlSr (hv : IsBit v) : Spares (orVlSr v) := by
  obtain ⟨b, rfl⟩ := hv
  intro x k hk
  obtain ⟨hmask, -, hv, hl⟩ := lazy_apart k hk
  simp [flag_orVlSr, hmask, hv, hl]

theorem clearVFlag : Spares clearVFlag := by
  intro x k hk
  obtain ⟨hmask, -, hv, -⟩ := lazy_apart k hk
  rw [flag_clearVFlag, if_neg hv, hmask, Bool.and_true]

theorem setVlOverflow (hv : IsBit v) : Spares (setVlOverflow v) := by
  obtain ⟨b, rfl⟩ := hv
  intro x k hk
  obtain ⟨hmask, -, hv, hl⟩ := lazy_apart k hk
  rw [flag_setVlOverflow, if_neg hv, if_neg hl, hmask, Bool.and_true]

theorem macSetVl (product acc result : BitVec 64) : Spares (macSetVl product acc result) :=
  setVlOverflow (((isBit_extract _ _).xor (isBit_extract _ _)).and
    ((isBit_extract _ _).xor (isBit_extract _ _)))

end Spares

/-- E, U, N and Z updated by a computation that rewrites them, unless they are dead. -/
def Emitter.PendingFlags.updateNz (flags : PendingFlags) (eunzDead : Bool) (sr : Word) : Word :=
  match flags.nzResult56 with
  | some result56 => updateNzMaybe result56 eunzDead sr
  | none => sr

/-- Whatever is deferred, only the update of E, U, N and Z looks at more than one bit; what follows
such an update leaves the four alone. -/
theorem materialize_eq {flags : PendingFlags} (hp : flags.Proper) {needs : Word}
    (hn : IsBit needs) : ∃ own, Bitwise own ∧ (flags.rewritesEunz = true → Spares own) ∧
      ∀ e x, flags.materialize e needs x = own (flags.updateNz e x) := by
  have hsm : Spares (orVlSr needs) := .orVlSr hn
  cases flags with
  | aluAddSub v source dest raw isSub =>
    exact ⟨_, (Bitwise.updateVcl source dest raw isSub).orVlSr hn,
      fun _ => hsm.comp (.updateVcl source dest raw isSub), fun _ _ => rfl⟩
  | nzClearV v => exact ⟨_, .clearVFlag, fun _ => .clearVFlag, fun _ _ => rfl⟩
  | nzOnly v => exact ⟨_, .unchanged, fun _ => .unchanged, fun _ _ => rfl⟩
  | nzClearVSm v =>
    exact ⟨_, Bitwise.clearVFlag.orVlSr hn, fun _ => hsm.comp .clearVFlag, fun _ _ => rfl⟩
  | macVlSm v product acc =>
    exact ⟨_, (Bitwise.macSetVl product acc v).orVlSr hn,
      fun _ => hsm.comp (.macSetVl product acc v), fun _ _ => rfl⟩
  | nzVlSm v overflow =>
    exact ⟨_, (Bitwise.setVlOverflow hp).orVlSr hn, fun _ => hsm.comp (.setVlOverflow hp),
      fun _ _ => rfl⟩
  | nzSm v => exact ⟨_, Bitwise.unchanged.orVlSr hn, fun _ => hsm, fun _ _ => rfl⟩
  | nzVclSub v source dest raw =>
    exact ⟨_, .updateVcl source dest raw true, fun _ => .updateVcl source dest raw true,
      fun _ _ => rfl⟩
  | addlSubl v source dest raw isSub aslV =>
    exact ⟨_, ((Bitwise.updateVcl source dest raw isSub).orVlSr hp).orVlSr hn,
      fun _ => hsm.comp ((Spares.orVlSr hp).comp (.updateVcl source dest raw isSub)),
      fun _ _ => rfl⟩
  | dmacVl v product acc =>
    exact ⟨_, .macSetVl product acc v, fun _ => .macSetVl product acc v, fun _ _ => rfl⟩
  | shift24 carry nVal result =>
    exact ⟨_, .updateShift24Flags hp.1 hp.2 result, fun hr => absurd hr Bool.false_ne_true,
      fun _ _ => rfl⟩
  | logical result24 =>
    exact ⟨_, .updateNzvLogical result24, fun hr => absurd hr Bool.false_ne_true, fun _ _ => rfl⟩

/-! What follows for every deferred computation. -/

section Words

variable {x y w : Word} {own : Word → Word}

theorem eq_of_flags (h : ∀ k, flag x k = flag y k) : x = y :=
  BitVec.eq_of_getLsbD_eq fun k _ => h k

/-- SR has no bits but its own. -/
theorem flag_of_stored (hx : store x = x) {k : Nat} (hk : flag (regMasks Reg.sr) k = false) :
    flag x k = false := by
  rw [← hx, flag_store, hk, Bool.and_false]

theorem stored_iff : store x = x ↔ ∀ k, flag (regMasks Reg.sr) k = false → flag x k = false := by
  refine ⟨fun hx k hk => flag_of_stored hx hk, fun h => eq_of_flags fun k => ?_⟩
  rw [flag_store]
  cases hk : flag (regMasks Reg.sr) k with
  | false => rw [h k hk, Bool.and_false]
  | true => rw [Bool.and_true]

theorem Bitwise.settled (hown : Bitwise own) (h : SameSettled x y) :
    SameSettled (own x) (own y) := by
  obtain ⟨u⟩ := hown
  intro k hk
  rw [u.bits, u.bits, h k hk]

theorem Bitwise.stored (hown : Bitwise own) (hx : SrUpdate.store x = x) :
    SrUpdate.store (own x) = own x := by
  obtain ⟨u⟩ := hown
  rw [stored_iff]
  intro k hk
  rw [u.bits, u.masked k hk, flag_of_stored hx hk, Bool.and_false]
  rfl

theorem Bitwise.mode (hown : Bitwise own) {k : Nat} (hk : k ∈ controlBits) (x : Word) :
    flag (own x) k = flag x k := by
  obtain ⟨u⟩ := hown
  rw [u.bits, (u.modes k hk).1, (u.modes k hk).2, Bool.true_and, Bool.or_false]

/-- A word of the bits a move may set. -/
def Sticky (w : Word) : Prop := ∀ k, flag w k = true → k = Sr.l ∨ k = Sr.s

theorem Bitwise.sticky (hown : Bitwise own) (hw : Sticky w) (x : Word) :
    own (x ||| w) = own x ||| w := by
  obtain ⟨u⟩ := hown
  refine eq_of_flags fun k => ?_
  rw [flag_or, u.bits, u.bits, flag_or]
  cases hk : flag w k with
  | false => simp
  | true =>
    have hkeep : u.keep k = true := by
      rcases hw k hk with rfl | rfl
      · exact u.sticky.1
      · exact u.sticky.2
    simp [hkeep]

variable (acc : BitVec 64)

/-- E, U, N and Z depend on the value and the scaling mode alone. -/
theorem flag_updateNz_lazy (h : ∀ k ∈ controlBits, flag x k = flag y k) {k : Nat}
    (hk : k ∈ lazyFlags) :
    flag (updateNzMaybe acc false x) k = flag (updateNzMaybe acc false y) k := by
  have hsign : signBit x = signBit y := by
    rw [signBit_eq, signBit_eq, h Sr.s0 (by decide), h Sr.s1 (by decide)]
  rw [flag_updateNzMaybe, flag_updateNzMaybe, flag_jitUpdateNz, flag_jitUpdateNz, extended,
    extended, unnormalized, unnormalized, hsign]
  split_ifs with he hu hn hz
  · rfl
  · rfl
  · rfl
  · rfl
  · simp [lazyFlags, he, hu, hn, hz] at hk

theorem updateNzMaybe_congr (h : SameSettled x y) :
    updateNzMaybe acc false x = updateNzMaybe acc false y := by
  refine eq_of_flags fun k => ?_
  by_cases hk : k ∈ lazyFlags
  · refine flag_updateNz_lazy acc (fun j hj => ?_) hk
    have hout : j ∉ lazyFlags := by
      revert j
      decide
    exact (h j hout).symm
  · rw [flag_updateNzMaybe, flag_updateNzMaybe, flag_jitUpdateNz, flag_jitUpdateNz]
    simp only [lazyFlags, List.mem_cons, List.not_mem_nil, or_false, not_or] at hk
    obtain ⟨he, hu, hn, hz⟩ := hk
    rw [if_neg he, if_neg hu, if_neg hn, if_neg hz, if_neg he, if_neg hu, if_neg hn, if_neg hz,
      h k (by simp [lazyFlags, he, hu, hn, hz])]

theorem updateNzMaybe_settled (hx : store x = x) (e : Bool) :
    SameSettled x (updateNzMaybe acc e x) := by
  intro k hk
  have hflag := flag_updateNz_settled acc e x hk
  cases hm : flag (regMasks Reg.sr) k with
  | false =>
    rw [flag_of_stored hx hm]
    cases e
    · rw [flag_updateNzMaybe, hm, Bool.and_false]
    · exact flag_of_stored hx hm
  | true => simpa only [hm, Bool.and_true] using hflag

theorem updateNzMaybe_stored (hx : store x = x) (e : Bool) :
    store (updateNzMaybe acc e x) = updateNzMaybe acc e x := by
  cases e
  · rw [stored_iff]
    intro k hk
    rw [flag_updateNzMaybe, hk, Bool.and_false]
  · exact hx

/-- The update may come after one that leaves the four alone. -/
theorem Bitwise.updateNz (hown : Bitwise own) (hs : Spares own) (hx : SrUpdate.store x = x) :
    updateNzMaybe acc false (own x) = own (updateNzMaybe acc false x) := by
  refine eq_of_flags fun k => ?_
  by_cases hk : k ∈ lazyFlags
  · rw [hs _ k hk]
    exact flag_updateNz_lazy acc (fun _ hj => hown.mode hj x) hk
  · rw [updateNzMaybe_settled acc (hown.stored hx) false k hk]
    exact (hown.settled (updateNzMaybe_settled acc hx false) k hk).symm

theorem updateNzMaybe_sticky (hw : Sticky w) (e : Bool) (x : Word) :
    updateNzMaybe acc e (x ||| w) = updateNzMaybe acc e x ||| w := by
  cases e
  · have hclear {k : Nat} (hk : k ≠ Sr.l ∧ k ≠ Sr.s) : flag w k = false := by
      rw [Bool.eq_false_iff]
      exact fun h => (hw k h).elim hk.1 hk.2
    have hsign : signBit (x ||| w) = signBit x := by
      rw [signBit_eq, signBit_eq, flag_or, flag_or, hclear (by decide), hclear (by decide),
        Bool.or_false, Bool.or_false]
    refine eq_of_flags fun k => ?_
    rw [flag_or, flag_updateNzMaybe, flag_updateNzMaybe, flag_jitUpdateNz, flag_jitUpdateNz,
      extended, extended, unnormalized, unnormalized, hsign]
    split_ifs with he hu hn hz
    · rw [hclear (by simp +decide [he]), Bool.or_false]
    · rw [hclear (by simp +decide [hu]), Bool.or_false]
    · rw [hclear (by simp +decide [hn]), Bool.or_false]
    · rw [hclear (by simp +decide [hz]), Bool.or_false]
    · rw [flag_or]
      cases hk : flag w k with
      | false => simp
      | true => rcases hw k hk with rfl | rfl <;> simp +decide
  · rfl

end Words

namespace Emitter.PendingFlags

variable {flags : PendingFlags} {x y w needs : Word} (hp : flags.Proper) (hn : IsBit needs)

theorem updateNz_settled (hx : store x = x) (e : Bool) : SameSettled x (flags.updateNz e x) := by
  unfold updateNz
  split
  · exact updateNzMaybe_settled _ hx e
  · exact fun _ _ => rfl

theorem updateNz_stored (hx : store x = x) (e : Bool) :
    store (flags.updateNz e x) = flags.updateNz e x := by
  unfold updateNz
  split
  · exact updateNzMaybe_stored _ hx e
  · exact hx

include hp hn

/-- What a computation leaves out where E, U, N and Z are dead, it leaves out nowhere else. -/
theorem materialize_settled (hx : store x = x) (hy : store y = y) (h : SameSettled x y)
    (e e' : Bool) : SameSettled (flags.materialize e needs x) (flags.materialize e' needs y) := by
  obtain ⟨own, hown, -, heq⟩ := materialize_eq hp hn
  rw [heq, heq]
  exact hown.settled (((updateNz_settled hx e).symm.trans h).trans (updateNz_settled hy e'))

/-- A computation that rewrites E, U, N and Z does not look at them. -/
theorem materialize_congr (hr : flags.rewritesEunz = true) (h : SameSettled x y) :
    flags.materialize false needs x = flags.materialize false needs y := by
  obtain ⟨own, -, -, heq⟩ := materialize_eq hp hn
  rw [rewritesEunz_eq, Option.isSome_iff_exists] at hr
  obtain ⟨v, hv⟩ := hr
  rw [heq, heq, updateNz, updateNz, hv]
  exact congrArg own (updateNzMaybe_congr v h)

/-- E, U, N and Z, left out where they were dead, may be updated later. -/
theorem materialize_late {v : BitVec 64} (hv : flags.nzResult56 = some v) (hx : store x = x) :
    updateNzMaybe v false (flags.materialize true needs x) = flags.materialize false needs x := by
  obtain ⟨own, hown, hs, heq⟩ := materialize_eq hp hn
  have hr : flags.rewritesEunz = true := by rw [rewritesEunz_eq, hv, Option.isSome_some]
  have hnz (e : Bool) : flags.updateNz e x = updateNzMaybe v e x := by rw [updateNz, hv]
  rw [heq, heq, hnz, hnz]
  exact hown.updateNz v (hs hr) hx

theorem materialize_stored (hx : store x = x) (e : Bool) :
    store (flags.materialize e needs x) = flags.materialize e needs x := by
  obtain ⟨own, hown, -, heq⟩ := materialize_eq hp hn
  rw [heq]
  exact hown.stored (updateNz_stored hx e)

theorem materialize_mode (hx : store x = x) (e : Bool) {k : Nat} (hk : k ∈ controlBits) :
    flag (flags.materialize e needs x) k = flag x k := by
  obtain ⟨own, hown, -, heq⟩ := materialize_eq hp hn
  have hout : k ∉ lazyFlags := by
    revert k
    decide
  rw [heq, hown.mode hk]
  exact updateNz_settled hx e k hout

/-- The bits a move sets may be set before or behind it. -/
theorem materialize_sticky (hw : Sticky w) (e : Bool) (x : Word) :
    flags.materialize e needs (x ||| w) = flags.materialize e needs x ||| w := by
  obtain ⟨own, hown, -, heq⟩ := materialize_eq hp hn
  have hnz : flags.updateNz e (x ||| w) = flags.updateNz e x ||| w := by
    unfold updateNz
    split
    · exact updateNzMaybe_sticky _ hw e x
    · rfl
  rw [heq, heq, hnz, hown.sticky hw]

end Emitter.PendingFlags

end Dsp56300
