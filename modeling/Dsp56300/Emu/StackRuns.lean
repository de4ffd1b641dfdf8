import Dsp56300.Emu.StackMirror

/-! The hardware stack is a last-in first-out list while it does not overflow. -/

namespace Dsp56300

/-- The pairs up to the stack pointer, top first, and the SSL halves above it, nearest first:
a push of SSH alone brings the nearest one back. -/
structure Entries where
  live : List (BitVec 24 × BitVec 24)
  dead : List (BitVec 24)

/-- The operations on the stack. -/
inductive StackOp where
  | stackPush (sshVal sslVal : Word)
  | stackPop
  | jitWriteSsh (value : Word)
  | jitReadSsh
  | jitWriteSshTos (value : Word)
  | jitWriteSsl (value : Word)

/-- What an operation reads and leaves, if it keeps the depth between 0 and 15 and rewrites no
entry of an empty stack. -/
def Entries.step (e : Entries) : StackOp → Option (List (BitVec 24) × Entries)
  | .stackPush v w => match e.dead with
    | [] => none
    | _ :: dead => some ([], ⟨(v.setWidth 24, w.setWidth 24) :: e.live, dead⟩)
  | .stackPop => match e.live with
    | [] => none
    | (v, w) :: live => some ([v, w], ⟨live, w :: e.dead⟩)
  | .jitWriteSsh v => match e.dead with
    | [] => none
    | w :: dead => some ([], ⟨(v.setWidth 24, w) :: e.live, dead⟩)
  | .jitReadSsh => match e.live with
    | [] => none
    | (v, w) :: live => some ([v], ⟨live, w :: e.dead⟩)
  | .jitWriteSshTos v => match e.live with
    | [] => none
    | (_, w) :: live => some ([], ⟨(v.setWidth 24, w) :: live, e.dead⟩)
  | .jitWriteSsl w => match e.live with
    | [] => none
    | (v, _) :: live => some ([], ⟨(v, w.setWidth 24) :: live, e.dead⟩)

def Entries.run : Entries → List StackOp → Option (List (List (BitVec 24)) × Entries)
  | e, [] => some ([], e)
  | e, op :: ops => do
    let (out, e) ← e.step op
    let (outs, e) ← e.run ops
    return (out :: outs, e)

namespace HwStack

def slot (n : Nat) : Fin 16 := Fin.ofNat 16 n

def pair (h : HwStack) (n : Nat) : BitVec 24 × BitVec 24 := (h.slots 0 (slot n), h.slots 1 (slot n))

/-- The entries of a stack of depth `k`. -/
def entries (h : HwStack) (k : Nat) : Entries where
  live := (List.range k).reverse.map fun i => h.pair (i + 1)
  dead := (List.range (15 - k)).map fun i => h.slots 1 (slot (k + 1 + i))

/-- Pointer and counter name the depth, with no error latched. -/
structure Deep (h : HwStack) (k : Nat) : Prop where
  le : k ≤ 15
  sp : h.sp = BitVec.ofNat 6 k
  sc : h.sc = BitVec.ofNat 5 k

theorem slotOf_ofNat : ∀ k : Fin 16, slotOf (BitVec.ofNat 6 k) = slot k := by decide

theorem up_ofNat : ∀ k : Fin 15, up (BitVec.ofNat 6 k) = BitVec.ofNat 6 (k + 1) := by decide

theorem down_ofNat : ∀ k : Fin 15, down (BitVec.ofNat 6 (k + 1)) = BitVec.ofNat 6 k := by decide

theorem slot_inj {m n : Nat} (hm : m < 16) (hn : n < 16) : slot m = slot n ↔ m = n := by
  rw [slot, slot, Fin.ext_iff, Fin.val_ofNat, Fin.val_ofNat, Nat.mod_eq_of_lt hm,
    Nat.mod_eq_of_lt hn]

theorem slot_ne_zero {n : Nat} (hn : n < 15) : slot (n + 1) ≠ 0 := by
  intro h0
  have he := (slot_inj (by omega) (by decide : 0 < 16)).mp h0
  omega

variable {h g : HwStack} {k : Nat}

theorem Deep.slotOf (hd : h.Deep k) : slotOf h.sp = slot k := by
  rw [hd.sp]
  exact slotOf_ofNat ⟨k, Nat.lt_succ_of_le hd.le⟩

theorem live_succ : (h.entries (k + 1)).live = h.pair (k + 1) :: (h.entries k).live := by
  simp [entries, List.range_succ]

theorem dead_succ (hk : k < 15) :
    (h.entries k).dead = h.slots 1 (slot (k + 1)) :: (h.entries (k + 1)).dead := by
  have hl : 15 - k = 15 - (k + 1) + 1 := by omega
  simp only [entries]
  rw [hl, List.range_succ_eq_map, List.map_cons, List.map_map]
  refine congrArg _ (List.map_congr_left fun i _ => ?_)
  simp only [Function.comp, Nat.succ_eq_add_one]
  rw [show k + 1 + (i + 1) = k + 1 + 1 + i by omega]

theorem entries_live : h.entries (k + 1) =
    ⟨(h.slots 0 (slot (k + 1)), h.slots 1 (slot (k + 1))) :: (h.entries k).live,
      (h.entries (k + 1)).dead⟩ := by
  rw [← pair, ← live_succ]

theorem entries_dead (hk : k < 15) : h.entries k =
    ⟨(h.entries k).live, h.slots 1 (slot (k + 1)) :: (h.entries (k + 1)).dead⟩ := by
  rw [← dead_succ hk]

/-- A full stack has no entry above it. -/
theorem Deep.full (hd : h.Deep k) (hk : ¬ k < 15) :
    h.entries k = ⟨(h.entries k).live, []⟩ := by
  obtain rfl : k = 15 := Nat.le_antisymm hd.le (Nat.le_of_not_lt hk)
  rfl

/-- Stacks with the same slots below the top have the same entries there. -/
theorem live_congr (hg : ∀ i, i < k → g.pair (i + 1) = h.pair (i + 1)) :
    (g.entries k).live = (h.entries k).live := by
  refine List.map_congr_left fun i hi => hg i ?_
  simpa using hi

theorem dead_congr (hg : ∀ i, k < i → i ≤ 15 → g.slots 1 (slot i) = h.slots 1 (slot i)) :
    (g.entries k).dead = (h.entries k).dead := by
  refine List.map_congr_left fun i hi => hg _ (by omega) ?_
  rw [List.mem_range] at hi
  omega

theorem setSlot_pair (h : HwStack) (half : Fin 2) {m n : Nat} (hm : m < 16) (hn : n < 16)
    (hne : n ≠ m) (v : BitVec 24) : (h.setSlot half (slot m) v).pair n = h.pair n := by
  have hs : slot n ≠ slot m := fun he => hne ((slot_inj hn hm).mp he)
  unfold pair setSlot
  by_cases h0 : half = 0
  · subst h0
    simp [hs]
  · obtain rfl : half = 1 := by omega
    simp [hs]

/-- Rewriting half of the top entry, where the depth is `k + 1`. -/
theorem setSlot_entries (h : HwStack) (half : Fin 2) (hk : k < 15) (v : BitVec 24) :
    (h.setSlot half (slot (k + 1)) v).entries (k + 1) =
      ⟨(h.setSlot half (slot (k + 1)) v).pair (k + 1) :: (h.entries k).live,
        (h.entries (k + 1)).dead⟩ := by
  have hlive : ((h.setSlot half (slot (k + 1)) v).entries k).live = (h.entries k).live :=
    live_congr fun i hi => setSlot_pair h half (by omega) (by omega) (by omega) v
  have hdead : ((h.setSlot half (slot (k + 1)) v).entries (k + 1)).dead =
      (h.entries (k + 1)).dead :=
    dead_congr fun i hi hi' => congrArg Prod.snd
      (setSlot_pair h half (by omega) (by omega) (by omega) v)
  rw [← hlive, ← live_succ, ← hdead]

theorem Deep.grow (hd : h.Deep k) (hk : k < 15) :
    h.grow.Deep (k + 1) ∧ HwStack.slotOf (up h.sp) = slot (k + 1) := by
  have hup : up h.sp = BitVec.ofNat 6 (k + 1) := by
    rw [hd.sp]
    exact up_ofNat ⟨k, hk⟩
  have hsc : h.sc + 1 = BitVec.ofNat 5 (k + 1) := by
    rw [hd.sc, BitVec.ofNat_add]
    rfl
  refine ⟨⟨by omega, hup, hsc⟩, ?_⟩
  rw [hup]
  exact slotOf_ofNat ⟨k + 1, by omega⟩

theorem Deep.pushHigh (hd : h.Deep k) (hk : k < 15) (v : BitVec 24) :
    (h.pushHigh v).Deep (k + 1) ∧
      (h.pushHigh v).entries (k + 1) =
        ⟨(v, h.slots 1 (slot (k + 1))) :: (h.entries k).live, (h.entries (k + 1)).dead⟩ := by
  obtain ⟨hg, hslot⟩ := hd.grow hk
  unfold HwStack.pushHigh
  rw [hslot]
  refine ⟨⟨hg.le, hg.sp, hg.sc⟩, ?_⟩
  rw [setSlot_entries h.grow 0 hk]
  simp [pair, setSlot, HwStack.grow, entries]

theorem Deep.push (hd : h.Deep k) (hk : k < 15) (v w : BitVec 24) :
    (h.push v w).Deep (k + 1) ∧
      (h.push v w).entries (k + 1) = ⟨(v, w) :: (h.entries k).live, (h.entries (k + 1)).dead⟩ := by
  obtain ⟨hp, he⟩ := hd.pushHigh hk v
  have hslot := (hd.grow hk).2
  have htop : (h.pushHigh v).pair (k + 1) = (v, h.slots 1 (slot (k + 1))) ∧
      ((h.pushHigh v).entries k).live = (h.entries k).live := by
    have hl := congrArg Entries.live he
    rw [live_succ] at hl
    exact List.cons_eq_cons.mp hl
  unfold HwStack.push
  rw [hslot]
  refine ⟨⟨hp.le, hp.sp, hp.sc⟩, ?_⟩
  rw [setSlot_entries _ 1 hk, he, htop.2]
  have hv : (h.pushHigh v).slots 0 (slot (k + 1)) = v := congrArg Prod.fst htop.1
  simp [pair, setSlot, hv]

theorem Deep.pop (hd : h.Deep (k + 1)) : h.pop.Deep k := by
  have hle := hd.le
  refine ⟨by omega, ?_, ?_⟩
  · change down h.sp = _
    rw [hd.sp]
    exact down_ofNat ⟨k, by omega⟩
  · change h.sc - 1 = _
    rw [hd.sc, BitVec.ofNat_add]
    exact BitVec.add_sub_cancel _ _

theorem Deep.writeTop (hd : h.Deep (k + 1)) (v : BitVec 24) :
    (h.writeTop v).Deep (k + 1) ∧ (h.writeTop v).entries (k + 1) =
      ⟨(v, h.slots 1 (slot (k + 1))) :: (h.entries k).live, (h.entries (k + 1)).dead⟩ := by
  have hle := hd.le
  have hne : slot (k + 1) ≠ 0 := slot_ne_zero (by omega)
  unfold HwStack.writeTop
  rw [if_neg (hd.slotOf ▸ hne), hd.slotOf]
  refine ⟨⟨hd.le, hd.sp, hd.sc⟩, ?_⟩
  rw [setSlot_entries h 0 (by omega)]
  simp [pair, setSlot]

theorem Deep.writeLow (hd : h.Deep (k + 1)) (w : BitVec 24) :
    (h.writeLow w).Deep (k + 1) ∧ (h.writeLow w).entries (k + 1) =
      ⟨(h.slots 0 (slot (k + 1)), w) :: (h.entries k).live, (h.entries (k + 1)).dead⟩ := by
  have hle := hd.le
  unfold HwStack.writeLow
  rw [hd.slotOf]
  refine ⟨⟨hd.le, hd.sp, hd.sc⟩, ?_⟩
  rw [setSlot_entries h 1 (by omega)]
  simp [pair, setSlot]

end HwStack

namespace DspState

open HwStack

variable {σ : Type}

/-- An operation and what it reads. -/
def exec (s : DspState σ) : StackOp → List Word × DspState σ
  | .stackPush v w => ([], s.stackPush v w)
  | .stackPop => ([s.stackPop.1.1, s.stackPop.1.2], s.stackPop.2)
  | .jitWriteSsh v => ([], s.jitWriteSsh v)
  | .jitReadSsh => ([s.jitReadSsh.1], s.jitReadSsh.2)
  | .jitWriteSshTos v => ([], s.jitWriteSshTos v)
  | .jitWriteSsl v => ([], s.jitWriteSsl v)

def execAll (s : DspState σ) : List StackOp → List (List Word) × DspState σ
  | [] => ([], s)
  | op :: ops => ((s.exec op).1 :: ((s.exec op).2.execAll ops).1, ((s.exec op).2.execAll ops).2)

/-- The entries in the slots of a state whose stack is `k` deep. -/
def entries (s : DspState σ) (k : Nat) : Entries where
  live := (List.range k).reverse.map fun i =>
    ((s.stack 0 (slot (i + 1))).setWidth 24, (s.stack 1 (slot (i + 1))).setWidth 24)
  dead := (List.range (15 - k)).map fun i => (s.stack 1 (slot (k + 1 + i))).setWidth 24

/-- The state holds the entries, with no stack error latched. -/
def Holds (s : DspState σ) (e : Entries) : Prop :=
  ∃ h k, s.Represents h ∧ h.Deep k ∧ e = h.entries k

theorem Represents.entries {s : DspState σ} {h : HwStack} (hs : s.Represents h) (k : Nat) :
    s.entries k = h.entries k := by
  simp [DspState.entries, HwStack.entries, pair, hs.slots]

variable {s : DspState σ} {h : HwStack} {k : Nat}

theorem not_pushFaults (hs : s.Represents h) (hd : h.Deep k) (hk : k < 15) : ¬ s.PushFaults := by
  refine hs.room ?_
  rw [hd.slotOf, Fin.lt_def, slot, Fin.val_ofNat, Nat.mod_eq_of_lt (by omega)]
  exact hk

theorem not_popFaults (hs : s.Represents h) (hd : h.Deep (k + 1)) : ¬ s.PopFaults := by
  have hle := hd.le
  refine hs.filled ?_
  rw [hd.slotOf]
  exact slot_ne_zero (by omega)

/-- Rewriting the top of a nonempty stack posts nothing. -/
theorem jitWriteSshTos_interrupts (hs : s.Represents h) (hd : h.Deep (k + 1)) (v : Word) :
    (s.jitWriteSshTos v).interrupts = s.interrupts := by
  have hle := hd.le
  have hne : slot (k + 1) ≠ 0 := slot_ne_zero (by omega)
  simp only [jitWriteSshTos, hs.sp, (slotOf_spec h.sp).1, hd.slotOf, ne_eq, hne, not_false_eq_true,
    if_true]
  rfl

/-- One operation does to the state what it does to the entries, and posts nothing. -/
theorem Holds.exec {e e' : Entries} {op : StackOp} {out : List (BitVec 24)} (he : s.Holds e)
    (hstep : e.step op = some (out, e')) :
    (s.exec op).1 = out.map (·.setWidth 32) ∧ (s.exec op).2.Holds e' ∧
      (s.exec op).2.interrupts = s.interrupts := by
  obtain ⟨h, k, hs, hd, rfl⟩ := he
  cases op with
  | stackPush v w =>
    by_cases hk : k < 15
    · rw [entries_dead hk] at hstep
      obtain ⟨rfl, rfl⟩ := Prod.mk.inj (Option.some.inj hstep)
      obtain ⟨hd', he⟩ := hd.push hk (v.setWidth 24) (w.setWidth 24)
      refine ⟨rfl, ⟨_, k + 1, stackPush_represents hs v w, hd', he.symm⟩, ?_⟩
      exact (stackPush_interrupts s v w).trans (if_neg (not_pushFaults hs hd hk))
    · rw [hd.full hk] at hstep
      cases hstep
  | jitWriteSsh v =>
    by_cases hk : k < 15
    · rw [entries_dead hk] at hstep
      obtain ⟨rfl, rfl⟩ := Prod.mk.inj (Option.some.inj hstep)
      obtain ⟨hd', he⟩ := hd.pushHigh hk (v.setWidth 24)
      refine ⟨rfl, ⟨_, k + 1, jitWriteSsh_represents hs v, hd', he.symm⟩, ?_⟩
      exact (jitWriteSsh_interrupts s v).trans (if_neg (not_pushFaults hs hd hk))
    · rw [hd.full hk] at hstep
      cases hstep
  | stackPop =>
    cases k with
    | zero => cases hstep
    | succ k =>
      have hk := hd.le
      rw [entries_live] at hstep
      obtain ⟨rfl, rfl⟩ := Prod.mk.inj (Option.some.inj hstep)
      refine ⟨?_, ⟨_, k, stackPop_represents hs, hd.pop, (entries_dead (by omega)).symm⟩, ?_⟩
      · simp only [DspState.exec, stackPop_pair hs, hd.slotOf]
        rfl
      · exact (stackPop_interrupts s).trans (if_neg (not_popFaults hs hd))
  | jitReadSsh =>
    cases k with
    | zero => cases hstep
    | succ k =>
      have hk := hd.le
      rw [entries_live] at hstep
      obtain ⟨rfl, rfl⟩ := Prod.mk.inj (Option.some.inj hstep)
      refine ⟨?_, ⟨_, k, stackPop_represents hs, hd.pop, (entries_dead (by omega)).symm⟩, ?_⟩
      · simp only [DspState.exec, jitReadSsh, stackPop_pair hs, hd.slotOf]
        rfl
      · exact (stackPop_interrupts s).trans (if_neg (not_popFaults hs hd))
  | jitWriteSshTos v =>
    cases k with
    | zero => cases hstep
    | succ k =>
      rw [entries_live] at hstep
      obtain ⟨rfl, rfl⟩ := Prod.mk.inj (Option.some.inj hstep)
      obtain ⟨hd', he⟩ := hd.writeTop (v.setWidth 24)
      refine ⟨rfl, ⟨_, k + 1, jitWriteSshTos_represents hs v, hd', he.symm⟩, ?_⟩
      exact jitWriteSshTos_interrupts hs hd v
  | jitWriteSsl v =>
    cases k with
    | zero => cases hstep
    | succ k =>
      rw [entries_live] at hstep
      obtain ⟨rfl, rfl⟩ := Prod.mk.inj (Option.some.inj hstep)
      obtain ⟨hd', he⟩ := hd.writeLow (v.setWidth 24)
      exact ⟨rfl, ⟨_, k + 1, jitWriteSsl_represents hs v, hd', he.symm⟩, rfl⟩

theorem Holds.execAll {e e' : Entries} {ops : List StackOp} {outs : List (List (BitVec 24))}
    (he : s.Holds e) (hrun : e.run ops = some (outs, e')) :
    (s.execAll ops).1 = outs.map (·.map (·.setWidth 32)) ∧ (s.execAll ops).2.Holds e' ∧
      (s.execAll ops).2.interrupts = s.interrupts := by
  induction ops generalizing s e outs with
  | nil =>
    obtain ⟨rfl, rfl⟩ := Prod.mk.inj (Option.some.inj hrun)
    exact ⟨rfl, he, rfl⟩
  | cons op ops ih =>
    simp only [Entries.run, Option.bind_eq_bind, Option.pure_def, Option.bind_eq_some_iff,
      Option.some.injEq, Prod.mk.injEq] at hrun
    obtain ⟨⟨out, e₁⟩, hstep, ⟨outs₁, e₂⟩, hrest, rfl, rfl⟩ := hrun
    obtain ⟨hout, hmid, hpost⟩ := he.exec hstep
    obtain ⟨houts, hend, hposts⟩ := ih hmid hrest
    refine ⟨?_, hend, hposts.trans hpost⟩
    rw [DspState.execAll, hout, houts, List.map_cons]

/-- SP and SC name the depth, and the slots hold the entries. -/
theorem Holds.depth {e : Entries} (he : s.Holds e) :
    e.live.length ≤ 15 ∧ s.registers Reg.sp = BitVec.ofNat 32 e.live.length ∧
      s.registers Reg.sc = BitVec.ofNat 32 e.live.length ∧ s.entries e.live.length = e := by
  obtain ⟨h, k, hs, hd, rfl⟩ := he
  have hl : (h.entries k).live.length = k := by simp [HwStack.entries]
  have hle := hd.le
  rw [hl]
  refine ⟨hle, ?_, ?_, hs.entries k⟩
  · rw [hs.sp, hd.sp]
    exact BitVec.setWidth_ofNat_of_le_of_lt (by decide) (by omega)
  · rw [hs.sc, hd.sc]
    exact BitVec.setWidth_ofNat_of_le_of_lt (by decide) (by omega)

/-- From a mirrored stack of depth `k`, operations that keep the depth between 0 and 15 read and
leave what they do of the list of entries: SP and SC count it, and no stack error is posted. -/
theorem stack_lifo (hm : s.Mirrored) (hk : k ≤ 15) (hsp : s.registers Reg.sp = BitVec.ofNat 32 k)
    (hsc : s.registers Reg.sc = BitVec.ofNat 32 k) {ops : List StackOp} {e : Entries}
    {outs : List (List (BitVec 24))} (hrun : (s.entries k).run ops = some (outs, e)) :
    (s.execAll ops).1 = outs.map (·.map (·.setWidth 32)) ∧
      (s.execAll ops).2.registers Reg.sp = BitVec.ofNat 32 e.live.length ∧
      (s.execAll ops).2.registers Reg.sc = BitVec.ofNat 32 e.live.length ∧
      (s.execAll ops).2.entries e.live.length = e ∧ e.live.length ≤ 15 ∧
      (s.execAll ops).2.interrupts = s.interrupts := by
  obtain ⟨h, hs⟩ := hm
  have hd : h.Deep k := by
    refine ⟨hk, ?_, ?_⟩
    · have h6 := congrArg (BitVec.setWidth 6) (hs.sp.symm.trans hsp)
      simpa [BitVec.setWidth_ofNat_of_le] using h6
    · have h5 := congrArg (BitVec.setWidth 5) (hs.sc.symm.trans hsc)
      simpa [BitVec.setWidth_ofNat_of_le] using h5
  have he : s.Holds (s.entries k) := ⟨h, k, hs, hd, hs.entries k⟩
  obtain ⟨houts, hend, hpost⟩ := he.execAll hrun
  obtain ⟨hle, hp, hc, hl⟩ := hend.depth
  exact ⟨houts, hp, hc, hl, hle, hpost⟩

/-- A pushed pair comes back, and an SSH pushed on its slot finds the SSL it left. -/
theorem stack_lifo_stale :
    ((new ⟨[], [], []⟩ ⟨fun _ => 0, ()⟩ : DspState Unit).execAll
      [.stackPush 1 2, .stackPop, .jitWriteSsh 3, .stackPop]).1 = [[], [1, 2], [], [3, 2]] := by
  have hrun : ((new ⟨[], [], []⟩ ⟨fun _ => 0, ()⟩ : DspState Unit).entries 0).run
      [.stackPush 1 2, .stackPop, .jitWriteSsh 3, .stackPop] =
      some ([[], [1, 2], [], [3, 2]], ⟨[], [2, 0, 0, 0, 0, 0, 0, 0, 0, 0, 0, 0, 0, 0, 0]⟩) := rfl
  exact (stack_lifo (new_mirrored _ _) (by decide) rfl rfl hrun).1

/-- Where SSH does not show the slot SP names, no pair is the top for both a pop and a push
followed by two pops. -/
theorem unmirrored_top :
    let s := (((new ⟨[], [], []⟩ ⟨fun _ => 0, ()⟩ : DspState Unit).setReg Reg.sp 1).setReg Reg.sc
      1).setSlot 0 1 5
    s.registers Reg.sp = 1 ∧ s.registers Reg.sc = 1 ∧
      ¬ ∃ top, (s.execAll [.stackPop]).1 = [top] ∧
        (s.execAll [.stackPush 0 0, .stackPop, .stackPop]).1 = [[], [0, 0], top] := by
  refine ⟨rfl, rfl, fun h => ?_⟩
  obtain ⟨top, h1, h2⟩ := h
  obtain rfl : [0, 0] = top := List.singleton_inj.mp h1
  revert h2
  decide

end DspState

end Dsp56300
