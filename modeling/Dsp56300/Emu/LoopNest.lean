import Dsp56300.Emu.LoopContext

/-! What `advance_pc` does inside a nest of hardware loops. -/

namespace Dsp56300

open Emitter

variable {σ : Type}

namespace DspState

variable {s t : DspState σ} {c : LoopContext}

/-- The state in which `advance_pc` looks for the end of a loop. -/
def arrived (s : DspState σ) : DspState σ :=
  let t := s.checkUnimplementedModes.advanceRep
  { t with pc := maskPc (t.pc + t.pcAdvance) }

theorem advancePc_arrived (s : DspState σ) : s.advancePc = s.arrived.advanceDo := rfl

/-- Nothing of the loop context is touched. -/
structure KeepsLoop (s t : DspState σ) : Prop where
  la : t.registers Reg.la = s.registers Reg.la
  lc : t.registers Reg.lc = s.registers Reg.lc
  flags : t.loopFlags = s.loopFlags
  stackPart : t.stackPart = s.stackPart
  posted : t.interrupts.pending Interrupt.stackError = s.interrupts.pending Interrupt.stackError
  loopRep : t.loopRep = s.loopRep

theorem KeepsLoop.of_data (h : t.data = s.data) (hr : t.loopRep = s.loopRep) : s.KeepsLoop t := by
  have hg := registers_of_data h
  have hk : t.data.stack = s.data.stack := by rw [h]
  have hi : t.data.interrupts = s.data.interrupts := by rw [h]
  exact ⟨congrFun hg _, congrFun hg _, congrArg (· &&& lfFvMask) (congrFun hg Reg.sr),
    congrArg₂ (fun (r : RegIdx → Word) (k : Fin 2 → Fin 16 → Word) =>
      (r Reg.sp, r Reg.sc, r Reg.ssh, r Reg.ssl, k)) hg hk,
    congrArg (InterruptPipeline.pending · _) hi, hr⟩

/-- PC is no part of the context. -/
theorem keepsLoop_pc (s : DspState σ) (p a : Word) :
    s.KeepsLoop { s with pc := p, pcAdvance := a } := ⟨rfl, rfl, rfl, rfl, rfl, rfl⟩

theorem InContext.keeps (hs : s.InContext c) (h : s.KeepsLoop t) : t.InContext c := by
  obtain ⟨g, hg, hcov⟩ := hs.stack
  exact ⟨h.la.trans hs.la, h.lc.trans hs.lc, h.flags.trans hs.flags,
    ⟨g, hg.congr h.stackPart, hcov⟩, h.posted.trans hs.posted, h.loopRep.trans hs.loopRep⟩

/-- A retiring REP cuts the fault budget only. -/
theorem keepsLoop_truncate (s : DspState σ) : s.KeepsLoop s.repTruncateArmedWindow := by
  unfold repTruncateArmedWindow
  split
  · exact ⟨rfl, rfl, rfl, rfl, rfl, rfl⟩
  · exact ⟨rfl, rfl, rfl, rfl, rfl, rfl⟩

/-- LC taken back from TEMP, as where a REP retires. -/
def repRestored (s : DspState σ) : DspState σ :=
  { s with loopRep := false }.setReg Reg.lc (s.registers Reg.temp)

/-- Between two iterations of a stepped REP in a loop context. -/
structure InRep (t : DspState σ) (c : LoopContext) : Prop where
  restored : t.repRestored.InContext c
  loopRep : t.loopRep = true
  pcOnRep : t.pcOnRep = false

theorem InRep.keeps (hs : s.InRep c) (h : s.KeepsLoop t) (ho : t.pcOnRep = s.pcOnRep)
    (ht : t.registers Reg.temp = s.registers Reg.temp) : t.InRep c := by
  refine ⟨hs.restored.keeps ⟨?_, ?_, ?_, ?_, h.posted, rfl⟩, h.loopRep.trans hs.loopRep,
    ho.trans hs.pcOnRep⟩
  · rw [repRestored, repRestored, setReg_other _ _ (by decide), setReg_other _ _ (by decide)]
    exact h.la
  · rw [repRestored, repRestored, setReg_same, setReg_same]
    exact ht
  · rw [loopFlags, loopFlags, repRestored, repRestored, setReg_other _ _ (by decide),
      setReg_other _ _ (by decide)]
    exact h.flags
  · rw [repRestored, repRestored, stackPart_setReg _ _ (by decide),
      stackPart_setReg _ _ (by decide)]
    exact h.stackPart

theorem repRestored_data (h : s.data = t.data) : s.repRestored.data = t.repRestored.data := by
  unfold repRestored
  rw [congrFun (registers_of_data h) Reg.temp]
  exact data_setReg (s := { s with loopRep := false }) (t := { t with loopRep := false }) h
    Reg.lc _

/-! The REP half of `advance_pc`, and PC. -/

theorem arrived_plain (hr : s.loopRep = false) :
    s.KeepsLoop s.arrived ∧ s.arrived.pc = maskPc (s.pc + s.pcAdvance) ∧
      s.arrived.pcAdvance = s.pcAdvance := by
  obtain ⟨hsame, ha⟩ := same_checkUnimplementedModes s
  have hrep : s.checkUnimplementedModes.advanceRep = s.checkUnimplementedModes := by
    unfold advanceRep
    rw [if_pos (by simp [hsame.loopRep, hr])]
  unfold arrived
  rw [hrep]
  exact ⟨.of_data hsame.data hsame.loopRep, congrArg₂ (fun p a => maskPc (p + a)) hsame.pc ha, ha⟩

/-- On a REP with something to repeat. -/
theorem arrived_first (hs : s.repRestored.InContext c) (hr : s.loopRep = true)
    (ho : s.pcOnRep = true) (hlc : s.registers Reg.lc ≠ 0) :
    s.arrived.InRep c ∧ s.arrived.pc = maskPc (s.pc + s.pcAdvance) := by
  obtain ⟨hsame, ha⟩ := same_checkUnimplementedModes s
  have hrep := advanceRep_first (hsame.loopRep.trans hr) (hsame.pcOnRep.trans ho)
  rw [congrFun (registers_of_data hsame.data) Reg.lc, if_neg hlc] at hrep
  unfold arrived
  rw [hrep]
  refine ⟨⟨hs.keeps ?_, hsame.loopRep.trans hr, rfl⟩,
    congrArg₂ (fun p a => maskPc (p + a)) hsame.pc ha⟩
  exact .of_data (repRestored_data hsame.data) rfl

/-- On a REP with nothing to repeat. -/
theorem arrived_annulled (hs : s.repRestored.InContext c) (hr : s.loopRep = true)
    (ho : s.pcOnRep = true) (hlc : s.registers Reg.lc = 0) :
    s.arrived.InContext c ∧ s.arrived.pc = maskPc (s.pc + (s.pcAdvance + 1)) ∧
      s.arrived.pcAdvance = s.pcAdvance + 1 := by
  obtain ⟨hsame, ha⟩ := same_checkUnimplementedModes s
  have hrep := advanceRep_first (hsame.loopRep.trans hr) (hsame.pcOnRep.trans ho)
  rw [congrFun (registers_of_data hsame.data) Reg.lc, if_pos hlc] at hrep
  let u := { s.checkUnimplementedModes.repRestored with
    pcAdvance := s.checkUnimplementedModes.pcAdvance + 1 }
  have hu : s.checkUnimplementedModes.advanceRep =
      { u.repTruncateArmedWindow with pcOnRep := false } := hrep
  obtain ⟨hp, hv, hl, -⟩ := truncate_frame u
  have hctx : u.repTruncateArmedWindow.InContext c :=
    ((hs.keeps (.of_data (repRestored_data hsame.data) rfl)).keeps
      (t := u) ⟨rfl, rfl, rfl, rfl, rfl, rfl⟩).keeps (keepsLoop_truncate u)
  unfold arrived
  rw [hu]
  refine ⟨hctx.keeps ⟨rfl, rfl, rfl, rfl, rfl, rfl⟩, ?_, ?_⟩
  · change maskPc (u.repTruncateArmedWindow.pc + u.repTruncateArmedWindow.pcAdvance) = _
    rw [hp, hv]
    exact congrArg₂ (fun p a => maskPc (p + (a + 1))) hsame.pc ha
  · exact hv.trans (congrArg (· + 1) ha)

/-- Behind an iteration: again, or REP retires. -/
theorem arrived_repeating (hs : s.InRep c) :
    (s.arrived.InRep c ∧ s.arrived.pc = maskPc s.pc ∧ s.arrived.pcAdvance = 0) ∨
      (s.arrived.InContext c ∧ s.arrived.pc = maskPc (s.pc + s.pcAdvance) ∧
        s.arrived.pcAdvance = s.pcAdvance) := by
  obtain ⟨hsame, ha⟩ := same_checkUnimplementedModes s
  have hr : s.checkUnimplementedModes.Repeating s.pc :=
    ⟨hsame.loopRep.trans hs.loopRep, hsame.pcOnRep.trans hs.pcOnRep, hsame.pc⟩
  have hrep := advanceRep_repeating hr
  by_cases hlc : maskLc (s.checkUnimplementedModes.registers Reg.lc - 1) = 0
  · right
    rw [if_pos hlc] at hrep
    obtain ⟨hp, hv, hl, -⟩ := truncate_frame s.checkUnimplementedModes.repRestored
    have hctx : s.checkUnimplementedModes.repRestored.repTruncateArmedWindow.InContext c :=
      (hs.restored.keeps (.of_data (repRestored_data hsame.data) rfl)).keeps
        (keepsLoop_truncate _)
    unfold arrived
    rw [hrep]
    refine ⟨hctx.keeps ⟨rfl, rfl, rfl, rfl, rfl, rfl⟩, ?_, hv.trans ha⟩
    change maskPc (s.checkUnimplementedModes.repRestored.repTruncateArmedWindow.pc +
      s.checkUnimplementedModes.repRestored.repTruncateArmedWindow.pcAdvance) = _
    rw [hp, hv]
    exact congrArg₂ (fun p a => maskPc (p + a)) hsame.pc ha
  · left
    rw [if_neg hlc] at hrep
    unfold arrived
    rw [hrep]
    refine ⟨⟨hs.restored.keeps ?_, hr.loopRep, hr.pcOnRep⟩, ?_, rfl⟩
    · refine .of_data ?_ rfl
      have hd : (DataPaths.countDown s.checkUnimplementedModes).repRestored.data =
          s.checkUnimplementedModes.repRestored.data := by
        unfold DataPaths.countDown repRestored
        rw [setReg_other _ _ (by decide)]
        exact congrArg DspState.data (setReg_setReg { s.checkUnimplementedModes with
          loopRep := false } Reg.lc _ _)
      exact hd.trans (repRestored_data hsame.data)
    · change maskPc (s.checkUnimplementedModes.pc + 0) = _
      rw [hsame.pc]
      exact congrArg maskPc (BitVec.add_zero _)

/-! The loop end. -/

theorem InContext.lf {flag : Nat} {la lc start sr : Word}
    (hs : s.InContext (c.enter la lc start sr)) (hf : flag = Sr.lf ∨ flag = Sr.fv) :
    s.registers Reg.sr &&& (1#32 <<< flag) = if flag = Sr.lf then 1#32 <<< Sr.lf else 0 := by
  have hm : s.registers Reg.sr &&& (1#32 <<< flag) = s.loopFlags &&& (1#32 <<< flag) := by
    have hb : lfFvMask &&& (1#32 <<< flag) = 1#32 <<< flag := by
      rcases hf with rfl | rfl <;> decide
    rw [loopFlags, BitVec.and_assoc, hb]
  have hv : s.loopFlags = 1#32 <<< Sr.lf := hs.flags
  rw [hm, hv]
  rcases hf with rfl | rfl <;> decide

theorem unstack_pc (s : DspState σ) : s.unstackSr.unstackLoop.pc = s.pc :=
  (stackPop_beside s.unstackSr).pc.trans (stackPop_beside s).pc

section LoopEnd

variable {la lc start sr : Word} (hs : s.InContext (c.enter la lc start sr)) (hr : c.Room 2)
include hs

theorem InContext.atLoopEnd (pc : Word) : s.AtLoopEnd pc ↔ pc = maskPc (la + 1) := by
  have hla : s.registers Reg.la = la := hs.la
  rw [AtLoopEnd, hs.lf (.inl rfl), hla]
  exact and_iff_right (by decide)

/-- Elsewhere nothing happens. -/
theorem InContext.advanceDo_inside (h : s.pcAdvance = 0 ∨ s.pc ≠ maskPc (la + 1)) :
    s.advanceDo = s := by
  rcases h with h | h
  · exact advanceDo_of_branch h
  · exact advanceDo_of_not_atLoopEnd (mt (hs.atLoopEnd _).mp h)

theorem InContext.advanceDo_ends (ha : s.pcAdvance ≠ 0) (hp : s.pc = maskPc (la + 1)) :
    s.advanceDo = s.loopEnd := by
  have hend := (hs.atLoopEnd s.pc).mpr hp
  rw [advanceDo_eq, if_pos ⟨hend.1, ha, hend.2⟩]

include hr

/-- The loop start stacked by the DO is in SSH. -/
theorem InContext.ssh (hstart : start.toNat < 2 ^ 24) : s.registers Reg.ssh = start := by
  obtain ⟨g, hg, -, hv, -, -⟩ := InContext.top
    (c := { c.enter la lc start sr with
      stack := c.stack.push (c.la.setWidth 24) (c.lc.setWidth 24) }) hs (hr.push la _ _)
  rw [hg.ssh, hv, stacked_wide hstart]

/-- Not the last pass. -/
theorem InContext.loopEnd_again (hstart : start.toNat < 2 ^ 24) (hlc : maskLc (lc - 1) ≠ 0) :
    s.loopEnd.InContext (c.enter la (maskLc (lc - 1)) start sr) ∧ s.loopEnd.pc = start := by
  have hl : s.registers Reg.lc = lc := hs.lc
  have hd := hs.setLc (maskLc (lc - 1))
  have he : s.loopEnd = { s.setReg Reg.lc (maskLc (lc - 1)) with pc := start } := by
    unfold loopEnd
    rw [hl]
    refine (if_neg fun h => hlc ?_).trans ?_
    · exact (setReg_same s Reg.lc _).symm.trans h.1
    · rw [setReg_other _ _ (by decide), hs.ssh hr hstart]
      rfl
  rw [he]
  exact ⟨hd.keeps ⟨rfl, rfl, rfl, rfl, rfl, rfl⟩, rfl⟩

/-- The last pass. -/
theorem InContext.loopEnd_leaves (hw : c.Wide) (hf : sr &&& lfFvMask = c.flags)
    (hlc : maskLc (lc - 1) = 0) : s.loopEnd.InContext c ∧ s.loopEnd.pc = s.pc := by
  have hl : s.registers Reg.lc = lc := hs.lc
  have hd := hs.setLc (maskLc (lc - 1))
  have he : s.loopEnd = (s.setReg Reg.lc (maskLc (lc - 1))).unstackSr.unstackLoop := by
    unfold loopEnd
    rw [hl]
    exact if_pos ⟨(setReg_same s Reg.lc _).trans hlc, hd.lf (c := c) (.inr rfl)⟩
  rw [he]
  exact ⟨InContext.unstack (c := c) hd hr hw hf, unstack_pc _⟩

end LoopEnd

end DspState

/-- A loop that was entered: its body, the passes to go, and the SR stacked for it. -/
structure Level where
  start : Word
  la : Word
  lc : Word
  sr : Word

namespace LoopContext

def within (c : LoopContext) (l : Level) : LoopContext := c.enter l.la l.lc l.start l.sr

/-- The context inside loops entered one in the other, the innermost first. -/
def inside (c : LoopContext) : List Level → LoopContext
  | [] => c
  | l :: ls => (c.inside ls).within l

/-- The context has room for the loop, and can be had back from its frames. -/
structure Fits (c : LoopContext) (l : Level) : Prop where
  room : c.Room 2
  wide : c.Wide
  flags : l.sr &&& lfFvMask = c.flags
  body : l.start.toNat ≤ l.la.toNat
  la : l.la.toNat < 2 ^ 24
  lc : l.lc.toNat < 2 ^ 24
  live : l.lc ≠ 0

/-- Loops inside the loop `o`, each within the body of the one around it and ending before it. -/
inductive Nested (c : LoopContext) (o : Level) : List Level → Prop
  | outer : c.Fits o → Nested c o []
  | inner {l : Level} {ls : List Level} : Nested c o ls → ((c.within o).inside ls).Fits l →
      (ls.headD o).start.toNat ≤ l.start.toNat → l.la.toNat < (ls.headD o).la.toNat →
      Nested c o (l :: ls)

variable {c : LoopContext} {o l : Level} {ls : List Level}

/-- A pass less to go. -/
theorem Fits.again (h : c.Fits l) (hlc : maskLc (l.lc - 1) ≠ 0) :
    c.Fits { l with lc := maskLc (l.lc - 1) } := by
  exact ⟨h.room, h.wide, h.flags, h.body, h.la, mask24_lt _, hlc⟩

theorem Nested.innermost (h : c.Nested o ls) :
    ∃ b : LoopContext, (c.within o).inside ls = b.within (ls.headD o) ∧ b.Fits (ls.headD o) := by
  cases h with
  | outer h => exact ⟨c, rfl, h⟩
  | @inner l ls hn hf hs hla => exact ⟨(c.within o).inside ls, rfl, hf⟩

theorem Nested.wide (h : c.Nested o ls) : ((c.within o).inside ls).Wide := by
  obtain ⟨b, hb, hf⟩ := h.innermost
  rw [hb]
  exact ⟨hf.la, hf.lc⟩

theorem inside_posted (c : LoopContext) (ls : List Level) : (c.inside ls).posted = c.posted := by
  induction ls with
  | nil => rfl
  | cons l ls ih => exact ih

/-- Every loop of the nest is in the body of the outer one. -/
theorem Nested.body (h : c.Nested o ls) :
    o.start.toNat ≤ (ls.headD o).start.toNat ∧ (ls.headD o).la.toNat ≤ o.la.toNat ∧
      (ls ≠ [] → (ls.headD o).la.toNat < o.la.toNat) := by
  induction h with
  | outer _ => exact ⟨le_rfl, le_rfl, fun h => absurd rfl h⟩
  | @inner l ls hn hf hs hla ih =>
    simp only [List.headD_cons]
    omega

theorem Nested.la (h : c.Nested o ls) : o.la.toNat < 2 ^ 24 := by
  induction h with
  | outer h => exact h.la
  | inner _ _ _ _ ih => exact ih

end LoopContext

/-- An address in the body of a loop is not the one behind it. -/
theorem maskPc_inside {p la : Word} (hla : la.toNat < 2 ^ 24) (hp : p.toNat ≤ la.toNat) :
    maskPc p = p ∧ (0 < p.toNat → p ≠ maskPc (la + 1)) := by
  have h1 : (1 : Word).toNat = 1 := rfl
  constructor
  · apply BitVec.eq_of_toNat_eq
    rw [toNat_maskPc]
    omega
  · intro h0 he
    have hn := congrArg BitVec.toNat he
    rw [toNat_maskPc, BitVec.toNat_add, h1] at hn
    omega

namespace DspState

variable {s t : DspState σ} {c : LoopContext} {o : Level} {ls : List Level}

/-- The state is inside the loops, at an address of the innermost body. -/
structure InNest (s : DspState σ) (c : LoopContext) (o : Level) (ls : List Level) : Prop where
  nested : c.Nested o ls
  context : s.InContext ((c.within o).inside ls) ∨ s.InRep ((c.within o).inside ls)
  lower : (ls.headD o).start.toNat ≤ s.pc.toNat
  upper : s.pc.toNat ≤ (ls.headD o).la.toNat

/-- A pass through the loop `o` is over: it is left, or entered again at its start. -/
def Passed (s : DspState σ) (c : LoopContext) (o : Level) : Prop :=
  let again : Level := { o with lc := maskLc (o.lc - 1) }
  (again.lc = 0 → s.InContext c ∧ s.pc = maskPc (o.la + 1)) ∧
    (again.lc ≠ 0 → s.InNest c again [] ∧ s.InContext (c.within again) ∧ s.pc = o.start)

theorem Passed.keeps (hs : s.Passed c o) (h : s.KeepsLoop t) (hp : t.pc = s.pc) :
    t.Passed c o := by
  constructor
  · intro hz
    obtain ⟨hc, hpc⟩ := hs.1 hz
    exact ⟨hc.keeps h, hp.trans hpc⟩
  · intro hz
    obtain ⟨hn, hc, hpc⟩ := hs.2 hz
    exact ⟨⟨hn.nested, .inl (hc.keeps h), hp ▸ hn.lower, hp ▸ hn.upper⟩, hc.keeps h, hp.trans hpc⟩

/-- PC has come to LA+1, and not by a branch. -/
def FallsThrough (s : DspState σ) (la : Word) : Prop :=
  s.pcAdvance ≠ 0 ∧ s.pc = maskPc (la + 1)

theorem InNest.congr (hs : s.InNest c o ls) (h : s.KeepsLoop t) (hp : t.pc = s.pc)
    (ho : t.pcOnRep = s.pcOnRep) (ht : t.registers Reg.temp = s.registers Reg.temp) :
    t.InNest c o ls :=
  ⟨hs.nested, hs.context.imp (·.keeps h) (·.keeps h ho ht), hp ▸ hs.lower, hp ▸ hs.upper⟩

/-- The tick behind a step that stays inside the loops. -/
theorem InNest.tick (hs : s.InNest c o ls) (h : s.KeepsLoop s.processPendingInterrupts)
    (hp : s.processPendingInterrupts.pc = s.pc) : s.processPendingInterrupts.InNest c o ls := by
  rcases hs.context with hc | hc
  · exact ⟨hs.nested, .inl (hc.keeps h), hp ▸ hs.lower, hp ▸ hs.upper⟩
  · have hr : s.Repeating s.pc := ⟨hc.loopRep, hc.pcOnRep, rfl⟩
    rw [hr.locked]
    exact hs

theorem InNest.posted (hs : s.InNest c o ls) :
    s.interrupts.pending Interrupt.stackError = c.posted := by
  have h : s.interrupts.pending Interrupt.stackError = ((c.within o).inside ls).posted := by
    rcases hs.context with hc | hc
    · exact hc.posted
    · exact hc.restored.posted
  exact h.trans ((c.within o).inside_posted ls)

theorem InNest.body (hs : s.InNest c o ls) :
    o.start.toNat ≤ s.pc.toNat ∧ s.pc.toNat ≤ o.la.toNat := by
  obtain ⟨hstart, hla, -⟩ := hs.nested.body
  exact ⟨hstart.trans hs.lower, hs.upper.trans hla⟩

/-- What the innermost loop leaves in LA. -/
theorem InRep.la {l : Level} (hs : s.InRep (c.within l)) : s.registers Reg.la = l.la := by
  have h := hs.restored.la
  rw [repRestored, setReg_other _ _ (by decide)] at h
  exact h

/-- Inside the innermost body no loop ends. -/
theorem stays (hn : c.Nested o ls)
    (ht : t.InContext ((c.within o).inside ls) ∨ t.InRep ((c.within o).inside ls))
    (hlow : (ls.headD o).start.toNat ≤ t.pc.toNat) (hup : t.pc.toNat ≤ (ls.headD o).la.toNat)
    (h0 : t.pcAdvance = 0 ∨ 0 < t.pc.toNat) :
    ¬ t.FallsThrough o.la ∧ ∃ ls', t.advanceDo.InNest c o ls' := by
  obtain ⟨b, hb, hf⟩ := hn.innermost
  obtain ⟨-, hle, -⟩ := hn.body
  have hadv : t.advanceDo = t := by
    rcases h0 with h0 | h0
    · exact advanceDo_of_branch h0
    · have hne := (maskPc_inside hf.la hup).2 h0
      rw [hb] at ht
      rcases ht with ht | ht
      · exact ht.advanceDo_inside (.inr hne)
      · exact advanceDo_of_not_atLoopEnd fun he => hne (ht.la ▸ he.2)
  refine ⟨fun hfall => ?_, ls, ?_⟩
  · rcases h0 with h0 | h0
    · exact hfall.1 h0
    · exact (maskPc_inside hn.la (hup.trans hle)).2 h0 hfall.2
  · rw [hadv]
    exact ⟨hn, ht, hlow, hup⟩

/-- A sequential step inside the loops: on in the innermost body, or through its end. -/
theorem InContext.arrives (hn : c.Nested o ls) (ht : t.InContext ((c.within o).inside ls))
    {p : Word} (hp : t.pc = maskPc p) (ha : t.pcAdvance ≠ 0) (h0 : 0 < p.toNat)
    (hlow : (ls.headD o).start.toNat ≤ p.toNat) (hup : p.toNat ≤ (ls.headD o).la.toNat + 1) :
    (¬ t.FallsThrough o.la ∧ ∃ ls', t.advanceDo.InNest c o ls') ∨
      (t.FallsThrough o.la ∧ t.advanceDo.Passed c o) := by
  obtain ⟨b, hb, hf⟩ := hn.innermost
  obtain ⟨-, hle, hlt⟩ := hn.body
  have h1 : (1 : Word).toNat = 1 := rfl
  by_cases hend : p.toNat = (ls.headD o).la.toNat + 1
  · obtain rfl : p = (ls.headD o).la + 1 := by
      apply BitVec.eq_of_toNat_eq
      rw [BitVec.toNat_add, h1, hend]
      have hla := hf.la
      omega
    have hadv := (hb ▸ ht).advanceDo_ends ha hp
    cases hn with
    | outer ho =>
      right
      refine ⟨⟨ha, hp⟩, ?_⟩
      rw [hadv]
      constructor
      · intro hlc
        obtain ⟨hctx, hpc⟩ := InContext.loopEnd_leaves (c := c) ht ho.room ho.wide ho.flags hlc
        exact ⟨hctx, hpc.trans hp⟩
      · intro hlc
        have hstart : o.start.toNat < 2 ^ 24 := Nat.lt_of_le_of_lt ho.body ho.la
        obtain ⟨hctx, hpc⟩ := InContext.loopEnd_again (c := c) ht ho.room hstart hlc
        exact ⟨⟨.outer (ho.again hlc), .inl hctx, by rw [hpc]; exact le_rfl,
          by rw [hpc]; exact ho.body⟩, hctx, hpc⟩
    | @inner l ls hn' hf' hs' hla' =>
      left
      simp only [List.headD_cons] at hp hadv hlt h0 hlow hup hend
      have hin := maskPc_inside hn'.la (p := l.la + 1) (by have := hn'.body.2.1; omega)
      refine ⟨fun hfall => hin.2 h0 (hin.1 ▸ hp ▸ hfall.2), ?_⟩
      rw [hadv]
      by_cases hlc : maskLc (l.lc - 1) = 0
      · obtain ⟨hctx, hpc⟩ := InContext.loopEnd_leaves (c := (c.within o).inside ls) ht
          hf'.room hf'.wide hf'.flags hlc
        rw [hp, hin.1] at hpc
        have hbody := hf'.body
        exact ⟨ls, hn', .inl hctx, by rw [hpc]; omega, by rw [hpc]; omega⟩
      · have hstart : l.start.toNat < 2 ^ 24 := Nat.lt_of_le_of_lt hf'.body hf'.la
        obtain ⟨hctx, hpc⟩ := InContext.loopEnd_again (c := (c.within o).inside ls) ht
          hf'.room hstart hlc
        exact ⟨{ l with lc := maskLc (l.lc - 1) } :: ls, .inner hn' (hf'.again hlc) hs' hla',
          .inl hctx, by rw [hpc]; exact le_rfl, by rw [hpc]; exact hf'.body⟩
  · left
    have hup' : p.toNat ≤ (ls.headD o).la.toNat := by omega
    rw [(maskPc_inside hf.la hup').1] at hp
    exact stays hn (.inl ht) (hp ▸ hlow) (hp ▸ hup') (.inr (hp ▸ h0))

end DspState

end Dsp56300
