import Dsp56300.Emu.LoopNest
import Dsp56300.Emu.InterruptReturn
import Dsp56300.Lib.Passes

/-! A hardware DO loop, stepped. -/

namespace Dsp56300

open Lib.Programs Lib.Passes Emitter DspState

variable {σ φ : Type}

namespace Emitter

set_option linter.constructorNameAsVariable false

/-- DOR counts its loop address from PC. -/
def isDor : Instruction → Bool
  | .dorImm .. | .dorReg .. | .dorForever | .dorAa .. | .dorEa .. => true
  | _ => false

/-- The forms of DO and DOR that count differ in where the count comes from. -/
theorem emitInstruction_do {inst : Instruction} (h : inst.isDoInstruction = true)
    (hf : inst.isDoForever = false) (pc nextWord : Word) : emitInstruction inst pc nextWord = (do
      Code.call (.setDecodeLen 2)
      setInstLen 2
      setCycles 5
      let lcVal ← emitDoLcValue inst
      let la := computeLa pc nextWord (isDor inst)
      emitDoTail la lcVal pc la) := by
  cases inst with
  | doImm | dorImm => rfl
  | doForever | dorForever => cases hf
  | doReg | dorReg | doAa | dorAa | doEa | dorEa =>
    dsimp only [emitInstruction, emitInstructionBody, emitDoOrDorReg, emitDoOrDorAa, emitDoOrDorEa,
      emitDoLcValue]
    simp only [Code.bind_bind]
    rfl
  | _ => cases h

theorem emitDoLcValue_fetches (inst : Instruction) :
    (emitDoLcValue inst).All fun _ op => op.Fetches := by
  cases inst with
  | doReg r | dorReg r => simp [emitDoLcValue, readRegForMove, Op.Fetches, Op.Plain, Op.WritesTemp]
  | doAa space addr | dorAa space addr =>
    simp [emitDoLcValue, readMem, Op.Fetches, Op.Plain, Op.WritesTemp]
  | doEa space ea | dorEa space ea =>
    apply Code.all_bind (emitCalcEa_fetches _)
    simp [readMemDyn, Op.Fetches, Op.Plain, Op.WritesTemp]
  | _ => trivial

namespace DataPaths

variable (d : DataPaths σ)

/-- Pushes and pops with a constant budget are those of the inlined stack code. -/
structure Stacks : Prop where
  push : ∀ v w n s, d.run Unit (.stackPush v w (.words n)) s =
    ((), s.emitStackPush v w (BitVec.ofNat 32 n))
  pop : ∀ n s, d.run (Word × Word) (.stackPop (.words n)) s = s.emitStackPop (BitVec.ofNat 32 n)

/-- The count of a DO, and the state behind its reading. -/
def doCount (inst : Instruction) (s : DspState σ) : Word × DspState σ :=
  (emitDoLcValue inst).run d.exec { s with pcAdvance := 2 }

variable {d}

theorem doCount_lt (inst : Instruction) (s : DspState σ) :
    (d.doCount inst s).1.toNat < 2 ^ 24 := by
  have hi (count : BitVec 16) : (count.setWidth 32).toNat < 2 ^ 24 := by
    rw [BitVec.toNat_setWidth]
    omega
  unfold doCount
  cases inst with
  | doImm count | dorImm count => exact hi count
  | doReg | dorReg | doAa | dorAa => exact mask24_lt _
  | doEa space ea | dorEa space ea =>
    rw [emitDoLcValue, Code.run_bind]
    exact mask24_lt _
  | _ => exact Nat.two_pow_pos 24

theorem doSetup_run (hd : d.Stacks) (laVal lcVal retPc : Word) (s : DspState σ) :
    d.after (emitDoSetup laVal lcVal retPc false) s = s.doSetup laVal lcVal retPc := by
  have hrun : d.after (emitDoSetup laVal lcVal retPc false) s =
      (let s := (d.run Unit (.stackPush (s.registers Reg.la) (s.registers Reg.lc) (.words 3)) s).2
      let s := s.storeReg Reg.la laVal
      let srVal := s.registers Reg.sr
      let s := (d.run Unit (.stackPush (maskPc retPc) srVal (.words 3)) s).2
      let s := s.storeReg Reg.sr ((srVal ||| (1 <<< Sr.lf)) &&& ~~~((1 : Word) <<< Sr.fv))
      s.storeReg Reg.lc lcVal) := rfl
  rw [hrun]
  simp only [hd.push]
  rfl

theorem enddoCleanup_run (hd : d.Stacks) (s : DspState σ) :
    d.after emitEnddoCleanup s = s.enddoCleanup := by
  have hrun : d.after emitEnddoCleanup s =
      (let frame := d.run (Word × Word) (.stackPop (.words 5)) s
      let sr := (frame.2.registers Reg.sr &&& ~~~lfFvMask) ||| (frame.1.2 &&& lfFvMask)
      let outer := d.run (Word × Word) (.stackPop (.words 5)) (frame.2.storeReg Reg.sr sr)
      (outer.2.storeReg Reg.la outer.1.1).storeReg Reg.lc outer.1.2) := rfl
  rw [hrun]
  simp only [hd.pop]
  rfl

/-- What the code of a DO comes to. -/
theorem call_do (hd : d.Stacks) {inst : Instruction} (h : inst.isDoInstruction = true)
    (hf : inst.isDoForever = false) (pc nextWord : Word) (s : DspState σ) :
    let la := computeLa pc nextWord (isDor inst)
    let lcVal := (d.doCount inst s).1
    let u := (d.doCount inst s).2.doSetup la lcVal (pc + 2)
    d.after (emitInstruction inst pc nextWord) s =
      if lcVal = 0 then { u.enddoCleanup with pc := maskPc (maskPc (la + 1)), pcAdvance := 0 }
      else u := by
  intro la lcVal u
  have hu : d.after (emitDoSetup la lcVal (pc + 2) false) (d.doCount inst s).2 = u :=
    doSetup_run hd la lcVal (pc + 2) _
  have hrun : d.after (emitInstruction inst pc nextWord) s =
      d.after (emitDoAnnulCheck lcVal la) u := by
    rw [← hu, emitInstruction_do h hf]
    refine (congrArg Prod.snd (Code.run_bind d.exec (emitDoLcValue inst) (fun lcVal =>
      emitDoTail la lcVal pc la) { s with pcAdvance := 2 })).trans ?_
    exact congrArg Prod.snd (Code.run_bind d.exec (emitDoSetup la lcVal (pc + 2) false)
      (fun _ => emitDoAnnulCheck lcVal la) _)
  rw [hrun, emitDoAnnulCheck]
  split
  · refine (congrArg Prod.snd (Code.run_bind d.exec emitEnddoCleanup _ u)).trans ?_
    rw [← enddoCleanup_run hd]
    rfl
  · rfl

end DataPaths

end Emitter

namespace DspState

theorem doSetup_pc (s : DspState σ) (laVal lcVal retPc : Word) :
    (s.doSetup laVal lcVal retPc).pc = s.pc ∧
      (s.doSetup laVal lcVal retPc).pcAdvance = s.pcAdvance := by
  have hstore (s : DspState σ) (r : RegIdx) (v : Word) :
      (s.storeReg r v).pc = s.pc ∧ (s.storeReg r v).pcAdvance = s.pcAdvance := ⟨rfl, rfl⟩
  have hpush (s : DspState σ) (v w words : Word) : (s.emitStackPush v w words).pc = s.pc ∧
      (s.emitStackPush v w words).pcAdvance = s.pcAdvance :=
    ⟨(emitStackPush_beside s v w words).pc, (emitStackPush_beside s v w words).pcAdvance⟩
  simp only [doSetup, hstore, hpush, and_self]

/-- From `s` to `t` the code went on behind its words, at most to the end of the loop in LA. -/
structure Sequential (s t : DspState σ) : Prop where
  pc : t.pc = s.pc
  pcAdvance : t.pcAdvance ≠ 0
  body : s.pc.toNat + t.pcAdvance.toNat ≤ (s.registers Reg.la).toNat + 1

/-- From `s` to `t` it branched, to an address in the body of that loop. -/
structure Branches (s t : DspState σ) : Prop where
  pcAdvance : t.pcAdvance = 0
  lower : (s.registers Reg.ssh).toNat ≤ t.pc.toNat
  upper : t.pc.toNat ≤ (s.registers Reg.la).toNat

end DspState

namespace Machine

variable (e : Translator σ φ) (d : DataPaths σ) (m : Machine σ φ)

/-- The instruction at PC. -/
def inst : Instruction := decode (fetch m.dsp).1.1

/-- Stepping it runs the code emitted for it. -/
def RunsCode : Prop :=
  m.coded e = d.after (emitInstruction m.inst m.dsp.pc (fetch m.dsp).1.2) (m.entry e)

/-- A DO of `n` passes through the body that ends in `la`, entered in order. -/
structure DoAt (n la : Word) : Prop where
  isDo : m.inst.isDoInstruction = true
  counts : m.inst.isDoForever = false
  runs : m.RunsCode e d
  loopRep : m.dsp.loopRep = false
  reads : m.dsp.KeepsLoop (d.doCount m.inst (m.entry e)).2
  count : (d.doCount m.inst (m.entry e)).1 = n
  address : computeLa m.dsp.pc (fetch m.dsp).1.2 (isDor m.inst) = la
  body : m.dsp.pc.toNat + 2 ≤ la.toNat
  room : (spIndex (m.dsp.registers Reg.sp)).val + 2 ≤ 15

/-- A REP whose target is in the body of the loop in LA. -/
structure RepsAt : Prop where
  isRep : m.inst.isRepInstruction = true
  runs : m.RunsCode e d
  loopRep : m.dsp.loopRep = false
  reads : ((m.entry e).setReg Reg.temp (maskReg Reg.temp (m.dsp.registers Reg.lc))).KeepsLoop
    (d.repCount m.inst (m.entry e)).2
  count : maskLc (d.repCount m.inst (m.entry e)).1 = (d.repCount m.inst (m.entry e)).1
  body : m.dsp.pc.toNat + 2 ≤ (m.dsp.registers Reg.la).toNat + 1

variable {e d m} {n la : Word} {c : LoopContext}

theorem computeLa_lt (pc nextWord : Word) (relative : Bool) :
    (computeLa pc nextWord relative).toNat < 2 ^ 24 := by
  unfold computeLa
  split <;> exact mask24_lt _

theorem room_of_index (hs : m.dsp.InContext c)
    (h : (spIndex (m.dsp.registers Reg.sp)).val + 2 ≤ 15) : c.Room 2 := by
  obtain ⟨g, hg, hcov⟩ := hs.stack
  rw [hg.sp, (slotOf_spec g.sp).1, hcov.sp] at h
  exact h

/-- The loop a DO enters. -/
def loopAt (d : DataPaths σ) (e : Translator σ φ) (m : Machine σ φ) (n la : Word) : Level where
  start := maskPc (m.dsp.pc + 2)
  la := la
  lc := n
  sr := (d.doCount m.inst (m.entry e)).2.registers Reg.sr

namespace DoAt

variable (h : m.DoAt e d n la)
include h

theorem start : (m.loopAt d e n la).start.toNat = m.dsp.pc.toNat + 2 := by
  have hla := computeLa_lt m.dsp.pc (fetch m.dsp).1.2 (isDor m.inst)
  rw [h.address] at hla
  have hb := h.body
  have h2 : (2 : Word).toNat = 2 := rfl
  change (maskPc (m.dsp.pc + 2)).toNat = _
  rw [toNat_maskPc, BitVec.toNat_add, h2]
  omega

theorem fits (hs : m.dsp.InContext c) (hw : c.Wide) (hn : n ≠ 0) :
    c.Fits (m.loopAt d e n la) where
  room := room_of_index hs h.room
  wide := hw
  flags := h.reads.flags.trans hs.flags
  body := h.start.trans_le h.body
  la := h.address ▸ computeLa_lt _ _ _
  lc := h.count ▸ d.doCount_lt _ _
  live := hn

/-- A DO that counts from 0 leaves PC behind its body, any other at its start. -/
theorem arrived (hd : d.Stacks) (hs : m.dsp.InContext c) (hw : c.Wide) :
    let t := (m.coded e).arrived
    (n = 0 → t.InContext c ∧ t.pc = maskPc (la + 1) ∧ t.pcAdvance = 0) ∧
      (n ≠ 0 → t.InContext (c.within (m.loopAt d e n la)) ∧
        t.pc = (m.loopAt d e n la).start ∧ t.pcAdvance = 2) := by
  obtain ⟨hpc, hadv, -⟩ := DataPaths.run_fetch (d := d) (emitDoLcValue_fetches m.inst)
    { m.entry e with pcAdvance := 2 }
  let v := (d.doCount m.inst (m.entry e)).2
  have hv : v.InContext c := hs.keeps h.reads
  have hla : maskReg Reg.la la = la := and_wide (h.address ▸ computeLa_lt _ _ _)
  have hn : maskReg Reg.lc n = n := and_wide (h.count ▸ d.doCount_lt _ _)
  have hr := room_of_index hs h.room
  have hset := hv.doSetup hr la n (m.dsp.pc + 2)
  rw [hla, hn] at hset
  have hcode := DataPaths.call_do hd h.isDo h.counts m.dsp.pc (fetch m.dsp).1.2 (m.entry e)
  dsimp only at hcode
  rw [h.address, h.count, ← h.runs] at hcode
  constructor
  · intro h0
    rw [if_pos h0] at hcode
    have hc : (m.coded e).InContext c := by
      rw [hcode]
      exact (InContext.cleanup hset hr hw hv.flags).keeps (keepsLoop_pc _ _ _)
    obtain ⟨hk, hp, ha⟩ := arrived_plain hc.loopRep
    refine ⟨hc.keeps hk, hp.trans ?_, ha.trans (by rw [hcode])⟩
    rw [hcode]
    change maskPc (maskPc (maskPc (la + 1)) + 0) = _
    have hz : maskPc (maskPc (la + 1)) + 0 = maskPc (maskPc (la + 1)) := BitVec.add_zero _
    rw [hz]
    simp only [maskPc, BitVec.and_assoc, BitVec.and_self]
  · intro h0
    rw [if_neg h0] at hcode
    have hc : (m.coded e).InContext (c.within (m.loopAt d e n la)) := by
      rw [hcode]
      exact hset
    obtain ⟨hk, hp, ha⟩ := arrived_plain hc.loopRep
    obtain ⟨hpc', hadv'⟩ := doSetup_pc v la n (m.dsp.pc + 2)
    rw [← hcode] at hpc' hadv'
    exact ⟨hc.keeps hk,
      hp.trans (congrArg₂ (fun p a => maskPc (p + a)) (hpc'.trans hpc) (hadv'.trans hadv)),
      ha.trans (hadv'.trans hadv)⟩

end DoAt

/-- A REP leaves its flags set, and the LC to restore in TEMP. -/
theorem RepsAt.coded (h : m.RepsAt e d) (hs : m.dsp.InContext c) (hw : c.Wide) :
    let t := m.coded e
    t.repRestored.InContext c ∧ t.loopRep = true ∧ t.pcOnRep = true ∧ t.pc = m.dsp.pc ∧
      t.pcAdvance = 1 := by
  intro t
  let u := (m.entry e).setReg Reg.temp (maskReg Reg.temp (m.dsp.registers Reg.lc))
  let v := (d.repCount m.inst (m.entry e)).2
  have hu : m.dsp.KeepsLoop u :=
    ⟨setReg_other _ _ (by decide), setReg_other _ _ (by decide),
      congrArg (· &&& lfFvMask) (setReg_other (m.entry e) _ (by decide)),
      stackPart_setReg _ _ (by decide), rfl, rfl⟩
  have hv : v.InContext c := (hs.keeps hu).keeps h.reads
  obtain ⟨-, -, -, -, -, htemp⟩ := DataPaths.run_fetch (d := d) (emitRepLcValue_fetches m.inst) u
  have hlc : v.registers Reg.temp = c.lc := by
    refine htemp.trans ((setReg_same _ _ _).trans ?_)
    rw [hs.lc]
    exact and_wide hw.2
  have hctx : (d.repEntered m.inst (m.entry e)).repRestored.InContext c := by
    have he : (d.repEntered m.inst (m.entry e)).repRestored =
        { v with loopRep := false }.setReg Reg.lc c.lc := by
      unfold repRestored DataPaths.repEntered
      rw [setReg_other _ _ (by decide), hlc]
      exact setReg_setReg { v with loopRep := false } Reg.lc _ _
    rw [he]
    exact (hv.keeps (t := { v with loopRep := false })
      ⟨rfl, rfl, rfl, rfl, rfl, hv.loopRep.symm⟩).setLc c.lc
  obtain ⟨hdata, hpc, hadv, hrep, hon⟩ :=
    DataPaths.call_rep (d := d) h.isRep m.dsp.pc (fetch m.dsp).1.2 h.count
  rw [← h.runs] at hdata hpc hadv hrep hon
  exact ⟨hctx.keeps (.of_data (repRestored_data hdata) rfl), hrep, hon, hpc, hadv⟩

variable (e d m)

/-- What a step inside a loop may do: an instruction that leaves the loop context alone, the target
of a REP, a REP, or a DO whose body ends before the loop does. -/
inductive Does : Prop
  | plain (hr : m.dsp.loopRep = false) (hk : m.dsp.KeepsLoop (m.coded e))
      (hc : m.dsp.Sequential (m.coded e) ∨ m.dsp.Branches (m.coded e))
  | target (hr : m.dsp.loopRep = true) (hk : m.dsp.KeepsLoop (m.coded e))
      (ht : (m.coded e).registers Reg.temp = m.dsp.registers Reg.temp)
      (ho : (m.coded e).pcOnRep = m.dsp.pcOnRep) (hc : (m.coded e).pc = m.dsp.pc)
      (ha : (m.coded e).pcAdvance = 1)
  | rep (h : m.RepsAt e d)
  | loop (n la : Word) (h : m.DoAt e d n la) (hla : la.toNat < (m.dsp.registers Reg.la).toNat)

/-- No fault is armed, and the tick behind the step dispatches nothing. -/
structure Undisturbed : Prop where
  unarmed : m.dsp.interrupts.state ≠ .armed
  keeps : (m.coded e).advancePc.KeepsLoop (m.coded e).advancePc.processPendingInterrupts
  pc : (m.coded e).advancePc.processPendingInterrupts.pc = (m.coded e).advancePc.pc

/-- A step inside the body of a loop. -/
def InBody : Prop := m.Does e d ∧ m.Undisturbed e

/-- It comes to LA+1, and not by a branch. -/
def FallsThrough (la : Word) : Prop := (m.coded e).arrived.FallsThrough la

def next : Machine σ φ := (m.stepOne e).1

variable {e d m} {o : Level} {ls : List Level}

/-- A step in the body stays inside the loops, or it ends a pass. -/
theorem Does.arrives (h : m.Does e d) (hd : d.Stacks) (hn : m.dsp.InNest c o ls) :
    let t := (m.coded e).arrived
    (¬ t.FallsThrough o.la ∧ ∃ ls', t.advanceDo.InNest c o ls') ∨
      (t.FallsThrough o.la ∧ t.advanceDo.Passed c o) := by
  intro t
  obtain ⟨b, hb, hf⟩ := hn.nested.innermost
  have hlow := hn.lower
  have hup := hn.upper
  have hla := hf.la
  have hcontext : m.dsp.loopRep = false → m.dsp.InContext ((c.within o).inside ls) := fun hr =>
    hn.context.resolve_right fun hi => by simp [hi.loopRep] at hr
  have hreg (hr : m.dsp.loopRep = false) : m.dsp.registers Reg.la = (ls.headD o).la :=
    (hb ▸ hcontext hr).la
  cases h with
  | plain hr hk hc =>
    have hs := hcontext hr
    obtain ⟨hka, hp, ha⟩ := arrived_plain (hs.keeps hk).loopRep
    have ht : t.InContext ((c.within o).inside ls) := (hs.keeps hk).keeps hka
    rcases hc with hc | hc
    · have hb' := hc.body
      have ha0 : 0 < (m.coded e).pcAdvance.toNat :=
        BitVec.pos_iff_ne_zero _ |>.mpr hc.pcAdvance
      rw [hreg hr] at hb'
      have hsum : ((m.coded e).pc + (m.coded e).pcAdvance).toNat =
          m.dsp.pc.toNat + (m.coded e).pcAdvance.toNat := by
        rw [BitVec.toNat_add, hc.pc]
        omega
      exact ht.arrives hn.nested hp (ha ▸ hc.pcAdvance) (by omega) (by omega) (by omega)
    · left
      have hssh : m.dsp.registers Reg.ssh = (ls.headD o).start :=
        (hb ▸ hs).ssh hf.room (Nat.lt_of_le_of_lt hf.body hf.la)
      have hlow' := hssh ▸ hc.lower
      have hup' := hreg hr ▸ hc.upper
      have hpc : t.pc = (m.coded e).pc := by
        refine hp.trans ?_
        rw [hc.pcAdvance]
        exact (congrArg maskPc (BitVec.add_zero _)).trans (maskPc_inside hla hup').1
      exact stays hn.nested (.inl ht) (hpc ▸ hlow') (hpc ▸ hup') (.inl (ha.trans hc.pcAdvance))
  | target hr hk ht ho hc ha =>
    have hs := hn.context.resolve_left fun hi => by simp [hi.loopRep] at hr
    have h1 : (1 : Word).toNat = 1 := rfl
    rcases arrived_repeating (hs.keeps hk ho ht) with ⟨hi, hp, hz⟩ | ⟨hi, hp, ha'⟩
    · left
      rw [hc, (maskPc_inside hla hup).1] at hp
      exact stays hn.nested (.inr hi) (hp ▸ hlow) (hp ▸ hup) (.inl hz)
    · rw [hc, ha] at hp
      rw [ha] at ha'
      have hsum : (m.dsp.pc + 1).toNat = m.dsp.pc.toNat + 1 := by
        rw [BitVec.toNat_add, h1]
        omega
      exact hi.arrives hn.nested hp (by rw [ha']; decide) (by omega) (by omega) (by omega)
  | rep h =>
    have hs := hcontext h.loopRep
    have hb' := hreg h.loopRep ▸ h.body
    have h1 : (1 : Word).toNat = 1 := rfl
    have h2 : (2 : Word).toNat = 2 := rfl
    obtain ⟨hc, hr, ho, hpc, hadv⟩ := h.coded hs hn.nested.wide
    by_cases hlc : (m.coded e).registers Reg.lc = 0
    · obtain ⟨hi, hp, ha⟩ := arrived_annulled hc hr ho hlc
      rw [hpc, hadv] at hp
      rw [hadv] at ha
      have hsum : (m.dsp.pc + (1 + 1)).toNat = m.dsp.pc.toNat + 2 := by
        change (m.dsp.pc + 2).toNat = _
        rw [BitVec.toNat_add, h2]
        omega
      exact hi.arrives hn.nested hp (by rw [ha]; decide) (by omega) (by omega) (by omega)
    · left
      obtain ⟨hi, hp⟩ := arrived_first hc hr ho hlc
      rw [hpc, hadv] at hp
      have hsum : (m.dsp.pc + 1).toNat = m.dsp.pc.toNat + 1 := by
        rw [BitVec.toNat_add, h1]
        omega
      rw [(maskPc_inside hla (by omega)).1] at hp
      exact stays hn.nested (.inr hi) (by rw [hp]; omega) (by rw [hp]; omega)
        (.inr (by rw [hp]; omega))
  | loop n la h hl =>
    left
    have hs := hcontext h.loopRep
    have hl' := hreg h.loopRep ▸ hl
    have hb' := h.body
    obtain ⟨hzero, hpos⟩ := h.arrived hd hs hn.nested.wide
    by_cases hn0 : n = 0
    · obtain ⟨hi, hp, ha⟩ := hzero hn0
      have h1 : (1 : Word).toNat = 1 := rfl
      have hsum : (la + 1).toNat = la.toNat + 1 := by
        rw [BitVec.toNat_add, h1]
        omega
      rw [(maskPc_inside hla (by omega)).1] at hp
      exact stays hn.nested (.inl hi) (by rw [hp]; omega) (by rw [hp]; omega) (.inl ha)
    · obtain ⟨hi, hp, -⟩ := hpos hn0
      have hstart := h.start
      have hn' : c.Nested o (m.loopAt d e n la :: ls) := by
        refine .inner hn.nested (h.fits hs hn.nested.wide hn0) ?_ hl'
        omega
      exact stays hn' (.inl hi) (by rw [hp]; exact le_rfl) (by rw [hp, hstart]; exact hb')
        (.inr (by rw [hp]; omega))

/-- What a step that nothing disturbs leaves, once its code has arrived. -/
theorem Undisturbed.ticked (h : m.Undisturbed e) {P : DspState σ → Prop}
    (hp : ∀ s n, P s → P { s with cycleCount := n })
    (ht : P (m.coded e).advancePc.processPendingInterrupts) : P (m.next e).dsp := by
  obtain ⟨n, hn⟩ := m.stepOne_dsp e h.unarmed
  rw [next, hn]
  exact hp _ n ht

/-- A step in the body of a nest: it stays inside the loops, or it ends a pass. -/
theorem InBody.step (h : m.InBody e d) (hd : d.Stacks) (hn : m.dsp.InNest c o ls) :
    (¬ m.FallsThrough e o.la ∧ ∃ ls', (m.next e).dsp.InNest c o ls') ∨
      (m.FallsThrough e o.la ∧ (m.next e).dsp.Passed c o) := by
  obtain ⟨hdoes, hu⟩ := h
  rcases hdoes.arrives hd hn with ⟨hf, ls', hi⟩ | ⟨hf, hpass⟩
  · refine .inl ⟨hf, ls', hu.ticked (P := (·.InNest c o ls')) ?_ (hi.tick hu.keeps hu.pc)⟩
    intro s n hs
    exact hs.congr ⟨rfl, rfl, rfl, rfl, rfl, rfl⟩ rfl rfl rfl
  · refine .inr ⟨hf, hu.ticked (P := (·.Passed c o)) ?_ (hpass.keeps hu.keeps hu.pc)⟩
    intro s n hs
    exact hs.keeps ⟨rfl, rfl, rfl, rfl, rfl, rfl⟩ rfl

/-! The passes of a loop. -/

/-- At the start of the loop `o` with `n` passes to go, or behind it. -/
def Enters (c : LoopContext) (o : Level) : Nat → Machine σ φ → Prop
  | 0, m => m.dsp.InContext c ∧ m.dsp.pc = maskPc (o.la + 1)
  | n + 1, m => n + 1 < 2 ^ 24 ∧ m.dsp.InNest c { o with lc := BitVec.ofNat 32 (n + 1) } [] ∧
    m.dsp.InContext (c.within { o with lc := BitVec.ofNat 32 (n + 1) }) ∧ m.dsp.pc = o.start

/-- In a pass, with `n` more to go. -/
def Inside (c : LoopContext) (o : Level) (n : Nat) (m : Machine σ φ) : Prop :=
  n + 1 < 2 ^ 24 ∧ ∃ ls, m.dsp.InNest c { o with lc := BitVec.ofNat 32 (n + 1) } ls

theorem Enters.of_passed {n : Nat} (hn : n + 1 < 2 ^ 24)
    (h : m.dsp.Passed c { o with lc := BitVec.ofNat 32 (n + 1) }) : m.Enters c o n := by
  have hlc : maskLc (BitVec.ofNat 32 (n + 1) - 1) = BitVec.ofNat 32 n :=
    DataPaths.Target.maskLc_pred hn
  unfold Passed at h
  dsimp only at h
  rw [hlc] at h
  cases n with
  | zero => exact h.1 rfl
  | succ n =>
    have hne : BitVec.ofNat 32 (n + 1) ≠ 0 := by
      intro h0
      have hz := congrArg BitVec.toNat h0
      rw [BitVec.toNat_ofNat] at hz
      have h0' : (0 : Word).toNat = 0 := rfl
      omega
    exact ⟨by omega, h.2 hne⟩

/-- Each pass through the body takes one off the count. -/
theorem counts (hd : d.Stacks) (c : LoopContext) (o : Level) :
    Counts (Machine.next e) (InBody e d) (FallsThrough e · o.la) (Enters c o) (Inside c o) where
  begins n m h := ⟨h.1, [], h.2.1⟩
  goes n m h hb hf := by
    obtain ⟨hn, ls, hi⟩ := h
    obtain ⟨-, ls', hi'⟩ := (hb.step hd hi).resolve_right fun h => hf h.1
    exact ⟨hn, ls', hi'⟩
  passes n m h hb hf := by
    obtain ⟨hn, ls, hi⟩ := h
    obtain ⟨-, hp⟩ := (hb.step hd hi).resolve_left fun h => h.1 hf
    exact .of_passed hn hp

/-- The DO itself, stepped. -/
theorem DoAt.enters (h : m.DoAt e d n la) (hd : d.Stacks) (hu : m.Undisturbed e)
    (hs : m.dsp.InContext c) (hw : c.Wide) :
    (m.next e).Enters c (m.loopAt d e n la) n.toNat := by
  obtain ⟨hzero, hpos⟩ := h.arrived hd hs hw
  by_cases hn : n = 0
  · obtain ⟨hi, hp, ha⟩ := hzero hn
    have hadv : (m.coded e).advancePc = (m.coded e).arrived :=
      (advancePc_arrived _).trans (advanceDo_of_branch ha)
    have ht : (m.next e).dsp.InContext c ∧ (m.next e).dsp.pc = maskPc (la + 1) := by
      refine hu.ticked (P := fun s => s.InContext c ∧ s.pc = maskPc (la + 1)) ?_ ?_
      · intro s k hk
        exact ⟨hk.1.keeps ⟨rfl, rfl, rfl, rfl, rfl, rfl⟩, hk.2⟩
      · exact ⟨(hadv ▸ hi).keeps hu.keeps, hu.pc.trans (hadv ▸ hp)⟩
    rw [hn]
    exact ht
  · obtain ⟨hi, hp, ha⟩ := hpos hn
    have hf := h.fits hs hw hn
    have hstart := h.start
    obtain ⟨k, hk⟩ := Nat.exists_eq_succ_of_ne_zero fun h0 => hn (BitVec.eq_of_toNat_eq h0)
    have hlc : BitVec.ofNat 32 (k + 1) = n := by
      rw [← Nat.succ_eq_add_one, ← hk, BitVec.ofNat_toNat, BitVec.setWidth_eq]
    have hadv : (m.coded e).advancePc = (m.coded e).arrived := by
      refine hi.advanceDo_inside (.inr ?_)
      rw [hp]
      exact (maskPc_inside hf.la hf.body).2 (by omega)
    let o : Level := { m.loopAt d e n la with lc := BitVec.ofNat 32 (k + 1) }
    have ho : o = m.loopAt d e n la := by
      change Level.mk _ _ (BitVec.ofNat 32 (k + 1)) _ = _
      rw [hlc]
      rfl
    have ht : (m.next e).dsp.InContext (c.within o) ∧ (m.next e).dsp.pc = o.start := by
      refine hu.ticked (P := fun s => s.InContext (c.within o) ∧ s.pc = o.start) ?_ ?_
      · intro s j hj
        exact ⟨hj.1.keeps ⟨rfl, rfl, rfl, rfl, rfl, rfl⟩, hj.2⟩
      · exact ⟨(ho ▸ hadv ▸ hi).keeps hu.keeps, hu.pc.trans (hadv ▸ hp)⟩
    have hfo : c.Fits o := ho ▸ hf
    have hlt : n.toNat < 2 ^ 24 := hf.lc
    rw [hk] at hlt ⊢
    exact ⟨hlt, ⟨.outer hfo, .inl ht.1, ht.2 ▸ le_rfl, ht.2 ▸ hfo.body⟩, ht⟩

end Machine

namespace DspState

/-- LA, LC, LF, FV and SP are those of `s`, and no stack error was posted. -/
structure Restored (s t : DspState σ) : Prop where
  la : t.registers Reg.la = s.registers Reg.la
  lc : t.registers Reg.lc = s.registers Reg.lc
  flags : t.loopFlags = s.loopFlags
  sp : t.registers Reg.sp = s.registers Reg.sp
  posted : t.interrupts.pending Interrupt.stackError = s.interrupts.pending Interrupt.stackError

/-- What a DO relies on: SSH and SSL show the top of the stack, and LA and LC have 24 bits. -/
structure Settled (s : DspState σ) : Prop where
  mirrored : s.Mirrored
  la : (s.registers Reg.la).toNat < 2 ^ 24
  lc : (s.registers Reg.lc).toNat < 2 ^ 24

theorem InNest.settled {s : DspState σ} {c : LoopContext} {o : Level} {ls : List Level}
    (hs : s.InNest c o ls) (hr : s.loopRep = false) : s.Settled := by
  have hc := hs.context.resolve_right fun hi => by simp [hi.loopRep] at hr
  obtain ⟨g, hg, -⟩ := hc.stack
  obtain ⟨hla, hlc⟩ := hs.nested.wide
  exact ⟨⟨g, hg⟩, hc.la ▸ hla, hc.lc ▸ hlc⟩

end DspState

namespace Machine

variable {e : Translator σ φ} {d : DataPaths σ} {m : Machine σ φ} {n la : Word}

/-- A DO counts `n`: its body is gone through `n` times, and then the loop is left with PC behind
it and its context as it was. In the body every DO finds what it relies on in turn. -/
theorem do_runs_body (h : m.DoAt e d n la) (hd : d.Stacks) (hu : m.Undisturbed e)
    (hs : m.dsp.Settled) :
    let passes := Times (Machine.next e) (InBody e d) (FallsThrough e · la)
    let first := m.next e
    (∀ u, passes n.toNat first u → u.dsp.pc = maskPc (la + 1) ∧ m.dsp.Restored u.dsp) ∧
      (∀ k < n.toNat, ∀ u, passes k first u → u.dsp.pc = maskPc (m.dsp.pc + 2) ∧
        (u.dsp.registers Reg.lc).toNat = n.toNat - k ∧
        ∀ v, Within (Machine.next e) (InBody e d) (FallsThrough e · la) u v →
          m.dsp.pc.toNat + 2 ≤ v.dsp.pc.toNat ∧ v.dsp.pc.toNat ≤ la.toNat ∧
          v.dsp.interrupts.pending Interrupt.stackError =
            m.dsp.interrupts.pending Interrupt.stackError ∧
          (v.dsp.loopRep = false → v.dsp.Settled)) ∧
      ((∀ k < n.toNat, ∀ u, passes k first u →
          ∃ v, Pass (Machine.next e) (InBody e d) (FallsThrough e · la) u v) →
        ∃ u, passes n.toNat first u) := by
  intro passes first
  obtain ⟨⟨g, hg⟩, hla, hlc⟩ := hs
  let c : LoopContext := ⟨m.dsp.registers Reg.la, m.dsp.registers Reg.lc, m.dsp.loopFlags, g,
    m.dsp.interrupts.pending Interrupt.stackError⟩
  have hc : m.dsp.InContext c := ⟨rfl, rfl, rfl, ⟨g, hg, .refl g⟩, rfl, h.loopRep⟩
  have hcount := counts (e := e) hd c (m.loopAt d e n la)
  have hstart := h.enters hd hu hc ⟨hla, hlc⟩
  refine ⟨fun u hu => ?_, fun k hk u hu => ?_, exists_times⟩
  · obtain ⟨hi, hp⟩ := hcount.times (n := 0) (k := n.toNat) hstart hu
    obtain ⟨g', hg', hcov⟩ := hi.stack
    exact ⟨hp, hi.la, hi.lc, hi.flags, by rw [hg'.sp, hg.sp, hcov.sp], hi.posted⟩
  · obtain ⟨j, hj⟩ : ∃ j, n.toNat = k + (j + 1) := ⟨n.toNat - k - 1, by omega⟩
    rw [hj] at hstart
    have hen := hcount.times hstart hu
    have hinside := hcount.begins _ _ hen
    obtain ⟨hlt, -, hi, hp⟩ := hen
    have hl : u.dsp.registers Reg.lc = BitVec.ofNat 32 (j + 1) := hi.lc
    refine ⟨hp, ?_, fun v hv => ?_⟩
    · rw [hl, BitVec.toNat_ofNat]
      omega
    · obtain ⟨-, ls, hin⟩ := hcount.within hinside hv
      obtain ⟨hlow, hup⟩ := hin.body
      exact ⟨h.start.symm.trans_le hlow, hup, hin.posted, hin.settled⟩

end Machine

namespace DspState

theorem emitStackPush_data (s : DspState σ) (v w n : Word) :
    (s.emitStackPush v w n).data = s.data.emitStackPush v w n := by
  have hr : s.data.registers = s.registers := rfl
  simp only [emitStackPush, hr]
  split <;> rfl

theorem emitStackPop_data (s : DspState σ) (n : Word) :
    (s.emitStackPop n).1 = (s.data.emitStackPop n).1 ∧
      (s.emitStackPop n).2.data = (s.data.emitStackPop n).2 := by
  have hr : s.data.registers = s.registers := rfl
  refine ⟨rfl, ?_⟩
  simp only [emitStackPop, hr]
  split <;> rfl

theorem emitStackPush_budget (s : DspState σ) (v w words : Word) (n : Int) :
    { s with cycleBudget := n }.emitStackPush v w words =
      { s.emitStackPush v w words with cycleBudget := n } := by
  simp only [emitStackPush]
  split <;> rfl

theorem emitStackPop_budget (s : DspState σ) (words : Word) (n : Int) :
    (s.emitStackPop words).1 = ({ s with cycleBudget := n }.emitStackPop words).1 ∧
      ({ s with cycleBudget := n }.emitStackPop words).2 =
      { (s.emitStackPop words).2 with cycleBudget := n } := by
  refine ⟨rfl, ?_⟩
  simp only [emitStackPop]
  split <;> rfl

theorem emitStackPush_pcOnRep (s : DspState σ) (v w n : Word) :
    (s.emitStackPush v w n).pcOnRep = s.pcOnRep := by
  simp only [emitStackPush, storeReg, setReg, setSlot, apply_ite DspState.pcOnRep]
  split <;> rfl

theorem emitStackPop_pcOnRep (s : DspState σ) (n : Word) :
    (s.emitStackPop n).2.pcOnRep = s.pcOnRep := by
  simp only [emitStackPop, storeReg, setReg, apply_ite DspState.pcOnRep]
  split <;> rfl

theorem emitStackPush_state (s : DspState σ) (v w n : Word) :
    (s.emitStackPush v w n).interrupts.state = s.interrupts.state := by
  rw [emitStackPush_interrupts]
  split <;> rfl

theorem emitStackPop_state (s : DspState σ) (n : Word) :
    (s.emitStackPop n).2.interrupts.state = s.interrupts.state := by
  rw [emitStackPop_interrupts]
  split <;> rfl

end DspState

namespace Emitter

set_option linter.constructorNameAsVariable false

/-- A handler with the hardware stack put into it. -/
def withStack (run : Code.Handler Op (DspState σ)) : Code.Handler Op (DspState σ)
  | _, .stackPush v w (.words n), s => ((), s.emitStackPush v w (BitVec.ofNat 32 n))
  | _, .stackPop (.words n), s => s.emitStackPop (BitVec.ofNat 32 n)
  | γ, op, s => run γ op s

/-- Every operation is a push, a pop, or left to the handler. -/
theorem withStack_cases (run : Code.Handler Op (DspState σ))
    {P : (γ : Type) → Op γ → (DspState σ → γ × DspState σ) → Prop}
    (hpush : ∀ v w n, P Unit (.stackPush v w (.words n))
      fun s => ((), s.emitStackPush v w (BitVec.ofNat 32 n)))
    (hpop : ∀ n, P (Word × Word) (.stackPop (.words n))
      fun s => s.emitStackPop (BitVec.ofNat 32 n))
    (hrun : ∀ γ op, P γ op (run γ op)) (γ : Type) (op : Op γ) : P γ op (withStack run γ op) := by
  cases op with
  | stackPush v w budget =>
    cases budget with
    | words n => exact hpush v w n
    | lessDecodeLen n => exact hrun _ _
  | stackPop budget =>
    cases budget with
    | words n => exact hpop n
    | lessDecodeLen n => exact hrun _ _
  | _ => exact hrun _ _

/-- Data paths of a core with plain registers and its hardware stack. -/
def stackPaths : DataPaths σ where
  run := withStack registerPaths.run
  data := withStack_cases _ (P := fun _ _ f => ∀ s t : DspState σ, s.data = t.data →
      (f s).1 = (f t).1 ∧ (f s).2.data = (f t).2.data)
    (fun v w n s t h => ⟨rfl, by rw [emitStackPush_data, emitStackPush_data, h]⟩)
    (fun n s t h => by
      obtain ⟨h1, h2⟩ := emitStackPop_data s (BitVec.ofNat 32 n)
      obtain ⟨h3, h4⟩ := emitStackPop_data t (BitVec.ofNat 32 n)
      exact ⟨h1.trans (h ▸ h3.symm), h2.trans (h ▸ h4.symm)⟩)
    registerPaths.data
  pc := withStack_cases _ (P := fun _ _ f => ∀ s, (f s).2.pc = s.pc)
    (fun _ _ _ s => (emitStackPush_beside s _ _ _).pc) (fun _ s => (emitStackPop_beside s _).pc)
    registerPaths.pc
  pcAdvance := withStack_cases _ (P := fun _ _ f => ∀ s, (f s).2.pcAdvance = s.pcAdvance)
    (fun _ _ _ s => (emitStackPush_beside s _ _ _).pcAdvance)
    (fun _ s => (emitStackPop_beside s _).pcAdvance) registerPaths.pcAdvance
  loopRep := withStack_cases _ (P := fun _ _ f => ∀ s, (f s).2.loopRep = s.loopRep)
    (fun _ _ _ s => (emitStackPush_beside s _ _ _).loopRep)
    (fun _ s => (emitStackPop_beside s _).loopRep) registerPaths.loopRep
  pcOnRep := withStack_cases _ (P := fun _ _ f => ∀ s, (f s).2.pcOnRep = s.pcOnRep)
    (fun _ _ _ s => emitStackPush_pcOnRep s _ _ _) (fun _ s => emitStackPop_pcOnRep s _)
    registerPaths.pcOnRep
  state := withStack_cases _ (P := fun _ op f => ∀ s, op.Plain →
      (f s).2.interrupts.state = s.interrupts.state)
    (fun _ _ _ s _ => emitStackPush_state s _ _ _) (fun _ s _ => emitStackPop_state s _)
    registerPaths.state
  temp := withStack_cases _ (P := fun _ op f => ∀ s, ¬ op.WritesTemp →
      (f s).2.registers Reg.temp = s.registers Reg.temp)
    (fun _ _ _ s _ => (emitStackPush_beside s _ _ _).registers _ (by decide))
    (fun _ s _ => (emitStackPop_beside s _).registers _ (by decide)) registerPaths.temp

theorem stackPaths_stacks : (stackPaths (σ := σ)).Stacks := ⟨fun _ _ _ _ => rfl, fun _ _ => rfl⟩

/-- The budget plays no part in them. -/
theorem stackPaths_budget (x : Emit Unit) (s : DspState σ) (n : Int) :
    stackPaths.after x { s with cycleBudget := n } =
      { stackPaths.after x s with cycleBudget := n } := by
  have h := Code.run_rel (h := (stackPaths (σ := σ)).exec)
    (R := fun s t => t = { s with cycleBudget := n }) (by
      rintro γ op s _ rfl
      cases op with
      | stackPush v w budget =>
        cases budget with
        | words k => exact ⟨rfl, emitStackPush_budget s v w _ n⟩
        | lessDecodeLen k => exact ⟨rfl, rfl⟩
      | stackPop budget =>
        cases budget with
        | words k => exact emitStackPop_budget s _ n
        | lessDecodeLen k => exact ⟨rfl, rfl⟩
      | _ => exact ⟨rfl, rfl⟩) x (rfl : { s with cycleBudget := n } = _)
  exact h.2

end Emitter

/-- `do #2` over `move #1,r0`, as compiled code for each of its addresses. -/
def doTwice : Translator Unit Unit where
  compileBlock := fun pc _ generation _ w => (⟨(), pc + 1, generation, true⟩, w)
  compileInstruction := fun _ _ _ _ => ()
  call := fun _ s => (if s.pc = 0 then stackPaths.after (emitInstruction (.doImm 2) 0 2) s
    else stackPaths.after (emitInstruction (.parallel .move .pm3 0x300100) 2 0x300100) s, 1)
  call_budget := by
    intro f s n
    dsimp only
    split
    · exact congrArg (·, 1) (stackPaths_budget _ s n)
    · exact congrArg (·, 1) (stackPaths_budget _ s n)

def doMachine : Machine Unit Unit :=
  ⟨.new ⟨[], [], [⟨0, 0xFFFFFFFF, .buffer 0 0⟩]⟩
    ⟨fun i => if i = 0 then 0x060280 else if i = 1 then 2 else 0x300100, ()⟩, .new 0, fun _ => none⟩

namespace Machine

theorem decode_do_two : decode 0x060280 = .doImm 2 := by
  rw [decode_at 73 rfl (by decide) (by decide) (by decide)]
  rfl

theorem doMachine_inst : doMachine.inst = .doImm 2 := decode_do_two

/-- With nothing pending a tick does nothing. -/
theorem undisturbed_of_idle {e : Translator σ φ} {m : Machine σ φ}
    (h : m.dsp.interrupts.state ≠ .armed) (hr : (m.coded e).advancePc.loopRep = false)
    (hs : (m.coded e).advancePc.interrupts.state = .none)
    (hp : (m.coded e).advancePc.interrupts.hasPending = false) : m.Undisturbed e := by
  have ht : (m.coded e).advancePc.processPendingInterrupts = (m.coded e).advancePc := by
    simp [processPendingInterrupts, tickIdle, DspState.arbitrate, hr, hs, hp]
  exact ⟨h, by rw [ht]; exact ⟨rfl, rfl, rfl, rfl, rfl, rfl⟩, congrArg DspState.pc ht⟩

theorem doMachine_undisturbed : doMachine.Undisturbed doTwice :=
  undisturbed_of_idle (by decide) (by decide +kernel) (by decide +kernel) (by decide +kernel)

theorem doMachine_doAt : doMachine.DoAt doTwice stackPaths 2 2 where
  isDo := by rw [doMachine_inst]; rfl
  counts := by rw [doMachine_inst]; rfl
  runs := by
    rw [RunsCode, doMachine_inst]
    rfl
  loopRep := rfl
  reads := by
    rw [doMachine_inst]
    exact ⟨rfl, rfl, rfl, rfl, rfl, rfl⟩
  count := by
    rw [doMachine_inst]
    rfl
  address := by
    rw [doMachine_inst]
    rfl
  body := by decide
  room := by decide

/-- The move ends a pass. -/
theorem doTwice_move {m : Machine Unit Unit} (hp : m.dsp.pc = 2) (hr : m.dsp.loopRep = false)
    (hla : m.dsp.registers Reg.la = 2) (hu : m.Undisturbed doTwice) :
    m.InBody doTwice stackPaths ∧ m.FallsThrough doTwice 2 := by
  have hc : m.coded doTwice = { (m.entry doTwice).setReg Reg.r0 1 with pcAdvance := 1 } :=
    if_neg (show ¬ m.dsp.pc = 0 by rw [hp]; decide)
  have hpc : (m.coded doTwice).pc = 2 := by rw [hc]; exact hp
  have hadv : (m.coded doTwice).pcAdvance = 1 := by rw [hc]
  have hrep : (m.coded doTwice).loopRep = false := by rw [hc]; exact hr
  obtain ⟨-, hpc', hadv'⟩ := arrived_plain hrep
  refine ⟨⟨.plain hr ?_ (.inl ⟨hpc.trans hp.symm, ?_, ?_⟩), hu⟩, ?_, ?_⟩
  · rw [hc]
    exact ⟨rfl, rfl, rfl, rfl, rfl, rfl⟩
  · rw [hadv]
    decide
  · rw [hadv, hp, hla]
    decide
  · rw [hadv', hadv]
    decide
  · rw [hpc', hpc, hadv]

/-- On the move, in the loop, with no interrupt about. -/
def OnMove (m : Machine Unit Unit) : Prop :=
  (m.dsp.pc = 2 ∧ m.dsp.loopRep = false ∧ m.dsp.registers Reg.la = 2 ∧
    m.dsp.interrupts.state = .none) ∧
  (m.coded doTwice).advancePc.loopRep = false ∧
  (m.coded doTwice).advancePc.interrupts.state = .none ∧
  (m.coded doTwice).advancePc.interrupts.hasPending = false

instance (m : Machine Unit Unit) : Decidable m.OnMove := inferInstanceAs (Decidable (_ ∧ _))

theorem OnMove.ends {m : Machine Unit Unit} (h : m.OnMove) :
    m.InBody doTwice stackPaths ∧ m.FallsThrough doTwice 2 := by
  obtain ⟨⟨hp, hr, hla, hs⟩, hr', hs', hp'⟩ := h
  have ha : m.dsp.interrupts.state ≠ .armed := by rw [hs]; exact nofun
  exact doTwice_move hp hr hla (undisturbed_of_idle ha hr' hs' hp')

theorem doMachine_key : instrKey 0 0x060280 2 = (0, 0x060280, 2) := by
  dsimp only [instrKey]
  rw [decode_do_two]
  rfl

theorem doMachine_compiles : getOrCompileInstruction doTwice doMachine.instrCache 0 0x060280 2
    doMachine.dsp.map =
      (((), 2), Function.update doMachine.instrCache (0, 0x060280, 2) (some ((), 2))) := by
  dsimp only [getOrCompileInstruction]
  rw [doMachine_key, decode_do_two]
  rfl

theorem doMachine_next : doMachine.next doTwice =
    { doMachine with
      dsp := (execute doTwice doMachine.dsp 0x060280 () 2).1
      instrCache := Function.update doMachine.instrCache (0, 0x060280, 2) (some ((), 2)) } := by
  have hfetch : fetch doMachine.dsp = ((0x060280, 2), doMachine.dsp) := rfl
  rw [next, stepOne, hfetch]
  dsimp only
  rw [show doMachine.dsp.pc = 0 from rfl, doMachine_compiles]

theorem doTwice_onMove : (doMachine.next doTwice).OnMove ∧
    ((doMachine.next doTwice).next doTwice).OnMove := by
  rw [doMachine_next]
  decide +kernel

/-- The move is gone through twice. -/
theorem do_runs_body_twice : ∃ u, Times (Machine.next doTwice) (InBody doTwice stackPaths)
    (FallsThrough doTwice · 2) 2 (doMachine.next doTwice) u ∧ u.dsp.pc = maskPc (2 + 1) ∧
      doMachine.dsp.Restored u.dsp := by
  have hfirst := doTwice_onMove.1.ends
  have hsecond := doTwice_onMove.2.ends
  obtain ⟨hleft, -, hall⟩ := do_runs_body doMachine_doAt stackPaths_stacks doMachine_undisturbed
    ⟨new_mirrored _ _, by decide, by decide⟩
  obtain ⟨u, hu⟩ := hall fun k hk v hv => by
    obtain rfl | rfl : k = 0 ∨ k = 1 := Nat.le_one_iff_eq_zero_or_eq_one.mp (Nat.le_of_lt_succ hk)
    · obtain rfl := hv
      exact ⟨_, pass_of_ends hfirst.1 hfirst.2⟩
    · obtain ⟨_, rfl, hpass⟩ := hv
      rw [hpass.eq_step hfirst.2]
      exact ⟨_, pass_of_ends hsecond.1 hsecond.2⟩
  exact ⟨u, hu, hleft u hu⟩

end Machine

end Dsp56300
