import Dsp56300.Emu.BackEdges
import Dsp56300.Emu.EmittedValues
import Dsp56300.Emu.PcAdvance
import Dsp56300.Lib.PathRuns

/-! Blocks compiled as a whole, and the same stretches of code compiled one at a time. -/

namespace Dsp56300

open Emitter Lib.Paths Lib.Programs

variable {σ : Type}

/-! Code and blocks. -/

/-- A point of a path through code: the state there, and the emitter where it wrote that code. -/
structure Point (S : Type) where
  state : S
  emission : EmitterState := {}

/-- The operations, on what compiled code works on. -/
def compiledOps : Code.Handler Op (Point (AluState σ))
  | _, op, p =>
    let r := (op.code p.emission.anchor).run p.state
    (r.1, ⟨r.2, op.emission p.emission⟩)

/-- The same, with what SR holds of E, U, N and Z. -/
def heldOps : Code.Handler Op (Point (Held σ))
  | _, op, p =>
    let r := (op.code p.emission.anchor).run p.state.alu
    (r.1, ⟨p.state.next r.2, op.emission p.emission⟩)

namespace Point

/-- Upkeep at a point. -/
def Upkeep (p q : Point (Held σ)) : Prop := p.state.Upkeep q.state ∧ q.emission = p.emission

/-- Upkeep until SR is up to date. -/
def Settles (p q : Point (Held σ)) : Prop :=
  Relation.ReflTransGen Upkeep p q ∧ q.state.quarter = .current

/-- Code of a block compiled as a whole. -/
def RunsAmid {α : Type} (x : Emit α) (p : Point (Held σ)) (a : α) (q : Point (Held σ)) : Prop :=
  Code.Amid heldOps Upkeep (fun _ op p => p.state.Admits op) x p a q

end Point

/-- Code run on its own: it finds everything in memory and leaves everything there. -/
def Point.alone {α : Type} (x : Emit α) (p : Point (DspState σ)) : α × Point (DspState σ) :=
  let r := x.run compiledOps ⟨.enter p.state, p.emission⟩
  (r.1, ⟨r.2.state.finalize, r.2.emission⟩)

/-- The end of a block: PC and `pc_advance`. -/
def DspState.endBlock (endedWithTerminator : Bool) (instLen : Nat) (pc : Word) (s : DspState σ) :
    DspState σ :=
  if endedWithTerminator then
    { s with pc := maskPc (if instLen = 0 then s.pc else pc), pcAdvance := BitVec.ofNat 32 instLen }
  else { s with pc := maskPc pc, pcAdvance := 1 }

/-- A way out: the length goes to `pc_advance`, and an early one stores the address it resumes
at. -/
def DspState.leave (exit : BlockExit) (instLen : Nat) (s : DspState σ) : DspState σ :=
  let s := { s with pcAdvance := BitVec.ofNat 32 instLen }
  match exit with
  | .finalize => s
  | .exitRequested resumePc | .faultArmed resumePc | .quantumSpent resumePc =>
    { s with pc := maskPc (BitVec.ofNat 32 resumePc) }

/-- A path through a block so far, with the stretches taken, the latest first. -/
structure Walk (S : Type) where
  point : Point S
  trace : List BlockAct := []

/-- A stretch of a block, where `runs` tells how code runs and `ends` what the end of the block
stores. -/
def BlockAct.does {S : Type} (runs : ∀ {α : Type}, Emit α → Point S → α → Point S → Prop)
    (ends : Bool → Word → Point S → Point S → Prop) (a : BlockAct) (p q : Point S) : Prop :=
  match a with
  | .instruction opcode pc nextWord => runs (emitInstruction (decode opcode) pc nextWord) p () q
  | .skip branch taken =>
    runs (do
      Code.call (.setDecodeLen (instructionLength branch.inst))
      emitSkipPredicate branch.inst) p taken q
  | .repSetup repInst annul => ∃ lc, (lc = 0 ↔ annul) ∧ runs (emitRepInlineSetup repInst) p lc q
  | .repIteration opcode pc nextWord => runs (emitRepIteration (decode opcode) pc nextWord) p () q
  | .repRestore => runs emitRepRestore p () q
  | .repLegacy opcode pc nextWord =>
    runs (do emitInstruction (decode opcode) pc nextWord; emitRepFirstCallArm pc) p () q
  | .doSetup doInst doPc la annul =>
    ∃ lc, (lc = 0 ↔ annul) ∧ runs (emitDoInlineSetup doInst doPc la) p lc q
  | .doAnnul la => runs (emitDoInlineAnnul la) p () q
  | .lcDecrement => runs emitLcDecrement p () q
  | .enddoCleanup => runs emitEnddoCleanup p () q
  | .storePcAdvance endedWithTerminator pc => ends endedWithTerminator (BitVec.ofNat 32 pc) p q

/-- The end of a block, where SR is up to date. -/
def Point.EndsBlock (ended : Bool) (pc : Word) (p q : Point (Held σ)) : Prop :=
  ∃ r, p.Settles r ∧ q = { r with
    state.alu := r.state.alu.setDsp (r.state.alu.dsp.endBlock ended r.emission.instLen pc) }

/-- Memory brought up to date, and the way out taken. -/
def Point.left (p : Point (Held σ)) (e : BlockExit) : Point (Held σ) :=
  { p with state := ⟨.enter (p.state.alu.finalize.leave e p.emission.instLen), .current⟩ }

/-- A block compiled as a whole: what one stretch leaves pending or unstored, the next finds so.
Every way out brings memory and SR up to date. -/
def wholeBlock : Effects BlockAct BlockExit (Walk (Held σ)) where
  act a w v := a.does Point.RunsAmid Point.EndsBlock w.point v.point ∧ v.trace = a :: w.trace
  exit e w v := ∃ p, w.point.Settles p ∧ v = { w with point := p.left e }

/-- The same stretches, each compiled on its own. -/
def stretchByStretch : Effects BlockAct BlockExit (Walk (DspState σ)) where
  act a w v := a.does (fun x p b q => p.alone x = (b, q))
    (fun ended pc p q => q = { p with
      state := p.state.endBlock ended p.emission.instLen pc })
    w.point v.point ∧ v.trace = a :: w.trace
  exit e w v := v = { w with
    point.state := w.point.state.leave e w.point.emission.instLen }

/-- The same path with memory brought up to date at its end. -/
def Walk.finalize (w : Walk (Held σ)) : Walk (DspState σ) :=
  ⟨⟨w.point.state.alu.finalize, w.point.emission⟩, w.trace⟩

/-! The two agree at the end of every stretch. -/

/-- Behind a point of compiled code is a state, the emitter being where it is. -/
structure Point.Matches (p : Point (Held σ)) (u : Point (DspState σ)) : Prop where
  agrees : p.state.Agrees (.enter u.state)
  emission : p.emission = u.emission

/-- A point with SR up to date. -/
def Point.held (p : Point (AluState σ)) : Point (Held σ) := ⟨⟨p.state, .current⟩, p.emission⟩

namespace Point.Matches

variable {α : Type} {p q : Point (Held σ)} {u v : Point (DspState σ)}

theorem current (h : p.Matches u) (hq : p.state.quarter = .current) :
    Agrees true false false p.state.alu (.enter u.state) := h.agrees.current hq

theorem within (h : p.Matches u) : u.state.Within := h.agrees.agrees.right.within

theorem finalize (h : p.Matches u) (hq : p.state.quarter = .current) :
    p.state.alu.finalize = u.state := (h.current hq).eq

theorem of_current {t : AluState σ} {e : EmitterState}
    (h : Agrees true false false t (.enter u.state)) (he : e = u.emission) :
    Point.Matches ⟨⟨t, .current⟩, e⟩ u := ⟨.of_current h, he⟩

theorem enter {s : DspState σ} (hs : s.Within) (e : EmitterState) :
    (⟨⟨.enter s, .current⟩, e⟩ : Point (Held σ)).Matches ⟨s, e⟩ := .of_current (.enter hs) rfl

theorem upkeep (h : p.Matches u) (hu : p.Upkeep q) : q.Matches u :=
  ⟨h.agrees.upkeep hu.1, hu.2.trans h.emission⟩

theorem settle (h : p.Matches u) (hp : p.Settles q) : q.Matches u :=
  Code.interference_keeps (R := Point.Matches) (fun _ _ _ hu h => h.upkeep hu) hp.1 h

/-- Code amid upkeep does what it does on its own. -/
theorem amid {x : Emit α} [hx : Fitting x] {a : α} (h : p.Matches u) (hr : p.RunsAmid x a q) :
    (u.alone x).1 = a ∧ q.Matches (u.alone x).2 := by
  let R (p : Point (Held σ)) (q : Point (AluState σ)) : Prop :=
    p.state.Agrees q.state ∧ p.emission = q.emission
  have hupkeep (p p' : Point (Held σ)) (q : Point (AluState σ)) (hu : p.Upkeep p') (hR : R p q) :
      R p' q := ⟨hR.1.upkeep hu.1, hu.2.trans hR.2⟩
  have hop (γ : Type) (op : Op γ) (p : Point (Held σ)) (q : Point (AluState σ))
      (hfits : op.Fits) (hok : p.state.Admits op) (hR : R p q) :
      (heldOps γ op p).1 = (compiledOps γ op q).1 ∧ op.Yields (heldOps γ op p).1 ∧
        R (heldOps γ op p).2 (compiledOps γ op q).2 := by
    obtain ⟨x, e⟩ := p
    obtain ⟨t, e'⟩ := q
    obtain ⟨hagrees, rfl⟩ : x.Agrees t ∧ e = e' := hR
    obtain ⟨heq, hyields, hnext⟩ := hagrees.op e.anchor hfits hok
    exact ⟨heq, hyields, hnext, rfl⟩
  obtain ⟨ha, hagrees, hemission⟩ := Code.Amid.agrees (R := R) hupkeep hop hx.allOn hr
    (t := ⟨.enter u.state, u.emission⟩) ⟨h.agrees, h.emission⟩
  exact ⟨ha, hagrees.restart, hemission⟩

end Point.Matches

namespace BlockAct

variable {S T : Type} {R : Point S → Point T → Prop}
  {runs : ∀ {α : Type}, Emit α → Point S → α → Point S → Prop}
  {ends : Bool → Word → Point S → Point S → Prop}
  {runs' : ∀ {α : Type}, Emit α → Point T → α → Point T → Prop}
  {ends' : Bool → Word → Point T → Point T → Prop}

/-- Where two ways to run code agree on what the emitter writes, they agree on every stretch. -/
theorem does_of
    (hruns : ∀ {α : Type} (x : Emit α) [Fitting x] {a : α} {p q : Point S} {u : Point T},
      R p u → runs x p a q → ∃ v, runs' x u a v ∧ R q v)
    (hends : ∀ {ended : Bool} {pc : Word} {p q : Point S} {u : Point T},
      R p u → ends ended pc p q → ∃ v, ends' ended pc u v ∧ R q v)
    (a : BlockAct) {p q : Point S} {u : Point T} (hu : R p u) (h : a.does runs ends p q) :
    ∃ v, a.does runs' ends' u v ∧ R q v := by
  cases a with
  | repSetup repInst annul =>
    obtain ⟨lc, hlc, h⟩ := h
    obtain ⟨v, hv, hR⟩ := hruns _ hu h
    exact ⟨v, ⟨lc, hlc, hv⟩, hR⟩
  | doSetup doInst doPc la annul =>
    obtain ⟨lc, hlc, h⟩ := h
    obtain ⟨v, hv, hR⟩ := hruns _ hu h
    exact ⟨v, ⟨lc, hlc, hv⟩, hR⟩
  | storePcAdvance endedWithTerminator pc => exact hends hu h
  | _ => exact hruns _ hu h

end BlockAct

section Ends

variable {s : DspState σ}

theorem aside_endBlock (ended : Bool) (instLen : Nat) (pc : Word) :
    Aside (Alu.change (DspState.endBlock (σ := σ) ended instLen pc)) := by
  refine ⟨fun r _ s v => ?_, fun s hs => ?_⟩
  · cases ended <;> rfl
  · cases ended <;> exact ⟨hs.registers, hs.slots, is24_masked _, hs.interrupts, hs.memory⟩

theorem DspState.Within.leave (hs : s.Within) (e : BlockExit) (instLen : Nat) :
    (s.leave e instLen).Within := by
  cases e with
  | finalize => exact ⟨hs.registers, hs.slots, hs.pc, hs.interrupts, hs.memory⟩
  | _ => exact ⟨hs.registers, hs.slots, is24_masked _, hs.interrupts, hs.memory⟩

end Ends

namespace Point

variable {α : Type} {p q : Point (Held σ)} {u : Point (DspState σ)}

/-- The end of a block. -/
theorem Matches.endsBlock {ended : Bool} {pc : Word} (h : p.Matches u)
    (hp : p.EndsBlock ended pc q) :
    q.Matches { u with state := u.state.endBlock ended u.emission.instLen pc } := by
  obtain ⟨r, hr, rfl⟩ := hp
  have hmatches := h.settle hr
  have hcurrent := hmatches.current hr.2
  have haside := aside_endBlock (σ := σ) ended u.emission.instLen pc
  obtain ⟨-, hagrees⟩ := hcurrent.setDsp haside
  have hrestart := hagrees.restart
  rw [hcurrent.right.finalize_setDsp haside] at hrestart
  have hlen : r.emission.instLen = u.emission.instLen := congrArg _ hmatches.emission
  obtain ⟨⟨t, quarter⟩, e⟩ := r
  obtain rfl : quarter = .current := hr.2
  refine .of_current ?_ hmatches.emission
  rw [hlen]
  exact hrestart

/-- A way out. -/
theorem Matches.leave (h : p.Matches u) (hq : p.state.quarter = .current) (e : BlockExit) :
    (p.left e).Matches { u with state := u.state.leave e u.emission.instLen } := by
  have hlen : p.emission.instLen = u.emission.instLen := congrArg _ h.emission
  have hstate : p.state.alu.finalize = u.state := h.finalize hq
  refine .of_current ?_ h.emission
  rw [hstate, hlen]
  exact .enter (h.within.leave e u.emission.instLen)

/-- Without upkeep. -/
theorem runsAmid_plain (x : Emit α) (hp : p.state.quarter = .current) :
    p.RunsAmid x (x.run heldOps p).1 (x.run heldOps p).2 ∧
      (x.run heldOps p).2.state.quarter = .current := by
  refine Code.Amid.plain (J := fun p : Point (Held σ) => p.state.quarter = .current)
    (fun γ op p hp => ?_) x hp
  obtain ⟨⟨t, quarter⟩, e⟩ := p
  obtain rfl : quarter = .current := hp
  exact ⟨trivial, rfl⟩

end Point

/-- The two paths have come to the same state through the same stretches. -/
structure Walk.Matches (w : Walk (Held σ)) (u : Walk (DspState σ)) : Prop where
  point : w.point.Matches u.point
  trace : w.trace = u.trace

/-- SR is up to date. -/
def Walk.Current (w : Walk (Held σ)) : Prop := w.point.state.quarter = .current

namespace Walk.Matches

variable {w : Walk (Held σ)} {u : Walk (DspState σ)}

theorem finalize (h : w.Matches u) (hq : w.Current) : w.finalize = u := by
  obtain ⟨p, trace⟩ := w
  obtain ⟨⟨s, e⟩, trace'⟩ := u
  obtain ⟨hpoint, rfl⟩ : _ ∧ trace = trace' := ⟨h.point, h.trace⟩
  have hemission : p.emission = e := hpoint.emission
  have hstate : p.state.alu.finalize = s := hpoint.finalize hq
  rw [Walk.finalize, hstate, hemission]

theorem act {v : Walk (Held σ)} {a : BlockAct} (ha : wholeBlock.act a w v) (h : w.Matches u) :
    ∃ x, stretchByStretch.act a u x ∧ v.Matches x := by
  obtain ⟨hdoes, htrace⟩ := ha
  have hruns {α : Type} (x : Emit α) [Fitting x] {a : α} {p q : Point (Held σ)}
      {u : Point (DspState σ)} (hu : p.Matches u) (hr : p.RunsAmid x a q) :
      ∃ v, u.alone x = (a, v) ∧ q.Matches v := by
    obtain ⟨ha, hq⟩ := hu.amid hr
    exact ⟨_, Prod.ext ha rfl, hq⟩
  have hends {ended : Bool} {pc : Word} {p q : Point (Held σ)} {u : Point (DspState σ)}
      (hu : p.Matches u) (h : p.EndsBlock ended pc q) :
      ∃ v, v = { u with state := u.state.endBlock ended u.emission.instLen pc } ∧
        q.Matches v := ⟨_, rfl, hu.endsBlock h⟩
  obtain ⟨x, hx, hpoint⟩ := BlockAct.does_of @hruns @hends a h.point hdoes
  exact ⟨⟨x, a :: u.trace⟩, ⟨hx, rfl⟩, hpoint, htrace.trans (congrArg _ h.trace)⟩

theorem exit {v : Walk (Held σ)} {e : BlockExit} (he : wholeBlock.exit e w v)
    (h : w.Matches u) : ∃ x, stretchByStretch.exit e u x ∧ v.Matches x := by
  obtain ⟨p, hp, rfl⟩ := he
  exact ⟨_, rfl, (h.point.settle hp).leave hp.2 e, h.trace⟩

/-- Every stretch on its own is one that a compiled block can contain. -/
theorem act_of {x : Walk (DspState σ)} {a : BlockAct} (ha : stretchByStretch.act a u x)
    (h : w.Matches u) (hw : w.Current) :
    ∃ v, wholeBlock.act a w v ∧ v.Matches x ∧ v.Current := by
  obtain ⟨hdoes, htrace⟩ := ha
  let R (u : Point (DspState σ)) (p : Point (Held σ)) : Prop :=
    p.Matches u ∧ p.state.quarter = .current
  have hruns {α : Type} (x : Emit α) [Fitting x] {a : α} {u u' : Point (DspState σ)}
      {p : Point (Held σ)} (hp : R u p) (hr : u.alone x = (a, u')) :
      ∃ q, p.RunsAmid x a q ∧ R u' q := by
    obtain ⟨hplain, hcurrent⟩ := Point.runsAmid_plain x hp.2
    obtain ⟨ha, hq⟩ := hp.1.amid hplain
    rw [hr] at ha hq
    have ha : a = (x.run heldOps p).1 := ha
    exact ⟨_, ha ▸ hplain, hq, hcurrent⟩
  have hends {ended : Bool} {pc : Word} {u u' : Point (DspState σ)} {p : Point (Held σ)}
      (hp : R u p) (h : u' = { u with
        state := u.state.endBlock ended u.emission.instLen pc }) :
      ∃ q, p.EndsBlock ended pc q ∧ R u' q := by
    subst h
    have hsettles : p.EndsBlock ended pc _ := ⟨p, ⟨.refl, hp.2⟩, rfl⟩
    exact ⟨_, hsettles, hp.1.endsBlock hsettles, hp.2⟩
  obtain ⟨q, hq, hpoint, hcurrent⟩ :=
    BlockAct.does_of (R := R) @hruns @hends a ⟨h.point, hw⟩ hdoes
  exact ⟨⟨q, a :: w.trace⟩, ⟨hq, rfl⟩, ⟨hpoint, (congrArg _ h.trace).trans htrace.symm⟩, hcurrent⟩

theorem exit_of {x : Walk (DspState σ)} {e : BlockExit} (he : stretchByStretch.exit e u x)
    (h : w.Matches u) (hw : w.Current) :
    ∃ v, wholeBlock.exit e w v ∧ v.Matches x ∧ v.Current := by
  subst he
  exact ⟨_, ⟨w.point, ⟨.refl, hw⟩, rfl⟩, ⟨h.point.leave hw e, h.trace⟩, rfl⟩

end Walk.Matches

/-- The start of a block. -/
def Walk.start {S : Type} (s : S) : Walk S := ⟨⟨s, {}⟩, []⟩

/-- The entry of compiled code. -/
def Held.enter (s : DspState σ) : Held σ := ⟨.enter s, .current⟩

theorem Walk.matches_start {s : DspState σ} (hs : s.Within) :
    (Walk.start (.enter s) : Walk (Held σ)).Matches (.start s) := ⟨.enter hs {}, rfl⟩

/-- A path that leaves a block compiled as a whole is the path of its stretches. -/
theorem Walk.stretched {s : DspState σ} (hs : s.Within) {code : BlockCode} {w : Walk (Held σ)}
    (hw : Path wholeBlock code (.start (.enter s)) true w) :
    ∃ u, Path stretchByStretch code (.start s) true u ∧ w.Matches u ∧ w.Current := by
  have hends : Triple wholeBlock (fun _ => True) code (fun _ => True)
      (Walk.Current : Walk (Held σ) → Prop) :=
    .of_invariant (fun _ _ _ _ _ => trivial) (fun _ _ _ _ he => ?_) code
  · obtain ⟨u, hu, hR⟩ := hw.simulate (fun _ _ _ _ ha h => h.act ha)
      (fun _ _ _ _ he h => h.exit he) (matches_start hs)
    exact ⟨u, hu, hR, hends _ _ _ trivial hw⟩
  · obtain ⟨p, -, rfl⟩ := he
    rfl

/-! Every path through the code of a block leaves it. -/

theorem Builder.finish_left {S : Type} {eff : Effects BlockAct BlockExit S} {b : Builder}
    {ended left : Bool} {pc : Nat} {s t : S} (h : Path eff (b.finish ended pc) s left t) :
    left = true := by
  cases h with
  | left => rfl
  | seq _ h =>
    cases h with
    | left => rfl
    | seq _ h =>
      cases h
      rfl

theorem Pram.codeLoop_finish {p : Pram} {maxLen stopPc fuel : Nat} {s : BlockState} {b : Builder}
    {code : BlockCode} (h : p.codeLoop maxLen stopPc fuel s b = some code) :
    ∃ (b' : Builder) (ended : Bool) (pc : Nat), code = b'.finish ended pc := by
  induction fuel generalizing s b with
  | zero => cases h
  | succ fuel ih =>
    rw [codeLoop] at h
    split at h
    · cases h
      exact ⟨_, _, _, rfl⟩
    · obtain ⟨b', -, h⟩ := Option.bind_eq_some_iff.mp h
      obtain ⟨it, -, h⟩ := Option.bind_eq_some_iff.mp h
      cases it with
      | next t => exact ih h
      | done t ended =>
        cases h
        exact ⟨_, _, _, rfl⟩

theorem Pram.blockCode_left {S : Type} {eff : Effects BlockAct BlockExit S} {p : Pram}
    {startPc maxLen stopPc : Nat} {code : BlockCode} {left : Bool} {s t : S}
    (hcode : p.blockCode startPc maxLen stopPc = some code) (h : Path eff code s left t) :
    left = true := by
  obtain ⟨b, ended, pc, rfl⟩ := codeLoop_finish hcode
  exact Builder.finish_left h

/-- Compiling a block as a whole, with accumulators in variables, condition codes deferred across
its instructions and skips, and E, U, N and Z across the back edges of its loops, does what its
stretches do one at a time: every path through it ends in the state, the length and the cycles of
the same path stretch by stretch, which every such path is one of. -/
theorem compiled_whole (p : Pram) (startPc maxLen stopPc : Nat) {s : DspState σ}
    (hs : s.Within) :
    ∃ code, p.blockCode startPc maxLen stopPc = some code ∧
      (∀ left w, Path wholeBlock code (.start (.enter s)) left w →
        Path stretchByStretch code (.start s) left w.finalize) ∧
      ∀ left u, Path stretchByStretch code (.start s) left u →
        ∃ w, Path wholeBlock code (.start (.enter s)) left w ∧ w.finalize = u := by
  obtain ⟨code, hcode⟩ := p.blockCode_defined startPc maxLen stopPc
  refine ⟨code, hcode, fun left w hw => ?_, fun left u hu => ?_⟩
  · obtain rfl := Pram.blockCode_left hcode hw
    obtain ⟨u, hu, hR, hcurrent⟩ := Walk.stretched hs hw
    rw [hR.finalize hcurrent]
    exact hu
  · obtain ⟨w, hw, hR, hcurrent⟩ := Path.simulate
      (R := fun u w => Walk.Matches w u ∧ w.Current)
      (fun _ _ _ _ ha h => h.1.act_of ha h.2) (fun _ _ _ _ he h => h.1.exit_of he h.2) hu
      ⟨Walk.matches_start hs, rfl⟩
    exact ⟨w, hw, hR.finalize hcurrent⟩

/-- A REP over a MAC, which leaves E, U, N and Z to the end of the loop. -/
def repMac : Pram := ⟨16, fun a => if a = 0 then 0x0603A0 else if a = 1 then 0x2000D2 else 0⟩

theorem compiled_whole_rep :
    let s : DspState Unit := .new ⟨[], [], []⟩ ⟨fun _ => 0, ()⟩
    ∃ code, repMac.blockCode 0 2 0x1000000 = some code ∧
      (∀ left w, Path wholeBlock code (.start (.enter s)) left w →
        Path stretchByStretch code (.start s) left w.finalize) ∧
      ∀ left u, Path stretchByStretch code (.start s) left u →
        ∃ w, Path wholeBlock code (.start (.enter s)) left w ∧ w.finalize = u :=
  compiled_whole repMac 0 2 0x1000000 (DspState.within_new MemoryMap.holds_unmapped)

end Dsp56300
