import Dsp56300.Emu.PWriteOrder
import Dsp56300.Lib.Spans

/-! The walks over forward-skip regions, each with what it comes by: the instructions it visits, the
skips it opens and where it closes them. -/

namespace Dsp56300.Pram

open Instruction Lib.Spans

variable {p : Pram} {maxLen stopPc : Nat} {s : BlockState}

/-- The words the instruction at `pc` takes. -/
def width (p : Pram) (pc : Nat) : Nat := instructionLength (p.instAt pc)

/-- `bodyScan`, with what it comes by; the inner result is `none` where the scan rejects. -/
def scanMarks (p : Pram) :
    (fuel depth la bodyPc count : Nat) → (skips : List Nat) → Option (Option (List Mark))
  | 0, _, _, _, _, _ => none
  | fuel + 1, depth, la, bodyPc, count, skips =>
    if bodyPc ≤ la then
      let ends := closings bodyPc skips
      let skips := popSkips bodyPc skips
      if bodyPc ≥ p.spaceEnd then some none
      else
        let inst := p.instAt bodyPc
        let len := instructionLength inst
        match inst.forwardSkipTarget bodyPc (p.nextWord bodyPc) with
        | some target =>
          if target < bodyPc + len || target > la || skips.head?.any (target > ·) then some none
          else
            (Option.map (ends ++ .opens bodyPc target :: ·)) <$>
              p.scanMarks fuel depth la (bodyPc + len) (count + 1) (target :: skips)
        | none =>
          if inst.isDoInstruction then
            let innerLa := inst.computeDoLa bodyPc (p.nextWord bodyPc)
            if !skips.isEmpty || inst.isDoForever || innerLa ≥ la then some none
            else if !p.bodyFits (depth + 1) (bodyPc + 2) innerLa (la + 1) then some none
            else do
              match ← p.scanMarks fuel (depth + 1) innerLa (bodyPc + 2) 0 [] with
              | none => some none
              | some inner =>
                let innerCount ← p.countBodyInstructions fuel (bodyPc + 2) innerLa
                (Option.map (ends ++ .item bodyPc :: inner ++ ·)) <$>
                  p.scanMarks fuel depth la (innerLa + 1) (count + (1 + innerCount)) skips
          else if unsafeInBody inst then some none
          else if inst.isRepInstruction then
            if !skips.isEmpty || bodyPc + 1 ≥ p.spaceEnd ||
                unsafeRepTarget (p.instAt (bodyPc + 1)) || p.afterRep bodyPc > la + 1 then
              some none
            else
              (Option.map (ends ++ .item bodyPc :: .item (bodyPc + 1) :: ·)) <$>
                p.scanMarks fuel depth la (p.afterRep bodyPc) (count + 2) skips
          else
            (Option.map (ends ++ .item bodyPc :: ·)) <$>
              p.scanMarks fuel depth la (bodyPc + len) (count + 1) skips
    else some (if bodyPc = la + 1 && skips.isEmpty && count ≤ maxInlineLen then some [] else none)

/-- `countBodyInstructions`, with the addresses it counts. -/
def countedPcs (p : Pram) : (fuel bodyPc la : Nat) → Option (List Nat)
  | 0, _, _ => none
  | fuel + 1, bodyPc, la =>
    if bodyPc ≤ la then
      let inst := p.instAt bodyPc
      if inst.isDoInstruction then do
        let innerLa := inst.computeDoLa bodyPc (p.nextWord bodyPc)
        let inner ← p.countedPcs fuel (bodyPc + 2) innerLa
        let rest ← p.countedPcs fuel (innerLa + 1) la
        some (bodyPc :: inner ++ rest)
      else if inst.isRepInstruction then
        let repInst := decode (p.nextWord bodyPc)
        ([bodyPc, bodyPc + 1] ++ ·) <$>
          p.countedPcs fuel (bodyPc + 1 + instructionLength repInst) la
      else (bodyPc :: ·) <$> p.countedPcs fuel (bodyPc + instructionLength inst) la
    else some []

/-- `emitDoBody`, with the skips it keeps open. -/
def emitDoMarks (p : Pram) : (fuel bodyPc la : Nat) → (skips : List Nat) → Option (List Mark)
  | 0, _, _, _ => none
  | fuel + 1, bodyPc, la, skips =>
    if bodyPc ≤ la then
      let ends := closings bodyPc skips
      let skips := popSkips bodyPc skips
      let inst := p.instAt bodyPc
      let len := instructionLength inst
      match inst.forwardSkipTarget bodyPc (p.nextWord bodyPc) with
      | some target =>
        (ends ++ .opens bodyPc target :: ·) <$>
          p.emitDoMarks fuel (bodyPc + len) la (target :: skips)
      | none =>
        if inst.isDoInstruction then do
          let innerLa := inst.computeDoLa bodyPc (p.nextWord bodyPc)
          let inner ← p.emitDoMarks fuel (bodyPc + 2) innerLa []
          let rest ← p.emitDoMarks fuel (innerLa + 1) la skips
          some (ends ++ .item bodyPc :: inner ++ rest)
        else if inst.isRepInstruction then
          (ends ++ .item bodyPc :: .item (bodyPc + 1) :: ·) <$>
            p.emitDoMarks fuel (p.afterRep bodyPc) la skips
        else (ends ++ .item bodyPc :: ·) <$> p.emitDoMarks fuel (bodyPc + len) la skips
    else some []

/-- `skipRegionScan`, with what it comes by. -/
def skipRegionMarks (p : Pram) (target pc : Nat) (skips : List Nat) : Option (List Mark) :=
  if pc < target then
    let ends := closings pc skips
    let skips := popSkips pc skips
    let inst := p.instAt pc
    match inst.forwardSkipTarget pc (p.nextWord pc) with
    | some inner =>
      if inner < pc + instructionLength inst || inner > skips.headD target then none
      else
        (ends ++ .opens pc inner :: ·) <$>
          p.skipRegionMarks target (pc + instructionLength inst) (inner :: skips)
    | none =>
      if inst.isDoInstruction || inst.isRepInstruction || inst.isBlockTerminator ||
          inst.writesPMemory then none
      else
        (ends ++ .item pc :: ·) <$>
          p.skipRegionMarks target (pc + instructionLength inst) skips
  else if pc ≠ target || skips.any (· ≠ target) then none
  else some []
termination_by target - pc
decreasing_by all_goals have := instructionLength_pos (p.instAt pc); omega

/-- What `emitDo` comes by. -/
def doMarks (p : Pram) (stopPc : Nat) (s : BlockState) : Option (List Mark) := do
  let inst := p.instAt s.pc
  let la := inst.computeDoLa s.pc (p.nextWord s.pc)
  let inlineable ← if inst.isDoForever then some false
    else p.isDoBodyInlineable (s.pc + 2) la stopPc
  if inlineable then
    (.item s.pc :: ·) <$> p.emitDoMarks (walkFuel (s.pc + 2) la) (s.pc + 2) la []
  else some [.item s.pc]

/-- What `emitNext` comes by. -/
def nextMarks (p : Pram) (maxLen stopPc : Nat) (s : BlockState) : Option (List Mark) :=
  let inst := p.instAt s.pc
  match p.acceptedSkip maxLen stopPc s with
  | some target => some [.opens s.pc target]
  | none =>
    if inst.isRepInstruction then
      some (if repFallsBack (decode (p.nextWord s.pc)) then [.item s.pc]
        else [.item s.pc, .item (s.pc + 1)])
    else if inst.isDoInstruction then p.doMarks stopPc s
    else some [.item s.pc]

/-- What `emitIteration` comes by. -/
def iterationMarks (p : Pram) (maxLen stopPc : Nat) (s : BlockState) : Option (List Mark) :=
  if p.exhausted maxLen s.closeSkips then some (closings s.pc s.openSkips)
  else (closings s.pc s.openSkips ++ ·) <$> p.nextMarks maxLen stopPc s.closeSkips

/-- What `emitLoop` comes by. -/
def loopMarks (p : Pram) (maxLen stopPc : Nat) : Nat → BlockState → Option (List Mark)
  | 0, _ => none
  | fuel + 1, s => do
    let ms ← p.iterationMarks maxLen stopPc s
    match ← p.emitIteration maxLen stopPc s with
    | .next t => (ms ++ ·) <$> p.loopMarks maxLen stopPc fuel t
    | .done _ _ => some ms

/-- What `emitBlock` comes by. -/
def blockMarks (p : Pram) (startPc maxLen stopPc : Nat) : Option (List Mark) :=
  p.loopMarks maxLen stopPc (p.spaceEnd - startPc + 1) (blockStart startPc)

/-- `n` iterations of the block loop none of which breaks it: what they come by, and the state they
come to. -/
def goOn (p : Pram) (maxLen stopPc : Nat) : Nat → BlockState → Option (List Mark × BlockState)
  | 0, s => some ([], s)
  | n + 1, s => do
    let ms ← p.iterationMarks maxLen stopPc s
    match ← p.emitIteration maxLen stopPc s with
    | .next t => (fun r => (ms ++ r.1, r.2)) <$> p.goOn maxLen stopPc n t
    | .done _ _ => none

/-- What a scan comes by does not change whether it accepts. -/
private theorem isSome_map_map (f : List Mark → List Mark) (r : Option (Option (List Mark))) :
    ((Option.map f) <$> r).map Option.isSome = r.map Option.isSome := by
  cases r <;> simp

theorem scanMarks_isSome (p : Pram) (fuel depth la pc count : Nat) (skips : List Nat) :
    (p.scanMarks fuel depth la pc count skips).map Option.isSome =
      p.bodyScan fuel depth la pc count skips := by
  induction fuel generalizing depth la pc count skips with
  | zero => rfl
  | succ fuel ih =>
    simp only [scanMarks, bodyScan]
    by_cases hpc : pc ≤ la
    · rw [if_pos hpc, if_pos hpc]
      split
      · rfl
      · cases (p.instAt pc).forwardSkipTarget pc (p.nextWord pc) with
        | some target =>
          simp only
          split
          · rfl
          · rw [isSome_map_map, ih]
        | none =>
          simp only
          split
          · split
            · rfl
            · split
              · rfl
              · rw [← ih (depth + 1)]
                cases p.scanMarks fuel (depth + 1) _ (pc + 2) 0 [] with
                | none => rfl
                | some inner =>
                  cases inner with
                  | none => rfl
                  | some marks =>
                    simp only [Option.bind_eq_bind, Option.bind_some, Option.map_some,
                      Option.isSome_some, Bool.not_true, Bool.false_eq_true, ↓reduceIte]
                    cases p.countBodyInstructions fuel (pc + 2) _ with
                    | none => rfl
                    | some n => exact (isSome_map_map _ _).trans (ih ..)
          · split
            · rfl
            · split
              · split
                · rfl
                · rw [isSome_map_map, ih]
              · rw [isSome_map_map, ih]
    · rw [if_neg hpc, if_neg hpc]
      split <;> simp_all

/-- The counting walk counts the addresses it comes by. -/
theorem countedPcs_length (p : Pram) (fuel pc la : Nat) :
    (p.countedPcs fuel pc la).map List.length = p.countBodyInstructions fuel pc la := by
  induction fuel generalizing pc la with
  | zero => rfl
  | succ fuel ih =>
    simp only [countedPcs, countBodyInstructions]
    split
    · split
      · rw [← ih, ← ih]
        cases p.countedPcs fuel (pc + 2) _ with
        | none => rfl
        | some inner =>
          cases p.countedPcs fuel _ la with
          | none => rfl
          | some rest => simp [Nat.add_comm 1]; omega
      · split
        · rw [← ih]
          cases p.countedPcs fuel _ la with
          | none => rfl
          | some rest => simp; omega
        · rw [← ih]
          cases p.countedPcs fuel _ la <;> simp [Nat.add_comm]
    · rfl

/-- The marked walk over a DO body comes by the instructions the walk emits. -/
theorem emitDoMarks_items (p : Pram) (fuel pc la : Nat) (skips : List Nat) :
    (p.emitDoMarks fuel pc la skips).map items =
      (p.emitDoBody fuel pc la).map (List.map Emitted.pc) := by
  induction fuel generalizing pc la skips with
  | zero => rfl
  | succ fuel ih =>
    have hone (x : List Mark → List Mark) (y : List Emitted → List Emitted) (pc' : Nat)
        (skips' : List Nat) (h : ∀ ms es, items ms = es.map Emitted.pc →
          items (x ms) = (y es).map Emitted.pc) :
        (x <$> p.emitDoMarks fuel pc' la skips').map items =
          (y <$> p.emitDoBody fuel pc' la).map (List.map Emitted.pc) := by
      have := ih pc' la skips'
      revert this
      cases p.emitDoMarks fuel pc' la skips' <;> cases p.emitDoBody fuel pc' la <;> simp
      exact h _ _
    simp only [emitDoMarks, emitDoBody]
    split
    · cases (p.instAt pc).forwardSkipTarget pc (p.nextWord pc) with
      | some target => exact hone _ _ _ _ fun ms es h => by simp [items, h]
      | none =>
        simp only [Option.isSome_none, Bool.false_eq_true, ↓reduceIte]
        split
        · have hi := ih (pc + 2) ((p.instAt pc).computeDoLa pc (p.nextWord pc)) []
          have hr := ih ((p.instAt pc).computeDoLa pc (p.nextWord pc) + 1) la (popSkips pc skips)
          revert hi hr
          cases p.emitDoMarks fuel (pc + 2) _ [] <;> cases p.emitDoBody fuel (pc + 2) _ <;>
            cases p.emitDoMarks fuel _ la _ <;> cases p.emitDoBody fuel _ la <;> simp
          intro hi hr
          simp [items, hi, hr]
        · split
          · exact hone _ _ _ _ fun ms es h => by simp [items, emitRepInline, h]
          · exact hone _ _ _ _ fun ms es h => by simp [items, h]
    · rfl

theorem skipRegionMarks_items (p : Pram) (target pc count : Nat) (skips : List Nat) :
    (p.skipRegionMarks target pc skips).map (fun ms => count + (items ms).length) =
      p.skipRegionScan target pc count skips := by
  induction pc, count, skips using skipRegionScan.induct p target with
  | case1 pc count skips hpc skips' inst inner ht hbad =>
    rw [skipRegionMarks, skipRegionScan, if_pos hpc, if_pos hpc]
    simp only [inst, skips'] at ht hbad
    simp only [ht, if_pos hbad, Option.map_none]
  | case2 pc count skips hpc skips' inst inner ht hok ih =>
    rw [skipRegionMarks, skipRegionScan, if_pos hpc, if_pos hpc]
    simp only [inst, skips'] at ht hok ih
    simp only [ht, if_neg hok, ← ih]
    cases p.skipRegionMarks target _ _ <;> simp [items]
    omega
  | case3 pc count skips hpc inst ht hbad =>
    rw [skipRegionMarks, skipRegionScan, if_pos hpc, if_pos hpc]
    simp only [inst] at ht hbad
    simp only [ht, if_pos hbad, Option.map_none]
  | case4 pc count skips hpc skips' inst ht hok ih =>
    rw [skipRegionMarks, skipRegionScan, if_pos hpc, if_pos hpc]
    simp only [inst, skips'] at ht hok ih
    simp only [ht, if_neg hok, ← ih]
    cases p.skipRegionMarks target _ _ <;> simp [items]
    omega
  | case5 pc count skips hpc hbad =>
    rw [skipRegionMarks, skipRegionScan, if_neg hpc, if_neg hpc, if_pos hbad, if_pos hbad]
    rfl
  | case6 pc count skips hpc hok =>
    rw [skipRegionMarks, skipRegionScan, if_neg hpc, if_neg hpc, if_neg hok, if_neg hok]
    rfl

end Dsp56300.Pram
