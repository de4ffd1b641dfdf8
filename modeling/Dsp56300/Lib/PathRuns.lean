import Dsp56300.Lib.Paths

/-! Structured code with its conditions decided by the state: a run takes one of the paths. -/

namespace Lib.Paths

variable {A E σ τ : Type}

/-- What actions and exits make of a state they apply to, and whether a loop goes on from it. -/
structure Steps (A E σ : Type) where
  act : A → σ → Option σ
  exit : E → σ → Option σ
  again : σ → Bool

/-- A body run until it leaves, the test behind it fails or `n` more passes are over. -/
def passes (again : σ → Bool) (body : σ → Option (Bool × σ)) : Nat → σ → Option (Bool × σ)
  | 0, s => body s
  | n + 1, s =>
    (body s).bind fun r => if r.1 || !again r.2 then some r else passes again body n r.2

/-- A run. The second arm of a branch is taken where the first does not apply; a loop has at most
`n + 1` passes. -/
def Prog.run (m : Steps A E σ) (n : Nat) : Prog A E → σ → Option (Bool × σ)
  | nop, s => some (false, s)
  | act a, s => (m.act a s).map (false, ·)
  | exit e, s => (m.exit e s).map (true, ·)
  | seq p q, s => (p.run m n s).bind fun r => if r.1 then some r else q.run m n r.2
  | branch p q, s => (p.run m n s).or (q.run m n s)
  | loop p, s => passes m.again (p.run m n) n s

variable {m : Steps A E σ} {n : Nat} {p q r : Prog A E} {a b : A} {e : E} {s t : σ} {left : Bool}

section Sound

variable {eff : Effects A E τ} {view : σ → τ}

theorem passes_path {body : σ → Option (Bool × σ)}
    (hbody : ∀ {s left t}, body s = some (left, t) → Path eff p (view s) left (view t))
    (h : passes m.again body n s = some (left, t)) :
    Path eff (.loop p) (view s) left (view t) := by
  induction n generalizing s with
  | zero => exact .last (hbody h)
  | succ n ih =>
    rw [passes, Option.bind_eq_some_iff] at h
    obtain ⟨⟨left', u⟩, hu, h⟩ := h
    cases left' with
    | true =>
      cases h
      exact .last (hbody hu)
    | false =>
      split at h
      · cases h
        exact .last (hbody hu)
      · exact .again (hbody hu) (ih h)

/-- A run takes a path, where its steps are among the effects on what is seen of the state. -/
theorem Prog.run_path (hact : ∀ a s t, m.act a s = some t → eff.act a (view s) (view t))
    (hexit : ∀ e s t, m.exit e s = some t → eff.exit e (view s) (view t))
    (h : p.run m n s = some (left, t)) : Path eff p (view s) left (view t) := by
  induction p generalizing s left t with
  | nop =>
    cases h
    exact .nop
  | act a =>
    obtain ⟨u, hu, h⟩ := Option.map_eq_some_iff.mp h
    cases h
    exact .act (hact a s _ hu)
  | exit e =>
    obtain ⟨u, hu, h⟩ := Option.map_eq_some_iff.mp h
    cases h
    exact .exit (hexit e s _ hu)
  | seq p q ihp ihq =>
    obtain ⟨⟨left', u⟩, hu, h⟩ := Option.bind_eq_some_iff.mp h
    cases left' with
    | true =>
      cases h
      exact .left (ihp hu)
    | false => exact .seq (ihp hu) (ihq h)
  | branch p q ihp ihq =>
    rcases Option.or_eq_some_iff.mp h with h | ⟨-, h⟩
    · exact .fst (ihp h)
    · exact .snd (ihq h)
  | loop p ih => exact passes_path ih h

end Sound

/-! Runs that do not get stuck. -/

/-- Some step applies wherever the run comes. -/
def Total (m : Steps A E σ) (n : Nat) (p : Prog A E) : Prop := ∀ s, (p.run m n s).isSome

/-- Where the one does not apply, the other does. -/
def Covers (m : Steps A E σ) (n : Nat) (p q : Prog A E) : Prop :=
  ∀ s, p.run m n s = none → (q.run m n s).isSome

theorem total_nop : Total m n .nop := fun _ => rfl

theorem total_act (h : ∀ s, (m.act a s).isSome) : Total m n (.act a) := fun s =>
  (Option.isSome_map ..).trans (h s)

theorem total_exit (h : ∀ s, (m.exit e s).isSome) : Total m n (.exit e) := fun s =>
  (Option.isSome_map ..).trans (h s)

theorem Total.run (h : Total m n p) (s : σ) : ∃ left t, p.run m n s = some (left, t) := by
  obtain ⟨⟨left, t⟩, ht⟩ := Option.isSome_iff_exists.mp (h s)
  exact ⟨left, t, ht⟩

theorem Total.seq (hp : Total m n p) (hq : Total m n q) : Total m n (.seq p q) := by
  intro s
  obtain ⟨left, t, ht⟩ := hp.run s
  rw [Prog.run, ht]
  cases left with
  | true => rfl
  | false => exact hq t

theorem Total.loop (hp : Total m n p) : Total m n (.loop p) := by
  have hpasses (k : Nat) (s : σ) : (passes m.again (p.run m n) k s).isSome := by
    induction k generalizing s with
    | zero => exact hp s
    | succ k ih =>
      obtain ⟨left, t, ht⟩ := hp.run s
      rw [passes, ht]
      dsimp only [Option.bind_some]
      split
      · rfl
      · exact ih t
  exact hpasses n

theorem Covers.total (h : Covers m n p q) : Total m n (.branch p q) := by
  intro s
  rw [Prog.run, Option.isSome_or]
  cases hp : p.run m n s with
  | some r => rfl
  | none => exact h s hp

theorem Total.covers (h : Total m n q) : Covers m n p q := fun s _ => h s

theorem covers_act (h : ∀ s, m.act a s = none → (m.act b s).isSome) :
    Covers m n (.act a) (.act b) := fun s hs =>
  (Option.isSome_map ..).trans (h s (Option.map_eq_none_iff.mp hs))

theorem Covers.seq_left (h : Covers m n p q) (hr : Total m n r) :
    Covers m n (.seq p r) q := by
  intro s hs
  refine h s ?_
  rw [Prog.run, Option.bind_eq_none_iff] at hs
  cases hp : p.run m n s with
  | none => rfl
  | some u =>
    have hnone := hs u hp
    split at hnone
    · cases hnone
    · have hsome := hr u.2
      rw [hnone] at hsome
      cases hsome

theorem Covers.seq_right (h : Covers m n p q) (hr : Total m n r) :
    Covers m n p (.seq q r) := by
  intro s hs
  obtain ⟨⟨left, t⟩, ht⟩ := Option.isSome_iff_exists.mp (h s hs)
  rw [Prog.run, ht]
  cases left with
  | true => rfl
  | false => exact hr t

/-! A path through everything: second arms, and each loop twice. -/

/-- The path on which actions and exits come to what the functions say. -/
def Prog.follow (f : A → σ → σ) (g : E → σ → σ) : Prog A E → σ → Bool × σ
  | nop, s => (false, s)
  | act a, s => (false, f a s)
  | exit e, s => (true, g e s)
  | seq p q, s =>
    let r := p.follow f g s
    if r.1 then r else q.follow f g r.2
  | branch _ q, s => q.follow f g s
  | loop p, s =>
    let r := p.follow f g s
    if r.1 then r else p.follow f g r.2

theorem Prog.follow_path {eff : Effects A E σ} {f : A → σ → σ} {g : E → σ → σ}
    (hf : ∀ a s, eff.act a s (f a s)) (hg : ∀ e s, eff.exit e s (g e s)) (p : Prog A E) (s : σ) :
    Path eff p s (p.follow f g s).1 (p.follow f g s).2 := by
  induction p generalizing s with
  | nop => exact .nop
  | act a => exact .act (hf a s)
  | exit e => exact .exit (hg e s)
  | seq p q ihp ihq =>
    have hp := ihp s
    rw [follow]
    cases hleft : (p.follow f g s).1 with
    | true =>
      rw [hleft] at hp
      simpa [hleft] using Path.left hp
    | false =>
      rw [hleft] at hp
      simpa [hleft] using Path.seq hp (ihq _)
  | branch p q _ ihq => exact .snd (ihq s)
  | loop p ih =>
    have hp := ih s
    rw [follow]
    cases hleft : (p.follow f g s).1 with
    | true =>
      rw [hleft] at hp
      simpa [hleft] using Path.last hp
    | false =>
      rw [hleft] at hp
      simpa [hleft] using Path.again hp (.last (ih _))

end Lib.Paths
