import Mathlib.Data.List.Basic

/-! Parsers of token lists, for languages that end a statement at the end of its line. -/

namespace Lib.LineParsers

/-- A result with more tokens behind those it leaves. -/
def followedBy {τ ε α : Type} (r : Except ε (α × List τ)) (more : List τ) :
    Except ε (α × List τ) := r.map fun (a, rest) => (a, rest ++ more)

/-- A parser that leaves a suffix of its tokens, and that takes a token at which a line stops for
the end of the tokens. -/
structure LineParser {τ : Type} (stop : τ → Bool) (ε α : Type) where
  run : List τ → Except ε (α × List τ)
  suffix : ∀ {ts rest : List τ} {a : α}, run ts = .ok (a, rest) → rest <:+ ts
  lineEnd : ∀ {t : τ}, stop t = true → ∀ ts more : List τ,
    run (ts ++ t :: more) = followedBy (run ts) (t :: more)

namespace LineParser

variable {τ ε α β : Type} {stop : τ → Bool}

theorem followedBy_ok {r : Except ε (α × List τ)} {more out : List τ} {a : α}
    (h : followedBy r more = .ok (a, out)) : ∃ rest, r = .ok (a, rest) ∧ out = rest ++ more := by
  cases r with
  | error e => exact absurd h nofun
  | ok p =>
    cases h
    exact ⟨p.2, rfl, rfl⟩

instance : Monad (LineParser stop ε) where
  pure a := {
    run := fun ts => .ok (a, ts)
    suffix := fun h => by cases h; exact List.suffix_rfl
    lineEnd := fun _ _ _ => rfl }
  bind p f := {
    run := fun ts => match p.run ts with
      | .error e => .error e
      | .ok (a, rest) => (f a).run rest
    suffix := fun {ts _ _} h => by
      cases hp : p.run ts with
      | error e =>
        rw [hp] at h
        exact absurd h nofun
      | ok r =>
        rw [hp] at h
        exact ((f r.1).suffix h).trans (p.suffix hp)
    lineEnd := fun ht ts more => by
      rw [p.lineEnd ht]
      cases p.run ts with
      | error e => rfl
      | ok r => exact (f r.1).lineEnd ht r.2 more }

theorem run_bind (p : LineParser stop ε α) (f : α → LineParser stop ε β) (ts : List τ) :
    (p >>= f).run ts = match p.run ts with
      | .error e => .error e
      | .ok (a, rest) => (f a).run rest := rfl

theorem bind_ok {p : LineParser stop ε α} {f : α → LineParser stop ε β} {ts rest : List τ} {a : α}
    (h : p.run ts = .ok (a, rest)) : (p >>= f).run ts = (f a).run rest := by
  rw [run_bind, h]

theorem bind_error {p : LineParser stop ε α} {f : α → LineParser stop ε β} {ts : List τ} {e : ε}
    (h : p.run ts = .error e) : (p >>= f).run ts = .error e := by
  rw [run_bind, h]

theorem bind_eq_ok {p : LineParser stop ε α} {f : α → LineParser stop ε β} {ts out : List τ}
    {b : β} : (p >>= f).run ts = .ok (b, out) ↔
      ∃ a rest, p.run ts = .ok (a, rest) ∧ (f a).run rest = .ok (b, out) := by
  constructor
  · intro h
    cases hp : p.run ts with
    | error e => exact absurd ((bind_error hp).symm.trans h) nofun
    | ok r => exact ⟨r.1, r.2, rfl, (bind_ok hp).symm.trans h⟩
  · intro ⟨a, rest, hp, hf⟩
    exact (bind_ok hp).trans hf

/-! Primitives. -/

def fail (e : ε) : LineParser stop ε α where
  run _ := .error e
  suffix := nofun
  lineEnd _ _ _ := rfl

/-- Take the next token; there is none at the end of the line. -/
def next : LineParser stop ε (Option τ) where
  run
    | [] => .ok (none, [])
    | t :: ts => if stop t then .ok (none, t :: ts) else .ok (some t, ts)
  suffix {ts _ _} h := by
    cases ts with
    | nil =>
      cases h
      exact List.suffix_rfl
    | cons t ts =>
      dsimp only at h
      split at h
      · cases h
        exact List.suffix_rfl
      · cases h
        exact List.suffix_cons t _
  lineEnd {t} ht ts more := by
    cases ts with
    | nil => exact if_pos ht
    | cons u ts =>
      change (if stop u then _ else _) = followedBy (if stop u then _ else _) _
      split <;> rfl

/-- Take the tokens of a parser only if it has a result. -/
def attempt (p : LineParser stop ε (Option α)) : LineParser stop ε (Option α) where
  run ts := match p.run ts with
    | .error e => .error e
    | .ok (none, _) => .ok (none, ts)
    | .ok (some a, rest) => .ok (some a, rest)
  suffix {ts _ _} h := by
    split at h
    · exact absurd h nofun
    · cases h
      exact List.suffix_rfl
    · next hp =>
      cases h
      exact p.suffix hp
  lineEnd ht ts more := by
    rw [p.lineEnd ht]
    cases p.run ts with
    | error e => rfl
    | ok r =>
      obtain ⟨a, rest⟩ := r
      cases a <;> rfl

/-- What a parser would find; no token is taken. -/
def lookahead (p : LineParser stop ε α) : LineParser stop ε α where
  run ts := (p.run ts).map fun (a, _) => (a, ts)
  suffix {ts _ _} h := by
    cases hp : p.run ts with
    | error e =>
      rw [hp] at h
      exact absurd h nofun
    | ok r =>
      rw [hp] at h
      cases h
      exact List.suffix_rfl
  lineEnd ht ts more := by
    rw [p.lineEnd ht]
    cases p.run ts <;> rfl

/-- Where a parser fails, go back and use another, which is given the error. -/
def orElse (p : LineParser stop ε α) (q : ε → LineParser stop ε α) : LineParser stop ε α where
  run ts := match p.run ts with
    | .error e => (q e).run ts
    | .ok r => .ok r
  suffix {ts _ _} h := by
    split at h
    · next e _ => exact (q e).suffix h
    · next hp =>
      cases h
      exact p.suffix hp
  lineEnd ht ts more := by
    rw [p.lineEnd ht]
    cases p.run ts with
    | error e => exact (q e).lineEnd ht ts more
    | ok r => rfl

/-- A recursion that is not cut off by bound `n`: a larger bound changes nothing, and the error of
a bound that is used up is not its result. -/
structure Sufficient (spent : ε) (p : Nat → LineParser stop ε α) (n : Nat) (ts : List τ) : Prop where
  same : ∀ {m : Nat}, n ≤ m → (p m).run ts = (p n).run ts
  done : (p n).run ts ≠ .error spent

/-- A recursive parser whose recursion the number of tokens bounds. -/
def bounded (spent : ε) (p : Nat → LineParser stop ε α)
    (enough : ∀ {n : Nat} {ts : List τ}, ts.length < n → Sufficient spent p n ts) :
    LineParser stop ε α where
  run ts := (p (ts.length + 1)).run ts
  suffix h := (p _).suffix h
  lineEnd ht ts more := by
    rw [(p _).lineEnd ht, (enough (Nat.lt_succ_self ts.length)).same (by simp)]

section Bounds

variable {spent : ε}

theorem bounded_run {p : Nat → LineParser stop ε α}
    {enough : ∀ {n : Nat} {ts : List τ}, ts.length < n → Sufficient spent p n ts} {n : Nat}
    {ts : List τ} (h : ts.length < n) : (bounded spent p enough).run ts = (p n).run ts :=
  ((enough (Nat.lt_succ_self ts.length)).same h).symm

theorem bounded_done {p : Nat → LineParser stop ε α}
    {enough : ∀ {n : Nat} {ts : List τ}, ts.length < n → Sufficient spent p n ts} (ts : List τ) :
    (bounded spent p enough).run ts ≠ .error spent := (enough (Nat.lt_succ_self ts.length)).done

theorem Sufficient.of_const {p : LineParser stop ε α} {n : Nat} {ts : List τ}
    (h : p.run ts ≠ .error spent) : Sufficient spent (fun _ => p) n ts := ⟨fun _ => rfl, h⟩

/-- One more level of the recursion. -/
theorem Sufficient.succ {p q : Nat → LineParser stop ε α} (hp : ∀ n, p (n + 1) = q n) {n : Nat}
    {ts : List τ} (h : Sufficient spent q n ts) : Sufficient spent p (n + 1) ts := by
  refine ⟨fun {m} hm => ?_, by rw [hp]; exact h.done⟩
  obtain ⟨k, rfl⟩ := Nat.exists_eq_add_of_lt (Nat.lt_of_succ_le hm)
  rw [hp, hp]
  exact h.same (by omega)

theorem Sufficient.bind {p : Nat → LineParser stop ε α} {f : Nat → α → LineParser stop ε β} {n : Nat}
    {ts : List τ} (hp : Sufficient spent p n ts)
    (hf : ∀ a rest, (p n).run ts = .ok (a, rest) → Sufficient spent (fun k => f k a) n rest) :
    Sufficient spent (fun k => p k >>= f k) n ts := by
  cases h : (p n).run ts with
  | error e =>
    have hdone := hp.done
    refine ⟨fun hm => ?_, ?_⟩
    · rw [bind_error h, bind_error ((hp.same hm).trans h)]
    · rw [bind_error h]
      rw [h] at hdone
      exact fun he => hdone (congrArg _ (Except.error.inj he))
  | ok r =>
    have hr := hf r.1 r.2 h
    refine ⟨fun hm => ?_, ?_⟩
    · rw [bind_ok h, bind_ok ((hp.same hm).trans h)]
      exact hr.same hm
    · rw [bind_ok h]
      exact hr.done

end Bounds

/-! Derived parsers. -/

/-- Take the next token if it is one of those a function is defined on. -/
def select (f : τ → Option α) : LineParser stop ε (Option α) :=
  attempt do
    match ← next with
    | some t => return f t
    | none => return none

/-- The next token, which is not taken. -/
def peek : LineParser stop ε (Option τ) := lookahead next

def atEnd : LineParser stop ε Bool := do return (← peek).isNone

/-- Take a token if it is the next one. -/
def eat [DecidableEq τ] (t : τ) : LineParser stop ε Bool := do
  return (← select fun u => if u = t then some u else none).isSome

/-- Fail where there is no result. -/
def orFail (p : LineParser stop ε (Option α)) (e : ε) : LineParser stop ε α := do
  match ← p with
  | some a => return a
  | none => fail e

theorem next_cons {t : τ} (h : stop t = false) (ts : List τ) :
    (next : LineParser stop ε (Option τ)).run (t :: ts) = .ok (some t, ts) := by
  have hif : (next : LineParser stop ε (Option τ)).run (t :: ts) =
      if stop t then .ok (none, t :: ts) else .ok (some t, ts) := rfl
  rw [hif, h]
  rfl

theorem atEnd_cons {t : τ} (h : stop t = false) (ts : List τ) :
    (atEnd : LineParser stop ε Bool).run (t :: ts) = .ok (false, t :: ts) := by
  have hpeek : (peek : LineParser stop ε (Option τ)).run (t :: ts) =
      ((next : LineParser stop ε (Option τ)).run (t :: ts)).map fun (a, _) => (a, t :: ts) := rfl
  rw [next_cons h ts] at hpeek
  exact bind_ok hpeek

theorem next_ok (ts : List τ) : ∃ r, (next : LineParser stop ε (Option τ)).run ts = .ok r := by
  cases ts with
  | nil => exact ⟨_, rfl⟩
  | cons t ts =>
    cases h : stop t with
    | true => exact ⟨_, (@next τ ε stop).lineEnd h [] ts⟩
    | false => exact ⟨_, next_cons h ts⟩

theorem next_some {t : τ} {ts rest : List τ}
    (h : (next : LineParser stop ε (Option τ)).run ts = .ok (some t, rest)) :
    ts = t :: rest ∧ stop t = false := by
  cases ts with
  | nil => exact absurd h nofun
  | cons u ts =>
    cases hstop : stop u with
    | true => exact absurd (((@next τ ε stop).lineEnd hstop [] ts).symm.trans h) nofun
    | false =>
      cases (next_cons hstop ts).symm.trans h
      exact ⟨rfl, hstop⟩

theorem attempt_ok {p : LineParser stop ε (Option α)} {ts rest : List τ} {a : Option α}
    (h : p.run ts = .ok (a, rest)) :
    (attempt p).run ts = .ok (a, if a.isSome then rest else ts) := by
  have hrun : (attempt p).run ts = match p.run ts with
    | .error e => .error e
    | .ok (none, _) => .ok (none, ts)
    | .ok (some a, rest) => .ok (some a, rest) := rfl
  rw [hrun, h]
  cases a <;> rfl

theorem select_cons {f : τ → Option α} {t : τ} (h : stop t = false) (ts : List τ) :
    (select f : LineParser stop ε (Option α)).run (t :: ts) =
      .ok (f t, if (f t).isSome then ts else t :: ts) :=
  attempt_ok (bind_ok (next_cons h ts))

theorem select_nil (f : τ → Option α) :
    (select f : LineParser stop ε (Option α)).run [] = .ok (none, []) := rfl

theorem select_stop {f : τ → Option α} {t : τ} (h : stop t = true) (ts : List τ) :
    (select f : LineParser stop ε (Option α)).run (t :: ts) = .ok (none, t :: ts) :=
  (select f).lineEnd h [] ts

/-- Either nothing is taken, or the next token. -/
theorem select_cases (f : τ → Option α) (ts : List τ) :
    (select f : LineParser stop ε (Option α)).run ts = .ok (none, ts) ∨
      ∃ t rest a, ts = t :: rest ∧ f t = some a ∧
        (select f : LineParser stop ε (Option α)).run ts = .ok (some a, rest) := by
  cases ts with
  | nil => exact .inl (select_nil f)
  | cons t ts =>
    cases hstop : stop t with
    | true => exact .inl (select_stop hstop ts)
    | false =>
      have hrun : (select f : LineParser stop ε (Option α)).run (t :: ts) = _ := select_cons hstop ts
      cases hf : f t with
      | none =>
        rw [hf] at hrun
        exact .inl hrun
      | some a =>
        rw [hf] at hrun
        exact .inr ⟨t, ts, a, rfl, hf, hrun⟩

theorem eat_ok [DecidableEq τ] (t : τ) (ts : List τ) :
    ∃ r, (eat t : LineParser stop ε Bool).run ts = .ok r := by
  obtain h | ⟨_, _, _, _, _, h⟩ :=
    @select_cases τ ε τ stop (fun u => if u = t then some u else none) ts
  · exact ⟨_, bind_ok h⟩
  · exact ⟨_, bind_ok h⟩

theorem eat_true [DecidableEq τ] {t : τ} {ts rest : List τ}
    (h : (eat t : LineParser stop ε Bool).run ts = .ok (true, rest)) : ts = t :: rest := by
  obtain hs | ⟨u, us, v, rfl, hu, hs⟩ :=
    @select_cases τ ε τ stop (fun u => if u = t then some u else none) ts
  · exact absurd ((bind_ok hs).symm.trans h) nofun
  · cases (bind_ok hs).symm.trans h
    obtain ⟨rfl, -⟩ := Option.ite_none_right_eq_some.mp hu
    rfl

theorem eat_cons [DecidableEq τ] {t : τ} (h : stop t = false) (ts : List τ) :
    (eat t : LineParser stop ε Bool).run (t :: ts) = .ok (true, ts) := by
  have hrun : (eat t : LineParser stop ε Bool).run (t :: ts) = _ := bind_ok (select_cons h ts)
  rw [hrun, if_pos rfl]
  rfl

/-- The tokens that are taken stand before the end of the line. -/
theorem taken {p : LineParser stop ε α} {ts rest : List τ} {a : α} (h : p.run ts = .ok (a, rest)) :
    ∃ own, ts = own ++ rest ∧ ∀ t ∈ own, stop t = false := by
  obtain ⟨own, rfl⟩ := p.suffix h
  refine ⟨own, rfl, fun t ht => Bool.eq_false_iff.mpr fun hstop => ?_⟩
  obtain ⟨pre, post, rfl⟩ := List.append_of_mem ht
  rw [List.append_assoc, List.cons_append, p.lineEnd hstop] at h
  obtain ⟨left, -, hleft⟩ := followedBy_ok h
  have hlen := congrArg List.length hleft
  simp only [List.length_append, List.length_cons] at hlen
  omega

/-- What is parsed up to the end of the line is parsed by itself. -/
theorem run_line {p : LineParser stop ε α} {ts more : List τ} {t : τ} {a : α}
    (ht : stop t = true) : p.run (ts ++ t :: more) = .ok (a, t :: more) ↔ p.run ts = .ok (a, []) := by
  rw [p.lineEnd ht]
  constructor
  · intro h
    obtain ⟨rest, hrest, happ⟩ := followedBy_ok h
    rw [hrest, List.append_left_eq_self.mp happ.symm]
  · intro h
    rw [h]
    rfl

end LineParser

end Lib.LineParsers
