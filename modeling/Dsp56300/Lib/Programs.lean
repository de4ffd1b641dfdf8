import Mathlib.Logic.Basic

/-! Programs as trees of operations, run by a handler, and what every run leaves in the part of
the state that some of the operations track. -/

namespace Lib.Programs

variable {E : Type → Type} {α β γ σ τ : Type}

/-- A program over the operations `E`: the answer of an operation selects how it goes on. -/
inductive Code (E : Type → Type) (α : Type) : Type 1 where
  | ret (a : α) : Code E α
  | op {γ : Type} (e : E γ) (k : γ → Code E α) : Code E α

namespace Code

def bind : Code E α → (α → Code E β) → Code E β
  | ret a, f => f a
  | op e k, f => op e fun c => (k c).bind f

instance : Monad (Code E) where
  pure := ret
  bind := bind

/-- One operation, returning its answer. -/
def call (e : E γ) : Code E γ := op e ret

/-- What carries out the operations on a state. -/
abbrev Handler (E : Type → Type) (σ : Type) := ∀ γ : Type, E γ → σ → γ × σ

def run (h : Handler E σ) : Code E α → σ → α × σ
  | ret a, s => (a, s)
  | op e k, s => (k (h _ e s).1).run h (h _ e s).2

/-- How the operations move the tracked part of a state, whatever they answer. -/
abbrev Tracks (E : Type → Type) (τ : Type) := ∀ γ : Type, E γ → τ → τ

/-- Every run from a tracked part `t` ends in `post`, whatever the operations answer. -/
def Always (m : Tracks E τ) (post : α → τ → Prop) : Code E α → τ → Prop
  | ret a, t => post a t
  | op e k, t => ∀ c, (k c).Always m post (m _ e t)

theorem bind_eq (x : Code E α) (f : α → Code E β) : x >>= f = x.bind f := rfl

variable {m : Tracks E τ} {t : τ}

@[simp] theorem always_pure {post : α → τ → Prop} {a : α} :
    Always m post (pure a : Code E α) t ↔ post a t := Iff.rfl

@[simp] theorem always_call {post : γ → τ → Prop} {e : E γ} :
    Always m post (call e) t ↔ ∀ c, post c (m _ e t) := Iff.rfl

@[simp] theorem always_bind {post : β → τ → Prop} {x : Code E α} {f : α → Code E β} :
    Always m post (x >>= f) t ↔ Always m (fun a u => Always m post (f a) u) x t := by
  rw [bind_eq]
  induction x generalizing t with
  | ret a => exact Iff.rfl
  | op e k ih => exact forall_congr' fun c => ih c

theorem Always.mono {post post' : α → τ → Prop} {x : Code E α} (hx : Always m post x t)
    (h : ∀ a u, post a u → post' a u) : Always m post' x t := by
  induction x generalizing t with
  | ret a => exact h a t hx
  | op e k ih =>
    intro c
    exact ih c (hx c)

theorem always_of_forall {post : α → τ → Prop} (h : ∀ a u, post a u) (x : Code E α) (t : τ) :
    Always m post x t := by
  induction x generalizing t with
  | ret a => exact h a t
  | op e k ih =>
    intro c
    exact ih c _

/-- A handler that moves the tracked part of its state as `m` says ends where `Always` says. -/
theorem Always.run {h : Handler E σ} {part : σ → τ} {post : α → τ → Prop} {x : Code E α} {s : σ}
    (hp : ∀ (γ : Type) (e : E γ) s, part (h γ e s).2 = m γ e (part s))
    (hx : Always m post x (part s)) : post (x.run h s).1 (part (x.run h s).2) := by
  induction x generalizing s with
  | ret a => exact hx
  | op e k ih =>
    apply ih
    rw [hp]
    exact hx _

@[simp] theorem ret_bind (a : α) (f : α → Code E β) : (pure a : Code E α) >>= f = f a := rfl

theorem bind_bind (x : Code E α) (f : α → Code E β) (g : β → Code E γ) :
    (x >>= f) >>= g = x >>= fun a => f a >>= g := by
  simp only [bind_eq]
  induction x with
  | ret a => rfl
  | op e k ih => exact congrArg (op e) (funext ih)

theorem run_bind (h : Handler E σ) (x : Code E α) (f : α → Code E β) (s : σ) :
    (x >>= f).run h s = (f (x.run h s).1).run h (x.run h s).2 := by
  rw [bind_eq]
  induction x generalizing s with
  | ret a => rfl
  | op e k ih => exact ih _ _

/-- A handler that does to the view of a state what another does to the state. -/
theorem run_view {h : Handler E σ} {g : Handler E τ} {view : σ → τ}
    (hv : ∀ (γ : Type) (e : E γ) s, g γ e (view s) = ((h γ e s).1, view (h γ e s).2))
    (x : Code E α) (s : σ) : x.run g (view s) = ((x.run h s).1, view (x.run h s).2) := by
  induction x generalizing s with
  | ret a => rfl
  | op e k ih =>
    simp only [run]
    rw [hv]
    exact ih _ _

/-- States that a handler cannot tell apart lead to the same answer. -/
theorem run_rel {h : Handler E σ} {R : σ → σ → Prop}
    (hR : ∀ (γ : Type) (e : E γ) s t, R s t → (h γ e s).1 = (h γ e t).1 ∧ R (h γ e s).2 (h γ e t).2)
    (x : Code E α) {s t : σ} (hst : R s t) :
    (x.run h s).1 = (x.run h t).1 ∧ R (x.run h s).2 (x.run h t).2 := by
  induction x generalizing s t with
  | ret a => exact ⟨rfl, hst⟩
  | op e k ih =>
    obtain ⟨ha, hs⟩ := hR _ e s t hst
    simp only [run]
    rw [ha]
    exact ih _ hs

/-- Every operation the code may reach satisfies `P`. -/
def All (P : ∀ γ : Type, E γ → Prop) : Code E α → Prop
  | ret _ => True
  | op e k => P _ e ∧ ∀ c, (k c).All P

@[simp] theorem all_pure {P : ∀ γ : Type, E γ → Prop} {a : α} :
    (pure a : Code E α).All P ↔ True := Iff.rfl

@[simp] theorem all_call {P : ∀ γ : Type, E γ → Prop} {e : E γ} : (call e).All P ↔ P γ e := by
  refine ⟨And.left, fun h => ⟨h, fun _ => trivial⟩⟩

@[simp] theorem all_call_bind {P : ∀ γ : Type, E γ → Prop} {e : E γ} {f : γ → Code E α} :
    (call e >>= f).All P ↔ P γ e ∧ ∀ c, (f c).All P := Iff.rfl

theorem all_of_forall {P : ∀ γ : Type, E γ → Prop} (h : ∀ γ e, P γ e) (x : Code E α) :
    x.All P := by
  induction x with
  | ret a => trivial
  | op e k ih => exact ⟨h _ e, ih⟩

theorem all_bind {P : ∀ γ : Type, E γ → Prop} {x : Code E α} {f : α → Code E β}
    (hx : x.All P) (hf : ∀ a, (f a).All P) : (x >>= f).All P := by
  rw [bind_eq]
  induction x with
  | ret a => exact hf a
  | op e k ih => exact ⟨hx.1, fun c => ih c (hx.2 c)⟩

/-- What the operations of a program keep, the program keeps. -/
theorem All.run {h : Handler E σ} {P : ∀ γ : Type, E γ → Prop} {I : σ → Prop} {x : Code E α}
    (hI : ∀ (γ : Type) (e : E γ) s, P γ e → I s → I (h γ e s).2) (hx : x.All P) {s : σ}
    (hs : I s) : I (x.run h s).2 := by
  induction x generalizing s with
  | ret a => exact hs
  | op e k ih => exact ih _ (hx.2 _) (hI _ e s hx.1 hs)

/-- Every operation the code may reach satisfies `P`, as long as the answers are as `A` says. -/
def AllOn (A : ∀ γ : Type, E γ → γ → Prop) (P : ∀ γ : Type, E γ → Prop) : Code E α → Prop
  | ret _ => True
  | op e k => P _ e ∧ ∀ c, A _ e c → (k c).AllOn A P

section AllOn

variable {A : ∀ γ : Type, E γ → γ → Prop} {P : ∀ γ : Type, E γ → Prop}

@[simp] theorem allOn_pure {a : α} : (pure a : Code E α).AllOn A P ↔ True := Iff.rfl

@[simp] theorem allOn_call {e : E γ} : (call e).AllOn A P ↔ P γ e := by
  refine ⟨And.left, fun h => ⟨h, fun _ _ => trivial⟩⟩

@[simp] theorem allOn_call_bind {e : E γ} {f : γ → Code E α} :
    (call e >>= f).AllOn A P ↔ P γ e ∧ ∀ c, A γ e c → (f c).AllOn A P := Iff.rfl

theorem allOn_bind {x : Code E α} {f : α → Code E β} (hx : x.AllOn A P)
    (hf : ∀ a, (f a).AllOn A P) : (x >>= f).AllOn A P := by
  rw [bind_eq]
  induction x with
  | ret a => exact hf a
  | op e k ih => exact ⟨hx.1, fun c hc => ih c (hx.2 c hc)⟩

theorem AllOn.of_bind {x : Code E α} {f : α → Code E β} (h : (x >>= f).AllOn A P) :
    x.AllOn A P := by
  rw [bind_eq] at h
  induction x with
  | ret a => exact trivial
  | op e k ih => exact ⟨h.1, fun c hc => ih c (h.2 c hc)⟩

/-- Where every operation has an answer, the code reaches its continuation. -/
theorem AllOn.continue (hA : ∀ (γ : Type) (e : E γ), ∃ c, A γ e c) {post : α → τ → Prop}
    {x : Code E α} {f : α → Code E β} (hx : Always m post x t) (h : (x >>= f).AllOn A P) :
    ∃ a u, post a u ∧ (f a).AllOn A P := by
  rw [bind_eq] at h
  induction x generalizing t with
  | ret a => exact ⟨a, t, hx, h⟩
  | op e k ih =>
    obtain ⟨c, hc⟩ := hA _ e
    exact ih c (hx c) (h.2 c hc)

end AllOn

/-- What is tracked of a state, where the operations of the program keep the two in step. -/
theorem Always.run_all {h : Handler E σ} {P : ∀ γ : Type, E γ → Prop} {R : σ → τ → Prop}
    {post : α → τ → Prop} {x : Code E α} {s : σ}
    (hR : ∀ (γ : Type) (e : E γ) s t, P γ e → R s t → R (h γ e s).2 (m γ e t))
    (hP : x.All P) (hx : Always m post x t) (hs : R s t) :
    ∃ u, post (x.run h s).1 u ∧ R (x.run h s).2 u := by
  induction x generalizing s t with
  | ret a => exact ⟨t, hx, hs⟩
  | op e k ih => exact ih _ (hP.2 _) (hx _) (hR _ e s t hP.1 hs)

/-- Every operation the code may reach is allowed by `P` at the tracked part it meets. -/
def Meets (m : Tracks E τ) (P : ∀ γ : Type, E γ → τ → Prop) : Code E α → τ → Prop
  | ret _, _ => True
  | op e k, t => P _ e t ∧ ∀ c, (k c).Meets m P (m _ e t)

theorem meets_bind {P : ∀ γ : Type, E γ → τ → Prop} {x : Code E α} {f : α → Code E β}
    (hx : x.Meets m P t) (hf : ∀ a u, (f a).Meets m P u) : (x >>= f).Meets m P t := by
  rw [bind_eq]
  induction x generalizing t with
  | ret a => exact hf a t
  | op e k ih => exact ⟨hx.1, fun c => ih c (hx.2 c)⟩

/-- What the allowed operations keep between a state and its tracked part, a run keeps. -/
theorem Meets.run {h : Handler E σ} {P : ∀ γ : Type, E γ → τ → Prop} {R : σ → τ → Prop}
    {x : Code E α} {s : σ} (hx : x.Meets m P t)
    (hR : ∀ (γ : Type) (e : E γ) s t, P γ e t → R s t → R (h γ e s).2 (m γ e t)) (hs : R s t) :
    ∃ u, R (x.run h s).2 u := by
  induction x generalizing s t with
  | ret a => exact ⟨t, hs⟩
  | op e k ih => exact ih _ (hx.2 _) (hR _ e s t hx.1 hs)

/-- Some run of the code from a tracked part `t` answers `a` and leaves `u`. -/
inductive Reaches (m : Tracks E τ) {α : Type} : Code E α → τ → α → τ → Prop where
  | ret (a : α) (t : τ) : Reaches m (ret a) t a t
  | op {γ : Type} {e : E γ} {k : γ → Code E α} {t u : τ} {a : α} (c : γ)
      (h : Reaches m (k c) (m γ e t) a u) : Reaches m (op e k) t a u

theorem Always.reaches {post : α → τ → Prop} {x : Code E α} {a : α} {u : τ}
    (hx : Always m post x t) (hr : Reaches m x t a u) : post a u := by
  induction hr with
  | ret a t => exact hx
  | op c _ ih => exact ih (hx c)

theorem Reaches.bind {x : Code E α} {f : α → Code E β} {a : α} {b : β} {u v : τ}
    (hx : Reaches m x t a u) (hf : Reaches m (f a) u b v) : Reaches m (x >>= f) t b v := by
  rw [bind_eq]
  induction hx with
  | ret a t => exact hf
  | op c _ ih => exact .op c (ih hf)

theorem Reaches.call {e : E γ} (c : γ) : Reaches m (call e) t c (m γ e t) := .op c (.ret c _)

end Code

end Lib.Programs
