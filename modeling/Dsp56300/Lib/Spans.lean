import Mathlib.Data.List.Basic
import Mathlib.Data.List.TakeWhile

/-! Walks over items laid end to end, with spans opened at items and closed at later addresses. -/

namespace Lib.Spans

/-- What a walk comes by: an item, an item that opens a span up to `target`, the end of a span. -/
inductive Mark where
  | item (pos : Nat)
  | opens (pos target : Nat)
  | closes (target : Nat)
  deriving DecidableEq

/-- The items of a walk. -/
def items : List Mark → List Nat
  | [] => []
  | .item a :: ms | .opens a _ :: ms => a :: items ms
  | .closes _ :: ms => items ms

/-- The walk checked from an address and the spans open there, the innermost first: every item is
where the one before it ends, every span is closed at its own end, the last opened first. -/
def follow (width : Nat → Nat) : Nat × List Nat → List Mark → Option (Nat × List Nat)
  | s, [] => some s
  | (pos, ts), .item a :: ms => if a = pos then follow width (pos + width pos, ts) ms else none
  | (pos, ts), .opens a t :: ms =>
    if a = pos ∧ pos + width pos ≤ t then follow width (pos + width pos, t :: ts) ms else none
  | (pos, ts), .closes t :: ms =>
    if t = pos ∧ ts.head? = some t then follow width (pos, ts.tail) ms else none

/-- The spans that end at an address are closed there. -/
def closings (pos : Nat) (ts : List Nat) : List Mark := (ts.takeWhile (· = pos)).map .closes

variable {width : Nat → Nat} {pos : Nat} {ts : List Nat} {ms ns : List Mark}

@[simp] theorem items_append (ms ns : List Mark) : items (ms ++ ns) = items ms ++ items ns := by
  induction ms with
  | nil => rfl
  | cons m ms ih => cases m <;> simp [items, ih]

@[simp] theorem items_closings (pos : Nat) (ts : List Nat) : items (closings pos ts) = [] := by
  induction ts with
  | nil => rfl
  | cons t ts ih =>
    by_cases ht : t = pos
    · simpa [closings, ht, items] using ih
    · simp [closings, ht, items]

theorem follow_append (s : Nat × List Nat) (ms ns : List Mark) :
    follow width s (ms ++ ns) = (follow width s ms).bind (follow width · ns) := by
  induction ms generalizing s with
  | nil => rfl
  | cons m ms ih =>
    cases m <;> (simp only [List.cons_append, follow]; split <;> simp [ih])

/-- A walk goes on from where a walk has come to. -/
theorem follow_trans {s t u : Nat × List Nat} (h : follow width s ms = some t)
    (h' : follow width t ns = some u) : follow width s (ms ++ ns) = some u := by
  rw [follow_append, h]
  exact h'

theorem follow_item (h : follow width (pos + width pos, ts) ms = some (a, us)) :
    follow width (pos, ts) (.item pos :: ms) = some (a, us) := by
  rw [follow, if_pos rfl]
  exact h

theorem follow_opens {t : Nat} (ht : pos + width pos ≤ t)
    (h : follow width (pos + width pos, t :: ts) ms = some (a, us)) :
    follow width (pos, ts) (.opens pos t :: ms) = some (a, us) := by
  rw [follow, if_pos ⟨rfl, ht⟩]
  exact h

theorem follow_closings (width : Nat → Nat) (pos : Nat) (ts : List Nat) :
    follow width (pos, ts) (closings pos ts) = some (pos, ts.dropWhile (· = pos)) := by
  induction ts with
  | nil => rfl
  | cons t ts ih =>
    by_cases ht : t = pos
    · simpa [closings, ht, follow] using ih
    · simp [closings, ht, follow]

/-- A span that ends elsewhere stays open below the others. -/
theorem closings_append {t : Nat} (ts : List Nat) (ht : t ≠ pos) :
    closings pos (ts ++ [t]) = closings pos ts ∧
      (ts ++ [t]).dropWhile (· = pos) = ts.dropWhile (· = pos) ++ [t] := by
  induction ts with
  | nil => simp [closings, ht]
  | cons u ts ih =>
    by_cases hu : u = pos
    · simpa [closings, hu] using ih
    · simp [closings, hu]

end Lib.Spans
