import Mathlib.Data.List.Basic

/-! Files of records that take the same number of bytes each. -/

namespace Lib.Frames

variable {α β γ : Type}

/-- The records of a file, each read from its place on; what is too short for one is left. -/
def records (width : Nat) (read : List β → α) (data : List β) : List α :=
  (List.range (data.length / width)).map fun i => read (data.drop (i * width))

variable {width : Nat} {read : List β → α} {write : γ → List β} {f : γ → α}

theorem records_cons (hw : 0 < width) {first rest : List β} (hf : first.length = width) :
    records width read (first ++ rest) = read (first ++ rest) :: records width read rest := by
  have hlen : (first ++ rest).length / width = rest.length / width + 1 := by
    rw [List.length_append, hf, Nat.add_div_left _ hw]
  have hdrop (i : Nat) : (first ++ rest).drop ((i + 1) * width) = rest.drop (i * width) := by
    rw [Nat.succ_mul, Nat.add_comm, ← List.drop_drop, ← hf, List.drop_left]
  rw [records, hlen, List.range_succ_eq_map, List.map_cons, List.map_map, Nat.zero_mul]
  exact congrArg _ (List.map_congr_left fun i _ => congrArg read (hdrop i))

theorem records_short {data : List β} (h : data.length < width) :
    records width read data = [] := by
  rw [records, Nat.div_eq_of_lt h]
  rfl

/-- What was written is read, whatever follows that is too short for a record. -/
theorem records_flatMap (hw : 0 < width) (hlen : ∀ c, (write c).length = width)
    (hread : ∀ c rest, read (write c ++ rest) = f c) (l : List γ) {tail : List β}
    (ht : tail.length < width) : records width read (l.flatMap write ++ tail) = l.map f := by
  induction l with
  | nil => exact records_short ht
  | cons c l ih =>
    rw [List.flatMap_cons, List.append_assoc, records_cons hw (hlen c), hread, ih, List.map_cons]

end Lib.Frames
