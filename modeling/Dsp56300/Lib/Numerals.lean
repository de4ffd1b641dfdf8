import Mathlib.Data.Nat.Basic

/-! Numbers written with digits to a base and read back below a bound. -/

namespace Lib.Numerals

variable {b bound : Nat} {digit : Char → Option Nat} {print : Char → Char}

/-- One more digit; nothing for what is no digit, and nothing beyond the bound. -/
def readDigit (digit : Char → Option Nat) (b bound n : Nat) (c : Char) : Option Nat := do
  let d ← digit c
  if n * b + d < bound then some (n * b + d) else none

def readDigits (digit : Char → Option Nat) (b bound : Nat) (cs : List Char) : Option Nat :=
  cs.foldlM (readDigit digit b bound) 0

/-- The digits of a number, padded with zeros to a width. -/
def padded (print : Char → Char) (b width n : Nat) : List Char :=
  let digits := (Nat.toDigits b n).map print
  List.replicate (width - digits.length) (print '0') ++ digits

/-- What is printed for a digit is read as that digit. -/
def Legible (digit : Char → Option Nat) (print : Char → Char) (b : Nat) : Prop :=
  ∀ d < b, digit (print (Nat.digitChar d)) = some d

theorem readDigits_append (cs ds : List Char) : readDigits digit b bound (cs ++ ds) =
    (readDigits digit b bound cs).bind fun n => ds.foldlM (readDigit digit b bound) n :=
  List.foldlM_append

section Legible

variable (hd : Legible digit print b)

include hd

theorem readDigit_print {n d : Nat} (hdb : d < b) (hn : n * b + d < bound) :
    readDigit digit b bound n (print (Nat.digitChar d)) = some (n * b + d) := by
  rw [readDigit, hd d hdb]
  exact if_pos hn

theorem readDigits_toDigits (hb : 1 < b) {n : Nat} (hn : n < bound) :
    readDigits digit b bound ((Nat.toDigits b n).map print) = some n := by
  induction n using Nat.strongRecOn with
  | ind n ih =>
    rw [Nat.toDigits_eq_if hb]
    split
    · have hone := readDigit_print hd (n := 0) (d := n) ‹_› (by omega : 0 * b + n < bound)
      rw [Nat.zero_mul, Nat.zero_add] at hone
      rw [readDigits, List.map_singleton, List.foldlM_cons, hone]
      rfl
    · have hlt : n / b < n := Nat.div_lt_self (by omega) hb
      have hjoin : n / b * b + n % b = n := Nat.div_add_mod' n b
      have hlast := readDigit_print hd (n := n / b) (Nat.mod_lt n (by omega)) (hjoin.symm ▸ hn)
      rw [List.map_append, readDigits_append, ih _ hlt (by omega), Option.bind_some,
        List.map_singleton, List.foldlM_cons, hlast, hjoin]
      rfl

theorem readDigits_zeros (hb : 0 < b) (hbound : 0 < bound) (k : Nat) (cs : List Char) :
    readDigits digit b bound (List.replicate k (print '0') ++ cs) =
      readDigits digit b bound cs := by
  induction k with
  | zero => rfl
  | succ k ih =>
    have hzero := readDigit_print hd (n := 0) (d := 0) hb (by omega : 0 * b + 0 < bound)
    rw [Nat.zero_mul] at hzero
    rw [List.replicate_succ, List.cons_append, readDigits, List.foldlM_cons]
    exact (congrArg (Option.bind · _) hzero).trans ih

/-- What is printed is read back. -/
theorem readDigits_padded (hb : 1 < b) {width n : Nat} (hn : n < bound) :
    readDigits digit b bound (padded print b width n) = some n := by
  unfold padded
  rw [readDigits_zeros hd (by omega) (by omega), readDigits_toDigits hd hb hn]

end Legible

theorem mem_toDigits (hb : 1 < b) {n : Nat} {c : Char} (hc : c ∈ Nat.toDigits b n) :
    ∃ d < b, c = Nat.digitChar d := by
  induction n using Nat.strongRecOn with
  | ind n ih =>
    rw [Nat.toDigits_eq_if hb] at hc
    split at hc
    · exact ⟨n, ‹_›, List.mem_singleton.mp hc⟩
    · rcases List.mem_append.mp hc with hc | hc
      · exact ih _ (Nat.div_lt_self (by omega) hb) hc
      · exact ⟨n % b, Nat.mod_lt n (by omega), List.mem_singleton.mp hc⟩

/-- Every printed character is the picture of a digit. -/
theorem mem_padded (hb : 1 < b) {width n : Nat} {c : Char} (hc : c ∈ padded print b width n) :
    ∃ d < b, c = print (Nat.digitChar d) := by
  rcases List.mem_append.mp hc with hc | hc
  · exact ⟨0, by omega, List.eq_of_mem_replicate hc⟩
  · obtain ⟨x, hx, rfl⟩ := List.mem_map.mp hc
    obtain ⟨d, hd, rfl⟩ := mem_toDigits hb hx
    exact ⟨d, hd, rfl⟩

theorem padded_ne_nil (hb : 1 < b) (width n : Nat) : padded print b width n ≠ [] := by
  intro h
  have hdigits := (List.append_eq_nil_iff.mp h).2
  rw [List.map_eq_nil_iff, Nat.toDigits_eq_if hb] at hdigits
  split at hdigits <;> simp at hdigits

end Lib.Numerals
