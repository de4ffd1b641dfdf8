import Mathlib.Data.Nat.ModEq

/-! Steps inside the aligned blocks of `n` numbers each. -/

namespace Lib.Blocks

variable {n : Nat}

/-- `d` steps around the block of `n` numbers that holds `r`. -/
def turn (n d r : Nat) : Nat := r / n * n + (r % n + d) % n

theorem turn_div (hn : 0 < n) (d r : Nat) : turn n d r / n = r / n := by
  rw [turn, Nat.add_comm, Nat.add_mul_div_right _ _ hn, Nat.div_eq_of_lt (Nat.mod_lt _ hn),
    Nat.zero_add]

theorem turn_mod (n d r : Nat) : turn n d r % n = (r + d) % n := by
  rw [turn, Nat.add_comm, Nat.add_mul_mod_self_right, Nat.mod_mod, Nat.mod_add_mod]

/-- Turns add up. -/
theorem turn_turn (hn : 0 < n) (d e r : Nat) : turn n e (turn n d r) = turn n (d + e) r := by
  rw [turn, turn_div hn, turn_mod, Nat.mod_add_mod, turn, Nat.mod_add_mod, Nat.add_assoc]

/-- A turn by a multiple of the block length stays where it is. -/
theorem turn_of_dvd {d : Nat} (h : n ∣ d) (r : Nat) : turn n d r = r := by
  obtain ⟨k, rfl⟩ := h
  rw [turn, Nat.add_mul_mod_self_left, Nat.mod_mod, Nat.mul_comm, Nat.div_add_mod]

theorem turn_of_lt {r : Nat} (hr : r < n) (d : Nat) : turn n d r = (r + d) % n := by
  rw [turn, Nat.div_eq_of_lt hr, Nat.mod_eq_of_lt hr, Nat.zero_mul, Nat.zero_add]

theorem turn_lt {m d r : Nat} (hn : 0 < n) (h : n ∣ m) (hr : r < m) : turn n d r < m := by
  obtain ⟨k, rfl⟩ := h
  have hk : r / n < k := (Nat.div_lt_iff_lt_mul hn).mpr (Nat.mul_comm n k ▸ hr)
  rw [← turn_div hn d r, Nat.div_lt_iff_lt_mul hn] at hk
  exact Nat.mul_comm n k ▸ hk

end Lib.Blocks
