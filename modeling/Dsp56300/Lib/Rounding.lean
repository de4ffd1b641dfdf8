import Mathlib.Data.Int.ModEq
import Mathlib.Algebra.Order.Group.Abs
import Mathlib.Algebra.Order.Group.Int

/-! Rounding to a multiple of `2 * h` on the circle of `m` numbers: half the unit is added and
the sum truncated. -/

namespace Lib.Rounding

variable {m h v r : Nat}

/-- Ties go up. -/
def halfUp (m h v : Nat) : Nat := (v + h) % m / (2 * h) * (2 * h)

/-- Ties go to the even multiple. -/
def halfEven (m h v : Nat) : Nat :=
  if (v + h) % m % (2 * h) = 0 then (v + h) % m / (4 * h) * (4 * h) else halfUp m h v

/-- At most half a unit apart. -/
def Near (m h v r : Nat) : Prop := ∃ d : Int, |d| ≤ h ∧ (r : Int) ≡ v + d [ZMOD m]

theorem unit_dvd (h : Nat) : 2 * h ∣ 4 * h := ⟨2, by omega⟩

theorem halfUp_dvd : 2 * h ∣ halfUp m h v := Nat.dvd_mul_left _ _

theorem halfEven_dvd : 2 * h ∣ halfEven m h v := by
  unfold halfEven
  split
  · exact (unit_dvd h).mul_left _
  · exact halfUp_dvd

theorem halfUp_lt (hm : 0 < m) : halfUp m h v < m :=
  (Nat.div_mul_le_self _ _).trans_lt (Nat.mod_lt _ hm)

theorem halfEven_lt (hm : 0 < m) : halfEven m h v < m := by
  unfold halfEven
  split
  · exact (Nat.div_mul_le_self _ _).trans_lt (Nat.mod_lt _ hm)
  · exact halfUp_lt hm

/-- What truncation leaves of the sum is near when what it drops is at most a whole unit. -/
theorem near_of_truncated {t : Nat} (hr : r + t = (v + h) % m) (ht : t ≤ 2 * h) : Near m h v r := by
  refine ⟨h - t, abs_le.mpr ⟨by omega, by omega⟩, ?_⟩
  have hs : ((v + h : Nat) : Int) ≡ (r + t : Nat) [ZMOD m] := by
    rw [hr]
    exact (Int.natCast_modEq_iff.mpr (Nat.mod_modEq _ _)).symm
  have hd := (hs.sub_right (t : Int)).symm
  push_cast at hd
  rwa [add_sub_cancel_right, add_sub_assoc] at hd

theorem halfUp_near (hh : 0 < h) : Near m h v (halfUp m h v) := by
  have hmod := Nat.mod_lt ((v + h) % m) (by omega : 2 * h > 0)
  exact near_of_truncated (Nat.div_add_mod' _ _) hmod.le

theorem halfEven_near (hh : 0 < h) : Near m h v (halfEven m h v) := by
  unfold halfEven
  split
  · rename_i h0
    have hmod := Nat.mod_lt ((v + h) % m) (by omega : 4 * h > 0)
    have hdvd : 2 * h ∣ (v + h) % m % (4 * h) :=
      (Nat.dvd_mod_iff (unit_dvd h)).mpr (Nat.dvd_of_mod_eq_zero h0)
    -- a multiple of the unit below two units
    have hle : (v + h) % m % (4 * h) ≤ 2 * h := by
      obtain ⟨c, hc⟩ := hdvd
      have hc2 : c < 2 := by
        by_contra hge
        have hmul := Nat.mul_le_mul_left (2 * h) (Nat.le_of_not_lt hge)
        omega
      calc (v + h) % m % (4 * h) = 2 * h * c := hc
        _ ≤ 2 * h * 1 := Nat.mul_le_mul_left _ (Nat.le_of_lt_succ hc2)
        _ = 2 * h := Nat.mul_one _
    exact near_of_truncated (Nat.div_add_mod' _ _) hle
  · exact halfUp_near hh

theorem tie_iff (hm : 2 * h ∣ m) (hh : 0 < h) : (v + h) % m % (2 * h) = 0 ↔ v % (2 * h) = h := by
  have hv := Nat.mod_lt v (by omega : 2 * h > 0)
  rw [Nat.mod_mod_of_dvd _ hm, Nat.add_mod, Nat.mod_eq_of_lt (by omega : h < 2 * h)]
  constructor
  · intro h0
    by_contra hne
    by_cases hlt : v % (2 * h) + h < 2 * h
    · rw [Nat.mod_eq_of_lt hlt] at h0
      omega
    · rw [Nat.mod_eq_sub_mod (by omega), Nat.mod_eq_of_lt (by omega)] at h0
      omega
  · intro he
    rw [he, ← Nat.two_mul, Nat.mod_self]

theorem halfUp_tie (hm : 2 * h ∣ m) (hh : 0 < h) (ht : v % (2 * h) = h) :
    halfUp m h v ≡ v + h [MOD m] := by
  have h0 := (tie_iff hm hh).mpr ht
  rw [halfUp, Nat.div_mul_cancel (Nat.dvd_of_mod_eq_zero h0)]
  exact Nat.mod_modEq _ _

theorem halfEven_tie (hm : 2 * h ∣ m) (hh : 0 < h) (ht : v % (2 * h) = h) :
    4 * h ∣ halfEven m h v := by
  rw [halfEven, if_pos ((tie_iff hm hh).mpr ht)]
  exact Nat.dvd_mul_left _ _

end Lib.Rounding
