/-
# Integers in range

An exact integer becomes a 64-bit one if it fits, and this changes nothing about its value. It
overflows if it does not fit, and for no other reason.
-/

import Mathlib.Algebra.Group.Int.Defs
import Mathlib.Tactic.SplitIfs
import Tabletop.Number

namespace Tabletop

/-- The integer is a 64-bit one. -/
def Fits (n : Int) : Prop :=
  Int64.minValue.toInt ≤ n ∧ n ≤ Int64.maxValue.toInt

theorem fits_iff {n : Int} : Fits n ↔ -2 ^ 63 ≤ n ∧ n < 2 ^ 63 :=
  and_congr_right' Int.lt_add_one_iff.symm

theorem Fits.toInt (n : Int64) : Fits n.toInt :=
  ⟨n.minValue_le_toInt, n.toInt_le⟩

theorem toInt_ofInt_of_fits {n : Int} (h : Fits n) : (Int64.ofInt n).toInt = n :=
  Int64.toInt_ofInt_of_le h.1 (Int.lt_add_one_of_le h.2)

/-- A sum that fits is exact. -/
theorem toInt_add_of_fits {m n : Int64} (h : Fits (m.toInt + n.toInt)) :
    (m + n).toInt = m.toInt + n.toInt := by
  rw [← Int64.ofInt_toInt m, ← Int64.ofInt_toInt n, ← Int64.ofInt_add, Int64.ofInt_toInt,
    Int64.ofInt_toInt]
  exact toInt_ofInt_of_fits h

/-- A difference that fits is exact. -/
theorem toInt_sub_of_fits {m n : Int64} (h : Fits (m.toInt - n.toInt)) :
    (m - n).toInt = m.toInt - n.toInt := by
  rw [← Int64.ofInt_toInt m, ← Int64.ofInt_toInt n, ← Int64.ofInt_sub, Int64.ofInt_toInt,
    Int64.ofInt_toInt]
  exact toInt_ofInt_of_fits h

theorem checkedInt64_toInt (n : Int64) : checkedInt64 n.toInt = .ok n :=
  (if_pos (Fits.toInt n)).trans (congrArg Except.ok (Int64.ofInt_toInt n))

theorem exists_checkedInt64 {n : Int} (h : Fits n) : ∃ m, checkedInt64 n = .ok m ∧ m.toInt = n :=
  ⟨_, if_pos h, toInt_ofInt_of_fits h⟩

theorem checkedInt64_eq_ok_iff {n : Int} {m : Int64} : checkedInt64 n = .ok m ↔ m.toInt = n := by
  constructor
  · intro h
    unfold checkedInt64 at h
    split_ifs at h with hfits
    cases h
    exact toInt_ofInt_of_fits hfits
  · rintro rfl
    exact checkedInt64_toInt m

theorem checkedInt64_eq_error_iff {n : Int} {e : ArithmeticError} :
    checkedInt64 n = .error e ↔ ¬ Fits n ∧ e = .overflow := by
  unfold checkedInt64 Fits
  split_ifs with hfits
  · exact ⟨nofun, fun h => absurd hfits h.1⟩
  · rw [Except.error.injEq, eq_comm]
    exact (and_iff_right hfits).symm

end Tabletop
