/-
# Between doubles and integers

How a double that is not NaN rounds to a 64-bit integer depends on its place alone, and keeps the
order: the infinities go to the ends of the integers, like any other double beyond them. So bringing
a double into a range and rounding it gives an integer between the rounded bounds, even if the
double was NaN to begin with, since NaN gives way to either bound.
-/

import Mathlib
import Tabletop.Proofs.Binary64.Nearest

namespace Tabletop.Binary64

/-! ## Rounding by place -/

section Round

variable {mode : Rounding} {count count' parts : Nat} {m n : Int} {x y : Float}

theorem Rounding.apply_mono (mode : Rounding) (h : count ≤ count') :
    mode.apply count parts ≤ mode.apply count' parts := by
  cases mode <;> exact Nat.div_le_div_right (by omega)

theorem Rounding.apply_mul (mode : Rounding) (count : Nat) (hparts : 0 < parts) :
    mode.apply (count * parts) parts = count := by
  cases mode with
  | down => exact Nat.mul_div_cancel count hparts
  | up =>
      have hless : (parts - 1) / parts = 0 := Nat.div_eq_of_lt (by omega)
      rw [apply, Nat.add_comm, Nat.add_mul_div_right _ _ hparts, hless, Nat.zero_add]
  | halfUp =>
      have hless : parts / (2 * parts) = 0 := Nat.div_eq_of_lt (by omega)
      rw [apply, Nat.mul_left_comm, Nat.add_comm, Nat.add_mul_div_right _ _ (by omega), hless,
        Nat.zero_add]

/-- The integer chosen for a number of parts that may be negative. -/
def Rounding.applyInt (mode : Rounding) (count : Int) (parts : Nat) : Int :=
  if count < 0 then -(mode.apply count.natAbs parts : Int) else mode.apply count.natAbs parts

theorem Rounding.applyInt_mono (mode : Rounding) (h : m ≤ n) :
    mode.applyInt m parts ≤ mode.applyInt n parts := by
  unfold applyInt
  split_ifs with hm hn hn
  · have hmono : mode.apply n.natAbs parts ≤ mode.apply m.natAbs parts :=
      mode.apply_mono (by omega)
    omega
  · omega
  · omega
  · have hmono : mode.apply m.natAbs parts ≤ mode.apply n.natAbs parts :=
      mode.apply_mono (by omega)
    omega

theorem Rounding.applyInt_mul (mode : Rounding) (hparts : 0 < parts) :
    mode.applyInt (n * parts) parts = n := by
  have hparts' : (0 : Int) < parts := Int.natCast_pos.mpr hparts
  have hsign : n * parts < 0 ↔ n < 0 := by
    rcases Int.lt_or_le n 0 with hn | hn
    · exact iff_of_true (Int.mul_neg_of_neg_of_pos hn hparts') hn
    · exact iff_of_false (Int.not_lt.mpr (Int.mul_nonneg hn hparts'.le)) (Int.not_lt.mpr hn)
  simp only [applyInt, hsign, Int.natAbs_mul, Int.natAbs_natCast, mode.apply_mul _ hparts]
  split_ifs <;> omega

theorem toInt_clampInt64 (n : Int) :
    (clampInt64 n).toInt = max (-2 ^ 63) (min n (2 ^ 63 - 1)) := by
  have hmin : Int64.minValue.toInt = -2 ^ 63 := rfl
  have hmax : Int64.maxValue.toInt = 2 ^ 63 - 1 := rfl
  unfold clampInt64
  split_ifs with hlow hhigh
  · omega
  · omega
  · rw [toInt_ofInt_of_fits ⟨by omega, by omega⟩]
    omega

theorem clampInt64_mono (h : m ≤ n) : clampInt64 m ≤ clampInt64 n := by
  rw [Int64.le_iff_toInt_le, toInt_clampInt64, toInt_clampInt64]
  omega

/-- The infinities are beyond the integers, however they are rounded. -/
theorem le_apply_infinitySteps (mode : Rounding) :
    2 ^ 63 ≤ mode.apply infinitySteps stepsPerUnit := by
  have hsteps : infinitySteps = 2 ^ (infinityScale - unitScale) * stepsPerUnit := by
    rw [← two_pow_unitScale, ← Nat.pow_add]
    exact congrArg (2 ^ ·) (by decide)
  rw [hsteps, mode.apply_mul _ stepsPerUnit_pos]
  exact Nat.pow_le_pow_right Nat.two_pos (by decide)

/-- Rounding looks at the place of a double only. -/
theorem toInt64By_eq (mode : Rounding) (hx : ¬ x.isNaN) :
    toInt64By mode x = clampInt64 (mode.applyInt (position x) stepsPerUnit) := by
  have hfar := le_apply_infinitySteps mode
  have hzero : mode.apply 0 stepsPerUnit = 0 := by
    have hmul := mode.apply_mul 0 stepsPerUnit_pos
    rwa [Nat.zero_mul] at hmul
  rw [toInt64By, if_neg hx, position]
  split_ifs with hinfinite hnegative hnegative
  · have hpos : 0 < infinitySteps := Nat.two_pow_pos infinityScale
    have hmin : Int64.minValue.toInt = -2 ^ 63 := rfl
    rw [steps_of_isInf hinfinite, ← Int64.toInt_inj, toInt_clampInt64, Rounding.applyInt,
      if_pos (by omega), Int.natAbs_neg, Int.natAbs_natCast]
    omega
  · have hmax : Int64.maxValue.toInt = 2 ^ 63 - 1 := rfl
    rw [steps_of_isInf hinfinite, ← Int64.toInt_inj, toInt_clampInt64, Rounding.applyInt,
      if_neg (by omega), Int.natAbs_natCast]
    omega
  · rw [Rounding.applyInt, Int.natAbs_neg, Int.natAbs_natCast]
    rcases Nat.eq_zero_or_pos (steps x) with hnone | hsome
    · -- The negative zero rounds like the positive one.
      rw [hnone, hzero]
      rfl
    · rw [if_pos (by omega)]
  · rw [Rounding.applyInt, if_neg (by omega), Int.natAbs_natCast]

theorem round_eq (hx : ¬ x.isNaN) :
    round x = clampInt64 (Rounding.halfUp.applyInt (position x) stepsPerUnit) :=
  toInt64By_eq .halfUp hx

theorem round_mono (hx : ¬ x.isNaN) (hy : ¬ y.isNaN) (h : position x ≤ position y) :
    round x ≤ round y := by
  rw [round_eq hx, round_eq hy]
  exact clampInt64_mono (Rounding.halfUp.applyInt_mono h)

/-- An integer that becomes a double and an integer again is the nearest double to it, as far as
there is an integer of that size. -/
theorem round_ofInt64 (n : Int64) : round (ofInt64 n) = clampInt64 (nearestInt n.toInt) := by
  obtain ⟨hnan, hposition⟩ := position_ofInt64 n
  rw [round_eq hnan, hposition, Rounding.applyInt_mul _ stepsPerUnit_pos]

end Round

/-! ## Bringing a double into a range -/

section Clamp

variable {lo hi x y : Float}

theorem not_lt_of_isNaN (hx : x.isNaN) (y : Float) : ¬ x < y := by
  have hunpack : x.toModel.unpack = .notANumber := Float.Model.UnpackedFloat.isNaN_iff.mp hx
  change ¬ x.lt y = true
  rw [lt_eq_compare, hunpack]
  exact Bool.false_ne_true

theorem lesser_eq (hy : ¬ y.isNaN) : lesser x y = if x < y then x else y := by
  simp only [lesser, Bool.eq_false_of_not_eq_true hy, Bool.or_false, decide_eq_true_eq]

theorem greater_eq (hy : ¬ y.isNaN) : greater x y = if y < x then x else y := by
  simp only [greater, Bool.eq_false_of_not_eq_true hy, Bool.or_false, decide_eq_true_eq]

theorem position_lesser (hx : ¬ x.isNaN) (hy : ¬ y.isNaN) :
    ¬ (lesser x y).isNaN ∧ position (lesser x y) = min (position x) (position y) := by
  rw [lesser_eq hy]
  split_ifs with hless
  · rw [lt_iff_position_lt hx hy] at hless
    exact ⟨hx, (Int.min_eq_left hless.le).symm⟩
  · rw [lt_iff_position_lt hx hy] at hless
    exact ⟨hy, (Int.min_eq_right (Int.not_lt.mp hless)).symm⟩

theorem position_greater (hx : ¬ x.isNaN) (hy : ¬ y.isNaN) :
    ¬ (greater x y).isNaN ∧ position (greater x y) = max (position x) (position y) := by
  rw [greater_eq hy]
  split_ifs with hless
  · rw [lt_iff_position_lt hy hx] at hless
    exact ⟨hx, (Int.max_eq_left hless.le).symm⟩
  · rw [lt_iff_position_lt hy hx] at hless
    exact ⟨hy, (Int.max_eq_right (Int.not_lt.mp hless)).symm⟩

/-- A double that is brought into a range lies there. NaN gives way to the upper bound. -/
theorem position_clamp (hlo : ¬ lo.isNaN) (hhi : ¬ hi.isNaN) (x : Float) :
    ¬ (clamp lo hi x).isNaN ∧ position (clamp lo hi x) =
      max (if x.isNaN then position hi else min (position x) (position hi)) (position lo) := by
  rw [clamp]
  split_ifs with hx
  · rw [lesser_eq hhi, if_neg (not_lt_of_isNaN hx hi)]
    exact position_greater hhi hlo
  · obtain ⟨hnan, hposition⟩ := position_lesser hx hhi
    rw [← hposition]
    exact position_greater hnan hlo

end Clamp

end Tabletop.Binary64
