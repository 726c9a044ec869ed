/-
# Exact arithmetic

Operations on integers are exact: they give the integer that the operation has without any bounds,
or an overflow if this is not a 64-bit one. A quotient is the floor of the exact one. It is made
from the quotient without its fraction, which is one too great if there is a fraction and the
quotient is negative. Taking one away is safe, since a quotient with a fraction is at most half of
its dividend, and the only division that overflows is that of the least integer by minus one.

As soon as a double takes part, nothing overflows and the result is a double. Only division can
fail then, and only by one of the three zeros: that of the integers and the two doubles.
-/

import Mathlib
import Tabletop.Proofs.Binary64.Order

namespace Tabletop

/-! ## Division that rounds towards negative infinity -/

section FloorDivides

variable {m n q r : Int}

/-- A division whose remainder is less than the divisor and has its sign. -/
structure FloorDivides (m n q r : Int) : Prop where
  split : m = q * n + r
  sign : r = 0 ∨ (r < 0 ↔ n < 0)
  bound : r.natAbs < n.natAbs

/-- The remainder is a fraction of the divisor, from zero up to one. -/
theorem FloorDivides.fraction (h : FloorDivides m n q r) : 0 ≤ (r / n : ℚ) ∧ (r / n : ℚ) < 1 := by
  obtain ⟨-, hsign, hbound⟩ := h
  rcases Int.lt_or_le n 0 with hn | hn
  · have hn' : (n : ℚ) < 0 := Int.cast_lt_zero.mpr hn
    have hr : r ≤ 0 ∧ n < r := by omega
    exact ⟨div_nonneg_of_nonpos (Int.cast_nonpos.mpr hr.1) hn'.le,
      (div_lt_one_of_neg hn').mpr (Int.cast_lt.mpr hr.2)⟩
  · have hr : 0 ≤ r ∧ r < n := by omega
    have hn' : (0 : ℚ) < n := Int.cast_pos.mpr (Int.lt_of_le_of_lt hr.1 hr.2)
    exact ⟨div_nonneg (Int.cast_nonneg hr.1) hn'.le, (div_lt_one hn').mpr (Int.cast_lt.mpr hr.2)⟩

/-- The quotient is the floor of the exact one. -/
theorem FloorDivides.floor_eq (h : FloorDivides m n q r) : ⌊(m / n : ℚ)⌋ = q := by
  have hbound := h.bound
  have hn : (n : ℚ) ≠ 0 := Int.cast_ne_zero.mpr (by omega)
  have hexact : (m / n : ℚ) = q + r / n := by
    rw [h.split]
    push_cast
    rw [add_div, mul_div_cancel_right₀ _ hn]
  obtain ⟨hlower, hupper⟩ := h.fraction
  rw [hexact, Int.floor_eq_iff]
  constructor <;> linarith

/-- What is left of the dividend behind a quotient without its fraction: less than the divisor, with
the sign of the dividend. -/
theorem tmod_bounds (m : Int) (hn : n ≠ 0) :
    (m.tmod n).natAbs < n.natAbs ∧ (0 ≤ m → 0 ≤ m.tmod n) ∧ (m ≤ 0 → m.tmod n ≤ 0) := by
  refine ⟨?_, Int.tmod_nonneg n, ?_⟩
  · rw [Int.natAbs_tmod]
    exact Nat.mod_lt _ (Int.natAbs_pos.mpr hn)
  · intro hm
    have hneg := Int.tmod_nonneg n (Int.neg_nonneg_of_nonpos hm)
    rw [Int.neg_tmod] at hneg
    exact Int.neg_nonneg.mp hneg

/-- Dropping the fraction rounds towards negative infinity already, unless there is a fraction and
the signs differ. -/
theorem floorDivides_tdiv (hn : n ≠ 0) (h : m.tmod n = 0 ∨ (m < 0 ↔ n < 0)) :
    FloorDivides m n (m.tdiv n) (m.tmod n) where
  split := by rw [Int.mul_comm, Int.mul_tdiv_add_tmod]
  sign := by
    obtain ⟨-, hnonneg, hnonpos⟩ := tmod_bounds m hn
    omega
  bound := (tmod_bounds m hn).1

/-- If there is a fraction and the signs differ, the quotient without it is one too great, and what
is left of the dividend has the wrong sign until a divisor is put back. -/
theorem floorDivides_tdiv_sub_one (hn : n ≠ 0) (hr : m.tmod n ≠ 0) (h : ¬ (m < 0 ↔ n < 0)) :
    FloorDivides m n (m.tdiv n - 1) (m.tmod n + n) where
  split := by
    have hsplit := Int.mul_tdiv_add_tmod m n
    linarith
  sign := by
    obtain ⟨hbound, hnonneg, hnonpos⟩ := tmod_bounds m hn
    omega
  bound := by
    obtain ⟨hbound, hnonneg, hnonpos⟩ := tmod_bounds m hn
    omega

/-- Dividing by anything but one and minus one leaves half of the dividend at most. This includes
zero, by which nothing is left. -/
theorem natAbs_tdiv_le_half (m : Int) (h : n.natAbs ≠ 1) : (m.tdiv n).natAbs ≤ m.natAbs / 2 := by
  have hquotient : (m.tdiv n).natAbs = m.natAbs / n.natAbs := Int.natAbs_tdiv m n
  rw [hquotient]
  rcases Nat.eq_zero_or_pos n.natAbs with hzero | hpos
  · rw [hzero, Nat.div_zero]
    exact Nat.zero_le _
  · exact Nat.div_le_div_left (by omega) Nat.two_pos

end FloorDivides

/-! ## Quotients of 64-bit integers -/

section Quotient

variable {m n q : Int64}

/-- The only quotient that is out of range. -/
theorem fits_tdiv_iff : Fits (m.toInt.tdiv n.toInt) ↔ ¬ (m.toInt = -2 ^ 63 ∧ n.toInt = -1) := by
  have hm := fits_iff.mp (Fits.toInt m)
  rw [fits_iff]
  by_cases hunit : n.toInt.natAbs = 1
  · obtain hn | hn := Int.natAbs_eq_iff.mp hunit
    · rw [hn, Nat.cast_one, Int.tdiv_one]
      omega
    · rw [hn, Nat.cast_one, Int.tdiv_neg, Int.tdiv_one]
      omega
  · have hhalf := natAbs_tdiv_le_half m.toInt hunit
    omega

theorem truncatesUp_iff :
    truncatesUp m n ↔ m.toInt.tmod n.toInt ≠ 0 ∧ ¬ (m.toInt < 0 ↔ n.toInt < 0) := by
  rw [truncatesUp, Bool.and_eq_true, bne_iff_ne, bne_iff_ne, ne_eq, ne_eq, decide_eq_decide,
    ← Int64.toInt_inj, Int64.toInt_mod, Int64.lt_iff_toInt_lt, Int64.lt_iff_toInt_lt]
  rfl

/-- One less than a quotient that became greater without its fraction is still in range. -/
theorem fits_sub_one (hq : truncatedQuotient m n = .ok q) (hup : truncatesUp m n) :
    Fits (q.toInt - 1) := by
  have hm := fits_iff.mp (Fits.toInt m)
  have hr := (truncatesUp_iff.mp hup).1
  -- One and minus one leave no remainder, so the quotient is at most half as long as the range.
  have hunit : n.toInt.natAbs ≠ 1 := by
    intro hunit
    have hn : n.toInt ≠ 0 := by omega
    have hbound := (tmod_bounds m.toInt hn).1
    omega
  have hhalf := natAbs_tdiv_le_half m.toInt hunit
  rw [fits_iff, checkedInt64_eq_ok_iff.mp hq]
  omega

/-- A quotient in range is rounded towards negative infinity. -/
theorem exists_floorQuotient (hn : n ≠ 0) (hfits : Fits (m.toInt.tdiv n.toInt)) :
    ∃ q r, floorQuotient m n = .ok q ∧ FloorDivides m.toInt n.toInt q.toInt r := by
  have hn' : n.toInt ≠ 0 := fun hzero => hn (Int64.toInt_inj.mp hzero)
  obtain ⟨q, hq, hvalue⟩ := exists_checkedInt64 hfits
  have hquotient : truncatedQuotient m n = .ok q := hq
  rw [floorQuotient, hquotient]
  by_cases hup : truncatesUp m n
  · obtain ⟨hr, hsigns⟩ := truncatesUp_iff.mp hup
    refine ⟨q - 1, m.toInt.tmod n.toInt + n.toInt, congrArg Except.ok (if_pos hup), ?_⟩
    have hless : (q - 1).toInt = m.toInt.tdiv n.toInt - 1 := by
      rw [← hvalue]
      exact toInt_sub_of_fits (fits_sub_one hquotient hup)
    rw [hless]
    exact floorDivides_tdiv_sub_one hn' hr hsigns
  · have hexact : m.toInt.tmod n.toInt = 0 ∨ (m.toInt < 0 ↔ n.toInt < 0) := by
      rw [truncatesUp_iff] at hup
      tauto
    refine ⟨q, m.toInt.tmod n.toInt, congrArg Except.ok (if_neg hup), ?_⟩
    rw [hvalue]
    exact floorDivides_tdiv hn' hexact

theorem floorQuotient_overflow (hfits : ¬ Fits (m.toInt.tdiv n.toInt)) :
    floorQuotient m n = .error .overflow := by
  have hquotient : truncatedQuotient m n = .error .overflow :=
    checkedInt64_eq_error_iff.mpr ⟨hfits, rfl⟩
  rw [floorQuotient, hquotient]
  rfl

end Quotient

/-! ## Operations on numbers -/

namespace Number

variable {m n : Int64} {x y : Number}

/-- How an exact operation on integers ends: with its result if that is a 64-bit integer, and in an
overflow if it is not. -/
inductive Exactly (exact : Int) : Except ArithmeticError Number → Prop
  | fits {n : Int64} (h : n.toInt = exact) : Exactly exact (.ok (.int n))
  | overflow (h : ¬ Fits exact) : Exactly exact (.error .overflow)

theorem exactly_checkedInt64 (exact : Int) : Exactly exact ((checkedInt64 exact).map .int) := by
  by_cases hfits : Fits exact
  · obtain ⟨n, hn, hvalue⟩ := exists_checkedInt64 hfits
    rw [hn]
    exact .fits hvalue
  · rw [checkedInt64_eq_error_iff.mpr ⟨hfits, rfl⟩]
    exact .overflow hfits

theorem isZero_iff : y.isZero ↔ y = .int 0 ∨ y = .float 0.0 ∨ y = .float (-0.0) := by
  cases y with
  | int n => simp [isZero]
  | float x => simp [isZero, Binary64.beq_zero_iff]

theorem div_int_zero (m : Int64) : div (.int m) (.int 0) = .error .divisionByZero :=
  rfl

theorem div_int (hn : n ≠ 0) : div (.int m) (.int n) = (floorQuotient m n).map .int := by
  have hzero : ¬ (Number.int n).isZero := by
    rw [isZero, beq_iff_eq]
    exact hn
  rw [div, if_neg hzero]

theorem div_int_overflow (hm : m.toInt = -2 ^ 63) (hn : n.toInt = -1) :
    div (.int m) (.int n) = .error .overflow := by
  have hne : n ≠ 0 := by
    rintro rfl
    cases hn
  rw [div_int hne, floorQuotient_overflow (mt fits_tdiv_iff.mp (not_not.mpr ⟨hm, hn⟩))]
  rfl

/-- Dividing integers ends in one of three ways. -/
theorem div_int_ends (m n : Int64) :
    n = 0 ∧ div (.int m) (.int n) = .error .divisionByZero ∨
      (m.toInt = -2 ^ 63 ∧ n.toInt = -1) ∧ div (.int m) (.int n) = .error .overflow ∨
      ∃ q r, div (.int m) (.int n) = .ok (.int q) ∧
        FloorDivides m.toInt n.toInt q.toInt r := by
  by_cases hn : n = 0
  · exact .inl ⟨hn, hn ▸ div_int_zero m⟩
  by_cases hrange : m.toInt = -2 ^ 63 ∧ n.toInt = -1
  · exact .inr (.inl ⟨hrange, div_int_overflow hrange.1 hrange.2⟩)
  · obtain ⟨q, r, hq, hdivides⟩ := exists_floorQuotient hn (fits_tdiv_iff.mpr hrange)
    refine .inr (.inr ⟨q, r, ?_, hdivides⟩)
    rw [div_int hn, hq]
    rfl

theorem div_int_eq_divisionByZero_iff :
    div (.int m) (.int n) = .error .divisionByZero ↔ n = 0 := by
  constructor
  · intro h
    rcases div_int_ends m n with ⟨hn, -⟩ | ⟨-, hoverflow⟩ | ⟨q, r, hq, -⟩
    · exact hn
    · cases h.symm.trans hoverflow
    · cases h.symm.trans hq
  · rintro rfl
    exact div_int_zero m

theorem div_int_eq_overflow_iff :
    div (.int m) (.int n) = .error .overflow ↔ m.toInt = -2 ^ 63 ∧ n.toInt = -1 := by
  constructor
  · intro h
    rcases div_int_ends m n with ⟨-, hzero⟩ | ⟨hrange, -⟩ | ⟨q, r, hq, -⟩
    · cases h.symm.trans hzero
    · exact hrange
    · cases h.symm.trans hq
  · rintro ⟨hm, hn⟩
    exact div_int_overflow hm hn

/-- A sum, difference or product with a double in it is a double. -/
theorem float_operations (h : (x.isInt && y.isInt) = false) :
    x.add y = .ok (.float (x.toFloat + y.toFloat)) ∧
      x.sub y = .ok (.float (x.toFloat - y.toFloat)) ∧
      x.mul y = .ok (.float (x.toFloat * y.toFloat)) := by
  match x, y with
  | .int _, .int _ => cases h
  | .int _, .float _ | .float _, .int _ | .float _, .float _ => exact ⟨rfl, rfl, rfl⟩

/-- A quotient with a double in it is a double, unless the divisor is zero. -/
theorem div_float (h : (x.isInt && y.isInt) = false) :
    x.div y = if y.isZero then .error .divisionByZero
      else .ok (.float (x.toFloat / y.toFloat)) := by
  match x, y with
  | .int _, .int _ => cases h
  | .int _, .float _ | .float _, .int _ | .float _, .float _ => rfl

/-- Arithmetic is exact on integers and never overflows on doubles. A sum, difference or product of
integers is the exact one, or an overflow if that is out of range. A quotient of integers fails if
the divisor is zero, overflows for the least integer by minus one only, and is the floor of the
exact quotient otherwise; where the quotient without its fraction is one too great, taking one away
does not overflow. If one operand is a double then so is the result, and the only failure is to
divide by a zero. -/
theorem arithmetic_exact :
    (∀ m n : Int64,
      Exactly (m.toInt + n.toInt) (add (.int m) (.int n)) ∧
      Exactly (m.toInt - n.toInt) (sub (.int m) (.int n)) ∧
      Exactly (m.toInt * n.toInt) (mul (.int m) (.int n)) ∧
      (div (.int m) (.int n) = .error .divisionByZero ↔ n = 0) ∧
      (div (.int m) (.int n) = .error .overflow ↔ m.toInt = -2 ^ 63 ∧ n.toInt = -1) ∧
      (n ≠ 0 → ¬ (m.toInt = -2 ^ 63 ∧ n.toInt = -1) →
        ∃ (q : Int64) (r : Int), div (.int m) (.int n) = .ok (.int q) ∧
          q.toInt = ⌊(m.toInt / n.toInt : ℚ)⌋ ∧ FloorDivides m.toInt n.toInt q.toInt r) ∧
      (∀ q, truncatedQuotient m n = .ok q → truncatesUp m n → Fits (q.toInt - 1))) ∧
    (∀ x y : Number, (x.isInt && y.isInt) = false →
      x.add y = .ok (.float (x.toFloat + y.toFloat)) ∧
      x.sub y = .ok (.float (x.toFloat - y.toFloat)) ∧
      x.mul y = .ok (.float (x.toFloat * y.toFloat)) ∧
      (x.div y = .error .divisionByZero ↔ y = .int 0 ∨ y = .float 0.0 ∨ y = .float (-0.0)) ∧
      (x.div y ≠ .error .divisionByZero → x.div y = .ok (.float (x.toFloat / y.toFloat)))) := by
  constructor
  · intro m n
    refine ⟨exactly_checkedInt64 _, exactly_checkedInt64 _, exactly_checkedInt64 _,
      div_int_eq_divisionByZero_iff, div_int_eq_overflow_iff, ?_, fun _ => fits_sub_one⟩
    intro hn hrange
    rcases div_int_ends m n with ⟨hzero, -⟩ | ⟨hoverflow, -⟩ | ⟨q, r, hq, hdivides⟩
    · exact absurd hzero hn
    · exact absurd hoverflow hrange
    · exact ⟨q, r, hq, hdivides.floor_eq.symm, hdivides⟩
  · intro x y hfloat
    obtain ⟨hadd, hsub, hmul⟩ := float_operations hfloat
    refine ⟨hadd, hsub, hmul, ?_, ?_⟩
    · rw [div_float hfloat, ← isZero_iff]
      split_ifs with hzero
      · exact iff_of_true rfl hzero
      · exact iff_of_false nofun hzero
    · intro hdefined
      rw [div_float hfloat] at hdefined ⊢
      split_ifs at hdefined ⊢
      · exact absurd rfl hdefined
      · rfl

example : div (.int (-7)) (.int 2) = .ok (.int (-4)) := by
  decide

end Number

end Tabletop
