/-
# The order of numbers

Two integers are compared exactly, and as soon as a double takes part both numbers are compared as
doubles. The two orders agree as far as one can tell: a number that is less as a double is less, and
integers in order become doubles in order. But different integers may become the same double. They
merge, and a double that is equal to one of them is equal to the other one as well. This is the only
way in which comparing numbers is not a total order, and all that a table can get wrong by it: a
roll that fits two keys apart from each other is a double, and equal to two bounds that merge.
-/

import Tabletop.Proofs.Binary64.Nearest
import Tabletop.Table.Basic

namespace Tabletop

/-- The least integer that a key covers. -/
def Table.Key.low : Table.Key → Int64
  | .exact n => n
  | .range lo _ => lo

/-- The greatest integer that a key covers. -/
def Table.Key.high : Table.Key → Int64
  | .exact n => n
  | .range _ hi => hi

namespace Number

open Binary64

variable {a b c : Number} {m n : Int64}

/-- Two numbers are different integers that become the same double. -/
def Merges (a c : Number) : Prop :=
  ∃ m n : Int64, a = .int m ∧ c = .int n ∧ m ≠ n ∧ (ofInt64 m == ofInt64 n) = true

/-- Where a number stands in the row of doubles. -/
def rank (a : Number) : Int :=
  position a.toFloat

/-! ## Comparing by rank -/

theorem rank_int (n : Int64) : rank (.int n) = position (ofInt64 n) :=
  rfl

theorem not_isNaN_int (n : Int64) : ¬ (Number.int n).toFloat.isNaN :=
  (position_ofInt64 n).1

/-- Integers in order are in order as doubles. -/
theorem rank_int_mono (h : m ≤ n) : rank (.int m) ≤ rank (.int n) := by
  rw [rank_int, rank_int]
  exact position_ofInt64_mono h

theorem merges_int_iff :
    (Number.int m).Merges (.int n) ↔ m ≠ n ∧ rank (.int m) = rank (.int n) := by
  have hbeq := beq_iff_position_eq (position_ofInt64 m).1 (position_ofInt64 n).1
  constructor
  · rintro ⟨_, _, ⟨⟩, ⟨⟩, hne, hequal⟩
    exact ⟨hne, hbeq.mp hequal⟩
  · rintro ⟨hne, hequal⟩
    exact ⟨m, n, rfl, rfl, hne, hbeq.mpr hequal⟩

/-- Two numbers are integers, or they are compared by their ranks and do not merge. -/
theorem compared (ha : ¬ a.toFloat.isNaN) (hb : ¬ b.toFloat.isNaN) :
    (∃ m n, a = .int m ∧ b = .int n) ∨
      a.order b = some (compare (rank a) (rank b)) ∧
        b.order a = some (compare (rank b) (rank a)) ∧
        (a.equals b ↔ rank a = rank b) ∧ ¬ a.Merges b := by
  match a, b with
  | .int m, .int n => exact .inl ⟨m, n, rfl, rfl⟩
  | .int _, .float _ =>
      exact .inr ⟨compareFloat_eq ha hb, compareFloat_eq hb ha, beq_iff_position_eq ha hb, nofun⟩
  | .float _, .int _ | .float _, .float _ =>
      exact .inr ⟨compareFloat_eq ha hb, compareFloat_eq hb ha, beq_iff_position_eq ha hb, nofun⟩

theorem order_int (m n : Int64) : (Number.int m).order (.int n) = some (compare m n) :=
  rfl

theorem equals_int_iff : (Number.int m).equals (.int n) ↔ m = n :=
  beq_iff_eq

theorem compare_int64 (m n : Int64) : compare m n = compare m.toInt n.toInt := by
  change compareOfLessAndEq m n = compareOfLessAndEq m.toInt n.toInt
  simp only [compareOfLessAndEq, Int64.lt_iff_toInt_lt, Int64.toInt_inj]

/-- The order of two numbers is that of two integers: either they are integers, or their ranks are
compared. -/
theorem exists_compare (ha : ¬ a.toFloat.isNaN) (hb : ¬ b.toFloat.isNaN) :
    ∃ x y : Int, a.order b = some (compare x y) ∧ b.order a = some (compare y x) ∧
      (a.equals b ↔ x = y) := by
  rcases compared ha hb with ⟨m, n, rfl, rfl⟩ | hranks
  · refine ⟨m.toInt, n.toInt, ?_, ?_, ?_⟩
    · rw [order_int, compare_int64]
    · rw [order_int, compare_int64]
    · rw [equals_int_iff, Int64.toInt_inj]
  · exact ⟨_, _, hranks.1, hranks.2.1, hranks.2.2.1⟩

theorem atMost_iff {o : Ordering} (h : a.order b = some o) : a.atMost b ↔ o ≠ .gt := by
  rw [atMost, h]
  cases o <;> decide

/-- Any two numbers that are not NaN stand in exactly one of three orders. Both equality and `≤` are
read off it, and seen from the other number it is the opposite. -/
theorem exists_order (ha : ¬ a.toFloat.isNaN) (hb : ¬ b.toFloat.isNaN) :
    ∃ o, a.order b = some o ∧ b.order a = some o.swap ∧ (a.equals b ↔ o = .eq) ∧
      (a.atMost b ↔ o ≠ .gt) := by
  obtain ⟨x, y, horder, hopposite, hequals⟩ := exists_compare ha hb
  refine ⟨compare x y, horder, ?_, ?_, atMost_iff horder⟩
  · rw [hopposite, Std.OrientedOrd.eq_swap (a := y)]
  · rw [hequals, compare_eq_iff_eq]

theorem equals_self (ha : ¬ a.toFloat.isNaN) : a.equals a := by
  rcases compared ha ha with ⟨m, n, rfl, -⟩ | ⟨-, -, hequals, -⟩
  · exact equals_int_iff.mpr rfl
  · exact hequals.mpr rfl

theorem equals_comm (ha : ¬ a.toFloat.isNaN) (hb : ¬ b.toFloat.isNaN) :
    a.equals b = b.equals a := by
  obtain ⟨o, -, hopposite, hequals, -⟩ := exists_order ha hb
  obtain ⟨o', horder', -, hequals', -⟩ := exists_order hb ha
  obtain rfl : o' = o.swap := Option.some.inj (horder'.symm.trans hopposite)
  rw [Bool.eq_iff_iff, hequals, hequals']
  cases o <;> decide

theorem not_equals_of_lt (ha : ¬ a.toFloat.isNaN) (hb : ¬ b.toFloat.isNaN)
    (h : a.order b = some .lt) : ¬ a.equals b := by
  obtain ⟨o, horder, -, hequals, -⟩ := exists_order ha hb
  obtain rfl : o = .lt := Option.some.inj (horder.symm.trans h)
  rw [hequals]
  decide

/-- What is less as a double is less. -/
theorem order_of_rank_lt (ha : ¬ a.toFloat.isNaN) (hb : ¬ b.toFloat.isNaN)
    (h : rank a < rank b) : a.order b = some .lt := by
  rcases compared ha hb with ⟨m, n, rfl, rfl⟩ | ⟨horder, -⟩
  · have hless : m < n := by
      by_contra hge
      exact Int.not_le.mpr h (rank_int_mono (Int64.not_lt.mp hge))
    rw [order_int, compare_int64, compare_lt_iff_lt.mpr (Int64.lt_iff_toInt_lt.mp hless)]
  · rw [horder, compare_lt_iff_lt.mpr h]

/-- What is at most another number is so as a double. -/
theorem rank_le_of_atMost (ha : ¬ a.toFloat.isNaN) (hb : ¬ b.toFloat.isNaN) (h : a.atMost b) :
    rank a ≤ rank b := by
  by_contra hgt
  have hless := order_of_rank_lt hb ha (Int.not_le.mp hgt)
  obtain ⟨o, horder, hopposite, -, -⟩ := exists_order hb ha
  obtain rfl : o = .lt := Option.some.inj (horder.symm.trans hless)
  exact (atMost_iff hopposite).mp h rfl

theorem rank_eq_of_equals (ha : ¬ a.toFloat.isNaN) (hb : ¬ b.toFloat.isNaN) (h : a.equals b) :
    rank a = rank b := by
  rcases compared ha hb with ⟨m, n, rfl, rfl⟩ | ⟨-, -, hequals, -⟩
  · rw [equals_int_iff.mp h]
  · exact hequals.mp h

/-- Numbers of one rank are equal, unless they merge. -/
theorem equals_of_rank_eq (ha : ¬ a.toFloat.isNaN) (hb : ¬ b.toFloat.isNaN)
    (h : rank a = rank b) : a.equals b ↔ ¬ a.Merges b := by
  rcases compared ha hb with ⟨m, n, rfl, rfl⟩ | ⟨-, -, hequals, hmerges⟩
  · rw [equals_int_iff, merges_int_iff]
    simp only [h, and_true, not_not]
  · exact iff_of_true (hequals.mpr h) hmerges

/-! ## Transitivity -/

theorem equals_trans (ha : ¬ a.toFloat.isNaN) (hb : ¬ b.toFloat.isNaN) (hc : ¬ c.toFloat.isNaN)
    (hab : a.equals b) (hbc : b.equals c) : a.equals c ↔ ¬ a.Merges c :=
  equals_of_rank_eq ha hc
    ((rank_eq_of_equals ha hb hab).trans (rank_eq_of_equals hb hc hbc))

theorem atMost_int_iff : (Number.int m).atMost (.int n) ↔ m ≤ n := by
  rw [atMost_iff (order_int m n), compare_int64, ne_eq, compare_gt_iff_gt, Int.not_lt,
    Int64.le_iff_toInt_le]

theorem atMost_of_equals (ha : ¬ a.toFloat.isNaN) (hb : ¬ b.toFloat.isNaN) (h : a.equals b) :
    a.atMost b := by
  obtain ⟨o, -, -, hequals, hatMost⟩ := exists_order ha hb
  rw [hatMost, hequals.mp h]
  decide

theorem atMost_trans (ha : ¬ a.toFloat.isNaN) (hb : ¬ b.toFloat.isNaN) (hc : ¬ c.toFloat.isNaN)
    (hab : a.atMost b) (hbc : b.atMost c) :
    a.atMost c ∨ a.Merges c ∧ a.equals b ∧ b.equals c := by
  have hab' := rank_le_of_atMost ha hb hab
  have hbc' := rank_le_of_atMost hb hc hbc
  rcases Int.lt_or_eq_of_le (Int.le_trans hab' hbc') with hless | hequal
  · exact .inl ((atMost_iff (order_of_rank_lt ha hc hless)).mpr (by decide))
  by_cases hmerges : a.Merges c
  · have hfirst : rank a = rank b := by omega
    have hsecond : rank b = rank c := by omega
    obtain ⟨m, k, rfl, rfl, -⟩ := id hmerges
    cases b with
    | int n =>
        rw [atMost_int_iff] at hab hbc
        exact .inl (atMost_int_iff.mpr (Int64.le_trans hab hbc))
    | float y =>
        exact .inr ⟨hmerges, (equals_of_rank_eq ha hb hfirst).mpr nofun,
          (equals_of_rank_eq hb hc hsecond).mpr nofun⟩
  · exact .inl (atMost_of_equals ha hc ((equals_of_rank_eq ha hc hequal).mpr hmerges))

theorem lt_of_equals_of_lt (ha : ¬ a.toFloat.isNaN) (hb : ¬ b.toFloat.isNaN)
    (hc : ¬ c.toFloat.isNaN) (hab : a.equals b) (hbc : b.order c = some .lt) :
    a.order c = some .lt ∨ b.Merges c ∧ a.equals c := by
  have hab' := rank_eq_of_equals ha hb hab
  have hbc' := rank_le_of_atMost hb hc ((atMost_iff hbc).mpr (by decide))
  have hne := not_equals_of_lt hb hc hbc
  rcases Int.lt_or_eq_of_le hbc' with hless | hequal
  · exact .inl (order_of_rank_lt ha hc (hab' ▸ hless))
  have hmerges : b.Merges c := not_not.mp (mt (equals_of_rank_eq hb hc hequal).mpr hne)
  by_cases hmerges' : a.Merges c
  · obtain ⟨m, _, rfl, -, -⟩ := hmerges'
    obtain ⟨n, _, rfl, -, -⟩ := hmerges
    rw [equals_int_iff.mp hab]
    exact .inl hbc
  · exact .inr ⟨hmerges, (equals_of_rank_eq ha hc (hab'.trans hequal)).mpr hmerges'⟩

/-! ## Integers that merge -/

/-- Integers that merge are long, and not far from each other. -/
theorem Merges.bounds (h : (Number.int m).Merges (.int n)) :
    (2 ^ 53 < m.toInt.natAbs ∨ 2 ^ 53 < n.toInt.natAbs) ∧
      (m.toInt - n.toInt).natAbs ≤ 1024 := by
  obtain ⟨hne, hrank⟩ := merges_int_iff.mp h
  rw [rank_int, rank_int, position_ofInt64_eq_iff] at hrank
  constructor
  · by_contra hshort
    rw [nearestInt_of_le (by omega), nearestInt_of_le (by omega)] at hrank
    exact hne (Int64.toInt_inj.mp hrank)
  · have hm := nearestInt_error (natAbs_toInt_le m)
    have hn := nearestInt_error (natAbs_toInt_le n)
    omega

/-! ## Keys of a table -/

theorem rank_of_matches {key : Table.Key} (ha : ¬ a.toFloat.isNaN) (h : key.matches a) :
    rank (.int key.low) ≤ rank a ∧ rank a ≤ rank (.int key.high) := by
  cases key with
  | exact n =>
      have hrank := rank_eq_of_equals ha (not_isNaN_int n) h
      exact ⟨hrank.ge, hrank.le⟩
  | range lo hi =>
      obtain ⟨hlo, hhi⟩ := Bool.and_eq_true_iff.mp h
      exact ⟨rank_le_of_atMost (not_isNaN_int lo) ha hlo,
        rank_le_of_atMost ha (not_isNaN_int hi) hhi⟩

/-- Keys are exact about integers. -/
theorem matches_int {key : Table.Key} (h : key.matches (.int n)) : key.low ≤ n ∧ n ≤ key.high := by
  cases key with
  | exact k =>
      obtain rfl := equals_int_iff.mp h
      exact ⟨Int64.le_refl n, Int64.le_refl n⟩
  | range lo hi =>
      obtain ⟨hlo, hhi⟩ := Bool.and_eq_true_iff.mp h
      exact ⟨atMost_int_iff.mp hlo, atMost_int_iff.mp hhi⟩

/-- A number that fits two keys apart from each other is a double on which their facing bounds
merge. -/
theorem merges_of_matches {first second : Table.Key} (ha : ¬ a.toFloat.isNaN)
    (happart : first.high < second.low) (hfirst : first.matches a) (hsecond : second.matches a) :
    a.isInt = false ∧ (Number.int first.high).Merges (.int second.low) ∧
      a.equals (.int first.high) ∧ a.equals (.int second.low) := by
  have hbetween := rank_of_matches ha hfirst
  have hbetween' := rank_of_matches ha hsecond
  have hmono := rank_int_mono (Int64.le_of_lt happart)
  have hrank : rank a = rank (.int first.high) := by omega
  have hrank' : rank a = rank (.int second.low) := by omega
  cases a with
  | int n =>
      have hlow := (matches_int hsecond).1
      have hhigh := (matches_int hfirst).2
      exact absurd (Int64.le_trans hlow hhigh) (Int64.not_le.mpr happart)
  | float x =>
      refine ⟨rfl, merges_int_iff.mpr ⟨Int64.ne_of_lt happart, hrank.symm.trans hrank'⟩, ?_, ?_⟩
      · exact (equals_of_rank_eq ha (not_isNaN_int first.high) hrank).mpr nofun
      · exact (equals_of_rank_eq ha (not_isNaN_int second.low) hrank').mpr nofun

/-- How numbers are ordered, integers and doubles in any mixture, apart from NaN. Equality is
reflexive and symmetric, and exactly one of less, equal and greater holds, as seen from either side.
Transitivity fails only on integers that merge: different integers that become the same double. Then
a double that is equal to both is also equal to each of them, and `≤` goes in a circle through it;
in the same way what is equal to a number need not be less than what the number is less than.
Integers merge only if one of them lies beyond `2 ^ 53`, and only within a distance of 1024. A
number fits two keys that lie apart only if it is a double and equal to both of the bounds that face
each other, which merge. -/
theorem order_consistent_unless_merging (a b c : Number) (ha : ¬ a.toFloat.isNaN)
    (hb : ¬ b.toFloat.isNaN) (hc : ¬ c.toFloat.isNaN) :
    a.equals a ∧ a.equals b = b.equals a ∧
    (∃ o, a.order b = some o ∧ b.order a = some o.swap ∧ (a.equals b ↔ o = .eq) ∧
      (a.atMost b ↔ o ≠ .gt)) ∧
    (a.equals b → b.equals c → (a.equals c ↔ ¬ a.Merges c)) ∧
    (a.atMost b → b.atMost c → a.atMost c ∨ a.Merges c ∧ a.equals b ∧ b.equals c) ∧
    (a.equals b → b.order c = some .lt → a.order c = some .lt ∨ b.Merges c ∧ a.equals c) ∧
    (∀ m n : Int64, (Number.int m).Merges (.int n) →
      (2 ^ 53 < m.toInt.natAbs ∨ 2 ^ 53 < n.toInt.natAbs) ∧
        (m.toInt - n.toInt).natAbs ≤ 1024) ∧
    ∀ first second : Table.Key, first.high < second.low → first.matches a → second.matches a →
      a.isInt = false ∧ (Number.int first.high).Merges (.int second.low) ∧
        a.equals (.int first.high) ∧ a.equals (.int second.low) :=
  ⟨equals_self ha, equals_comm ha hb, exists_order ha hb, equals_trans ha hb hc,
    atMost_trans ha hb hc, lt_of_equals_of_lt ha hb hc, fun _ _ => Merges.bounds,
    fun _ _ => merges_of_matches ha⟩

/-- The first two integers that merge, and the double that they become. -/
theorem order_consistent_unless_merging_first :
    let m : Number := .int 9007199254740992
    let x : Number := .float 9007199254740992.0
    let n : Number := .int 9007199254740993
    ¬ m.toFloat.isNaN ∧ ¬ x.toFloat.isNaN ∧ ¬ n.toFloat.isNaN ∧ m.Merges n := by
  intro m x n
  have hm : ¬ m.toFloat.isNaN := by decide +kernel
  have hx : ¬ x.toFloat.isNaN := by decide +kernel
  have hn : ¬ n.toFloat.isNaN := by decide +kernel
  obtain ⟨-, -, -, htrans, -⟩ := order_consistent_unless_merging m x n hm hx hn
  have hmerges := htrans (by decide +kernel) (by decide +kernel)
  exact ⟨hm, hx, hn, not_not.mp (mt hmerges.mpr (by decide +kernel))⟩

/-- A double beyond `2 ^ 53` is equal to two integers, fits the keys of both, and leads from the
greater one back to the lesser one. -/
theorem order_not_transitive :
    let m : Number := .int 9007199254740992
    let x : Number := .float 9007199254740992.0
    let n : Number := .int 9007199254740993
    (m.equals x ∧ x.equals n ∧ ¬ m.equals n) ∧ (n.atMost x ∧ x.atMost m ∧ ¬ n.atMost m) ∧
      (x.equals m ∧ m.order n = some .lt ∧ x.order n ≠ some .lt) ∧
      (Table.Key.exact 9007199254740992).matches x ∧
      (Table.Key.exact 9007199254740993).matches x := by
  decide +kernel

end Number

end Tabletop
