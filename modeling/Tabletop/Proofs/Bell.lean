/-
# Bells over integers

A bell over integers draws a double, brings it between its bounds and rounds it. But the bounds
become doubles first, and what the draw is brought between are the nearest doubles. Up to `2 ^ 53`
these are the bounds themselves. Beyond that a bound may move outwards, by 512 at most, and then the
bell reaches beyond its range by as much: the rounded bounds are what it keeps to, whatever is
drawn, and it reaches both.
-/

import Tabletop.Expr.Eval
import Tabletop.Proofs.Binary64.Rounding
import Tabletop.Proofs.Record
import Tabletop.Source.Script

namespace Tabletop.Sampler

/-- The integer that a bell makes of its normal draw. -/
def bellOf (lo hi : Int64) (x : Float) : Int64 :=
  Binary64.round (Binary64.clamp (Binary64.ofInt64 lo) (Binary64.ofInt64 hi) x)

/-- An integer that has become a double and an integer again. -/
def throughDouble (n : Int64) : Int64 :=
  Binary64.round (Binary64.ofInt64 n)

/-! ## The bounds of a bell -/

section Bounds

open Binary64

variable {lo hi n : Int64} {x : Float}

theorem throughDouble_of_le (h : n.toInt.natAbs ≤ 2 ^ 53) : throughDouble n = n := by
  have hlo := n.le_toInt
  have hhi := n.toInt_lt
  rw [throughDouble, round_ofInt64, nearestInt_of_le h, ← Int64.toInt_inj, toInt_clampInt64]
  omega

theorem throughDouble_error (n : Int64) :
    n.toInt - 512 ≤ (throughDouble n).toInt ∧ (throughDouble n).toInt ≤ n.toInt + 512 := by
  have herror := nearestInt_error (natAbs_toInt_le n)
  have hlo := n.le_toInt
  have hhi := n.toInt_lt
  rw [throughDouble, round_ofInt64, toInt_clampInt64]
  omega

/-- Whatever is drawn, a bell lies between its rounded bounds. -/
theorem between_bellOf (hrange : lo ≤ hi) (x : Float) :
    throughDouble lo ≤ bellOf lo hi x ∧ bellOf lo hi x ≤ throughDouble hi := by
  have hlo := (position_ofInt64 lo).1
  have hhi := (position_ofInt64 hi).1
  have hbounds := position_ofInt64_mono hrange
  obtain ⟨hnan, hposition⟩ := position_clamp hlo hhi x
  constructor
  · apply round_mono hlo hnan
    rw [hposition]
    exact Int.le_max_right _ _
  · apply round_mono hnan hhi
    rw [hposition]
    split_ifs <;> omega

theorem bellOf_ofInt64_lo (lo hi : Int64) : bellOf lo hi (ofInt64 lo) = throughDouble lo := by
  have hlo := (position_ofInt64 lo).1
  obtain ⟨hnan, hposition⟩ := position_clamp hlo (position_ofInt64 hi).1 (ofInt64 lo)
  rw [if_neg hlo, Int.max_eq_right (Int.min_le_left _ _)] at hposition
  rw [bellOf, round_eq hnan, hposition, throughDouble, round_eq hlo]

theorem bellOf_ofInt64_hi (hrange : lo ≤ hi) : bellOf lo hi (ofInt64 hi) = throughDouble hi := by
  have hhi := (position_ofInt64 hi).1
  obtain ⟨hnan, hposition⟩ := position_clamp (position_ofInt64 lo).1 hhi (ofInt64 hi)
  rw [if_neg hhi, Int.min_self, Int.max_eq_left (position_ofInt64_mono hrange)] at hposition
  rw [bellOf, round_eq hnan, hposition, throughDouble, round_eq hhi]

end Bounds

/-! ## Drawing a bell -/

section Draw

/-- The middle of a range of doubles, around which its bell is drawn. -/
def bellMean (lo hi : Float) : Float :=
  hi - (hi - lo) / 2.0

/-- Half the width of a range of doubles, which is the deviation of its bell. -/
def bellDeviation (lo hi : Float) : Float :=
  (hi - lo).abs / 2.0

variable {σ : Type} [RandomSource σ]

/-- A bell draws once, and gives its draw a value between its bounds. -/
theorem bellInt_of_gaussian {lo hi : Int64} {mean deviation x : Float} {s : Sampler σ} {source : σ}
    (hmean : mean = bellMean (Binary64.ofInt64 lo) (Binary64.ofInt64 hi))
    (hdeviation : deviation = bellDeviation (Binary64.ofInt64 lo) (Binary64.ofInt64 hi))
    (hdraw : RandomSource.gaussian mean deviation s.source = .ok x source) :
    bellInt lo hi s =
      .ok (bellOf lo hi x) ⟨source, s.journal.push (.draw (.gaussian mean deviation))⟩ := by
  subst hmean hdeviation
  have hgaussian := primitive_of_ok hdraw
    (d := .gaussian (bellMean (Binary64.ofInt64 lo) (Binary64.ofInt64 hi))
      (bellDeviation (Binary64.ofInt64 lo) (Binary64.ofInt64 hi)))
  have hbell := Attempt.bind_of_ok hgaussian (f := fun x =>
    (pure (Binary64.clamp (Binary64.ofInt64 lo) (Binary64.ofInt64 hi) x) : Evaluation σ Float))
  exact (Attempt.bind_of_ok hbell (f := fun x =>
    (pure (Binary64.round x) : Evaluation σ Int64))).trans rfl

/-- What a bell over integers keeps to. Whenever its normal draw succeeds, so does the bell, and its
value is the draw between the rounded bounds: the bounds that have become doubles and integers
again. This holds whatever is drawn, NaN and the infinities included. A rounded bound is at most 512
away, and it is the bound itself up to `2 ^ 53`. As both rounded bounds are reached, a bell stays
within its range exactly if neither of them lies outside. -/
theorem bellInt_between_rounded_bounds (lo hi : Int64) (hrange : lo ≤ hi) :
    (∀ (s : Sampler σ) (mean deviation x : Float) (source : σ),
      mean = bellMean (Binary64.ofInt64 lo) (Binary64.ofInt64 hi) →
      deviation = bellDeviation (Binary64.ofInt64 lo) (Binary64.ofInt64 hi) →
      RandomSource.gaussian mean deviation s.source = .ok x source →
      let s' : Sampler σ := ⟨source, s.journal.push (.draw (.gaussian mean deviation))⟩
      bellInt lo hi s = .ok (bellOf lo hi x) s' ∧
        ∀ globals scope,
          (Expr.bellInt lo hi).eval globals scope s = .ok (.int (bellOf lo hi x)) s') ∧
    (∀ x, throughDouble lo ≤ bellOf lo hi x ∧ bellOf lo hi x ≤ throughDouble hi) ∧
    (∀ n : Int64, n.toInt - 512 ≤ (throughDouble n).toInt ∧
      (throughDouble n).toInt ≤ n.toInt + 512) ∧
    (∀ n : Int64, n.toInt.natAbs ≤ 2 ^ 53 → throughDouble n = n) ∧
    ((∀ x, lo ≤ bellOf lo hi x ∧ bellOf lo hi x ≤ hi) ↔
      lo ≤ throughDouble lo ∧ throughDouble hi ≤ hi) := by
  refine ⟨?_, between_bellOf hrange, throughDouble_error, fun _ => throughDouble_of_le, ?_, ?_⟩
  · intro s mean deviation x source hmean hdeviation hdraw
    have hbell := bellInt_of_gaussian hmean hdeviation hdraw
    exact ⟨hbell, fun globals scope => Attempt.map_eq_ok_iff.mpr ⟨_, hbell, rfl⟩⟩
  · intro hwithin
    have hlo := (hwithin (Binary64.ofInt64 lo)).1
    have hhi := (hwithin (Binary64.ofInt64 hi)).2
    rw [bellOf_ofInt64_lo] at hlo
    rw [bellOf_ofInt64_hi hrange] at hhi
    exact ⟨hlo, hhi⟩
  · rintro ⟨hlo, hhi⟩ x
    have hbetween := between_bellOf hrange x
    exact ⟨Int64.le_trans hlo hbetween.1, Int64.le_trans hbetween.2 hhi⟩

/-- A bell over the faces of an ordinary die shows one of them. -/
theorem bellInt_between_rounded_bounds_six :
    (1 : Int64) ≤ 6 ∧ ∀ x, 1 ≤ bellOf 1 6 x ∧ bellOf 1 6 x ≤ 6 := by
  have hrange : (1 : Int64) ≤ 6 := by decide
  obtain ⟨-, -, -, hexact, hwithin⟩ := bellInt_between_rounded_bounds (σ := Script) 1 6 hrange
  refine ⟨hrange, hwithin.mpr ?_⟩
  rw [hexact 1 (by decide), hexact 6 (by decide)]
  exact ⟨Int64.le_refl 1, Int64.le_refl 6⟩

/-- The range of one integer beyond `2 ^ 53` has a bell that misses it. -/
theorem bellInt_below_range :
    let n : Int64 := 9007199254740993
    let script : Script := ⟨1, 1, .ofList 0 [], .ofList 0 [], .ofList 0 []⟩
    Attempt.value? (bellInt n n (⟨script, #[]⟩ : Sampler Script)) = some 9007199254740992 ∧
      (9007199254740992 : Int64) < n := by
  decide +kernel

end Draw

end Tabletop.Sampler
