/-
# Rolls in ascending order

A roll is sorted when all its draws are made. So asking for the values in ascending order changes
neither what is drawn nor how the roll ends, and exploding dice are looked for among the values as
they were thrown. What is found of the values themselves depends on which values there are, not on
their order: their sum, and the successes of a pool.

Adding up with a check at each step is the delicate case, since in another order other sums occur on
the way. As long as the faces are on the dice, no step of it overflows unless the exact total does,
and that has no order.
-/

import Mathlib.Algebra.BigOperators.Group.List.Basic
import Tabletop.Proofs.Dice.Success

namespace Tabletop

namespace Dice

/-! ## Values in another order -/

section Order

variable {modifier : Int64} {faces thrown values : List Int64}

theorem pairwise_inOrder (values : List Int64) : (inOrder true values).Pairwise (· ≤ ·) := by
  have hsorted : (values.mergeSort (· ≤ ·)).Pairwise fun m n => decide (m ≤ n) = true := by
    apply List.pairwise_mergeSort
    · intro a b c hab hbc
      simp only [decide_eq_true_eq] at hab hbc ⊢
      exact Int64.le_trans hab hbc
    · intro a b
      simp only [Bool.or_eq_true, decide_eq_true_eq]
      exact Int64.le_total a b
  simpa only [inOrder, if_true, decide_eq_true_eq] using hsorted

/-- There is only one ascending order of some values. -/
theorem eq_inOrder {other : List Int64} (hperm : other.Perm values)
    (hascending : other.Pairwise (· ≤ ·)) : other = inOrder true values := by
  apply List.Perm.eq_of_pairwise _ hascending (pairwise_inOrder values)
  · exact hperm.trans (perm_inOrder true values).symm
  · intro a b _ _ hab hba
    exact Int64.le_antisymm hab hba

theorem exactSum_perm (hperm : values.Perm thrown) : exactSum values = exactSum thrown :=
  (hperm.map Int64.toInt).sum_eq

theorem exactTotal_perm {others : List Int64} (hperm : others.Perm faces) :
    exactTotal modifier others = exactTotal modifier faces := by
  rw [exactTotal, exactTotal, exactSum_perm hperm, hperm.length_eq]

/-- The successes are the same in any order, because adding in 64 bits wraps around and so has no
order either. -/
theorem successes_perm (target : Int64) (spec : DiceSpec) (hperm : values.Perm thrown) :
    successes target spec values = successes target spec thrown := by
  rw [successes, successes, foldl_add_eq_ofInt, foldl_add_eq_ofInt,
    exactSum_perm (hperm.map (score target spec))]

/-- The face that a value comes from. -/
def faceOf (modifier value : Int64) : Int64 :=
  Int64.ofInt (value.toInt - modifier.toInt)

theorem Shows.map_faceOf (h : Shows modifier faces thrown) :
    thrown.map (faceOf modifier) = faces := by
  have hback := congrArg (List.map fun n => Int64.ofInt (n - modifier.toInt)) h
  simp only [List.map_map, Function.comp_def, Int.add_sub_cancel, Int64.ofInt_toInt,
    List.map_id'] at hback
  exact hback

/-- Values in another order are shown by the faces in another order. -/
theorem Shows.perm (h : Shows modifier faces thrown) (hperm : values.Perm thrown) :
    ∃ others, others.Perm faces ∧ Shows modifier others values := by
  have hfaces := h.map_faceOf
  subst hfaces
  refine ⟨values.map (faceOf modifier), hperm.map _, ?_⟩
  rw [Shows, List.map_map, List.map_inj_left] at h ⊢
  intro value hvalue
  exact h value (hperm.mem_iff.mp hvalue)

/-- The checked sum of values of dice is the same in any order. -/
theorem total_perm {sides : UInt32} (hdie : ∀ face ∈ faces, OnDie sides face)
    (hlimit : thrown.length ≤ limit) (hshows : Shows modifier faces thrown)
    (hperm : values.Perm thrown) : total 0 values = total 0 thrown := by
  obtain ⟨others, hothers, hshown⟩ := hshows.perm hperm
  have hfaces : faces.length ≤ limit := hshows.length_eq ▸ hlimit
  have hmore : others.length ≤ limit := hothers.length_eq ▸ hfaces
  have hotherDie : ∀ face ∈ others, OnDie sides face :=
    fun face hface => hdie face (hothers.mem_iff.mp hface)
  rw [total_shown hotherDie hmore hshown, total_shown hdie hfaces hshows, exactTotal_perm hothers]

end Order

/-! ## The same roll, sorted -/

variable {σ : Type} [RandomSource σ]

/-- Every kind of dice shows its own faces on a source whose integers stay in range. -/
theorem onDie_face {dice : Dice} {sides : UInt32} {s s' : Sampler σ} {face : Int64}
    (hσ : RandomSource.InRange σ) (hsides : 0 < sides.toNat)
    (hdraw : dice.face sides s = .ok face s') : OnDie sides face := by
  match dice with
  | .fair | .pool _ _ => exact onDie_of_inRange hσ hsides hdraw
  | .pareto alpha =>
      exact falls_pareto hsides 1 _ s' (.cons hdraw .nil) (Nat.le_refl 1) face
        (List.mem_singleton_self face)

/-- The values of a roll add up to the same checked sum in any order. -/
theorem total_of_roll {dice : Dice} {spec : DiceSpec} {s s' : Sampler σ}
    {thrown values : List Int64} (hσ : RandomSource.InRange σ)
    (hroll : dice.roll spec false s = .ok thrown s') (hlimit : thrown.length ≤ limit)
    (hperm : values.Perm thrown) : total 0 values = total 0 thrown := by
  by_cases hempty : spec.isEmpty
  · rw [roll_of_isEmpty (check_of_roll hroll) hempty] at hroll
    obtain ⟨rfl, -⟩ := Attempt.pure_eq_ok_iff.mp hroll
    rw [List.perm_singleton.mp hperm]
  · obtain ⟨-, hsides⟩ := spec.not_isEmpty_iff.mp hempty
    obtain ⟨first, faces, horder, hfaces, hshows, -, -⟩ := exists_faces_of_roll hempty hroll
    have hdie := hfaces.onDie (onDie_face hσ hsides)
    have hfirst : first.length ≤ limit := horder.length_eq ▸ hlimit
    rw [total_perm hdie hfirst hshows (hperm.trans horder),
      total_perm hdie hfirst hshows horder]

/-- Sorting changes the order of the values and nothing else. From the same source, the roll as it
was thrown and the roll in ascending order halt for the same reason, or both give values. Either way
they make the same draws and leave the same source. The sorted values are the only ascending
permutation of those thrown, with the same sum and the same successes. The sum with a check at each
step is the same as well where the faces are on the dice, as they are on a source whose integers
stay in range, and there are no more values than dice may be asked for. -/
theorem sorted_roll_permutes (dice : Dice) (spec : DiceSpec) (s : Sampler σ) :
    (∃ halt last, dice.roll spec false s = .error halt last ∧
      dice.roll spec true s = .error halt last) ∨
    ∃ thrown sorted s', dice.roll spec false s = .ok thrown s' ∧
      dice.roll spec true s = .ok sorted s' ∧
      sorted.Perm thrown ∧ sorted.Pairwise (· ≤ ·) ∧
      (∀ other : List Int64, other.Perm thrown → other.Pairwise (· ≤ ·) → other = sorted) ∧
      exactSum sorted = exactSum thrown ∧
      (RandomSource.InRange σ → thrown.length ≤ limit → total 0 sorted = total 0 thrown) ∧
      ∀ target, successes target spec sorted = successes target spec thrown := by
  cases hroll : dice.roll spec false s with
  | error halt last =>
      refine .inl ⟨halt, last, rfl, ?_⟩
      rw [roll_eq_map]
      exact Attempt.map_eq_error_iff.mpr hroll
  | ok thrown s' =>
      have hperm := perm_inOrder true thrown
      refine .inr ⟨thrown, inOrder true thrown, s', rfl, ?_, hperm, pairwise_inOrder thrown,
        fun other => eq_inOrder, exactSum_perm hperm, ?_, fun target => ?_⟩
      · rw [roll_eq_map]
        exact Attempt.map_eq_ok_iff.mpr ⟨thrown, hroll, rfl⟩
      · intro hσ hlimit
        exact total_of_roll hσ hroll hlimit hperm
      · exact successes_perm target spec hperm

/-- The die that a ten has added comes first when the values are sorted. -/
theorem sorted_roll_permutes_ten :
    let script : Script := ⟨9, 1, .ofList 0 [], .ofList 0 [], .ofList 0 []⟩
    let spec : DiceSpec := ⟨2, 10, 0⟩
    RandomSource.InRange Script ∧ [9, 10, 1].length ≤ limit ∧
      ∃ s', (pool 6 true).roll spec false ⟨script, #[]⟩ = .ok [9, 10, 1] s' ∧
        (pool 6 true).roll spec true ⟨script, #[]⟩ = .ok [1, 9, 10] s' ∧
        total 0 [1, 9, 10] = total 0 [9, 10, 1] := by
  intro script spec
  have hlimit : [9, 10, 1].length ≤ limit := Nat.le_of_ble_eq_true rfl
  have hvalues : Attempt.value? ((pool 6 true).roll spec false (⟨script, #[]⟩ : Sampler Script)) =
      some [9, 10, 1] := by decide +kernel
  obtain ⟨s', hroll⟩ := Attempt.exists_of_value? hvalues
  rcases sorted_roll_permutes (pool 6 true) spec ⟨script, #[]⟩ with
    ⟨halt, last, hhalt, -⟩ | ⟨thrown, sorted, last, hthrown, hsorted, -, -, honly, -, htotal, -⟩
  · cases hroll.symm.trans hhalt
  · cases hroll.symm.trans hthrown
    obtain rfl := honly [1, 9, 10] (by decide) (by decide)
    exact ⟨Script.bounded.inRange, hlimit, s', hroll, hsorted,
      htotal Script.bounded.inRange hlimit⟩

end Dice

end Tabletop
