/-
# What fair dice add up to

On a source whose integers stay in the range that is asked for, a fair die shows one of its faces.
So a throw of fair dice never halts for want of a value, and its sum lies between the sums of the
lowest and the highest values that the dice can show. The sum is taken step by step in 64 bits, and
no step overflows unless one of these two extremes does.
-/

import Tabletop.Dice
import Tabletop.Proofs.Attempt
import Tabletop.Proofs.DiceSpec
import Tabletop.Proofs.Number
import Tabletop.Source.Script

namespace Tabletop

/-- An integer draw between two bounds that stand in order succeeds, with a value between them. -/
def RandomSource.Bounded (σ : Type) [RandomSource σ] : Prop :=
  ∀ lo hi : Int64, lo ≤ hi →
    (RandomSource.uniformInt lo hi : Attempt DrawError σ Int64).Returns fun n => lo ≤ n ∧ n ≤ hi

/-- An integer that is drawn between two bounds in order lies between them. The draw may also be
refused. -/
def RandomSource.InRange (σ : Type) [RandomSource σ] : Prop :=
  ∀ {lo hi n : Int64} {s s' : σ}, lo ≤ hi → RandomSource.uniformInt lo hi s = .ok n s' →
    lo ≤ n ∧ n ≤ hi

theorem RandomSource.Bounded.inRange {σ : Type} [RandomSource σ] (hσ : Bounded σ) : InRange σ := by
  intro lo hi n s s' hrange hdraw
  exact (hσ lo hi hrange).of_ok hdraw

/-- Scripted integers wrap within the range. -/
theorem Script.bounded : RandomSource.Bounded Script := by
  intro lo hi hrange s
  have hle := Int64.le_iff_toInt_le.mp hrange
  have hwidth : 0 < hi.toInt - lo.toInt + 1 := by omega
  have hnonneg := Int.emod_nonneg (s.current.toInt - 1) (Int.ne_of_gt hwidth)
  have hlt := Int.emod_lt_of_pos (s.current.toInt - 1) hwidth
  have hlo := lo.le_toInt
  have hhi := hi.toInt_lt
  have hplace : (place s.current lo hi).toInt =
      lo.toInt + (s.current.toInt - 1) % (hi.toInt - lo.toInt + 1) :=
    Int64.toInt_ofInt_of_le (by omega) (by omega)
  refine ⟨place s.current lo hi, _, if_neg (by rw [Int64.lt_iff_toInt_lt]; omega), ?_, ?_⟩
  · rw [Int64.le_iff_toInt_le, hplace]
    omega
  · rw [Int64.le_iff_toInt_le, hplace]
    omega

theorem Sampler.returns_primitive {σ α : Type} {d : Draw} {act : Attempt DrawError σ α}
    {p : α → Prop} (hact : act.Returns p) : (primitive d act : Evaluation σ α).Returns p :=
  .bind (p := fun _ => True) (fun _ => ⟨(), _, rfl, trivial⟩) fun _ _ => .onPart hact

theorem Sampler.returns_uniformInt {σ : Type} [RandomSource σ] (hσ : RandomSource.Bounded σ)
    {lo hi : Int64} (hrange : lo ≤ hi) :
    (uniformInt lo hi : Evaluation σ Int64).Returns fun n => lo ≤ n ∧ n ≤ hi :=
  returns_primitive (hσ lo hi hrange)

namespace Dice

/-! ## Adding up -/

/-- Values between two bounds add up to a sum between the multiples of these bounds. If the sums of
the extremes fit, so do all sums on the way. -/
theorem exists_total (sum : Int64) {lo hi : Int} {xs : List Int64}
    (hxs : ∀ x ∈ xs, lo ≤ x.toInt ∧ x.toInt ≤ hi)
    (hlo : Int64.minValue.toInt ≤ sum.toInt + xs.length * lo)
    (hhi : sum.toInt + xs.length * hi ≤ Int64.maxValue.toInt) :
    ∃ n, total sum xs = .ok n ∧
      sum.toInt + xs.length * lo ≤ n.toInt ∧ n.toInt ≤ sum.toInt + xs.length * hi := by
  induction xs generalizing sum with
  | nil => exact ⟨sum, rfl, by simp, by simp⟩
  | cons x xs ih =>
      obtain ⟨⟨hxlo, hxhi⟩, hxs⟩ := List.forall_mem_cons.mp hxs
      have hmore (y : Int) : (x :: xs).length * y = xs.length * y + y := by
        rw [List.length_cons, Int.natCast_succ, Int.add_mul, Int.one_mul]
      rw [hmore] at hlo hhi
      rw [hmore, hmore]
      have hsumlo := sum.minValue_le_toInt
      have hsumhi := sum.toInt_le
      -- The next sum lies between the present one and an extreme.
      have hnextlo : Int64.minValue.toInt ≤ sum.toInt + x.toInt := by
        rcases Int.le_total 0 lo with hsign | hsign
        · omega
        · have := Int.mul_nonpos_of_nonneg_of_nonpos (Int.natCast_nonneg xs.length) hsign
          omega
      have hnexthi : sum.toInt + x.toInt ≤ Int64.maxValue.toInt := by
        rcases Int.le_total 0 hi with hsign | hsign
        · have := Int.mul_nonneg (Int.natCast_nonneg xs.length) hsign
          omega
        · omega
      obtain ⟨next, hnext, hvalue⟩ := exists_checkedInt64 ⟨hnextlo, hnexthi⟩
      obtain ⟨n, hn, hnlo, hnhi⟩ := ih next hxs (by omega) (by omega)
      refine ⟨n, ?_, by omega, by omega⟩
      rw [total, hnext]
      exact hn

/-! ## Throwing -/

theorem sidesInt64_toInt (sides : UInt32) : (sidesInt64 sides).toInt = sides.toNat :=
  Int64.toInt_ofNat_of_lt (Nat.lt_trans sides.toNat_lt (by decide))

theorem one_le_sidesInt64 {sides : UInt32} (hsides : 0 < sides.toNat) : 1 ≤ sidesInt64 sides := by
  rw [Int64.le_iff_toInt_le, sidesInt64_toInt, Int64.toInt_one]
  omega

variable {σ : Type} [RandomSource σ] {spec : DiceSpec} {sides : UInt32} {modifier : Int64}

theorem returns_face (hσ : RandomSource.Bounded σ) (hsides : 0 < sides.toNat) :
    (fair.face sides : Evaluation σ Int64).Returns
      fun n => 1 ≤ n.toInt ∧ n.toInt ≤ sides.toNat := by
  have hdraw := Sampler.returns_uniformInt hσ (one_le_sidesInt64 hsides)
  simp only [Int64.le_iff_toInt_le, sidesInt64_toInt, Int64.toInt_one] at hdraw
  exact hdraw

/-- Each die shows a value from the lowest to the highest that its face and the modifier allow. -/
theorem returns_throwEach (hσ : RandomSource.Bounded σ) (hsides : 0 < sides.toNat)
    (hfits : sides.toNat + modifier.toInt ≤ Int64.maxValue.toInt) (count : Nat) :
    (throwEach fair sides modifier count : Evaluation σ (List Int64)).Returns fun values =>
      values.length = count ∧ ∀ x ∈ values,
        1 + modifier.toInt ≤ x.toInt ∧ x.toInt ≤ sides.toNat + modifier.toInt := by
  induction count with
  | zero => exact .pure ⟨rfl, nofun⟩
  | succ count ih =>
      refine .bind (returns_face hσ hsides) fun face hface => ?_
      have hmodifier := modifier.minValue_le_toInt
      have hfit : Fits (face.toInt + modifier.toInt) := ⟨by omega, by omega⟩
      obtain ⟨value, hvalue, hsum⟩ := exists_checkedInt64 hfit
      refine .bind (.ofExcept hvalue rfl) fun _ hshown => ?_
      subst hshown
      refine .bind ih fun values hvalues => .pure ⟨congrArg (· + 1) hvalues.1, ?_⟩
      exact List.forall_mem_cons.mpr ⟨⟨by omega, by omega⟩, hvalues.2⟩

/-- Dice that may be thrown, and that can show something, are thrown one after another. -/
theorem throwAll_eq {dice : Dice} (hcount : 0 < spec.count.toNat)
    (hlimit : spec.count.toNat ≤ limit) (hsides : 0 < spec.sides.toNat) :
    (throwAll dice spec : Evaluation σ (List Int64)) =
      throwEach dice spec.sides spec.modifier spec.count.toNat := by
  have hsome : ¬ spec.isEmpty := spec.not_isEmpty_iff.mpr ⟨hcount, hsides⟩
  rw [throwAll, if_neg hsome, if_neg (Nat.not_lt.mpr hlimit)]

theorem returns_roll (hσ : RandomSource.Bounded σ) (hcount : 0 < spec.count.toNat)
    (hlimit : spec.count.toNat ≤ limit) (hsides : 0 < spec.sides.toNat)
    (hfits : spec.sides.toNat + spec.modifier.toInt ≤ Int64.maxValue.toInt) :
    (fair.roll spec false : Evaluation σ (List Int64)).Returns fun values =>
      values.length = spec.count.toNat ∧ ∀ x ∈ values,
        1 + spec.modifier.toInt ≤ x.toInt ∧
          x.toInt ≤ spec.sides.toNat + spec.modifier.toInt := by
  refine .bind (p := fun _ => True) (.ofExcept rfl trivial) fun _ _ => ?_
  dsimp only
  rw [throwAll_eq hcount hlimit hsides]
  exact .bind (returns_throwEach hσ hsides hfits _) fun values hvalues => .pure hvalues

/-- The sum of fair dice lies between the sums of their lowest and of their highest values. It is
found whenever these fit. -/
theorem returns_sum (spec : DiceSpec) (hσ : RandomSource.Bounded σ) (hcount : 0 < spec.count.toNat)
    (hlimit : spec.count.toNat ≤ limit) (hsides : 0 < spec.sides.toNat)
    (hfits : spec.sides.toNat + spec.modifier.toInt ≤ Int64.maxValue.toInt)
    (hlo : Int64.minValue.toInt ≤ spec.count.toNat * (1 + spec.modifier.toInt))
    (hhi : spec.count.toNat * (spec.sides.toNat + spec.modifier.toInt) ≤ Int64.maxValue.toInt) :
    (fair.sum spec : Evaluation σ Int64).Returns fun n =>
      spec.count.toNat * (1 + spec.modifier.toInt) ≤ n.toInt ∧
        n.toInt ≤ spec.count.toNat * (spec.sides.toNat + spec.modifier.toInt) := by
  refine .bind (returns_roll hσ hcount hlimit hsides hfits) fun values hvalues => ?_
  obtain ⟨hlength, hrange⟩ := hvalues
  rw [← hlength] at hlo hhi ⊢
  obtain ⟨n, hn, hbounds⟩ := exists_total 0 hrange (by simpa using hlo) (by simpa using hhi)
  exact .ofExcept hn (by simpa using hbounds)

/-- Without a modifier, no number of dice that may be thrown has a sum that does not fit. -/
theorem returns_sum_plain (count sides : UInt32) (hσ : RandomSource.Bounded σ)
    (hcount : 0 < count.toNat) (hlimit : count.toNat ≤ limit) (hsides : 0 < sides.toNat) :
    (fair.sum ⟨count, sides, 0⟩ : Evaluation σ Int64).Returns fun n =>
      count.toNat ≤ n.toInt ∧ n.toInt ≤ count.toNat * sides.toNat := by
  have hmin : Int64.minValue.toInt ≤ 0 := by decide
  have hmax : limit * UInt32.size ≤ Int64.maxValue.toInt := by decide
  have hsize : sides.toNat < UInt32.size := sides.toNat_lt
  have hproduct : count.toNat * sides.toNat ≤ limit * UInt32.size :=
    Nat.mul_le_mul hlimit (Nat.le_of_lt hsize)
  have hsides' : sides.toNat ≤ count.toNat * sides.toNat := Nat.le_mul_of_pos_left _ hcount
  have hsum := returns_sum (σ := σ) ⟨count, sides, 0⟩ hσ hcount hlimit hsides
  simp only [Int64.toInt_zero, Int.add_zero, Int.mul_one, ← Int.natCast_mul] at hsum
  exact hsum (by omega) (by omega) (by omega)

end Dice

end Tabletop
