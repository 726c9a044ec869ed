/-
# When a sum of dice overflows

The value of each die and every sum on the way have to fit in 64 bits. None of these checks is in
vain: as long as the faces are on the dice, a check fails only if the exact total does not fit
either. With a modifier that is not negative, the sums grow. With one that outweighs every face,
they shrink. With any other one, the values are so small that no sum of as many dice as may be
thrown comes near the ends of the range.
-/

import Mathlib.Algebra.Ring.Int.Defs
import Tabletop.Proofs.DiceNotation

namespace Tabletop

namespace Dice

/-! ## Exact sums -/

/-- The sum of some values, without regard to any range. -/
def exactSum (xs : List Int64) : Int :=
  (xs.map Int64.toInt).sum

theorem exactSum_cons (x : Int64) (xs : List Int64) :
    exactSum (x :: xs) = x.toInt + exactSum xs := by
  rw [exactSum, List.map_cons, List.sum_cons, ← exactSum]

/-- A sum is found exactly where it fits, if no sum on the way leaves the range before it. -/
theorem total_eq {sum : Int64} {xs : List Int64}
    (hsteady : ∀ seen, seen <+: xs → Fits (sum.toInt + exactSum xs) →
      Fits (sum.toInt + exactSum seen)) :
    total sum xs = checkedInt64 (sum.toInt + exactSum xs) := by
  induction xs generalizing sum with
  | nil => exact (checkedInt64_eq_ok_iff.mpr (Int.add_zero _).symm).symm
  | cons x xs ih =>
      have hcons (ys : List Int64) :
          sum.toInt + exactSum (x :: ys) = sum.toInt + x.toInt + exactSum ys := by
        rw [exactSum_cons, Int.add_assoc]
      rw [total]
      cases hnext : checkedInt64 (sum.toInt + x.toInt) with
      | ok next =>
          have hvalue := checkedInt64_eq_ok_iff.mp hnext
          rw [hcons, ← hvalue]
          refine ih fun seen hseen => ?_
          rw [hvalue, ← hcons, ← hcons]
          exact hsteady (x :: seen) ((List.prefix_cons_inj x).mpr hseen)
      | error e =>
          obtain ⟨hout, rfl⟩ := checkedInt64_eq_error_iff.mp hnext
          refine (checkedInt64_eq_error_iff.mpr ⟨fun hfits => hout ?_, rfl⟩).symm
          have hone := hsteady [x] (List.prefix_append [x] xs) hfits
          rwa [hcons, exactSum, List.map_nil, List.sum_nil, Int.add_zero] at hone

/-! ## Faces -/

/-- The face is one of a die with so many sides. -/
def OnDie (sides : UInt32) (face : Int64) : Prop :=
  1 ≤ face.toInt ∧ face.toInt ≤ sides.toNat

/-- The exact total of some faces, with the modifier added to each of them. -/
def exactTotal (modifier : Int64) (faces : List Int64) : Int :=
  exactSum faces + faces.length * modifier.toInt

section Total

variable {sides : UInt32} {modifier : Int64} {faces others : List Int64}

theorem exactTotal_nil : exactTotal modifier [] = 0 := by
  simp [exactTotal, exactSum]

theorem exactTotal_cons (face : Int64) :
    exactTotal modifier (face :: faces) =
      face.toInt + modifier.toInt + exactTotal modifier faces := by
  rw [exactTotal, exactTotal, exactSum_cons, List.length_cons, Int.natCast_succ, Int.add_mul,
    Int.one_mul]
  omega

theorem exactTotal_append :
    exactTotal modifier (faces ++ others) =
      exactTotal modifier faces + exactTotal modifier others := by
  induction faces with
  | nil => rw [List.nil_append, exactTotal_nil, Int.zero_add]
  | cons face faces ih =>
      rw [List.cons_append, exactTotal_cons, exactTotal_cons, ih]
      omega

theorem exactTotal_nonneg (hfaces : ∀ face ∈ faces, OnDie sides face)
    (hmodifier : 0 ≤ modifier.toInt) : 0 ≤ exactTotal modifier faces := by
  induction faces with
  | nil => exact Int.le_of_eq exactTotal_nil.symm
  | cons face faces ih =>
      obtain ⟨⟨hlo, -⟩, hfaces⟩ := List.forall_mem_cons.mp hfaces
      have hrest := ih hfaces
      rw [exactTotal_cons]
      omega

theorem exactTotal_nonpos (hfaces : ∀ face ∈ faces, OnDie sides face)
    (hmodifier : modifier.toInt ≤ -UInt32.size) : exactTotal modifier faces ≤ 0 := by
  induction faces with
  | nil => exact Int.le_of_eq exactTotal_nil
  | cons face faces ih =>
      obtain ⟨⟨-, hhi⟩, hfaces⟩ := List.forall_mem_cons.mp hfaces
      have hrest := ih hfaces
      have hsides : sides.toNat < UInt32.size := sides.toNat_lt
      rw [exactTotal_cons]
      omega

theorem exactTotal_small (hfaces : ∀ face ∈ faces, OnDie sides face)
    (hlo : -UInt32.size ≤ modifier.toInt) (hhi : modifier.toInt ≤ 0) :
    -(faces.length * UInt32.size) ≤ exactTotal modifier faces ∧
      exactTotal modifier faces ≤ faces.length * UInt32.size := by
  induction faces with
  | nil => simp [exactTotal_nil]
  | cons face faces ih =>
      obtain ⟨⟨hone, htop⟩, hfaces⟩ := List.forall_mem_cons.mp hfaces
      have hrest := ih hfaces
      have hsides : sides.toNat < UInt32.size := sides.toNat_lt
      rw [exactTotal_cons, List.length_cons, Int.natCast_succ, Int.add_mul]
      omega

/-- A modifier that is small beside the range keeps every total in the range. -/
theorem fits_exactTotal_small (hfaces : ∀ face ∈ faces, OnDie sides face)
    (hlimit : faces.length ≤ limit) (hlo : -UInt32.size ≤ modifier.toInt)
    (hhi : modifier.toInt ≤ 0) : Fits (exactTotal modifier faces) := by
  have hmin : Int64.minValue.toInt ≤ -(limit * UInt32.size) := by decide
  have hmax : limit * UInt32.size ≤ Int64.maxValue.toInt := by decide
  have hlength : faces.length * UInt32.size ≤ limit * UInt32.size := Nat.mul_le_mul_right _ hlimit
  obtain ⟨hbelow, habove⟩ := exactTotal_small hfaces hlo hhi
  exact ⟨by omega, by omega⟩

/-- If the total of some dice fits, so does the total of only some of them. -/
theorem fits_exactTotal (hfaces : ∀ face ∈ faces, OnDie sides face)
    (hothers : ∀ face ∈ others, OnDie sides face) (hlimit : faces.length ≤ limit)
    (hfits : Fits (exactTotal modifier faces + exactTotal modifier others)) :
    Fits (exactTotal modifier faces) := by
  have hmin : Int64.minValue.toInt ≤ 0 := by decide
  have hmax : 0 ≤ Int64.maxValue.toInt := by decide
  obtain ⟨hlo, hhi⟩ := hfits
  rcases Int.le_total 0 modifier.toInt with hsign | hsign
  · have hgrow := exactTotal_nonneg hfaces hsign
    have hmore := exactTotal_nonneg hothers hsign
    exact ⟨by omega, by omega⟩
  · rcases Int.le_total modifier.toInt (-UInt32.size) with hweight | hweight
    · have hshrink := exactTotal_nonpos hfaces hweight
      have hmore := exactTotal_nonpos hothers hweight
      exact ⟨by omega, by omega⟩
    · exact fits_exactTotal_small hfaces hlimit hweight hsign

/-- If the total fits, so does what each of the dice shows. -/
theorem fits_shown (hfaces : ∀ face ∈ faces, OnDie sides face)
    (hfits : Fits (exactTotal modifier faces)) {face : Int64} (hface : face ∈ faces) :
    Fits (face.toInt + modifier.toInt) := by
  obtain ⟨before, after, rfl⟩ := List.append_of_mem hface
  have hsingle : exactTotal modifier [face] = face.toInt + modifier.toInt := by
    rw [exactTotal_cons, exactTotal_nil, Int.add_zero]
  have hsplit : exactTotal modifier (before ++ face :: after) =
      exactTotal modifier [face] + exactTotal modifier (before ++ after) := by
    rw [exactTotal_append, exactTotal_append, exactTotal_cons, hsingle]
    omega
  rw [hsplit] at hfits
  have hone : [face].length ≤ limit := Nat.le_of_ble_eq_true rfl
  rw [← hsingle]
  refine fits_exactTotal (fun f hf => hfaces f ?_) (fun f hf => hfaces f ?_) hone hfits
  · rw [List.mem_singleton.mp hf]
    exact hface
  · exact List.mem_append.mpr ((List.mem_append.mp hf).imp_right (List.mem_cons_of_mem _))

end Total

/-! ## Throwing -/

variable {σ : Type} [RandomSource σ]

/-- Dice that are thrown one after another show these faces. -/
inductive Faces (dice : Dice) (sides : UInt32) : Sampler σ → List Int64 → Sampler σ → Prop
  | nil {s : Sampler σ} : Faces dice sides s [] s
  | cons {s mid s' : Sampler σ} {face : Int64} {faces : List Int64} :
      dice.face sides s = .ok face mid → Faces dice sides mid faces s' →
      Faces dice sides s (face :: faces) s'

variable {dice : Dice} {spec : DiceSpec} {sides : UInt32} {modifier : Int64}
  {s s' last : Sampler σ} {faces : List Int64}

/-- A draw that is refused is no overflow. -/
theorem face_ne_overflow :
    (dice.face sides : Evaluation σ Int64) s ≠ .error (.failed (.arithmetic .overflow)) last := by
  have hprimitive {α : Type} {d : Draw} {act : Attempt DrawError σ α} :
      Sampler.primitive d act s ≠ .error (.failed (.arithmetic .overflow)) last := by
    intro h
    rcases Sampler.halt_of_primitive h with hhalt | ⟨cause, hhalt⟩ <;> cases hhalt
  cases dice with
  | fair => exact hprimitive
  | pool => exact hprimitive
  | pareto =>
      intro h
      rcases Attempt.bind_eq_error_iff.mp h with h | ⟨_, mid, -, h⟩
      · exact hprimitive h
      · cases h

/-- Dice whose values all fit are thrown to the end. -/
theorem throwEach_of_fits (hfaces : Faces dice sides s faces s')
    (hfits : ∀ face ∈ faces, Fits (face.toInt + modifier.toInt)) :
    ∃ values, throwEach dice sides modifier faces.length s = .ok values s' ∧
      values.map Int64.toInt = faces.map fun face => face.toInt + modifier.toInt := by
  induction hfaces with
  | nil => exact ⟨[], rfl, rfl⟩
  | cons hface _ ih =>
      obtain ⟨hfit, hfits⟩ := List.forall_mem_cons.mp hfits
      obtain ⟨value, hshown, hvalue⟩ := exists_checkedInt64 hfit
      obtain ⟨values, hthrown, hvalues⟩ := ih hfits
      refine ⟨value :: values, ?_, ?_⟩
      · refine Attempt.bind_eq_ok_iff.mpr ⟨_, _, hface, ?_⟩
        refine Attempt.bind_eq_ok_iff.mpr
          ⟨value, _, Attempt.ofExcept_eq_ok_iff.mpr ⟨hshown, rfl⟩, ?_⟩
        exact Attempt.bind_eq_ok_iff.mpr ⟨values, _, hthrown, rfl⟩
      · rw [List.map_cons, List.map_cons, hvalue, hvalues]

/-- A value that does not fit ends the throw. -/
theorem throwEach_of_not_fits (hfaces : Faces dice sides s faces s')
    (hout : ∃ face ∈ faces, ¬ Fits (face.toInt + modifier.toInt)) :
    ∃ last, throwEach dice sides modifier faces.length s =
      .error (.failed (.arithmetic .overflow)) last := by
  induction hfaces with
  | nil => simp at hout
  | @cons s mid s' face faces hface _ ih =>
      cases hshown : shown modifier face with
      | ok value =>
          have hfit : Fits (face.toInt + modifier.toInt) :=
            checkedInt64_eq_ok_iff.mp hshown ▸ Fits.toInt value
          have hlater : ∃ other ∈ faces, ¬ Fits (other.toInt + modifier.toInt) := by
            obtain ⟨other, hother, hbad⟩ := hout
            rcases List.mem_cons.mp hother with rfl | hother
            · exact absurd hfit hbad
            · exact ⟨other, hother, hbad⟩
          obtain ⟨last, hlast⟩ := ih hlater
          refine ⟨last, ?_⟩
          refine Attempt.bind_eq_error_iff.mpr (.inr ⟨_, _, hface, ?_⟩)
          refine Attempt.bind_eq_error_iff.mpr
            (.inr ⟨value, _, Attempt.ofExcept_eq_ok_iff.mpr ⟨hshown, rfl⟩, ?_⟩)
          exact Attempt.bind_eq_error_iff.mpr (.inl hlast)
      | error e =>
          obtain ⟨-, rfl⟩ := checkedInt64_eq_error_iff.mp hshown
          refine ⟨mid, ?_⟩
          refine Attempt.bind_eq_error_iff.mpr (.inr ⟨_, _, hface, ?_⟩)
          exact Attempt.bind_eq_error_iff.mpr
            (.inl (Attempt.ofExcept_eq_error_iff.mpr ⟨_, hshown, rfl, rfl⟩))

/-- A throw that overflows was ended by its last die. -/
theorem exists_faces_of_overflow {count : Nat}
    (h : throwEach dice sides modifier count s = .error (.failed (.arithmetic .overflow)) last) :
    ∃ seen, Faces dice sides s seen last ∧ seen.length ≤ count ∧
      ∃ face ∈ seen, ¬ Fits (face.toInt + modifier.toInt) := by
  induction count generalizing s with
  | zero => cases h
  | succ count ih =>
      rcases Attempt.bind_eq_error_iff.mp h with hdraw | ⟨face, mid, hface, hrest⟩
      · exact absurd hdraw face_ne_overflow
      rcases Attempt.bind_eq_error_iff.mp hrest with hvalue | ⟨value, _, hvalue, hlater⟩
      · obtain ⟨e, hshown, -, rfl⟩ := Attempt.ofExcept_eq_error_iff.mp hvalue
        exact ⟨[face], .cons hface .nil, Nat.succ_le_succ (Nat.zero_le _), face,
          List.mem_singleton_self face, (checkedInt64_eq_error_iff.mp hshown).1⟩
      · obtain ⟨-, rfl⟩ := Attempt.ofExcept_eq_ok_iff.mp hvalue
        rcases Attempt.bind_eq_error_iff.mp hlater with hthrown | ⟨values, _, -, hnone⟩
        · obtain ⟨seen, hseen, hlength, other, hother, hout⟩ := ih hthrown
          exact ⟨face :: seen, .cons hface hseen, Nat.succ_le_succ hlength, other,
            List.mem_cons_of_mem _ hother, hout⟩
        · cases hnone

/-- The values of a throw are the faces of its dice with the modifier added. -/
theorem exists_faces_of_ok {count : Nat} {values : List Int64}
    (h : throwEach dice sides modifier count s = .ok values s') :
    ∃ faces, Faces dice sides s faces s' ∧ faces.length = count ∧
      values.map Int64.toInt = faces.map fun face => face.toInt + modifier.toInt := by
  induction count generalizing s values with
  | zero =>
      cases h
      exact ⟨[], .nil, rfl, rfl⟩
  | succ count ih =>
      obtain ⟨face, mid, hface, hrest⟩ := Attempt.bind_eq_ok_iff.mp h
      obtain ⟨value, _, hvalue, hlater⟩ := Attempt.bind_eq_ok_iff.mp hrest
      obtain ⟨hshown, rfl⟩ := Attempt.ofExcept_eq_ok_iff.mp hvalue
      obtain ⟨others, _, hthrown, hdone⟩ := Attempt.bind_eq_ok_iff.mp hlater
      obtain ⟨rfl, rfl⟩ := Attempt.pure_eq_ok_iff.mp hdone
      obtain ⟨faces, hfaces, hlength, hothers⟩ := ih hthrown
      refine ⟨face :: faces, .cons hface hfaces, congrArg (· + 1) hlength, ?_⟩
      rw [List.map_cons, List.map_cons, hothers, checkedInt64_eq_ok_iff.mp hshown]

/-! ## Adding up a throw -/

theorem sum_shown (modifier : Int64) (faces : List Int64) :
    (faces.map fun face => face.toInt + modifier.toInt).sum = exactTotal modifier faces := by
  induction faces with
  | nil => exact exactTotal_nil.symm
  | cons face faces ih => rw [List.map_cons, List.sum_cons, ih, exactTotal_cons]

/-- The values of a throw add up to the exact total, if it fits. -/
theorem total_shown {values : List Int64} (hfaces : ∀ face ∈ faces, OnDie sides face)
    (hlimit : faces.length ≤ limit)
    (hvalues : values.map Int64.toInt = faces.map fun face => face.toInt + modifier.toInt) :
    total 0 values = checkedInt64 (exactTotal modifier faces) := by
  have htake (k : Nat) : exactSum (values.take k) = exactTotal modifier (faces.take k) := by
    rw [exactSum, List.map_take, hvalues, ← List.map_take, sum_shown]
  have hall : exactSum values = exactTotal modifier faces := by
    rw [exactSum, hvalues, sum_shown]
  have hzero (n : Int) : (0 : Int64).toInt + n = n := by rw [Int64.toInt_zero, Int.zero_add]
  rw [total_eq, hzero, hall]
  intro seen hseen
  rw [List.prefix_iff_eq_take.mp hseen, hzero, hzero, hall, htake]
  intro hfits
  rw [← List.take_append_drop seen.length faces, exactTotal_append] at hfits
  refine fits_exactTotal (fun face hface => hfaces face (List.mem_of_mem_take hface))
    (fun face hface => hfaces face (List.mem_of_mem_drop hface)) ?_ hfits
  rw [List.length_take]
  omega

/-! ## Sums that overflow -/

/-- Top faces add further dice. -/
def Explodes : Dice → Bool
  | .pool _ explode => explode
  | _ => false

/-- Dice without explosions that pass their check, of which there are some and not too many, with
at least one side. -/
structure Throwable (dice : Dice) (spec : DiceSpec) : Prop where
  plain : ¬ dice.Explodes
  check : dice.check spec = .ok ()
  count : 0 < spec.count.toNat
  limit : spec.count.toNat ≤ limit
  sides : 0 < spec.sides.toNat

theorem Throwable.roll_eq (h : Throwable dice spec) :
    (dice.roll spec false : Evaluation σ (List Int64)) =
      throwEach dice spec.sides spec.modifier spec.count.toNat := by
  have hall : (dice.roll spec false : Evaluation σ (List Int64)) = (do
      let values ← throwAll dice spec
      return inOrder false values) := by
    unfold roll
    rw [h.check]
    match dice, h.plain with
    | .fair, _ => rfl
    | .pareto _, _ => rfl
    | .pool _ false, _ => rfl
  rw [hall, throwAll_eq h.count h.limit h.sides]
  exact bind_pure _

theorem sum_eq_ok_iff {n : Int64} :
    (dice.sum spec : Evaluation σ Int64) s = .ok n s' ↔
      ∃ values, dice.roll spec false s = .ok values s' ∧ total 0 values = .ok n := by
  rw [sum, Attempt.bind_eq_ok_iff]
  constructor
  · rintro ⟨values, mid, hroll, htotal⟩
    obtain ⟨hn, rfl⟩ := Attempt.ofExcept_eq_ok_iff.mp htotal
    exact ⟨values, hroll, hn⟩
  · rintro ⟨values, hroll, htotal⟩
    exact ⟨values, s', hroll, Attempt.ofExcept_eq_ok_iff.mpr ⟨htotal, rfl⟩⟩

theorem sum_eq_overflow_iff :
    (dice.sum spec : Evaluation σ Int64) s = .error (.failed (.arithmetic .overflow)) last ↔
      dice.roll spec false s = .error (.failed (.arithmetic .overflow)) last ∨
        ∃ values, dice.roll spec false s = .ok values last ∧ total 0 values = .error .overflow := by
  rw [sum, Attempt.bind_eq_error_iff]
  refine or_congr_right ⟨?_, ?_⟩
  · rintro ⟨values, mid, hroll, htotal⟩
    obtain ⟨e, hout, hcause, rfl⟩ := Attempt.ofExcept_eq_error_iff.mp htotal
    cases hcause
    exact ⟨values, hroll, hout⟩
  · rintro ⟨values, hroll, htotal⟩
    exact ⟨values, last, hroll, Attempt.ofExcept_eq_error_iff.mpr ⟨_, htotal, rfl, rfl⟩⟩

/-- Thrown dice add up to their exact total if it fits, and overflow if it does not. -/
theorem sum_of_faces (h : Throwable dice spec) (hfaces : Faces dice spec.sides s faces s')
    (hlength : faces.length = spec.count.toNat) (hdie : ∀ face ∈ faces, OnDie spec.sides face) :
    (Fits (exactTotal spec.modifier faces) →
        ∃ n, dice.sum spec s = .ok n s' ∧ n.toInt = exactTotal spec.modifier faces) ∧
      (¬ Fits (exactTotal spec.modifier faces) →
        ∃ last, dice.sum spec s = .error (.failed (.arithmetic .overflow)) last) := by
  have hlimit : faces.length ≤ limit := hlength ▸ h.limit
  by_cases hshown : ∀ face ∈ faces, Fits (face.toInt + spec.modifier.toInt)
  · obtain ⟨values, hthrown, hvalues⟩ := throwEach_of_fits hfaces hshown
    have htotal := total_shown hdie hlimit hvalues
    rw [hlength, ← h.roll_eq] at hthrown
    constructor
    · intro hfits
      obtain ⟨n, hn, hvalue⟩ := exists_checkedInt64 hfits
      exact ⟨n, sum_eq_ok_iff.mpr ⟨values, hthrown, htotal.trans hn⟩, hvalue⟩
    · intro hout
      have hn := checkedInt64_eq_error_iff.mpr ⟨hout, rfl⟩
      exact ⟨s', sum_eq_overflow_iff.mpr (.inr ⟨values, hthrown, htotal.trans hn⟩)⟩
  · refine ⟨fun hfits => absurd (fun face hface => fits_shown hdie hfits hface) hshown,
      fun _ => ?_⟩
    obtain ⟨last, hlast⟩ := throwEach_of_not_fits hfaces (by simpa using hshown)
    rw [hlength, ← h.roll_eq] at hlast
    exact ⟨last, sum_eq_overflow_iff.mpr (.inl hlast)⟩

/-- If a sum overflows, nothing that the dice not thrown yet could show would have helped. -/
theorem exists_faces_of_sum_overflow (h : Throwable dice spec)
    (hsum : dice.sum spec s = .error (.failed (.arithmetic .overflow)) last) :
    ∃ seen, Faces dice spec.sides s seen last ∧ seen.length ≤ spec.count.toNat ∧
      ∀ faces, faces.length = spec.count.toNat → seen <+: faces →
        (∀ face ∈ faces, OnDie spec.sides face) → ¬ Fits (exactTotal spec.modifier faces) := by
  rcases sum_eq_overflow_iff.mp hsum with hroll | ⟨values, hroll, htotal⟩
  · rw [h.roll_eq] at hroll
    obtain ⟨seen, hseen, hlength, face, hface, hout⟩ := exists_faces_of_overflow hroll
    refine ⟨seen, hseen, hlength, fun faces _ hbegins hdie hfits => hout ?_⟩
    exact fits_shown hdie hfits (hbegins.subset hface)
  · rw [h.roll_eq] at hroll
    obtain ⟨seen, hseen, hlength, hvalues⟩ := exists_faces_of_ok hroll
    refine ⟨seen, hseen, Nat.le_of_eq hlength, fun faces hcount hbegins hdie => ?_⟩
    obtain rfl := hbegins.eq_of_length (hlength.trans hcount.symm)
    rw [total_shown hdie (hlength ▸ h.limit) hvalues] at htotal
    exact (checkedInt64_eq_error_iff.mp htotal).1

/-! ## Dice that show their faces -/

/-- The next dice, so many at most, show their own faces only. -/
def Falls (dice : Dice) (sides : UInt32) (count : Nat) (s : Sampler σ) : Prop :=
  ∀ faces s', Faces dice sides s faces s' → faces.length ≤ count → ∀ face ∈ faces, OnDie sides face

theorem falls_of_face
    (hface : ∀ {s s' : Sampler σ} {face : Int64}, dice.face sides s = .ok face s' →
      OnDie sides face) (count : Nat) : Falls dice sides count s := by
  rintro faces s' hfaces -
  induction hfaces with
  | nil => nofun
  | cons hdraw _ ih => exact List.forall_mem_cons.mpr ⟨hface hdraw, ih⟩

theorem onDie_of_inRange (hσ : RandomSource.InRange σ) (hsides : 0 < sides.toNat) {face : Int64}
    (hdraw : fair.face sides s = .ok face s') : OnDie sides face := by
  obtain ⟨_, mid, -, hdraw⟩ := Attempt.bind_eq_ok_iff.mp hdraw
  obtain ⟨_, hdraw, -⟩ := Attempt.onPart_eq_ok_iff.mp hdraw
  have hface := hσ (one_le_sidesInt64 hsides) hdraw
  simp only [Int64.le_iff_toInt_le, sidesInt64_toInt, Int64.toInt_one] at hface
  exact hface

/-- A fair die shows its own faces on a source whose integers stay in range. -/
theorem falls_fair (hσ : RandomSource.Bounded σ) (hsides : 0 < sides.toNat) (count : Nat) :
    Falls fair sides count s :=
  falls_of_face (onDie_of_inRange hσ.inRange hsides) count

/-- Wherever a draw lands, it lands on a face of the die. -/
theorem onDie_paretoFace (hsides : 0 < sides.toNat) (draw : Float) :
    OnDie sides (paretoFace sides draw) := by
  have hsize : sides.toNat < 2 ^ 32 := sides.toNat_lt
  have htop : (sidesInt64 sides - 1).toInt = sides.toNat - 1 := by
    rw [Int64.toInt_sub, sidesInt64_toInt, Int64.toInt_one]
    exact Int.bmod_eq_of_le (by omega) (by omega)
  have hnext {place : Int64} (hlo : 0 ≤ place.toInt) (hhi : place.toInt ≤ sides.toNat - 1) :
      OnDie sides (place + 1) := by
    have hsum : (place + 1).toInt = place.toInt + 1 := by
      rw [Int64.toInt_add, Int64.toInt_one]
      exact Int.bmod_eq_of_le (by omega) (by omega)
    exact ⟨by omega, by omega⟩
  unfold paretoFace
  dsimp only
  split_ifs with hbelow habove
  · exact hnext (by decide) (by rw [Int64.toInt_zero]; omega)
  · exact hnext (by omega) (by omega)
  · rw [Int64.lt_iff_toInt_lt, Int64.toInt_zero] at hbelow
    rw [Int64.lt_iff_toInt_lt, htop] at habove
    exact hnext (by omega) (by omega)

/-- Whatever is drawn, a weighted die shows one of its own faces. -/
theorem falls_pareto {alpha : Float} (hsides : 0 < sides.toNat) (count : Nat) :
    Falls (.pareto alpha) sides count s := by
  refine falls_of_face (fun {s s' face} hdraw => ?_) count
  obtain ⟨draw, mid, -, hface⟩ := Attempt.bind_eq_ok_iff.mp hdraw
  obtain ⟨rfl, -⟩ := Attempt.pure_eq_ok_iff.mp hface
  exact onDie_paretoFace hsides draw

/-! ## The exact total -/

/-- Without a modifier, no sum of dice overflows. -/
theorem sum_plain_ne_overflow (h : Throwable dice spec) (hmodifier : spec.modifier = 0)
    (hfalls : Falls dice spec.sides spec.count.toNat s) :
    dice.sum spec s ≠ .error (.failed (.arithmetic .overflow)) last := by
  intro hsum
  obtain ⟨seen, hseen, hlength, hall⟩ := exists_faces_of_sum_overflow h hsum
  -- The dice that were not thrown may as well show ones.
  have hones : (seen ++ List.replicate (spec.count.toNat - seen.length) 1).length =
      spec.count.toNat := by
    rw [List.length_append, List.length_replicate]
    omega
  have hdie : ∀ face ∈ seen ++ List.replicate (spec.count.toNat - seen.length) 1,
      OnDie spec.sides face := by
    intro face hface
    rcases List.mem_append.mp hface with hface | hface
    · exact hfalls seen last hseen hlength face hface
    · rw [List.eq_of_mem_replicate hface]
      exact ⟨by decide, Int.ofNat_le.mpr h.sides⟩
  have hlimit := Nat.le_trans (Nat.le_of_eq hones) h.limit
  refine hall _ hones (List.prefix_append _ _) hdie ?_
  rw [hmodifier]
  exact fits_exactTotal_small hdie hlimit (by decide) (by decide)

/-- A dice literal never overflows. -/
theorem evalDice_ne_overflow (h : Throwable fair spec)
    (hfalls : Falls fair spec.sides spec.count.toNat s) {text : String}
    (htext : Grammar.IsDice text spec.count.toNat spec.sides.toNat) :
    Expr.evalDice text s ≠ .error (.failed (.arithmetic .overflow)) last := by
  intro heval
  rcases Attempt.bind_eq_error_iff.mp heval with hread | ⟨plain, _, hread, hrest⟩
  · obtain ⟨e, -, hcause, -⟩ := Attempt.ofExcept_eq_error_iff.mp hread
    cases hcause
  obtain ⟨hspec, rfl⟩ := Attempt.ofExcept_eq_ok_iff.mp hread
  obtain ⟨hcount, hsides, hmodifier⟩ := (DiceSpec.read_dice_eq_ok_iff htext).mp hspec
  rcases Attempt.bind_eq_error_iff.mp hrest with hsum | ⟨n, _, -, hdone⟩
  · obtain ⟨count, sides, modifier⟩ := plain
    obtain rfl := UInt32.toNat_inj.mp hcount
    obtain rfl := UInt32.toNat_inj.mp hsides
    have hplain : Throwable fair ⟨spec.count, spec.sides, modifier⟩ :=
      ⟨h.plain, rfl, h.count, h.limit, h.sides⟩
    exact sum_plain_ne_overflow hplain hmodifier hfalls hsum
  · cases hdone

/-- Dice without explosions, fair or weighted, add up to the exact total of their faces if this
fits in 64 bits, and overflow if it does not. A sum that overflows before all dice are thrown could
not have fitted any more. Without a modifier no sum overflows, and so no dice literal does. -/
theorem sum_exact (dice : Dice) (spec : DiceSpec) (s : Sampler σ) (h : Throwable dice spec)
    (hfalls : Falls dice spec.sides spec.count.toNat s) :
    (∀ faces s', Faces dice spec.sides s faces s' → faces.length = spec.count.toNat →
      (Fits (exactTotal spec.modifier faces) →
        ∃ n, dice.sum spec s = .ok n s' ∧ n.toInt = exactTotal spec.modifier faces) ∧
      (¬ Fits (exactTotal spec.modifier faces) →
        ∃ last, dice.sum spec s = .error (.failed (.arithmetic .overflow)) last)) ∧
    (∀ last, dice.sum spec s = .error (.failed (.arithmetic .overflow)) last →
      ∃ seen, Faces dice spec.sides s seen last ∧ seen.length ≤ spec.count.toNat ∧
        ∀ faces, faces.length = spec.count.toNat → seen <+: faces →
          (∀ face ∈ faces, OnDie spec.sides face) → ¬ Fits (exactTotal spec.modifier faces)) ∧
    (spec.modifier = 0 →
      ∀ last, dice.sum spec s ≠ .error (.failed (.arithmetic .overflow)) last) ∧
    (dice = .fair → ∀ text, Grammar.IsDice text spec.count.toNat spec.sides.toNat →
      ∀ last, Expr.evalDice text s ≠ .error (.failed (.arithmetic .overflow)) last) := by
  refine ⟨fun faces s' hfaces hlength => ?_, fun last => exists_faces_of_sum_overflow h,
    fun hmodifier last => sum_plain_ne_overflow h hmodifier hfalls, ?_⟩
  · exact sum_of_faces h hfaces hlength (hfalls faces s' hfaces (Nat.le_of_eq hlength))
  · rintro rfl text htext last
    exact evalDice_ne_overflow h hfalls htext

/-- A three and a four reach the greatest 64-bit integer exactly. -/
theorem sum_exact_greatest :
    let script : Script := ⟨3, 1, .ofList 0 [], .ofList 0 [], .ofList 0 []⟩
    let spec : DiceSpec := ⟨2, 6, 4611686018427387900⟩
    Throwable .fair spec ∧ Falls .fair spec.sides spec.count.toNat ⟨script, #[]⟩ ∧
      ∃ n s', Dice.fair.sum spec ⟨script, #[]⟩ = .ok n s' ∧ n.toInt = Int64.maxValue.toInt := by
  intro script spec
  have hthrowable : Throwable .fair spec :=
    ⟨Bool.false_ne_true, rfl, by decide, Nat.le_of_ble_eq_true rfl, by decide⟩
  have hfalls : Falls .fair spec.sides spec.count.toNat ⟨script, #[]⟩ :=
    falls_fair Script.bounded hthrowable.sides _
  have hfaces : ∃ s', Faces .fair spec.sides (⟨script, #[]⟩ : Sampler Script) [3, 4] s' :=
    ⟨_, .cons rfl (.cons rfl .nil)⟩
  obtain ⟨s', hfaces⟩ := hfaces
  have hsum := ((sum_exact .fair spec _ hthrowable hfalls).1 _ s' hfaces rfl).1
  obtain ⟨n, hn, hvalue⟩ := hsum ⟨by decide, by decide⟩
  exact ⟨hthrowable, hfalls, n, s', hn, hvalue.trans (by decide)⟩

end Dice

end Tabletop
