/-
# Scoring a pool

Successes are counted from the values that a roll returns, and a value does not say which die has
shown it. But adding the modifier keeps faces apart, so as long as the highest and the lowest value
fit, a value that equals the highest one comes from a top face, and one that equals the lowest from
a one. The score is therefore the one of the faces that were thrown, and sorting does not change it.

The zero that a roll without dice returns is scored like any other value. It may reach the target,
or happen to be the highest or the lowest value, and then nothing was thrown and has a score.
-/

import Mathlib.Algebra.BigOperators.Group.List.Basic
import Tabletop.Proofs.Dice.Roll

namespace Tabletop

namespace Dice

/-- What a die that shows this face adds to the successes of a pool: one if its value reaches the
target, one more if it is the top face, and one less if it is a one. -/
def faceScore (target : Int64) (spec : DiceSpec) (face : Int64) : Int :=
  (if target.toInt ≤ face.toInt + spec.modifier.toInt then 1 else 0) +
    (if face.toInt = spec.sides.toNat then 1 else 0) - (if face.toInt = 1 then 1 else 0)

/-- What a value adds to the successes of a pool, in exact integers. -/
def valueScore (target : Int64) (spec : DiceSpec) (value : Int) : Int :=
  (if target.toInt ≤ value then 1 else 0) +
    (if value = spec.sides.toNat + spec.modifier.toInt then 1 else 0) -
    (if value = 1 + spec.modifier.toInt then 1 else 0)

section Score

variable {target : Int64} {spec : DiceSpec} {values faces : List Int64}

theorem score_toInt (htop : Fits (spec.sides.toNat + spec.modifier.toInt))
    (hbottom : Fits (1 + spec.modifier.toInt)) (value : Int64) :
    (score target spec value).toInt = valueScore target spec value.toInt := by
  have hlowest : (1 + spec.modifier).toInt = 1 + spec.modifier.toInt := toInt_add_of_fits hbottom
  rw [score, valueScore]
  simp only [Int64.le_iff_toInt_le, ← Int64.toInt_inj, topValue_toInt htop, hlowest]
  split_ifs <;> rfl

/-- The modifier takes no part in whether a die shows its top face or a one. -/
theorem valueScore_face (face : Int64) :
    valueScore target spec (face.toInt + spec.modifier.toInt) = faceScore target spec face := by
  have htop : face.toInt + spec.modifier.toInt = spec.sides.toNat + spec.modifier.toInt ↔
      face.toInt = spec.sides.toNat := by omega
  have hbottom : face.toInt + spec.modifier.toInt = 1 + spec.modifier.toInt ↔ face.toInt = 1 := by
    omega
  rw [valueScore, faceScore]
  simp only [htop, hbottom]

/-- A value takes one away at worst and adds two at best. -/
theorem valueScore_bounds (value : Int) :
    -1 ≤ valueScore target spec value ∧ valueScore target spec value ≤ 2 := by
  unfold valueScore
  split_ifs <;> omega

theorem sum_faceScore_bounds (faces : List Int64) :
    -faces.length ≤ (faces.map (faceScore target spec)).sum ∧
      (faces.map (faceScore target spec)).sum ≤ 2 * faces.length := by
  induction faces with
  | nil => simp
  | cons face faces ih =>
      have hface : -1 ≤ faceScore target spec face ∧ faceScore target spec face ≤ 2 :=
        valueScore_face face ▸ valueScore_bounds _
      rw [List.map_cons, List.sum_cons, List.length_cons]
      omega

/-- Adding up in 64 bits gives the exact sum as a 64-bit integer. -/
theorem foldl_add_eq_ofInt (start : Int64) (xs : List Int64) :
    xs.foldl (· + ·) start = Int64.ofInt (start.toInt + exactSum xs) := by
  induction xs generalizing start with
  | nil => simp [exactSum]
  | cons x xs ih =>
      rw [List.foldl_cons, ih, exactSum_cons]
      simp only [Int64.ofInt_add, Int64.ofInt_toInt, Int64.add_assoc]

theorem successes_eq_ofInt (htop : Fits (spec.sides.toNat + spec.modifier.toInt))
    (hbottom : Fits (1 + spec.modifier.toInt)) (values : List Int64) :
    successes target spec values =
      Int64.ofInt ((values.map Int64.toInt).map (valueScore target spec)).sum := by
  rw [successes, foldl_add_eq_ofInt, Int64.toInt_zero, Int.zero_add, exactSum, List.map_map,
    List.map_map]
  congr 3
  funext value
  exact score_toInt htop hbottom value

/-- Values are scored like the faces that they come from, in whatever order they stand. -/
theorem sum_valueScore {thrown : List Int64} (hperm : values.Perm thrown)
    (hshows : Shows spec.modifier faces thrown) :
    ((values.map Int64.toInt).map (valueScore target spec)).sum =
      (faces.map (faceScore target spec)).sum := by
  rw [((hperm.map Int64.toInt).map (valueScore target spec)).sum_eq, hshows, List.map_map]
  congr 2
  funext face
  exact valueScore_face face

end Score

variable {σ : Type} [RandomSource σ]

/-- The successes of a roll are the scores of the faces that were thrown, exploded dice included,
and sorted or not. They are added up in 64 bits, and for any number of values that fits into a
memory this is the exact sum. The exception is a roll without dice: its zero is scored as a value,
and this agrees with the faces, of which there are none, exactly if the zero happens to score
nothing. -/
theorem successes_of_roll (target : Int64) (explode : Bool) (spec : DiceSpec) (sorted : Bool)
    (s s' : Sampler σ) (values : List Int64) (hσ : RandomSource.InRange σ)
    (htop : Fits (spec.sides.toNat + spec.modifier.toInt))
    (hbottom : Fits (1 + spec.modifier.toInt))
    (hroll : (pool target explode).roll spec sorted s = .ok values s') :
    ∃ faces, Faces (pool target explode) spec.sides s faces s' ∧
      (∀ face ∈ faces, OnDie spec.sides face) ∧
      (¬ spec.isEmpty → faces.length = values.length ∧
        successes target spec values = Int64.ofInt (faces.map (faceScore target spec)).sum ∧
        (values.length < 2 ^ 62 →
          (successes target spec values).toInt = (faces.map (faceScore target spec)).sum)) ∧
      (spec.isEmpty → faces = [] ∧ values = [0] ∧
        (successes target spec values).toInt = valueScore target spec 0) ∧
      (successes target spec values = Int64.ofInt (faces.map (faceScore target spec)).sum ↔
        ¬ spec.isEmpty ∨ valueScore target spec 0 = 0) := by
  by_cases hempty : spec.isEmpty
  · rw [roll_of_isEmpty (check_of_roll hroll) hempty] at hroll
    obtain ⟨rfl, rfl⟩ := Attempt.pure_eq_ok_iff.mp hroll
    have hzero : ((([0] : List Int64).map Int64.toInt).map (valueScore target spec)).sum =
        valueScore target spec 0 := by simp
    have hbounds : -1 ≤ valueScore target spec 0 ∧ valueScore target spec 0 ≤ 2 :=
      valueScore_bounds 0
    have hscore : (successes target spec [0]).toInt = valueScore target spec 0 := by
      rw [successes_eq_ofInt htop hbottom, hzero]
      exact toInt_ofInt_of_fits (fits_iff.mpr ⟨by omega, by omega⟩)
    refine ⟨[], .nil, List.forall_mem_nil _, absurd hempty, fun _ => ⟨rfl, rfl, hscore⟩, ?_⟩
    rw [← Int64.toInt_inj, hscore]
    simp [hempty]
  · obtain ⟨-, hsides⟩ := spec.not_isEmpty_iff.mp hempty
    obtain ⟨thrown, faces, hperm, hfaces, hshows, -, -⟩ := exists_faces_of_roll hempty hroll
    have hlength : faces.length = values.length := by rw [hperm.length_eq, hshows.length_eq]
    have hscore : successes target spec values =
        Int64.ofInt (faces.map (faceScore target spec)).sum := by
      rw [successes_eq_ofInt htop hbottom, sum_valueScore hperm hshows]
    refine ⟨faces, hfaces, hfaces.onDie (onDie_of_inRange hσ hsides),
      fun _ => ⟨hlength, hscore, fun hfew => ?_⟩, (absurd · hempty), ?_⟩
    · have hbounds : -faces.length ≤ (faces.map (faceScore target spec)).sum ∧
          (faces.map (faceScore target spec)).sum ≤ 2 * faces.length := sum_faceScore_bounds faces
      rw [hscore]
      exact toInt_ofInt_of_fits (fits_iff.mpr ⟨by omega, by omega⟩)
    · exact ⟨fun _ => .inl hempty, fun _ => hscore⟩

/-- A nine, a ten that counts twice and adds a die, and a one that takes a success away. -/
theorem successes_of_roll_ten :
    let script : Script := ⟨9, 1, .ofList 0 [], .ofList 0 [], .ofList 0 []⟩
    let spec : DiceSpec := ⟨2, 10, 0⟩
    RandomSource.InRange Script ∧ Fits (spec.sides.toNat + spec.modifier.toInt) ∧
      Fits (1 + spec.modifier.toInt) ∧
      ∃ faces s', (pool 6 true).roll spec false ⟨script, #[]⟩ = .ok [9, 10, 1] s' ∧
        Faces (pool 6 true) spec.sides ⟨script, #[]⟩ faces s' ∧
        (successes 6 spec [9, 10, 1]).toInt = (faces.map (faceScore 6 spec)).sum ∧
        (successes 6 spec [9, 10, 1]).toInt = 2 := by
  intro script spec
  have hvalues : Attempt.value? ((pool 6 true).roll spec false (⟨script, #[]⟩ : Sampler Script)) =
      some [9, 10, 1] := by decide +kernel
  obtain ⟨s', hroll⟩ := Attempt.exists_of_value? hvalues
  have htop : Fits (spec.sides.toNat + spec.modifier.toInt) := by
    constructor <;> decide
  have hbottom : Fits (1 + spec.modifier.toInt) := by
    constructor <;> decide
  obtain ⟨faces, hfaces, -, hscore, -, -⟩ := successes_of_roll 6 true spec false ⟨script, #[]⟩ s'
    [9, 10, 1] Script.bounded.inRange htop hbottom hroll
  exact ⟨Script.bounded.inRange, htop, hbottom, faces, s', hroll, hfaces,
    (hscore (by decide)).2.2 (Nat.le_of_ble_eq_true rfl), by decide +kernel⟩

/-- No die of six sides is thrown, and at a target of zero this is a success. -/
theorem successes_without_dice :
    let script : Script := ⟨0, 0, .ofList 0 [], .ofList 0 [], .ofList 0 []⟩
    (pool 0 false).roll ⟨0, 6, 0⟩ false ⟨script, #[]⟩ = .ok [0] ⟨script, #[]⟩ ∧
      (successes 0 ⟨0, 6, 0⟩ [0]).toInt = 1 := by
  intro script
  rw [roll_of_isEmpty rfl rfl]
  exact ⟨rfl, by decide +kernel⟩

end Dice

end Tabletop
