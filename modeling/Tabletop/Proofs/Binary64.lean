/-
# The negative zero

Adding zero to a double gives the double back, bit for bit, with one exception: the negative zero
becomes the positive one. No comparison tells the two zeros apart, so the exception shows only
where a double is handed on.

The arithmetic of doubles is defined on unpacked values, and packing undoes unpacking because NaN
has only one pattern here.
-/

import Mathlib
import Tabletop.Proofs.Number

namespace Tabletop.Binary64

open Float.Model Float.Model.UnpackedFloat

/-! ## Adding zero -/

theorem ofModel_pack_unpack (x : Float) :
    Float.ofModel (Float.Model.pack x.toModel.unpack) = x := by
  obtain ⟨⟨bits, hvalid⟩⟩ := x
  have hbits := congrArg UInt64.ofBitVec (pack_unpack_of_valid hvalid)
  have hmodel : Float.Model.pack (Float.Model.unpack ⟨bits, hvalid⟩) = ⟨bits, hvalid⟩ := by
    rw [Float.Model.mk.injEq]
    exact hbits
  exact congrArg Float.ofModel hmodel

theorem add_positiveZero {u : UnpackedFloat} (h : u ≠ .zero .negative) :
    UnpackedFloat.add .binary64 u (.zero .positive) = u := by
  cases u with
  | notANumber => rfl
  | infinity sign => rfl
  | zero sign =>
      cases sign with
      | negative => exact absurd rfl h
      | positive => rfl
  | finite sign m e hm => rfl

/-- Adding zero changes no double but the negative zero. -/
theorem add_zero {x : Float} (h : x ≠ -0.0) : x + 0.0 = x := by
  have hsum : x + 0.0 = Float.ofModel (Float.Model.pack
      (UnpackedFloat.add .binary64 x.toModel.unpack (.zero .positive))) := rfl
  have hunpack : x.toModel.unpack ≠ .zero .negative := by
    intro hzero
    apply h
    rw [← ofModel_pack_unpack x, hzero]
    rfl
  rw [hsum, add_positiveZero hunpack, ofModel_pack_unpack]

/-! ## Comparing with zeros -/

theorem compare_zero_left (u : UnpackedFloat) :
    UnpackedFloat.compare (.zero .negative) u = UnpackedFloat.compare (.zero .positive) u := by
  cases u with
  | notANumber => rfl
  | infinity sign => cases sign <;> rfl
  | zero sign => rfl
  | finite sign m e hm => cases sign <;> rfl

theorem compare_zero_right (u : UnpackedFloat) :
    UnpackedFloat.compare u (.zero .negative) = UnpackedFloat.compare u (.zero .positive) := by
  cases u with
  | notANumber => rfl
  | infinity sign => cases sign <;> rfl
  | zero sign => rfl
  | finite sign m e hm => cases sign <;> rfl

theorem negativeZero_beq (x : Float) : ((-0.0 : Float) == x) = ((0.0 : Float) == x) :=
  congrArg (fun order : Option Ordering => order == some .eq) (compare_zero_left x.toModel.unpack)

theorem beq_negativeZero (x : Float) : (x == (-0.0 : Float)) = (x == (0.0 : Float)) :=
  congrArg (fun order : Option Ordering => order == some .eq) (compare_zero_right x.toModel.unpack)

theorem lt_eq_compare (x y : Float) :
    x.lt y = (UnpackedFloat.compare x.toModel.unpack y.toModel.unpack == some .lt) :=
  Bool.decide_coe _

theorem negativeZero_lt (x : Float) : (-0.0 : Float) < x ↔ (0.0 : Float) < x := by
  have horder : (-0.0 : Float).lt x = (0.0 : Float).lt x := by
    rw [lt_eq_compare, lt_eq_compare]
    exact congrArg (fun order : Option Ordering => order == some .lt) (compare_zero_left _)
  exact Bool.eq_iff_iff.mp horder

theorem lt_negativeZero (x : Float) : x < (-0.0 : Float) ↔ x < (0.0 : Float) := by
  have horder : x.lt (-0.0) = x.lt 0.0 := by
    rw [lt_eq_compare, lt_eq_compare]
    exact congrArg (fun order : Option Ordering => order == some .lt) (compare_zero_right _)
  exact Bool.eq_iff_iff.mp horder

end Tabletop.Binary64

/-! ## Numbers -/

namespace Tabletop.Number

open Binary64

theorem compareFloat_negativeZero_left (x : Float) :
    compareFloat (-0.0) x = compareFloat 0.0 x := by
  simp only [compareFloat, negativeZero_lt, negativeZero_beq, lt_negativeZero]

theorem compareFloat_negativeZero_right (x : Float) :
    compareFloat x (-0.0) = compareFloat x 0.0 := by
  simp only [compareFloat, negativeZero_lt, beq_negativeZero, lt_negativeZero]

/-- Adding the integer zero gives a number back, except that the negative zero loses its sign. -/
theorem add_zero_of_ne {x : Number} (h : x ≠ .float (-0.0)) : x.add (.int 0) = .ok x := by
  cases x with
  | int n =>
      have hsum : n.toInt + (0 : Int64).toInt = n.toInt := Int.add_zero _
      rw [add, hsum, checkedInt64_toInt]
      rfl
  | float x =>
      have hzero : x ≠ -0.0 := fun hx => h (congrArg Number.float hx)
      have hsum : add (.float x) (.int 0) = .ok (.float (x + 0.0)) := rfl
      rw [hsum, Binary64.add_zero hzero]

theorem negativeZero_add_zero : add (.float (-0.0)) (.int 0) = .ok (.float 0.0) :=
  rfl

end Tabletop.Number
