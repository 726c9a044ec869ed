/-
# Doubles in a row

Every double that is not NaN has a place in the row of all doubles: the number of smallest steps
from zero to it, negative if its sign is. The two zeros have the same place, and the infinities
stand where the next larger double would. Comparing doubles is comparing their places. So doubles
without NaN are a chain, apart from the two zeros, and what is defined by comparisons can be
computed with places.

Comparing is defined on unpacked values, by exponent and then by mantissa. This compares magnitudes
since the mantissa of every double has its leading bit, unless the exponent is the least one.
-/

import Mathlib
import Tabletop.Proofs.Binary64

namespace Tabletop.Binary64

open Float.Model Float.Model.UnpackedFloat

/-! ## Unpacked values and their places -/

/-- The scale of the infinities, counted from a single bit. -/
def infinityScale : Nat := 2098

/-- Where the infinities stand. All finite doubles are nearer to zero. -/
def infinitySteps : Nat := 2 ^ infinityScale

/-- The unpacked values that are doubles, apart from NaN. -/
inductive Canonical : UnpackedFloat → Prop
  | infinity (sign : Sign) : Canonical (.infinity sign)
  | zero (sign : Sign) : Canonical (.zero sign)
  | finite {sign : Sign} {m scale : Nat} {hm : 0 < m} (hbits : m < 2 ^ 53)
      (hleading : 2 ^ 52 ≤ m ∨ scale = 0) (hscale : scale ≤ 2045) :
      Canonical (.finite sign m (scale - 1074) hm)

/-- The number of smallest steps from zero to an unpacked value. -/
def place : UnpackedFloat → Int
  | .infinity sign => sign.apply infinitySteps
  | .finite sign m e _ => sign.apply (m * 2 ^ (e + 1074).toNat)
  | .zero _ | .notANumber => 0

theorem place_finite (sign : Sign) (m scale : Nat) (hm : 0 < m) :
    place (.finite sign m (scale - 1074) hm) = sign.apply ((m * 2 ^ scale : Nat) : Int) := by
  rw [place, Int.sub_add_cancel, Int.toNat_natCast]
  push_cast
  rfl

/-- A larger exponent outweighs the mantissa. -/
theorem mul_two_pow_lt {m m' scale scale' : Nat} (hbits : m < 2 ^ 53)
    (hleading : 2 ^ 52 ≤ m' ∨ scale' = 0) (hless : scale < scale') :
    m * 2 ^ scale < m' * 2 ^ scale' := by
  have hm' : 2 ^ 52 ≤ m' := hleading.resolve_right (by omega)
  calc m * 2 ^ scale < 2 ^ 53 * 2 ^ scale :=
        Nat.mul_lt_mul_of_pos_right hbits (Nat.two_pow_pos scale)
    _ = 2 ^ 52 * 2 ^ (scale + 1) := by rw [Nat.pow_succ 2 scale]; ring
    _ ≤ m' * 2 ^ scale' := Nat.mul_le_mul hm' (Nat.pow_le_pow_right Nat.two_pos hless)

theorem compare_mul_two_pow {m m' scale scale' : Nat} (hbits : m < 2 ^ 53) (hbits' : m' < 2 ^ 53)
    (hleading : 2 ^ 52 ≤ m ∨ scale = 0) (hleading' : 2 ^ 52 ≤ m' ∨ scale' = 0) :
    (compare ((scale : Int) - 1074) (scale' - 1074)).then (compare m m') =
      compare (m * 2 ^ scale) (m' * 2 ^ scale') := by
  rcases Nat.lt_trichotomy scale scale' with hless | rfl | hless
  · have hexponent : compare ((scale : Int) - 1074) (scale' - 1074) = .lt :=
      compare_lt_iff_lt.mpr (by omega)
    rw [hexponent, compare_lt_iff_lt.mpr (mul_two_pow_lt hbits hleading' hless)]
    rfl
  · rw [compare_eq_iff_eq.mpr rfl, ← cmp_eq_compare (m * 2 ^ scale),
      cmp_mul_pos_right (Nat.two_pow_pos scale), cmp_eq_compare]
    rfl
  · have hexponent : compare ((scale : Int) - 1074) (scale' - 1074) = .gt :=
      compare_gt_iff_gt.mpr (by omega)
    rw [hexponent, compare_gt_iff_gt.mpr (mul_two_pow_lt hbits' hleading hless)]
    rfl

theorem mul_two_pow_lt_infinitySteps {m scale : Nat} (hbits : m < 2 ^ 53) (hscale : scale ≤ 2045) :
    m * 2 ^ scale < infinitySteps :=
  calc m * 2 ^ scale < 2 ^ 53 * 2 ^ scale :=
        Nat.mul_lt_mul_of_pos_right hbits (Nat.two_pow_pos scale)
    _ = 2 ^ (53 + scale) := (Nat.pow_add 2 53 scale).symm
    _ ≤ infinitySteps := Nat.pow_le_pow_right Nat.two_pos (Nat.add_le_add_left hscale 53)

theorem compare_natCast (m n : Nat) : compare (m : Int) n = compare m n := by
  rw [← cmp_eq_compare, ← cmp_eq_compare]
  exact Nat.strictMono_cast.cmp_map_eq m n

theorem compare_neg_neg (a b : Int) : compare (-a) (-b) = compare b a := by
  rw [← cmp_eq_compare, ← cmp_eq_compare]
  have hanti : StrictAnti fun n : Int => -n := fun _ _ h => Int.neg_lt_neg h
  exact hanti.cmp_map_eq a b

theorem some_lt {a b : Int} (h : a < b) : some Ordering.lt = some (compare a b) :=
  congrArg some (compare_lt_iff_lt.mpr h).symm

theorem some_gt {a b : Int} (h : b < a) : some Ordering.gt = some (compare a b) :=
  congrArg some (compare_gt_iff_gt.mpr h).symm

theorem some_eq (a : Int) : some Ordering.eq = some (compare a a) :=
  congrArg some (compare_eq_iff_eq.mpr rfl).symm

theorem between_apply (s : Sign) {m n : Nat} (h : m < n) :
    -(n : Int) < s.apply m ∧ s.apply m < n := by
  cases s <;> simp only [Sign.apply] <;> omega

section Compare

variable {u v : UnpackedFloat}

theorem compare_infinity (s : Sign) (hv : Canonical v) :
    UnpackedFloat.compare (.infinity s) v = some (compare (place (.infinity s)) (place v)) := by
  have hinfinity : 0 < infinitySteps := Nat.two_pow_pos infinityScale
  cases hv with
  | infinity t =>
      cases s with
      | negative =>
          cases t with
          | negative => exact some_eq _
          | positive => exact some_lt (by simp only [place, Sign.apply]; omega)
      | positive =>
          cases t with
          | negative => exact some_gt (by simp only [place, Sign.apply]; omega)
          | positive => exact some_eq _
  | zero t =>
      cases s with
      | negative => exact some_lt (by simp only [place, Sign.apply]; omega)
      | positive => exact some_gt (by simp only [place, Sign.apply]; omega)
  | @finite t m scale hm hbits hleading hscale =>
      have hbounds := between_apply t (mul_two_pow_lt_infinitySteps hbits hscale)
      rw [place_finite]
      cases s with
      | negative => exact some_lt hbounds.1
      | positive => exact some_gt hbounds.2

theorem compare_zero (s : Sign) (hv : Canonical v) :
    UnpackedFloat.compare (.zero s) v = some (compare (place (.zero s)) (place v)) := by
  have hinfinity : 0 < infinitySteps := Nat.two_pow_pos infinityScale
  cases hv with
  | infinity t =>
      cases t with
      | negative => exact some_gt (by simp only [place, Sign.apply]; omega)
      | positive => exact some_lt (by simp only [place, Sign.apply]; omega)
  | zero t => exact some_eq _
  | @finite t m scale hm hbits hleading hscale =>
      have hpos := Nat.mul_pos hm (Nat.two_pow_pos scale)
      rw [place_finite]
      cases t with
      | negative => exact some_gt (by simp only [place, Sign.apply]; omega)
      | positive => exact some_lt (by simp only [place, Sign.apply]; omega)

/-- Finite values with the same sign are compared by their magnitudes. -/
theorem compare_finite {s : Sign} {m scale : Nat} (hm : 0 < m) (hbits : m < 2 ^ 53)
    (hleading : 2 ^ 52 ≤ m ∨ scale = 0) (hscale : scale ≤ 2045) (hv : Canonical v) :
    UnpackedFloat.compare (.finite s m (scale - 1074) hm) v =
      some (compare (place (.finite s m (scale - 1074) hm)) (place v)) := by
  have hpos := Nat.mul_pos hm (Nat.two_pow_pos scale)
  rw [place_finite]
  cases hv with
  | infinity t =>
      have hbounds := between_apply s (mul_two_pow_lt_infinitySteps hbits hscale)
      cases t with
      | negative => exact some_gt hbounds.1
      | positive => exact some_lt hbounds.2
  | zero t =>
      cases s with
      | negative => exact some_lt (by simp only [place, Sign.apply]; omega)
      | positive => exact some_gt (by simp only [place, Sign.apply]; omega)
  | @finite t m' scale' hm' hbits' hleading' hscale' =>
      have hpos' := Nat.mul_pos hm' (Nat.two_pow_pos scale')
      have horder := compare_mul_two_pow hbits hbits' hleading hleading'
      rw [place_finite]
      cases s with
      | negative =>
          cases t with
          | negative =>
              refine congrArg some ((congrArg Ordering.swap horder).trans ?_)
              rw [Sign.apply, Sign.apply, compare_neg_neg, compare_natCast]
              exact Std.OrientedOrd.eq_swap.symm
          | positive => exact some_lt (by simp only [Sign.apply]; omega)
      | positive =>
          cases t with
          | negative => exact some_gt (by simp only [Sign.apply]; omega)
          | positive => exact congrArg some (horder.trans (compare_natCast _ _).symm)

/-- Only zeros are at the place of zero. -/
theorem exists_eq_zero_of_place (hu : Canonical u) (h : place u = 0) : ∃ s, u = .zero s := by
  cases hu with
  | infinity s =>
      have hinfinity : 0 < infinitySteps := Nat.two_pow_pos infinityScale
      cases s <;> simp only [place, Sign.apply] at h <;> omega
  | zero s => exact ⟨s, rfl⟩
  | @finite s m scale hm hbits hleading hscale =>
      have hpos := Nat.mul_pos hm (Nat.two_pow_pos scale)
      rw [place_finite] at h
      cases s <;> simp only [Sign.apply] at h <;> omega

/-- Comparing unpacked values is comparing their places. -/
theorem compare_eq_compare_place (hu : Canonical u) (hv : Canonical v) :
    u.compare v = some (compare (place u) (place v)) := by
  cases hu with
  | infinity s => exact compare_infinity s hv
  | zero s => exact compare_zero s hv
  | finite hbits hleading hscale => exact compare_finite _ hbits hleading hscale hv

end Compare

/-! ## Unpacking -/

section Unpack

variable (x : Float)

/-- The sign bit as the sign of an unpacked value. -/
def sign : Sign :=
  if isNegative x then .negative else .positive

theorem toNat_unpackExponent :
    (@unpackExponent .binary64 x.toBits.toBitVec).toNat = exponentField x := by
  rw [unpackExponent_def, BitVec.extractLsb'_toNat, exponentField, UInt64.toNat_and,
    UInt64.toNat_shiftRight]
  exact (Nat.and_two_pow_sub_one_eq_mod _ 11).symm

theorem toNat_unpackMantissa :
    (@unpackMantissa .binary64 x.toBits.toBitVec).toNat = fractionField x := by
  rw [unpackMantissa_def, BitVec.extractLsb'_toNat, fractionField, UInt64.toNat_and]
  exact (Nat.and_two_pow_sub_one_eq_mod _ 52).symm

theorem unpackExponent_eq_ones_iff :
    @unpackExponent .binary64 x.toBits.toBitVec = -1#_ ↔ exponentField x = 2047 := by
  rw [← BitVec.toNat_inj, toNat_unpackExponent]
  rfl

theorem unpackExponent_eq_zero_iff :
    @unpackExponent .binary64 x.toBits.toBitVec = 0#_ ↔ exponentField x = 0 := by
  rw [← BitVec.toNat_inj, toNat_unpackExponent]
  rfl

theorem unpackMantissa_eq_zero_iff :
    @unpackMantissa .binary64 x.toBits.toBitVec = 0#_ ↔ fractionField x = 0 := by
  rw [← BitVec.toNat_inj, toNat_unpackMantissa]
  rfl

theorem ofBitVec_unpackSign :
    Sign.ofBitVec (@unpackSign .binary64 x.toBits.toBitVec) = sign x := by
  have hbit : (@unpackSign .binary64 x.toBits.toBitVec).toNat =
      (x.toBits >>> 63).toNat := by
    rw [unpackSign_def, BitVec.extractLsb'_toNat, UInt64.toNat_shiftRight]
    have hlt : x.toBits.toNat >>> 63 < 2 ^ 1 := by
      rw [Nat.shiftRight_eq_div_pow]
      exact Nat.div_lt_of_lt_mul x.toBits.toNat_lt
    exact Nat.mod_eq_of_lt hlt
  have hzero : @unpackSign .binary64 x.toBits.toBitVec = 0#1 ↔ x.toBits >>> 63 = 0 := by
    rw [← BitVec.toNat_inj, ← UInt64.toNat_inj, hbit]
    rfl
  simp only [Sign.ofBitVec, hzero, sign, isNegative, bne_iff_ne, ne_eq, ite_not]

theorem exponentField_lt : exponentField x < 2 ^ 11 := by
  rw [← toNat_unpackExponent]
  exact BitVec.isLt _

theorem fractionField_lt : fractionField x < 2 ^ 52 := by
  rw [← toNat_unpackMantissa]
  exact BitVec.isLt _

theorem significand_eq :
    significand x = if exponentField x = 0 then fractionField x else 2 ^ 52 + fractionField x :=
  rfl

theorem steps_eq : steps x = significand x * 2 ^ scale x :=
  rfl

/-- A double, unpacked, by its fields. -/
theorem unpack_eq :
    x.toModel.unpack =
      if exponentField x = 2047 then
        if fractionField x = 0 then .infinity (sign x) else .notANumber
      else if h : significand x = 0 then .zero (sign x)
      else .finite (sign x) (significand x) (scale x - 1074) (Nat.pos_of_ne_zero h) := by
  have hexponent := toNat_unpackExponent x
  have hmantissa := toNat_unpackMantissa x
  have hones := unpackExponent_eq_ones_iff x
  have hzeros := unpackExponent_eq_zero_iff x
  have hnone := unpackMantissa_eq_zero_iff x
  change UnpackedFloat.unpack .binary64 x.toBits.toBitVec = _
  fun_cases UnpackedFloat.unpack .binary64 x.toBits.toBitVec with
  | case1 _ _ _ s hexp hfrac =>
      rw [if_pos (hones.mp hexp), if_pos (hnone.mp hfrac)]
      exact congrArg _ (ofBitVec_unpackSign x)
  | case2 _ _ hexp hfrac =>
      rw [if_pos (hones.mp hexp), if_neg (mt hnone.mpr hfrac)]
  | case3 _ _ _ s hne hexp hfrac =>
      have hsignificand : significand x = 0 := by
        rw [significand, if_pos (hzeros.mp hexp), hnone.mp hfrac]
      rw [if_neg (mt hones.mpr hne), dif_pos hsignificand]
      exact congrArg _ (ofBitVec_unpackSign x)
  | case4 _ _ e _ s hne hexp hfrac =>
      have hsignificand : significand x = fractionField x := if_pos (hzeros.mp hexp)
      have hscale : scale x = 0 := by rw [scale, hzeros.mp hexp]
      have hvalue : e = (exponentField x : Int) - 1075 := by rw [← hexponent]; rfl
      have he : e + 1 = (scale x : Int) - 1074 := by
        rw [hvalue, hscale, hzeros.mp hexp]
        rfl
      have hm : significand x ≠ 0 := hsignificand.trans_ne (mt hnone.mpr hfrac)
      rw [if_neg (mt hones.mpr hne), dif_neg hm, finite.injEq]
      exact ⟨ofBitVec_unpackSign x, hmantissa.trans hsignificand.symm, he⟩
  | case5 _ _ e _ s hne hexp =>
      have hsignificand : significand x = 2 ^ 52 + fractionField x := if_neg (mt hzeros.mpr hexp)
      have hm : significand x ≠ 0 := by omega
      rw [if_neg (mt hones.mpr hne), dif_neg hm, finite.injEq]
      refine ⟨ofBitVec_unpackSign x, ?_, ?_⟩
      · have hleading := Nat.two_pow_add_eq_or_of_lt (fractionField_lt x) 1
        rw [BitVec.toNat_append, hsignificand]
        change 2 ^ 52 ||| (@unpackMantissa .binary64 x.toBits.toBitVec).toNat = _
        rw [hmantissa]
        exact hleading.symm
      · have hnonzero := mt hzeros.mpr hexp
        have hvalue : e = (exponentField x : Int) - 1075 := by rw [← hexponent]; rfl
        rw [hvalue, scale]
        omega

variable {x}

theorem unpack_eq_finite {s : Sign} {m places : Nat} (hsign : sign x = s)
    (hexponent : exponentField x ≠ 2047) (hsignificand : significand x = m)
    (hscale : scale x = places) (hm : 0 < m) :
    x.toModel.unpack = .finite s m (places - 1074) hm := by
  subst hsign hsignificand hscale
  rw [unpack_eq, if_neg hexponent, dif_neg hm.ne']

theorem isNaN_eq_unpack : x.isNaN = x.toModel.unpack.isNaN :=
  rfl

theorem canonical_unpack (hx : ¬ x.isNaN) : Canonical x.toModel.unpack := by
  rw [isNaN_eq_unpack] at hx
  have hexponent := exponentField_lt x
  have hfraction := fractionField_lt x
  rw [unpack_eq] at hx ⊢
  split_ifs at hx ⊢ with hexp hfrac hzero
  · exact .infinity _
  · exact absurd rfl hx
  · exact .zero _
  · refine .finite ?_ ?_ ?_
    · rw [significand_eq]; split <;> omega
    · rw [significand_eq, scale]; split <;> omega
    · unfold scale; omega

theorem steps_of_infinite (hexp : exponentField x = 2047) (hfrac : fractionField x = 0) :
    steps x = infinitySteps := by
  have hscale : infinityScale = 52 + scale x := by rw [scale, hexp]; rfl
  rw [steps_eq, significand_eq, if_neg (by omega), hfrac, Nat.add_zero, infinitySteps, hscale,
    Nat.pow_add]

theorem steps_of_isInf (hx : x.isInf) : steps x = infinitySteps := by
  change x.toModel.unpack.isInf = true at hx
  rw [unpack_eq] at hx
  split_ifs at hx with hexp hfrac
  · exact steps_of_infinite hexp hfrac
  · cases hx
  · cases hx
  · cases hx

/-- The number of smallest steps from zero to a double, negative if the sign of the double is. -/
def position (x : Float) : Int :=
  if isNegative x then -(steps x : Int) else steps x

theorem apply_sign (n : Nat) :
    (sign x).apply n = if isNegative x then -(n : Int) else n := by
  unfold sign
  split <;> rfl

theorem place_unpack (hx : ¬ x.isNaN) : place x.toModel.unpack = position x := by
  rw [isNaN_eq_unpack] at hx
  rw [unpack_eq] at hx ⊢
  rw [position, ← apply_sign]
  split_ifs at hx ⊢ with hexp hfrac hzero
  · rw [place, steps_of_infinite hexp hfrac]
  · exact absurd rfl hx
  · rw [steps, hzero, Nat.zero_mul, apply_sign]
    split <;> rfl
  · rw [place_finite]
    rfl

end Unpack

/-! ## Packing -/

section Pack

/-- The double with an unpacked value. -/
def ofUnpacked (u : UnpackedFloat) : Float :=
  Float.ofModel (Float.Model.pack u)

theorem fields_of_components {x : Float} {s : Sign} {e : BitVec 11} {m : BitVec 52}
    (hbits : x.toBits.toBitVec = packComponents .binary64 s e m) :
    sign x = s ∧ exponentField x = e.toNat ∧ fractionField x = m.toNat := by
  refine ⟨?_, ?_, ?_⟩
  · rw [← ofBitVec_unpackSign, hbits, unpackSign_packComponents, Sign.ofBitVec_toBitVec]
  · rw [← toNat_unpackExponent, hbits, unpackExponent_packComponents]
  · rw [← toNat_unpackMantissa, hbits, unpackMantissa_packComponents]

/-- A finite value is packed with its leading bit left out, which the exponent makes up for. -/
theorem toBitVec_ofUnpacked {s : Sign} {m scale : Nat} (hm : 0 < m) (hbits : m < 2 ^ 53)
    (hscale : scale ≤ 2045) :
    (ofUnpacked (.finite s m (scale - 1074) hm)).toBits.toBitVec =
      packComponents .binary64 s (BitVec.ofNat _ (if 2 ^ 52 ≤ m then scale + 1 else 0))
        (BitVec.ofNat _ m) := by
  have hbias : ((scale - 1074 : Int) + Format.binary64.exponentBias +
      Format.binary64.mantissaBitsWithoutImplicit).toNat = scale + 1 := by
    change ((scale : Int) - 1074 + 1023 + 52).toNat = scale + 1
    omega
  have hfits : ¬ 2 ^ Format.binary64.exponentBits ≤ scale + 1 + 1 := by
    change ¬ 2048 ≤ scale + 1 + 1
    omega
  have hlog : m.log2 + 1 = Format.binary64.mantissaBits ↔ 2 ^ 52 ≤ m := by
    change m.log2 + 1 = 53 ↔ _
    have hle := Nat.le_log2 (k := 52) hm.ne'
    have hlt := Nat.log2_lt (k := 53) hm.ne'
    omega
  change UnpackedFloat.pack .binary64 (.finite s m (scale - 1074) hm) = _
  simp only [UnpackedFloat.pack, hbias, if_neg hfits, hlog]
  split_ifs <;> rfl

/-- Packing loses nothing of a value that is a double. -/
theorem unpack_ofUnpacked {u : UnpackedFloat} (hu : Canonical u) :
    (ofUnpacked u).toModel.unpack = u := by
  cases hu with
  | infinity s => cases s <;> rfl
  | zero s => cases s <;> rfl
  | @finite s m scale hm hbits hleading hscale =>
      obtain ⟨hsign, hexponent, hfraction⟩ :=
        fields_of_components (toBitVec_ofUnpacked (s := s) hm hbits hscale)
      rw [BitVec.toNat_ofNat] at hexponent hfraction
      by_cases hnormal : 2 ^ 52 ≤ m
      · rw [if_pos hnormal, Nat.mod_eq_of_lt (by omega)] at hexponent
        refine unpack_eq_finite hsign (by omega) ?_ ?_ hm
        · rw [significand_eq, hexponent, if_neg (Nat.succ_ne_zero scale), hfraction]
          omega
        · rw [Binary64.scale, hexponent, Nat.add_sub_cancel]
      · rw [if_neg hnormal, Nat.zero_mod] at hexponent
        rw [Nat.mod_eq_of_lt (by omega)] at hfraction
        refine unpack_eq_finite hsign (by omega) ?_ ?_ hm
        · rw [significand_eq, hexponent, if_pos rfl, hfraction]
        · rw [Binary64.scale, hexponent, hleading.resolve_left hnormal]

theorem isNaN_ofUnpacked {u : UnpackedFloat} (hu : Canonical u) : ¬ (ofUnpacked u).isNaN := by
  rw [isNaN_eq_unpack, unpack_ofUnpacked hu]
  cases hu <;> exact Bool.false_ne_true

theorem position_ofUnpacked {u : UnpackedFloat} (hu : Canonical u) :
    position (ofUnpacked u) = place u := by
  rw [← place_unpack (isNaN_ofUnpacked hu), unpack_ofUnpacked hu]

theorem Canonical.neg {u : UnpackedFloat} (hu : Canonical u) : Canonical u.neg := by
  cases hu with
  | infinity s => exact .infinity _
  | zero s => exact .zero _
  | finite hbits hleading hscale => exact .finite hbits hleading hscale

theorem neg_apply (s : Sign) (n : Int) : (-s).apply n = -s.apply n := by
  cases s
  · exact (Int.neg_neg n).symm
  · rfl

theorem place_neg (u : UnpackedFloat) : place u.neg = -place u := by
  cases u with
  | infinity s => exact neg_apply s _
  | zero s | notANumber => rfl
  | finite s m e hm => exact neg_apply s _

end Pack

/-! ## Comparing doubles -/

section Compare

variable {x y : Float}

theorem compare_unpack (hx : ¬ x.isNaN) (hy : ¬ y.isNaN) :
    x.toModel.unpack.compare y.toModel.unpack = some (compare (position x) (position y)) := by
  rw [compare_eq_compare_place (canonical_unpack hx) (canonical_unpack hy), place_unpack hx,
    place_unpack hy]

theorem lt_iff_position_lt (hx : ¬ x.isNaN) (hy : ¬ y.isNaN) :
    x < y ↔ position x < position y := by
  change x.lt y = true ↔ _
  rw [lt_eq_compare, compare_unpack hx hy, beq_iff_eq, Option.some.injEq, compare_lt_iff_lt]

theorem beq_iff_position_eq (hx : ¬ x.isNaN) (hy : ¬ y.isNaN) :
    x == y ↔ position x = position y := by
  change (x.toModel.unpack.compare y.toModel.unpack == some .eq) = true ↔ _
  rw [compare_unpack hx hy, beq_iff_eq, Option.some.injEq, compare_eq_iff_eq]

theorem not_isNaN_of_beq (h : x == y) : ¬ x.isNaN := by
  intro hnan
  have hunpack : x.toModel.unpack = .notANumber := isNaN_iff.mp hnan
  change (x.toModel.unpack.compare y.toModel.unpack == some .eq) = true at h
  rw [hunpack] at h
  cases h

/-- Only the two zeros are equal to zero. -/
theorem beq_zero_iff : x == 0.0 ↔ x = 0.0 ∨ x = -0.0 := by
  constructor
  · intro hequal
    have hx := not_isNaN_of_beq hequal
    have hplace : place x.toModel.unpack = 0 := by
      rw [place_unpack hx, (beq_iff_position_eq hx (by decide)).mp hequal]
      rfl
    obtain ⟨s, hzero⟩ := exists_eq_zero_of_place (canonical_unpack hx) hplace
    rw [← ofModel_pack_unpack x, hzero]
    cases s with
    | negative => exact .inr rfl
    | positive => exact .inl rfl
  · rintro (rfl | rfl) <;> rfl

end Compare

section Negate

variable {x : Float}

theorem neg_eq : -x = ofUnpacked x.toModel.unpack.neg :=
  rfl

theorem isNaN_neg (hx : ¬ x.isNaN) : ¬ (-x).isNaN := by
  rw [neg_eq]
  exact isNaN_ofUnpacked (canonical_unpack hx).neg

theorem position_neg (hx : ¬ x.isNaN) : position (-x) = -position x := by
  rw [neg_eq, position_ofUnpacked (canonical_unpack hx).neg, place_neg, place_unpack hx]

end Negate

end Tabletop.Binary64

namespace Tabletop.Number

open Binary64

theorem compareFloat_eq {x y : Float} (hx : ¬ x.isNaN) (hy : ¬ y.isNaN) :
    compareFloat x y = some (compare (position x) (position y)) := by
  simp only [compareFloat, lt_iff_position_lt hx hy, beq_iff_position_eq hx hy,
    lt_iff_position_lt hy hx]
  rcases Int.lt_trichotomy (position x) (position y) with hless | hequal | hmore
  · rw [if_pos hless, compare_lt_iff_lt.mpr hless]
  · rw [if_neg (Int.not_lt.mpr hequal.ge), if_pos hequal, compare_eq_iff_eq.mpr hequal]
  · rw [if_neg (Int.not_lt.mpr hmore.le), if_neg hmore.ne', if_pos hmore,
      compare_gt_iff_gt.mpr hmore]

end Tabletop.Number
