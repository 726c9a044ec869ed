/-
# Exact views of binary floating point

A finite double is a whole number of steps of size `2 ^ (-1074)`, the smallest positive
double. Reading the bits as that number gives every rounding to an integer in exact
arithmetic. The integers here are 64-bit words: a double outside their range goes to the
nearer end of it, and NaN goes to zero.
-/

namespace Tabletop.Binary64

/-- The sign bit, which is also set for `-0.0`. -/
def isNegative (x : Float) : Bool :=
  x.toBits >>> 63 != 0

/-- The eleven exponent bits. All ones is infinity or NaN, all zeros a value without a
leading bit. -/
def exponentField (x : Float) : Nat :=
  (x.toBits >>> 52 &&& 0x7ff).toNat

def fractionField (x : Float) : Nat :=
  (x.toBits &&& 0xfffffffffffff).toNat

/-- The leading bit and the fraction as one number, below `2 ^ 53`. -/
def significand (x : Float) : Nat :=
  if exponentField x = 0 then fractionField x else Nat.pow 2 52 + fractionField x

/-- The power of two by which the significand counts smallest steps. -/
def scale (x : Float) : Nat :=
  exponentField x - 1

/-- The magnitude of a finite double, counted in smallest steps. -/
def steps (x : Float) : Nat :=
  significand x * Nat.pow 2 (scale x)

/-- How many smallest steps make one. -/
def stepsPerUnit : Nat := Nat.pow 2 1074

/-- Which integer stands for a magnitude that lies between two. -/
inductive Rounding
  | down
  | up
  | halfUp
  deriving DecidableEq, Repr

/-- The integer chosen for `count` parts of size `1 / parts`. -/
def Rounding.apply (mode : Rounding) (count parts : Nat) : Nat :=
  match mode with
  | .down => count / parts
  | .up => (count + (parts - 1)) / parts
  | .halfUp => (2 * count + parts) / (2 * parts)

/-- The nearest 64-bit integer to an unbounded one. -/
def clampInt64 (n : Int) : Int64 :=
  if n < Int64.minValue.toInt then Int64.minValue
  else if Int64.maxValue.toInt < n then Int64.maxValue
  else Int64.ofInt n

/-- A double as a 64-bit integer, its magnitude rounded by `mode`. -/
def toInt64By (mode : Rounding) (x : Float) : Int64 :=
  if x.isNaN then 0
  else if x.isInf then
    if isNegative x then Int64.minValue else Int64.maxValue
  else
    let magnitude : Int := mode.apply (steps x) stepsPerUnit
    clampInt64 (if isNegative x then -magnitude else magnitude)

/-- Drop the fraction. -/
def truncate (x : Float) : Int64 :=
  toInt64By .down x

/-- The nearest integer, a half going away from zero. -/
def round (x : Float) : Int64 :=
  toInt64By .halfUp x

/-- The least integer that is not below the value. -/
def ceiling (x : Float) : Int64 :=
  toInt64By (if isNegative x then .down else .up) x

/-- The nearest double to a 64-bit integer. -/
def ofInt64 (n : Int64) : Float :=
  Float.ofInt n.toInt

/-- The smaller operand, the second one of two that are equal, or the other one when either is
NaN. The two zeros are equal. -/
def lesser (x y : Float) : Float :=
  if x < y || y.isNaN then x else y

/-- The larger operand, the second one of two that are equal, or the other one when either is
NaN. The two zeros are equal. -/
def greater (x y : Float) : Float :=
  if y < x || y.isNaN then x else y

/-- The double `x` brought into `[lo, hi]`: the upper bound is applied first, so a range
whose bounds are swapped yields its lower one. A zero takes the sign of a bound that is zero. -/
def clamp (lo hi x : Float) : Float :=
  greater (lesser x hi) lo

end Tabletop.Binary64
