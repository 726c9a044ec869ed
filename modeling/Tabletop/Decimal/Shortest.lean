/-
# The shortest decimal of a double

Among the decimals that round to a given double, the ones with the fewest digits are found
on the coarsest decimal grid that has a point inside the rounding interval. Of two such points
the nearer is taken, and the larger when both are equally near. All comparisons are between
natural numbers over one denominator, so nothing is rounded on the way.
-/

import Tabletop.Binary64

namespace Tabletop

/-- The decimal `coefficient * 10 ^ exponent`. -/
structure Decimal where
  coefficient : Nat
  exponent : Int
  deriving DecidableEq, Repr

namespace Decimal

def length (n : Nat) : Nat :=
  (Nat.toDigits 10 n).length

/-- How far the leading digit stands from the units: `d.ddd * 10 ^ magnitude`. -/
def magnitude (d : Decimal) : Int :=
  d.exponent + (length d.coefficient : Int) - 1

/-- The reals that round to one positive double, as fractions with denominator `unit`. The
ends belong to the interval when it is closed. -/
structure Interval where
  low : Nat
  value : Nat
  high : Nat
  unit : Nat
  closed : Bool
  deriving DecidableEq, Repr

namespace Interval

/-- The rounding interval of a positive finite double. It reaches half a gap to either side,
and the gap below a power of two is half as wide. Ties in rounding go to an even significand,
which then owns both ends. -/
def ofFloat (x : Float) : Interval :=
  let gap := Nat.pow 2 (Binary64.scale x)
  let value := 4 * Binary64.steps x
  let narrow := Binary64.significand x = Nat.pow 2 52 ∧ 1 < Binary64.exponentField x
  { low := value - (if narrow then gap else 2 * gap)
    value := value
    high := value + 2 * gap
    unit := 4 * Binary64.stepsPerUnit
    closed := Binary64.significand x % 2 = 0 }

/-- The same interval measured in steps of `10 ^ exponent`. -/
def onGrid (i : Interval) (exponent : Int) : Interval :=
  let wider := Nat.pow 10 (-exponent).toNat
  { i with
    low := i.low * wider
    value := i.value * wider
    high := i.high * wider
    unit := i.unit * Nat.pow 10 exponent.toNat }

/-- Whether the whole number `n` lies in the interval. -/
def Holds (i : Interval) (n : Nat) : Prop :=
  if i.closed then i.low ≤ n * i.unit ∧ n * i.unit ≤ i.high
  else i.low < n * i.unit ∧ n * i.unit < i.high

instance (i : Interval) (n : Nat) : Decidable (i.Holds n) := by
  unfold Holds
  infer_instance

/-- The whole number of the interval next to its value, the larger of two that are equally
near. Only the two neighbours of the value need to be tried. -/
def nearest? (i : Interval) : Option Nat :=
  let below := i.value / i.unit
  let belowIsNearer := 2 * (i.value % i.unit) < i.unit
  if i.Holds below ∧ (belowIsNearer ∨ ¬ i.Holds (below + 1)) then some below
  else if i.Holds (below + 1) then some (below + 1)
  else none

/-- The least `p` such that the value is below `10 ^ p`. -/
def position (i : Interval) : Int :=
  if i.unit ≤ i.value then length (i.value / i.unit)
  else 1 - (length ((i.unit - 1) / i.value) : Int)

/-- Try one digit after another, up to `tries` of them, beginning with `digits`. -/
def search (i : Interval) : (tries digits : Nat) → Decimal
  | 0, digits =>
      let exponent := i.position - digits
      let grid := i.onGrid exponent
      ⟨grid.value / grid.unit, exponent⟩
  | tries + 1, digits =>
      let exponent := i.position - digits
      match (i.onGrid exponent).nearest? with
      | some coefficient => ⟨coefficient, exponent⟩
      | none => search i tries (digits + 1)

end Interval

/-- Move factors of ten from the coefficient to the exponent, at most `fuel` of them. -/
def stripZeros : (fuel : Nat) → Decimal → Decimal
  | 0, d => d
  | fuel + 1, d =>
      if d.coefficient % 10 = 0 then stripZeros fuel ⟨d.coefficient / 10, d.exponent + 1⟩
      else d

/-- The fewest digits that round to the positive finite double `x`. Seventeen always do. -/
def shortest (x : Float) : Decimal :=
  stripZeros 17 ((Interval.ofFloat x).search 17 1)

end Decimal

end Tabletop
