/-
# Random sources

All chance in the library comes from four draws. A source is a plain value: keeping a copy of it
is keeping its state, and drawing again from the copy repeats the same values. What a draw
returns is up to the source; a source may also refuse a draw whose parameters make no sense to
it.
-/

import Tabletop.Attempt
import Tabletop.Decimal.Text

namespace Tabletop

/-- Why a source refused a draw. -/
inductive DrawError
  /-- There is no integer between the bounds. -/
  | emptyRange (lo hi : Int64)
  /-- The standard deviation is negative or NaN. -/
  | badDeviation (deviation : Float)
  | infiniteDeviation (mean deviation : Float)
  /-- The shape of a Pareto distribution is not positive. -/
  | badShape (shape : Float)
  deriving DecidableEq, Repr

/-- A float in a message, as bare digits. -/
def bareFloat (x : Float) : String :=
  Decimal.Style.bare.write x

def DrawError.message : DrawError → String
  | .emptyRange lo hi =>
      "empty range for random integer: [" ++ toString lo.toInt ++ " " ++ toString hi.toInt ++ "]"
  | .badDeviation deviation =>
      "gaussian standard deviation must be >= 0, got " ++ bareFloat deviation
  | .infiniteDeviation mean deviation =>
      "invalid gaussian (mean " ++ bareFloat mean ++ ", sd " ++ bareFloat deviation ++
        "): variation parameter is non-finite in (log)normal distribution"
  | .badShape shape =>
      "invalid pareto shape " ++ bareFloat shape ++
        ": shape is not positive in Pareto distribution"

class RandomSource (σ : Type) where
  /-- A double between two bounds, which may stand in either order. This draw never fails. -/
  uniformFloat (lo hi : Float) : StateM σ Float
  /-- An integer between two bounds, both included. -/
  uniformInt (lo hi : Int64) : Attempt DrawError σ Int64
  /-- A double from the normal distribution. -/
  gaussian (mean deviation : Float) : Attempt DrawError σ Float
  /-- A double from the Pareto distribution with scale one. -/
  pareto (shape : Float) : Attempt DrawError σ Float

end Tabletop
