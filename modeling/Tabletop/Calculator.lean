/-
# The calculator

A line of input is read and evaluated in one pass. Only a `set` line that comes to its end changes
a variable.
-/

import Tabletop.Calculator.Parser
import Tabletop.Token.Lexer

namespace Tabletop.Calculator

variable {σ : Type} [RandomSource σ]

/-- The value of a line of input. -/
def calculate (input : String) : Calculation σ Value :=
  Parser.goal input.utf8ByteSize (Token.scan input)

/-- The value of a line of input that may not be a quantity. -/
def number (input : String) : Calculation σ Number := do
  match ← calculate input with
  | .plain value => return value
  | .quantity _ unit => Attempt.fail (.notPlain input unit)

/-- Throw dice on the calculator's source. -/
def roll (dice : Dice) (spec : DiceSpec) (sorted : Bool) : Calculation σ (List Int64) :=
  evaluate (dice.roll spec sorted)

end Tabletop.Calculator
