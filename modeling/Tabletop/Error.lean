/-
# Errors and their messages

An error is a cause; its wording is a function of the cause. Evaluation has causes of its own, so
that no evaluation can end in a syntax error or in a fault of a table.
-/

import Tabletop.DiceSpec
import Tabletop.Number
import Tabletop.Source
import Tabletop.Statement.SyntaxError
import Tabletop.Toml.Text

namespace Tabletop

/-- Why dice cannot be thrown. -/
inductive RollError
  | tooManyDice (count limit : Nat)
  | tooFewDice
  | tooFewSides
  | badShape (alpha : Float)
  /-- Dice with one side would explode without end. -/
  | endlessExplosion
  deriving DecidableEq, Repr

def RollError.message : RollError → String
  | .tooManyDice count limit =>
      "too many dice: " ++ toString count ++ " (at most " ++ toString limit ++ ")"
  | .tooFewDice => "number of dice out of range; must be > 0"
  | .tooFewSides => "number of sides out of range; must be >= 2"
  | .badShape alpha => "alpha shape parameter out of range; must be >= 1, got " ++ bareFloat alpha
  | .endlessExplosion => "exploding dice need at least 2 sides"

def ArithmeticError.message : ArithmeticError → String
  | .divisionByZero => "cannot divide by zero"
  | .overflow => "integer overflow"

/-- Why a well-formed expression or roll has no value. -/
inductive EvalError
  | arithmetic (cause : ArithmeticError)
  | badNotation (cause : DiceSpec.ReadError)
  | draw (cause : DrawError)
  | roll (cause : RollError)
  deriving DecidableEq, Repr

def EvalError.message : EvalError → String
  | .arithmetic cause => cause.message
  | .badNotation cause => cause.message
  | .draw cause => cause.message
  | .roll cause => cause.message

/-- What a name was looked up as. -/
inductive Wanted
  | table
  | subtable
  | dice
  deriving DecidableEq, Repr

def Wanted.render : Wanted → String
  | .table => "table"
  | .subtable => "sub-table"
  | .dice => "dice expression for table"

/-- What an entry of a table document should have been. -/
inductive EntryShape
  | text
  | list
  | keys
  | outcomes
  deriving DecidableEq, Repr

def EntryShape.render : EntryShape → String
  | .text => "a string"
  | .list => "an array"
  | .keys => "integers or [low, high] pairs"
  | .outcomes => "strings or numbers"

/-- Why a document could not be turned into entries at all. -/
inductive DocumentError
  | missing
  | notUtf8
  | malformed (fault : Toml.Fault)
  deriving DecidableEq, Repr

def DocumentError.message : DocumentError → String
  | .missing => "no such file"
  | .notUtf8 => "file is not valid UTF-8"
  | .malformed fault => fault.message

inductive Error
  | eval (cause : EvalError)
  | badSyntax (error : SyntaxError)
  /-- A plain number was needed and the expression gave a quantity. -/
  | notPlain (input unit : String)
  /-- The key at `index` matched, but there is no result at that place. -/
  | misaligned (roll : Number) (index rolls results : Nat)
  | notFound (wanted : Wanted) (name : String)
  | tooManyRedirects (table : String) (limit : Nat)
  | wrongShape (table key : String) (shape : EntryShape)
  /-- A range of rolls whose ends are in the wrong order. -/
  | emptyRange (table : String) (lo hi : Int64)
  | document (origin : String) (cause : DocumentError)
  deriving DecidableEq, Repr

def Error.message : Error → String
  | .eval cause => cause.message
  | .badSyntax error => error.message
  | .notPlain input unit =>
      "expected a plain number from " ++ Text.quote input ++ ", got a quantity of " ++ unit
  | .misaligned roll index rolls results =>
      "roll " ++ roll.render ++ " found at index " ++ toString index ++ " of rolls (length " ++
        toString rolls ++ "), but there is no corresponding index in results (length " ++
        toString results ++ ")"
  | .notFound wanted name => "no " ++ wanted.render ++ " named " ++ Text.quote name
  | .tooManyRedirects table limit =>
      "table " ++ Text.quote table ++ " redirected more than " ++ toString limit ++ " times"
  | .wrongShape table key shape =>
      "table " ++ Text.quote table ++ ": " ++ key ++ " must be " ++ shape.render
  | .emptyRange table lo hi =>
      "table " ++ Text.quote table ++ ": empty roll range [" ++ toString lo.toInt ++ ", " ++
        toString hi.toInt ++ "]"
  | .document origin cause => origin ++ ": " ++ cause.message

end Tabletop
