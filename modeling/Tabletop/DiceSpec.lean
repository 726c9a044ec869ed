/-
# Dice notation

`NdS+M` stands for `N` dice of `S` sides, with `M` added to each die. The sides default to
six and the modifier to zero; `N` may not be left out. Reading finds the fault that stands
furthest to the left.
-/

import Tabletop.Text

namespace Tabletop

/-- How many dice, of how many sides, and what is added to each of them. -/
structure DiceSpec where
  count : UInt32
  sides : UInt32
  modifier : Int64
  deriving DecidableEq, Repr

namespace DiceSpec

def defaultSides : UInt32 := 6

/-- Nothing is thrown: there are no dice, or they have no sides. -/
def isEmpty (spec : DiceSpec) : Bool :=
  spec.count == 0 || spec.sides == 0

def render (spec : DiceSpec) : String :=
  let dice := toString spec.count.toNat ++ "d" ++ toString spec.sides.toNat
  if spec.modifier = 0 then dice
  else if 0 < spec.modifier then dice ++ "+" ++ toString spec.modifier.toInt
  else dice ++ toString spec.modifier.toInt

/-- Why a text is not in dice notation. -/
inductive ReadError
  | noDelimiter
  | missingCount
  | invalidCount (cause : Text.IntegerError)
  | invalidSides (cause : Text.IntegerError)
  | invalidModifier (cause : Text.IntegerError)
  | extraSign
  deriving DecidableEq, Repr

def ReadError.message : ReadError → String
  | .noDelimiter => "cannot parse string as dice without 'd' delimiter"
  | .missingCount => "dice specifier is missing the number of dice"
  | .invalidCount cause => "invalid number of dice: " ++ cause.message
  | .invalidSides cause => "invalid number of sides: " ++ cause.message
  | .invalidModifier cause => "invalid modifier: " ++ cause.message
  | .extraSign => "dice modifier has more than one sign"

def isSign (c : Char) : Bool :=
  c == '+' || c == '-'

def readCount (text : List Char) : Except ReadError UInt32 :=
  if text.isEmpty then .error .missingCount
  else
    match Text.readNatural (UInt32.size - 1) text with
    | .ok n => .ok (UInt32.ofNat n)
    | .error cause => .error (.invalidCount cause)

def readSides (text : List Char) : Except ReadError UInt32 :=
  if text.isEmpty then .ok defaultSides
  else
    match Text.readNatural (UInt32.size - 1) text with
    | .ok n => .ok (UInt32.ofNat n)
    | .error cause => .error (.invalidSides cause)

/-- The modifier, beginning with its sign. A sign alone adds nothing. -/
def readModifier : List Char → Except ReadError Int64
  | [] => .ok 0
  | [_] => .ok 0
  | sign :: first :: rest =>
      if isSign first then .error .extraSign
      else
        match Text.readNatural (Nat.pow 2 63 - 1) (first :: rest) with
        | .ok n => .ok (Int64.ofInt (if sign = '-' then -(n : Int) else n))
        | .error cause => .error (.invalidModifier cause)

/-- Read dice notation. Blanks around it are ignored, blanks inside it are not. The count
ends at the first `d`, the sides at the first sign after it. -/
def read (text : List Char) : Except ReadError DiceSpec :=
  let text := Text.trim text
  match text.dropWhile (· ≠ 'd') with
  | [] => .error .noDelimiter
  | _ :: rest => do
      let count ← readCount (text.takeWhile (· ≠ 'd'))
      let sides ← readSides (rest.takeWhile fun c => !isSign c)
      let modifier ← readModifier (rest.dropWhile fun c => !isSign c)
      return { count, sides, modifier }

end DiceSpec

end Tabletop
