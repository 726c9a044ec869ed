/-
# Numbers and values

A number is a 64-bit integer or a double. Two integers give an integer, and an exact result
that does not fit is an error; as soon as a double takes part, so does the whole operation.
Division of integers rounds towards negative infinity. Dividing by any zero is an error, also
where doubles would have an infinity to offer.
-/

import Tabletop.Decimal.Text

namespace Tabletop

/-- Why an operation on numbers has no result. -/
inductive ArithmeticError
  | divisionByZero
  | overflow
  deriving DecidableEq, Repr

/-- An exact integer as a 64-bit one, if it is in range. -/
def checkedInt64 (n : Int) : Except ArithmeticError Int64 :=
  if Int64.minValue.toInt ≤ n ∧ n ≤ Int64.maxValue.toInt then .ok (Int64.ofInt n)
  else .error .overflow

/-- The quotient of two integers without its fraction, if it is in range. Here and below the
divisor is not zero. -/
def truncatedQuotient (m n : Int64) : Except ArithmeticError Int64 :=
  checkedInt64 (m.toInt.tdiv n.toInt)

/-- Whether a quotient becomes greater without its fraction: there is a fraction, and the quotient
is negative. -/
def truncatesUp (m n : Int64) : Bool :=
  m % n != 0 && (decide (m < 0) != decide (n < 0))

/-- The quotient of two integers, rounded towards negative infinity. -/
def floorQuotient (m n : Int64) : Except ArithmeticError Int64 :=
  (truncatedQuotient m n).map fun q => if truncatesUp m n then q - 1 else q

inductive Number
  | int (value : Int64)
  | float (value : Float)
  deriving DecidableEq, Repr

namespace Number

instance : Inhabited Number :=
  ⟨.int 0⟩

def zero : Number :=
  .int 0

def isInt : Number → Bool
  | .int _ => true
  | .float _ => false

/-- The number as an integer: a double loses its fraction and stops at the ends of the
integer range. -/
def toInt64 : Number → Int64
  | .int n => n
  | .float x => Binary64.truncate x

/-- The number as a double: an integer with more than 53 significant bits is rounded. -/
def toFloat : Number → Float
  | .int n => Binary64.ofInt64 n
  | .float x => x

def add : Number → Number → Except ArithmeticError Number
  | .int m, .int n => (checkedInt64 (m.toInt + n.toInt)).map .int
  | x, y => .ok (.float (x.toFloat + y.toFloat))

def sub : Number → Number → Except ArithmeticError Number
  | .int m, .int n => (checkedInt64 (m.toInt - n.toInt)).map .int
  | x, y => .ok (.float (x.toFloat - y.toFloat))

def mul : Number → Number → Except ArithmeticError Number
  | .int m, .int n => (checkedInt64 (m.toInt * n.toInt)).map .int
  | x, y => .ok (.float (x.toFloat * y.toFloat))

/-- A zero of either kind and sign. -/
def isZero : Number → Bool
  | .int n => n == 0
  | .float x => x == 0.0

def div (x y : Number) : Except ArithmeticError Number :=
  if y.isZero then .error .divisionByZero
  else
    match x, y with
    | .int m, .int n => (floorQuotient m n).map .int
    | x, y => .ok (.float (x.toFloat / y.toFloat))

/-- Numeric equality. Two integers are compared exactly, any other pair as doubles, so NaN
differs from everything and the two zeros are equal. -/
def equals : Number → Number → Bool
  | .int m, .int n => m == n
  | x, y => x.toFloat == y.toFloat

/-- The order of two doubles, none if one of them is NaN. -/
def compareFloat (x y : Float) : Option Ordering :=
  if x < y then some .lt
  else if x == y then some .eq
  else if y < x then some .gt
  else none

/-- Numeric order. As for equality, only two integers are compared exactly. -/
def order : Number → Number → Option Ordering
  | .int m, .int n => some (compare m n)
  | x, y => compareFloat x.toFloat y.toFloat

def atMost (x y : Number) : Bool :=
  match x.order y with
  | some .lt | some .eq => true
  | _ => false

/-- How answers show a number: a double always has a fraction or an exponent. -/
def render : Number → String
  | .int n => toString n.toInt
  | .float x => Decimal.Style.answer.write x

end Number

/-- What a whole calculation gives: a number, or an amount of something. -/
inductive Value
  | plain (number : Number)
  | quantity (amount : Number) (unit : String)
  deriving DecidableEq, Repr

namespace Value

def number : Value → Number
  | .plain x => x
  | .quantity amount _ => amount

def unit? : Value → Option String
  | .plain _ => none
  | .quantity _ unit => some unit

def render : Value → String
  | .plain x => x.render
  | .quantity amount unit => amount.render ++ " " ++ unit

end Value

end Tabletop
