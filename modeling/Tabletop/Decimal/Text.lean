/-
# How decimals are written and read

A style decides where positional notation ends and whether a whole number keeps a fraction.
Two styles are in use: answers show that a number is a float and fall back on an exponent for
very large and very small ones, messages give the bare digits.

A decimal that is read becomes the nearest double, a tie going to the even neighbour. Decimals far
outside the range of doubles are settled by their magnitude alone, so a huge exponent costs nothing.
-/

import Tabletop.Decimal.Shortest

namespace Tabletop.Decimal

/-! ## Writing -/

/-- The choices in writing a double that its digits leave open. -/
structure Style where
  /-- Whether a value whose leading digit stands at this power of ten is written
  positionally. -/
  positional : Int → Bool
  /-- What follows a whole number. -/
  wholeMark : String

/-- Positional from `0.0001` up to, but not including, ten to the sixteenth; whole numbers
keep one zero after the point. -/
def Style.answer : Style where
  positional magnitude := -4 ≤ magnitude && magnitude < 16
  wholeMark := ".0"

/-- Always positional, without a point after whole numbers. -/
def Style.bare : Style where
  positional _ := true
  wholeMark := ""

def zeros (n : Nat) : String :=
  String.ofList (List.replicate n '0')

/-- The digits with a decimal point among them, zeros filling the distance to it. -/
def writePositional (style : Style) (d : Decimal) : String :=
  let digits := Nat.toDigits 10 d.coefficient
  let whole := d.magnitude + 1
  if whole ≤ 0 then "0." ++ zeros (-whole).toNat ++ String.ofList digits
  else if (digits.length : Int) ≤ whole then
    String.ofList digits ++ zeros (whole.toNat - digits.length) ++ style.wholeMark
  else
    String.ofList (digits.take whole.toNat) ++ "." ++ String.ofList (digits.drop whole.toNat)

/-- One digit, the others after a point if there are any, and the power of ten. -/
def writeScientific (d : Decimal) : String :=
  let digits := Nat.toDigits 10 d.coefficient
  let tail := if digits.length ≤ 1 then "" else "." ++ String.ofList (digits.drop 1)
  String.ofList (digits.take 1) ++ tail ++ "e" ++ toString d.magnitude

/-- The text of a double. NaN carries no sign, zero does. -/
def Style.write (style : Style) (x : Float) : String :=
  if x.isNaN then "NaN"
  else
    let sign := if Binary64.isNegative x then "-" else ""
    let body :=
      if x.isInf then "inf"
      else if Binary64.steps x = 0 then "0" ++ style.wholeMark
      else
        let d := shortest x
        if style.positional d.magnitude then writePositional style d else writeScientific d
    sign ++ body

/-! ## Reading -/

/-- The number written by a run of decimal digits. Other characters count as zero; callers
pass digits only. -/
def ofDigits (digits : List Char) : Nat :=
  digits.foldl (fun n c => 10 * n + (if c.isDigit then c.toNat - '0'.toNat else 0)) 0

/-- The double nearest to a decimal that is not negative; too large a one gives infinity. -/
def toFloat (d : Decimal) : Float :=
  if d.coefficient = 0 then 0.0
  else if 400 < d.magnitude then Float.ofBits 0x7ff0000000000000
  else if d.magnitude < -400 then 0.0
  else Float.ofScientific d.coefficient (d.exponent < 0) d.exponent.natAbs

/-- The double written by digits before and after a decimal point. -/
def ofParts (whole fraction : List Char) : Decimal :=
  ⟨ofDigits (whole ++ fraction), -(fraction.length : Int)⟩

end Tabletop.Decimal
