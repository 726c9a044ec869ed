/-
# Values, numbers, dates and words in TOML

A table lists its keys in ascending order, whatever their order in the text. What a date says is
not kept, only that it is one.

All values that are neither text nor brackets are runs of letters, digits and a few marks. A run
is matched as a whole against the forms that exist. Digits may be grouped by single underscores,
and a decimal number has no leading zeros.
-/

import Tabletop.Decimal.Text
import Tabletop.Dictionary
import Tabletop.Text
import Tabletop.Toml.Text

namespace Tabletop.Toml

/-! ## Values -/

inductive Value
  | text (s : String)
  | integer (n : Int64)
  | float (x : Float)
  | boolean (b : Bool)
  | date
  | array (items : List Value)
  | table (entries : List (String × Value))
  deriving Repr

/-- The entries of a table. A document is one. -/
abbrev Entries : Type :=
  Dictionary Value

/-! ## Scalars -/

def isDigit (c : Char) : Bool :=
  '0' ≤ c && c ≤ '9'

/-- A character that numbers, dates and words consist of. -/
def isScalarChar (c : Char) : Bool :=
  isDigit c || ('a' ≤ c && c ≤ 'z') || ('A' ≤ c && c ≤ 'Z') ||
    c == '_' || c == '+' || c == '-' || c == '.' || c == ':'

/-- Digits of one class with single underscores between them. -/
def grouped (isMember : Char → Bool) : List Char → Bool
  | [] => false
  | [c] => isMember c
  | c :: '_' :: rest => isMember c && grouped isMember rest
  | c :: rest => isMember c && grouped isMember rest

def ungroup (cs : List Char) : List Char :=
  cs.filter (· ≠ '_')

/-- A whole number in decimal digits: zero, or a number that does not begin with it. -/
def isWhole (cs : List Char) : Bool :=
  cs == ['0'] || (grouped isDigit cs && cs.head? != some '0')

/-- The value of a digit in a base up to sixteen. -/
def digitIn? (base : Nat) (c : Char) : Option Nat :=
  let value :=
    if isDigit c then c.toNat - '0'.toNat
    else if 'a' ≤ c ∧ c ≤ 'f' then c.toNat - 'a'.toNat + 10
    else if 'A' ≤ c ∧ c ≤ 'F' then c.toNat - 'A'.toNat + 10
    else base
  if value < base then some value else none

/-- A number in digits of a base, if it is in the range of integers. -/
def readBased (base : Nat) (cs : List Char) : Option Int64 :=
  if grouped (fun c => (digitIn? base c).isSome) cs then
    let n := (ungroup cs).foldl (fun n c => base * n + (digitIn? base c).getD 0) 0
    if n < Nat.pow 2 63 then some (Int64.ofNat n) else none
  else none

/-- An optional sign, and what follows it. -/
def splitSign : List Char → Bool × List Char
  | '-' :: rest => (true, rest)
  | '+' :: rest => (false, rest)
  | rest => (false, rest)

def readInteger (cs : List Char) : Option Int64 :=
  match cs with
  | '0' :: 'x' :: digits => readBased 16 digits
  | '0' :: 'o' :: digits => readBased 8 digits
  | '0' :: 'b' :: digits => readBased 2 digits
  | _ =>
      if isWhole (splitSign cs).2 then (Text.readInt64 (ungroup cs)).toOption else none

/-- The digits of an exponent with their sign. -/
def readExponent (cs : List Char) : Option Int :=
  let (negative, digits) := splitSign cs
  if grouped isDigit digits then
    let n : Int := Decimal.ofDigits (ungroup digits)
    some (if negative then -n else n)
  else none

/-- What follows the whole part of a float: a fraction, an exponent, or both, as the digits of
the fraction and the power of ten. -/
def readTail : List Char → Option (List Char × Int)
  | '.' :: rest =>
      let fraction := rest.takeWhile fun c => isDigit c || c == '_'
      if !grouped isDigit fraction then none
      else
        match rest.drop fraction.length with
        | [] => some (ungroup fraction, 0)
        | 'e' :: exponent | 'E' :: exponent =>
            (readExponent exponent).map fun e => (ungroup fraction, e)
        | _ => none
  | 'e' :: exponent | 'E' :: exponent => (readExponent exponent).map fun e => ([], e)
  | _ => none

/-- A float. A number too large for a double is refused unless it is negative. -/
def readFloat (cs : List Char) : Option Float :=
  let (negative, body) := splitSign cs
  if body == ['i', 'n', 'f'] then
    some (Float.ofBits (if negative then 0xfff0000000000000 else 0x7ff0000000000000))
  else if body == ['n', 'a', 'n'] then some (0.0 / 0.0)
  else
    let whole := body.takeWhile fun c => isDigit c || c == '_'
    if !isWhole whole then none
    else
      match readTail (body.drop whole.length) with
      | none => none
      | some (fraction, exponent) =>
          let coefficient := Decimal.ofDigits (ungroup whole ++ fraction)
          let x := Decimal.toFloat ⟨coefficient, exponent - fraction.length⟩
          if negative then some (-x) else if x.isInf then none else some x

/-- The number of two digits, if both are there and it lies between two bounds. -/
def twoDigits? (lo hi : Nat) : List Char → Option (Nat × List Char)
  | a :: b :: rest =>
      if isDigit a && isDigit b then
        let n := Decimal.ofDigits [a, b]
        if lo ≤ n ∧ n ≤ hi then some (n, rest) else none
      else none
  | _ => none

def after? (mark : Char) : List Char → Option (List Char)
  | c :: rest => if c = mark then some rest else none
  | [] => none

def daysIn (year month : Nat) : Nat :=
  if month = 2 then
    if year % 4 = 0 ∧ (year % 100 ≠ 0 ∨ year % 400 = 0) then 29 else 28
  else if month = 4 ∨ month = 6 ∨ month = 9 ∨ month = 11 then 30
  else 31

/-- The text after a leading `YYYY-MM-DD` of a day that exists. -/
def afterDay? (cs : List Char) : Option (List Char) := do
  let digits := cs.take 4
  guard (digits.length = 4 && digits.all isDigit)
  let rest ← after? '-' (cs.drop 4)
  let (month, rest) ← twoDigits? 1 12 rest
  let rest ← after? '-' rest
  let (_, rest) ← twoDigits? 1 (daysIn (Decimal.ofDigits digits) month) rest
  return rest

/-- The text after a leading `HH:MM:SS`, with an optional fraction. -/
def afterTime? (cs : List Char) : Option (List Char) := do
  let (_, rest) ← twoDigits? 0 23 cs
  let rest ← after? ':' rest
  let (_, rest) ← twoDigits? 0 59 rest
  let rest ← after? ':' rest
  let (_, rest) ← twoDigits? 0 60 rest
  match rest with
  | '.' :: rest =>
      guard (rest.head?.any isDigit)
      return rest.dropWhile isDigit
  | rest => return rest

/-- Nothing, `Z`, or a signed `HH:MM`. -/
def isOffset (cs : List Char) : Bool :=
  match cs with
  | [] | ['Z'] | ['z'] => true
  | sign :: rest =>
      (sign == '+' || sign == '-') &&
        (do
          let (_, rest) ← twoDigits? 0 23 rest
          let rest ← after? ':' rest
          let (_, rest) ← twoDigits? 0 59 rest
          return rest.isEmpty).getD false

/-- A day, a day with a time, or a time. -/
def isDate (cs : List Char) : Bool :=
  match afterDay? cs with
  | some [] => true
  | some (mark :: rest) =>
      (mark == 'T' || mark == 't' || mark == ' ') &&
        ((afterTime? rest).map isOffset).getD false
  | none => afterTime? cs == some []

/-- The value that a run of characters stands for. -/
def readScalar (cs : List Char) : Except Fault Value :=
  if cs == ['t', 'r', 'u', 'e'] then .ok (.boolean true)
  else if cs == ['f', 'a', 'l', 's', 'e'] then .ok (.boolean false)
  else if isDate cs then .ok .date
  else
    match readFloat cs, readInteger cs with
    | some x, _ => .ok (.float x)
    | _, some n => .ok (.integer n)
    | none, none => .error (.unexpected (String.ofList cs))

/-- Cut off the run of a scalar at the beginning of a text. A day may be parted from its time by
one space. -/
def splitScalar (cs : List Char) : List Char × List Char :=
  let run := cs.takeWhile isScalarChar
  let rest := cs.drop run.length
  match rest with
  | ' ' :: a :: b :: ':' :: time =>
      if afterDay? run == some [] && isDigit a && isDigit b then
        let more := time.takeWhile isScalarChar
        (run ++ [' ', a, b, ':'] ++ more, time.drop more.length)
      else (run, rest)
  | _ => (run, rest)

end Tabletop.Toml
