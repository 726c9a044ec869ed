/-
# Blanks and integers in text

Blanks are the characters with the Unicode property White_Space, which trimming removes from both
ends of a text. The separators between the tokens of an expression are a smaller set and are
defined with the tokens.

An integer is a run of decimal digits, read under a limit. The digits are taken from left to right,
and the first complaint wins: a character that is no digit is reported before the overflow it would
have caused, but after an overflow caused by a character before it.
-/

namespace Tabletop.Text

/-! ## Blanks -/

/-- The Unicode property White_Space. -/
def isBlank (c : Char) : Bool :=
  let code := c.toNat
  (0x09 ≤ code && code ≤ 0x0d) || code == 0x20 || code == 0x85 || code == 0xa0 ||
    code == 0x1680 || (0x2000 ≤ code && code ≤ 0x200a) || code == 0x2028 || code == 0x2029 ||
    code == 0x202f || code == 0x205f || code == 0x3000

def trimStart (cs : List Char) : List Char :=
  cs.dropWhile isBlank

def trimEnd (cs : List Char) : List Char :=
  (cs.reverse.dropWhile isBlank).reverse

/-- The text without the blanks at its two ends. Blanks inside it stay. -/
def trim (cs : List Char) : List Char :=
  trimEnd (trimStart cs)

/-! ## Integers -/

/-- Why a text is not an integer of the wanted range. -/
inductive IntegerError
  | empty
  | invalidDigit
  | tooLarge
  | tooSmall
  deriving DecidableEq, Repr

def IntegerError.message : IntegerError → String
  | .empty => "cannot parse integer from empty string"
  | .invalidDigit => "invalid digit found in string"
  | .tooLarge => "number too large to fit in target type"
  | .tooSmall => "number too small to fit in target type"

/-- The value of a decimal digit. Only ASCII digits count. -/
def digit? (c : Char) : Option Nat :=
  if '0' ≤ c ∧ c ≤ '9' then some (c.toNat - '0'.toNat) else none

/-- Append the digits of a text to the number `value`, failing with `overflow` as soon as the
result is above `limit`. -/
def readDigits (limit : Nat) (overflow : IntegerError) (value : Nat) :
    List Char → Except IntegerError Nat
  | [] => .ok value
  | c :: cs =>
      match digit? c with
      | none => .error .invalidDigit
      | some d =>
          if limit < 10 * value + d then .error overflow
          else readDigits limit overflow (10 * value + d) cs

/-- At least one digit, where a text without any came after a sign. -/
def readSigned (limit : Nat) (overflow : IntegerError) (digits : List Char) :
    Except IntegerError Nat :=
  if digits.isEmpty then .error .invalidDigit else readDigits limit overflow 0 digits

/-- A number from zero to `limit`, with an optional plus sign. -/
def readNatural (limit : Nat) : List Char → Except IntegerError Nat
  | [] => .error .empty
  | '+' :: digits => readSigned limit .tooLarge digits
  | digits => readDigits limit .tooLarge 0 digits

/-- A 64-bit integer with an optional sign. -/
def readInt64 : List Char → Except IntegerError Int64
  | '-' :: digits =>
      (readSigned (Nat.pow 2 63) .tooSmall digits).map fun n => Int64.ofInt (-(n : Int))
  | text => (readNatural (Nat.pow 2 63 - 1) text).map fun n => Int64.ofInt n

end Tabletop.Text
