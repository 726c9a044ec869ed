/-
# Literals and refusals

What a single token can be read as, and the complaint about one that is refused. A number literal
is refused for its digits, too: a sign must touch them, and an integer must have 64 bits.
-/

import Tabletop.Decimal.Text
import Tabletop.Number
import Tabletop.Statement.SyntaxError
import Tabletop.Text

namespace Tabletop.Reading

/-- A refusal together with the piece of input that it refuses, up to the end of the token. -/
structure Complaint where
  refusal : Refusal
  slice : String
  deriving DecidableEq, Repr

def expectedTokens (kinds : List TokenKind) : List Expected :=
  kinds.map .token

/-- The token `t` stands where only something else is accepted. -/
def refuse {α : Type} (t : Token) (expected : List Expected) : Except Complaint α :=
  .error
    { refusal :=
        if t.kind = .unknown then .noToken expected
        else .wrongToken t.kind expected
      slice := t.text }

/-- A refused piece ends where the token ends that completed it. -/
def Complaint.locate (c : Complaint) (stop : Nat) : SyntaxError :=
  { refusal := c.refusal, start := stop - c.slice.utf8ByteSize, stop, slice := c.slice }

def numberKinds : List TokenKind :=
  [.float, .integer]

/-- The text of a number literal with its sign. The sign must touch the digits. -/
def literalText (kinds : List TokenKind) (signed : Bool) (t : Token) : Except Complaint String :=
  if !kinds.contains t.kind then refuse t (expectedTokens kinds)
  else if signed && t.spaced then .error ⟨.signApart, t.text⟩
  else .ok (if signed then "-" ++ t.text else t.text)

/-- The double written as digits around a point, with an optional minus sign. -/
def readFloat : List Char → Float
  | '-' :: text => -(readFloat text)
  | text =>
      (Decimal.ofParts (text.takeWhile (· ≠ '.')) ((text.dropWhile (· ≠ '.')).drop 1)).toFloat

/-- The number that a literal stands for. Only integers can be out of range. -/
def literalValue (kind : TokenKind) (text : String) : Except Complaint Number :=
  if kind = .float then .ok (.float (readFloat text.toList))
  else
    match Text.readInt64 text.toList with
    | .ok n => .ok (.int n)
    | .error _ => .error ⟨.outOfRange, text⟩

def literal (kinds : List TokenKind) (signed : Bool) (t : Token) : Except Complaint Number := do
  literalValue t.kind (← literalText kinds signed t)

/-- The kinds of token that begin a term, in the order in which messages list them. -/
def termKinds : List TokenKind :=
  [.dice, .leftBracket, .leftBrace, .bellInt, .bellFloat, .fuzz, .leftParen, .letWord, .variable,
    .minus, .float, .integer]

/-- The random terms that are written with two bounds. -/
inductive RangeKind
  | uniformInt | uniformFloat | bellInt | bellFloat
  deriving DecidableEq, Repr

namespace RangeKind

/-- The kinds of number that may stand as a bound. -/
def bounds : RangeKind → List TokenKind
  | .uniformInt | .bellInt => [.integer]
  | .uniformFloat => [.float, .integer]
  | .bellFloat => [.float]

def close : RangeKind → TokenKind
  | .uniformInt | .bellInt => .rightBracket
  | .uniformFloat | .bellFloat => .rightBrace

end RangeKind

/-- What may follow a complete expression that nothing encloses. -/
def afterExpression : List Expected :=
  [.token .plus, .token .minus, .token .star, .token .slash, .endOfInput]

end Tabletop.Reading
