/-
# Syntax errors

A syntax error names the piece of input that was refused. The piece is always the end of what
had been read: a token, a number together with its sign, or nothing at all when more input was
needed.
-/

import Tabletop.Token
import Tabletop.Text.Quoted

namespace Tabletop

/-- Something that would have been accepted in place of the refused token. -/
inductive Expected
  | token (kind : TokenKind)
  | endOfInput
  deriving DecidableEq, Repr

def Expected.render : Expected → String
  | .token kind => kind.render
  | .endOfInput => "end of input"

/-- Why a piece of input was refused. -/
inductive Refusal
  | wrongToken (found : TokenKind) (expected : List Expected)
  | inputEnded (expected : List Expected)
  /-- The text begins no token at all. -/
  | noToken (expected : List Expected)
  | boundsTouch
  | signApart
  | outOfRange
  deriving DecidableEq, Repr

structure SyntaxError where
  refusal : Refusal
  /-- The byte positions of the refused piece. -/
  start : Nat
  stop : Nat
  slice : String
  deriving DecidableEq, Repr

/-- Alternatives in a sentence: `a`, `a or b`, `a, b, or c`. -/
def joinAlternatives : List String → String
  | [] => ""
  | [a] => a
  | [a, b] => a ++ " or " ++ b
  | alternatives =>
      let last := alternatives.getLast?.getD ""
      String.join (alternatives.dropLast.map (· ++ ", ")) ++ "or " ++ last

def renderExpected (expected : List Expected) : String :=
  joinAlternatives (expected.map Expected.render)

def Refusal.message : Refusal → String
  | .wrongToken found expected =>
      "unexpected token: found " ++ found.render ++ ", expected " ++ renderExpected expected
  | .inputEnded expected => "unexpected end of input, expected " ++ renderExpected expected
  | .noToken expected => "expected " ++ renderExpected expected
  | .boundsTouch => "range bounds must be separated by a space"
  | .signApart => "a minus sign must be attached to its number"
  | .outOfRange => "number literal out of range"

def SyntaxError.message (e : SyntaxError) : String :=
  "syntax error at position " ++ toString e.start ++ " (" ++ Text.quote e.slice ++ "): " ++
    e.refusal.message

end Tabletop
