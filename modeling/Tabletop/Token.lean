/-
# Tokens of the calculator language

A token is a kind together with the text it was read from and the byte position where that text
begins. Whether white space stands directly before a token matters in two places of the
language, so the token records it.
-/

namespace Tabletop

inductive TokenKind
  | inWord | letWord | setWord
  | fuzz | bellFloat | bellInt | unit
  | leftParen | rightParen | leftBracket | rightBracket | leftBrace | rightBrace
  | comma | equal
  | plus | minus | star | slash
  | dice | float | integer | variable
  | unknown
  deriving DecidableEq, Repr

/-- How messages name a kind: fixed tokens in quotes, classes of tokens in angle brackets. -/
def TokenKind.render : TokenKind → String
  | .inWord => "'in'"
  | .letWord => "'let'"
  | .setWord => "'set'"
  | .fuzz => "'fuzz('"
  | .bellFloat => "'bell\x7b'"
  | .bellInt => "'bell['"
  | .unit => "'u('"
  | .leftParen => "'('"
  | .rightParen => "')'"
  | .leftBracket => "'['"
  | .rightBracket => "']'"
  | .leftBrace => "'\x7b'"
  | .rightBrace => "'\x7d'"
  | .comma => "','"
  | .equal => "'='"
  | .plus => "'+'"
  | .minus => "'-'"
  | .star => "'*'"
  | .slash => "'/'"
  | .dice => "<dice>"
  | .float => "<float>"
  | .integer => "<integer>"
  | .variable => "<variable>"
  | .unknown => "<error>"

structure Token where
  kind : TokenKind
  text : String
  /-- White space, or the beginning of the input, stands directly before the token. -/
  spaced : Bool
  /-- The byte position of the first character. -/
  start : Nat
  deriving DecidableEq, Repr

/-- The byte position after the last character. -/
def Token.stop (t : Token) : Nat :=
  t.start + t.text.utf8ByteSize

end Tabletop
