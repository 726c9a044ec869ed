/-
# Splitting input into tokens

At every position the longest token wins, and a fixed word wins over a name of the same length.
So a name swallows all letters that follow it, a number takes a `d` or a point only when a digit
comes after it, and `fuzz(`, `bell[`, `bell{` and `u(` need their whole word directly before the
bracket. A character that begins no token becomes a token of unknown kind by itself.
-/

import Tabletop.Token

namespace Tabletop.Token

/-- What may stand between tokens: space, tab, line feed and carriage return. -/
def isSeparator (c : Char) : Bool :=
  c == ' ' || c == '\t' || c == '\n' || c == '\r'

def isDigit (c : Char) : Bool :=
  '0' ≤ c && c ≤ '9'

/-- A character of names and fixed words. -/
def isLetter (c : Char) : Bool :=
  ('a' ≤ c && c ≤ 'z') || ('A' ≤ c && c ≤ 'Z') || c == '_'

/-- The length of the run of characters of one class at the beginning of a text. -/
def run (p : Char → Bool) (cs : List Char) : Nat :=
  (cs.takeWhile p).length

/-- The kind of a token that begins with a digit, and how many characters after that digit
belong to it. -/
def number (cs : List Char) : TokenKind × Nat :=
  let whole := run isDigit cs
  match cs.drop whole with
  | 'd' :: rest =>
      let sides := run isDigit rest
      if sides = 0 then (.integer, whole) else (.dice, whole + 1 + sides)
  | '.' :: rest =>
      let fraction := run isDigit rest
      if fraction = 0 then (.integer, whole) else (.float, whole + 1 + fraction)
  | _ => (.integer, whole)

/-- The kind of a word that is not continued by a bracket. -/
def wordKind (name : String) : TokenKind :=
  if name = "in" then .inWord
  else if name = "let" then .letWord
  else if name = "set" then .setWord
  else .variable

/-- The kind of a token that begins with the letter `c`, and how many characters after it
belong to the token. -/
def word (c : Char) (cs : List Char) : TokenKind × Nat :=
  let length := run isLetter cs
  let name := String.ofList (c :: cs.take length)
  match (cs.drop length).head? with
  | some '(' =>
      if name = "fuzz" then (.fuzz, length + 1)
      else if name = "u" then (.unit, length + 1)
      else (wordKind name, length)
  | some '[' => if name = "bell" then (.bellInt, length + 1) else (wordKind name, length)
  | some '\x7b' => if name = "bell" then (.bellFloat, length + 1) else (wordKind name, length)
  | _ => (wordKind name, length)

/-- The kind of a token of one character that is neither digit nor letter. -/
def markKind : Char → TokenKind
  | '(' => .leftParen
  | ')' => .rightParen
  | '[' => .leftBracket
  | ']' => .rightBracket
  | '\x7b' => .leftBrace
  | '\x7d' => .rightBrace
  | ',' => .comma
  | '=' => .equal
  | '+' => .plus
  | '-' => .minus
  | '*' => .star
  | '/' => .slash
  | _ => .unknown

/-- The kind of the longest token that begins with `c`, and how many of the characters after `c`
belong to it. -/
def longest (c : Char) (cs : List Char) : TokenKind × Nat :=
  if isDigit c then number cs
  else if isLetter c then word c cs
  else (markKind c, 0)

/-- The tokens of a text whose first character stands at byte `position`; `spaced` says what
stands before it. -/
def scanFrom (position : Nat) (spaced : Bool) : List Char → List Token
  | [] => []
  | c :: cs =>
      if isSeparator c then scanFrom (position + c.utf8Size) true cs
      else
        let (kind, more) := longest c cs
        let text := String.ofList (c :: cs.take more)
        { kind, text, spaced, start := position } ::
          scanFrom (position + text.utf8ByteSize) false (cs.drop more)
termination_by cs => cs.length
decreasing_by
  · simp
  · simp only [List.length_cons, List.length_drop]
    omega

/-- The tokens of an input, in order. -/
def scan (input : String) : List Token :=
  scanFrom 0 true input.toList

end Tabletop.Token
