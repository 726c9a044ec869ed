/-
# Text values in TOML

Text stands between single or double quotes, on one line or, between three quotes, on several.
Double quotes allow escapes. A line break inside text is one line feed, however it was written, and
one directly after three opening quotes is dropped. The faults are those of all of a document.
-/

namespace Tabletop.Toml

/-! ## Faults of a document -/

/-- Why a text is not a TOML document. -/
inductive Fault
  /-- The grammar allows nothing like the text from here on. -/
  | unexpected (rest : String)
  | duplicateKey (key : String)
  /-- The key already stands for something that is no table, or for one that may not be extended
  here. -/
  | notExtendable (key : String)
  /-- The text is to name a date and does not. -/
  | invalidDate (text : String)
  /-- The key is to stand for a date and for nothing else. -/
  | reservedKey (key : String)
  /-- More levels of nesting than are supported. -/
  | tooDeep
  deriving DecidableEq, Repr

def Fault.message : Fault → String
  | .unexpected rest =>
      if rest.isEmpty then "unexpected end of document" else "unexpected text: " ++ rest
  | .duplicateKey key => "duplicate key: " ++ key
  | .notExtendable key => "key cannot be extended: " ++ key
  | .invalidDate text => "invalid date or time: " ++ text
  | .reservedKey key => "key is reserved for a date: " ++ key
  | .tooDeep => "too many levels of nesting"

/-! ## Text -/

/-- A text read from the beginning of some input, and the rest of the input. -/
abbrev TextResult : Type :=
  Except Fault (List Char × List Char)

def unexpected {α : Type} (rest : List Char) : Except Fault α :=
  .error (.unexpected (String.ofList (rest.take 20)))

def isSpace (c : Char) : Bool :=
  c == ' ' || c == '\t'

/-- A character that may stand unescaped in text and in comments. Of the control characters only
the tab is one. -/
def isPlain (c : Char) : Bool :=
  c == '\t' || (0x20 ≤ c.toNat && c.toNat != 0x7f)

/-- Put characters before the text that was read. -/
def prepend (cs : List Char) (result : TextResult) : TextResult :=
  result.map fun (text, rest) => (cs ++ text, rest)

/-- The character of an escape that is one letter. -/
def simpleEscape? : Char → Option Char
  | 'b' => some '\x08'
  | 'f' => some '\x0c'
  | 'n' => some '\n'
  | 'r' => some '\r'
  | 't' => some '\t'
  | '"' => some '"'
  | '\\' => some '\\'
  | _ => none

def hexDigit? (c : Char) : Option Nat :=
  if '0' ≤ c ∧ c ≤ '9' then some (c.toNat - '0'.toNat)
  else if 'a' ≤ c ∧ c ≤ 'f' then some (c.toNat - 'a'.toNat + 10)
  else if 'A' ≤ c ∧ c ≤ 'F' then some (c.toNat - 'A'.toNat + 10)
  else none

/-- The character whose code point is written in hexadecimal digits. -/
def charOfHex? (digits : List Char) : Option Char := do
  let values ← digits.mapM hexDigit?
  let code := values.foldl (fun n d => 16 * n + d) 0
  if h : code.isValidChar then return Char.ofNatAux code h else none

/-- Text up to the next single quote, without escapes. -/
def literalLine : List Char → TextResult
  | '\'' :: rest => .ok ([], rest)
  | c :: rest => if isPlain c then prepend [c] (literalLine rest) else unexpected (c :: rest)
  | [] => unexpected []

/-- Text up to the next double quote, with escapes. -/
def escapedLine : List Char → TextResult
  | '"' :: rest => .ok ([], rest)
  | '\\' :: 'u' :: a :: b :: c :: d :: rest =>
      match charOfHex? [a, b, c, d] with
      | some char => prepend [char] (escapedLine rest)
      | none => unexpected (a :: b :: c :: d :: rest)
  | '\\' :: 'U' :: a :: b :: c :: d :: e :: f :: g :: h :: rest =>
      match charOfHex? [a, b, c, d, e, f, g, h] with
      | some char => prepend [char] (escapedLine rest)
      | none => unexpected (a :: b :: c :: d :: rest)
  | '\\' :: c :: rest =>
      match simpleEscape? c with
      | some char => prepend [char] (escapedLine rest)
      | none => unexpected (c :: rest)
  | c :: rest =>
      if isPlain c && c != '\\' then prepend [c] (escapedLine rest) else unexpected (c :: rest)
  | [] => unexpected []

/-- Text up to three single quotes. Up to two more belong to the text. -/
def literalLines : List Char → TextResult
  | '\'' :: '\'' :: '\'' :: '\'' :: '\'' :: rest => .ok (['\'', '\''], rest)
  | '\'' :: '\'' :: '\'' :: '\'' :: rest => .ok (['\''], rest)
  | '\'' :: '\'' :: '\'' :: rest => .ok ([], rest)
  | '\r' :: '\n' :: rest => prepend ['\n'] (literalLines rest)
  | c :: rest =>
      if isPlain c || c == '\n' then prepend [c] (literalLines rest) else unexpected (c :: rest)
  | [] => unexpected []

/-- After a backslash: nothing but spaces up to the end of the line. -/
def endsLine (cs : List Char) : Bool :=
  match cs.dropWhile isSpace with
  | '\n' :: _ => true
  | '\r' :: '\n' :: _ => true
  | _ => false

/-- Text up to three double quotes, with escapes. Up to two more quotes belong to the text. A
backslash at the end of a line drops all blanks up to the next text, and `dropping` says that this
is going on. -/
def escapedLines (dropping : Bool) : List Char → TextResult
  | '"' :: '"' :: '"' :: '"' :: '"' :: rest => .ok (['"', '"'], rest)
  | '"' :: '"' :: '"' :: '"' :: rest => .ok (['"'], rest)
  | '"' :: '"' :: '"' :: rest => .ok ([], rest)
  | '\r' :: '\n' :: rest =>
      prepend (if dropping then [] else ['\n']) (escapedLines dropping rest)
  | '\\' :: 'u' :: a :: b :: c :: d :: rest =>
      match charOfHex? [a, b, c, d] with
      | some char => prepend [char] (escapedLines false rest)
      | none => unexpected (a :: b :: c :: d :: rest)
  | '\\' :: 'U' :: a :: b :: c :: d :: e :: f :: g :: h :: rest =>
      match charOfHex? [a, b, c, d, e, f, g, h] with
      | some char => prepend [char] (escapedLines false rest)
      | none => unexpected (a :: b :: c :: d :: rest)
  | '\\' :: c :: rest =>
      match simpleEscape? c with
      | some char => prepend [char] (escapedLines false rest)
      | none =>
          if endsLine (c :: rest) then escapedLines true (c :: rest) else unexpected (c :: rest)
  | c :: rest =>
      if dropping && (isSpace c || c == '\n') then escapedLines true rest
      else if (isPlain c && c != '\\') || c == '\n' then prepend [c] (escapedLines false rest)
      else unexpected (c :: rest)
  | [] => unexpected []

/-- Drop a line break directly after the opening quotes. -/
def dropFirstBreak : List Char → List Char
  | '\n' :: rest => rest
  | '\r' :: '\n' :: rest => rest
  | rest => rest

/-- A text value whose first character is a quote. -/
def readText : List Char → TextResult
  | '"' :: '"' :: '"' :: rest => escapedLines false (dropFirstBreak rest)
  | '\'' :: '\'' :: '\'' :: rest => literalLines (dropFirstBreak rest)
  | '"' :: rest => escapedLine rest
  | '\'' :: rest => literalLine rest
  | rest => unexpected rest

end Tabletop.Toml
