/-
# Reading TOML documents

A document is a sequence of comments, headers and entries, one to a line. Arrays may span lines,
tables in braces may not. Nesting in brackets, and dotted keys, reach a depth of eighty at most.
-/

import Tabletop.Toml.Meaning
import Tabletop.Toml.Text

namespace Tabletop.Toml

/-- How deep brackets may be nested and how many parts a key may have, this bound excluded. -/
def depthLimit : Nat := 80

/-- Something read from the beginning of some input, and the rest of the input. -/
abbrev Parsed (α : Type) : Type :=
  α × List Char

def dropSpace (cs : List Char) : List Char :=
  cs.dropWhile isSpace

/-- What follows a leading line break. -/
def afterBreak? : List Char → Option (List Char)
  | '\n' :: rest => some rest
  | '\r' :: '\n' :: rest => some rest
  | _ => none

/-- What follows a comment, or the text itself if none begins it. -/
def dropComment : List Char → List Char
  | '#' :: rest => rest.dropWhile isPlain
  | rest => rest

/-- The end of a line: spaces, a comment, and a line break or the end of the document. -/
def endLine (cs : List Char) : Except Fault (List Char) :=
  match dropComment (dropSpace cs) with
  | [] => .ok []
  | rest =>
      match afterBreak? rest with
      | some rest => .ok rest
      | none => unexpected rest

/-- Drop spaces, line breaks, and comments that end with a line break. -/
def dropBlankLines : (fuel : Nat) → List Char → Except Fault (List Char)
  | 0, cs => unexpected cs
  | fuel + 1, cs =>
      match dropSpace cs with
      | '#' :: rest =>
          match afterBreak? (rest.dropWhile isPlain) with
          | some rest => dropBlankLines fuel rest
          | none => unexpected rest
      | '\r' :: rest =>
          match afterBreak? ('\r' :: rest) with
          | some rest => dropBlankLines fuel rest
          | none => unexpected ('\r' :: rest)
      | '\n' :: rest => dropBlankLines fuel rest
      | rest => .ok rest

def isBareKeyChar (c : Char) : Bool :=
  isDigit c || ('a' ≤ c && c ≤ 'z') || ('A' ≤ c && c ≤ 'Z') || c == '_' || c == '-'

/-- One part of a key, bare or in quotes on one line. -/
def readKeyPart (cs : List Char) : Except Fault (Parsed String) :=
  match cs with
  | '"' :: rest => (escapedLine rest).map fun (key, rest) => (String.ofList key, rest)
  | '\'' :: rest => (literalLine rest).map fun (key, rest) => (String.ofList key, rest)
  | _ =>
      let key := cs.takeWhile isBareKeyChar
      if key.isEmpty then unexpected cs else .ok (String.ofList key, cs.drop key.length)

/-- The parts of a key, with spaces around them and points between them. -/
def readKeyParts : (fuel : Nat) → List Char → Except Fault (Parsed (List String))
  | 0, cs => unexpected cs
  | fuel + 1, cs => do
      let (part, rest) ← readKeyPart (dropSpace cs)
      match dropSpace rest with
      | '.' :: rest => do
          let (parts, rest) ← readKeyParts fuel rest
          return (part :: parts, rest)
      | rest => return ([part], rest)

/-- A key with its last part apart from the path to it. -/
def readKey (cs : List Char) : Except Fault (Parsed (List String × String)) := do
  let (parts, rest) ← readKeyParts (cs.length + 1) cs
  if depthLimit ≤ parts.length then .error .tooDeep
  else
    match parts.getLast? with
    | some key => return ((parts.dropLast, key), rest)
    | none => unexpected cs

mutual

/-- A value at a depth of brackets. Every call spends fuel, and a text has enough of it when it
has as much as there are characters. -/
def readValue : (fuel depth : Nat) → List Char → Except Fault (Parsed Node)
  | 0, _, cs => unexpected cs
  | fuel + 1, depth, cs =>
      match cs with
      | '"' :: _ | '\'' :: _ => do
          let (text, rest) ← readText cs
          return (.scalar (.text (String.ofList text)), rest)
      | '[' :: rest => do
          if depthLimit ≤ depth + 1 then .error .tooDeep
          else
            let (items, rest) ← readItems fuel (depth + 1) rest
            return (.list items, rest)
      | '\x7b' :: rest => do
          if depthLimit ≤ depth + 1 then .error .tooDeep
          else
            match dropSpace rest with
            | '\x7d' :: rest => return (.table .braces [], rest)
            | rest => do
                let (branch, rest) ← readPairs fuel (depth + 1) [] rest
                return (.table .braces branch, rest)
      | _ => do
          let (run, rest) := splitScalar cs
          let v ← readScalar run
          return (.scalar v, rest)

/-- The items of an array up to its closing bracket. A comma may follow the last one. -/
def readItems : (fuel depth : Nat) → List Char → Except Fault (Parsed (List Node))
  | 0, _, cs => unexpected cs
  | fuel + 1, depth, cs => do
      match ← dropBlankLines (cs.length + 1) cs with
      | ']' :: rest => return ([], rest)
      | cs => do
          let (item, rest) ← readValue fuel depth cs
          match ← dropBlankLines (rest.length + 1) rest with
          | ',' :: rest => do
              let (items, rest) ← readItems fuel depth rest
              return (item :: items, rest)
          | ']' :: rest => return ([item], rest)
          | rest => unexpected rest

/-- The entries of a table in braces up to its closing brace, added to a branch. -/
def readPairs : (fuel depth : Nat) → Branch → List Char → Except Fault (Parsed Branch)
  | 0, _, _, cs => unexpected cs
  | fuel + 1, depth, branch, cs => do
      let ((path, key), rest) ← readKey cs
      match rest with
      | '=' :: rest => do
          let (node, rest) ← readValue fuel depth (dropSpace rest)
          let branch ← Branch.storeDotted key node path branch
          match dropSpace rest with
          | ',' :: rest => readPairs fuel depth branch rest
          | '\x7d' :: rest => return (branch, rest)
          | rest => unexpected rest
      | rest => unexpected rest

end

/-- A document in the making: its root, and the path of the last header. -/
structure Draft where
  root : Branch
  header : List String

/-- A header in single or double brackets. -/
def readHeader (draft : Draft) (cs : List Char) : Except Fault (Parsed Draft) :=
  match cs with
  | '[' :: '[' :: rest => do
      match ← readKey rest with
      | ((path, key), ']' :: ']' :: rest) => do
          let root ← Branch.under (Branch.openItem key) path draft.root
          return (⟨root, path ++ [key]⟩, rest)
      | (_, rest) => unexpected rest
  | '[' :: rest => do
      match ← readKey rest with
      | ((path, key), ']' :: rest) => do
          let root ← Branch.under (Branch.openTable key) path draft.root
          return (⟨root, path ++ [key]⟩, rest)
      | (_, rest) => unexpected rest
  | rest => unexpected rest

/-- An entry of the table that the last header opened. -/
def readEntry (draft : Draft) (cs : List Char) : Except Fault (Parsed Draft) := do
  match ← readKey cs with
  | ((path, key), '=' :: rest) => do
      let (node, rest) ← readValue (2 * rest.length + 2) 0 (dropSpace rest)
      let root ← Branch.under (Branch.storeDotted key node path) draft.header draft.root
      return ({ draft with root }, rest)
  | (_, rest) => unexpected rest

/-- The remaining lines of a document. Every line spends fuel. -/
def readLines : (fuel : Nat) → Draft → List Char → Except Fault Branch
  | 0, _, cs => unexpected cs
  | fuel + 1, draft, cs =>
      match dropSpace cs with
      | [] => .ok draft.root
      | '[' :: rest => do
          let (draft, rest) ← readHeader draft ('[' :: rest)
          readLines fuel draft (← endLine rest)
      | c :: rest =>
          if c == '#' || c == '\n' || c == '\r' then do
            readLines fuel draft (← endLine (c :: rest))
          else do
            let (draft, rest) ← readEntry draft (c :: rest)
            readLines fuel draft (← endLine rest)

/-- Read a document. A leading byte order mark is ignored. -/
def read (text : String) : Except Fault Entries := do
  let cs :=
    match text.toList with
    | '\ufeff' :: rest => rest
    | cs => cs
  let root ← readLines (cs.length + 1) ⟨[], []⟩ cs
  branchEntries root

end Tabletop.Toml
