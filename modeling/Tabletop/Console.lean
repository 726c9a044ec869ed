/-
# Talking to the calculator

A session prints a prompt, reads a line and answers it, over and over. A line that begins with
`roll ` names a table by its path, any other line is calculator input. Answers and prompts go to
one stream, complaints to the other. A blank line, or the end of the input, ends the session.
-/

import Tabletop.Catalog
import Tabletop.Text

namespace Tabletop.Console

def prompt : String := "> "

/-- What a session has written to its two streams. -/
structure Transcript where
  out : String
  err : String
  deriving DecidableEq, Repr

/-- The beginning of a line that rolls on a table. -/
def rollWord : String := "roll "

/-- A line without the blanks around it. -/
def trimLine (line : String) : String :=
  String.ofList (Text.trim line.toList)

/-- What is written about an error. -/
def complaint (e : Error) : String :=
  "Error: " ++ e.message ++ "\n"

variable {σ : Type} [RandomSource σ]

/-- The text of the answer to a trimmed line. -/
def answer (catalog : Catalog) (line : String) : Calculation σ String := do
  if rollWord.toList.isPrefixOf line.toList then
    let path := Text.trim (line.toList.drop rollWord.length)
    let result ← catalog.resolve (String.ofList path) 0
    return result.render
  else
    let value ← Calculator.calculate line
    return value.render

/-- Answer one trimmed line: the lines that are written, and the calculator afterwards. -/
def reply (catalog : Catalog) (c : Calculator σ) (line : String) :
    Transcript × Calculator σ :=
  match answer catalog line c with
  | .ok text c => (⟨text ++ "\n", ""⟩, c)
  | .error (.failed cause) c => (⟨"", complaint cause⟩, c)
  | .error .unfinished c => (⟨"", "Error: no answer within the allowed number of steps\n"⟩, c)

/-- Answer a line of input: what is written, and the calculator afterwards. A blank line is not
answered. -/
def turn (catalog : Catalog) (c : Calculator σ) (line : String) :
    Option (Transcript × Calculator σ) :=
  let line := trimLine line
  if line.isEmpty then none else some (reply catalog c line)

/-- A whole session over the given lines of input. -/
def session (catalog : Catalog) : Calculator σ → List String → Transcript
  | _, [] => ⟨prompt, ""⟩
  | c, line :: lines =>
      match turn catalog c line with
      | none => ⟨prompt, ""⟩
      | some (said, c) =>
          let rest := session catalog c lines
          ⟨prompt ++ said.out ++ rest.out, said.err ++ rest.err⟩

/-- The lines of a text. A line break ends a line, so a text that ends with one has no further,
empty line. -/
def splitLines : List Char → List (List Char)
  | [] => []
  | c :: cs =>
      if c = '\n' then [] :: splitLines cs
      else
        match splitLines cs with
        | line :: lines => (c :: line) :: lines
        | [] => [[c]]

/-- The lines of a whole input. -/
def linesOf (input : String) : List String :=
  (splitLines input.toList).map String.ofList

end Tabletop.Console
