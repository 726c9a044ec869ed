/-
# Running the command

The one place that touches the world: it reads the tables' files, takes a seed from the system when
none is given, and converses line by line.
-/

import Tabletop.CommandLine

namespace Tabletop.Main

/-- The bytes of a file, if it can be read. -/
def contentOf (path : String) : IO (Option ByteArray) := do
  try
    return some (← IO.FS.readBinFile path)
  catch _ =>
    return none

/-- Eight random bytes as a number. -/
def entropy : IO UInt64 := do
  let bytes ← IO.getRandomBytes 8
  return bytes.foldl (fun n byte => n * 256 + byte.toUInt64) 0

/-- Write what is to be said, and see to it that it arrives. -/
def say (t : Console.Transcript) : IO Unit := do
  (← IO.getStderr).putStr t.err
  let out ← IO.getStdout
  out.putStr t.out
  out.flush

/-- Answer line after line until one is blank or the input ends. -/
partial def converse (catalog : Catalog) (c : Calculator Tape) : IO Unit := do
  say ⟨Console.prompt, ""⟩
  match Console.turn catalog c (← (← IO.getStdin).getLine) with
  | none => return
  | some (said, c) =>
      say said
      converse catalog c

/-- Run the command and return its exit code. -/
def run (args : List String) : IO UInt32 := do
  let files ← (CommandLine.paths args).mapM fun path => do
    return (path, ← contentOf path)
  match CommandLine.start args fun path => (files.lookup path).join with
  | .over exit =>
      say exit.written
      return exit.code.toUInt32
  | .session catalog options =>
      converse catalog (CommandLine.calculator options (← entropy))
      return 0

end Tabletop.Main

def main (args : List String) : IO UInt32 :=
  Tabletop.Main.run args
