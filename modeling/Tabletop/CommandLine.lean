/-
# The command

Options load tables before the session starts, fix the seed and bound redirections. An option takes
its value from the next argument or after an equals sign; the seed and the bound may be given once,
tables as often as wanted. Arguments are understood from left to right, so a request for help is
granted only if all is well before it. The command exits with two for arguments that it does not
understand, and with one for a table that cannot be loaded.
-/

import Tabletop.Console
import Tabletop.Source.Ziggurat

namespace Tabletop.CommandLine

inductive OptionName
  | tables
  | seed
  | maxRedirects
  deriving DecidableEq, Repr

def OptionName.flag : OptionName → String
  | .tables => "--tables"
  | .seed => "--seed"
  | .maxRedirects => "--max-redirects"

/-- The option that is written like this. -/
def OptionName.ofFlag? (flag : String) : Option OptionName :=
  [OptionName.tables, .seed, .maxRedirects].find? (·.flag == flag)

/-- What the options of a command line ask for. -/
structure Options where
  /-- The names and files of the tables to load, in order. -/
  tables : List (String × String)
  seed : Option UInt64
  maxRedirects : Option Nat
  deriving DecidableEq, Repr

/-- No option is given. -/
def Options.unset : Options where
  tables := []
  seed := none
  maxRedirects := none

inductive Request
  | run (options : Options)
  | help
  deriving DecidableEq, Repr

/-- Why a command line is not understood. -/
inductive UsageError
  | unexpectedArgument (arg : String)
  | missingValue (option : OptionName)
  | repeatedOption (option : OptionName)
  | invalidValue (option : OptionName) (value : String)
  deriving DecidableEq, Repr

def UsageError.message : UsageError → String
  | .unexpectedArgument arg => "unexpected argument '" ++ arg ++ "' found"
  | .missingValue option => "a value is required for '" ++ option.flag ++ "' but none was supplied"
  | .repeatedOption option =>
      "the argument '" ++ option.flag ++ "' cannot be used multiple times"
  | .invalidValue option value => "invalid value '" ++ value ++ "' for '" ++ option.flag ++ "'"

/-- The texts before and after the first equals sign. -/
def splitAtEquals (text : String) : Option (String × String) :=
  match text.toList.dropWhile (· ≠ '=') with
  | [] => none
  | _ :: rest => some (String.ofList (text.toList.takeWhile (· ≠ '=')), String.ofList rest)

/-- A table as an option names it: `NAME=PATH`, where the name is not empty. -/
def readTable (value : String) : Option (String × String) :=
  (splitAtEquals value).filter fun (name, _) => !name.isEmpty

/-- A number of 64 bits. -/
def readWord (value : String) : Option Nat :=
  (Text.readNatural (UInt64.size - 1) value.toList).toOption

/-- Give an option its value. Only tables may be given again. -/
def Options.set (o : Options) (option : OptionName) (value : String) :
    Except UsageError Options := do
  match option with
  | .tables =>
      let table ← required option (readTable value)
      return { o with tables := o.tables ++ [table] }
  | .seed =>
      let seed ← required option (readWord value)
      if o.seed.isSome then throw (.repeatedOption option)
      return { o with seed := some (UInt64.ofNat seed) }
  | .maxRedirects =>
      let limit ← required option (readWord value)
      if o.maxRedirects.isSome then throw (.repeatedOption option)
      return { o with maxRedirects := some limit }
where
  required {α : Type} (option : OptionName) (read : Option α) : Except UsageError α :=
    match read with
    | some a => .ok a
    | none => .error (.invalidValue option value)

/-- What an argument says by itself. -/
inductive Argument
  | help
  | option (name : OptionName) (value : Option String)
  /-- Everything after this is no option. -/
  | endOfOptions
  | unexpected
  deriving DecidableEq, Repr

def Argument.read (arg : String) : Argument :=
  if arg = "--" then .endOfOptions
  else if arg = "--help" ∨ ['-', 'h'].isPrefixOf arg.toList then .help
  else
    let (flag, value) :=
      match splitAtEquals arg with
      | some (flag, value) => (flag, some value)
      | none => (arg, none)
    match OptionName.ofFlag? flag with
    | some name => .option name value
    | none => .unexpected

/-- An argument can be the value of the option before it unless it looks like an option itself. -/
def canBeValue (arg : String) : Bool :=
  match arg.toList with
  | '-' :: _ :: _ => false
  | _ => true

/-- Understand the arguments that are left, `pending` being an option that waits for its value. -/
def parseFrom : Options → (pending : Option OptionName) → List String → Except UsageError Request
  | o, none, [] => .ok (.run o)
  | _, some option, [] => .error (.missingValue option)
  | o, some option, arg :: rest =>
      if canBeValue arg then do parseFrom (← o.set option arg) none rest
      else .error (.missingValue option)
  | o, none, arg :: rest =>
      match Argument.read arg with
      | .help => .ok .help
      | .option name none => parseFrom o (some name) rest
      | .option name (some value) => do parseFrom (← o.set name value) none rest
      | .endOfOptions =>
          match rest with
          | [] => .ok (.run o)
          | extra :: _ => .error (.unexpectedArgument extra)
      | .unexpected => .error (.unexpectedArgument arg)

/-- What the arguments of the command ask for. -/
def parse (args : List String) : Except UsageError Request :=
  parseFrom .unset none args

def usage : String :=
  "Usage: repl [OPTIONS]\n"

def help : String :=
  "Evaluate dice expressions and roll on random tables\n\n" ++ usage ++ "\nOptions:\n" ++
  "      --tables <NAME=PATH>             Table file to load, as NAME=PATH (repeatable)\n" ++
  "      --seed <SEED>                    Seed the random source for a reproducible session\n" ++
  "      --max-redirects <MAX_REDIRECTS>  Give up on a table roll after this many redirections\n" ++
  "  -h, --help                           Print help\n"

/-- What is said about arguments that are not understood. -/
def complaint (e : UsageError) : String :=
  "error: " ++ e.message ++ "\n\n" ++ usage ++ "\nFor more information, try '--help'.\n"

/-- Load tables in order, `content` giving the bytes of a file if there is one. -/
def loadTables (content : String → Option ByteArray) : List (String × String) → Filing Unit
  | [] => pure ()
  | (name, path) :: rest => do
      let _ ← Catalog.loadFile name path (content path)
      loadTables content rest

/-- The catalog with which a session starts. -/
def prepare (o : Options) (content : String → Option ByteArray) : Except Error Catalog :=
  match loadTables content o.tables (.empty o.maxRedirects) with
  | .ok _ catalog => .ok catalog
  | .error e _ => .error e

/-- The calculator with which a session starts. A seed that is not given comes from `entropy`. -/
def calculator (o : Options) (entropy : UInt64) : Calculator Tape :=
  Calculator.new (Tape.ofSeed (o.seed.getD entropy))

/-- What is written about a table that cannot be loaded: the error by its kind and its data, not in
the wording that a session has for it. Errors of other kinds do not come up there. For a file or a
document that cannot be read the text inside the quotes is this library's own. -/
def failure (e : Error) : String :=
  "Error: " ++ shown ++ "\n"
where
  shown : String :=
    match e with
    | .wrongShape .. => "Type(" ++ Text.quote e.message ++ ")"
    | .emptyRange .. => "Range(" ++ Text.quote e.message ++ ")"
    | .document origin cause =>
        "Config \x7b origin: " ++ Text.quote origin ++ ", message: " ++
          Text.quote cause.message ++ " \x7d"
    | _ => e.message

/-- What a run of the command leaves: its exit code and all that it wrote. -/
structure Exit where
  code : UInt8
  written : Console.Transcript
  deriving DecidableEq, Repr

/-- What the arguments come to before any input is read. -/
inductive Start
  | over (exit : Exit)
  | session (catalog : Catalog) (options : Options)

/-- The files that are read before the session, in order. -/
def paths (args : List String) : List String :=
  match parse args with
  | .ok (.run options) => options.tables.map (·.2)
  | .ok .help | .error _ => []

def start (args : List String) (content : String → Option ByteArray) : Start :=
  match parse args with
  | .error e => .over ⟨2, "", complaint e⟩
  | .ok .help => .over ⟨0, help, ""⟩
  | .ok (.run options) =>
      match prepare options content with
      | .error e => .over ⟨1, "", failure e⟩
      | .ok catalog => .session catalog options

/-- A whole run of the command on the lines of its input. -/
def run (args : List String) (content : String → Option ByteArray) (entropy : UInt64)
    (input : List String) : Exit :=
  match start args content with
  | .over exit => exit
  | .session catalog options =>
      ⟨0, Console.session catalog (calculator options entropy) input⟩

end Tabletop.CommandLine
