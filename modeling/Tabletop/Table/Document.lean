/-
# Tables from documents

A document becomes a table, and every table in it a table nested in the one around it, under its
key. The keys `dice`, `rolls` and `results` have their meaning only when they are not tables. All
other keys are noted and ignored. The entries are taken in the order of their keys, so that order
decides which of several faults is reported.
-/

import Tabletop.Error
import Tabletop.Journal
import Tabletop.Toml.Scalar

namespace Tabletop

/-- A computation that builds tables. It takes notes. -/
abbrev Building : Type → Type :=
  EStateM Error (Array Note)

namespace Table

/-- The key that an item in a list of rolls stands for. -/
def keyOfValue (table : String) : Toml.Value → Except Error Key
  | .integer n => .ok (.exact n)
  | .array [.integer lo, .integer hi] =>
      if lo ≤ hi then .ok (.range lo hi) else .error (.emptyRange table lo hi)
  | _ => .error (.wrongShape table "rolls" .keys)

/-- The entry that an item in a list of results stands for. -/
def entryOfValue (table : String) : Toml.Value → Except Error Entry
  | .text s => .ok (.text s)
  | .integer n => .ok (.number (.int n))
  | .float x => .ok (.number (.float x))
  | _ => .error (.wrongShape table "results" .outcomes)

/-- Add an entry that is no table. -/
def addPlain (t : Table) (key : String) (value : Toml.Value) : Building Table :=
  if key = "dice" then
    match value with
    | .text s => return { t with dice := some s }
    | _ => throw (.wrongShape t.name key .text)
  else if key = "rolls" then
    match value with
    | .array items =>
        match items.mapM (keyOfValue t.name) with
        | .ok rolls => return { t with rolls := some rolls }
        | .error e => throw e
    | _ => throw (.wrongShape t.name key .list)
  else if key = "results" then
    match value with
    | .array items =>
        match items.mapM (entryOfValue t.name) with
        | .ok results => return { t with results := some results }
        | .error e => throw e
    | _ => throw (.wrongShape t.name key .list)
  else do
    modify (·.push (.ignored t.name key))
    return t

mutual

/-- Add one entry of a document to a table. -/
def addEntry (t : Table) (key : String) : Toml.Value → Building Table
  | .table entries => do
      let sub ← addEntries (blank key) entries
      return { t with subtables := Dictionary.put key sub t.subtables }
  | value => addPlain t key value

/-- Add the entries of a document to a table, one after another. -/
def addEntries (t : Table) : List (String × Toml.Value) → Building Table
  | [] => return t
  | (key, value) :: rest => do
      let t ← addEntry t key value
      addEntries t rest

end

/-- The table that a document stands for. -/
def ofDocument (name : String) (document : Toml.Entries) : Building Table :=
  addEntries (blank name) document

end Table

end Tabletop
