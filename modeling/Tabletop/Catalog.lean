/-
# The catalog of tables

Tables are kept under names. A table that is kept under a name that is taken replaces the table
there; a document that cannot be loaded changes nothing. A path names a table of the catalog and,
after points, tables nested in it. The points are taken first, so a name with a point in it is out
of reach of paths.
-/

import Tabletop.Table.Document
import Tabletop.Table.Resolution
import Tabletop.Toml.Document

namespace Tabletop

structure Catalog where
  tables : Dictionary Table
  /-- The most redirections that a roll may follow. -/
  maxRedirects : Option Nat
  journal : Array Note

/-- A computation on a catalog. -/
abbrev Filing : Type → Type :=
  EStateM Error Catalog

namespace Catalog

/-- No tables, and a bound on redirections. -/
def empty (maxRedirects : Option Nat) : Catalog where
  tables := .empty
  maxRedirects := maxRedirects
  journal := #[]

def find? (c : Catalog) (name : String) : Option Table :=
  Dictionary.find? name c.tables

def has (c : Catalog) (name : String) : Bool :=
  Dictionary.has name c.tables

/-- The names of all tables, ascending. -/
def names (c : Catalog) : List String :=
  Dictionary.keys c.tables

/-- Keep a table under a name. -/
def insert (c : Catalog) (name : String) (t : Table) : Catalog :=
  { c with tables := Dictionary.put name t c.tables }

/-- Forget the table under a name. -/
def erase (c : Catalog) (name : String) : Catalog :=
  { c with tables := Dictionary.remove name c.tables }

def note (n : Note) : Filing Unit :=
  modify fun c => { c with journal := c.journal.push n }

/-- Build a table from a document, leaving its notes in the catalog. -/
def build (name : String) (document : Toml.Entries) : Filing Table := fun c =>
  match Table.ofDocument name document c.journal with
  | .ok t journal => .ok t { c with journal }
  | .error e journal => .error e { c with journal }

/-- Read a document and build its table. -/
def readTable (name origin text : String) : Filing Table :=
  match Toml.read text with
  | .ok document => build name document
  | .error fault => throw (.document origin (.malformed fault))

/-- Load the text of a document and keep its table. -/
def loadText (name text : String) : Filing Table := do
  let t ← readTable name name text
  modify fun c => c.insert name t
  return t

/-- Load a file and keep its table. `content` holds the bytes if there is such a file. -/
def loadFile (name path : String) (content : Option ByteArray) : Filing Table := do
  match content with
  | none => throw (.document path .missing)
  | some bytes =>
      match String.fromUTF8? bytes with
      | none => throw (.document path .notUtf8)
      | some text => do
          let t ← readTable name path text
          note (.loaded name path)
          modify fun c => c.insert name t
          return t

/-- The table under a name. -/
def lookup (c : Catalog) (name : String) : Except Error Table :=
  match c.find? name with
  | some t => .ok t
  | none => .error (.notFound .table name)

/-- The part of a path before its first point, and the parts after the points. -/
def splitPath : List Char → List Char × List (List Char)
  | [] => ([], [])
  | c :: cs =>
      let (part, parts) := splitPath cs
      if c = '.' then ([], part :: parts) else (c :: part, parts)

/-- Go down from a table along the names of nested tables. -/
def descend (path : String) : Table → List String → Except Error Table
  | t, [] => .ok t
  | t, name :: names =>
      match t.subtable? name with
      | some sub => descend path sub names
      | none => .error (.notFound .subtable path)

/-- The table at a path. -/
def lookupPath (c : Catalog) (path : String) : Except Error Table := do
  let (root, names) := splitPath path.toList
  let t ← c.lookup (String.ofList root)
  descend path t (names.map String.ofList)

/-- Roll on the table at a path, adding the modifier to the first roll. -/
def resolve {σ : Type} [RandomSource σ] (c : Catalog) (path : String) (modifier : Int64) :
    Calculation σ Table.Result := do
  let t ← Attempt.ofExcept id (c.lookupPath path)
  t.resolve c.maxRedirects modifier

end Catalog

end Tabletop
