/-
# Random tables

A table pairs keys with results. Its dice are rolled, the first key that matches the number rolled
selects the result at the same place, and a result may send the roller on: back to the table
itself, or to one of the tables nested in it.
-/

import Tabletop.Dictionary
import Tabletop.Number

namespace Tabletop

/-- Which rolls select an entry of a table. -/
inductive Table.Key
  | exact (n : Int64)
  /-- Both ends included. -/
  | range (lo hi : Int64)
  deriving DecidableEq, Repr

def Table.Key.matches (roll : Number) : Table.Key → Bool
  | .exact n => roll.equals (.int n)
  | .range lo hi => (Number.int lo).atMost roll && roll.atMost (.int hi)

def Table.Key.render : Table.Key → String
  | .exact n => toString n.toInt
  | .range lo hi => toString lo.toInt ++ "-" ++ toString hi.toInt

/-- An entry in the results of a table, as it is written there. -/
inductive Table.Entry
  | text (s : String)
  | number (x : Number)
  deriving DecidableEq, Repr

/-- What rolling on a table finally gives. -/
inductive Table.Result
  | text (s : String)
  | number (x : Number)
  | nothing
  deriving DecidableEq, Repr

def Table.Result.render : Table.Result → String
  | .text s => s
  | .number x => x.render
  | .nothing => "None"

/-- Where one roll on a table leads. -/
inductive Table.Lead
  | done (result : Table.Result)
  /-- Roll on the same table again. -/
  | again
  /-- Roll on the table of this name that is nested in the current one. -/
  | descend (name : String)
  deriving DecidableEq, Repr

/-- The beginning of an entry that names the table to roll on next. -/
def redirectMark : String := "reroll:"

/-- The meaning of an entry: `None` stands for no result, `reroll` for another roll on the same
table, `reroll:NAME` for a roll on the nested table `NAME`, and everything else for itself. -/
def Table.Entry.lead : Table.Entry → Table.Lead
  | .number x => .done (.number x)
  | .text s =>
      if s = "None" then .done .nothing
      else if s = "reroll" then .again
      else if redirectMark.toList.isPrefixOf s.toList then
        .descend (String.ofList (s.toList.drop redirectMark.length))
      else .done (.text s)

/-- A table: dice, keys, results and nested tables. The lists may be absent, which is not the
same as empty. -/
structure Table where
  name : String
  dice : Option String
  rolls : Option (List Table.Key)
  results : Option (List Table.Entry)
  subtables : List (String × Table)

namespace Table

/-- A table without anything in it. -/
def blank (name : String) : Table :=
  { name, dice := none, rolls := none, results := none, subtables := [] }

def subtable? (t : Table) (name : String) : Option Table :=
  Dictionary.find? name t.subtables

/-- Nest a table under its own name. A table nested there before is replaced. -/
def nest (t sub : Table) : Table :=
  { t with subtables := Dictionary.put sub.name sub t.subtables }

end Table

end Tabletop
