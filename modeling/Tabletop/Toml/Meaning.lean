/-
# What a document means

A document means a table that lists its keys in ascending order. One key is reserved: a table in
it that has this key as its first one stands for the date that the text under the key names, and
its other entries mean nothing.
-/

import Tabletop.Toml.Scalar
import Tabletop.Toml.Tree

namespace Tabletop.Toml

/-- The key that turns a table into a date. -/
def dateKey : String :=
  "$__toml_private_datetime"

/-- Whether a table stands for a date. -/
def standsForDate (branch : Branch) : Except Fault Bool :=
  match branch with
  | (key, node) :: _ =>
      if key = dateKey then
        match node with
        | .scalar (.text s) =>
            if isDate s.toList then .ok true else .error (.invalidDate s)
        | _ => .error (.reservedKey key)
      else .ok false
  | [] => .ok false

/-- The value of a table in a document, given what its entries mean. -/
def tableValue (branch : Branch) (entries : Except Fault Entries) : Except Fault Value := do
  if ← standsForDate branch then return .date
  else return .table (← entries)

mutual

/-- The value that a part of a document means. -/
def Node.toValue : Node → Except Fault Value
  | .scalar v => .ok v
  | .list items => do return .array (← listValues items)
  | .table _ branch => tableValue branch (branchEntries branch)
  | .tables items => do return .array (← itemValues items).reverse

def listValues : List Node → Except Fault (List Value)
  | [] => .ok []
  | node :: rest => do return (← node.toValue) :: (← listValues rest)

/-- The entries of a table by ascending keys. -/
def branchEntries : List (String × Node) → Except Fault Entries
  | [] => .ok .empty
  | (key, node) :: rest => do
      let value ← node.toValue
      return Dictionary.put key value (← branchEntries rest)

def itemValues : List (List (String × Node)) → Except Fault (List Value)
  | [] => .ok []
  | branch :: rest => do
      return (← tableValue branch (branchEntries branch)) :: (← itemValues rest)

end

end Tabletop.Toml
