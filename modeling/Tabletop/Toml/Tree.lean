/-
# Growing a document

While a document is read, its tables remember how they came about, because that decides how they
may still grow. A header opens a table once; a table that only stands on the way to another one is
implicit and may be opened later; a table made by a dotted key grows by dotted keys only; and
values, tables in braces among them, do not grow at all. Entries stay in the order of their
arrival, and a table arrives when its own header opens it.
-/

import Tabletop.Toml.Scalar

namespace Tabletop.Toml

/-- How a table of the document came about. -/
inductive Origin
  /-- Opened by a header of its own. -/
  | header
  /-- On the way to a table opened by a header. -/
  | implied
  /-- Made by a dotted key. -/
  | dotted
  /-- Written in braces. -/
  | braces
  deriving DecidableEq, Repr

/-- A part of a document as it is written. -/
inductive Node
  | scalar (v : Value)
  | list (items : List Node)
  | table (origin : Origin) (entries : List (String × Node))
  /-- The tables opened by headers in double brackets, the latest first. -/
  | tables (items : List (List (String × Node)))

/-- The entries of a table as they are written, in the order of their arrival. -/
abbrev Branch : Type :=
  List (String × Node)

namespace Branch

/-- Store a node in the place of the old one, or at the end if the key is new. -/
def put (key : String) (node : Node) : Branch → Branch
  | [] => [(key, node)]
  | (other, old) :: rest =>
      if other = key then (key, node) :: rest else (other, old) :: put key node rest

def remove (key : String) (branch : Branch) : Branch :=
  branch.filter fun (other, _) => other ≠ key

/-- Change the table at a path of headers. Tables that are missing on the way are implied, and of
tables in double brackets the latest is meant. -/
def under (change : Branch → Except Fault Branch) :
    (path : List String) → Branch → Except Fault Branch
  | [], branch => change branch
  | key :: path, branch =>
      match branch.lookup key with
      | none => do
          let sub ← under change path []
          return put key (.table .implied sub) branch
      | some (.table origin sub) => do
          if origin = .braces then .error (.notExtendable key)
          else
            let sub ← under change path sub
            return put key (.table origin sub) branch
      | some (.tables (sub :: earlier)) => do
          let sub ← under change path sub
          return put key (.tables (sub :: earlier)) branch
      | some _ => .error (.notExtendable key)

/-- Open a table by a header that ends with `key`. A table that was implied so far arrives
anew. -/
def openTable (key : String) (branch : Branch) : Except Fault Branch :=
  match branch.lookup key with
  | none => .ok (put key (.table .header []) branch)
  | some (.table .implied sub) => .ok (put key (.table .header sub) (remove key branch))
  | some _ => .error (.duplicateKey key)

/-- Open one more table by a header in double brackets that ends with `key`. -/
def openItem (key : String) (branch : Branch) : Except Fault Branch :=
  match branch.lookup key with
  | none => .ok (put key (.tables [[]]) branch)
  | some (.tables items) => .ok (put key (.tables ([] :: items)) branch)
  | some _ => .error (.duplicateKey key)

/-- Store a node under a key that is not taken. -/
def store (key : String) (node : Node) (branch : Branch) : Except Fault Branch :=
  if (branch.lookup key).isSome then .error (.duplicateKey key)
  else .ok (put key node branch)

/-- Store a node under a dotted key. The table that takes it must have been made by a dotted key
itself; on the way there, tables that were opened by a header are not entered, but the latest of
tables in double brackets is. -/
def storeDotted (key : String) (node : Node) :
    (path : List String) → Branch → Except Fault Branch
  | [], branch => store key node branch
  | first :: path, branch =>
      match branch.lookup first with
      | none => do
          let sub ← storeDotted key node path []
          return put first (.table .dotted sub) branch
      | some (.table origin sub) => do
          if origin = .braces then .error (.notExtendable first)
          else if origin = .header then .error (.duplicateKey first)
          else if path.isEmpty ∧ origin ≠ .dotted then .error (.duplicateKey key)
          else
            let sub ← storeDotted key node path sub
            return put first (.table origin sub) branch
      | some (.tables (sub :: earlier)) => do
          if path.isEmpty then .error (.duplicateKey key)
          else
            let sub ← storeDotted key node path sub
            return put first (.tables (sub :: earlier)) branch
      | some _ => .error (.notExtendable first)

end Branch

end Tabletop.Toml
