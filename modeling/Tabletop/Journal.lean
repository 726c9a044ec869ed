/-
# What a run leaves on record

Two things besides its answer can be observed of a run: the draws that it made, with their
parameters, and the notes that it took. They are kept in one list in the order in which they
happened.
-/

import Tabletop.Table.Basic
import Tabletop.Text.Quoted

namespace Tabletop

/-- A draw from a source, successful or not. -/
inductive Draw
  | uniformInt (lo hi : Int64)
  | uniformFloat (lo hi : Float)
  | gaussian (mean deviation : Float)
  | pareto (shape : Float)
  deriving DecidableEq, Repr

inductive NoteLevel
  | debug
  | info
  deriving DecidableEq, Repr

def NoteLevel.render : NoteLevel → String
  | .debug => "DEBUG"
  | .info => "INFO"

/-- A remark on the course of a run. -/
inductive Note
  /-- A variable without a value counted as zero. -/
  | undefined (name : String)
  | assigned (name : String) (value : Number)
  | answered (value : Number)
  | answeredQuantity (amount : Number) (unit : String)
  | rolling (table dice : String)
  | rolled (table : String) (value : Number)
  | led (table : String) (lead : Table.Lead)
  /-- A key of a table document means nothing. -/
  | ignored (table key : String)
  | loaded (table origin : String)
  deriving DecidableEq, Repr

namespace Note

def level : Note → NoteLevel
  | .undefined _ | .rolling _ _ | .rolled _ _ | .led _ _ => .info
  | .assigned _ _ | .answered _ | .answeredQuantity _ _ | .ignored _ _ | .loaded _ _ => .debug

def renderNumber : Number → String
  | .int n => "Int(" ++ (Number.int n).render ++ ")"
  | .float x => "Float(" ++ (Number.float x).render ++ ")"

def renderLead : Table.Lead → String
  | .done (.text s) => "Done(Text(" ++ Text.quote s ++ "))"
  | .done (.number x) => "Done(Number(" ++ renderNumber x ++ "))"
  | .done .nothing => "Done(None)"
  | .again => "Reroll(None)"
  | .descend name => "Reroll(Some(" ++ Text.quote name ++ "))"

def message : Note → String
  | .undefined name => "undefined (defaulting to 0): " ++ name
  | .assigned name value => name ++ " = " ++ value.render
  | .answered value => "= " ++ value.render
  | .answeredQuantity amount unit => "= (" ++ amount.render ++ ", " ++ Text.quote unit ++ ")"
  | .rolling table dice => table ++ ": rolling " ++ dice
  | .rolled table value => table ++ ": rolled " ++ value.render
  | .led table lead => table ++ ": candidate " ++ renderLead lead
  | .ignored table key => table ++ ": ignoring key " ++ Text.quote key
  | .loaded table origin => "loaded table " ++ Text.quote table ++ " from " ++ origin

/-- A note as a line of a log. -/
def render (note : Note) : String :=
  note.level.render ++ " " ++ note.message

end Note

inductive Event
  | draw (d : Draw)
  | note (n : Note)
  deriving DecidableEq, Repr

end Tabletop
