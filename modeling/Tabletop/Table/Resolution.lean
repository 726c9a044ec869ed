/-
# Rolling on tables

A roll adds a modifier to the dice of a table and looks for the first key that matches. Entries
that redirect lead to further rolls, on the same table or one nested in it, for which the modifier
does not count any more. The number of redirections may be bounded; without a bound a table that
redirects to itself for ever is rolled on for ever.
-/

import Tabletop.Calculator

namespace Tabletop.Table

/-- Where a number leads on a table. Without keys or results, and without a matching key, the
number itself is the result. -/
def select (t : Table) (roll : Number) : Except Error Lead :=
  match t.rolls, t.results with
  | some rolls, some results =>
      match rolls.findIdx? (Key.matches roll) with
      | some index =>
          match results[index]? with
          | some entry => .ok entry.lead
          | none => .error (.misaligned roll index rolls.length results.length)
      | none => .ok (.done (.number roll))
  | _, _ => .ok (.done (.number roll))

/-- The result of a lead that is done, or the table to roll on next. -/
def redirect (t : Table) : Lead → Except Error (Result ⊕ Table)
  | .done result => .ok (.inl result)
  | .again => .ok (.inr t)
  | .descend name =>
      match t.subtable? name with
      | some sub => .ok (.inr sub)
      | none => .error (.notFound .subtable (t.name ++ "." ++ name))

variable {σ : Type} [RandomSource σ]

/-- Roll the dice of a table and add the modifier. -/
def rollDice (t : Table) (modifier : Int64) : Calculation σ Number := do
  match t.dice with
  | none => Attempt.fail (.notFound .dice t.name)
  | some dice => do
      Calculator.note (.rolling t.name dice)
      let number ← Calculator.number dice
      let roll ← Attempt.ofExcept (.eval ∘ .arithmetic) (number.add (.int modifier))
      Calculator.note (.rolled t.name roll)
      return roll

/-- One roll on a table: its result, or the table to roll on next. -/
def rollOnce (t : Table) (modifier : Int64) : Calculation σ (Result ⊕ Table) := do
  let roll ← rollDice t modifier
  let lead ← Attempt.ofExcept id (t.select roll)
  Calculator.note (.led t.name lead)
  Attempt.ofExcept id (t.redirect lead)

/-- Roll on a table and follow its redirections, at most `budget` of them. `exhausted` says what
becomes of the table that asks for one more. -/
def follow (exhausted : Table → Halt Error) (budget : Nat) (t : Table) (modifier : Int64) :
    Calculation σ Result := do
  match ← t.rollOnce modifier with
  | .inl result => return result
  | .inr next =>
      match budget with
      | 0 => throw (exhausted t)
      | budget + 1 => follow exhausted budget next 0

/-- How many redirections are followed without a bound before the roll is given up. -/
def patience : Nat := Nat.pow 2 62

/-- Roll on a table, adding the modifier to the first roll and following at most `maxRedirects`
redirections. -/
def resolve (t : Table) (maxRedirects : Option Nat) (modifier : Int64) : Calculation σ Result :=
  match maxRedirects with
  | some limit => follow (fun last => .failed (.tooManyRedirects last.name limit)) limit t modifier
  | none => follow (fun _ => .unfinished) patience t modifier

end Tabletop.Table
