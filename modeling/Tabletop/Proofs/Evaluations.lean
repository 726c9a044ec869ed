/-
# How many dice expressions were evaluated

A table puts on record that it is rolling right before it evaluates its dice expression. Nothing
else takes such a note: neither a line of input, whatever it evaluates and however it ends, nor the
remaining work on a table. So the number of these notes is the number of dice expressions that
tables have evaluated.
-/

import Tabletop.Proofs.Calculation
import Tabletop.Proofs.Compositional
import Tabletop.Table.Resolution

namespace Tabletop

variable {σ α : Type}

/-- A table is about to evaluate its dice expression. -/
def Event.isRolling : Event → Bool
  | .note (.rolling _ _) => true
  | _ => false

/-- How many dice expressions tables have evaluated, by the record. -/
def Sampler.evaluations (s : Sampler σ) : Nat :=
  s.journal.countP Event.isRolling

/-- How many dice expressions tables have evaluated on a calculator, by its record. -/
def Calculator.evaluations (c : Calculator σ) : Nat :=
  c.sampler.evaluations

namespace Sampler

theorem evaluations_record (event : Event) (s : Sampler σ) :
    ({ s with journal := s.journal.push event } : Sampler σ).evaluations =
      s.evaluations + if event.isRolling then 1 else 0 := by
  rw [evaluations, Array.countP_push]
  rfl

theorem keeps_record {event : Event} (h : event.isRolling = false) :
    Attempt.Keeps evaluations (record event : Evaluation σ Unit) := by
  intro s
  refine (evaluations_record event s).trans ?_
  rw [h]
  rfl

theorem keeps_primitive (d : Draw) (act : Attempt DrawError σ α) :
    Attempt.Keeps evaluations (primitive d act) := by
  refine (keeps_record rfl).bind fun _ => ?_
  have hsource : Attempt.Keeps (fun _ => 0) act := fun _ => rfl
  exact hsource.onPart fun _ _ _ => rfl

/-- No evaluation evaluates the dice expression of a table. -/
theorem compositional_keeps [RandomSource σ] :
    Compositional (σ := σ) (Attempt.Keeps evaluations) :=
  .of_primitive (Attempt.Keeps.sequential _) (fun d _ _ => keeps_primitive d _) fun _ =>
    keeps_record rfl

end Sampler

namespace Calculator

theorem keeps_evaluate {x : Evaluation σ α} (h : Attempt.Keeps Sampler.evaluations x) :
    Attempt.Keeps evaluations (evaluate x) :=
  h.onPart fun _ _ hpart => hpart

theorem keeps_note {n : Note} (h : (Event.note n).isRolling = false) :
    Attempt.Keeps evaluations (note n : Calculation σ Unit) :=
  keeps_evaluate (Sampler.keeps_record h)

variable [RandomSource σ]

/-- A line of input evaluates no table's dice expression but at most itself. -/
theorem linewise_keeps : Linewise (σ := σ) (Attempt.Keeps evaluations) where
  toSequential := Attempt.Keeps.sequential _
  onGlobals h := fun c => keeps_evaluate (h c.globals Sampler.compositional_keeps) c
  store _ _ := fun _ => rfl
  note h := keeps_note (by cases h <;> rfl)

end Calculator

namespace Table

open Calculator

variable [RandomSource σ] (t : Table) (modifier : Int64) (c : Calculator σ)

/-- Rolling the dice of a table evaluates its dice expression once, if it has one. -/
theorem evaluations_rollDice :
    (Attempt.final (t.rollDice modifier c)).evaluations =
      c.evaluations + if t.dice.isSome then 1 else 0 := by
  unfold rollDice
  cases t.dice with
  | none => rfl
  | some dice =>
      have hrest : Attempt.Keeps evaluations (do
          let number ← number dice
          let roll ← Attempt.ofExcept (.eval ∘ .arithmetic) (number.add (.int modifier))
          note (.rolled t.name roll)
          return roll : Calculation σ Number) :=
        (linewise_keeps.number dice).bind fun _ => (Attempt.Keeps.ofExcept _).bind fun _ =>
          (keeps_note rfl).bind fun _ => .pure _
      dsimp only
      rw [Attempt.bind_of_ok (note_eq _ c), hrest]
      exact Sampler.evaluations_record _ _

/-- One roll on a table evaluates one dice expression, if the table has one. -/
theorem evaluations_rollOnce :
    (Attempt.final (t.rollOnce modifier c)).evaluations =
      c.evaluations + if t.dice.isSome then 1 else 0 := by
  rw [← evaluations_rollDice t modifier c]
  refine Attempt.Keeps.final_bind (fun roll => ?_) _ c
  exact (Attempt.Keeps.ofExcept _).bind fun _ => (keeps_note rfl).bind fun _ => .ofExcept _

end Table

end Tabletop
