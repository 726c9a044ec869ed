/-
# The state of a calculator

A calculator holds a random source and the global variables. Computations on it may change both,
and leave behind whatever state they had reached when they fail.
-/

import Tabletop.Expr.Eval

namespace Tabletop

structure Calculator (σ : Type) where
  sampler : Sampler σ
  globals : Globals
  /-- The source as it was when the calculator was made. -/
  initial : σ

/-- A computation on a calculator. -/
abbrev Calculation (σ : Type) : Type → Type :=
  Attempt Error (Calculator σ)

namespace Calculator

variable {σ α : Type}

/-- A calculator without variables. -/
def new (source : σ) : Calculator σ where
  sampler := ⟨source, #[]⟩
  globals := .empty
  initial := source

/-- The calculator with its source as it was in the beginning. Variables stay. -/
def resetSource (c : Calculator σ) : Calculator σ :=
  { c with sampler := { c.sampler with source := c.initial } }

/-- The sampler of a calculator, and the calculator around another sampler. -/
def splitSampler : Calculator σ → Sampler σ × (Sampler σ → Calculator σ)
  | ⟨sampler, globals, initial⟩ => (sampler, fun sampler => ⟨sampler, globals, initial⟩)

/-- Evaluate on the calculator's source. -/
def evaluate (x : Evaluation σ α) : Calculation σ α :=
  Attempt.onPart splitSampler .eval x

def note (n : Note) : Calculation σ Unit :=
  evaluate (Sampler.note n)

end Calculator

end Tabletop
