/-
# Drawing on record

A sampler is a random source together with the record of what happened on it. Every draw is
recorded before it is made, also one that is refused. The draws of the calculator language that
are not primitive are built from the four primitive ones.
-/

import Tabletop.Error
import Tabletop.Journal

namespace Tabletop

structure Sampler (σ : Type) where
  source : σ
  journal : Array Event

/-- A computation that draws from a source of type `σ` and evaluates. -/
abbrev Evaluation (σ : Type) : Type → Type :=
  Attempt EvalError (Sampler σ)

namespace Sampler

variable {ε σ α : Type}

def record (event : Event) : Attempt ε (Sampler σ) Unit :=
  modify fun s => { s with journal := s.journal.push event }

def note (n : Note) : Attempt ε (Sampler σ) Unit :=
  record (.note n)

/-- The source of a sampler, and the sampler around another source. -/
def splitSource : Sampler σ → σ × (σ → Sampler σ)
  | ⟨source, journal⟩ => (source, fun source => ⟨source, journal⟩)

/-- Put a draw on record and make it. -/
def primitive (d : Draw) (act : Attempt DrawError σ α) : Evaluation σ α := do
  record (.draw d)
  Attempt.onPart splitSource .draw act

variable [RandomSource σ]

def uniformInt (lo hi : Int64) : Evaluation σ Int64 :=
  primitive (.uniformInt lo hi) (RandomSource.uniformInt lo hi)

def uniformFloat (lo hi : Float) : Evaluation σ Float :=
  primitive (.uniformFloat lo hi) fun source =>
    let (x, source) := (RandomSource.uniformFloat lo hi).run source
    .ok x source

def gaussian (mean deviation : Float) : Evaluation σ Float :=
  primitive (.gaussian mean deviation) (RandomSource.gaussian mean deviation)

def pareto (shape : Float) : Evaluation σ Float :=
  primitive (.pareto shape) (RandomSource.pareto shape)

/-- Plus or minus one, with equal odds. -/
def sign : Evaluation σ Float := do
  let x ← uniformFloat 0.0 1.0
  return if x < 0.5 then 1.0 else -1.0

/-- A normal draw around the middle of a range, brought back into the range if it fell outside.
The deviation is half the width of the range. -/
def bell (lo hi : Float) : Evaluation σ Float := do
  let mean := hi - (hi - lo) / 2.0
  let deviation := (hi - lo).abs / 2.0
  let x ← gaussian mean deviation
  return Binary64.clamp lo hi x

/-- The same over integers: bounds become doubles, the draw is rounded back. -/
def bellInt (lo hi : Int64) : Evaluation σ Int64 := do
  let x ← bell (Binary64.ofInt64 lo) (Binary64.ofInt64 hi)
  return Binary64.round x

/-- Move a value by up to a distance in either direction. A distance below one is a share of the
value. -/
def fuzz (value distance : Float) : Evaluation σ Float := do
  let direction ← sign
  let distance := if distance < 1.0 then distance * value else distance
  let offset ← uniformFloat 0.0 distance
  return value + offset * direction

end Sampler

end Tabletop
