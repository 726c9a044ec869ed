/-
# Scripted draws

A source without chance, for replaying a session by hand. Integers walk upwards by a fixed step
and wrap within the range that is asked for; the other draws come from lists that are read in a
circle.
-/

import Tabletop.Source

namespace Tabletop

/-- A list that is read in a circle. An empty list yields its default for ever. -/
structure Cycle where
  values : List Float
  default : Float
  /-- How many values have been read. -/
  read : Nat
  deriving DecidableEq, Repr

namespace Cycle

def ofList (default : Float) (values : List Float) : Cycle :=
  { values, default, read := 0 }

def next (c : Cycle) : Float × Cycle :=
  ((c.values[c.read % c.values.length]?).getD c.default, { c with read := c.read + 1 })

end Cycle

structure Script where
  current : Int64
  step : Int64
  fractions : Cycle
  deviations : Cycle
  paretos : Cycle
  deriving DecidableEq, Repr

namespace Script

/-- Where `current` falls in a range, counted on from one at the lower bound. -/
def place (current lo hi : Int64) : Int64 :=
  Int64.ofInt (lo.toInt + (current.toInt - 1) % (hi.toInt - lo.toInt + 1))

def uniformFloat (lo hi : Float) (s : Script) : Float × Script :=
  let (fraction, fractions) := s.fractions.next
  (lo + (hi - lo) * fraction, { s with fractions })

def uniformInt (lo hi : Int64) : Attempt DrawError Script Int64 := fun s =>
  if hi < lo then .error (.failed (.emptyRange lo hi)) s
  else .ok (place s.current lo hi) { s with current := s.current + s.step }

def gaussian (mean deviation : Float) : Attempt DrawError Script Float := fun s =>
  let (factor, deviations) := s.deviations.next
  .ok (mean + factor * deviation) { s with deviations }

def pareto (_shape : Float) : Attempt DrawError Script Float := fun s =>
  let (x, paretos) := s.paretos.next
  .ok x { s with paretos }

end Script

instance : RandomSource Script where
  uniformFloat := Script.uniformFloat
  uniformInt := Script.uniformInt
  gaussian := Script.gaussian
  pareto := Script.pareto

end Tabletop
