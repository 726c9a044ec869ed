/-
# Throwing dice

Dice come in three kinds: fair ones, ones weighted towards their low faces, and pools of fair dice
whose top faces may explode into further dice. The modifier of a specification is added to each
die. A specification without dice or without sides gives a single zero and draws nothing.
-/

import Tabletop.Sampler

namespace Tabletop

/-- How dice fall. -/
inductive Dice
  /-- All faces are equally likely. -/
  | fair
  /-- Faces follow a Pareto distribution, low ones being more likely. -/
  | pareto (alpha : Float)
  /-- Fair dice that are counted as successes from `target` upwards. With `explode`, every top
  face adds one more die, and so do the top faces of the added dice. -/
  | pool (target : Int64) (explode : Bool)
  deriving DecidableEq, Repr

namespace Dice

/-- The most dice that a specification may ask for. -/
def limit : Nat := 10000

def defaultAlpha : Float := 10.0

/-- The number of sides as an integer for arithmetic with modifiers. -/
def sidesInt64 (sides : UInt32) : Int64 :=
  Int64.ofNat sides.toNat

/-- The face on which a Pareto draw lands. The interval from one to two is cut into one slice for
each face, and whatever lies beyond it belongs to the top face. -/
def paretoFace (sides : UInt32) (draw : Float) : Int64 :=
  let index := Binary64.ceiling ((draw - 1.0) * Float.ofNat sides.toNat) - 1
  let top := sidesInt64 sides - 1
  (if index < 0 then 0 else if top < index then top else index) + 1

/-- The shown value of a die: its face plus the modifier. -/
def shown (modifier face : Int64) : Except ArithmeticError Int64 :=
  checkedInt64 (face.toInt + modifier.toInt)

/-- What makes a specification unfit for dice of this kind, apart from the number of dice. -/
def check (spec : DiceSpec) : Dice → Except RollError Unit
  | .fair => .ok ()
  | .pareto alpha =>
      if spec.count < 1 then .error .tooFewDice
      else if spec.sides < 2 then .error .tooFewSides
      else if !(1.0 ≤ alpha) then .error (.badShape alpha)
      else .ok ()
  | .pool _ explode =>
      if explode ∧ spec.sides = 1 then .error .endlessExplosion else .ok ()

/-- Add up shown dice from left to right. -/
def total : (sum : Int64) → List Int64 → Except ArithmeticError Int64
  | sum, [] => .ok sum
  | sum, x :: xs => do
      let sum ← checkedInt64 (sum.toInt + x.toInt)
      total sum xs

/-- The value that a die shows when its top face is up. -/
def topValue (spec : DiceSpec) : Int64 :=
  sidesInt64 spec.sides + spec.modifier

/-- What one shown value adds to the successes of a pool: one from the target upwards, one more
for a top face, and one less for a one. -/
def score (target : Int64) (spec : DiceSpec) (value : Int64) : Int64 :=
  (if target ≤ value then 1 else 0) + (if value = topValue spec then 1 else 0) -
    (if value = 1 + spec.modifier then 1 else 0)

/-- The successes among shown values of a pool. -/
def successes (target : Int64) (spec : DiceSpec) (values : List Int64) : Int64 :=
  (values.map (score target spec)).foldl (· + ·) 0

def inOrder (sorted : Bool) (values : List Int64) : List Int64 :=
  if sorted then values.mergeSort (· ≤ ·) else values

variable {σ : Type} [RandomSource σ]

/-- One die, before the modifier. -/
def face (sides : UInt32) : Dice → Evaluation σ Int64
  | .fair | .pool _ _ => Sampler.uniformInt 1 (sidesInt64 sides)
  | .pareto alpha => do
      let draw ← Sampler.pareto alpha
      return paretoFace sides draw

/-- Throw a number of dice one after another. The first die whose value does not fit ends the
throw. -/
def throwEach (dice : Dice) (sides : UInt32) (modifier : Int64) :
    (count : Nat) → Evaluation σ (List Int64)
  | 0 => pure []
  | count + 1 => do
      let face ← dice.face sides
      let value ← Attempt.ofExcept .arithmetic (shown modifier face)
      let values ← throwEach dice sides modifier count
      return value :: values

/-- Throw the dice of a specification, without explosions. -/
def throwAll (dice : Dice) (spec : DiceSpec) : Evaluation σ (List Int64) :=
  if spec.isEmpty then pure [0]
  else if limit < spec.count.toNat then
    Attempt.fail (.roll (.tooManyDice spec.count.toNat limit))
  else throwEach dice spec.sides spec.modifier spec.count.toNat

/-- How many waves of explosions are followed before the roll is given up. -/
def patience : Nat := Nat.pow 2 62

/-- The dice added by `pending` top faces, and the dice which those add in turn. -/
def explosions (spec : DiceSpec) : (allowance pending : Nat) → Evaluation σ (List Int64)
  | _, 0 => pure []
  | 0, _ + 1 => Attempt.giveUp
  | allowance + 1, pending + 1 => do
      let wave ← throwAll .fair { spec with count := UInt32.ofNat (pending + 1) }
      let later ← explosions spec allowance (wave.count (topValue spec))
      return wave ++ later

/-- The values shown by all dice of a roll, ascending if they are to be sorted. -/
def roll (dice : Dice) (spec : DiceSpec) (sorted : Bool) : Evaluation σ (List Int64) := do
  Attempt.ofExcept .roll (dice.check spec)
  match dice with
  | .pool _ true =>
      let first ← throwAll dice spec
      if spec.isEmpty then return inOrder sorted first
      else
        let later ← explosions spec patience (first.count (topValue spec))
        return inOrder sorted (first ++ later)
  | _ =>
      let values ← throwAll dice spec
      return inOrder sorted values

/-- The sum of the values shown. -/
def sum (dice : Dice) (spec : DiceSpec) : Evaluation σ Int64 := do
  let values ← dice.roll spec false
  Attempt.ofExcept .arithmetic (total 0 values)

end Dice

end Tabletop
