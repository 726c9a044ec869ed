/-
# The value of an expression

Evaluation goes from left to right and makes its draws on the way. A name means its innermost
binding, else the global variable, else zero; the last is noted. The bound expression of a `let`
is evaluated once, before the body, whether or not the body uses it.
-/

import Tabletop.Dice
import Tabletop.Dictionary
import Tabletop.Expr

namespace Tabletop

/-- The variables that outlive a line of input. -/
abbrev Globals : Type :=
  Dictionary Number

/-- The bindings of the enclosing `let` terms, innermost first. -/
abbrev Scope : Type :=
  List (String × Number)

/-- The value that a name has, if it has one. -/
def Scope.resolve (globals : Globals) (scope : Scope) (name : String) : Option Number :=
  (List.lookup name scope).or (Dictionary.find? name globals)

namespace Expr

variable {σ : Type} [RandomSource σ]

/-- The value of a name, zero if it has none. -/
def evalVariable (globals : Globals) (scope : Scope) (name : String) : Evaluation σ Number :=
  match scope.resolve globals name with
  | some value => pure value
  | none => do
      Sampler.note (.undefined name)
      return Number.zero

/-- Throw the dice of a dice term and add them up. -/
def evalDice (text : String) : Evaluation σ Number := do
  let spec ← Attempt.ofExcept .badNotation (DiceSpec.read text.toList)
  let sum ← Dice.fair.sum spec
  return .int sum

def eval (globals : Globals) : Scope → Expr → Evaluation σ Number
  | _, .literal value => pure value
  | _, .dice text => evalDice text
  | _, .uniformInt lo hi => .int <$> Sampler.uniformInt lo hi
  | _, .uniformFloat lo hi => .float <$> Sampler.uniformFloat lo hi
  | _, .bellInt lo hi => .int <$> Sampler.bellInt lo hi
  | _, .bellFloat lo hi => .float <$> Sampler.bell lo hi
  | scope, .fuzz value distance => do
      let value ← eval globals scope value
      .float <$> Sampler.fuzz value.toFloat distance
  | scope, .binary op lhs rhs => do
      let x ← eval globals scope lhs
      let y ← eval globals scope rhs
      Attempt.ofExcept .arithmetic (op.apply x y)
  | scope, .letIn name value body => do
      let x ← eval globals scope value
      eval globals ((name, x) :: scope) body
  | scope, .variable name => evalVariable globals scope name

end Expr

end Tabletop
