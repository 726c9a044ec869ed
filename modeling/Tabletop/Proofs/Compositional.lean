/-
# What holds of every evaluation

Evaluations are put together from the four primitive draws, notes about undefined names and
failures. A property that holds of these parts and that sequencing keeps therefore holds of every
throw of dice, every expression, and all the work that was complete when reading a line broke off.
The induction is made here once, whatever the property is. The same is done for computations on a
calculator: what holds of evaluations there, of storing a variable and of the note at the end of a
line holds of every line.
-/

import Tabletop.Proofs.OnePass

namespace Tabletop

variable {σ α : Type} [RandomSource σ]

/-- The computation is one of the four draws that a source can be asked for. -/
inductive RandomSource.IsDraw : {α : Type} → Attempt DrawError σ α → Prop
  | uniformFloat (lo hi : Float) :
      IsDraw fun source =>
        let (x, source) := (RandomSource.uniformFloat lo hi).run source
        .ok x source
  | uniformInt (lo hi : Int64) : IsDraw (RandomSource.uniformInt lo hi)
  | gaussian (mean deviation : Float) : IsDraw (RandomSource.gaussian mean deviation)
  | pareto (shape : Float) : IsDraw (RandomSource.pareto shape)

/-- The property holds of the parts of which evaluations are made, and sequencing keeps it. -/
structure Compositional (P : ∀ {α : Type}, Evaluation σ α → Prop) : Prop where
  pure {α : Type} (a : α) : P (Pure.pure a : Evaluation σ α)
  throw {α : Type} (halt : Halt EvalError) : P (MonadExcept.throw halt : Evaluation σ α)
  bind {α β : Type} {x : Evaluation σ α} {f : α → Evaluation σ β} :
    P x → (∀ a, P (f a)) → P (x >>= f)
  uniformFloat (lo hi : Float) : P (Sampler.uniformFloat lo hi)
  uniformInt (lo hi : Int64) : P (Sampler.uniformInt lo hi)
  gaussian (mean deviation : Float) : P (Sampler.gaussian mean deviation)
  pareto (shape : Float) : P (Sampler.pareto shape)
  undefined (name : String) : P (Sampler.note (.undefined name) : Evaluation σ Unit)

namespace Compositional

variable {P : ∀ {α : Type}, Evaluation σ α → Prop} {β : Type}

/-- What sequencing keeps is compositional if it holds of every draw on record and of notes about
undefined names. -/
theorem of_primitive (hP : Attempt.Sequential P)
    (hdraw : ∀ {α : Type} (d : Draw) {act : Attempt DrawError σ α}, RandomSource.IsDraw act →
      P (Sampler.primitive d act))
    (hundefined : ∀ name, P (Sampler.note (.undefined name) : Evaluation σ Unit)) :
    Compositional P where
  pure := hP.pure
  throw := hP.throw
  bind := hP.bind
  uniformFloat lo hi := hdraw _ (.uniformFloat lo hi)
  uniformInt lo hi := hdraw _ (.uniformInt lo hi)
  gaussian mean deviation := hdraw _ (.gaussian mean deviation)
  pareto shape := hdraw _ (.pareto shape)
  undefined := hundefined

theorem sequential (hP : Compositional P) : Attempt.Sequential P :=
  ⟨hP.pure, hP.throw, hP.bind⟩

theorem map (hP : Compositional P) {x : Evaluation σ α} (hx : P x) (f : α → β) : P (f <$> x) :=
  hP.sequential.map hx f

theorem ofExcept (hP : Compositional P) {ε : Type} (f : ε → EvalError) (x : Except ε α) :
    P (Attempt.ofExcept f x : Evaluation σ α) :=
  hP.sequential.ofExcept f x

/-! ## Draws -/

theorem sign (hP : Compositional P) : P Sampler.sign :=
  hP.bind (hP.uniformFloat 0.0 1.0) fun _ => hP.pure _

theorem bell (hP : Compositional P) (lo hi : Float) : P (Sampler.bell lo hi) :=
  hP.bind (hP.gaussian _ _) fun _ => hP.pure _

theorem bellInt (hP : Compositional P) (lo hi : Int64) : P (Sampler.bellInt lo hi) :=
  hP.bind (hP.bell _ _) fun _ => hP.pure _

theorem fuzz (hP : Compositional P) (x distance : Float) : P (Sampler.fuzz x distance) :=
  hP.bind hP.sign fun _ => hP.bind (hP.uniformFloat _ _) fun _ => hP.pure _

/-! ## Dice -/

theorem face (hP : Compositional P) (dice : Dice) (sides : UInt32) : P (dice.face sides) := by
  cases dice with
  | fair => exact hP.uniformInt _ _
  | pareto alpha => exact hP.bind (hP.pareto _) fun _ => hP.pure _
  | pool target explode => exact hP.uniformInt _ _

theorem throwEach (hP : Compositional P) (dice : Dice) (sides : UInt32) (modifier : Int64)
    (count : Nat) : P (dice.throwEach sides modifier count) := by
  induction count with
  | zero => exact hP.pure []
  | succ count ih =>
      refine hP.bind (hP.face dice sides) fun _ => hP.bind (hP.ofExcept _ _) fun _ => ?_
      exact hP.bind ih fun _ => hP.pure _

theorem throwAll (hP : Compositional P) (dice : Dice) (spec : DiceSpec) :
    P (dice.throwAll spec) := by
  unfold Dice.throwAll
  split
  · exact hP.pure [0]
  · split
    · exact hP.throw _
    · exact hP.throwEach _ _ _ _

theorem explosions (hP : Compositional P) (spec : DiceSpec) (allowance pending : Nat) :
    P (Dice.explosions spec allowance pending) := by
  induction allowance generalizing pending with
  | zero =>
      cases pending with
      | zero => exact hP.pure []
      | succ pending => exact hP.throw _
  | succ allowance ih =>
      cases pending with
      | zero => exact hP.pure []
      | succ pending =>
          exact hP.bind (hP.throwAll _ _) fun _ => hP.bind (ih _) fun _ => hP.pure _

theorem roll (hP : Compositional P) (dice : Dice) (spec : DiceSpec) (sorted : Bool) :
    P (dice.roll spec sorted) := by
  refine hP.bind (hP.ofExcept _ _) fun _ => ?_
  split
  · refine hP.bind (hP.throwAll _ _) fun _ => ?_
    split
    · exact hP.pure _
    · exact hP.bind (hP.explosions _ _ _) fun _ => hP.pure _
  · exact hP.bind (hP.throwAll _ _) fun _ => hP.pure _

theorem sum (hP : Compositional P) (dice : Dice) (spec : DiceSpec) : P (dice.sum spec) :=
  hP.bind (hP.roll dice spec false) fun _ => hP.ofExcept _ _

/-! ## Expressions -/

theorem eval (hP : Compositional P) (globals : Globals) (scope : Scope) (e : Expr) :
    P (e.eval globals scope) := by
  induction e generalizing scope with
  | literal value => exact hP.pure value
  | dice text =>
      rw [Expr.eval, Expr.evalDice]
      exact hP.bind (hP.ofExcept _ _) fun _ => hP.bind (hP.sum _ _) fun _ => hP.pure _
  | uniformInt lo hi => exact hP.map (hP.uniformInt _ _) _
  | uniformFloat lo hi => exact hP.map (hP.uniformFloat _ _) _
  | bellInt lo hi => exact hP.map (hP.bellInt _ _) _
  | bellFloat lo hi => exact hP.map (hP.bell _ _) _
  | fuzz e distance ih => exact hP.bind (ih scope) fun _ => hP.map (hP.fuzz _ _) _
  | binary op lhs rhs ihlhs ihrhs =>
      exact hP.bind (ihlhs scope) fun _ => hP.bind (ihrhs scope) fun _ => hP.ofExcept _ _
  | letIn name e body ihvalue ihbody => exact hP.bind (ihvalue scope) fun _ => ihbody _
  | «variable» name =>
      rw [Expr.eval, Expr.evalVariable]
      split
      · exact hP.pure _
      · exact hP.bind (hP.undefined _) fun _ => hP.pure _

theorem perform (hP : Compositional P) (globals : Globals) (scope : Scope)
    (steps : List Reading.Step) : P (Calculator.perform globals scope steps) := by
  induction steps generalizing scope with
  | nil => exact hP.pure ()
  | cons step steps ih =>
      cases step with
      | evaluate e => exact hP.bind (hP.eval globals scope e) fun _ => ih scope
      | bind name e => exact hP.bind (hP.eval globals scope e) fun _ => ih _

end Compositional

/-- The evaluation does nothing to a source but draw from it. -/
def MadeOfDraws (x : Evaluation σ α) : Prop :=
  ∀ ⦃P : ∀ {β : Type}, Evaluation σ β → Prop⦄, Compositional P → P x

/-! ## Lines of input -/

/-- The note is taken at the end of a line. -/
inductive Note.EndsLine : Note → Prop
  | answered (value : Number) : EndsLine (.answered value)
  | assigned (name : String) (value : Number) : EndsLine (.assigned name value)
  | answeredQuantity (amount : Number) (unit : String) : EndsLine (.answeredQuantity amount unit)

namespace Calculator

/-- The property holds of all that a line of input may do with a calculator, and sequencing keeps
it. -/
structure Linewise (P : ∀ {α : Type}, Calculation σ α → Prop) : Prop
    extends Attempt.Sequential P where
  onGlobals {α : Type} {x : Globals → Evaluation σ α} :
    (∀ globals, MadeOfDraws (x globals)) → P (onGlobals x)
  store (name : String) (value : Number) :
    P (modify fun c => { c with globals := Dictionary.put name value c.globals } :
      Calculation σ Unit)
  note {n : Note} : n.EndsLine → P (note n : Calculation σ Unit)

namespace Linewise

variable {P : ∀ {α : Type}, Calculation σ α → Prop} (hP : Linewise P)
include hP

theorem evalExpr (e : Expr) : P (evalExpr e) :=
  hP.onGlobals fun globals _ hQ => hQ.eval globals [] e

theorem runStatement (s : Statement) : P (runStatement s) := by
  cases s with
  | evaluate e =>
      exact hP.bind (hP.evalExpr e) fun value =>
        hP.bind (hP.note (.answered value)) fun _ => hP.pure _
  | assign name e =>
      exact hP.bind (hP.evalExpr e) fun value => hP.bind (hP.store name value) fun _ =>
        hP.bind (hP.note (.assigned name value)) fun _ => hP.pure _
  | quantity amount unit =>
      exact hP.bind (hP.evalExpr amount) fun value =>
        hP.bind (hP.note (.answeredQuantity value unit)) fun _ => hP.pure _

/-- Also a line that breaks off evaluates only, before it fails. -/
theorem calculate (input : String) : P (calculate input) := by
  rw [calculate_eq_runRead]
  cases Statement.read input with
  | ok s => exact hP.runStatement s
  | error breakoff =>
      have hwork : P (performIn [] breakoff.work : Calculation σ Unit) :=
        hP.onGlobals fun globals _ hQ => hQ.perform globals [] breakoff.work
      rw [runRead, breakOff_eq]
      exact hP.bind hwork fun _ => hP.throw _

theorem number (input : String) : P (number input) := by
  refine hP.bind (hP.calculate input) fun value => ?_
  cases value with
  | plain x => exact hP.pure x
  | quantity amount unit => exact hP.throw _

end Linewise

end Calculator

end Tabletop
