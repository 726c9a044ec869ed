/-
# Reading first, evaluating then

The reference for the parser that evaluates while it reads. Here a line is read into a tree before
anything is evaluated. When reading breaks off, the part that was complete is evaluated before the
syntax error is reported, so its draws are made and its failure, if it has one, comes first.
-/

import Tabletop.Calculator
import Tabletop.Proofs.Attempt
import Tabletop.Statement.Reading

namespace Tabletop.Calculator

variable {σ α β : Type}

/-! ## The reference -/

section Reference

variable [RandomSource σ]

/-- Evaluate an expression that nothing encloses. -/
def evalExpr (e : Expr) : Calculation σ Number := do
  evaluate (e.eval (← get).globals [])

def runStatement : Statement → Calculation σ Value
  | .evaluate e => do
      let value ← evalExpr e
      note (.answered value)
      return .plain value
  | .assign name e => do
      let value ← evalExpr e
      modify fun c => { c with globals := Dictionary.put name value c.globals }
      note (.assigned name value)
      return .plain value
  | .quantity amount unit => do
      let amount ← evalExpr amount
      note (.answeredQuantity amount unit)
      return .quantity amount unit

/-- Do the work that was complete when reading broke off. -/
def perform (globals : Globals) : Scope → List Reading.Step → Evaluation σ Unit
  | _, [] => pure ()
  | scope, .evaluate e :: steps => do
      let _ ← e.eval globals scope
      perform globals scope steps
  | scope, .bind name e :: steps => do
      let value ← e.eval globals scope
      perform globals ((name, value) :: scope) steps

/-- Do the work that was complete, then report what was wrong after it. -/
def breakOff (work : List Reading.Step) (error : SyntaxError) : Calculation σ Value := do
  evaluate (perform (← get).globals [] work)
  Attempt.fail (.badSyntax error)

/-- Run the statement that was read. -/
def runRead : Except Reading.Breakoff Statement → Calculation σ Value
  | .ok statement => runStatement statement
  | .error breakoff => breakOff breakoff.work breakoff.error

end Reference

/-! ## Evaluations that look at the variables -/

theorem evaluate_ofExcept {ε : Type} (f : ε → EvalError) (x : Except ε α) :
    evaluate (Attempt.ofExcept f x : Evaluation σ α) = Attempt.ofExcept (.eval ∘ f) x := by
  cases x <;> rfl

theorem evaluate_map (f : α → β) (x : Evaluation σ α) : evaluate (f <$> x) = f <$> evaluate x := by
  funext c
  simp only [evaluate, Attempt.onPart, splitSampler, Functor.map, EStateM.map]
  cases x c.sampler <;> rfl

/-- Evaluate with the variables as they are. -/
def onGlobals (x : Globals → Evaluation σ α) : Calculation σ α := do
  evaluate (x (← get).globals)

/-- An evaluation leaves the variables as they are, so the next one finds the same. -/
theorem onGlobals_bind (x : Globals → Evaluation σ α) (f : Globals → α → Evaluation σ β) :
    onGlobals (fun globals => x globals >>= f globals) =
      onGlobals x >>= fun a => onGlobals fun globals => f globals a := by
  funext c
  have hrun : ∀ {γ : Type} (y : Globals → Evaluation σ γ),
      onGlobals y c = evaluate (y c.globals) c := fun _ => rfl
  cases hx : x c.globals c.sampler with
  | ok a s =>
      have hfirst : onGlobals x c = .ok a { c with sampler := s } := by
        rw [hrun]
        exact Attempt.onPart_eq_ok_iff.mpr ⟨s, hx, rfl⟩
      rw [Attempt.bind_of_ok hfirst, hrun]
      simp only [onGlobals, evaluate, Attempt.onPart, splitSampler, Attempt.bind_of_ok hx]
      rfl
  | error halt s =>
      have hfirst : onGlobals x c = .error (halt.map .eval) { c with sampler := s } := by
        rw [hrun]
        exact Attempt.onPart_eq_error_iff.mpr ⟨halt, s, hx, rfl, rfl⟩
      rw [Attempt.bind_of_error hfirst, hrun]
      exact Attempt.onPart_eq_error_iff.mpr ⟨halt, s, Attempt.bind_of_error hx, rfl, rfl⟩

variable [RandomSource σ]

/-- The value of an expression below some `let` bindings. -/
def evalIn (scope : Scope) (e : Expr) : Calculation σ Number :=
  onGlobals fun globals => e.eval globals scope

theorem evalIn_literal (scope : Scope) (value : Number) :
    (evalIn scope (.literal value) : Calculation σ Number) = pure value :=
  rfl

theorem evalIn_dice (scope : Scope) (text : String) :
    (evalIn scope (.dice text) : Calculation σ Number) = evaluate (Expr.evalDice text) :=
  rfl

theorem evalIn_range (scope : Scope) (kind : Reading.RangeKind) (lo hi : Number) :
    (evalIn scope (kind.toExpr lo hi) : Calculation σ Number) =
      evaluate (Parser.draw lo hi kind) := by
  cases kind <;> rfl

theorem evalIn_variable (scope : Scope) (name : String) :
    (evalIn scope (.variable name) : Calculation σ Number) = Parser.lookup scope name :=
  rfl

theorem evalIn_fuzz (scope : Scope) (value : Expr) (distance : Float) :
    (evalIn scope (.fuzz value distance) : Calculation σ Number) = (do
      let x ← evalIn scope value
      let y ← evaluate (Sampler.fuzz x.toFloat distance)
      return .float y) := by
  have hvalue : (evalIn scope (.fuzz value distance) : Calculation σ Number) = (do
      let x ← evalIn scope value
      evaluate (Number.float <$> Sampler.fuzz x.toFloat distance)) :=
    onGlobals_bind _ fun _ (x : Number) => Number.float <$> Sampler.fuzz x.toFloat distance
  simp only [hvalue, evaluate_map, bind_pure_comp]

theorem evalIn_binary (scope : Scope) (op : BinaryOp) (lhs rhs : Expr) :
    (evalIn scope (.binary op lhs rhs) : Calculation σ Number) = (do
      let x ← evalIn scope lhs
      let y ← evalIn scope rhs
      Parser.apply op x y) := by
  have hlhs : (evalIn scope (.binary op lhs rhs) : Calculation σ Number) = (do
      let x ← evalIn scope lhs
      onGlobals fun globals => do
        let y ← rhs.eval globals scope
        Attempt.ofExcept .arithmetic (op.apply x y)) := onGlobals_bind _ _
  rw [hlhs]
  congr
  funext x
  rw [onGlobals_bind]
  congr
  funext y
  exact evaluate_ofExcept _ _

theorem evalIn_letIn (scope : Scope) (name : String) (value body : Expr) :
    (evalIn scope (.letIn name value body) : Calculation σ Number) = (do
      let x ← evalIn scope value
      evalIn ((name, x) :: scope) body) :=
  onGlobals_bind _ fun globals x => body.eval globals ((name, x) :: scope)

/-! ## The work that was complete -/

/-- Do some work below some `let` bindings. -/
def performIn (scope : Scope) (steps : List Reading.Step) : Calculation σ Unit :=
  onGlobals fun globals => perform globals scope steps

theorem performIn_nil (scope : Scope) : (performIn scope [] : Calculation σ Unit) = pure () :=
  rfl

theorem performIn_evaluate (scope : Scope) (e : Expr) (steps : List Reading.Step) :
    (performIn scope (.evaluate e :: steps) : Calculation σ Unit) = (do
      let _ ← evalIn scope e
      performIn scope steps) :=
  onGlobals_bind _ fun globals _ => perform globals scope steps

theorem performIn_bind (scope : Scope) (name : String) (e : Expr) (steps : List Reading.Step) :
    (performIn scope (.bind name e :: steps) : Calculation σ Unit) = (do
      let x ← evalIn scope e
      performIn ((name, x) :: scope) steps) :=
  onGlobals_bind _ fun globals x => perform globals ((name, x) :: scope) steps

theorem breakOff_eq (work : List Reading.Step) (error : SyntaxError) :
    (breakOff work error : Calculation σ Value) = (do
      performIn [] work
      Attempt.fail (.badSyntax error)) :=
  rfl

end Tabletop.Calculator
