/-
# Free names

A name in an expression means a global variable only if it is free, that is, if it stands outside of
the body of every `let` that binds it. So two evaluations whose bindings and variables agree on the
free names are one and the same, and a line of input cannot tell two stores of variables apart that
agree on the free names of its expression.
-/

import Tabletop.Proofs.Calculation

namespace Tabletop

open Grammar

/-- The names that stand outside of the body of every `let` that binds them. The value of a `let`
is not part of its body. -/
def Expr.free : Expr → List String
  | .literal _ | .dice _ | .uniformInt _ _ | .uniformFloat _ _ | .bellInt _ _ | .bellFloat _ _ => []
  | .fuzz value _ => value.free
  | .binary _ lhs rhs => lhs.free ++ rhs.free
  | .letIn name value body => value.free ++ body.free.filter (· ≠ name)
  | .variable name => [name]

/-- The two stores have the same value for the name, or neither has one. -/
def Globals.AgreeOn (globals globals' : Globals) (name : String) : Prop :=
  Dictionary.find? name globals = Dictionary.find? name globals'

theorem Globals.AgreeOn.put {globals globals' : Globals} {name : String}
    (h : Globals.AgreeOn globals globals' name) (other : String) (value : Number) :
    Globals.AgreeOn (Dictionary.put other value globals) (Dictionary.put other value globals')
      name := by
  unfold AgreeOn
  by_cases hname : other = name
  · rw [hname, Dictionary.find?_put_self, Dictionary.find?_put_self]
  · rw [Dictionary.find?_put_of_ne hname, Dictionary.find?_put_of_ne hname]
    exact h

/-! ## Expressions -/

theorem Scope.resolve_cons (globals : Globals) (scope : Scope) (name other : String) (x : Number) :
    Scope.resolve globals ((name, x) :: scope) other =
      if other = name then some x else Scope.resolve globals scope other := by
  rw [resolve, List.lookup_cons]
  by_cases h : other = name
  · rw [if_pos h, h, beq_self_eq_true]
    rfl
  · rw [if_neg h, beq_false_of_ne h]
    rfl

variable {σ : Type} [RandomSource σ]

/-- What the free names mean decides how an expression is evaluated. -/
theorem Expr.eval_congr {e : Expr} {globals globals' : Globals} {scope scope' : Scope}
    (h : ∀ name ∈ e.free, scope.resolve globals name = scope'.resolve globals' name) :
    (e.eval globals scope : Evaluation σ Number) = e.eval globals' scope' := by
  induction e generalizing scope scope' with
  | literal | dice | uniformInt | uniformFloat | bellInt | bellFloat => rfl
  | fuzz e distance ih =>
      rw [eval, eval, ih h]
  | binary op lhs rhs ihlhs ihrhs =>
      have hlhs := fun name hname => h name (List.mem_append_left _ hname)
      have hrhs := fun name hname => h name (List.mem_append_right _ hname)
      rw [eval, eval, ihlhs hlhs, ihrhs hrhs]
  | letIn name value body ihvalue ihbody =>
      have hvalue := fun other hother => h other (List.mem_append_left _ hother)
      rw [eval, eval, ihvalue hvalue]
      congr
      funext x
      refine ihbody fun other hother => ?_
      rw [Scope.resolve_cons, Scope.resolve_cons]
      split_ifs with hname
      · rfl
      · have hfree : other ∈ body.free.filter (· ≠ name) :=
          List.mem_filter.mpr ⟨hother, by simpa using hname⟩
        exact h other (List.mem_append_right _ hfree)
  | «variable» name =>
      rw [eval, eval, evalVariable, evalVariable, h name List.mem_cons_self]

/-! ## Whole lines -/

/-- The two outcomes have the same value or halted for the same reason, with the same source and the
same record. Their variables agree on all names that satisfy `p`. -/
structure AlikeOn (p : String → Prop)
    (outcome outcome' : EStateM.Result (Halt Error) (Calculator σ) Value) : Prop where
  value : Attempt.value? outcome = Attempt.value? outcome'
  halt : Attempt.halt? outcome = Attempt.halt? outcome'
  sampler : (Attempt.final outcome).sampler = (Attempt.final outcome').sampler
  globals : ∀ name, p name →
    (Attempt.final outcome).globals.AgreeOn (Attempt.final outcome').globals name

variable {c d : Calculator σ} {s : Statement}

/-- Where an expression is evaluated alike, so is its statement. -/
theorem Runs.congr {outcome : EStateM.Result (Halt Error) (Calculator σ) Value}
    (h : Runs c s outcome) (hsampler : c.sampler = d.sampler)
    (heval : (s.expr.eval c.globals [] : Evaluation σ Number) = s.expr.eval d.globals []) :
    ∃ outcome', Runs d s outcome' ∧ AlikeOn (c.globals.AgreeOn d.globals) outcome outcome' := by
  have hyields : ∀ {value mid}, Expr.Yields c.globals [] s.expr c.sampler value mid →
      Expr.Yields d.globals [] s.expr d.sampler value mid := by
    intro value mid hvalue
    rw [← Expr.eval_eq_ok_iff] at hvalue ⊢
    rwa [← heval, ← hsampler]
  cases h with
  | evaluate hvalue =>
      exact ⟨_, .evaluate (hyields hvalue), rfl, rfl, rfl, fun _ hagree => hagree⟩
  | assign hvalue =>
      exact ⟨_, .assign (hyields hvalue), rfl, rfl, rfl, fun _ hagree => hagree.put _ _⟩
  | quantity hvalue =>
      exact ⟨_, .quantity (hyields hvalue), rfl, rfl, rfl, fun _ hagree => hagree⟩
  | halt hhalt =>
      rw [← Expr.eval_eq_error_iff, heval, hsampler, Expr.eval_eq_error_iff] at hhalt
      exact ⟨_, .halt hhalt, rfl, rfl, rfl, fun _ hagree => hagree⟩

namespace Calculator

/-- A sentence sees the variables through the free names of its expression only, and it does not
make variables differ that agreed before. -/
theorem calculate_alike_on_free {input : String} (hs : Sentence NoOperator (Token.scan input) s)
    (hsampler : c.sampler = d.sampler)
    (hfree : ∀ name ∈ s.expr.free, c.globals.AgreeOn d.globals name) :
    AlikeOn (c.globals.AgreeOn d.globals) (calculate input c) (calculate input d) := by
  have heval : (s.expr.eval c.globals [] : Evaluation σ Number) = s.expr.eval d.globals [] :=
    Expr.eval_congr fun name hname => hfree name hname
  obtain ⟨outcome, hruns⟩ := exists_runs c s
  obtain ⟨outcome', hruns', halike⟩ := hruns.congr hsampler heval
  rw [calculate_of_sentence hs, calculate_of_sentence hs, runStatement_of_runs hruns,
    runStatement_of_runs hruns']
  exact halike

/-- The line reads `gem` only. Neither the variable that it sets nor the one that its `let` hides
matters to it. -/
theorem calculate_hidden_alike :
    let input := "set gold let x = gem in x + 2d6"
    let body : Expr := .binary .add (.variable "x") (.dice "2d6")
    let script : Script := ⟨1, 1, .ofList 0 [], .ofList 0 [], .ofList 0 []⟩
    let c : Calculator Script := { new script with globals := [("gold", .int 1), ("x", .int 5)] }
    let d : Calculator Script := { new script with globals := [("x", .int 7)] }
    Sentence NoOperator (Token.scan input) (.assign "gold" (.letIn "x" (.variable "gem") body)) ∧
    c.sampler = d.sampler ∧
    (∀ name ∈ (Expr.letIn "x" (.variable "gem") body).free, c.globals.AgreeOn d.globals name) ∧
    AlikeOn (c.globals.AgreeOn d.globals) (calculate input c) (calculate input d) := by
  intro input body script c d
  have hread : Statement.read input =
      .ok (.assign "gold" (.letIn "x" (.variable "gem") body)) := by decide +kernel
  have hs := Reading.read_eq_ok_iff.mp hread
  have hfree : ∀ name ∈ (Expr.letIn "x" (.variable "gem") body).free,
      c.globals.AgreeOn d.globals name := by
    intro name hname
    obtain rfl : name = "gem" := by simpa [Expr.free, body] using hname
    rfl
  exact ⟨hs, rfl, hfree, calculate_alike_on_free hs rfl hfree⟩

end Calculator

end Tabletop
