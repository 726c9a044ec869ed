/-
# The meaning of expressions

What an expression means is given here by rules on its tree, apart from any evaluator. A tree with
a source and bindings for its free names either yields a number or halts, and its draws are made
from left to right. The value of a `let` is found once, before its body, in the scope outside of
it. A name means its innermost binding, else the global variable, else zero, which is noted.

The evaluator that runs is proved to follow these rules and no others, so it always ends in exactly
one of the two ways.
-/

import Tabletop.Expr.Eval
import Tabletop.Proofs.Attempt

namespace Tabletop

/-- The sampler after a note has been taken. -/
def Sampler.noted {σ : Type} (s : Sampler σ) (n : Note) : Sampler σ :=
  { s with journal := s.journal.push (.note n) }

namespace Expr

variable {σ : Type} [RandomSource σ]

/-- `Yields globals scope e s v s'`: with the sampler `s`, the expression has the value `v` and
leaves the sampler `s'`. -/
inductive Yields (globals : Globals) : Scope → Expr → Sampler σ → Number → Sampler σ → Prop
  | literal {scope : Scope} {value : Number} {s : Sampler σ} :
      Yields globals scope (.literal value) s value s
  | dice {scope : Scope} {text : String} {spec : DiceSpec} {sum : Int64} {s s' : Sampler σ} :
      DiceSpec.read text.toList = .ok spec → Dice.fair.sum spec s = .ok sum s' →
      Yields globals scope (.dice text) s (.int sum) s'
  | uniformInt {scope : Scope} {lo hi n : Int64} {s s' : Sampler σ} :
      Sampler.uniformInt lo hi s = .ok n s' →
      Yields globals scope (.uniformInt lo hi) s (.int n) s'
  | uniformFloat {scope : Scope} {lo hi x : Float} {s s' : Sampler σ} :
      Sampler.uniformFloat lo hi s = .ok x s' →
      Yields globals scope (.uniformFloat lo hi) s (.float x) s'
  | bellInt {scope : Scope} {lo hi n : Int64} {s s' : Sampler σ} :
      Sampler.bellInt lo hi s = .ok n s' →
      Yields globals scope (.bellInt lo hi) s (.int n) s'
  | bellFloat {scope : Scope} {lo hi x : Float} {s s' : Sampler σ} :
      Sampler.bell lo hi s = .ok x s' →
      Yields globals scope (.bellFloat lo hi) s (.float x) s'
  | fuzz {scope : Scope} {e : Expr} {distance x : Float} {value : Number} {s mid s' : Sampler σ} :
      Yields globals scope e s value mid → Sampler.fuzz value.toFloat distance mid = .ok x s' →
      Yields globals scope (.fuzz e distance) s (.float x) s'
  | binary {scope : Scope} {op : BinaryOp} {lhs rhs : Expr} {x y value : Number}
      {s mid s' : Sampler σ} :
      Yields globals scope lhs s x mid → Yields globals scope rhs mid y s' →
      op.apply x y = .ok value →
      Yields globals scope (.binary op lhs rhs) s value s'
  | letIn {scope : Scope} {name : String} {e body : Expr} {x value : Number}
      {s mid s' : Sampler σ} :
      Yields globals scope e s x mid → Yields globals ((name, x) :: scope) body mid value s' →
      Yields globals scope (.letIn name e body) s value s'
  | bound {scope : Scope} {name : String} {value : Number} {s : Sampler σ} :
      List.lookup name scope = some value →
      Yields globals scope (.variable name) s value s
  | global {scope : Scope} {name : String} {value : Number} {s : Sampler σ} :
      List.lookup name scope = none → Dictionary.find? name globals = some value →
      Yields globals scope (.variable name) s value s
  | undefined {scope : Scope} {name : String} {s : Sampler σ} :
      List.lookup name scope = none → Dictionary.find? name globals = none →
      Yields globals scope (.variable name) s .zero (s.noted (.undefined name))

/-- `Halts globals scope e s halt s'`: with the sampler `s`, the expression has no value, and the
sampler is `s'` when this shows. -/
inductive Halts (globals : Globals) :
    Scope → Expr → Sampler σ → Halt EvalError → Sampler σ → Prop
  | badNotation {scope : Scope} {text : String} {cause : DiceSpec.ReadError} {s : Sampler σ} :
      DiceSpec.read text.toList = .error cause →
      Halts globals scope (.dice text) s (.failed (.badNotation cause)) s
  | dice {scope : Scope} {text : String} {spec : DiceSpec} {halt : Halt EvalError}
      {s s' : Sampler σ} :
      DiceSpec.read text.toList = .ok spec → Dice.fair.sum spec s = .error halt s' →
      Halts globals scope (.dice text) s halt s'
  | uniformInt {scope : Scope} {lo hi : Int64} {halt : Halt EvalError} {s s' : Sampler σ} :
      Sampler.uniformInt lo hi s = .error halt s' →
      Halts globals scope (.uniformInt lo hi) s halt s'
  | bellInt {scope : Scope} {lo hi : Int64} {halt : Halt EvalError} {s s' : Sampler σ} :
      Sampler.bellInt lo hi s = .error halt s' →
      Halts globals scope (.bellInt lo hi) s halt s'
  | bellFloat {scope : Scope} {lo hi : Float} {halt : Halt EvalError} {s s' : Sampler σ} :
      Sampler.bell lo hi s = .error halt s' →
      Halts globals scope (.bellFloat lo hi) s halt s'
  | fuzz {scope : Scope} {e : Expr} {distance : Float} {halt : Halt EvalError}
      {s s' : Sampler σ} :
      Halts globals scope e s halt s' →
      Halts globals scope (.fuzz e distance) s halt s'
  | lhs {scope : Scope} {op : BinaryOp} {lhs rhs : Expr} {halt : Halt EvalError}
      {s s' : Sampler σ} :
      Halts globals scope lhs s halt s' →
      Halts globals scope (.binary op lhs rhs) s halt s'
  | rhs {scope : Scope} {op : BinaryOp} {lhs rhs : Expr} {x : Number} {halt : Halt EvalError}
      {s mid s' : Sampler σ} :
      Yields globals scope lhs s x mid → Halts globals scope rhs mid halt s' →
      Halts globals scope (.binary op lhs rhs) s halt s'
  | apply {scope : Scope} {op : BinaryOp} {lhs rhs : Expr} {x y : Number}
      {cause : ArithmeticError} {s mid s' : Sampler σ} :
      Yields globals scope lhs s x mid → Yields globals scope rhs mid y s' →
      op.apply x y = .error cause →
      Halts globals scope (.binary op lhs rhs) s (.failed (.arithmetic cause)) s'
  | letValue {scope : Scope} {name : String} {e body : Expr} {halt : Halt EvalError}
      {s s' : Sampler σ} :
      Halts globals scope e s halt s' →
      Halts globals scope (.letIn name e body) s halt s'
  | letBody {scope : Scope} {name : String} {e body : Expr} {x : Number} {halt : Halt EvalError}
      {s mid s' : Sampler σ} :
      Yields globals scope e s x mid → Halts globals ((name, x) :: scope) body mid halt s' →
      Halts globals scope (.letIn name e body) s halt s'

/-! ## The evaluator follows the rules -/

variable {globals : Globals}

theorem yields_of_eval {scope : Scope} {e : Expr} {s s' : Sampler σ} {value : Number}
    (h : e.eval globals scope s = .ok value s') : Yields globals scope e s value s' := by
  induction e generalizing scope s s' value with
  | literal v =>
      obtain ⟨rfl, rfl⟩ := Attempt.pure_eq_ok_iff.mp h
      exact .literal
  | dice text =>
      rw [eval, evalDice, Attempt.bind_eq_ok_iff] at h
      obtain ⟨spec, mid, hspec, h⟩ := h
      obtain ⟨hread, rfl⟩ := Attempt.ofExcept_eq_ok_iff.mp hspec
      obtain ⟨sum, mid, hsum, h⟩ := Attempt.bind_eq_ok_iff.mp h
      obtain ⟨rfl, rfl⟩ := Attempt.pure_eq_ok_iff.mp h
      exact .dice hread hsum
  | uniformInt lo hi =>
      obtain ⟨n, hdraw, rfl⟩ := Attempt.map_eq_ok_iff.mp h
      exact .uniformInt hdraw
  | uniformFloat lo hi =>
      obtain ⟨x, hdraw, rfl⟩ := Attempt.map_eq_ok_iff.mp h
      exact .uniformFloat hdraw
  | bellInt lo hi =>
      obtain ⟨n, hdraw, rfl⟩ := Attempt.map_eq_ok_iff.mp h
      exact .bellInt hdraw
  | bellFloat lo hi =>
      obtain ⟨x, hdraw, rfl⟩ := Attempt.map_eq_ok_iff.mp h
      exact .bellFloat hdraw
  | fuzz e distance ih =>
      obtain ⟨x, mid, hvalue, h⟩ := Attempt.bind_eq_ok_iff.mp h
      obtain ⟨y, hfuzz, rfl⟩ := Attempt.map_eq_ok_iff.mp h
      exact .fuzz (ih hvalue) hfuzz
  | binary op lhs rhs ihlhs ihrhs =>
      obtain ⟨x, mid, hlhs, h⟩ := Attempt.bind_eq_ok_iff.mp h
      obtain ⟨y, last, hrhs, h⟩ := Attempt.bind_eq_ok_iff.mp h
      obtain ⟨happly, rfl⟩ := Attempt.ofExcept_eq_ok_iff.mp h
      exact .binary (ihlhs hlhs) (ihrhs hrhs) happly
  | letIn name e body ihvalue ihbody =>
      obtain ⟨x, mid, hvalue, h⟩ := Attempt.bind_eq_ok_iff.mp h
      exact .letIn (ihvalue hvalue) (ihbody h)
  | «variable» name =>
      rw [eval, evalVariable, Scope.resolve] at h
      cases hbound : List.lookup name scope with
      | some v =>
          rw [hbound] at h
          obtain ⟨rfl, rfl⟩ := Attempt.pure_eq_ok_iff.mp h
          exact .bound hbound
      | none =>
          cases hglobal : Dictionary.find? name globals with
          | some v =>
              rw [hbound, hglobal] at h
              obtain ⟨rfl, rfl⟩ := Attempt.pure_eq_ok_iff.mp h
              exact .global hbound hglobal
          | none =>
              rw [hbound, hglobal] at h
              obtain ⟨_, mid, hnote, h⟩ := Attempt.bind_eq_ok_iff.mp h
              cases hnote
              obtain ⟨rfl, rfl⟩ := Attempt.pure_eq_ok_iff.mp h
              exact .undefined hbound hglobal

theorem eval_of_yields {scope : Scope} {e : Expr} {s s' : Sampler σ} {value : Number}
    (h : Yields globals scope e s value s') : e.eval globals scope s = .ok value s' := by
  induction h with
  | literal => rfl
  | dice hread hsum =>
      rw [eval, evalDice, hread]
      exact Attempt.bind_eq_ok_iff.mpr ⟨_, _, rfl, Attempt.bind_eq_ok_iff.mpr ⟨_, _, hsum, rfl⟩⟩
  | uniformInt hdraw | uniformFloat hdraw | bellInt hdraw | bellFloat hdraw =>
      exact Attempt.map_eq_ok_iff.mpr ⟨_, hdraw, rfl⟩
  | fuzz _ hfuzz ih =>
      exact Attempt.bind_eq_ok_iff.mpr ⟨_, _, ih, Attempt.map_eq_ok_iff.mpr ⟨_, hfuzz, rfl⟩⟩
  | binary _ _ happly ihlhs ihrhs =>
      refine Attempt.bind_eq_ok_iff.mpr ⟨_, _, ihlhs, Attempt.bind_eq_ok_iff.mpr ⟨_, _, ihrhs, ?_⟩⟩
      exact Attempt.ofExcept_eq_ok_iff.mpr ⟨happly, rfl⟩
  | letIn _ _ ihvalue ihbody => exact Attempt.bind_eq_ok_iff.mpr ⟨_, _, ihvalue, ihbody⟩
  | bound hbound =>
      rw [eval, evalVariable, Scope.resolve, hbound]
      rfl
  | global hbound hglobal =>
      rw [eval, evalVariable, Scope.resolve, hbound, hglobal]
      rfl
  | undefined hbound hglobal =>
      rw [eval, evalVariable, Scope.resolve, hbound, hglobal]
      rfl

/-- The evaluator gives a value exactly when the rules do. -/
theorem eval_eq_ok_iff {scope : Scope} {e : Expr} {s s' : Sampler σ} {value : Number} :
    e.eval globals scope s = .ok value s' ↔ Yields globals scope e s value s' :=
  ⟨yields_of_eval, eval_of_yields⟩

/-- A float between two bounds can always be drawn. -/
theorem uniformFloat_ne_error {lo hi : Float} {halt : Halt EvalError} {s s' : Sampler σ} :
    Sampler.uniformFloat lo hi s ≠ .error halt s' := by
  intro h
  rcases Attempt.bind_eq_error_iff.mp h with hrecord | ⟨_, mid, -, hdraw⟩
  · cases hrecord
  · obtain ⟨cause, part, hpart, -, -⟩ := Attempt.onPart_eq_error_iff.mp hdraw
    cases hpart

/-- Fuzzing draws floats only, so it never halts. -/
theorem fuzz_ne_error {x distance : Float} {halt : Halt EvalError} {s s' : Sampler σ} :
    Sampler.fuzz x distance s ≠ .error halt s' := by
  intro h
  rcases Attempt.bind_eq_error_iff.mp h with hsign | ⟨_, mid, -, h⟩
  · rcases Attempt.bind_eq_error_iff.mp hsign with hdraw | ⟨_, mid, -, h⟩
    · exact uniformFloat_ne_error hdraw
    · exact Attempt.pure_ne_error h
  · rcases Attempt.bind_eq_error_iff.mp h with hdraw | ⟨_, mid, -, h⟩
    · exact uniformFloat_ne_error hdraw
    · exact Attempt.pure_ne_error h

theorem halts_of_eval {scope : Scope} {e : Expr} {s s' : Sampler σ} {halt : Halt EvalError}
    (h : e.eval globals scope s = .error halt s') : Halts globals scope e s halt s' := by
  induction e generalizing scope s s' with
  | literal v => exact absurd h Attempt.pure_ne_error
  | dice text =>
      rw [eval, evalDice] at h
      rcases Attempt.bind_eq_error_iff.mp h with hfail | ⟨spec, mid, hspec, hthrow⟩
      · obtain ⟨cause, hread, rfl, rfl⟩ := Attempt.ofExcept_eq_error_iff.mp hfail
        exact .badNotation hread
      · obtain ⟨hread, rfl⟩ := Attempt.ofExcept_eq_ok_iff.mp hspec
        rcases Attempt.bind_eq_error_iff.mp hthrow with hsum | ⟨_, _, -, hpure⟩
        · exact .dice hread hsum
        · exact absurd hpure Attempt.pure_ne_error
  | uniformInt lo hi => exact .uniformInt (Attempt.map_eq_error_iff.mp h)
  | uniformFloat lo hi => exact absurd (Attempt.map_eq_error_iff.mp h) uniformFloat_ne_error
  | bellInt lo hi => exact .bellInt (Attempt.map_eq_error_iff.mp h)
  | bellFloat lo hi => exact .bellFloat (Attempt.map_eq_error_iff.mp h)
  | fuzz e distance ih =>
      rcases Attempt.bind_eq_error_iff.mp h with hvalue | ⟨_, _, -, h⟩
      · exact .fuzz (ih hvalue)
      · exact absurd (Attempt.map_eq_error_iff.mp h) fuzz_ne_error
  | binary op lhs rhs ihlhs ihrhs =>
      rcases Attempt.bind_eq_error_iff.mp h with hlhs | ⟨x, mid, hlhs, h⟩
      · exact .lhs (ihlhs hlhs)
      · rcases Attempt.bind_eq_error_iff.mp h with hrhs | ⟨y, last, hrhs, h⟩
        · exact .rhs (yields_of_eval hlhs) (ihrhs hrhs)
        · obtain ⟨cause, happly, rfl, rfl⟩ := Attempt.ofExcept_eq_error_iff.mp h
          exact .apply (yields_of_eval hlhs) (yields_of_eval hrhs) happly
  | letIn name e body ihvalue ihbody =>
      rcases Attempt.bind_eq_error_iff.mp h with hvalue | ⟨x, mid, hvalue, h⟩
      · exact .letValue (ihvalue hvalue)
      · exact .letBody (yields_of_eval hvalue) (ihbody h)
  | «variable» name =>
      rw [eval, evalVariable] at h
      cases hvalue : Scope.resolve globals scope name with
      | some v =>
          rw [hvalue] at h
          exact absurd h Attempt.pure_ne_error
      | none =>
          rw [hvalue] at h
          rcases Attempt.bind_eq_error_iff.mp h with hnote | ⟨_, _, -, h⟩
          · cases hnote
          · exact absurd h Attempt.pure_ne_error

theorem eval_of_halts {scope : Scope} {e : Expr} {s s' : Sampler σ} {halt : Halt EvalError}
    (h : Halts globals scope e s halt s') : e.eval globals scope s = .error halt s' := by
  induction h with
  | badNotation hread =>
      rw [eval, evalDice, hread]
      rfl
  | dice hread hsum =>
      rw [eval, evalDice, hread]
      exact Attempt.bind_eq_error_iff.mpr
        (.inr ⟨_, _, rfl, Attempt.bind_eq_error_iff.mpr (.inl hsum)⟩)
  | uniformInt hdraw | bellInt hdraw | bellFloat hdraw =>
      exact Attempt.map_eq_error_iff.mpr hdraw
  | fuzz _ ih | lhs _ ih | letValue _ ih => exact Attempt.bind_of_error ih
  | rhs hlhs _ ih =>
      exact Attempt.bind_eq_error_iff.mpr
        (.inr ⟨_, _, eval_of_yields hlhs, Attempt.bind_of_error ih⟩)
  | apply hlhs hrhs happly =>
      refine (Attempt.bind_of_ok (eval_of_yields hlhs)).trans ?_
      refine (Attempt.bind_of_ok (eval_of_yields hrhs)).trans ?_
      exact Attempt.ofExcept_eq_error_iff.mpr ⟨_, happly, rfl, rfl⟩
  | letBody hvalue _ ih => exact (Attempt.bind_of_ok (eval_of_yields hvalue)).trans ih

/-- The evaluator halts exactly where the rules do. -/
theorem eval_eq_error_iff {scope : Scope} {e : Expr} {s s' : Sampler σ} {halt : Halt EvalError} :
    e.eval globals scope s = .error halt s' ↔ Halts globals scope e s halt s' :=
  ⟨halts_of_eval, eval_of_halts⟩

end Expr

end Tabletop
