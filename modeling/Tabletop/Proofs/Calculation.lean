/-
# What a line of input does

A line is a sentence of the grammar or it is not, and a sentence stands for one statement. What the
statement does is given by rules: its expression is evaluated on the variables as they are, and
only then is anything stored. The calculator does what these rules say. It accepts no line that is
not a sentence, refuses no sentence as bad syntax, and changes variables in no other way than by a
`set` line that came to its end.
-/

import Tabletop.Proofs.BigStep
import Tabletop.Proofs.OnePass
import Tabletop.Proofs.Reading.Sound
import Tabletop.Source.Script

namespace Tabletop

open Grammar

/-- The expression of a statement. -/
def Statement.expr : Statement → Expr
  | .evaluate e | .assign _ e | .quantity e _ => e

variable {σ : Type}

/-! ## The part of a calculator that evaluation changes -/

namespace Calculator

variable {α : Type} {c c' : Calculator σ}

theorem evaluate_eq_ok_iff {x : Evaluation σ α} {a : α} :
    evaluate x c = .ok a c' ↔ ∃ s, x c.sampler = .ok a s ∧ { c with sampler := s } = c' :=
  Attempt.onPart_eq_ok_iff

theorem evaluate_eq_error_iff {x : Evaluation σ α} {halt : Halt Error} :
    evaluate x c = .error halt c' ↔
      ∃ cause s, x c.sampler = .error cause s ∧ cause.map .eval = halt ∧
        { c with sampler := s } = c' :=
  Attempt.onPart_eq_error_iff

/-- A note is always taken, and changes nothing but the record. -/
theorem note_eq (n : Note) (c : Calculator σ) :
    note n c = .ok () { c with sampler := c.sampler.noted n } :=
  rfl

end Calculator

variable [RandomSource σ]

/-! ## Running statements -/

/-- `Runs c s outcome`: on the calculator `c`, the statement `s` ends in `outcome`. The variables
are those from before the statement until its expression has a value. -/
inductive Runs (c : Calculator σ) :
    Statement → EStateM.Result (Halt Error) (Calculator σ) Value → Prop
  | evaluate {e : Expr} {value : Number} {s : Sampler σ} :
      Expr.Yields c.globals [] e c.sampler value s →
      Runs c (.evaluate e) (.ok (.plain value) { c with sampler := s.noted (.answered value) })
  | assign {name : String} {e : Expr} {value : Number} {s : Sampler σ} :
      Expr.Yields c.globals [] e c.sampler value s →
      Runs c (.assign name e)
        (.ok (.plain value)
          { c with
            sampler := s.noted (.assigned name value)
            globals := Dictionary.put name value c.globals })
  | quantity {amount : Expr} {unit : String} {value : Number} {s : Sampler σ} :
      Expr.Yields c.globals [] amount c.sampler value s →
      Runs c (.quantity amount unit)
        (.ok (.quantity value unit)
          { c with sampler := s.noted (.answeredQuantity value unit) })
  | halt {statement : Statement} {halt : Halt EvalError} {s : Sampler σ} :
      Expr.Halts c.globals [] statement.expr c.sampler halt s →
      Runs c statement (.error (halt.map .eval) { c with sampler := s })

namespace Calculator

variable {c c' : Calculator σ}

theorem evalExpr_eq_ok_iff {e : Expr} {value : Number} :
    evalExpr e c = .ok value c' ↔
      ∃ s, Expr.Yields c.globals [] e c.sampler value s ∧ { c with sampler := s } = c' := by
  have hrun : evalExpr e c = evaluate (e.eval c.globals []) c := rfl
  simp only [hrun, evaluate_eq_ok_iff, Expr.eval_eq_ok_iff]

theorem evalExpr_eq_error_iff {e : Expr} {halt : Halt Error} :
    evalExpr e c = .error halt c' ↔
      ∃ cause s, Expr.Halts c.globals [] e c.sampler cause s ∧ cause.map .eval = halt ∧
        { c with sampler := s } = c' := by
  have hrun : evalExpr e c = evaluate (e.eval c.globals []) c := rfl
  simp only [hrun, evaluate_eq_error_iff, Expr.eval_eq_error_iff]

theorem runStatement_of_halt {s : Statement} {halt : Halt Error}
    (h : evalExpr s.expr c = .error halt c') : runStatement s c = .error halt c' := by
  cases s with
  | evaluate e | assign name e | quantity amount unit => exact Attempt.bind_of_error h

/-- A statement ends as the rules say. -/
theorem runStatement_of_runs {s : Statement}
    {outcome : EStateM.Result (Halt Error) (Calculator σ) Value} (h : Runs c s outcome) :
    runStatement s c = outcome := by
  cases h with
  | evaluate hvalue | assign hvalue | quantity hvalue =>
      exact Attempt.bind_of_ok (evalExpr_eq_ok_iff.mpr ⟨_, hvalue, rfl⟩)
  | halt hhalt => exact runStatement_of_halt (evalExpr_eq_error_iff.mpr ⟨_, _, hhalt, rfl, rfl⟩)

/-- The rules give every statement an outcome. -/
theorem exists_runs (c : Calculator σ) (s : Statement) : ∃ outcome, Runs c s outcome := by
  cases hrun : evalExpr s.expr c with
  | ok value c' =>
      obtain ⟨sampler, hvalue, -⟩ := evalExpr_eq_ok_iff.mp hrun
      cases s with
      | evaluate e => exact ⟨_, .evaluate hvalue⟩
      | assign name e => exact ⟨_, .assign hvalue⟩
      | quantity amount unit => exact ⟨_, .quantity hvalue⟩
  | error halt c' =>
      obtain ⟨cause, sampler, hhalt, -, -⟩ := evalExpr_eq_error_iff.mp hrun
      exact ⟨_, .halt hhalt⟩

theorem runStatement_eq_iff {s : Statement}
    {outcome : EStateM.Result (Halt Error) (Calculator σ) Value} :
    runStatement s c = outcome ↔ Runs c s outcome := by
  constructor
  · rintro rfl
    obtain ⟨outcome, hruns⟩ := exists_runs c s
    exact runStatement_of_runs hruns ▸ hruns
  · exact runStatement_of_runs

/-! ## Sentences and other lines -/

variable {input : String}

theorem calculate_of_sentence {s : Statement} (h : Sentence NoOperator (Token.scan input) s) :
    calculate input c = runStatement s c := by
  rw [calculate_eq_runRead, Reading.read_eq_ok_iff.mpr h]
  rfl

/-- A sentence stands for a statement with all `let` bodies as long as possible, and calculating it
is running that statement. -/
theorem exists_statement (h : IsSentence input) :
    ∃ s, Sentence NoOperator (Token.scan input) s ∧
      ∀ (c : Calculator σ) (outcome : EStateM.Result (Halt Error) (Calculator σ) Value),
        calculate input c = outcome ↔ Runs c s outcome := by
  obtain ⟨_, hplain⟩ := h
  obtain ⟨s, hs⟩ := hplain.extend
  refine ⟨s, hs, fun c outcome => ?_⟩
  rw [calculate_of_sentence hs, runStatement_eq_iff]

/-- A line that is no sentence has no value: what was complete before the fault may halt, and else
the fault is reported. -/
theorem calculate_of_not_sentence (c : Calculator σ) (h : ¬ IsSentence input) :
    ∃ halt s, calculate input c = .error halt { c with sampler := s } ∧
      ((∃ cause, halt = Halt.map .eval cause) ∨ ∃ error, halt = .failed (.badSyntax error)) := by
  cases hread : Statement.read input with
  | ok s => exact absurd ⟨s, (Reading.read_eq_ok_iff.mp hread).weaken⟩ h
  | error breakoff =>
      have hrun : calculate input c = (do
          evaluate (perform c.globals [] breakoff.work)
          Attempt.fail (.badSyntax breakoff.error) : Calculation σ Value) c := by
        rw [calculate_eq_runRead, hread]
        rfl
      rw [hrun]
      cases hwork : perform c.globals [] breakoff.work c.sampler with
      | ok _ s =>
          refine ⟨_, s, ?_, .inr ⟨breakoff.error, rfl⟩⟩
          exact Attempt.bind_of_ok (evaluate_eq_ok_iff.mpr ⟨s, hwork, rfl⟩)
      | error cause s =>
          refine ⟨_, s, ?_, .inl ⟨cause, rfl⟩⟩
          exact Attempt.bind_of_error (evaluate_eq_error_iff.mpr ⟨cause, s, hwork, rfl, rfl⟩)

/-- A sentence stands for one statement, and calculating it is running that statement by the
rules: with the same outcome, the same draws and notes in the same order, the same source and the
same variables. -/
theorem calculate_sentence_runs (h : IsSentence input) :
    ∃ s, Sentence NoOperator (Token.scan input) s ∧
      (∀ s', Sentence NoOperator (Token.scan input) s' → s' = s) ∧
      ∀ (c : Calculator σ) (outcome : EStateM.Result (Halt Error) (Calculator σ) Value),
        calculate input c = outcome ↔ Runs c s outcome := by
  obtain ⟨s, hs, hruns⟩ := exists_statement (σ := σ) h
  refine ⟨s, hs, fun s' hs' => ?_, hruns⟩
  have hread := Reading.read_eq_ok_iff.mpr hs
  rw [Reading.read_eq_ok_iff.mpr hs'] at hread
  exact Except.ok.inj hread

/-- The dice of an unused `let` are thrown all the same. -/
theorem calculate_let_runs :
    IsSentence "let x = 2d6 in 3" ∧
    ∃ s, Sentence NoOperator (Token.scan "let x = 2d6 in 3") s ∧
      (∀ s', Sentence NoOperator (Token.scan "let x = 2d6 in 3") s' → s' = s) ∧
      ∀ (c : Calculator Script) (outcome : EStateM.Result (Halt Error) (Calculator Script) Value),
        calculate "let x = 2d6 in 3" c = outcome ↔ Runs c s outcome := by
  have hread : Statement.read "let x = 2d6 in 3" =
      .ok (.evaluate (.letIn "x" (.dice "2d6") (.literal (.int 3)))) := by decide +kernel
  have hinput : IsSentence "let x = 2d6 in 3" := ⟨_, (Reading.read_eq_ok_iff.mp hread).weaken⟩
  exact ⟨hinput, calculate_sentence_runs hinput⟩

/-- A line with a value is a sentence, and a line that is refused as bad syntax is none. Nothing
but evaluation stands between a sentence and its value. -/
theorem calculate_accepts_sentences (input : String) (c : Calculator σ) :
    (∀ value c', calculate input c = .ok value c' → IsSentence input) ∧
    (∀ error c', calculate input c = .error (.failed (.badSyntax error)) c' →
      ¬ IsSentence input) ∧
    (∀ halt c', IsSentence input → calculate input c = .error halt c' →
      ∃ cause, halt = Halt.map .eval cause) ∧
    (¬ IsSentence input → ∃ halt c', calculate input c = .error halt c' ∧
      ((∃ cause, halt = Halt.map .eval cause) ∨ ∃ error, halt = .failed (.badSyntax error))) := by
  have hsentence : ∀ halt c', IsSentence input → calculate input c = .error halt c' →
      ∃ cause, halt = Halt.map .eval cause := by
    intro halt c' hinput hcalculate
    obtain ⟨s, -, hruns⟩ := exists_statement (σ := σ) hinput
    cases (hruns c _).mp hcalculate with
    | halt hhalt => exact ⟨_, rfl⟩
  refine ⟨?_, ?_, hsentence, ?_⟩
  · intro value c' hcalculate
    by_contra hnot
    obtain ⟨halt, s, hhalt, -⟩ := calculate_of_not_sentence c hnot
    rw [hhalt] at hcalculate
    cases hcalculate
  · intro error c' hcalculate hinput
    obtain ⟨cause, hcause⟩ := hsentence _ _ hinput hcalculate
    cases cause with
    | failed e => cases hcause
    | unfinished => cases hcause
  · intro hnot
    obtain ⟨halt, s, hhalt, hcause⟩ := calculate_of_not_sentence c hnot
    exact ⟨halt, _, hhalt, hcause⟩

/-! ## What happens to the variables -/

/-- A line that halts leaves the variables as they were. -/
theorem globals_of_error {halt : Halt Error} (h : calculate input c = .error halt c') :
    c'.globals = c.globals := by
  by_cases hinput : IsSentence input
  · obtain ⟨s, -, hruns⟩ := exists_statement (σ := σ) hinput
    cases (hruns c _).mp h with
    | halt hhalt => rfl
  · obtain ⟨halt', s, hhalt, -⟩ := calculate_of_not_sentence c hinput
    rw [hhalt] at h
    cases h
    rfl

/-- A line with a value stands for a statement that ran to its end. -/
theorem runs_of_ok {value : Value} (h : calculate input c = .ok value c') :
    ∃ s, Sentence NoOperator (Token.scan input) s ∧ Runs c s (.ok value c') := by
  by_cases hinput : IsSentence input
  · obtain ⟨s, hs, hruns⟩ := exists_statement (σ := σ) hinput
    exact ⟨s, hs, (hruns c _).mp h⟩
  · obtain ⟨halt', s, hhalt, -⟩ := calculate_of_not_sentence c hinput
    rw [hhalt] at h
    cases h

/-- An assignment begins with `set`. -/
theorem first_of_assign {ts : List Token} {name : String} {e : Expr}
    (h : Sentence NoOperator ts (.assign name e)) : ∃ word ∈ ts.head?, word.kind = .setWord := by
  cases h with
  | assign hword => exact ⟨_, rfl, hword⟩

/-- Whatever begins with `set` is an assignment. -/
theorem assign_of_first {word : Token} {rest : List Token} {s : Statement}
    (h : Sentence NoOperator (word :: rest) s) (hword : word.kind = .setWord) :
    ∃ name ts e, rest = name :: ts ∧ name.kind = .variable ∧ Phrase NoOperator .expr ts e [] ∧
      s = .assign name.text e := by
  cases h with
  | evaluate he =>
      obtain ⟨t, ts, hts, hset, -⟩ := Reading.exists_first he
      obtain ⟨rfl, -⟩ := List.cons.inj hts
      exact absurd hword hset
  | assign _ hname he => exact ⟨_, _, _, rfl, hname, he, rfl⟩
  | quantity hopen =>
      rw [hword] at hopen
      cases hopen

/-- Only a line that begins with `set` and has a value changes a variable, and only the one that it
names. Its expression is evaluated on the variables as they were before. -/
theorem calculate_globals (input : String) (c : Calculator σ) :
    (∀ halt c', calculate input c = .error halt c' → c'.globals = c.globals) ∧
    (∀ value c', calculate input c = .ok value c' →
      (∀ first ∈ (Token.scan input).head?, first.kind ≠ .setWord) → c'.globals = c.globals) ∧
    (∀ value c' word rest, calculate input c = .ok value c' → Token.scan input = word :: rest →
      word.kind = .setWord →
      ∃ name ts e v s, rest = name :: ts ∧ name.kind = .variable ∧
        Phrase NoOperator .expr ts e [] ∧ Expr.Yields c.globals [] e c.sampler v s ∧
        value = .plain v ∧ c'.globals = Dictionary.put name.text v c.globals ∧
        Dictionary.find? name.text c'.globals = some v ∧
        ∀ other ≠ name.text,
          Dictionary.find? other c'.globals = Dictionary.find? other c.globals) := by
  refine ⟨fun halt c' => globals_of_error, ?_, ?_⟩
  · intro value c' hcalculate hfirst
    obtain ⟨s, hs, hruns⟩ := runs_of_ok hcalculate
    cases hruns with
    | evaluate => rfl
    | quantity => rfl
    | assign =>
        obtain ⟨word, hmem, hword⟩ := first_of_assign hs
        exact absurd hword (hfirst word hmem)
  · intro value c' word rest hcalculate hscan hword
    obtain ⟨s, hs, hruns⟩ := runs_of_ok hcalculate
    rw [hscan] at hs
    obtain ⟨name, ts, e, rfl, hname, he, rfl⟩ := assign_of_first hs hword
    cases hruns with
    | assign hvalue =>
        refine ⟨name, ts, e, _, _, rfl, hname, he, hvalue, rfl, rfl, ?_, ?_⟩
        · exact Dictionary.find?_put_self _ _ _
        · exact fun other hother => Dictionary.find?_put_of_ne hother.symm _ _

end Calculator

end Tabletop
