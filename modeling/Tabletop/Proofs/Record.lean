/-
# Nothing reads the record

What has been put on record never changes how a run goes on. Two samplers with the same source give
the same value or halt for the same reason, and leave the same source behind, whatever their
journals hold. This is shown for the parts of evaluations first, then for expressions and whole
lines.
-/

import Tabletop.Proofs.Calculation
import Tabletop.Proofs.Compositional

namespace Tabletop

variable {σ α β : Type}

/-! ## What an evaluation adds -/

/-- The outcome with `earlier` on record before everything else. -/
def recordedAfter (earlier : Array Event) :
    EStateM.Result (Halt EvalError) (Sampler σ) α → EStateM.Result (Halt EvalError) (Sampler σ) α
  | .ok a s => .ok a ⟨s.source, earlier ++ s.journal⟩
  | .error halt s => .error halt ⟨s.source, earlier ++ s.journal⟩

theorem recordedAfter_append (earlier later : Array Event)
    (outcome : EStateM.Result (Halt EvalError) (Sampler σ) α) :
    recordedAfter (earlier ++ later) outcome =
      recordedAfter earlier (recordedAfter later outcome) := by
  cases outcome with
  | ok a s | error halt s => simp only [recordedAfter, Array.append_assoc]

/-- The evaluation adds to the record, and the source alone decides how it ends and what it adds. -/
def Additive (x : Evaluation σ α) : Prop :=
  ∀ (source : σ) (journal : Array Event),
    x ⟨source, journal⟩ = recordedAfter journal (x ⟨source, #[]⟩)

namespace Additive

theorem pure (a : α) : Additive (Pure.pure a : Evaluation σ α) :=
  fun _ _ => rfl

theorem throw (halt : Halt EvalError) : Additive (MonadExcept.throw halt : Evaluation σ α) :=
  fun _ _ => rfl

theorem bind {x : Evaluation σ α} {f : α → Evaluation σ β} (hx : Additive x)
    (hf : ∀ a, Additive (f a)) : Additive (x >>= f) := by
  intro source journal
  have hfirst := hx source journal
  cases hrun : x ⟨source, #[]⟩ with
  | ok a mid =>
      rw [hrun] at hfirst
      rw [Attempt.bind_of_ok hfirst, Attempt.bind_of_ok hrun, hf a, recordedAfter_append, ← hf a]
  | error halt mid =>
      rw [hrun] at hfirst
      rw [Attempt.bind_of_error hfirst, Attempt.bind_of_error hrun]
      rfl

theorem record (event : Event) : Additive (Sampler.record event : Evaluation σ Unit) := by
  intro source journal
  have hrun : ∀ journal : Array Event,
      (Sampler.record event : Evaluation σ Unit) ⟨source, journal⟩ =
        .ok () ⟨source, journal.push event⟩ := fun _ => rfl
  rw [hrun, hrun, recordedAfter, Array.push_eq_append, List.push_toArray]
  rfl

theorem onSource (act : Attempt DrawError σ α) :
    Additive (Attempt.onPart Sampler.splitSource EvalError.draw act) := by
  intro source journal
  unfold Attempt.onPart Sampler.splitSource
  cases hact : act source with
  | ok a next => simp only [hact, recordedAfter, Array.append_empty]
  | error halt next => simp only [hact, recordedAfter, Array.append_empty]

theorem primitive (d : Draw) (act : Attempt DrawError σ α) : Additive (Sampler.primitive d act) :=
  (record (.draw d)).bind fun _ => onSource act

theorem compositional [RandomSource σ] : Compositional (σ := σ) Additive :=
  .of_primitive ⟨pure, throw, bind⟩ (fun d _ _ => primitive d _) fun _ => record _

end Additive

/-! ## The record is not read -/

/-- The outcomes of two evaluations agree in everything but the journal. -/
inductive SameOutcome :
    EStateM.Result (Halt EvalError) (Sampler σ) α →
    EStateM.Result (Halt EvalError) (Sampler σ) α → Prop
  | ok {a : α} {s s' : Sampler σ} : s.source = s'.source → SameOutcome (.ok a s) (.ok a s')
  | error {halt : Halt EvalError} {s s' : Sampler σ} :
      s.source = s'.source → SameOutcome (.error halt s) (.error halt s')

theorem SameOutcome.value?_eq {outcome outcome' : EStateM.Result (Halt EvalError) (Sampler σ) α}
    (h : SameOutcome outcome outcome') : Attempt.value? outcome = Attempt.value? outcome' := by
  cases h <;> rfl

/-- The evaluation does not depend on the journal. -/
def Blind (x : Evaluation σ α) : Prop :=
  ∀ s s' : Sampler σ, s.source = s'.source → SameOutcome (x s) (x s')

namespace Blind

theorem of_additive {x : Evaluation σ α} (hx : Additive x) : Blind x := by
  rintro ⟨source, journal⟩ ⟨_, journal'⟩ ⟨⟩
  rw [hx source journal, hx source journal']
  cases x ⟨source, #[]⟩ with
  | ok a s => exact .ok rfl
  | error halt s => exact .error rfl

variable [RandomSource σ]

/-- The value of an expression does not depend on the journal. -/
theorem yields {globals : Globals} {scope : Scope} {e : Expr} {value : Number}
    {s s' mid : Sampler σ} (h : Expr.Yields globals scope e s value mid)
    (hsource : s.source = s'.source) :
    ∃ mid', Expr.Yields globals scope e s' value mid' ∧ mid.source = mid'.source := by
  have hsame := of_additive (Additive.compositional.eval globals scope e) s s' hsource
  rw [Expr.eval_eq_ok_iff.mpr h] at hsame
  cases hrun : e.eval globals scope s' with
  | ok value' mid' =>
      rw [hrun] at hsame
      cases hsame with
      | ok hmid => exact ⟨mid', Expr.eval_eq_ok_iff.mp hrun, hmid⟩
  | error halt mid' => rw [hrun] at hsame; cases hsame

end Blind

/-! ## Draws -/

/-- The draw that an event puts on record, if it is one. -/
def Event.draw? : Event → Option Draw
  | .draw d => some d
  | .note _ => none

/-- The draws on record, from the first to the last. -/
def Sampler.draws (s : Sampler σ) : List Draw :=
  s.journal.toList.filterMap Event.draw?

/-- The draws on the record of a calculator. -/
def Calculator.draws (c : Calculator σ) : List Draw :=
  c.sampler.draws

theorem Sampler.draws_append (source : σ) (journal later : Array Event) :
    (⟨source, journal ++ later⟩ : Sampler σ).draws =
      (⟨source, journal⟩ : Sampler σ).draws ++ later.toList.filterMap Event.draw? := by
  rw [draws, draws, Array.toList_append, List.filterMap_append]

/-- A note is no draw. -/
@[simp]
theorem Sampler.draws_noted (s : Sampler σ) (n : Note) : (s.noted n).draws = s.draws := by
  rw [draws, noted, Array.toList_push, List.filterMap_append]
  exact List.append_nil _

theorem Sampler.primitive_of_ok {d : Draw} {act : Attempt DrawError σ α} {a : α} {s : Sampler σ}
    {part : σ} (h : act s.source = .ok a part) :
    primitive d act s = .ok a ⟨part, s.journal.push (.draw d)⟩ :=
  Attempt.bind_eq_ok_iff.mpr ⟨(), ⟨s.source, s.journal.push (.draw d)⟩, rfl,
    Attempt.onPart_eq_ok_iff.mpr ⟨part, h, rfl⟩⟩

/-- A draw that has a value is put on record once. -/
theorem Sampler.draws_primitive {d : Draw} {act : Attempt DrawError σ α} {a : α} {s s' : Sampler σ}
    (h : primitive d act s = .ok a s') : s'.draws = s.draws ++ [d] := by
  obtain ⟨_, mid, hrecord, h⟩ := Attempt.bind_eq_ok_iff.mp h
  cases hrecord
  obtain ⟨next, -, rfl⟩ := Attempt.onPart_eq_ok_iff.mp h
  simp only [Sampler.draws, Sampler.splitSource, Array.toList_push, List.filterMap_append]
  rfl

/-- A draw that halts was refused, unless the source itself does not come to an end. -/
theorem Sampler.halt_of_primitive {d : Draw} {act : Attempt DrawError σ α} {halt : Halt EvalError}
    {s last : Sampler σ} (h : primitive d act s = .error halt last) :
    halt = .unfinished ∨ ∃ cause, halt = .failed (.draw cause) := by
  rcases Attempt.bind_eq_error_iff.mp h with hrecord | ⟨_, mid, -, hdraw⟩
  · cases hrecord
  obtain ⟨cause, part, -, rfl, -⟩ := Attempt.onPart_eq_error_iff.mp hdraw
  cases cause with
  | failed cause => exact .inr ⟨cause, rfl⟩
  | unfinished => exact .inl rfl

/-- From the same source an expression has the same value and makes the same draws. -/
theorem Expr.Yields.resume [RandomSource σ] {globals : Globals} {scope : Scope} {e : Expr}
    {value : Number} {s t mid : Sampler σ} (h : Yields globals scope e s value mid)
    (hsource : s.source = t.source) (hdraws : s.draws = t.draws) :
    ∃ mid', Yields globals scope e t value mid' ∧ mid.source = mid'.source ∧
      mid.draws = mid'.draws := by
  obtain ⟨source, journal⟩ := s
  obtain ⟨_, journal'⟩ := t
  cases hsource
  have hadditive : Additive (e.eval globals scope : Evaluation σ Number) :=
    Additive.compositional.eval globals scope e
  rw [← eval_eq_ok_iff, hadditive] at h
  cases hrun : e.eval globals scope ⟨source, #[]⟩ with
  | ok x added =>
      rw [hrun] at h
      cases h
      refine ⟨⟨added.source, journal' ++ added.journal⟩, ?_, rfl, ?_⟩
      · rw [← eval_eq_ok_iff, hadditive, hrun]
        rfl
      · rw [Sampler.draws_append, Sampler.draws_append]
        exact congrArg (· ++ _) hdraws
  | error halt added =>
      rw [hrun] at h
      cases h

/-! ## Lines of input -/

/-- The calculators differ in what is on record only. -/
structure Calculator.Alike (c d : Calculator σ) : Prop where
  source : c.sampler.source = d.sampler.source
  globals : c.globals = d.globals
  initial : c.initial = d.initial

namespace Calculator.Alike

variable {c d e : Calculator σ}

theorem refl (c : Calculator σ) : c.Alike c :=
  ⟨rfl, rfl, rfl⟩

theorem symm (h : c.Alike d) : d.Alike c :=
  ⟨h.source.symm, h.globals.symm, h.initial.symm⟩

theorem trans (h : c.Alike d) (h' : d.Alike e) : c.Alike e :=
  ⟨h.source.trans h'.source, h.globals.trans h'.globals, h.initial.trans h'.initial⟩

variable [RandomSource σ] {c' : Calculator σ} {input : String}

/-- Alike calculators give a line the same value and stay alike. -/
theorem calculate {value : Value} (h : c.Alike d)
    (hrun : Calculator.calculate input c = .ok value c') :
    ∃ d', Calculator.calculate input d = .ok value d' ∧ c'.Alike d' := by
  obtain ⟨s, hs, hruns⟩ := runs_of_ok hrun
  obtain ⟨hsource, hglobals, hinitial⟩ := h
  have hd : ∀ {outcome}, Runs d s outcome → Calculator.calculate input d = outcome := by
    intro outcome hruns'
    rw [calculate_of_sentence hs, runStatement_eq_iff]
    exact hruns'
  cases hruns with
  | evaluate hvalue =>
      obtain ⟨mid, hvalue', hmid⟩ := Blind.yields hvalue hsource
      rw [hglobals] at hvalue'
      exact ⟨_, hd (.evaluate hvalue'), hmid, hglobals, hinitial⟩
  | assign hvalue =>
      obtain ⟨mid, hvalue', hmid⟩ := Blind.yields hvalue hsource
      rw [hglobals] at hvalue'
      exact ⟨_, hd (.assign hvalue'), hmid, congrArg (Dictionary.put _ _) hglobals, hinitial⟩
  | quantity hvalue =>
      obtain ⟨mid, hvalue', hmid⟩ := Blind.yields hvalue hsource
      rw [hglobals] at hvalue'
      exact ⟨_, hd (.quantity hvalue'), hmid, hglobals, hinitial⟩

end Calculator.Alike

namespace Calculator

variable [RandomSource σ] {c c' d : Calculator σ} {input : String} {n : Number}

/-- A plain number is the value of a line that gives no quantity. -/
theorem number_eq_ok_iff : number input c = .ok n c' ↔ calculate input c = .ok (.plain n) c' := by
  unfold number
  constructor
  · intro h
    obtain ⟨value, mid, hvalue, h⟩ := Attempt.bind_eq_ok_iff.mp h
    cases value with
    | plain m =>
        obtain ⟨rfl, rfl⟩ := Attempt.pure_eq_ok_iff.mp h
        exact hvalue
    | quantity amount unit => cases h
  · intro h
    exact Attempt.bind_of_ok h

/-- A literal is its own value. -/
theorem number_literal (h : Statement.read input = .ok (.evaluate (.literal n)))
    (c : Calculator σ) :
    number input c = .ok n { c with sampler := c.sampler.noted (.answered n) } := by
  apply number_eq_ok_iff.mpr
  rw [calculate_of_sentence (Reading.read_eq_ok_iff.mp h), runStatement_eq_iff]
  exact .evaluate .literal

theorem Alike.number (h : c.Alike d) (hrun : number input c = .ok n c') :
    ∃ d', number input d = .ok n d' ∧ c'.Alike d' := by
  obtain ⟨d', hd, halike⟩ := h.calculate (number_eq_ok_iff.mp hrun)
  exact ⟨d', number_eq_ok_iff.mpr hd, halike⟩

end Calculator

end Tabletop
