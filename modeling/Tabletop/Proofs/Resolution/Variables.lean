/-
# What a resolution does to the variables

The dice expression of a table is a line of input, and it may be one that begins with `set`. Such a
line assigns its variable as soon as its expression has a value. No later failure takes this back:
neither that of the sum with the modifier, nor that of finding an entry, nor one on a table that the
roll redirects to. So what a resolution does to the variables is what the rolls have assigned that
it came to, one after another, whether it returns or not.
-/

import Tabletop.Proofs.Resolution.Limit

namespace Tabletop

variable {σ α : Type}

/-! ## What a line assigns -/

/-- The variables after some assignments, the first of which comes first. -/
def Globals.assign (assignments : List (String × Number)) (globals : Globals) : Globals :=
  assignments.foldl (fun globals (name, x) => Dictionary.put name x globals) globals

namespace Calculator

/-- An evaluation assigns nothing. -/
theorem keeps_globals_evaluate (x : Evaluation σ α) :
    Attempt.Keeps Calculator.globals (evaluate x) := by
  intro c
  cases hrun : evaluate x c with
  | ok a c' =>
      obtain ⟨s, -, rfl⟩ := evaluate_eq_ok_iff.mp hrun
      rfl
  | error halt c' =>
      obtain ⟨cause, s, -, -, rfl⟩ := evaluate_eq_error_iff.mp hrun
      rfl

theorem keeps_globals_note (n : Note) :
    Attempt.Keeps Calculator.globals (note n : Calculation σ Unit) :=
  keeps_globals_evaluate _

end Calculator

variable [RandomSource σ]

theorem Globals.assign_append (first rest : List (String × Number)) (globals : Globals) :
    Globals.assign (first ++ rest) globals = Globals.assign rest (Globals.assign first globals) :=
  List.foldl_append

/-- What a statement assigns: the value of a `set` statement, if it has one. -/
def Statement.assignment? (c : Calculator σ) : Statement → Option (String × Number)
  | .assign name e => (Attempt.value? (e.eval c.globals [] c.sampler)).map (name, ·)
  | .evaluate _ | .quantity _ _ => none

namespace Calculator

/-- What a line assigns: a line that is no statement assigns nothing. -/
def assignment? (c : Calculator σ) (input : String) : Option (String × Number) :=
  match Statement.read input with
  | .ok s => s.assignment? c
  | .error _ => none

theorem keeps_globals_evalExpr (e : Expr) :
    Attempt.Keeps Calculator.globals (evalExpr e : Calculation σ Number) :=
  fun c => keeps_globals_evaluate (e.eval c.globals []) c

/-- A `set` statement assigns if its expression has a value, and other statements do not. -/
theorem globals_runStatement (s : Statement) (c : Calculator σ) :
    (Attempt.final (runStatement s c)).globals =
      Globals.assign (s.assignment? c).toList c.globals := by
  cases s with
  | evaluate e =>
      exact (keeps_globals_evalExpr e).bind
        (fun _ => (keeps_globals_note _).bind fun _ => .pure _) c
  | quantity amount unit =>
      exact (keeps_globals_evalExpr amount).bind
        (fun _ => (keeps_globals_note _).bind fun _ => .pure _) c
  | assign name e =>
      rw [Statement.assignment?]
      cases hrun : e.eval c.globals [] c.sampler with
      | ok x mid =>
          have hexpr : evalExpr e c = .ok x { c with sampler := mid } :=
            evaluate_eq_ok_iff.mpr ⟨mid, hrun, rfl⟩
          have hassign : runStatement (.assign name e) c = _ := Attempt.bind_of_ok hexpr
          rw [hassign]
          rfl
      | error cause mid =>
          have hexpr : evalExpr e c = .error (cause.map .eval) { c with sampler := mid } :=
            evaluate_eq_error_iff.mpr ⟨cause, mid, hrun, rfl, rfl⟩
          have hhalt : runStatement (.assign name e) c = _ := Attempt.bind_of_error hexpr
          rw [hhalt]
          rfl

/-- A line changes the variables by what it assigns. -/
theorem globals_calculate (input : String) (c : Calculator σ) :
    (Attempt.final (calculate input c)).globals =
      Globals.assign (c.assignment? input).toList c.globals := by
  rw [calculate_eq_runRead]
  unfold assignment?
  cases Statement.read input with
  | ok s => exact globals_runStatement s c
  | error b =>
      have hwork : Attempt.Keeps Calculator.globals
          (evaluate (perform c.globals [] b.work) : Calculation σ Unit) :=
        keeps_globals_evaluate _
      exact hwork.bind (fun _ => .throw _) c

theorem globals_number (input : String) (c : Calculator σ) :
    (Attempt.final (number input c)).globals =
      Globals.assign (c.assignment? input).toList c.globals := by
  rw [← globals_calculate]
  refine Attempt.Keeps.final_bind (fun value => ?_) _ c
  cases value with
  | plain x => exact .pure x
  | quantity amount unit => exact .throw _

/-- What is on record makes no difference to what a line assigns. -/
theorem assignment?_noted (n : Note) (c : Calculator σ) (input : String) :
    ({ c with sampler := c.sampler.noted n } : Calculator σ).assignment? input =
      c.assignment? input := by
  unfold assignment?
  cases Statement.read input with
  | error b => rfl
  | ok s =>
      cases s with
      | evaluate | quantity => rfl
      | assign name e =>
          have hblind : Blind (e.eval c.globals [] : Evaluation σ Number) :=
            Blind.of_additive (Additive.compositional.eval c.globals [] e)
          have hsame := (hblind (c.sampler.noted n) c.sampler rfl).value?_eq
          exact congrArg (Option.map (name, ·)) hsame

/-- Only a line that begins with `set` assigns. -/
theorem assignment?_eq_none {c : Calculator σ} {input : String}
    (h : ∀ first ∈ (Token.scan input).head?, first.kind ≠ .setWord) :
    c.assignment? input = none := by
  unfold assignment?
  cases hread : Statement.read input with
  | error b => rfl
  | ok s =>
      cases s with
      | evaluate | quantity => rfl
      | assign name e =>
          obtain ⟨word, hmem, hword⟩ := first_of_assign (Reading.read_eq_ok_iff.mp hread)
          exact absurd hword (h word hmem)

end Calculator

namespace Table

/-! ## What a roll assigns -/

/-- What a roll on a table assigns. -/
def assignment? (t : Table) (c : Calculator σ) : Option (String × Number) :=
  t.dice.bind c.assignment?

theorem globals_rollDice (t : Table) (modifier : Int64) (c : Calculator σ) :
    (Attempt.final (t.rollDice modifier c)).globals =
      Globals.assign (t.assignment? c).toList c.globals := by
  unfold rollDice assignment?
  cases t.dice with
  | none => rfl
  | some dice =>
      dsimp only
      rw [Attempt.bind_of_ok (Calculator.note_eq _ c), Option.bind_some,
        ← Calculator.assignment?_noted (.rolling t.name dice)]
      refine Eq.trans ?_ (Calculator.globals_number dice _)
      refine Attempt.Keeps.final_bind (fun x => ?_) _ _
      exact (Attempt.Keeps.ofExcept _).bind fun _ =>
        (Calculator.keeps_globals_note _).bind fun _ => .pure _

theorem globals_rollOnce (t : Table) (modifier : Int64) (c : Calculator σ) :
    (Attempt.final (t.rollOnce modifier c)).globals =
      Globals.assign (t.assignment? c).toList c.globals := by
  rw [← globals_rollDice t modifier c]
  refine Attempt.Keeps.final_bind (fun roll => ?_) _ c
  exact (Attempt.Keeps.ofExcept _).bind fun _ =>
    (Calculator.keeps_globals_note _).bind fun _ => .ofExcept _

namespace Stage

/-- What the roll at a stage assigns. -/
def assignment? (s : Stage σ) : Option (String × Number) :=
  s.table.assignment? s.calculator

/-- `s.Visits stages last`: from `s`, each of the rolls at `stages` redirects to the next stage, and
the last of them to `last`. -/
inductive Visits : Stage σ → List (Stage σ) → Stage σ → Prop
  | here {s : Stage σ} : Visits s [] s
  | step {s mid last : Stage σ} {lead : Lead} {stages : List (Stage σ)} :
      s.Step lead mid → Visits mid stages last → Visits s (s :: stages) last

variable {s mid next last : Stage σ} {lead : Lead} {leads : List Lead} {stages : List (Stage σ)}
  {outcome : Outcome σ} {k : Nat} {c : Calculator σ}

theorem Course.exists_visits (h : s.Course leads last) : ∃ stages, s.Visits stages last := by
  induction h with
  | here => exact ⟨[], .here⟩
  | step hstep _ ih =>
      obtain ⟨stages, hvisits⟩ := ih
      exact ⟨_, .step hstep hvisits⟩

theorem globals_roll (s : Stage σ) :
    (Attempt.final s.roll).globals = Globals.assign s.assignment?.toList s.calculator.globals :=
  globals_rollOnce _ _ _

theorem Step.globals (h : s.Step lead next) :
    next.calculator.globals = Globals.assign s.assignment?.toList s.calculator.globals := by
  rw [← globals_roll, h.roll]
  rfl

/-- The rolls on the way assign one after another. -/
theorem Visits.globals (h : s.Visits stages last) :
    last.calculator.globals =
      Globals.assign (stages.filterMap assignment?) s.calculator.globals := by
  induction h with
  | here => rfl
  | @step s _ _ _ stages hstep _ ih =>
      rw [ih, hstep.globals]
      cases hassign : s.assignment? with
      | none => rw [List.filterMap_cons_none hassign]; rfl
      | some assignment => rw [List.filterMap_cons_some hassign]; rfl

theorem Ends.exists_visits (h : s.Ends k outcome) :
    ∃ stages last, s.Visits stages last ∧ Attempt.final last.roll = Attempt.final outcome := by
  obtain ⟨leads, last, hcourse, -, hstops⟩ := h
  obtain ⟨stages, hvisits⟩ := hcourse.exists_visits
  cases hstops with
  | result hroll | halt hroll => exact ⟨stages, last, hvisits, by rw [hroll]; rfl⟩

theorem Exceeds.exists_visits (h : s.Exceeds k last c) :
    ∃ stages, s.Visits stages last ∧ Attempt.final last.roll = c := by
  obtain ⟨leads, lead, next, hcourse, -, hstep, rfl⟩ := h
  obtain ⟨stages, hvisits⟩ := hcourse.exists_visits
  exact ⟨stages, hvisits, by rw [hstep.roll]; rfl⟩

/-- A resolution leaves the calculator as the last of its rolls does, also when it fails because
that roll asks for one redirection too many. -/
theorem exists_visits (s : Stage σ) (maxRedirects : Option Nat) :
    ∃ stages last, s.Visits stages last ∧
      Attempt.final last.roll = Attempt.final (s.resolve maxRedirects) := by
  rcases s.resolve_cases maxRedirects with
    ⟨k, hends⟩ | ⟨limit, last, c, -, hexceeds, hrun⟩ | ⟨last, c, -, hexceeds, hrun⟩
  · exact hends.exists_visits
  · rw [hrun]
    obtain ⟨stages, hvisits, hlast⟩ := hexceeds.exists_visits
    exact ⟨stages, last, hvisits, hlast⟩
  · rw [hrun]
    obtain ⟨stages, hvisits, hlast⟩ := hexceeds.exists_visits
    exact ⟨stages, last, hvisits, hlast⟩

/-- All rolls that were made have assigned, the last one with the others. -/
theorem Visits.globals_roll (h : s.Visits stages last) :
    (Attempt.final last.roll).globals =
      Globals.assign ((stages ++ [last]).filterMap assignment?) s.calculator.globals := by
  rw [last.globals_roll, h.globals, List.filterMap_append, Globals.assign_append]
  cases hassign : last.assignment? with
  | none => rw [List.filterMap_cons_none hassign]; rfl
  | some assignment => rw [List.filterMap_cons_some hassign]; rfl

/-- Where no table sets a variable, nothing is assigned. -/
theorem assignments_eq_nil (h : ∀ s ∈ stages, ∀ dice ∈ s.table.dice,
      ∀ first ∈ (Token.scan dice).head?, first.kind ≠ .setWord) :
    stages.filterMap assignment? = [] := by
  apply List.filterMap_eq_nil_iff.mpr
  intro s hs
  apply Option.bind_eq_none_iff.mpr
  exact fun dice hdice => Calculator.assignment?_eq_none (h s hs dice hdice)

end Stage

/-! ## Resolutions that fail -/

/-- A resolution that fails leaves the variables as they were, but for what the `set` lines have
assigned that are the dice expressions of tables that it came to. -/
theorem failed_resolve_globals {t : Table} {maxRedirects : Option Nat} {modifier : Int64}
    {c c' : Calculator σ} {halt : Halt Error}
    (h : t.resolve maxRedirects modifier c = .error halt c') :
    ∃ stages last, Stage.Visits ⟨t, modifier, c⟩ stages last ∧ Attempt.final last.roll = c' ∧
      c'.globals =
        Globals.assign ((stages ++ [last]).filterMap Stage.assignment?) c.globals ∧
      ((∀ s ∈ stages ++ [last], ∀ dice ∈ s.table.dice,
          ∀ first ∈ (Token.scan dice).head?, first.kind ≠ .setWord) →
        c'.globals = c.globals) := by
  have hrun : Stage.resolve ⟨t, modifier, c⟩ maxRedirects = .error halt c' := h
  obtain ⟨stages, last, hvisits, hlast⟩ := Stage.exists_visits ⟨t, modifier, c⟩ maxRedirects
  rw [hrun] at hlast
  have hglobals : (Attempt.final last.roll).globals = _ := hvisits.globals_roll
  rw [hlast] at hglobals
  refine ⟨stages, last, hvisits, hlast, hglobals, fun hset => ?_⟩
  rw [Stage.assignments_eq_nil hset] at hglobals
  exact hglobals

/-- A table that sets a variable and then redirects to a table that does not exist. -/
def assigning : Table :=
  { blank "t" with
    dice := some "set x 5"
    rolls := some [.exact 5]
    results := some [.text "reroll:z"] }

theorem assigning_resolve :
    ∃ c', assigning.resolve none 0 idle = .error (.failed (.notFound .subtable "t.z")) c' ∧
      c'.globals = [("x", .int 5)] := by
  have hrun : Attempt.halt? (assigning.resolve none 0 idle) =
      some (.failed (.notFound .subtable "t.z")) := by decide +kernel
  have hglobals : (Attempt.final (assigning.resolve none 0 idle)).globals = [("x", .int 5)] := by
    decide +kernel
  obtain ⟨c', hresolve⟩ := Attempt.exists_of_halt? hrun
  rw [hresolve] at hglobals
  exact ⟨c', hresolve, hglobals⟩

/-- The resolution fails, but the variable that it has set stays set. -/
theorem assigning_changes_globals :
    ∃ c', assigning.resolve none 0 idle = .error (.failed (.notFound .subtable "t.z")) c' ∧
      c'.globals ≠ idle.globals := by
  obtain ⟨c', hresolve, hglobals⟩ := assigning_resolve
  refine ⟨c', hresolve, ?_⟩
  rw [hglobals]
  decide

theorem assigning_failed_globals :
    ∃ c', assigning.resolve none 0 idle = .error (.failed (.notFound .subtable "t.z")) c' ∧
      ∃ stages last, Stage.Visits ⟨assigning, 0, idle⟩ stages last ∧
        Attempt.final last.roll = c' ∧
        c'.globals =
          Globals.assign ((stages ++ [last]).filterMap Stage.assignment?) idle.globals ∧
        ((∀ s ∈ stages ++ [last], ∀ dice ∈ s.table.dice,
            ∀ first ∈ (Token.scan dice).head?, first.kind ≠ .setWord) →
          c'.globals = idle.globals) := by
  obtain ⟨c', hresolve, -⟩ := assigning_resolve
  exact ⟨c', hresolve, failed_resolve_globals hresolve⟩

end Table

end Tabletop
