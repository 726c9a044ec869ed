/-
# How a roll on a table fails

A roll fails in one of five ways. Two of them have to do with numbers: the dice expression gives
none, or the modifier cannot be added to it. The other three are faults of the table: it has no
dice expression, no result at the place of the key that matches, or no nested table of the name
that a result gives.
-/

import Tabletop.Proofs.Resolution

namespace Tabletop

variable {σ : Type} [RandomSource σ]

/-- Why a line of input gives no plain number. -/
inductive Calculator.Denies (input : String) : Halt Error → Prop
  | eval (halt : Halt EvalError) : Denies input (halt.map .eval)
  | badSyntax (error : SyntaxError) : Denies input (.failed (.badSyntax error))
  | notPlain (unit : String) : Denies input (.failed (.notPlain input unit))

/-- A line that gives no number is refused, has no value or is a quantity. -/
theorem Calculator.denies_of_number {input : String} {halt : Halt Error} {c c' : Calculator σ}
    (h : number input c = .error halt c') : Denies input halt := by
  rcases Attempt.bind_eq_error_iff.mp h with hcalculate | ⟨value, mid, hcalculate, hrest⟩
  · by_cases hinput : Grammar.IsSentence input
    · obtain ⟨s, -, hruns⟩ := exists_statement (σ := σ) hinput
      cases (hruns c _).mp hcalculate with
      | halt => exact .eval _
    · obtain ⟨halt', s, hhalt, hcause⟩ := calculate_of_not_sentence c hinput
      rw [hhalt] at hcalculate
      cases hcalculate
      rcases hcause with ⟨cause, rfl⟩ | ⟨error, rfl⟩
      · exact .eval cause
      · exact .badSyntax error
  · cases value with
    | plain x => cases hrest
    | quantity amount unit =>
        cases hrest
        exact .notPlain unit

namespace Table

variable {t : Table} {modifier : Int64} {c c' : Calculator σ} {halt : Halt Error}

/-- The ways in which a roll on a table with a modifier fails. -/
inductive Fails (t : Table) (modifier : Int64) (c : Calculator σ) :
    Halt Error → Calculator σ → Prop
  | noDice : t.dice = none → Fails t modifier c (.failed (.notFound .dice t.name)) c
  | dice {dice : String} {before c' : Calculator σ} {halt : Halt Error} :
      t.dice = some dice → c.Noted before → Calculator.number dice before = .error halt c' →
      Fails t modifier c halt c'
  | sum {n : Number} {cause : ArithmeticError} {c' : Calculator σ} :
      t.Throws c n c' → n.add (.int modifier) = .error cause →
      Fails t modifier c (.failed (.eval (.arithmetic cause))) c'
  | noResult {n roll : Number} {rolls : List Key} {results : List Entry} {i : Nat}
      {c' : Calculator σ} :
      t.Throws c n c' → n.add (.int modifier) = .ok roll → t.rolls = some rolls →
      t.results = some results → i < rolls.length → results[i]? = none →
      Fails t modifier c (.failed (.misaligned roll i rolls.length results.length)) c'
  | noTable {n roll : Number} {name : String} {c' : Calculator σ} :
      t.Throws c n c' → n.add (.int modifier) = .ok roll →
      t.Selects roll (.text (redirectMark ++ name)) → t.subtable? name = none →
      Fails t modifier c (.failed (.notFound .subtable (t.name ++ "." ++ name))) c'

theorem of_rollDice_error (h : t.rollDice modifier c = .error halt c') :
    t.Fails modifier c halt c' := by
  cases hdice : t.dice with
  | none =>
      rw [rollDice, hdice] at h
      cases h
      exact .noDice hdice
  | some dice =>
      rw [rollDice, hdice] at h
      dsimp only at h
      rw [Attempt.bind_of_ok (Calculator.note_eq _ c)] at h
      have hbefore := Calculator.noted_note (.rolling t.name dice) c
      rcases Attempt.bind_eq_error_iff.mp h with hnumber | ⟨n, after, hn, hrest⟩
      · exact .dice hdice hbefore hnumber
      · rcases Attempt.bind_eq_error_iff.mp hrest with hsum | ⟨roll, mid, -, hnote⟩
        · obtain ⟨cause, hadd, rfl, rfl⟩ := Attempt.ofExcept_eq_error_iff.mp hsum
          exact .sum ⟨dice, _, _, hdice, hbefore, hn, .refl _⟩ hadd
        · rw [Attempt.bind_of_ok (Calculator.note_eq _ mid)] at hnote
          exact absurd hnote Attempt.pure_ne_error

theorem of_select_error {x : Number} {e : Error} (h : t.select x = .error e) :
    ∃ rolls results i, t.rolls = some rolls ∧ t.results = some results ∧ i < rolls.length ∧
      results[i]? = none ∧ e = .misaligned x i rolls.length results.length := by
  unfold select at h
  split at h
  · next rolls results hrolls hresults =>
    split at h
    · next i hfind =>
      obtain ⟨hi, -⟩ := List.findIdx?_eq_some_iff_getElem.mp hfind
      split at h
      · cases h
      · next hnone =>
        exact ⟨rolls, results, i, hrolls, hresults, hi, hnone, (Except.error.inj h).symm⟩
    · cases h
  · cases h

/-- A roll fails in no other way. -/
theorem of_rollOnce_error (h : t.rollOnce modifier c = .error halt c') :
    t.Fails modifier c halt c' := by
  rcases Attempt.bind_eq_error_iff.mp h with hdice | ⟨roll, mid, hroll, hrest⟩
  · exact of_rollDice_error hdice
  · obtain ⟨n, hthrows, hadd⟩ := of_rollDice hroll
    rcases Attempt.bind_eq_error_iff.mp hrest with hselect | ⟨lead, mid', hlead, hrest'⟩
    · obtain ⟨e, hselect', rfl, rfl⟩ := Attempt.ofExcept_eq_error_iff.mp hselect
      obtain ⟨rolls, results, i, hrolls, hresults, hi, hnone, rfl⟩ := of_select_error hselect'
      exact .noResult hthrows hadd hrolls hresults hi hnone
    · obtain ⟨hselect, rfl⟩ := Attempt.ofExcept_eq_ok_iff.mp hlead
      rw [Attempt.bind_of_ok (Calculator.note_eq _ mid')] at hrest'
      obtain ⟨e, hredirect, rfl, rfl⟩ := Attempt.ofExcept_eq_error_iff.mp hrest'
      have hthrows' := hthrows.note (Calculator.note_eq (.led t.name lead) mid')
      rcases of_select hselect with ⟨-, rfl⟩ | ⟨entry, hselects, rfl⟩
      · cases hredirect
      · have hmeans := means_lead entry
        generalize entry.lead = lead at hmeans hredirect hthrows'
        cases hmeans with
        | done => cases hredirect
        | again => cases hredirect
        | @descend name =>
            cases hsub : t.subtable? name with
            | none =>
                rw [redirect, hsub] at hredirect
                cases hredirect
                exact .noTable hthrows' hadd hselects hsub
            | some sub => rw [redirect, hsub] at hredirect; cases hredirect

end Table

end Tabletop
