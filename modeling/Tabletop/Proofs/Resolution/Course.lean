/-
# The course of a resolution

A resolution goes from stage to stage. A stage is a table to roll on, with the modifier that counts
for the roll and the calculator as it is before it. A roll at a stage either ends the resolution,
with a result or by halting, or redirects it to the next stage. So the resolution from a stage runs
a course of redirections, which ends after some number of them or goes on for ever.

None of this mentions a limit on redirections. The loop with a budget is shown to run along the
course for as long as its budget lasts.
-/

import Tabletop.Proofs.Evaluations
import Tabletop.Proofs.Resolution

namespace Tabletop.Table

variable {σ : Type}

/-- How a resolution ends, and the calculator that it leaves. -/
abbrev Outcome (σ : Type) : Type :=
  EStateM.Result (Halt Error) (Calculator σ) Result

/-- Where a resolution stands: before a roll on a table. -/
structure Stage (σ : Type) where
  table : Table
  /-- What is added to the roll. -/
  modifier : Int64
  calculator : Calculator σ

variable [RandomSource σ]

namespace Stage

/-- The outcome of the roll at a stage. -/
def roll (s : Stage σ) : EStateM.Result (Halt Error) (Calculator σ) (Result ⊕ Table) :=
  s.table.rollOnce s.modifier s.calculator

/-- The roll at `s` redirects by `lead`, and `next` is the stage that follows. -/
structure Step (s : Stage σ) (lead : Lead) (next : Stage σ) : Prop where
  roll : s.roll = .ok (.inr next.table) next.calculator
  lead : ∃ number rolled, s.table.rollDice s.modifier s.calculator = .ok number rolled ∧
    s.table.select number = .ok lead
  modifier : next.modifier = 0

/-- The roll at `s` ends the resolution. -/
inductive Stops (s : Stage σ) : Outcome σ → Prop
  | result {r : Result} {c : Calculator σ} : s.roll = .ok (.inl r) c → Stops s (.ok r c)
  | halt {halt : Halt Error} {c : Calculator σ} : s.roll = .error halt c → Stops s (.error halt c)

/-- `s.Course leads last`: from `s`, the redirections `leads` lead to `last`. -/
inductive Course : Stage σ → List Lead → Stage σ → Prop
  | here {s : Stage σ} : Course s [] s
  | step {s mid last : Stage σ} {lead : Lead} {leads : List Lead} :
      s.Step lead mid → Course mid leads last → Course s (lead :: leads) last

/-- Without a limit, the resolution from `s` ends after `k` redirections. -/
def Ends (s : Stage σ) (k : Nat) (outcome : Outcome σ) : Prop :=
  ∃ leads last, s.Course leads last ∧ leads.length = k ∧ last.Stops outcome

/-- Without a limit, the resolution from `s` follows redirections for ever. -/
def Endless (s : Stage σ) : Prop :=
  ∀ k, ∃ leads last, s.Course leads last ∧ leads.length = k

/-- After `k` redirections the resolution from `s` stands at `last`, where the roll asks for one
more and leaves the calculator `c`. -/
def Exceeds (s : Stage σ) (k : Nat) (last : Stage σ) (c : Calculator σ) : Prop :=
  ∃ leads lead next, s.Course leads last ∧ leads.length = k ∧ last.Step lead next ∧
    next.calculator = c

/-- The loop with a budget, from a stage. -/
def follow (s : Stage σ) (exhausted : Table → Halt Error) (budget : Nat) : Outcome σ :=
  s.table.follow exhausted budget s.modifier s.calculator

variable {s mid next last : Stage σ} {lead : Lead} {leads : List Lead} {outcome : Outcome σ}
  {k budget : Nat} {exhausted : Table → Halt Error} {c : Calculator σ}

/-! ## One roll -/

theorem of_roll_inr {t : Table} (h : s.roll = .ok (.inr t) c) : ∃ lead, s.Step lead ⟨t, 0, c⟩ := by
  obtain ⟨number, rolled, lead, hroll, hselect, -⟩ := rollOnce_eq_ok_iff.mp h
  exact ⟨lead, h, ⟨number, rolled, hroll, hselect⟩, rfl⟩

/-- The lead of a step is the one that the program redirects by. -/
theorem Step.redirect (h : s.Step lead next) : s.table.redirect lead = .ok (.inr next.table) := by
  obtain ⟨hrun, ⟨number, rolled, hroll, hselect⟩, -⟩ := h
  obtain ⟨number', rolled', lead', hroll', hselect', -, hredirect⟩ := rollOnce_eq_ok_iff.mp hrun
  rw [hroll] at hroll'
  cases hroll'
  rw [hselect] at hselect'
  cases hselect'
  exact hredirect

/-- A redirection stays on the table, or goes to one nested in it under the name that the lead
gives. -/
theorem Step.cases (h : s.Step lead next) :
    lead = .again ∧ next.table = s.table ∨
      ∃ name, lead = .descend name ∧ s.table.subtable? name = some next.table := by
  have hredirect := h.redirect
  cases lead with
  | done r => cases hredirect
  | again => exact .inl ⟨rfl, (Sum.inr.inj (Except.ok.inj hredirect)).symm⟩
  | descend name =>
      refine .inr ⟨name, rfl, ?_⟩
      cases hsub : s.table.subtable? name with
      | none => rw [Table.redirect, hsub] at hredirect; cases hredirect
      | some sub =>
          rw [Table.redirect, hsub] at hredirect
          rw [Sum.inr.inj (Except.ok.inj hredirect)]

theorem stops_or_step (s : Stage σ) :
    (∃ outcome, s.Stops outcome) ∨ ∃ lead next, s.Step lead next := by
  cases hroll : s.roll with
  | ok out c =>
      cases out with
      | inl r => exact .inl ⟨_, .result hroll⟩
      | inr t =>
          obtain ⟨lead, hstep⟩ := of_roll_inr hroll
          exact .inr ⟨lead, _, hstep⟩
  | error halt c => exact .inl ⟨_, .halt hroll⟩

/-! ## Courses -/

theorem Course.snoc (h : s.Course leads mid) (hstep : mid.Step lead last) :
    s.Course (leads ++ [lead]) last := by
  induction h with
  | here => exact .step hstep .here
  | step hfirst _ ih => exact .step hfirst (ih hstep)

/-- A course that goes on beyond `k` redirections asks for one more after these. -/
theorem Course.exceeds (h : s.Course leads last) (hk : k < leads.length) :
    ∃ mid c, s.Exceeds k mid c := by
  induction h generalizing k with
  | here => cases hk
  | step hstep _ ih =>
      cases k with
      | zero => exact ⟨_, _, [], _, _, .here, rfl, hstep, rfl⟩
      | succ k =>
          obtain ⟨mid, c, leads, lead, next, hcourse, hlength, hnext, hc⟩ :=
            ih (Nat.lt_of_succ_lt_succ hk)
          exact ⟨mid, c, _ :: leads, lead, next, .step hstep hcourse, congrArg (· + 1) hlength,
            hnext, hc⟩

/-- After any number of redirections, a resolution has ended or asks for one more. -/
theorem ends_or_exceeds (s : Stage σ) (k : Nat) :
    (∃ j ≤ k, ∃ outcome, s.Ends j outcome) ∨ ∃ last c, s.Exceeds k last c := by
  induction k with
  | zero =>
      rcases s.stops_or_step with ⟨outcome, hstops⟩ | ⟨lead, next, hstep⟩
      · exact .inl ⟨0, Nat.le_refl 0, outcome, [], s, .here, rfl, hstops⟩
      · exact .inr ⟨s, next.calculator, [], lead, next, .here, rfl, hstep, rfl⟩
  | succ k ih =>
      rcases ih with ⟨j, hj, hends⟩ | ⟨last, c, leads, lead, next, hcourse, hlength, hstep, hc⟩
      · exact .inl ⟨j, Nat.le_succ_of_le hj, hends⟩
      · have hcourse' := hcourse.snoc hstep
        have hlength' : (leads ++ [lead]).length = k + 1 := by simp [hlength]
        rcases next.stops_or_step with ⟨outcome, hstops⟩ | ⟨lead', next', hstep'⟩
        · exact .inl ⟨k + 1, Nat.le_refl _, outcome, _, next, hcourse', hlength', hstops⟩
        · exact .inr ⟨next, _, _, lead', next', hcourse', hlength', hstep', rfl⟩

/-- Without a limit, a resolution ends or goes on for ever. -/
theorem ends_or_endless (s : Stage σ) : (∃ k outcome, s.Ends k outcome) ∨ s.Endless := by
  by_cases hends : ∃ k outcome, s.Ends k outcome
  · exact .inl hends
  · refine .inr fun k => ?_
    rcases s.ends_or_exceeds k with ⟨j, -, hj⟩ | ⟨last, c, leads, _, _, hcourse, hlength, -⟩
    · exact absurd ⟨j, hj⟩ hends
    · exact ⟨leads, last, hcourse, hlength⟩

theorem Ends.exceeds (h : s.Ends k outcome) {j : Nat} (hj : j < k) :
    ∃ last c, s.Exceeds j last c := by
  obtain ⟨leads, last, hcourse, rfl, -⟩ := h
  exact hcourse.exceeds hj

theorem Endless.exceeds (h : s.Endless) (k : Nat) : ∃ last c, s.Exceeds k last c := by
  obtain ⟨leads, last, hcourse, hlength⟩ := h (k + 1)
  exact hcourse.exceeds (hlength ▸ Nat.lt_succ_self k)

/-! ## The loop -/

theorem follow_of_stops (h : s.Stops outcome) : s.follow exhausted budget = outcome := by
  unfold follow Table.follow
  cases h with
  | result hroll => exact Attempt.bind_of_ok hroll
  | halt hroll => exact Attempt.bind_of_error hroll

theorem follow_zero_of_step (h : s.Step lead next) :
    s.follow exhausted 0 = .error (exhausted s.table) next.calculator := by
  unfold follow Table.follow
  exact Attempt.bind_of_ok h.roll

theorem follow_succ_of_step (h : s.Step lead next) :
    s.follow exhausted (budget + 1) = next.follow exhausted budget := by
  unfold follow
  rw [Table.follow, h.modifier]
  exact Attempt.bind_of_ok h.roll

/-- Following a course takes as much of the budget as there are redirections in it. -/
theorem Course.follow (h : s.Course leads last) (exhausted : Table → Halt Error) (rest : Nat) :
    s.follow exhausted (rest + leads.length) = last.follow exhausted rest := by
  induction h with
  | here => rfl
  | step hstep _ ih => exact (follow_succ_of_step hstep).trans ih

/-- A budget that suffices is not noticed. -/
theorem Ends.follow (h : s.Ends k outcome) (exhausted : Table → Halt Error) (hk : k ≤ budget) :
    s.follow exhausted budget = outcome := by
  obtain ⟨leads, last, hcourse, rfl, hstops⟩ := h
  rw [← Nat.sub_add_cancel hk, hcourse.follow]
  exact follow_of_stops hstops

/-- A budget that does not suffice is used up where one redirection too many is asked for. -/
theorem Exceeds.follow (h : s.Exceeds budget last c) (exhausted : Table → Halt Error) :
    s.follow exhausted budget = .error (exhausted last.table) c := by
  obtain ⟨leads, lead, next, hcourse, rfl, hstep, rfl⟩ := h
  rw [← Nat.zero_add leads.length, hcourse.follow]
  exact follow_zero_of_step hstep

end Stage

end Tabletop.Table
