/-
# The limit on redirections

A limit changes nothing but resolutions that would follow too many redirections. If the resolution
without a limit ends after no more redirections than the limit allows, the limited one has the same
outcome. Otherwise the limited one fails at the first redirection beyond the limit, and it names the
table that asked for it. Either way it rolls at most once more than it may be redirected.

That a resolution without a limit ends, or goes on for ever, is a statement about its course, which
no allowance of steps bounds. The resolution that runs without a limit follows the course for as
long as its patience lasts.
-/

import Tabletop.Proofs.Resolution.Course
import Tabletop.Proofs.Resolution.Failure

namespace Tabletop.Table.Stage

variable {σ : Type} [RandomSource σ] {s next last : Stage σ} {lead : Lead} {leads : List Lead}
  {outcome : Outcome σ} {k : Nat} {c : Calculator σ}

/-- The resolution from a stage, as it runs. -/
def resolve (s : Stage σ) (maxRedirects : Option Nat) : Outcome σ :=
  s.table.resolve maxRedirects s.modifier s.calculator

/-! ## Counting evaluations -/

theorem evaluations_roll (s : Stage σ) :
    (Attempt.final s.roll).evaluations =
      s.calculator.evaluations + if s.table.dice.isSome then 1 else 0 :=
  evaluations_rollOnce _ _ _

/-- A roll that redirects has evaluated one dice expression. -/
theorem Step.evaluations (h : s.Step lead next) :
    next.calculator.evaluations = s.calculator.evaluations + 1 := by
  obtain ⟨n, roll, ⟨dice, _, _, hdice, -⟩, -⟩ := of_rollOnce h.roll
  have hcount := evaluations_roll s
  rw [h.roll, hdice] at hcount
  exact hcount

theorem Course.evaluations (h : s.Course leads last) :
    last.calculator.evaluations = s.calculator.evaluations + leads.length := by
  induction h with
  | here => rfl
  | step hstep _ ih =>
      rw [ih, hstep.evaluations, List.length_cons]
      omega

/-- The last roll evaluates at most one dice expression. -/
theorem Stops.evaluations (h : s.Stops outcome) :
    (Attempt.final outcome).evaluations ≤ s.calculator.evaluations + 1 := by
  have hcount := evaluations_roll s
  have hone : (if s.table.dice.isSome then 1 else 0) ≤ 1 := by split <;> decide
  cases h with
  | result hroll => rw [hroll] at hcount; exact hcount.trans_le (Nat.add_le_add_left hone _)
  | halt hroll => rw [hroll] at hcount; exact hcount.trans_le (Nat.add_le_add_left hone _)

theorem Ends.evaluations (h : s.Ends k outcome) :
    (Attempt.final outcome).evaluations ≤ s.calculator.evaluations + (k + 1) := by
  obtain ⟨leads, last, hcourse, rfl, hstops⟩ := h
  have hlast := hstops.evaluations
  rw [hcourse.evaluations] at hlast
  exact hlast

theorem Exceeds.evaluations (h : s.Exceeds k last c) :
    c.evaluations = s.calculator.evaluations + (k + 1) := by
  obtain ⟨leads, lead, next, hcourse, rfl, hstep, rfl⟩ := h
  rw [hstep.evaluations, hcourse.evaluations]
  rfl

/-! ## Resolutions with a limit and without -/

/-- After `k` redirections, the evaluation of a dice expression never finishes. -/
def Stalls (s : Stage σ) (k : Nat) (c : Calculator σ) : Prop :=
  ∃ leads last dice before, s.Course leads last ∧ leads.length = k ∧
    last.table.dice = some dice ∧ last.calculator.Noted before ∧
    Calculator.number dice before = .error .unfinished c

/-- Nothing else keeps a resolution from finishing. -/
theorem Ends.stalls (h : s.Ends k (.error .unfinished c)) : s.Stalls k c := by
  obtain ⟨leads, last, hcourse, hlength, hstops⟩ := h
  cases hstops with
  | halt hroll =>
      generalize hhalt : (Halt.unfinished : Halt Error) = halt at hroll
      cases of_rollOnce_error hroll with
      | dice hdice hbefore hnumber =>
          subst hhalt
          exact ⟨leads, last, _, _, hcourse, hlength, hdice, hbefore, hnumber⟩
      | noDice | sum | noResult | noTable => cases hhalt

theorem Ends.resolve_none (h : s.Ends k outcome) (hk : k ≤ patience) :
    s.resolve none = outcome :=
  h.follow _ hk

theorem Ends.resolve_some (h : s.Ends k outcome) {limit : Nat} (hk : k ≤ limit) :
    s.resolve (some limit) = outcome :=
  h.follow _ hk

theorem Exceeds.resolve_none (h : s.Exceeds patience last c) :
    s.resolve none = .error .unfinished c :=
  h.follow _

theorem Exceeds.resolve_some {limit : Nat} (h : s.Exceeds limit last c) :
    s.resolve (some limit) = .error (.failed (.tooManyRedirects last.table.name limit)) c :=
  h.follow _

/-- A resolution has the outcome in which its course ends, unless it asks for more redirections than
it may follow. -/
theorem resolve_cases (s : Stage σ) (maxRedirects : Option Nat) :
    (∃ k, s.Ends k (s.resolve maxRedirects)) ∨
    (∃ limit last c, maxRedirects = some limit ∧ s.Exceeds limit last c ∧
      s.resolve maxRedirects = .error (.failed (.tooManyRedirects last.table.name limit)) c) ∨
    ∃ last c, maxRedirects = none ∧ s.Exceeds patience last c ∧
      s.resolve maxRedirects = .error .unfinished c := by
  cases maxRedirects with
  | none =>
      rcases s.ends_or_exceeds patience with ⟨k, hk, outcome, hends⟩ | ⟨last, c, hexceeds⟩
      · exact .inl ⟨k, hends.resolve_none hk ▸ hends⟩
      · exact .inr (.inr ⟨last, c, rfl, hexceeds, hexceeds.resolve_none⟩)
  | some limit =>
      rcases s.ends_or_exceeds limit with ⟨k, hk, outcome, hends⟩ | ⟨last, c, hexceeds⟩
      · exact .inl ⟨k, hends.resolve_some hk ▸ hends⟩
      · exact .inr (.inl ⟨limit, last, c, rfl, hexceeds, hexceeds.resolve_some⟩)

/-- The limit on redirections changes nothing but runaway resolutions. The limited resolution
evaluates at most one dice expression more than it may be redirected, and finishes if these
evaluations do. It has the outcome of the resolution without a limit if that ends within the limit,
and else fails where one redirection too many is asked for. -/
theorem resolve_limited (s : Stage σ) (limit : Nat) :
    (Attempt.final (s.resolve (some limit))).evaluations ≤
      s.calculator.evaluations + (limit + 1) ∧
    (∀ c, s.resolve (some limit) = .error .unfinished c → ∃ k ≤ limit, s.Stalls k c) ∧
    ((∃ k outcome, s.Ends k outcome) ∨ s.Endless) ∧
    (∀ k outcome, s.Ends k outcome → k ≤ patience → s.resolve none = outcome) ∧
    (s.Endless → ∃ c, s.resolve none = .error .unfinished c) ∧
    (∀ k outcome, s.Ends k outcome → k ≤ limit → s.resolve (some limit) = outcome) ∧
    ((∃ k outcome, s.Ends k outcome ∧ limit < k) ∨ s.Endless →
      ∃ last c, s.Exceeds limit last c ∧
        s.resolve (some limit) = .error (.failed (.tooManyRedirects last.table.name limit)) c ∧
        c.evaluations = s.calculator.evaluations + (limit + 1)) := by
  refine ⟨?_, ?_, s.ends_or_endless, fun _ _ hends hk => hends.resolve_none hk, ?_,
    fun _ _ hends hk => hends.resolve_some hk, ?_⟩
  · rcases s.ends_or_exceeds limit with ⟨k, hk, outcome, hends⟩ | ⟨last, c, hexceeds⟩
    · rw [hends.resolve_some hk]
      exact hends.evaluations.trans (by omega)
    · rw [hexceeds.resolve_some]
      exact hexceeds.evaluations.le
  · intro c hunfinished
    rcases s.ends_or_exceeds limit with ⟨k, hk, outcome, hends⟩ | ⟨last, c', hexceeds⟩
    · obtain rfl := (hends.resolve_some hk).symm.trans hunfinished
      exact ⟨k, hk, hends.stalls⟩
    · rw [hexceeds.resolve_some] at hunfinished
      cases hunfinished
  · intro hendless
    obtain ⟨last, c, hexceeds⟩ := hendless.exceeds patience
    exact ⟨c, hexceeds.resolve_none⟩
  · intro hrunaway
    have hexceeds : ∃ last c, s.Exceeds limit last c := by
      rcases hrunaway with ⟨k, outcome, hends, hk⟩ | hendless
      · exact hends.exceeds hk
      · exact hendless.exceeds limit
    obtain ⟨last, c, hexceeds⟩ := hexceeds
    exact ⟨last, c, hexceeds, hexceeds.resolve_some, hexceeds.evaluations⟩

end Tabletop.Table.Stage
