/-
# Named redirections descend

A redirection by name goes to a nested table, so there are never more of these than tables can be
nested in each other. Only an entry that asks for the same table again can keep a resolution going:
without such entries every resolution ends after as many redirections as the table is high.
-/

import Tabletop.Proofs.Resolution.Limit

namespace Tabletop.Table

/-! ## Nested tables -/

mutual

/-- How many tables the longest chain of nested tables has below a table. -/
def height : Table → Nat
  | ⟨_, _, _, _, subtables⟩ => heights subtables

/-- The same below a table that nests these. -/
def heights : List (String × Table) → Nat
  | [] => 0
  | (_, sub) :: rest => max (sub.height + 1) (heights rest)

end

theorem height_lt_heights {name : String} {sub : Table} {subtables : List (String × Table)}
    (h : (name, sub) ∈ subtables) : sub.height < heights subtables := by
  induction subtables with
  | nil => cases h
  | cons entry rest ih =>
      obtain ⟨name', sub'⟩ := entry
      rw [heights]
      rcases List.mem_cons.mp h with heq | hmem
      · cases heq
        exact Nat.lt_of_lt_of_le (Nat.lt_succ_self _) (Nat.le_max_left _ _)
      · exact Nat.lt_of_lt_of_le (ih hmem) (Nat.le_max_right _ _)

theorem height_subtable? {t sub : Table} {name : String} (h : t.subtable? name = some sub) :
    sub.height < t.height := by
  obtain ⟨_, _, _, _, subtables⟩ := t
  exact height_lt_heights (Dictionary.mem_of_find? h)

/-- A table and all tables nested in it, at any depth. -/
inductive Within (t : Table) : Table → Prop
  | self : Within t t
  | nested {u sub : Table} {name : String} :
      Within t u → (name, sub) ∈ u.subtables → Within t sub

/-- Where only one table is nested and has none nested in it, there is no third one. -/
theorem Within.of_nested_once {t sub u : Table} {name : String} (ht : t.subtables = [(name, sub)])
    (hsub : sub.subtables = []) (h : t.Within u) : u = t ∨ u = sub := by
  induction h with
  | self => exact .inl rfl
  | nested _ hmem ih =>
      rcases ih with rfl | rfl
      · rw [ht, List.mem_singleton] at hmem
        exact .inr (congrArg Prod.snd hmem)
      · rw [hsub] at hmem
        cases hmem

/-- No entry of the tree asks for another roll on the same table. -/
def NoBareReroll (t : Table) : Prop :=
  ∀ u, t.Within u → ∀ results, u.results = some results → .text "reroll" ∉ results

/-- The lead names the table to roll on next. -/
def Lead.isNamed : Lead → Bool
  | .descend _ => true
  | _ => false

variable {σ : Type} [RandomSource σ]

namespace Stage

variable {s next last : Stage σ} {lead : Lead} {leads : List Lead} {t : Table}

theorem Step.within (h : s.Step lead next) (hs : t.Within s.table) : t.Within next.table := by
  rcases h.cases with ⟨-, hsame⟩ | ⟨name, -, hsub⟩
  · rw [hsame]
    exact hs
  · exact .nested hs (Dictionary.mem_of_find? hsub)

/-- One step goes down if it is named, and else stays where it is. -/
theorem Step.height_add_le (h : s.Step lead next) :
    (if lead.isNamed then 1 else 0) + next.table.height ≤ s.table.height := by
  rcases h.cases with ⟨rfl, hsame⟩ | ⟨name, rfl, hsub⟩
  · rw [hsame]
    exact (Nat.zero_add _).le
  · have hlt := height_subtable? hsub
    exact (Nat.add_comm _ _).trans_le hlt

/-- What was descended and what is left below never exceed the height at the beginning. -/
theorem Course.height_add_le (h : s.Course leads last) :
    leads.countP Lead.isNamed + last.table.height ≤ s.table.height := by
  induction h with
  | here => exact (Nat.zero_add _).le
  | step hstep _ ih =>
      have hfirst := hstep.height_add_le
      rw [List.countP_cons]
      omega

/-- The same table is rolled on again for an entry that asks for it. -/
theorem Step.bare (h : s.Step .again next) :
    ∃ results, s.table.results = some results ∧ .text "reroll" ∈ results := by
  obtain ⟨number, rolled, -, hselect⟩ := h.lead
  rcases of_select hselect with ⟨-, hdone⟩ | ⟨entry, hselects, hlead⟩
  · cases hdone
  · have hmeans := means_lead entry
    rw [← hlead] at hmeans
    cases hmeans with
    | again => exact hselects.mem

/-- Without entries that ask for the same table again, every redirection is named. -/
theorem Course.all_named (hbare : t.NoBareReroll) (hs : t.Within s.table)
    (h : s.Course leads last) : leads.countP Lead.isNamed = leads.length := by
  induction h with
  | here => rfl
  | step hstep _ ih =>
      rw [List.countP_cons, ih (hstep.within hs), List.length_cons]
      rcases hstep.cases with ⟨rfl, -⟩ | ⟨name, rfl, -⟩
      · obtain ⟨results, hresults, hmem⟩ := hstep.bare
        exact absurd hmem (hbare _ hs results hresults)
      · rfl

theorem Course.length_le_height (hbare : s.table.NoBareReroll) (h : s.Course leads last) :
    leads.length ≤ s.table.height := by
  have hheight := h.height_add_le
  rw [h.all_named hbare .self] at hheight
  omega

theorem exists_ends_of_noBareReroll (hbare : s.table.NoBareReroll) :
    ∃ k ≤ s.table.height, ∃ outcome, s.Ends k outcome := by
  rcases s.ends_or_exceeds s.table.height with
    hends | ⟨last, c, leads, lead, next, hcourse, hlength, hstep, -⟩
  · exact hends
  · have hlonger := (hcourse.snoc hstep).length_le_height hbare
    rw [List.length_append, hlength, List.length_singleton] at hlonger
    exact absurd hlonger (Nat.not_succ_le_self _)

/-- A resolution without a limit follows at most as many named redirections as its table is high,
whether or not it ends. If no table of the tree asks for itself again, it does end after at most
that many redirections, with at most one evaluation of a dice expression more. -/
theorem named_redirections_descend (s : Stage σ) :
    (∀ leads last, s.Course leads last → leads.countP Lead.isNamed ≤ s.table.height) ∧
    (s.table.NoBareReroll → ∃ k ≤ s.table.height, ∃ outcome, s.Ends k outcome ∧
      (Attempt.final outcome).evaluations ≤ s.calculator.evaluations + (s.table.height + 1) ∧
      (s.table.height ≤ patience → s.resolve none = outcome) ∧
      (∀ c, outcome = .error .unfinished c → s.Stalls k c)) := by
  constructor
  · intro leads last hcourse
    have hheight := hcourse.height_add_le
    omega
  · intro hbare
    obtain ⟨k, hk, outcome, hends⟩ := exists_ends_of_noBareReroll hbare
    refine ⟨k, hk, outcome, hends, hends.evaluations.trans (by omega), ?_, ?_⟩
    · exact fun hpatience => hends.resolve_none (hk.trans hpatience)
    · rintro c rfl
      exact hends.stalls

end Stage

/-! ## A table that redirects once -/

theorem noBareReroll_redirecting (number : String) : (redirecting number).NoBareReroll := by
  intro u hu results hresults hmem
  rcases hu.of_nested_once rfl rfl with rfl | rfl
  · cases hresults
    exact absurd (List.mem_singleton.mp hmem) (by decide)
  · cases hresults

theorem redirecting_descends :
    (redirecting "1.5").NoBareReroll ∧ ∃ k ≤ 1, ∃ outcome,
      (⟨redirecting "1.5", 0, idle⟩ : Stage Script).Ends k outcome ∧
        (redirecting "1.5").resolve none 0 idle = outcome := by
  have hbare := noBareReroll_redirecting "1.5"
  obtain ⟨-, hends⟩ := Stage.named_redirections_descend ⟨redirecting "1.5", 0, idle⟩
  obtain ⟨k, hk, outcome, hends, -, hresolve, -⟩ := hends hbare
  exact ⟨hbare, k, hk, outcome, hends, hresolve (by decide)⟩

end Tabletop.Table
