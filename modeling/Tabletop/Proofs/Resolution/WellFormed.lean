/-
# Well-formed tables

A table is well formed if it and every table that its entries name, directly or through others, has
a dice expression, a result for each key and a nested table for each name. A resolution on such a
table never fails for want of one of these, whatever is rolled. What is left is a matter of numbers,
a dice expression that gives none or a modifier that cannot be added, and the limit on redirections.

The invariant is that a resolution stays among the tables that are named. Tables that no entry names
may be as faulty as they like.
-/

import Tabletop.Proofs.Resolution.Descent

namespace Tabletop

/-- Adding zero never fails. -/
theorem Number.add_zero_ne_error (n : Number) (cause : ArithmeticError) :
    n.add (.int 0) ≠ .error cause := by
  intro h
  by_cases hzero : n = .float (-0.0)
  · rw [hzero, negativeZero_add_zero] at h
    cases h
  · rw [add_zero_of_ne hzero] at h
    cases h

/-- Addition fails only where integers overflow. -/
theorem Number.overflow_of_add {m n : Number} {cause : ArithmeticError}
    (h : m.add n = .error cause) : cause = .overflow := by
  cases m with
  | float x => cases h
  | int m =>
      cases n with
      | float y => cases h
      | int n =>
          rw [add, checkedInt64] at h
          split at h
          · cases h
          · exact (Except.error.inj h).symm

namespace Table

/-- `u` is reached from the table through entries that name nested tables. -/
inductive Refers (t : Table) : Table → Prop
  | self : Refers t t
  | named {u sub : Table} {results : List Entry} {name : String} :
      Refers t u → u.results = some results → .text (redirectMark ++ name) ∈ results →
      u.subtable? name = some sub → Refers t sub

/-- Entries name nested tables only. -/
theorem Refers.within {t u : Table} (h : t.Refers u) : t.Within u := by
  induction h with
  | self => exact .self
  | named _ _ _ hsub ih => exact .nested ih (Dictionary.mem_of_find? hsub)

/-- An entry that names a table leads to it. -/
theorem descend_mem_leads {results : List Entry} {name : String}
    (h : .text (redirectMark ++ name) ∈ results) : .descend name ∈ results.map Entry.lead :=
  List.mem_map.mpr ⟨_, h, lead_of_means .descend⟩

/-- The table itself lacks nothing that a roll may need. -/
structure Complete (t : Table) : Prop where
  dice : ∃ dice, t.dice = some dice
  aligned : ∀ rolls results, t.rolls = some rolls → t.results = some results →
    rolls.length ≤ results.length
  nested : ∀ results name, t.results = some results → .text (redirectMark ++ name) ∈ results →
    ∃ sub, t.subtable? name = some sub

/-- No table that the entries name lacks anything. -/
def WellFormed (t : Table) : Prop :=
  ∀ u, t.Refers u → u.Complete

/-- A redirection stays among the tables that are named. -/
theorem Redirects.refers {t u sub : Table} {x : Number} (h : u.Redirects x sub)
    (hu : t.Refers u) : t.Refers sub := by
  cases h with
  | again => exact hu
  | descend hselects hsub =>
      obtain ⟨results, hresults, hmem⟩ := hselects.mem
      exact .named hu hresults hmem hsub

variable {σ : Type} [RandomSource σ] {t : Table} {halt : Halt Error} {c c' : Calculator σ}

/-- A complete table fails a roll only in matters of numbers. -/
theorem Fails.of_complete {modifier : Int64} (h : t.Fails modifier c halt c') (ht : t.Complete) :
    (∃ dice before, t.dice = some dice ∧ Calculator.number dice before = .error halt c') ∨
      halt = .failed (.eval (.arithmetic .overflow)) ∧
        ∃ n, t.Throws c n c' ∧ n.add (.int modifier) = .error .overflow := by
  cases h with
  | noDice hnone =>
      obtain ⟨dice, hdice⟩ := ht.dice
      rw [hnone] at hdice
      cases hdice
  | dice hdice _ hnumber => exact .inl ⟨_, _, hdice, hnumber⟩
  | sum hthrows hadd =>
      obtain rfl := Number.overflow_of_add hadd
      exact .inr ⟨rfl, _, hthrows, hadd⟩
  | noResult _ _ hrolls hresults hi hnone =>
      have haligned := ht.aligned _ _ hrolls hresults
      have hbeyond := List.getElem?_eq_none_iff.mp hnone
      omega
  | noTable _ _ hselects hnone =>
      obtain ⟨results, hresults, hmem⟩ := hselects.mem
      obtain ⟨sub, hsub⟩ := ht.nested results _ hresults hmem
      rw [hnone] at hsub
      cases hsub

namespace Stage

variable {s next last : Stage σ} {lead : Lead} {leads : List Lead} {k : Nat}

theorem Step.refers (h : s.Step lead next) (hs : t.Refers s.table) : t.Refers next.table := by
  obtain ⟨n, roll, -, -, hout⟩ := of_rollOnce h.roll
  rcases hout with ⟨r, hr, -⟩ | ⟨u, hu, hredirects⟩
  · cases hr
  · rw [Sum.inr.inj hu]
    exact hredirects.refers hs

theorem Course.refers (h : s.Course leads last) (hs : t.Refers s.table) :
    t.Refers last.table := by
  induction h with
  | here => exact hs
  | step hstep _ ih => exact ih (hstep.refers hs)

theorem Exceeds.refers (h : s.Exceeds k last c) : s.table.Refers last.table := by
  obtain ⟨leads, lead, next, hcourse, -⟩ := h
  exact hcourse.refers .self

/-- Only the first roll has a modifier. -/
theorem Course.modifier (h : s.Course leads last) : last = s ∨ last.modifier = 0 := by
  induction h with
  | here => exact .inl rfl
  | step hstep _ ih =>
      rcases ih with rfl | hzero
      · exact .inr hstep.modifier
      · exact .inr hzero

/-- A resolution halts in a matter of numbers: a table that is named has dice which give no plain
number, or the modifier cannot be added to the first number. -/
inductive Numeric (s : Stage σ) : Halt Error → Calculator σ → Prop
  | dice {u : Table} {dice : String} {before c : Calculator σ} {halt : Halt Error} :
      s.table.Refers u → u.dice = some dice → Calculator.number dice before = .error halt c →
      Calculator.Denies dice halt → Numeric s halt c
  | modifier {n : Number} {c : Calculator σ} :
      s.table.Throws s.calculator n c → n.add (.int s.modifier) = .error .overflow →
      Numeric s (.failed (.eval (.arithmetic .overflow))) c

/-- A matter of numbers is not a fault of the table. -/
theorem Numeric.not_fault (h : s.Numeric halt c) :
    (∀ wanted name, halt ≠ .failed (.notFound wanted name)) ∧
      ∀ roll index rolls results, halt ≠ .failed (.misaligned roll index rolls results) := by
  cases h with
  | modifier => exact ⟨nofun, nofun⟩
  | dice _ _ _ hdenies =>
      cases hdenies with
      | eval halt =>
          cases halt with
          | failed cause => exact ⟨nofun, nofun⟩
          | unfinished => exact ⟨nofun, nofun⟩
      | badSyntax error => exact ⟨nofun, nofun⟩
      | notPlain unit => exact ⟨nofun, nofun⟩

theorem Ends.numeric (hwf : s.table.WellFormed) (h : s.Ends k (.error halt c)) :
    s.Numeric halt c := by
  obtain ⟨leads, last, hcourse, -, hstops⟩ := h
  have hrefers := hcourse.refers .self
  cases hstops with
  | halt hroll =>
      rcases (of_rollOnce_error hroll).of_complete (hwf _ hrefers) with
        ⟨dice, before, hdice, hnumber⟩ | ⟨rfl, n, hthrows, hadd⟩
      · exact .dice hrefers hdice hnumber (Calculator.denies_of_number hnumber)
      · rcases hcourse.modifier with rfl | hzero
        · exact .modifier hthrows hadd
        · rw [hzero] at hadd
          exact absurd hadd (n.add_zero_ne_error _)

/-- A resolution on a well-formed table never fails for want of a dice expression, a result or a
nested table. If it halts, the reason is a matter of numbers or the limit on redirections. Without a
limit the first is the only one, except for running out of patience. -/
theorem wellFormed_never_faults (s : Stage σ) (h : s.table.WellFormed) :
    (∀ maxRedirects halt c, s.resolve maxRedirects = .error halt c →
      (∀ wanted name, halt ≠ .failed (.notFound wanted name)) ∧
      (∀ roll index rolls results, halt ≠ .failed (.misaligned roll index rolls results)) ∧
      (s.Numeric halt c ∨
        (∃ limit u, maxRedirects = some limit ∧ s.table.Refers u ∧
          halt = .failed (.tooManyRedirects u.name limit)) ∨
        maxRedirects = none ∧ halt = .unfinished ∧ ∃ last, s.Exceeds patience last c)) ∧
    (∀ k halt c, s.Ends k (.error halt c) → s.Numeric halt c) := by
  refine ⟨?_, fun k halt c => Ends.numeric h⟩
  intro maxRedirects halt c hresolve
  rcases s.resolve_cases maxRedirects with
    ⟨k, hends⟩ | ⟨limit, last, c', rfl, hexceeds, hfail⟩ | ⟨last, c', rfl, hexceeds, hfail⟩
  · rw [hresolve] at hends
    have hnumeric := hends.numeric h
    exact ⟨hnumeric.not_fault.1, hnumeric.not_fault.2, .inl hnumeric⟩
  · rw [hresolve] at hfail
    cases hfail
    exact ⟨nofun, nofun, .inr (.inl ⟨limit, last.table, rfl, hexceeds.refers, rfl⟩)⟩
  · rw [hresolve] at hfail
    cases hfail
    exact ⟨nofun, nofun, .inr (.inr ⟨rfl, rfl, last, hexceeds⟩)⟩

end Stage

/-! ## A table that redirects once -/

theorem wellFormed_redirecting (number : String) : (redirecting number).WellFormed := by
  intro u hu
  rcases hu.within.of_nested_once rfl rfl with rfl | rfl
  · refine ⟨⟨"1", rfl⟩, ?_, ?_⟩
    · rintro rolls results ⟨⟩ ⟨⟩
      exact Nat.le_refl 1
    · rintro results name ⟨⟩ hmem
      have hleads : [Entry.text "reroll:z"].map Entry.lead = [.descend "z"] := by decide +kernel
      have hlead := descend_mem_leads hmem
      rw [hleads, List.mem_singleton] at hlead
      cases hlead
      exact ⟨_, rfl⟩
  · exact ⟨⟨number, rfl⟩, nofun, nofun⟩

/-- The nested table shows a quantity, which is no plain number. -/
theorem redirecting_quantity :
    (redirecting "u(1, gold)").WellFormed ∧
    ∃ c, (redirecting "u(1, gold)").resolve none 0 idle =
        .error (.failed (.notPlain "u(1, gold)" "gold")) c ∧
      (⟨redirecting "u(1, gold)", 0, idle⟩ : Stage Script).Numeric
        (.failed (.notPlain "u(1, gold)" "gold")) c := by
  have hrun : Attempt.halt? ((redirecting "u(1, gold)").resolve none 0 idle) =
      some (.failed (.notPlain "u(1, gold)" "gold")) := by decide +kernel
  obtain ⟨c, hresolve⟩ := Attempt.exists_of_halt? hrun
  have hwf := wellFormed_redirecting "u(1, gold)"
  refine ⟨hwf, c, hresolve, ?_⟩
  obtain ⟨hhalts, -⟩ := Stage.wellFormed_never_faults ⟨redirecting "u(1, gold)", 0, idle⟩ hwf
  rcases (hhalts none _ c hresolve).2.2 with hnumeric | ⟨limit, u, hsome, -⟩ | ⟨-, hhalt, -⟩
  · exact hnumeric
  · cases hsome
  · cases hhalt

end Table

end Tabletop
