/-
# Tables that cover their dice

The dice of a table add up to some number of a range that its dice literal gives. A table covers its
dice if one of its keys matches whichever number of this range comes up. If all tables that the
entries name cover their dice, a resolution never falls through to a bare number and never fails for
want of anything: it comes to an entry that redirects nowhere, or follows redirections until there
are too many.
-/

import Tabletop.Proofs.DiceNotation
import Tabletop.Proofs.Resolution.WellFormed

namespace Tabletop.Table

/-- The dice of the table are a literal for a number of dice that may be thrown, and for each sum of
theirs there is a key that matches. -/
structure Covers (t : Table) (count sides : Nat) : Prop where
  complete : t.Complete
  dice : ∃ text, t.dice = some text ∧ Grammar.IsDice text count sides
  count_bounds : 1 ≤ count ∧ count ≤ 10000
  sides_bounds : 1 ≤ sides ∧ sides ≤ 2 ^ 32 - 1
  keys : ∃ rolls results, t.rolls = some rolls ∧ t.results = some results ∧
    ∀ n : Int64, count ≤ n.toInt → n.toInt ≤ count * sides →
      ∃ key ∈ rolls, key.matches (.int n) = true

/-- Every table that the entries name covers its dice. -/
def Covering (t : Table) : Prop :=
  ∀ u, t.Refers u → ∃ count sides, u.Covers count sides

variable {σ : Type} [RandomSource σ] {t : Table} {count sides : Nat} {c c' : Calculator σ}
  {x : Number} {n : Int64} {r : Result}

namespace Covers

/-- The dice show a sum of theirs. -/
theorem number_returns (h : t.Covers count sides) (hσ : RandomSource.Bounded σ) {dice : String}
    (hdice : t.dice = some dice) :
    (Calculator.number dice : Calculation σ Number).Returns fun x =>
      ∃ n : Int64, x = .int n ∧ count ≤ n.toInt ∧ n.toInt ≤ count * sides := by
  obtain ⟨text, htext, hliteral⟩ := h.dice
  obtain rfl := Option.some.inj (hdice.symm.trans htext)
  have hsize : sides < UInt32.size := Nat.lt_of_le_of_lt h.sides_bounds.2 (by decide)
  exact Calculator.returns_number_dice hσ hliteral h.count_bounds.1 h.count_bounds.2
    h.sides_bounds.1 hsize

theorem throws (h : t.Covers count sides) (hσ : RandomSource.Bounded σ) (hx : t.Throws c x c') :
    ∃ n : Int64, x = .int n ∧ count ≤ n.toInt ∧ n.toInt ≤ count * sides := by
  obtain ⟨dice, before, after, hdice, -, hnumber, -⟩ := hx
  obtain ⟨x', after', hnumber', hsum⟩ := h.number_returns hσ hdice before
  rw [hnumber] at hnumber'
  cases hnumber'
  exact hsum

theorem not_unlisted (h : t.Covers count sides) (hlo : count ≤ n.toInt)
    (hhi : n.toInt ≤ count * sides) : ¬ t.Unlisted (.int n) := by
  obtain ⟨rolls, results, hrolls, hresults, hkeys⟩ := h.keys
  obtain ⟨key, hkey, hmatch⟩ := hkeys n hlo hhi
  rintro (hnone | hnone | ⟨rolls', hrolls', hno⟩)
  · rw [hrolls] at hnone
    cases hnone
  · rw [hresults] at hnone
    cases hnone
  · obtain rfl := Option.some.inj (hrolls.symm.trans hrolls')
    rw [hno key hkey] at hmatch
    cases hmatch

/-- A roll without a modifier never fails. -/
theorem rollOnce_ne_error (h : t.Covers count sides) (hσ : RandomSource.Bounded σ)
    (halt : Halt Error) : t.rollOnce 0 c ≠ .error halt c' := by
  intro hroll
  rcases (of_rollOnce_error hroll).of_complete h.complete with
    ⟨dice, before, hdice, hnumber⟩ | ⟨-, n, -, hadd⟩
  · obtain ⟨x, after, hvalue, -⟩ := h.number_returns hσ hdice before
    rw [hnumber] at hvalue
    cases hvalue
  · exact n.add_zero_ne_error _ hadd

/-- A roll that ends with a result ends with an entry. -/
theorem exists_entry (h : t.Covers count sides) (hσ : RandomSource.Bounded σ)
    (hroll : t.rollOnce 0 c = .ok (.inl r) c') :
    ∃ (n : Int64) (e : Entry), t.Throws c (.int n) c' ∧ count ≤ n.toInt ∧
      n.toInt ≤ count * sides ∧ t.Selects (.int n) e ∧ StandsFor e r := by
  obtain ⟨x, roll, hthrows, hadd, hout⟩ := of_rollOnce hroll
  obtain ⟨n, rfl, hlo, hhi⟩ := h.throws hσ hthrows
  -- The keys see the sum itself, since it is an integer and the modifier is zero.
  have hplain : Number.add (.int n) (.int 0) = .ok (.int n) := Number.add_zero_of_ne nofun
  obtain rfl := Except.ok.inj (hplain.symm.trans hadd)
  rcases hout with ⟨r', hr, hanswers⟩ | ⟨next, hnext, -⟩
  · cases hr
    cases hanswers with
    | self hunlisted => exact absurd hunlisted (h.not_unlisted hlo hhi)
    | entry hselects hstands => exact ⟨n, _, hthrows, hlo, hhi, hselects, hstands⟩
  · cases hnext

end Covers

namespace Stage

variable {s : Stage σ} {k : Nat} {outcome : Outcome σ}

/-- The resolution ends with an entry that redirects nowhere. A table that is named lists it at the
first key that matches the number shown by the dice, which is a sum of theirs. -/
inductive Listed (s : Stage σ) : Outcome σ → Prop
  | entry {u : Table} {count sides : Nat} {before c : Calculator σ} {n : Int64} {e : Entry}
      {r : Result} :
      s.table.Refers u → u.Covers count sides → u.Throws before (.int n) c →
      count ≤ n.toInt → n.toInt ≤ count * sides → u.Selects (.int n) e → StandsFor e r →
      Listed s (.ok r c)

theorem Ends.listed (hσ : RandomSource.Bounded σ) (hmodifier : s.modifier = 0)
    (hcovering : s.table.Covering) (h : s.Ends k outcome) : s.Listed outcome := by
  obtain ⟨leads, last, hcourse, -, hstops⟩ := h
  have hrefers := hcourse.refers .self
  obtain ⟨count, sides, hcovers⟩ := hcovering _ hrefers
  -- The invariant of the course: the table is named and the modifier is zero.
  have hzero : last.modifier = 0 := by
    rcases hcourse.modifier with rfl | hzero
    · exact hmodifier
    · exact hzero
  cases hstops with
  | result hroll =>
      rw [roll, hzero] at hroll
      obtain ⟨n, e, hthrows, hlo, hhi, hselects, hstands⟩ := hcovers.exists_entry hσ hroll
      exact .entry hrefers hcovers hthrows hlo hhi hselects hstands
  | halt hroll =>
      rw [roll, hzero] at hroll
      exact absurd hroll (hcovers.rollOnce_ne_error hσ _)

/-- If all tables that are named cover their dice, a resolution without a modifier ends with an
entry whenever it ends, on every source whose integers stay in range. Nothing but the limit on
redirections stops it before, except for running out of patience without a limit. -/
theorem covering_resolves_to_entry (s : Stage σ) (hσ : RandomSource.Bounded σ)
    (hmodifier : s.modifier = 0) (hcovering : s.table.Covering) :
    (∀ k outcome, s.Ends k outcome → s.Listed outcome) ∧
    ∀ maxRedirects,
      s.Listed (s.resolve maxRedirects) ∨
      (∃ limit u c, maxRedirects = some limit ∧ s.table.Refers u ∧
        s.resolve maxRedirects = .error (.failed (.tooManyRedirects u.name limit)) c) ∨
      maxRedirects = none ∧ ∃ last c, s.Exceeds patience last c ∧
        s.resolve maxRedirects = .error .unfinished c := by
  refine ⟨fun k outcome => Ends.listed hσ hmodifier hcovering, fun maxRedirects => ?_⟩
  rcases s.resolve_cases maxRedirects with
    ⟨k, hends⟩ | ⟨limit, last, c, hsome, hexceeds, hfail⟩ | ⟨last, c, hnone, hexceeds, hfail⟩
  · exact .inl (hends.listed hσ hmodifier hcovering)
  · exact .inr (.inl ⟨limit, last.table, c, hsome, hexceeds.refers, hfail⟩)
  · exact .inr (.inr ⟨hnone, last, c, hexceeds, hfail⟩)

end Stage

/-! ## A table that covers its dice -/

/-- The table nested in the next one. -/
def gems : Table :=
  { blank "gems" with
    dice := some "1d1"
    rolls := some [.range 1 1]
    results := some [.text "ruby"] }

/-- One face of the die sends the roller on to a nested table. -/
def hoard : Table :=
  { blank "hoard" with
    dice := some "1d2"
    rolls := some [.exact 1, .exact 2]
    results := some [.text "reroll:gems", .text "gold"]
    subtables := [("gems", gems)] }

theorem covers_gems : gems.Covers 1 1 where
  complete := by
    refine ⟨⟨_, rfl⟩, ?_, ?_⟩
    · rintro rolls results ⟨⟩ ⟨⟩
      exact Nat.le_refl 1
    · rintro results name ⟨⟩ hmem
      have hleads : [Entry.text "ruby"].map Entry.lead = [.done (.text "ruby")] := by
        decide +kernel
      have hlead := descend_mem_leads hmem
      rw [hleads, List.mem_singleton] at hlead
      cases hlead
  dice := ⟨"1d1", rfl, ['1'], ['1'], ⟨nofun, List.forall_mem_singleton.mpr rfl⟩,
    ⟨nofun, List.forall_mem_singleton.mpr rfl⟩, rfl, rfl, rfl⟩
  count_bounds := by decide
  sides_bounds := by decide
  keys := by
    refine ⟨_, _, rfl, rfl, fun n hlo hhi => ?_⟩
    obtain rfl : n = 1 := Int64.toInt_inj.mp (Int.le_antisymm hhi hlo)
    exact ⟨.range 1 1, List.mem_singleton.mpr rfl, by decide⟩

theorem covers_hoard : hoard.Covers 1 2 where
  complete := by
    refine ⟨⟨_, rfl⟩, ?_, ?_⟩
    · rintro rolls results ⟨⟩ ⟨⟩
      exact Nat.le_refl 2
    · rintro results name ⟨⟩ hmem
      have hleads : [Entry.text "reroll:gems", .text "gold"].map Entry.lead =
          [.descend "gems", .done (.text "gold")] := by
        decide +kernel
      have hlead := descend_mem_leads hmem
      rw [hleads] at hlead
      rcases List.mem_cons.mp hlead with hgems | hgold
      · cases hgems
        exact ⟨gems, rfl⟩
      · cases List.mem_singleton.mp hgold
  dice := ⟨"1d2", rfl, ['1'], ['2'], ⟨nofun, List.forall_mem_singleton.mpr rfl⟩,
    ⟨nofun, List.forall_mem_singleton.mpr rfl⟩, rfl, rfl, rfl⟩
  count_bounds := by decide
  sides_bounds := by decide
  keys := by
    refine ⟨_, _, rfl, rfl, fun n hlo hhi => ?_⟩
    have hone : (1 : Int64).toInt = 1 := rfl
    have htwo : (2 : Int64).toInt = 2 := rfl
    obtain rfl | rfl : n = 1 ∨ n = 2 := by
      rw [← Int64.toInt_inj, ← Int64.toInt_inj]
      omega
    · exact ⟨.exact 1, List.mem_cons_self, by decide⟩
    · exact ⟨.exact 2, List.mem_cons_of_mem _ List.mem_cons_self, by decide⟩

theorem covering_hoard : hoard.Covering := by
  intro u hu
  rcases hu.within.of_nested_once rfl rfl with rfl | rfl
  · exact ⟨1, 2, covers_hoard⟩
  · exact ⟨1, 1, covers_gems⟩

/-- The first face redirects, and the nested table has one entry only. -/
theorem hoard_resolves_to_ruby :
    RandomSource.Bounded Script ∧ hoard.Covering ∧
    ∃ c, hoard.resolve none 0 idle = .ok (.text "ruby") c ∧
      (⟨hoard, 0, idle⟩ : Stage Script).Listed (.ok (.text "ruby") c) := by
  have hrun : Attempt.value? (hoard.resolve none 0 idle) = some (.text "ruby") := by
    decide +kernel
  obtain ⟨c, hresolve⟩ := Attempt.exists_of_value? hrun
  have hstage : (⟨hoard, 0, idle⟩ : Stage Script).resolve none = .ok (.text "ruby") c := hresolve
  refine ⟨Script.bounded, covering_hoard, c, hresolve, ?_⟩
  obtain ⟨-, hresolves⟩ :=
    Stage.covering_resolves_to_entry ⟨hoard, 0, idle⟩ Script.bounded rfl covering_hoard
  rcases hresolves none with hlisted | ⟨limit, u, c', hsome, -⟩ | ⟨-, last, c', -, hfail⟩
  · rw [← hstage]
    exact hlisted
  · cases hsome
  · rw [hstage] at hfail
    cases hfail

end Tabletop.Table
