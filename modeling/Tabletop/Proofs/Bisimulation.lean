/-
# Sources that cannot be told apart

Two sources may differ inside and still give the same answers to all draws, now and after any
number of them. Nothing that a calculator does looks at a source other than by drawing from it, so
calculators with such sources, and with the same variables, give the same answers and put the same
on record, and when they are done their sources still cannot be told apart. What is on record
already makes no difference.
-/

import Tabletop.Catalog
import Tabletop.Proofs.Calculation
import Tabletop.Proofs.Compositional

namespace Tabletop

variable {σ α : Type}

/-! ## Sources -/

namespace RandomSource

variable [RandomSource σ]

/-- Related sources answer every draw alike and are related after it. -/
structure Bisimulation (T : σ → σ → Prop) : Prop where
  uniformFloat (lo hi : Float) {s t : σ} : T s t →
    ((uniformFloat lo hi).run s).1 = ((uniformFloat lo hi).run t).1 ∧
      T ((uniformFloat lo hi).run s).2 ((uniformFloat lo hi).run t).2
  uniformInt (lo hi : Int64) : Attempt.Respects T (uniformInt lo hi)
  gaussian (mean deviation : Float) : Attempt.Respects T (gaussian mean deviation)
  pareto (shape : Float) : Attempt.Respects T (pareto shape)

/-- No draws, however many, tell the sources apart. -/
def Indistinguishable (s t : σ) : Prop :=
  ∃ T : σ → σ → Prop, Bisimulation T ∧ T s t

/-- What one draw may leave behind, whether it fails or not. -/
inductive Draws : σ → σ → Prop
  | uniformFloat (lo hi : Float) (s : σ) : Draws s ((uniformFloat lo hi).run s).2
  | uniformInt (lo hi : Int64) (s : σ) : Draws s (Attempt.final (uniformInt lo hi s))
  | gaussian (mean deviation : Float) (s : σ) :
      Draws s (Attempt.final (gaussian mean deviation s))
  | pareto (shape : Float) (s : σ) : Draws s (Attempt.final (pareto shape s))

theorem Draws.exists_isDraw {s t : σ} (h : Draws s t) :
    ∃ (α : Type) (act : Attempt DrawError σ α), IsDraw act ∧ Attempt.final (act s) = t := by
  cases h with
  | uniformFloat lo hi => exact ⟨_, _, .uniformFloat lo hi, rfl⟩
  | uniformInt lo hi => exact ⟨_, _, .uniformInt lo hi, rfl⟩
  | gaussian mean deviation => exact ⟨_, _, .gaussian mean deviation, rfl⟩
  | pareto shape => exact ⟨_, _, .pareto shape, rfl⟩

namespace Bisimulation

variable {T U : σ → σ → Prop}

theorem respects (hT : Bisimulation T) {act : Attempt DrawError σ α} (h : IsDraw act) :
    Attempt.Respects T act := by
  cases h with
  | uniformFloat lo hi =>
      intro s t hst
      obtain ⟨hvalue, hstate⟩ := hT.uniformFloat lo hi hst
      change Attempt.SameAnswer T (.ok ((RandomSource.uniformFloat lo hi).run s).1 _) (.ok _ _)
      rw [hvalue]
      exact .ok hstate
  | uniformInt lo hi => exact hT.uniformInt lo hi
  | gaussian mean deviation => exact hT.gaussian mean deviation
  | pareto shape => exact hT.pareto shape

theorem eq : Bisimulation (Eq : σ → σ → Prop) where
  uniformFloat _ _ := by
    rintro s _ rfl
    exact ⟨rfl, rfl⟩
  uniformInt _ _ := .eq _
  gaussian _ _ := .eq _
  pareto _ := .eq _

theorem symm (h : Bisimulation T) : Bisimulation (fun s t => T t s) where
  uniformFloat lo hi _ _ hst :=
    have hdraw := h.uniformFloat lo hi hst
    ⟨hdraw.1.symm, hdraw.2⟩
  uniformInt lo hi := (h.uniformInt lo hi).symm
  gaussian mean deviation := (h.gaussian mean deviation).symm
  pareto shape := (h.pareto shape).symm

theorem trans (h : Bisimulation T) (h' : Bisimulation U) :
    Bisimulation (fun s u => ∃ t, T s t ∧ U t u) where
  uniformFloat lo hi _ _ := by
    rintro ⟨t, hst, htu⟩
    obtain ⟨hvalue, hstate⟩ := h.uniformFloat lo hi hst
    obtain ⟨hvalue', hstate'⟩ := h'.uniformFloat lo hi htu
    exact ⟨hvalue.trans hvalue', _, hstate, hstate'⟩
  uniformInt lo hi := (h.uniformInt lo hi).trans (h'.uniformInt lo hi)
  gaussian mean deviation := (h.gaussian mean deviation).trans (h'.gaussian mean deviation)
  pareto shape := (h.pareto shape).trans (h'.pareto shape)

end Bisimulation

namespace Indistinguishable

variable {s t u : σ}

theorem refl (s : σ) : Indistinguishable s s :=
  ⟨Eq, .eq, rfl⟩

theorem symm : Indistinguishable s t → Indistinguishable t s := by
  rintro ⟨T, hT, hst⟩
  exact ⟨_, hT.symm, hst⟩

theorem trans : Indistinguishable s t → Indistinguishable t u → Indistinguishable s u := by
  rintro ⟨T, hT, hst⟩ ⟨U, hU, htu⟩
  exact ⟨_, hT.trans hU, t, hst, htu⟩

end Indistinguishable

/-- Sources that cannot be told apart and of which something is known that draws do not change are
after each draw in the same case again. -/
theorem bisimulation_of_kept {p : σ → Prop} (hp : ∀ {s s'}, Draws s s' → p s → p s') :
    Bisimulation fun s t : σ => Indistinguishable s t ∧ p s ∧ p t where
  uniformFloat lo hi s t := by
    rintro ⟨⟨T, hT, hst⟩, hs, ht⟩
    obtain ⟨hvalue, hstate⟩ := hT.uniformFloat lo hi hst
    exact ⟨hvalue, ⟨T, hT, hstate⟩, hp (.uniformFloat lo hi s) hs, hp (.uniformFloat lo hi t) ht⟩
  uniformInt lo hi s t := by
    rintro ⟨⟨T, hT, hst⟩, hs, ht⟩
    have hdraw := hT.uniformInt lo hi s t hst
    exact hdraw.of_final ⟨⟨T, hT, hdraw.final⟩, hp (.uniformInt lo hi s) hs,
      hp (.uniformInt lo hi t) ht⟩
  gaussian mean deviation s t := by
    rintro ⟨⟨T, hT, hst⟩, hs, ht⟩
    have hdraw := hT.gaussian mean deviation s t hst
    exact hdraw.of_final ⟨⟨T, hT, hdraw.final⟩, hp (.gaussian mean deviation s) hs,
      hp (.gaussian mean deviation t) ht⟩
  pareto shape s t := by
    rintro ⟨⟨T, hT, hst⟩, hs, ht⟩
    have hdraw := hT.pareto shape s t hst
    exact hdraw.of_final ⟨⟨T, hT, hdraw.final⟩, hp (.pareto shape s) hs, hp (.pareto shape t) ht⟩

end RandomSource

/-! ## Samplers -/

/-- Samplers with related sources. What they have put on record since their journals were `j` and
`k` is the same. -/
structure Sampler.Twins (T : σ → σ → Prop) (j k : Array Event) (s t : Sampler σ) : Prop where
  source : T s.source t.source
  record : ∃ added, s.journal = j ++ added ∧ t.journal = k ++ added

namespace Sampler.Twins

variable {T : σ → σ → Prop} {j k : Array Event}

theorem record_respects (event : Event) :
    Attempt.Respects (Twins T j k) (Sampler.record event : Evaluation σ Unit) := by
  rintro ⟨s, journal⟩ ⟨t, journal'⟩ ⟨hsource, added, rfl, rfl⟩
  refine .ok ⟨hsource, added.push event, ?_, ?_⟩
  · exact Array.push_append ..
  · exact Array.push_append ..

theorem primitive_respects (d : Draw) {act : Attempt DrawError σ α} (h : Attempt.Respects T act) :
    Attempt.Respects (Twins T j k) (Sampler.primitive d act) := by
  refine (record_respects (.draw d)).bind fun _ => ?_
  refine h.onPart (fun s t hst => hst.source) fun s t hst p q hpq => ?_
  exact ⟨hpq, hst.record⟩

variable [RandomSource σ]

/-- Evaluations on samplers with related sources run alike. -/
theorem compositional (hT : RandomSource.Bisimulation T) :
    Compositional (σ := σ) (Attempt.Respects (Twins T j k)) :=
  .of_primitive (Attempt.Respects.sequential _)
    (fun d _ hact => primitive_respects d (hT.respects hact)) fun _ => record_respects _

end Sampler.Twins

/-! ## Calculators -/

/-- Calculators with related sources and the same variables, both made from `initial`. What they
have put on record since their journals were `j` and `k` is the same. -/
structure Calculator.Twins (T : σ → σ → Prop) (j k : Array Event) (initial : σ)
    (c d : Calculator σ) : Prop where
  sampler : c.sampler.Twins T j k d.sampler
  globals : c.globals = d.globals
  initial_left : c.initial = initial
  initial_right : d.initial = initial

namespace Calculator.Twins

variable {T : σ → σ → Prop} {j k : Array Event} {initial : σ}

theorem evaluate_respects {x : Evaluation σ α}
    (h : Attempt.Respects (Sampler.Twins T j k) x) :
    Attempt.Respects (Twins T j k initial) (evaluate x) :=
  h.onPart (fun _ _ hst => hst.sampler) fun _ _ hst _ _ hpq =>
    ⟨hpq, hst.globals, hst.initial_left, hst.initial_right⟩

theorem onGlobals_respects {x : Globals → Evaluation σ α}
    (h : ∀ globals, Attempt.Respects (Sampler.Twins T j k) (x globals)) :
    Attempt.Respects (Twins T j k initial) (onGlobals x) := by
  intro c d hcd
  have hrun : ∀ c, onGlobals x c = evaluate (x c.globals) c := fun _ => rfl
  rw [hrun, hrun, hcd.globals]
  exact evaluate_respects (h d.globals) c d hcd

theorem note_respects (n : Note) :
    Attempt.Respects (Twins T j k initial) (note n : Calculation σ Unit) :=
  evaluate_respects (Sampler.Twins.record_respects (.note n))

/-- Changing the variables in the same way keeps them the same. -/
theorem modify_respects (f : Globals → Globals) :
    Attempt.Respects (Twins T j k initial)
      (modify fun c => { c with globals := f c.globals } : Calculation σ Unit) := by
  intro c d hcd
  exact .ok ⟨hcd.sampler, congrArg f hcd.globals, hcd.initial_left, hcd.initial_right⟩

variable [RandomSource σ] (hT : RandomSource.Bisimulation T)
include hT

/-- Lines of input on twins run alike. -/
theorem linewise : Linewise (Attempt.Respects (Twins (σ := σ) T j k initial)) where
  toSequential := Attempt.Respects.sequential _
  onGlobals h := onGlobals_respects fun globals => h globals (Sampler.Twins.compositional hT)
  store name value := modify_respects (Dictionary.put name value)
  note _ := note_respects _

/-! ## Tables -/

theorem rollDice_respects (t : Table) (modifier : Int64) :
    Attempt.Respects (Twins T j k initial) (t.rollDice modifier : Calculation σ Number) := by
  unfold Table.rollDice
  cases t.dice with
  | none => exact .throw _
  | some dice =>
      exact (note_respects _).bind fun _ => ((linewise hT).number dice).bind fun _ =>
        (Attempt.Respects.ofExcept _).bind fun _ => (note_respects _).bind fun _ => .pure _

theorem rollOnce_respects (t : Table) (modifier : Int64) :
    Attempt.Respects (Twins T j k initial)
      (t.rollOnce modifier : Calculation σ (Table.Result ⊕ Table)) :=
  (rollDice_respects hT t modifier).bind fun _ => (Attempt.Respects.ofExcept _).bind fun _ =>
    (note_respects _).bind fun _ => .ofExcept _

theorem follow_respects (exhausted : Table → Halt Error) (budget : Nat) (t : Table)
    (modifier : Int64) :
    Attempt.Respects (Twins T j k initial)
      (Table.follow exhausted budget t modifier : Calculation σ Table.Result) := by
  induction budget generalizing t modifier with
  | zero =>
      rw [Table.follow]
      refine (rollOnce_respects hT t modifier).bind fun next => ?_
      cases next with
      | inl result => exact .pure result
      | inr next => exact .throw _
  | succ budget ih =>
      rw [Table.follow]
      refine (rollOnce_respects hT t modifier).bind fun next => ?_
      cases next with
      | inl result => exact .pure result
      | inr next => exact ih next 0

theorem resolve_respects (t : Table) (maxRedirects : Option Nat) (modifier : Int64) :
    Attempt.Respects (Twins T j k initial)
      (t.resolve maxRedirects modifier : Calculation σ Table.Result) := by
  cases maxRedirects with
  | none => exact follow_respects hT _ _ t modifier
  | some limit => exact follow_respects hT _ _ t modifier

theorem catalog_resolve_respects (catalog : Catalog) (path : String) (modifier : Int64) :
    Attempt.Respects (Twins T j k initial)
      (catalog.resolve path modifier : Calculation σ Table.Result) :=
  (Attempt.Respects.ofExcept _).bind fun t => resolve_respects hT t _ modifier

end Calculator.Twins

end Tabletop
