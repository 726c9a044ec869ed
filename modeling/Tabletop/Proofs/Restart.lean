/-
# Starting over

A calculator that puts its source back to where it was in the beginning and forgets its variables
answers from then on like a new one, whatever was asked of it before and however that ended. Two
calculators are run side by side for this: nothing that is asked of them can tell sources apart that
answer all draws alike, and nothing but draws and putting it back has ever touched the source.
-/

import Tabletop.Proofs.Capture

namespace Tabletop

variable {σ : Type}

namespace Calculator

inductive Answer
  | value (v : Value)
  | number (n : Number)
  | dice (values : List Int64)
  | result (r : Table.Result)
  | integer (n : Int64)
  | float (x : Float)
  | stored (n : Option Number)
  | done
  deriving DecidableEq, Repr

/-- What may be asked of a calculator. -/
inductive Request (σ : Type) [RandomSource σ]
  | calculate (input : String)
  | number (input : String)
  | roll (dice : Dice) (spec : DiceSpec) (sorted : Bool)
  | resolve (t : Table) (maxRedirects : Option Nat) (modifier : Int64)
  | resolvePath (catalog : Catalog) (path : String) (modifier : Int64)
  /-- Draw from the source, in any way and as often as one likes. -/
  | draw (x : Evaluation σ Answer) (h : MadeOfDraws x)
  /-- Look at the variables, or change them. -/
  | edit (f : Globals → Answer × Globals)
  | reset

/-- The calculator with the state of its source put back as it was in the beginning. Variables
stay. -/
def resetBy (κ : Capture σ) (c : Calculator σ) : Calculator σ :=
  { c with sampler := { c.sampler with
      source := κ.restore (κ.state c.initial) c.sampler.source } }

@[simp]
theorem resetBy_copy (c : Calculator σ) : c.resetBy .copy = c.resetSource :=
  rfl

variable [RandomSource σ]

def comply (κ : Capture σ) : Request σ → Calculation σ Answer
  | .calculate input => .value <$> calculate input
  | .number input => .number <$> number input
  | .roll dice spec sorted => .dice <$> roll dice spec sorted
  | .resolve t maxRedirects modifier => .result <$> t.resolve maxRedirects modifier
  | .resolvePath catalog path modifier => .result <$> catalog.resolve path modifier
  | .draw x _ => evaluate x
  | .edit f => fun c => .ok (f c.globals).1 { c with globals := (f c.globals).2 }
  | .reset => fun c => .ok .done (c.resetBy κ)

/-- Comply with one request after another. A request that halts is answered with the reason, and the
next one goes on from the state in which it halted. -/
def complyAll (κ : Capture σ) :
    List (Request σ) → Calculator σ → List (Except (Halt Error) Answer) × Calculator σ
  | [], c => ([], c)
  | request :: requests, c =>
      let outcome := comply κ request c
      let (answers, last) := complyAll κ requests (Attempt.final outcome)
      (Attempt.answer outcome :: answers, last)

namespace Twins

variable {κ : Capture σ} {T : σ → σ → Prop} {j k : Array Event} {source : σ}
  (hT : RandomSource.Bisimulation T)
  (hreset : ∀ {s t}, T s t →
    T (κ.restore (κ.state source) s) (κ.restore (κ.state source) t))
include hT hreset

theorem comply_respects (request : Request σ) :
    Attempt.Respects (Twins T j k source) (comply κ request) := by
  cases request with
  | calculate input => exact ((linewise hT).calculate input).map _
  | number input => exact ((linewise hT).number input).map _
  | roll dice spec sorted =>
      refine (evaluate_respects ?_).map _
      exact (Sampler.Twins.compositional hT).roll dice spec sorted
  | resolve t maxRedirects modifier => exact (resolve_respects hT t maxRedirects modifier).map _
  | resolvePath catalog path modifier =>
      exact (catalog_resolve_respects hT catalog path modifier).map _
  | draw x h => exact evaluate_respects (h (Sampler.Twins.compositional hT))
  | edit f =>
      intro c d hcd
      have hsame : comply κ (.edit f) d =
          .ok (f c.globals).1 { d with globals := (f c.globals).2 } := by
        rw [hcd.globals]
        rfl
      rw [hsame]
      exact .ok ⟨hcd.sampler, rfl, hcd.initial_left, hcd.initial_right⟩
  | reset =>
      intro c d hcd
      refine .ok ⟨⟨?_, hcd.sampler.record⟩, hcd.globals, hcd.initial_left, hcd.initial_right⟩
      change T (κ.restore (κ.state c.initial) c.sampler.source)
        (κ.restore (κ.state d.initial) d.sampler.source)
      rw [hcd.initial_left, hcd.initial_right]
      exact hreset hcd.sampler.source

/-- By induction on the requests: twins give the same answers and stay twins. -/
theorem complyAll_same {c d : Calculator σ} (h : Twins T j k source c d)
    (requests : List (Request σ)) :
    (complyAll κ requests c).1 = (complyAll κ requests d).1 ∧
      Twins T j k source (complyAll κ requests c).2 (complyAll κ requests d).2 := by
  induction requests generalizing c d with
  | nil => exact ⟨rfl, h⟩
  | cons request requests ih =>
      have hstep := comply_respects hT hreset request c d h
      obtain ⟨hanswers, hlast⟩ := ih hstep.final
      exact ⟨congrArg₂ List.cons hstep.answer_eq hanswers, hlast⟩

end Twins

/-- Whatever was asked of it, a calculator that puts its source back and forgets its variables gives
the same answers to further requests as a new one, puts the same draws and notes on record, and ends
with the same variables and with a source that cannot be told apart. Putting the source back does
not touch the variables. -/
theorem restart_like_new (κ : Capture σ) (hκ : κ.Restores) (source : σ)
    (past later : List (Request σ)) :
    let used := (complyAll κ past (new source)).2
    let restarted : Calculator σ := { used.resetBy κ with globals := .empty }
    let again := complyAll κ later restarted
    let fresh := complyAll κ later (new source)
    again.1 = fresh.1 ∧
    again.2.sampler.journal = used.sampler.journal ++ fresh.2.sampler.journal ∧
    again.2.globals = fresh.2.globals ∧
    RandomSource.Indistinguishable again.2.sampler.source fresh.2.sampler.source ∧
    (used.resetBy κ).globals = used.globals := by
  intro used restarted again fresh
  -- Side by side with itself, the past says that its source was reached from the first one.
  have hnew : Twins (κ.Kin source) #[] #[] source (new source) (new source) :=
    ⟨⟨⟨.refl _, .start, .start⟩, #[], rfl, rfl⟩, rfl, rfl, rfl⟩
  have hused := (hnew.complyAll_same (κ.kin_bisimulation source) hκ.kin_restore past).2
  obtain ⟨-, hreached, -⟩ := hused.sampler.source
  have hsource : restarted.sampler.source = κ.restore (κ.state source) used.sampler.source := by
    rw [← hused.initial_left]
    rfl
  have hkin : κ.Kin source restarted.sampler.source source := by
    rw [hsource]
    exact hκ.kin_source hreached
  have hrestarted : Twins (κ.Kin source) used.sampler.journal #[] source restarted (new source) :=
    ⟨⟨hkin, #[], rfl, rfl⟩, rfl, hused.initial_left, rfl⟩
  obtain ⟨hanswers, hlast⟩ :=
    hrestarted.complyAll_same (κ.kin_bisimulation source) hκ.kin_restore later
  obtain ⟨added, hagain, hfresh⟩ := hlast.sampler.record
  rw [Array.empty_append] at hfresh
  refine ⟨hanswers, ?_, hlast.globals, hlast.sampler.source.1, rfl⟩
  rw [hagain, hfresh]

/-- Dice are thrown, a variable is set and a line breaks off, and still the script begins with the
same dice again, whether its place is put back or a copy of it. -/
theorem restart_like_new_script :
    let script : Script := ⟨4, 1, .ofList 0 [], .ofList 0 [], .ofList 0 []⟩
    let past : List (Request Script) :=
      [.calculate "set gold 2d6", .number "1d6 +",
        .draw (.integer <$> Sampler.uniformInt 1 6) fun _ hP => hP.map (hP.uniformInt 1 6) _]
    let later : List (Request Script) :=
      [.number "gold", .number "2d6", .roll .fair ⟨2, 6, 0⟩ false]
    let used := (complyAll Script.byPlace past (new script)).2
    let used' := (complyAll .copy past (new script)).2
    Script.byPlace.Restores ∧
    (complyAll Script.byPlace later used).1 =
      [.ok (.number (.int 9)), .ok (.number (.int 5)), .ok (.dice [4, 5])] ∧
    (complyAll Script.byPlace later { used.resetBy Script.byPlace with globals := .empty }).1 =
      [.ok (.number (.int 0)), .ok (.number (.int 9)), .ok (.dice [6, 1])] ∧
    (complyAll .copy later { used'.resetSource with globals := .empty }).1 =
      [.ok (.number (.int 0)), .ok (.number (.int 9)), .ok (.dice [6, 1])] := by
  intro script past later used used'
  refine ⟨Script.byPlace_restores, by decide +kernel, ?_, ?_⟩
  · have hagain := (restart_like_new Script.byPlace Script.byPlace_restores script past later).1
    exact hagain.trans (by decide +kernel)
  · have hagain := (restart_like_new .copy Capture.copy_restores script past later).1
    rw [resetBy_copy] at hagain
    exact hagain.trans (by decide +kernel)

end Calculator

end Tabletop
