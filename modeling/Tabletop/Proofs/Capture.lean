/-
# Putting sources back

The state of a source can be taken and put back later. How much of the source it holds is the
source's own affair, as long as the source answers the same draws again once the state is put back.
A state may be the whole source. The sources at hand need less: of a tape it is enough to know the
position, and of a script where its counters stand.
-/

import Tabletop.Proofs.Bisimulation
import Tabletop.Source.Script
import Tabletop.Source.Ziggurat

namespace Tabletop

variable {ε σ : Type}

/-- How the state of a source is taken and put back. -/
structure Capture (σ : Type) where
  State : Type
  state : σ → State
  restore : State → σ → σ

namespace Capture

/-- The whole source is its state. -/
def copy : Capture σ where
  State := σ
  state s := s
  restore s _ := s

variable [RandomSource σ]

/-- What may become of the source `s` after its state was taken. -/
inductive Reached (κ : Capture σ) (s : σ) : σ → Prop
  | start : Reached κ s s
  | drawn {u v : σ} : Reached κ s u → RandomSource.Draws u v → Reached κ s v
  | restored {u : σ} : Reached κ s u → Reached κ s (κ.restore (κ.state s) u)

/-- Once its state is put back, a source answers all draws as it did when the state was taken. -/
def Restores (κ : Capture σ) : Prop :=
  ∀ s u, κ.Reached s u → RandomSource.Indistinguishable (κ.restore (κ.state s) u) s

theorem copy_restores : Restores (copy : Capture σ) :=
  fun s _ _ => .refl s

/-- It is enough that a state put back at once changes nothing, and that whatever draws or other
states change is overwritten when a state is put back. -/
theorem restores_of_overwrites {κ : Capture σ} (hself : ∀ s, κ.restore (κ.state s) s = s)
    (hdraw : ∀ {s t}, RandomSource.Draws s t → ∀ state, κ.restore state t = κ.restore state s)
    (hrestore : ∀ state state' s, κ.restore state (κ.restore state' s) = κ.restore state s) :
    κ.Restores := by
  intro s u hreached
  have hback : κ.restore (κ.state s) u = s := by
    induction hreached with
    | start => exact hself s
    | drawn _ hstep ih => exact (hdraw hstep _).trans ih
    | restored _ ih => exact (hrestore _ _ _).trans ih
  rw [hback]
  exact .refl s

/-- Both sources have come from `source`, and no draws tell them apart. -/
def Kin (κ : Capture σ) (source s t : σ) : Prop :=
  RandomSource.Indistinguishable s t ∧ κ.Reached source s ∧ κ.Reached source t

theorem kin_bisimulation (κ : Capture σ) (source : σ) :
    RandomSource.Bisimulation (κ.Kin source) :=
  RandomSource.bisimulation_of_kept fun hdraw hreached => .drawn hreached hdraw

namespace Restores

variable {κ : Capture σ} {source s t : σ}

/-- Put back to where it came from, a source is kin to what it came from. -/
theorem kin_source (hκ : κ.Restores) (hs : κ.Reached source s) :
    κ.Kin source (κ.restore (κ.state source) s) source :=
  ⟨hκ source s hs, hs.restored, .start⟩

theorem kin_restore (hκ : κ.Restores) (h : κ.Kin source s t) :
    κ.Kin source (κ.restore (κ.state source) s) (κ.restore (κ.state source) t) := by
  obtain ⟨-, hs, ht⟩ := h
  exact ⟨(hκ source s hs).trans (hκ source t ht).symm, hs.restored, ht.restored⟩

end Restores

end Capture

/-! ## Scripts -/

namespace Script

/-- Where the counters of a script stand. -/
structure Place where
  current : Int64
  fractions : Nat
  deviations : Nat
  paretos : Nat

def byPlace : Capture Script where
  State := Place
  state s := ⟨s.current, s.fractions.read, s.deviations.read, s.paretos.read⟩
  restore place s :=
    { s with
      current := place.current
      fractions := { s.fractions with read := place.fractions }
      deviations := { s.deviations with read := place.deviations }
      paretos := { s.paretos with read := place.paretos } }

/-- Draws move the counters only. -/
theorem restore_of_draws {s t : Script} (h : RandomSource.Draws s t) (place : Place) :
    byPlace.restore place t = byPlace.restore place s := by
  cases h with
  | uniformFloat | gaussian | pareto => rfl
  | uniformInt lo hi =>
      change byPlace.restore place (Attempt.final (uniformInt lo hi s)) = _
      unfold uniformInt
      split <;> rfl

theorem byPlace_restores : byPlace.Restores :=
  Capture.restores_of_overwrites (fun _ => rfl) restore_of_draws fun _ _ _ => rfl

end Script

/-! ## Tapes

Draws from a tape read words and never change them. -/

namespace Tape

theorem keeps_next : Attempt.Keeps word (next : Attempt ε Tape UInt64) :=
  fun _ => rfl

theorem keeps_unit : Attempt.Keeps word (unit : Attempt ε Tape Float) :=
  keeps_next.bind fun _ => .pure _

theorem keeps_positiveUnit : Attempt.Keeps word (positiveUnit : Attempt ε Tape Float) :=
  keeps_next.bind fun _ => .pure _

theorem keeps_openUnit : Attempt.Keeps word (openUnit : Attempt ε Tape Float) :=
  keeps_next.bind fun _ => .pure _

theorem keeps_firstAccepted (span : UInt64) (allowance : Nat) :
    Attempt.Keeps word (firstAccepted span allowance) := by
  induction allowance with
  | zero => exact .throw _
  | succ allowance ih =>
      refine keeps_next.bind fun w => ?_
      cases accept? span w with
      | none => exact ih
      | some offset => exact .pure offset

theorem keeps_uniformInt (lo hi : Int64) : Attempt.Keeps word (uniformInt lo hi) := by
  unfold uniformInt
  split
  · exact .throw _
  · split
    · exact keeps_next.bind fun _ => .pure _
    · exact (keeps_firstAccepted _ _).bind fun _ => .pure _

theorem keeps_pareto (shape : Float) : Attempt.Keeps word (pareto shape) := by
  unfold pareto
  split
  · exact keeps_positiveUnit.bind fun _ => .pure _
  · exact .throw _

theorem keeps_tail (allowance : Nat) : Attempt.Keeps word (Ziggurat.tail allowance) := by
  induction allowance with
  | zero => exact .throw _
  | succ allowance ih =>
      refine keeps_openUnit.bind fun x => keeps_openUnit.bind fun y => ?_
      dsimp only
      split
      · exact ih
      · exact .pure _

theorem keeps_standard (allowance : Nat) : Attempt.Keeps word (Ziggurat.standard allowance) := by
  induction allowance with
  | zero => exact .throw _
  | succ allowance ih =>
      refine keeps_next.bind fun bits => ?_
      dsimp only
      split
      · exact .pure _
      · split
        · exact (keeps_tail allowance).bind fun _ => .pure _
        · refine keeps_unit.bind fun level => ?_
          split
          · exact .pure _
          · exact ih

theorem keeps_gaussian (mean deviation : Float) :
    Attempt.Keeps word (gaussian mean deviation) := by
  unfold gaussian
  split
  · exact .throw _
  · split
    · exact .throw _
    · exact (keeps_standard _).bind fun _ => .pure _

theorem keeps_of_isDraw {α : Type} {act : Attempt DrawError Tape α}
    (h : RandomSource.IsDraw act) : Attempt.Keeps word act := by
  cases h with
  | uniformFloat => exact fun _ => rfl
  | uniformInt lo hi => exact keeps_uniformInt lo hi
  | gaussian mean deviation => exact keeps_gaussian mean deviation
  | pareto shape => exact keeps_pareto shape

theorem word_of_draws {s t : Tape} (h : RandomSource.Draws s t) : t.word = s.word := by
  obtain ⟨_, act, hact, rfl⟩ := h.exists_isDraw
  exact keeps_of_isDraw hact s

def byPosition : Capture Tape where
  State := Nat
  state := position
  restore position tape := { tape with position }

theorem byPosition_restores : byPosition.Restores := by
  refine Capture.restores_of_overwrites (fun _ => rfl) (fun hdraw position => ?_) fun _ _ _ => rfl
  simp only [byPosition, word_of_draws hdraw]

end Tape

end Tabletop
