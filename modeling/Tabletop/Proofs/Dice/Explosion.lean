/-
# Exploding dice

An exploding roll is thrown in waves. The first wave has as many dice as the specification asks
for, and each further one has one die for every top face of the wave before it. No wave is larger
than the first, so each of them is a throw of its own that is allowed: there are dice in it, and not
too many. In the end every top face has added exactly one die.

This says what a roll is made of once it has ended. Whether it ends is up to the source, and on a
source that keeps to the top face it does not.
-/

import Tabletop.Proofs.Dice.Total
import Tabletop.Proofs.Record

namespace Tabletop

namespace Dice

/-! ## Faces and values -/

/-- The values are the faces with the modifier added to each of them. -/
def Shows (modifier : Int64) (faces values : List Int64) : Prop :=
  values.map Int64.toInt = faces.map fun face => face.toInt + modifier.toInt

namespace Shows

variable {modifier : Int64} {faces values others later : List Int64}

theorem length_eq (h : Shows modifier faces values) : values.length = faces.length := by
  simpa only [List.length_map] using congrArg List.length h

theorem append (h : Shows modifier faces values) (hlater : Shows modifier others later) :
    Shows modifier (faces ++ others) (values ++ later) := by
  rw [Shows, List.map_append, List.map_append, h, hlater]

theorem exists_append (h : Shows modifier faces (values ++ later)) :
    ∃ first others, faces = first ++ others ∧ Shows modifier first values ∧
      Shows modifier others later := by
  rw [Shows, List.map_append] at h
  obtain ⟨first, others, rfl, hfirst, hothers⟩ := List.map_eq_append_iff.mp h.symm
  exact ⟨first, others, rfl, hfirst.symm, hothers.symm⟩

theorem values_unique (h : Shows modifier faces values) (hlater : Shows modifier faces later) :
    values = later :=
  List.map_injective_iff.mpr (fun _ _ => Int64.toInt_inj.mp) (h.trans hlater.symm)

/-- Only faces whose values fit are shown. -/
theorem fits (h : Shows modifier faces values) {face : Int64} (hface : face ∈ faces) :
    Fits (face.toInt + modifier.toInt) := by
  have hshown : face.toInt + modifier.toInt ∈ values.map Int64.toInt :=
    h ▸ List.mem_map_of_mem hface
  obtain ⟨x, -, hx⟩ := List.mem_map.mp hshown
  exact hx ▸ Fits.toInt x

/-- Faces of a die give values between the lowest and the highest one. -/
theorem range {sides : UInt32} (h : Shows modifier faces values)
    (hfaces : ∀ face ∈ faces, OnDie sides face) {x : Int64} (hx : x ∈ values) :
    1 + modifier.toInt ≤ x.toInt ∧ x.toInt ≤ sides.toNat + modifier.toInt := by
  have hshown : x.toInt ∈ faces.map fun face => face.toInt + modifier.toInt :=
    h ▸ List.mem_map_of_mem hx
  obtain ⟨face, hface, hvalue⟩ := List.mem_map.mp hshown
  obtain ⟨hlo, hhi⟩ := hfaces face hface
  constructor <;> omega

end Shows

/-- The draw that a die makes. -/
def draw (sides : UInt32) : Dice → Draw
  | .fair | .pool _ _ => .uniformInt 1 (sidesInt64 sides)
  | .pareto alpha => .pareto alpha

variable {σ : Type} [RandomSource σ]

section Faces

variable {dice : Dice} {sides : UInt32} {modifier : Int64} {s mid s' last : Sampler σ}
  {face : Int64} {faces others values : List Int64} {halt : Halt EvalError}

theorem draws_face (h : dice.face sides s = .ok face s') :
    s'.draws = s.draws ++ [dice.draw sides] := by
  cases dice with
  | fair | pool => exact Sampler.draws_primitive h
  | pareto alpha =>
      obtain ⟨x, mid, hdraw, h⟩ := Attempt.bind_eq_ok_iff.mp h
      obtain ⟨-, rfl⟩ := Attempt.pure_eq_ok_iff.mp h
      exact Sampler.draws_primitive hdraw

namespace Faces

/-- There is one draw for each face. -/
theorem draws_eq (h : Faces dice sides s faces s') :
    s'.draws = s.draws ++ List.replicate faces.length (dice.draw sides) := by
  induction h with
  | nil => exact (List.append_nil _).symm
  | cons hface _ ih =>
      rw [ih, draws_face hface, List.append_assoc, List.length_cons, List.replicate_succ]
      rfl

theorem append (h : Faces dice sides s faces mid) (hothers : Faces dice sides mid others s') :
    Faces dice sides s (faces ++ others) s' := by
  induction h with
  | nil => exact hothers
  | cons hface _ ih => exact .cons hface (ih hothers)

theorem exists_append (h : Faces dice sides s (faces ++ others) s') :
    ∃ mid, Faces dice sides s faces mid ∧ Faces dice sides mid others s' := by
  induction faces generalizing s with
  | nil => exact ⟨s, .nil, h⟩
  | cons face faces ih =>
      cases h with
      | cons hface hrest =>
          obtain ⟨mid, hfaces, hothers⟩ := ih hrest
          exact ⟨mid, .cons hface hfaces, hothers⟩

theorem onDie (h : Faces dice sides s faces s')
    (hface : ∀ {s s' : Sampler σ} {face : Int64}, dice.face sides s = .ok face s' →
      OnDie sides face) : ∀ face ∈ faces, OnDie sides face :=
  falls_of_face hface faces.length faces s' h (Nat.le_refl _)

/-- The dice of a pool are fair. -/
theorem pool {target : Int64} {explode : Bool} (h : Faces fair sides s faces s') :
    Faces (pool target explode) sides s faces s' := by
  induction h with
  | nil => exact .nil
  | cons hface _ ih => exact .cons hface ih

end Faces

theorem throwEach_pool (target : Int64) (explode : Bool) (modifier : Int64) (count : Nat) :
    ((pool target explode).throwEach sides modifier count : Evaluation σ (List Int64)) =
      fair.throwEach sides modifier count := by
  induction count with
  | zero => rfl
  | succ count ih =>
      rw [throwEach, throwEach, ih]
      rfl

/-- A throw has the values that its faces show. -/
theorem throwEach_of_shows (hfaces : Faces dice sides s faces s')
    (hshows : Shows modifier faces values) :
    dice.throwEach sides modifier faces.length s = .ok values s' := by
  obtain ⟨thrown, hthrown, hvalues⟩ := throwEach_of_fits hfaces fun face => hshows.fits
  rw [hthrown, Shows.values_unique hvalues hshows]

/-- A throw halts where a draw does or where a value overflows. -/
theorem halt_of_throwEach {count : Nat}
    (h : dice.throwEach sides modifier count s = .error halt last) :
    (∃ mid, dice.face sides mid = .error halt last) ∨ halt = .failed (.arithmetic .overflow) := by
  induction count generalizing s with
  | zero => cases h
  | succ count ih =>
      rcases Attempt.bind_eq_error_iff.mp h with hface | ⟨face, mid, -, hrest⟩
      · exact .inl ⟨s, hface⟩
      rcases Attempt.bind_eq_error_iff.mp hrest with hvalue | ⟨value, _, -, hlater⟩
      · obtain ⟨e, hshown, rfl, -⟩ := Attempt.ofExcept_eq_error_iff.mp hvalue
        rw [(checkedInt64_eq_error_iff.mp hshown).2]
        exact .inr rfl
      · rcases Attempt.bind_eq_error_iff.mp hlater with hthrown | ⟨values, _, -, hnone⟩
        · exact ih hthrown
        · exact absurd hnone Attempt.pure_ne_error

end Faces

/-! ## Waves -/

/-- The first wave has so many dice, each further one has a die for every value `top` of the wave
before it, and the last one has no such value. -/
inductive Waves (top : Int64) : (pending : Nat) → List (List Int64) → Prop
  | nil : Waves top 0 []
  | cons {wave : List Int64} {waves : List (List Int64)} :
      wave ≠ [] → Waves top (wave.count top) waves → Waves top wave.length (wave :: waves)

namespace Waves

variable {top : Int64} {pending : Nat} {waves : List (List Int64)}

/-- Every top value has added one die. -/
theorem length_flatten (h : Waves top pending waves) :
    waves.flatten.length = pending + waves.flatten.count top := by
  induction h with
  | nil => rfl
  | cons _ _ ih => rw [List.flatten_cons, List.length_append, List.count_append, ih]

theorem length_of_mem (h : Waves top pending waves) {wave : List Int64} (hwave : wave ∈ waves) :
    0 < wave.length ∧ wave.length ≤ pending := by
  induction h with
  | nil => cases hwave
  | @cons first later hfirst _ ih =>
      rcases List.mem_cons.mp hwave with rfl | hlater
      · exact ⟨List.length_pos_iff.mpr hfirst, Nat.le_refl _⟩
      · have hcount : first.count top ≤ first.length := List.count_le_length
        exact ⟨(ih hlater).1, Nat.le_trans (ih hlater).2 hcount⟩

end Waves

/-! ## A wave at a time -/

section Explosions

variable {spec : DiceSpec} {allowance pending : Nat} {s s' last : Sampler σ}
  {values faces : List Int64} {waves : List (List Int64)} {halt : Halt EvalError}

/-- A number of dice that may be thrown is the same in 32 bits. -/
theorem toNat_ofNat_of_le_limit (hpending : pending ≤ limit) :
    (UInt32.ofNat pending).toNat = pending :=
  UInt32.toNat_ofNat_of_lt' (Nat.lt_of_le_of_lt hpending (by decide))

/-- A wave of no more dice than may be thrown is neither refused nor taken for an empty one. -/
theorem throwAll_wave (hpositive : 0 < pending) (hpending : pending ≤ limit)
    (hsides : 0 < spec.sides.toNat) :
    (fair.throwAll { spec with count := UInt32.ofNat pending } : Evaluation σ (List Int64)) =
      fair.throwEach spec.sides spec.modifier pending := by
  have hthrow (wave : DiceSpec) (hwave : wave.count.toNat = pending)
      (hsides : 0 < wave.sides.toNat) :
      (fair.throwAll wave : Evaluation σ (List Int64)) =
        fair.throwEach wave.sides wave.modifier pending := by
    rw [throwAll_eq (hwave ▸ hpositive) (hwave ▸ hpending) hsides, hwave]
  exact hthrow _ (toNat_ofNat_of_le_limit hpending) hsides

/-- The dice of a wave are thrown, and the explosions go on with the top faces among them. -/
theorem explosions_succ (hpending : pending + 1 ≤ limit) (hsides : 0 < spec.sides.toNat) :
    (explosions spec (allowance + 1) (pending + 1) : Evaluation σ (List Int64)) = do
      let wave ← fair.throwEach spec.sides spec.modifier (pending + 1)
      let later ← explosions spec allowance (wave.count (topValue spec))
      return wave ++ later := by
  rw [explosions, throwAll_wave (Nat.succ_pos _) hpending hsides]

/-- A wave does not have more top faces than dice, so the next one may be thrown as well. -/
theorem count_top_le_limit {wave : List Int64} (hlength : wave.length = pending)
    (hpending : pending ≤ limit) : wave.count (topValue spec) ≤ limit := by
  have hcount : wave.count (topValue spec) ≤ wave.length := List.count_le_length
  omega

theorem exists_waves_of_explosions (hpending : pending ≤ limit) (hsides : 0 < spec.sides.toNat)
    (h : explosions spec allowance pending s = .ok values s') :
    ∃ waves faces, values = waves.flatten ∧ waves.length ≤ allowance ∧
      Waves (topValue spec) pending waves ∧ Faces fair spec.sides s faces s' ∧
      Shows spec.modifier faces values := by
  induction allowance, pending using explosions.induct spec generalizing s values with
  | case1 allowance =>
      rw [explosions] at h
      obtain ⟨rfl, rfl⟩ := Attempt.pure_eq_ok_iff.mp h
      exact ⟨[], [], rfl, Nat.zero_le _, .nil, .nil, rfl⟩
  | case2 pending => cases h
  | case3 allowance pending ih =>
      rw [explosions_succ hpending hsides] at h
      obtain ⟨wave, mid, hwave, h⟩ := Attempt.bind_eq_ok_iff.mp h
      obtain ⟨later, _, hlater, hdone⟩ := Attempt.bind_eq_ok_iff.mp h
      obtain ⟨rfl, rfl⟩ := Attempt.pure_eq_ok_iff.mp hdone
      obtain ⟨faces, hfaces, hlength, hshows⟩ := exists_faces_of_ok hwave
      have hdice : wave.length = pending + 1 := (Shows.length_eq hshows).trans hlength
      obtain ⟨waves, others, rfl, hnumber, hwaves, hothers, hrest⟩ :=
        ih wave (count_top_le_limit hdice hpending) hlater
      have hnext := Waves.cons (List.ne_nil_of_length_eq_add_one hdice) hwaves
      rw [hdice] at hnext
      exact ⟨wave :: waves, faces ++ others, rfl, Nat.succ_le_succ hnumber, hnext,
        hfaces.append hothers, Shows.append hshows hrest⟩

theorem explosions_of_waves (hpending : pending ≤ limit) (hsides : 0 < spec.sides.toNat)
    (hwaves : Waves (topValue spec) pending waves) (hnumber : waves.length ≤ allowance)
    (hfaces : Faces fair spec.sides s faces s') (hshows : Shows spec.modifier faces waves.flatten) :
    explosions spec allowance pending s = .ok waves.flatten s' := by
  induction hwaves generalizing allowance s faces with
  | nil =>
      obtain rfl := List.eq_nil_of_length_eq_zero hshows.length_eq.symm
      cases hfaces
      rw [explosions]
      rfl
  | @cons wave waves hsome _ ih =>
      obtain ⟨pending, hdice⟩ := Nat.exists_eq_succ_of_ne_zero (mt List.length_eq_zero_iff.mp hsome)
      obtain ⟨allowance, rfl⟩ := Nat.exists_eq_add_of_le' (Nat.le_trans (Nat.succ_pos _) hnumber)
      obtain ⟨first, others, rfl, hfirst, hrest⟩ := hshows.exists_append
      obtain ⟨mid, hfaces, hothers⟩ := hfaces.exists_append
      have hwave := throwEach_of_shows hfaces hfirst
      rw [← hfirst.length_eq, hdice] at hwave
      rw [hdice] at hpending ⊢
      rw [explosions_succ hpending hsides, Attempt.bind_of_ok hwave]
      have hlater := ih (count_top_le_limit hdice hpending) (Nat.le_of_succ_le_succ hnumber)
        hothers hrest
      exact Attempt.bind_of_ok hlater

/-- Explosions end with these values exactly if the values come in waves. -/
theorem explosions_eq_ok_iff (hpending : pending ≤ limit) (hsides : 0 < spec.sides.toNat) :
    explosions spec allowance pending s = .ok values s' ↔
      ∃ waves faces, values = waves.flatten ∧ waves.length ≤ allowance ∧
        Waves (topValue spec) pending waves ∧ Faces fair spec.sides s faces s' ∧
        Shows spec.modifier faces values := by
  constructor
  · exact exists_waves_of_explosions hpending hsides
  · rintro ⟨waves, faces, rfl, hnumber, hwaves, hfaces, hshows⟩
    exact explosions_of_waves hpending hsides hwaves hnumber hfaces hshows

/-- Explosions that halt have gone on for too long, unless the throw of a wave halts. -/
theorem halt_of_explosions (hpending : pending ≤ limit) (hsides : 0 < spec.sides.toNat)
    (h : explosions spec allowance pending s = .error halt last) :
    halt = .unfinished ∨
      ∃ count mid, fair.throwEach spec.sides spec.modifier count mid = .error halt last := by
  induction allowance, pending using explosions.induct spec generalizing s with
  | case1 allowance =>
      rw [explosions] at h
      cases h
  | case2 pending =>
      cases h
      exact .inl rfl
  | case3 allowance pending ih =>
      rw [explosions_succ hpending hsides] at h
      rcases Attempt.bind_eq_error_iff.mp h with hwave | ⟨wave, mid, hwave, h⟩
      · exact .inr ⟨_, _, hwave⟩
      · obtain ⟨faces, -, hlength, hshows⟩ := exists_faces_of_ok hwave
        have hdice : wave.length = pending + 1 := (Shows.length_eq hshows).trans hlength
        rcases Attempt.bind_eq_error_iff.mp h with hlater | ⟨later, _, -, hdone⟩
        · exact ih wave (count_top_le_limit hdice hpending) hlater
        · exact absurd hdone Attempt.pure_ne_error

end Explosions

/-! ## Explosions without end -/

section Endless

variable {spec : DiceSpec} {sides : UInt32} {modifier : Int64} {s : Sampler σ}

theorem topValue_toInt (hfits : Fits (spec.sides.toNat + spec.modifier.toInt)) :
    (topValue spec).toInt = spec.sides.toNat + spec.modifier.toInt := by
  rw [← sidesInt64_toInt] at hfits ⊢
  exact toInt_add_of_fits hfits

/-- As long as `P` holds, the next die shows its top face. -/
def StaysOnTop (P : Sampler σ → Prop) (sides : UInt32) : Prop :=
  ∀ s, P s → ∃ s', fair.face sides s = .ok (sidesInt64 sides) s' ∧ P s'

variable {P : Sampler σ → Prop}

theorem StaysOnTop.exists_faces (h : StaysOnTop P sides) (hs : P s) (count : Nat) :
    ∃ s', Faces fair sides s (List.replicate count (sidesInt64 sides)) s' ∧ P s' := by
  induction count generalizing s with
  | zero => exact ⟨s, .nil, hs⟩
  | succ count ih =>
      obtain ⟨mid, hface, hmid⟩ := h s hs
      obtain ⟨s', hfaces, hs'⟩ := ih hmid
      exact ⟨s', .cons hface hfaces, hs'⟩

/-- On a source that stays on the top face no allowance is enough. -/
theorem explosions_unfinished (h : StaysOnTop P spec.sides) (hs : P s)
    (hsides : 0 < spec.sides.toNat) (hfits : Fits (spec.sides.toNat + spec.modifier.toInt))
    (allowance : Nat) {pending : Nat} (hpositive : 0 < pending) (hpending : pending ≤ limit) :
    ∃ last, explosions spec allowance pending s = .error .unfinished last := by
  induction allowance generalizing s with
  | zero =>
      obtain ⟨pending, rfl⟩ := Nat.exists_eq_succ_of_ne_zero (Nat.ne_of_gt hpositive)
      exact ⟨s, rfl⟩
  | succ allowance ih =>
      obtain ⟨mid, hfaces, hmid⟩ := h.exists_faces hs pending
      have hshows : Shows spec.modifier (List.replicate pending (sidesInt64 spec.sides))
          (List.replicate pending (topValue spec)) := by
        rw [Shows, List.map_replicate, List.map_replicate, topValue_toInt hfits, sidesInt64_toInt]
      have hwave := throwEach_of_shows hfaces hshows
      rw [List.length_replicate] at hwave
      obtain ⟨last, hlast⟩ := ih hmid
      obtain ⟨pending, rfl⟩ := Nat.exists_eq_succ_of_ne_zero (Nat.ne_of_gt hpositive)
      refine ⟨last, ?_⟩
      rw [explosions_succ hpending hsides, Attempt.bind_of_ok hwave, List.count_replicate_self]
      exact Attempt.bind_of_error hlast

end Endless

/-! ## Exploding rolls -/

section Roll

variable {dice : Dice} {spec : DiceSpec} {target : Int64} {s s' last : Sampler σ}
  {values : List Int64} {halt : Halt EvalError}

theorem check_pool {explode : Bool} (hsides : 2 ≤ spec.sides.toNat) :
    (pool target explode).check spec = .ok () := by
  have hone : spec.sides ≠ 1 := fun h => by simp [h] at hsides
  exact if_neg fun h => hone h.2

/-- The dice that were asked for come first, and then what their top faces add. -/
theorem roll_eq_throwAll (hcheck : dice.check spec = .ok ()) :
    (dice.roll spec false : Evaluation σ (List Int64)) = do
      let first ← dice.throwAll spec
      let later ← if dice.Explodes ∧ ¬ spec.isEmpty then
          explosions spec patience (first.count (topValue spec))
        else pure []
      return first ++ later := by
  unfold roll
  rw [hcheck]
  cases dice with
  | fair | pareto => simp [Explodes, inOrder, Attempt.ofExcept]
  | pool target explode =>
      cases explode with
      | false => simp [Explodes, inOrder, Attempt.ofExcept]
      | true =>
          by_cases hempty : spec.isEmpty <;> simp [Explodes, inOrder, Attempt.ofExcept, hempty]

/-- A roll of exploding dice is nothing but explosions, its dice being the first wave. -/
theorem roll_eq_explosions (hcheck : (pool target true).check spec = .ok ())
    (hcount : 0 < spec.count.toNat) (hlimit : spec.count.toNat ≤ limit)
    (hsides : 0 < spec.sides.toNat) :
    ((pool target true).roll spec false : Evaluation σ (List Int64)) =
      explosions spec (patience + 1) spec.count.toNat := by
  have hsome : ¬ spec.isEmpty := spec.not_isEmpty_iff.mpr ⟨hcount, hsides⟩
  obtain ⟨pending, hpending⟩ := Nat.exists_eq_succ_of_ne_zero (Nat.ne_of_gt hcount)
  rw [roll_eq_throwAll hcheck, throwAll_eq hcount hlimit hsides, throwEach_pool]
  rw [hpending] at hlimit ⊢
  rw [explosions_succ hlimit hsides]
  simp only [Explodes, hsome]
  rfl

/-- An exploding roll ends with these values exactly if the values come in waves. -/
theorem roll_eq_ok_iff_waves (hcheck : (pool target true).check spec = .ok ())
    (hcount : 0 < spec.count.toNat) (hlimit : spec.count.toNat ≤ limit)
    (hsides : 0 < spec.sides.toNat) :
    (pool target true).roll spec false s = .ok values s' ↔
      ∃ waves faces, values = waves.flatten ∧ waves.length ≤ patience + 1 ∧
        Waves (topValue spec) spec.count.toNat waves ∧ Faces fair spec.sides s faces s' ∧
        Shows spec.modifier faces values := by
  rw [roll_eq_explosions hcheck hcount hlimit hsides]
  exact explosions_eq_ok_iff hlimit hsides

theorem halt_of_exploding_roll (hcheck : (pool target true).check spec = .ok ())
    (hcount : 0 < spec.count.toNat) (hlimit : spec.count.toNat ≤ limit)
    (hsides : 0 < spec.sides.toNat)
    (h : (pool target true).roll spec false s = .error halt last) :
    halt = .unfinished ∨
      ∃ count mid, fair.throwEach spec.sides spec.modifier count mid = .error halt last := by
  rw [roll_eq_explosions hcheck hcount hlimit hsides] at h
  exact halt_of_explosions hlimit hsides h

/-- Dice that stay on their top face are thrown for ever. -/
theorem roll_unfinished {P : Sampler σ → Prop} (h : StaysOnTop P spec.sides) (hs : P s)
    (hcheck : (pool target true).check spec = .ok ()) (hcount : 0 < spec.count.toNat)
    (hlimit : spec.count.toNat ≤ limit) (hsides : 0 < spec.sides.toNat)
    (hfits : Fits (spec.sides.toNat + spec.modifier.toInt)) :
    ∃ last, (pool target true).roll spec false s = .error .unfinished last := by
  rw [roll_eq_explosions hcheck hcount hlimit hsides]
  exact explosions_unfinished h hs hsides hfits (patience + 1) hcount hlimit

/-- An exploding roll that ends was thrown in waves: the first one has as many dice as were asked
for, each further one has a die for every top face of the wave before, and the last one shows no top
face. So there is one die for each that was asked for and one for each top face. The values are
those of the faces drawn, in their order. Each wave is a throw that passes all checks with its
number of dice unchanged, and a roll that does not end was refused a draw or goes on exploding. -/
theorem exploding_roll_waves (target : Int64) (spec : DiceSpec) (s : Sampler σ)
    (hσ : RandomSource.InRange σ) (hcount : 0 < spec.count.toNat)
    (hlimit : spec.count.toNat ≤ limit) (hsides : 2 ≤ spec.sides.toNat)
    (hfits : Fits (spec.sides.toNat + spec.modifier.toInt)) :
    (∀ values s', (pool target true).roll spec false s = .ok values s' →
      ∃ waves faces, values = waves.flatten ∧
        Waves (topValue spec) spec.count.toNat waves ∧
        (topValue spec).toInt = spec.sides.toNat + spec.modifier.toInt ∧
        (∀ wave ∈ waves, (UInt32.ofNat wave.length).toNat = wave.length ∧
          Throwable fair { spec with count := UInt32.ofNat wave.length }) ∧
        values.length = spec.count.toNat + values.count (topValue spec) ∧
        Faces fair spec.sides s faces s' ∧ (∀ face ∈ faces, OnDie spec.sides face) ∧
        Shows spec.modifier faces values ∧
        s'.draws = s.draws ++
          List.replicate values.length (.uniformInt 1 (sidesInt64 spec.sides))) ∧
    ∀ halt last, (pool target true).roll spec false s = .error halt last →
      halt = .unfinished ∨ ∃ cause, halt = .failed (.draw cause) := by
  have hpositive : 0 < spec.sides.toNat := by omega
  constructor
  · intro values s' hroll
    obtain ⟨waves, faces, rfl, -, hwaves, hfaces, hshows⟩ :=
      (roll_eq_ok_iff_waves (check_pool hsides) hcount hlimit hpositive).mp hroll
    refine ⟨waves, faces, rfl, hwaves, topValue_toInt hfits, fun wave hwave => ?_,
      hwaves.length_flatten, hfaces, ?_, hshows, ?_⟩
    · obtain ⟨hsome, hmost⟩ := hwaves.length_of_mem hwave
      have hlength := toNat_ofNat_of_le_limit (Nat.le_trans hmost hlimit)
      exact ⟨hlength, Bool.false_ne_true, rfl, hlength.symm ▸ hsome,
        hlength.symm ▸ Nat.le_trans hmost hlimit, hpositive⟩
    · exact hfaces.onDie (onDie_of_inRange hσ hpositive)
    · rw [hfaces.draws_eq, ← hshows.length_eq]
      rfl
  · intro halt last hroll
    rcases halt_of_exploding_roll (check_pool hsides) hcount hlimit hpositive hroll with
      rfl | ⟨count, mid, hwave⟩
    · exact .inl rfl
    rcases halt_of_throwEach hwave with ⟨mid, hface⟩ | rfl
    · exact Sampler.halt_of_primitive hface
    · obtain ⟨seen, hseen, -, face, hface, hout⟩ := exists_faces_of_overflow hwave
      obtain ⟨hlo, hhi⟩ := hseen.onDie (onDie_of_inRange hσ hpositive) face hface
      have hleast := spec.modifier.minValue_le_toInt
      have hmost := hfits.2
      exact absurd ⟨by omega, by omega⟩ hout

/-- A nine and a ten, and the one that the ten adds. -/
theorem exploding_roll_waves_ten :
    let script : Script := ⟨9, 1, .ofList 0 [], .ofList 0 [], .ofList 0 []⟩
    let spec : DiceSpec := ⟨2, 10, 0⟩
    RandomSource.InRange Script ∧ Fits (spec.sides.toNat + spec.modifier.toInt) ∧
      ∃ s', (pool 6 true).roll spec false ⟨script, #[]⟩ = .ok [9, 10, 1] s' ∧
        (∃ waves, [9, 10, 1] = waves.flatten ∧ Waves 10 2 waves) ∧
        s'.draws = [.uniformInt 1 10, .uniformInt 1 10, .uniformInt 1 10] := by
  intro script spec
  have hroll : Attempt.value? ((pool 6 true).roll spec false (⟨script, #[]⟩ : Sampler Script)) =
      some [9, 10, 1] := by decide +kernel
  obtain ⟨s', hroll⟩ := Attempt.exists_of_value? hroll
  have hfits : Fits (spec.sides.toNat + spec.modifier.toInt) := by
    constructor <;> decide
  obtain ⟨waves, faces, hvalues, hwaves, -, -, -, -, -, -, hdraws⟩ :=
    (exploding_roll_waves 6 spec ⟨script, #[]⟩ Script.bounded.inRange (by decide)
      (Nat.le_of_ble_eq_true rfl) (by decide) hfits).1 _ _ hroll
  exact ⟨Script.bounded.inRange, hfits, s', hroll, ⟨waves, hvalues, hwaves⟩, hdraws⟩

end Roll

end Dice

end Tabletop
