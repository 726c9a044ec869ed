/-
# How a roll ends

The checks of a roll come in a fixed order, and all of them come before the first draw: what the
kind of dice asks for, whether there is anything to throw, and whether there are too many dice. A
roll that passes them shows values of its dice, or halts at a value that does not fit, or, with
exploding dice, does not end. It makes one draw for each die thrown.

The limit on the number of dice is one on the dice asked for. The dice that explosions add are not
counted, so only a roll without explosions is sure to stay within the limit.
-/

import Tabletop.Proofs.Dice.Explosion

namespace Tabletop

/-- A Pareto draw with a shape of at least one is not refused. -/
def RandomSource.DrawsPareto (σ : Type) [RandomSource σ] : Prop :=
  ∀ shape : Float, 1.0 ≤ shape →
    (RandomSource.pareto shape : Attempt DrawError σ Float).Returns fun _ => True

/-- A script refuses no Pareto draw at all. -/
theorem Script.drawsPareto : RandomSource.DrawsPareto Script :=
  fun _ _ _ => ⟨_, _, rfl, trivial⟩

namespace Dice

variable {σ : Type} [RandomSource σ] {dice : Dice} {spec : DiceSpec} {sorted : Bool}
  {s s' last : Sampler σ} {values : List Int64} {halt : Halt EvalError}

theorem perm_inOrder (sorted : Bool) (values : List Int64) :
    (inOrder sorted values).Perm values := by
  cases sorted with
  | false => exact .refl _
  | true => exact List.mergeSort_perm values _

/-! ## The order of the checks -/

theorem roll_of_check_error {cause : RollError} (hcheck : dice.check spec = .error cause) :
    (dice.roll spec sorted : Evaluation σ (List Int64)) = Attempt.fail (.roll cause) := by
  unfold roll
  rw [hcheck]
  rfl

theorem check_of_roll (h : dice.roll spec sorted s = .ok values s') : dice.check spec = .ok () := by
  cases hcheck : dice.check spec with
  | ok => rfl
  | error cause =>
      rw [roll_of_check_error hcheck] at h
      cases h

/-- Sorting comes last, after all draws. -/
theorem roll_eq_map :
    (dice.roll spec sorted : Evaluation σ (List Int64)) =
      inOrder sorted <$> dice.roll spec false := by
  unfold roll
  rw [map_bind]
  congr 1
  funext _
  match dice with
  | .fair | .pareto _ | .pool _ false =>
      dsimp only
      rw [map_bind]
      rfl
  | .pool _ true =>
      dsimp only
      rw [map_bind]
      congr 1
      funext first
      split_ifs
      · rfl
      · rw [map_bind]
        rfl

theorem roll_of_isEmpty (hcheck : dice.check spec = .ok ()) (hempty : spec.isEmpty) :
    (dice.roll spec sorted : Evaluation σ (List Int64)) = pure [0] := by
  have hthrow : (dice.throwAll spec : Evaluation σ (List Int64)) = pure [0] := if_pos hempty
  rw [roll_eq_map, roll_eq_throwAll hcheck, hthrow]
  simp only [hempty, not_true, and_false, if_false, pure_bind, List.append_nil, map_pure]
  rw [List.perm_singleton.mp (perm_inOrder sorted [0])]

theorem roll_of_limit_lt (hcheck : dice.check spec = .ok ()) (hsome : ¬ spec.isEmpty)
    (hlimit : limit < spec.count.toNat) :
    (dice.roll spec sorted : Evaluation σ (List Int64)) =
      Attempt.fail (.roll (.tooManyDice spec.count.toNat limit)) := by
  rw [roll_eq_map, roll_eq_throwAll hcheck, throwAll, if_neg hsome, if_pos hlimit]
  rfl

/-! ## The dice of a roll -/

/-- A roll that returns shows the faces of its dice, in the order of the draws or sorted. It has as
many dice as were asked for, and if they explode one more for each top face. -/
theorem exists_faces_of_roll (hsome : ¬ spec.isEmpty)
    (h : dice.roll spec sorted s = .ok values s') :
    ∃ thrown faces, values.Perm thrown ∧ Faces dice spec.sides s faces s' ∧
      Shows spec.modifier faces thrown ∧ spec.count.toNat ≤ limit ∧
      values.length =
        spec.count.toNat + if dice.Explodes then values.count (topValue spec) else 0 := by
  have hcheck := check_of_roll h
  obtain ⟨hcount, hsides⟩ := spec.not_isEmpty_iff.mp hsome
  have hlimit : spec.count.toNat ≤ limit := by
    by_contra hover
    rw [roll_of_limit_lt hcheck hsome (Nat.lt_of_not_le hover)] at h
    cases h
  rw [roll_eq_map] at h
  obtain ⟨thrown, hthrown, rfl⟩ := Attempt.map_eq_ok_iff.mp h
  have hperm := perm_inOrder sorted thrown
  rw [hperm.length_eq, hperm.count_eq]
  refine ⟨thrown, ?_⟩
  by_cases hexplodes : dice.Explodes
  · rw [if_pos hexplodes]
    match dice, hexplodes with
    | .pool target true, _ =>
        obtain ⟨waves, faces, rfl, -, hwaves, hfaces, hshows⟩ :=
          (roll_eq_ok_iff_waves hcheck hcount hlimit hsides).mp hthrown
        exact ⟨faces, hperm, hfaces.pool, hshows, hlimit, hwaves.length_flatten⟩
  · rw [if_neg hexplodes]
    have hthrowable : Throwable dice spec := ⟨hexplodes, hcheck, hcount, hlimit, hsides⟩
    rw [hthrowable.roll_eq] at hthrown
    obtain ⟨faces, hfaces, hlength, hshows⟩ := exists_faces_of_ok hthrown
    exact ⟨faces, hperm, hfaces, hshows, hlimit, (Shows.length_eq hshows).trans hlength⟩

/-- There is one draw for each value. -/
theorem draws_of_roll (hsome : ¬ spec.isEmpty) (h : dice.roll spec sorted s = .ok values s') :
    s'.draws = s.draws ++ List.replicate values.length (dice.draw spec.sides) := by
  obtain ⟨thrown, faces, hperm, hfaces, hshows, -, -⟩ := exists_faces_of_roll hsome h
  rw [hfaces.draws_eq, hperm.length_eq, hshows.length_eq]

/-- A roll of dice that may be thrown halts where one of its throws does, unless its dice explode
for too long. -/
theorem halt_of_roll (hcheck : dice.check spec = .ok ()) (hsome : ¬ spec.isEmpty)
    (hlimit : spec.count.toNat ≤ limit) (h : dice.roll spec sorted s = .error halt last) :
    (halt = .unfinished ∧ dice.Explodes) ∨
      ∃ count mid, dice.throwEach spec.sides spec.modifier count mid = .error halt last ∧
        (¬ dice.Explodes → mid = s) := by
  obtain ⟨hcount, hsides⟩ := spec.not_isEmpty_iff.mp hsome
  rw [roll_eq_map, Attempt.map_eq_error_iff] at h
  by_cases hexplodes : dice.Explodes
  · match dice, hexplodes with
    | .pool target true, hexplodes =>
        rcases halt_of_exploding_roll hcheck hcount hlimit hsides h with
          rfl | ⟨count, mid, hwave⟩
        · exact .inl ⟨rfl, hexplodes⟩
        · rw [← throwEach_pool target true] at hwave
          exact .inr ⟨count, mid, hwave, absurd hexplodes⟩
  · have hthrowable : Throwable dice spec := ⟨hexplodes, hcheck, hcount, hlimit, hsides⟩
    rw [hthrowable.roll_eq] at h
    exact .inr ⟨_, s, h, fun _ => rfl⟩

/-! ## How a roll ends -/

/-- Weighted dice only pass their check with a shape of at least one. -/
theorem one_le_of_check {alpha : Float} (hcheck : (pareto alpha).check spec = .ok ()) :
    1.0 ≤ alpha := by
  rw [check] at hcheck
  split_ifs at hcheck with hcount hsides hshape
  simpa using hshape

/-- On a source that refuses no draw, dice that pass their check show a face of their own. -/
theorem returns_face_of_check (hσ : RandomSource.Bounded σ) (hpareto : RandomSource.DrawsPareto σ)
    (hcheck : dice.check spec = .ok ()) (hsides : 0 < spec.sides.toNat) :
    (dice.face spec.sides : Evaluation σ Int64).Returns (OnDie spec.sides) := by
  match dice with
  | .fair | .pool _ _ => exact returns_face hσ hsides
  | .pareto alpha =>
      have hdraw : (Sampler.pareto alpha : Evaluation σ Float).Returns fun _ => True :=
        Sampler.returns_primitive (hpareto alpha (one_le_of_check hcheck))
      exact hdraw.bind fun draw _ => .pure (onDie_paretoFace hsides draw)

/-- The values of a roll are within the bounds of its dice, and there is one draw for each. -/
theorem values_of_roll (hface : (dice.face spec.sides : Evaluation σ Int64).Returns
      (OnDie spec.sides)) (hsome : ¬ spec.isEmpty) (h : dice.roll spec sorted s = .ok values s') :
    (∀ x ∈ values, 1 + spec.modifier.toInt ≤ x.toInt ∧
      x.toInt ≤ spec.sides.toNat + spec.modifier.toInt) ∧
    (if dice.Explodes then spec.count.toNat ≤ values.length
      else values.length = spec.count.toNat) ∧
    s'.draws = s.draws ++ List.replicate values.length (dice.draw spec.sides) := by
  obtain ⟨thrown, faces, hperm, hfaces, hshows, -, hlength⟩ := exists_faces_of_roll hsome h
  refine ⟨fun x hx => ?_, ?_, draws_of_roll hsome h⟩
  · exact hshows.range (hfaces.onDie hface.of_ok) (hperm.mem_iff.mp hx)
  · split_ifs at hlength ⊢ <;> omega

/-- A value of exploding dice never overflows, since the highest one fits. -/
theorem overflow_of_roll (hface : (dice.face spec.sides : Evaluation σ Int64).Returns
      (OnDie spec.sides)) (hfits : dice.Explodes → Fits (spec.sides.toNat + spec.modifier.toInt))
    (hcheck : dice.check spec = .ok ()) (hsome : ¬ spec.isEmpty)
    (hlimit : spec.count.toNat ≤ limit) (h : dice.roll spec sorted s = .error halt last) :
    (dice.Explodes ∧ halt = .unfinished) ∨
      (¬ dice.Explodes ∧ halt = .failed (.arithmetic .overflow) ∧
        ∃ faces, Faces dice spec.sides s faces last ∧
          ∃ face ∈ faces, OnDie spec.sides face ∧ ¬ Fits (face.toInt + spec.modifier.toInt)) := by
  rcases halt_of_roll hcheck hsome hlimit h with ⟨rfl, hexplodes⟩ | ⟨count, mid, hthrow, hmid⟩
  · exact .inl ⟨hexplodes, rfl⟩
  rcases halt_of_throwEach hthrow with ⟨_, hhalt⟩ | rfl
  · exact absurd hhalt hface.ne_error
  obtain ⟨seen, hseen, -, face, hmem, hout⟩ := exists_faces_of_overflow hthrow
  have hdie := hseen.onDie hface.of_ok face hmem
  have hplain : ¬ dice.Explodes := by
    intro hexplodes
    obtain ⟨hlo, hhi⟩ := hdie
    have hleast := spec.modifier.minValue_le_toInt
    have hmost := (hfits hexplodes).2
    exact hout ⟨by omega, by omega⟩
  exact .inr ⟨hplain, rfl, seen, hmid hplain ▸ hseen, face, hmem, hdie, hout⟩

/-- A roll whose dice do not pass their check, or that asks for too many of them, is refused before
any draw, and a roll of nothing gives a single zero without one. Every other roll on a source that
refuses no draw either gives values between the lowest and the highest that its dice can show, with
one draw for each of them, or halts at a die whose value does not fit. It has exactly the dice that
were asked for, or at least these if they explode. Only exploding dice can go on without end. -/
theorem roll_ends (dice : Dice) (spec : DiceSpec) (sorted : Bool) (s : Sampler σ)
    (hσ : RandomSource.Bounded σ) (hpareto : RandomSource.DrawsPareto σ)
    (hfits : dice.Explodes → Fits (spec.sides.toNat + spec.modifier.toInt)) :
    (∀ cause, dice.check spec = .error cause →
      dice.roll spec sorted s = .error (.failed (.roll cause)) s) ∧
    (dice.check spec = .ok () → ¬ spec.isEmpty → limit < spec.count.toNat →
      dice.roll spec sorted s =
        .error (.failed (.roll (.tooManyDice spec.count.toNat limit))) s) ∧
    (dice.check spec = .ok () → spec.isEmpty → dice.roll spec sorted s = .ok [0] s) ∧
    (dice.check spec = .ok () → ¬ spec.isEmpty → spec.count.toNat ≤ limit →
      (∀ values s', dice.roll spec sorted s = .ok values s' →
        (∀ x ∈ values, 1 + spec.modifier.toInt ≤ x.toInt ∧
          x.toInt ≤ spec.sides.toNat + spec.modifier.toInt) ∧
        (if dice.Explodes then spec.count.toNat ≤ values.length
          else values.length = spec.count.toNat) ∧
        s'.draws = s.draws ++ List.replicate values.length (dice.draw spec.sides)) ∧
      (∀ halt last, dice.roll spec sorted s = .error halt last →
        (dice.Explodes ∧ halt = .unfinished) ∨
        (¬ dice.Explodes ∧ halt = .failed (.arithmetic .overflow) ∧
          ∃ faces, Faces dice spec.sides s faces last ∧
            ∃ face ∈ faces, OnDie spec.sides face ∧
              ¬ Fits (face.toInt + spec.modifier.toInt)))) := by
  refine ⟨fun cause hcheck => ?_, fun hcheck hsome hlimit => ?_, fun hcheck hempty => ?_,
    fun hcheck hsome hlimit => ?_⟩
  · rw [roll_of_check_error hcheck]
    rfl
  · rw [roll_of_limit_lt hcheck hsome hlimit]
    rfl
  · rw [roll_of_isEmpty hcheck hempty]
    rfl
  · have hface := returns_face_of_check hσ hpareto hcheck (spec.not_isEmpty_iff.mp hsome).2
    exact ⟨fun values s' => values_of_roll hface hsome,
      fun halt last => overflow_of_roll hface hfits hcheck hsome hlimit⟩

/-- Weighted dice of four sides: 1.4 lies in the second slice, and 5 beyond all of them. -/
theorem roll_ends_pareto :
    let script : Script := ⟨1, 1, .ofList 0 [], .ofList 0 [], .ofList 1 [1.4, 5.0]⟩
    let spec : DiceSpec := ⟨2, 4, 3⟩
    RandomSource.Bounded Script ∧ RandomSource.DrawsPareto Script ∧
      ∃ s', (pareto 10.0).roll spec false ⟨script, #[]⟩ = .ok [5, 7] s' ∧
        (∀ x ∈ ([5, 7] : List Int64), 1 + 3 ≤ x.toInt ∧ x.toInt ≤ 4 + 3) ∧
        s'.draws = [.pareto 10.0, .pareto 10.0] := by
  intro script spec
  have hvalues : Attempt.value? ((pareto 10.0).roll spec false (⟨script, #[]⟩ : Sampler Script)) =
      some [5, 7] := by decide +kernel
  obtain ⟨s', hroll⟩ := Attempt.exists_of_value? hvalues
  have hcheck : (pareto 10.0).check spec = .ok () := by decide +kernel
  obtain ⟨hrange, -, hdraws⟩ := ((roll_ends (pareto 10.0) spec false ⟨script, #[]⟩ Script.bounded
    Script.drawsPareto nofun).2.2.2 hcheck (by decide) (Nat.le_of_ble_eq_true rfl)).1 _ s' hroll
  exact ⟨Script.bounded, Script.drawsPareto, s', hroll, hrange, hdraws⟩

/-! ## How many dice are thrown -/

/-- Without explosions there are only so many draws to wait for. -/
theorem roll_ne_unfinished (hplain : ¬ dice.Explodes)
    (hdraws : ∀ t last : Sampler σ, dice.face spec.sides t ≠ .error .unfinished last) :
    dice.roll spec sorted s ≠ .error .unfinished last := by
  intro hroll
  cases hcheck : dice.check spec with
  | error cause =>
      rw [roll_of_check_error hcheck] at hroll
      cases hroll
  | ok =>
      by_cases hempty : spec.isEmpty
      · rw [roll_of_isEmpty hcheck hempty] at hroll
        exact absurd hroll Attempt.pure_ne_error
      by_cases hlimit : spec.count.toNat ≤ limit
      · rcases halt_of_roll hcheck hempty hlimit hroll with
          ⟨-, hexplodes⟩ | ⟨count, mid, hthrow, -⟩
        · exact hplain hexplodes
        · rcases halt_of_throwEach hthrow with ⟨t, hface⟩ | hoverflow
          · exact hdraws t last hface
          · cases hoverflow
      · rw [roll_of_limit_lt hcheck hempty (Nat.lt_of_not_le hlimit)] at hroll
        cases hroll

/-- A roll that returns has drawn once for each die asked for, and if they explode once for each top
face. So its values and draws stay within the limit exactly if the dice do not explode, there is
nothing to throw, or the dice asked for and the top faces together do not exceed it. A roll without
explosions ends on every source whose draws end. -/
theorem roll_within_limit_iff (dice : Dice) (spec : DiceSpec) (sorted : Bool) (s : Sampler σ) :
    (∀ values s', dice.roll spec sorted s = .ok values s' →
      ∃ made, s'.draws = s.draws ++ made ∧
        made.length = (if spec.isEmpty then 0
          else spec.count.toNat + if dice.Explodes then values.count (topValue spec) else 0) ∧
        (values.length ≤ limit ∧ made.length ≤ limit ↔
          ¬ dice.Explodes ∨ spec.isEmpty ∨
            spec.count.toNat + values.count (topValue spec) ≤ limit)) ∧
    (¬ dice.Explodes → (∀ t last : Sampler σ, dice.face spec.sides t ≠ .error .unfinished last) →
      ∀ last, dice.roll spec sorted s ≠ .error .unfinished last) := by
  refine ⟨fun values s' hroll => ?_, fun hplain hdraws _ => roll_ne_unfinished hplain hdraws⟩
  by_cases hempty : spec.isEmpty
  · rw [roll_of_isEmpty (check_of_roll hroll) hempty] at hroll
    obtain ⟨rfl, rfl⟩ := Attempt.pure_eq_ok_iff.mp hroll
    exact ⟨[], (List.append_nil _).symm, (if_pos hempty).symm, by simp [hempty, limit]⟩
  obtain ⟨-, -, -, -, -, hlimit, hlength⟩ := exists_faces_of_roll hempty hroll
  refine ⟨_, draws_of_roll hempty hroll, ?_, ?_⟩
  · rw [List.length_replicate, hlength, if_neg hempty]
  rw [List.length_replicate, and_self]
  by_cases hexplodes : dice.Explodes
  · rw [if_pos hexplodes] at hlength
    simp [hempty, hexplodes, hlength]
  · rw [if_neg hexplodes] at hlength
    simp [hexplodes, hlength, hlimit]

/-- A nine and a ten, which adds a die: three dice are within the limit. Without explosions the same
dice come to an end on every script. -/
theorem roll_within_limit_three :
    let script : Script := ⟨9, 1, .ofList 0 [], .ofList 0 [], .ofList 0 []⟩
    let spec : DiceSpec := ⟨2, 10, 0⟩
    (∃ s' made, (pool 6 true).roll spec false ⟨script, #[]⟩ = .ok [9, 10, 1] s' ∧
      s'.draws = made ∧ made.length = 3 ∧ made.length ≤ limit) ∧
    ∀ s last : Sampler Script, (pool 6 false).roll spec false s ≠ .error .unfinished last := by
  intro script spec
  constructor
  · have hvalues : Attempt.value? ((pool 6 true).roll spec false
        (⟨script, #[]⟩ : Sampler Script)) = some [9, 10, 1] := by decide +kernel
    obtain ⟨s', hroll⟩ := Attempt.exists_of_value? hvalues
    obtain ⟨made, hdraws, hlength, hwithin⟩ :=
      (roll_within_limit_iff (pool 6 true) spec false ⟨script, #[]⟩).1 _ s' hroll
    have hthree : spec.count.toNat + [9, 10, 1].count (topValue spec) ≤ limit :=
      Nat.le_of_ble_eq_true rfl
    exact ⟨s', made, hroll, hdraws, hlength, (hwithin.mpr (.inr (.inr hthree))).2⟩
  · intro s
    have hsides : 0 < spec.sides.toNat := Nat.le_of_ble_eq_true rfl
    exact (roll_within_limit_iff (pool 6 false) spec false s).2 Bool.false_ne_true
      fun _ _ => (returns_face Script.bounded hsides).ne_error

/-! ## Scripts past the limit -/

theorem face_script {sides : UInt32} (hsides : 0 < sides.toNat) (s : Sampler Script) :
    fair.face sides s = .ok (Script.place s.source.current 1 (sidesInt64 sides))
      ⟨{ s.source with current := s.source.current + s.source.step },
        s.journal.push (.draw (fair.draw sides))⟩ :=
  Sampler.primitive_of_ok (if_neg (Int64.not_lt.mpr (one_le_sidesInt64 hsides)))

/-- An integer that is on the die is drawn as it is. -/
theorem place_of_onDie {sides : UInt32} {current : Int64} (h : OnDie sides current) :
    Script.place current 1 (sidesInt64 sides) = current := by
  obtain ⟨hlo, hhi⟩ := h
  have hplace : 1 + (current.toInt - 1) % (sides.toNat - 1 + 1) = current.toInt := by
    rw [Int.emod_eq_of_lt (by omega) (by omega)]
    omega
  rw [Script.place, sidesInt64_toInt, Int64.toInt_one, hplace, Int64.ofInt_toInt]

/-- The next integers that the script draws are `n`, `n + 1` and so on, as far as they are in
range. -/
def CountsFrom (n : Nat) (s : Sampler Script) : Prop :=
  s.source.current.toInt = n ∧ s.source.step = 1

theorem CountsFrom.face {n : Nat} {s : Sampler Script} {sides : UInt32} (h : CountsFrom n s)
    (hlo : 1 ≤ n) (hhi : n ≤ sides.toNat) :
    ∃ s', fair.face sides s = .ok s.source.current s' ∧ CountsFrom (n + 1) s' := by
  obtain ⟨hcurrent, hstep⟩ := h
  have hsize : sides.toNat < 2 ^ 32 := sides.toNat_lt
  have hface := face_script (Nat.lt_of_lt_of_le hlo hhi) s
  rw [place_of_onDie ⟨by omega, by omega⟩, hstep] at hface
  have hfits : Fits (s.source.current.toInt + (1 : Int64).toInt) := by
    rw [hcurrent, Int64.toInt_one]
    exact fits_iff.mpr ⟨by omega, by omega⟩
  have hnext : (s.source.current + 1).toInt = (n + 1 : Nat) := by
    rw [toInt_add_of_fits hfits, hcurrent, Int64.toInt_one, Int.natCast_succ]
  exact ⟨_, hface, hnext, hstep⟩

/-- Dice with more sides than are counted do not come to their top face. -/
theorem CountsFrom.exists_faces {n count : Nat} {s : Sampler Script} {sides : UInt32}
    (h : CountsFrom n s) (hlo : 1 ≤ n) (hhi : n + count ≤ sides.toNat) :
    ∃ faces s', Faces fair sides s faces s' ∧ faces.length = count ∧
      sidesInt64 sides ∉ faces ∧ CountsFrom (n + count) s' := by
  induction count generalizing n s with
  | zero => exact ⟨[], s, .nil, rfl, List.not_mem_nil, h⟩
  | succ count ih =>
      have hface : n ≤ sides.toNat := by omega
      obtain ⟨mid, hface, hmid⟩ := h.face hlo hface
      have hmore : n + 1 + count ≤ sides.toNat := by omega
      obtain ⟨faces, s', hfaces, hlength, htop, hs'⟩ := ih hmid (Nat.succ_pos n) hmore
      have hother : sidesInt64 sides ≠ s.source.current := by
        intro heq
        have hcurrent := h.1
        rw [← heq, sidesInt64_toInt] at hcurrent
        omega
      rw [Nat.add_assoc, Nat.add_comm 1 count] at hs'
      exact ⟨_ :: faces, s', .cons hface hfaces, congrArg (· + 1) hlength,
        fun hmem => (List.mem_cons.mp hmem).elim hother htop, hs'⟩

/-- A script that stands still shows the same face for ever. -/
theorem staysOnTop_script {sides : UInt32} (hsides : 0 < sides.toNat) :
    StaysOnTop (fun s : Sampler Script => s.source.current = sidesInt64 sides ∧ s.source.step = 0)
      sides := by
  rintro s ⟨hcurrent, hstep⟩
  have hdie : OnDie sides (sidesInt64 sides) := by
    rw [OnDie, sidesInt64_toInt]
    omega
  have hface := face_script hsides s
  rw [hcurrent, place_of_onDie hdie, hstep, Int64.add_zero] at hface
  exact ⟨_, hface, rfl, hstep⟩

/-- A wave with a single top value adds a wave of one die. -/
theorem Waves.of_one_top {top : Int64} {others added : List Int64} (hothers : top ∉ others)
    (hadded : top ∉ added) (hone : added.length = 1) :
    Waves top (others.length + 1) [top :: others, added] := by
  have hnone : Waves top (added.count top) [] := by
    rw [List.count_eq_zero_of_not_mem hadded]
    exact .nil
  have hcount : (top :: others).count top = added.length := by
    rw [List.count_cons_self, List.count_eq_zero_of_not_mem hothers, hone]
  have hlast := Waves.cons (List.ne_nil_of_length_eq_add_one hone) hnone
  rw [← hcount] at hlast
  exact .cons (List.cons_ne_nil _ _) hlast

/-- If the first die shows its top face and the others are counted up from one, then no other die
explodes, and one die more than asked for is thrown. -/
theorem exists_roll_of_countsFrom {target : Int64} {count sides : UInt32} {s start : Sampler Script}
    (hfirst : fair.face sides s = .ok (sidesInt64 sides) start) (hcounts : CountsFrom 1 start)
    (hcount : 0 < count.toNat) (hlimit : count.toNat ≤ limit) (hsides : count.toNat < sides.toNat) :
    ∃ values s', (pool target true).roll ⟨count, sides, 0⟩ false s = .ok values s' ∧
      values.length = count.toNat + 1 ∧ s'.draws.length = s.draws.length + (count.toNat + 1) := by
  have htop : topValue ⟨count, sides, 0⟩ = sidesInt64 sides := Int64.add_zero _
  obtain ⟨more, hmore⟩ := Nat.exists_eq_succ_of_ne_zero (Nat.ne_of_gt hcount)
  have hothers : 1 + more ≤ sides.toNat := by omega
  obtain ⟨others, mid, hothers, hothersLength, hothersTop, hcounts⟩ :=
    hcounts.exists_faces (Nat.le_refl 1) hothers
  have hadded : 1 + more + 1 ≤ sides.toNat := by omega
  obtain ⟨added, s', hadded, haddedLength, haddedTop, -⟩ :=
    hcounts.exists_faces (Nat.le_add_right 1 more) hadded
  have hwaves : Waves (topValue ⟨count, sides, 0⟩) count.toNat
      [sidesInt64 sides :: others, added] := by
    rw [htop, hmore, ← hothersLength]
    exact .of_one_top hothersTop haddedTop haddedLength
  have hfaces := (Faces.cons hfirst hothers).append hadded
  have hshows : Shows 0 (sidesInt64 sides :: others ++ added)
      [sidesInt64 sides :: others, added].flatten := by
    simp [Shows]
  have hnumber : (sidesInt64 sides :: others ++ added).length = count.toNat + 1 := by
    rw [List.length_append, List.length_cons, hothersLength, haddedLength, hmore]
  have hsides : 2 ≤ sides.toNat := by omega
  have hwavesLength : [sidesInt64 sides :: others, added].length ≤ patience + 1 :=
    Nat.le_of_ble_eq_true rfl
  have hpositive : 0 < sides.toNat := Nat.lt_of_succ_lt hsides
  refine ⟨_, s', (roll_eq_ok_iff_waves (check_pool hsides) hcount hlimit hpositive).mpr
    ⟨_, _, rfl, hwavesLength, hwaves, hfaces, hshows⟩, ?_, ?_⟩
  · rw [hshows.length_eq, hnumber]
  · rw [hfaces.draws_eq, List.length_append, List.length_replicate, hnumber]

/-- Of ten thousand dice the first one explodes, so one more than the limit is thrown. A die that
always shows its top face is thrown for ever. -/
theorem pool_outgrows_limit :
    (let script : Script := ⟨0, 1, .ofList 0 [], .ofList 0 [], .ofList 0 []⟩
      ∃ values s', (pool 1 true).roll ⟨10000, 10001, 0⟩ false ⟨script, #[]⟩ = .ok values s' ∧
        limit < values.length ∧ limit < s'.draws.length) ∧
    (let script : Script := ⟨2, 0, .ofList 0 [], .ofList 0 [], .ofList 0 []⟩
      ∃ last, (pool 1 true).roll ⟨1, 2, 0⟩ false ⟨script, #[]⟩ = .error .unfinished last) := by
  constructor
  · intro script
    obtain ⟨start, hfirst, hcounts⟩ : ∃ start, fair.face 10001 ⟨script, #[]⟩ =
        .ok (sidesInt64 10001) start ∧ CountsFrom 1 start := by
      have hplace : Script.place script.current 1 (sidesInt64 10001) = sidesInt64 10001 := by
        decide +kernel
      have hsides : 0 < (10001 : UInt32).toNat := Nat.le_of_ble_eq_true rfl
      have hface := face_script hsides ⟨script, #[]⟩
      rw [hplace] at hface
      exact ⟨_, hface, rfl, rfl⟩
    have hcount : 0 < (10000 : UInt32).toNat := Nat.le_of_ble_eq_true rfl
    obtain ⟨values, s', hroll, hlength, hdraws⟩ := exists_roll_of_countsFrom hfirst hcounts hcount
      (Nat.le_of_ble_eq_true rfl) (Nat.le_of_ble_eq_true rfl)
    refine ⟨values, s', hroll, ?_, ?_⟩
    · rw [hlength]
      exact Nat.lt_succ_self 10000
    · rw [hdraws]
      exact Nat.lt_add_left _ (Nat.lt_succ_self 10000)
  · intro script
    exact roll_unfinished (staysOnTop_script (Nat.le_of_ble_eq_true rfl)) ⟨rfl, rfl⟩
      (check_pool (Nat.le_refl 2)) (Nat.le_of_ble_eq_true rfl) (Nat.le_of_ble_eq_true rfl)
      (Nat.le_of_ble_eq_true rfl) (by constructor <;> decide)

end Dice

end Tabletop
