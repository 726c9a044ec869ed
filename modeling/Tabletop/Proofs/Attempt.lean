/-
# How computations end

A sequence of computations ends with a value exactly when all its members do, each from the state
that the one before it left. It halts where its first halting member does. Later proofs take
computations apart with these equivalences and never look into the monad.
-/

import Tabletop.Attempt

namespace Tabletop.Attempt

variable {ε ε' σ σ' α β : Type}

theorem pure_eq_ok_iff {a b : α} {s s' : σ} :
    (pure a : Attempt ε σ α) s = .ok b s' ↔ b = a ∧ s' = s := by
  constructor
  · intro h
    cases h
    exact ⟨rfl, rfl⟩
  · rintro ⟨rfl, rfl⟩
    rfl

theorem pure_ne_error {a : α} {halt : Halt ε} {s s' : σ} :
    (pure a : Attempt ε σ α) s ≠ .error halt s' :=
  nofun

theorem bind_of_ok {x : Attempt ε σ α} {f : α → Attempt ε σ β} {a : α} {s mid : σ}
    (h : x s = .ok a mid) : (x >>= f) s = f a mid := by
  simp only [bind, EStateM.bind, h]

theorem bind_of_error {x : Attempt ε σ α} {f : α → Attempt ε σ β} {halt : Halt ε} {s mid : σ}
    (h : x s = .error halt mid) : (x >>= f) s = .error halt mid := by
  simp only [bind, EStateM.bind, h]

theorem bind_eq_ok_iff {x : Attempt ε σ α} {f : α → Attempt ε σ β} {b : β} {s s' : σ} :
    (x >>= f) s = .ok b s' ↔ ∃ a mid, x s = .ok a mid ∧ f a mid = .ok b s' := by
  constructor
  · intro h
    cases hx : x s with
    | ok a mid =>
        rw [bind_of_ok hx] at h
        exact ⟨a, mid, rfl, h⟩
    | error halt mid => rw [bind_of_error hx] at h; cases h
  · rintro ⟨a, mid, hx, hf⟩
    rw [bind_of_ok hx, hf]

theorem bind_eq_error_iff {x : Attempt ε σ α} {f : α → Attempt ε σ β} {halt : Halt ε} {s s' : σ} :
    (x >>= f) s = .error halt s' ↔
      x s = .error halt s' ∨ ∃ a mid, x s = .ok a mid ∧ f a mid = .error halt s' := by
  constructor
  · intro h
    cases hx : x s with
    | ok a mid =>
        rw [bind_of_ok hx] at h
        exact .inr ⟨a, mid, rfl, h⟩
    | error halt' mid =>
        rw [bind_of_error hx] at h
        cases h
        exact .inl rfl
  · rintro (hx | ⟨a, mid, hx, hf⟩)
    · exact bind_of_error hx
    · rw [bind_of_ok hx, hf]

theorem map_eq_ok_iff {f : α → β} {x : Attempt ε σ α} {b : β} {s s' : σ} :
    (f <$> x) s = .ok b s' ↔ ∃ a, x s = .ok a s' ∧ f a = b := by
  rw [← bind_pure_comp, bind_eq_ok_iff]
  constructor
  · rintro ⟨a, mid, hx, hf⟩
    obtain ⟨rfl, rfl⟩ := pure_eq_ok_iff.mp hf
    exact ⟨a, hx, rfl⟩
  · rintro ⟨a, hx, rfl⟩
    exact ⟨a, s', hx, rfl⟩

theorem map_eq_error_iff {f : α → β} {x : Attempt ε σ α} {halt : Halt ε} {s s' : σ} :
    (f <$> x) s = .error halt s' ↔ x s = .error halt s' := by
  rw [← bind_pure_comp, bind_eq_error_iff]
  constructor
  · rintro (hx | ⟨a, mid, -, hf⟩)
    · exact hx
    · exact absurd hf pure_ne_error
  · exact .inl

theorem ofExcept_eq_ok_iff {f : ε' → ε} {x : Except ε' α} {a : α} {s s' : σ} :
    (ofExcept f x : Attempt ε σ α) s = .ok a s' ↔ x = .ok a ∧ s' = s := by
  cases x with
  | ok b =>
      rw [ofExcept, pure_eq_ok_iff, Except.ok.injEq, eq_comm]
  | error cause => exact ⟨nofun, nofun⟩

theorem ofExcept_eq_error_iff {f : ε' → ε} {x : Except ε' α} {halt : Halt ε} {s s' : σ} :
    (ofExcept f x : Attempt ε σ α) s = .error halt s' ↔
      ∃ cause, x = .error cause ∧ halt = .failed (f cause) ∧ s' = s := by
  cases x with
  | ok b => exact ⟨nofun, nofun⟩
  | error cause =>
      constructor
      · intro h
        cases h
        exact ⟨cause, rfl, rfl, rfl⟩
      · rintro ⟨_, ⟨⟩, rfl, rfl⟩
        rfl

/-- A computation on a part of the state ends with a value when it does on that part alone. -/
theorem onPart_eq_ok_iff {split : σ → σ' × (σ' → σ)} {f : ε' → ε} {x : Attempt ε' σ' α} {a : α}
    {s s' : σ} :
    onPart split f x s = .ok a s' ↔ ∃ part, x (split s).1 = .ok a part ∧ (split s).2 part = s' := by
  unfold onPart
  cases hx : x (split s).1 with
  | ok b part => simp [hx, and_assoc]
  | error halt part => simp [hx]

theorem onPart_eq_error_iff {split : σ → σ' × (σ' → σ)} {f : ε' → ε} {x : Attempt ε' σ' α}
    {halt : Halt ε} {s s' : σ} :
    onPart split f x s = .error halt s' ↔
      ∃ cause part, x (split s).1 = .error cause part ∧ cause.map f = halt ∧
        (split s).2 part = s' := by
  unfold onPart
  cases hx : x (split s).1 with
  | ok b part => simp [hx]
  | error cause part => simp [hx, and_assoc]

/-- The value of an outcome, if there is one. The state is left out, so values can be compared where
states cannot. -/
def value? : EStateM.Result (Halt ε) σ α → Option α
  | .ok a _ => some a
  | .error _ _ => none

theorem exists_of_value? {outcome : EStateM.Result (Halt ε) σ α} {a : α}
    (h : value? outcome = some a) : ∃ s, outcome = .ok a s := by
  cases outcome with
  | ok b s => exact ⟨s, by rw [Option.some.inj h]⟩
  | error halt s => cases h

/-- Why an outcome has no value, if it has none. -/
def halt? : EStateM.Result (Halt ε) σ α → Option (Halt ε)
  | .ok _ _ => none
  | .error halt _ => some halt

theorem exists_of_halt? {outcome : EStateM.Result (Halt ε) σ α} {halt : Halt ε}
    (h : halt? outcome = some halt) : ∃ s, outcome = .error halt s := by
  cases outcome with
  | ok b s => cases h
  | error halt' s => exact ⟨s, by rw [Option.some.inj h]⟩

/-! ## Properties that sequencing keeps -/

/-- The property holds of values and failures, and of a sequence if it holds of its members. -/
structure Sequential (P : ∀ {α : Type}, Attempt ε σ α → Prop) : Prop where
  pure {α : Type} (a : α) : P (Pure.pure a : Attempt ε σ α)
  throw {α : Type} (halt : Halt ε) : P (MonadExcept.throw halt : Attempt ε σ α)
  bind {α β : Type} {x : Attempt ε σ α} {f : α → Attempt ε σ β} :
    P x → (∀ a, P (f a)) → P (x >>= f)

namespace Sequential

variable {P : ∀ {α : Type}, Attempt ε σ α → Prop}

theorem map (hP : Sequential P) {x : Attempt ε σ α} (hx : P x) (f : α → β) : P (f <$> x) := by
  rw [← bind_pure_comp]
  exact hP.bind hx fun a => hP.pure (f a)

theorem ofExcept (hP : Sequential P) (f : ε' → ε) (x : Except ε' α) :
    P (Attempt.ofExcept f x : Attempt ε σ α) := by
  cases x with
  | ok a => exact hP.pure a
  | error cause => exact hP.throw _

end Sequential

/-! ## What a computation leaves alone -/

/-- The state that an outcome leaves behind. -/
def final : EStateM.Result (Halt ε) σ α → σ
  | .ok _ s | .error _ s => s

/-- What an outcome says, without the state that it leaves behind. -/
def answer : EStateM.Result (Halt ε) σ α → Except (Halt ε) α
  | .ok a _ => .ok a
  | .error halt _ => .error halt

/-- However the computation ends, `f` has the value that it had before. -/
def Keeps (f : σ → β) (x : Attempt ε σ α) : Prop :=
  ∀ s, f (final (x s)) = f s

namespace Keeps

variable {γ : Type} {f : σ → γ}

theorem pure (a : α) : Keeps f (Pure.pure a : Attempt ε σ α) :=
  fun _ => rfl

theorem throw (halt : Halt ε) : Keeps f (MonadExcept.throw halt : Attempt ε σ α) :=
  fun _ => rfl

/-- What the second computation keeps is settled when the first one ends. -/
theorem final_bind {g : α → Attempt ε σ β} (hg : ∀ a, Keeps f (g a)) (x : Attempt ε σ α) (s : σ) :
    f (final ((x >>= g) s)) = f (final (x s)) := by
  cases hrun : x s with
  | ok a mid => rw [bind_of_ok hrun, hg a mid]; rfl
  | error halt mid => rw [bind_of_error hrun]; rfl

theorem bind {x : Attempt ε σ α} {g : α → Attempt ε σ β} (hx : Keeps f x)
    (hg : ∀ a, Keeps f (g a)) : Keeps f (x >>= g) :=
  fun s => (final_bind hg x s).trans (hx s)

theorem sequential (f : σ → γ) : Sequential (Keeps (ε := ε) f) :=
  ⟨pure, throw, bind⟩

theorem ofExcept {g : ε' → ε} (x : Except ε' α) :
    Keeps f (Attempt.ofExcept g x : Attempt ε σ α) :=
  (sequential f).ofExcept g x

/-- A computation on a part of the state keeps what only depends on that part and is kept there. -/
theorem onPart {split : σ → σ' × (σ' → σ)} {g : ε' → ε} {h : σ' → γ} {x : Attempt ε' σ' α}
    (hpart : ∀ s part, h part = h (split s).1 → f ((split s).2 part) = f s) (hx : Keeps h x) :
    Keeps f (Attempt.onPart split g x) := by
  intro s
  have hrun := hx (split s).1
  unfold Attempt.onPart
  cases hx' : x (split s).1 with
  | ok a part => simp only [hx'] at hrun ⊢; exact hpart s part hrun
  | error halt part => simp only [hx'] at hrun ⊢; exact hpart s part hrun

end Keeps

/-! ## Two runs side by side -/

/-- Both outcomes have the same value, or both halted for the same reason, and the states that they
leave behind are related. -/
inductive SameAnswer (R : σ → σ → Prop) :
    EStateM.Result (Halt ε) σ α → EStateM.Result (Halt ε) σ α → Prop
  | ok {a : α} {s t : σ} : R s t → SameAnswer R (.ok a s) (.ok a t)
  | error {halt : Halt ε} {s t : σ} : R s t → SameAnswer R (.error halt s) (.error halt t)

/-- From related states the computation gives the same answer and comes to related states. -/
def Respects (R : σ → σ → Prop) (x : Attempt ε σ α) : Prop :=
  ∀ s t, R s t → SameAnswer R (x s) (x t)

namespace SameAnswer

variable {R S : σ → σ → Prop} {first second third : EStateM.Result (Halt ε) σ α}

theorem final (h : SameAnswer R first second) : R (final first) (final second) := by
  cases h with
  | ok hstates | error hstates => exact hstates

theorem answer_eq (h : SameAnswer R first second) : answer first = answer second := by
  cases h with
  | ok | error => rfl

/-- The states may be related in another way than the one known first. -/
theorem of_final (h : SameAnswer R first second)
    (hS : S (Attempt.final first) (Attempt.final second)) : SameAnswer S first second := by
  cases h with
  | ok => exact .ok hS
  | error => exact .error hS

theorem symm (h : SameAnswer R first second) : SameAnswer (fun s t => R t s) second first := by
  cases h with
  | ok hstates => exact .ok hstates
  | error hstates => exact .error hstates

theorem trans (h : SameAnswer R first second) (h' : SameAnswer S second third) :
    SameAnswer (fun s u => ∃ t, R s t ∧ S t u) first third := by
  cases h with
  | ok hstates =>
      cases h' with
      | ok hstates' => exact .ok ⟨_, hstates, hstates'⟩
  | error hstates =>
      cases h' with
      | error hstates' => exact .error ⟨_, hstates, hstates'⟩

end SameAnswer

namespace Respects

variable {R S : σ → σ → Prop}

theorem eq (x : Attempt ε σ α) : Respects Eq x := by
  rintro s _ rfl
  cases x s with
  | ok a s' => exact .ok rfl
  | error halt s' => exact .error rfl

theorem symm {x : Attempt ε σ α} (h : Respects R x) : Respects (fun s t => R t s) x :=
  fun s t hst => (h t s hst).symm

theorem trans {x : Attempt ε σ α} (h : Respects R x) (h' : Respects S x) :
    Respects (fun s u => ∃ t, R s t ∧ S t u) x :=
  fun s u ⟨t, hst, htu⟩ => (h s t hst).trans (h' t u htu)

theorem pure (a : α) : Respects R (Pure.pure a : Attempt ε σ α) :=
  fun _ _ h => .ok h

theorem throw (halt : Halt ε) : Respects R (MonadExcept.throw halt : Attempt ε σ α) :=
  fun _ _ h => .error h

theorem bind {x : Attempt ε σ α} {f : α → Attempt ε σ β} (hx : Respects R x)
    (hf : ∀ a, Respects R (f a)) : Respects R (x >>= f) := by
  intro s t h
  have hfirst := hx s t h
  generalize hs : x s = outcome at hfirst
  generalize ht : x t = outcome' at hfirst
  cases hfirst with
  | ok hmid =>
      rw [bind_of_ok hs, bind_of_ok ht]
      exact hf _ _ _ hmid
  | error hmid =>
      rw [bind_of_error hs, bind_of_error ht]
      exact .error hmid

theorem sequential (R : σ → σ → Prop) : Sequential (Respects (ε := ε) R) :=
  ⟨pure, throw, bind⟩

theorem map {x : Attempt ε σ α} (hx : Respects R x) (f : α → β) : Respects R (f <$> x) :=
  (sequential R).map hx f

theorem ofExcept {f : ε' → ε} (x : Except ε' α) :
    Respects R (Attempt.ofExcept f x : Attempt ε σ α) :=
  (sequential R).ofExcept f x

/-- A computation on a part of the state respects what it respects there, as long as parts that are
put back are related again. -/
theorem onPart {split : σ → σ' × (σ' → σ)} {f : ε' → ε} {x : Attempt ε' σ' α}
    {P : σ' → σ' → Prop} (hout : ∀ s t, R s t → P (split s).1 (split t).1)
    (hback : ∀ s t, R s t → ∀ p q, P p q → R ((split s).2 p) ((split t).2 q))
    (hx : Respects P x) : Respects R (Attempt.onPart split f x) := by
  intro s t h
  have hpart := hx _ _ (hout s t h)
  generalize hs : x (split s).1 = outcome at hpart
  generalize ht : x (split t).1 = outcome' at hpart
  unfold Attempt.onPart
  simp only [hs, ht]
  cases hpart with
  | ok hpq => exact .ok (hback s t h _ _ hpq)
  | error hpq => exact .error (hback s t h _ _ hpq)

end Respects

/-! ## Computations that never halt -/

/-- From every state the computation ends with a value that satisfies `p`. -/
def Returns (x : Attempt ε σ α) (p : α → Prop) : Prop :=
  ∀ s, ∃ a s', x s = .ok a s' ∧ p a

namespace Returns

variable {p : α → Prop} {q : β → Prop}

theorem of_ok {x : Attempt ε σ α} {a : α} {s s' : σ} (hx : Returns x p) (h : x s = .ok a s') :
    p a := by
  obtain ⟨b, _, hrun, hb⟩ := hx s
  cases h.symm.trans hrun
  exact hb

theorem ne_error {x : Attempt ε σ α} {halt : Halt ε} {s s' : σ} (hx : Returns x p) :
    x s ≠ .error halt s' := by
  intro h
  obtain ⟨a, _, hrun, -⟩ := hx s
  cases h.symm.trans hrun

theorem pure {a : α} (h : p a) : Returns (Pure.pure a : Attempt ε σ α) p :=
  fun s => ⟨a, s, rfl, h⟩

theorem bind {x : Attempt ε σ α} {f : α → Attempt ε σ β} (hx : Returns x p)
    (hf : ∀ a, p a → Returns (f a) q) : Returns (x >>= f) q := by
  intro s
  obtain ⟨a, mid, hrun, ha⟩ := hx s
  rw [bind_of_ok hrun]
  exact hf a ha mid

theorem ofExcept {f : ε' → ε} {x : Except ε' α} {a : α} (hx : x = .ok a) (h : p a) :
    Returns (Attempt.ofExcept f x : Attempt ε σ α) p := by
  rw [hx]
  exact pure h

theorem onPart {split : σ → σ' × (σ' → σ)} {f : ε' → ε} {x : Attempt ε' σ' α}
    (hx : Returns x p) : Returns (Attempt.onPart split f x) p := by
  intro s
  obtain ⟨a, part, hrun, ha⟩ := hx (split s).1
  exact ⟨a, _, onPart_eq_ok_iff.mpr ⟨part, hrun, rfl⟩, ha⟩

end Returns

end Tabletop.Attempt
