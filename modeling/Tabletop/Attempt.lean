/-
# Computations that may halt

A computation here changes a state and may end without a value. The state that it had reached
is part of its outcome either way, so draws made before a failure stay made. Running out of steps
is told apart from failing: loops that nothing but chance ends carry an allowance of steps, and
an exhausted allowance says nothing about the answer.
-/

namespace Tabletop

/-- Why a computation ended without a value. -/
inductive Halt (ε : Type)
  | failed (cause : ε)
  | unfinished
  deriving DecidableEq, Repr

def Halt.map {ε ε' : Type} (f : ε → ε') : Halt ε → Halt ε'
  | .failed cause => .failed (f cause)
  | .unfinished => .unfinished

/-- A computation over states of type `σ` that may fail with a cause of type `ε`. -/
abbrev Attempt (ε σ : Type) : Type → Type :=
  EStateM (Halt ε) σ

namespace Attempt

variable {ε ε' σ σ' α : Type}

def fail (cause : ε) : Attempt ε σ α :=
  throw (.failed cause)

/-- The allowance of steps is used up. -/
def giveUp : Attempt ε σ α :=
  throw .unfinished

/-- A result that is already known, its failure seen as a cause of type `ε`. -/
def ofExcept (f : ε' → ε) : Except ε' α → Attempt ε σ α
  | .ok a => pure a
  | .error cause => fail (f cause)

/-- Run a computation on a part of the state. `split` takes the part out, and puts any other part
in its place. -/
def onPart (split : σ → σ' × (σ' → σ)) (f : ε' → ε) (x : Attempt ε' σ' α) : Attempt ε σ α :=
  fun s =>
    let (part, replace) := split s
    match x part with
    | .ok a part => .ok a (replace part)
    | .error halt part => .error (halt.map f) (replace part)

end Attempt

end Tabletop
