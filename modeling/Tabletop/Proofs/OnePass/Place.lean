/-
# Where a term stands

What the reading machine has open when it comes to a token is what the parser has still to do
behind that token. A context of the machine is turned here into work that is done at once, and a
place: the bindings and the continuation of the parser. The work is the evaluation of everything
that was complete in the context, from left to right, and it is all that is left of a context when
reading breaks off.
-/

import Tabletop.Proofs.Grammar
import Tabletop.Proofs.TwoPasses

namespace Tabletop.Calculator

open Tabletop.Calculator.Parser Reading Grammar

variable {σ α : Type} [RandomSource σ]

/-! ## Continuations -/

/-- What is done with a value and the tokens behind it. -/
abbrev Return (σ α : Type) : Type :=
  α → List Token → Calculation σ Value

/-- Go on with what was found, whatever the bound on the tokens that are left. -/
def andThen {n : Nat} (x : Calculation σ (Found α n)) (k : Return σ α) : Calculation σ Value := do
  let found ← x
  k found.value found.rest

/-- A place where a term or an expression can stand: the bindings around it, and what is done
behind it. -/
structure Place (σ : Type) where
  scope : Scope
  ret : Return σ Number

section Operators

variable (size : Nat)

/-- The waiting operands of one level, evaluated. -/
def evalWaiting (scope : Scope) :
    Option (Expr × BinaryOp) → Calculation σ (Option (Number × BinaryOp))
  | none => pure none
  | some (lhs, op) => do
      let x ← evalIn scope lhs
      return some (x, op)

/-- The operator that waits for its right operand has got it. -/
def applyWaiting : Option (Number × BinaryOp) → Number → Calculation σ Number
  | none, x => pure x
  | some (lhs, op), x => apply op lhs x

/-- Evaluate what waits on one level of the expression at `place`, and go on where its next term
stands. -/
def onLevel (pending : Pending) (place : Place σ) (k : Place σ → Calculation σ Value) :
    Calculation σ Value := do
  let sum ← evalWaiting place.scope pending.sum
  let product ← evalWaiting place.scope pending.product
  k ⟨place.scope, fun x ts => do
    let x ← applyWaiting product x
    andThen (products size place.scope x ts) fun x ts => do
      let x ← applyWaiting sum x
      andThen (sums size place.scope x ts) place.ret⟩

/-- Where the first term of the expression at `place` stands. -/
def firstTerm (place : Place σ) : Place σ where
  scope := place.scope
  ret x ts :=
    andThen (products size place.scope x ts) fun x ts =>
    andThen (sums size place.scope x ts) place.ret

/-- Where the expression of a goal stands. -/
def goalPlace (goal : Goal) : Place σ where
  scope := []
  ret x ts :=
    match goal with
    | .evaluate => do
        expectEnd afterExpression ts
        note (.answered x)
        return .plain x
    | .assign name => do
        expectEnd afterExpression ts
        modify fun c => { c with globals := Dictionary.put name x c.globals }
        note (.assigned name x)
        return .plain x
    | .quantity =>
        andThen (consume size .comma ts) fun _ ts =>
        andThen (consume size .variable ts) fun unit ts =>
        andThen (consume size .rightParen ts) fun _ ts => do
          expectEnd [.endOfInput] ts
          note (.answeredQuantity x unit.text)
          return .quantity x unit.text

/-- Where the expression between the brackets of a term at `place` stands. -/
def parenPlace (place : Place σ) : Place σ where
  scope := place.scope
  ret x ts := andThen (consume size .rightParen ts) fun _ ts => place.ret x ts

/-- Where the distance of a `fuzz(` term at `place` stands, whose value is `x`. -/
def distancePlace (x : Number) (place : Place σ) : Place σ where
  scope := place.scope
  ret distance ts := andThen (consume size .rightParen ts) fun _ ts => do
    let y ← evaluate (Sampler.fuzz x.toFloat distance.toFloat)
    place.ret (.float y) ts

/-- Where the value of a `fuzz(` term at `place` stands. -/
def fuzzPlace (place : Place σ) : Place σ where
  scope := place.scope
  ret x ts :=
    andThen (consume size .comma ts) fun _ ts =>
    andThen (Parser.number size numberKinds ts) (distancePlace size x place).ret

/-- Where the body of a `let` term at `place` stands. -/
def bodyPlace (name : String) (x : Number) (place : Place σ) : Place σ where
  scope := (name, x) :: place.scope
  ret := place.ret

/-- Where the value of a `let` term at `place` stands. -/
def valuePlace (name : String) (place : Place σ) : Place σ where
  scope := place.scope
  ret x ts :=
    andThen (consume size .inWord ts) fun _ ts =>
    andThen (expr size (bodyPlace name x place).scope ts) (bodyPlace name x place).ret

/-- Go from the place of a term into what a frame has open there. -/
def enter : Frame → Place σ → (Place σ → Calculation σ Value) → Calculation σ Value
  | .paren _, place, k => k (parenPlace size place)
  | .fuzz _, place, k => k (fuzzPlace size place)
  | .letValue name _, place, k => k (valuePlace size name place)
  | .letBody name value _, place, k => do
      let x ← evalIn place.scope value
      k (bodyPlace name x place)

/-- The operators that wait outside of a frame. -/
def outer : Frame → Pending
  | .paren outer | .fuzz outer | .letValue _ outer | .letBody _ _ outer => outer

/-- Evaluate what was complete outside of some frames, and go on where the expression inside
stands. -/
def inFrames (goal : Goal) :
    List Frame → (Place σ → Calculation σ Value) → Calculation σ Value
  | [], k => k (goalPlace size goal)
  | frame :: frames, k =>
      inFrames goal frames fun place =>
        onLevel size (outer frame) place fun place => enter size frame place k

/-- Evaluate what was complete in a context, and go on where the next term stands. -/
def inContext (ctx : Context) (k : Place σ → Calculation σ Value) : Calculation σ Value :=
  inFrames size ctx.goal ctx.frames fun place => onLevel size ctx.pending place k

end Operators

/-! ## The work in a context -/

section Work

variable (size : Nat)

/-- The work of one level is to evaluate what waits on it. -/
theorem onLevel_work (pending : Pending) (place : Place σ) (steps : List Step)
    (x : Calculation σ Value) :
    (performIn place.scope (pending.work ++ steps) >>= fun _ => x) =
      onLevel size pending place fun place => performIn place.scope steps >>= fun _ => x := by
  obtain ⟨sum, product⟩ := pending
  cases sum <;> cases product <;>
    simp [Pending.work, onLevel, evalWaiting, performIn_evaluate]

/-- The work of a frame is that of the level around it and, for a `let` body, the value. -/
theorem frame_work (frame : Frame) (place : Place σ) (steps : List Step)
    (x : Calculation σ Value) :
    (performIn place.scope (frame.work ++ steps) >>= fun _ => x) =
      onLevel size (outer frame) place fun place =>
        enter size frame place fun place => performIn place.scope steps >>= fun _ => x := by
  cases frame with
  | paren pending | fuzz pending | letValue _ pending =>
      exact onLevel_work size pending place steps x
  | letBody name value pending =>
      rw [Frame.work, List.append_assoc, onLevel_work size pending place]
      simp only [List.singleton_append, performIn_bind, bind_assoc]
      rfl

theorem framesWork_cons (frame : Frame) (frames : List Frame) :
    framesWork (frame :: frames) = framesWork frames ++ frame.work := by
  simp [framesWork]

/-- Breaking off does the work of all frames and what was complete inside them. -/
theorem inFrames_work (goal : Goal) (frames : List Frame) (steps : List Step)
    (x : Calculation σ Value) :
    (performIn [] (framesWork frames ++ steps) >>= fun _ => x) =
      inFrames size goal frames fun place => performIn place.scope steps >>= fun _ => x := by
  induction frames generalizing steps with
  | nil => rfl
  | cons frame frames ih =>
      rw [framesWork_cons, List.append_assoc, ih, inFrames]
      congr
      funext place
      exact frame_work size frame place steps x

theorem inContext_work (ctx : Context) (steps : List Step) (x : Calculation σ Value) :
    (performIn [] (ctx.work ++ steps) >>= fun _ => x) =
      inContext size ctx fun place => performIn place.scope steps >>= fun _ => x := by
  rw [Context.work, List.append_assoc, inFrames_work size ctx.goal, inContext]
  congr
  funext place
  exact onLevel_work size ctx.pending place steps x

end Work

/-! ## Productions and what follows them -/

section Productions

variable {size : Nat} {scope : Scope} {t : Token} {ts : List Token}

omit [RandomSource σ] in
theorem andThen_consume {kind : TokenKind} (k : Return σ Token) :
    andThen (consume size kind (t :: ts)) k = (do
      accept t (if t.kind = kind then .ok () else refuse t [.token kind])
      k t ts) := by
  simp only [andThen, consume, bind_assoc, pure_bind]

theorem andThen_factor (k : Return σ Number) :
    andThen (factor size scope ts) k =
      andThen (term size scope ts) fun x ts => andThen (products size scope x ts) k := by
  simp only [andThen, factor, bind_assoc, pure_bind]

theorem andThen_expr (place : Place σ) :
    andThen (expr size place.scope ts) place.ret =
      andThen (term size place.scope ts) (firstTerm size place).ret := by
  calc
    andThen (expr size place.scope ts) place.ret
      = andThen (factor size place.scope ts) fun x ts =>
          andThen (sums size place.scope x ts) place.ret := by
        simp only [andThen, expr, bind_assoc, pure_bind]
    _ = andThen (term size place.scope ts) (firstTerm size place).ret := andThen_factor _

theorem andThen_products_of_none (x : Number) (k : Return σ Number)
    (h : ∀ t ∈ ts.head?, productOp? t.kind = none) :
    andThen (products size scope x ts) k = k x ts := by
  cases ts with
  | nil => simp only [andThen, products, pure_bind]
  | cons t ts => simp only [andThen, products, h t rfl, pure_bind]

theorem andThen_products_of_some {op : BinaryOp} (h : productOp? t.kind = some op) (x : Number)
    (k : Return σ Number) :
    andThen (products size scope x (t :: ts)) k =
      andThen (term size scope ts) (fun y ts => do
        let z ← apply op x y
        andThen (products size scope z ts) k) := by
  rw [andThen, products]
  simp only [h, andThen, bind_assoc, pure_bind]

theorem andThen_sums_of_none (x : Number) (k : Return σ Number)
    (h : ∀ t ∈ ts.head?, sumOp? t.kind = none) :
    andThen (sums size scope x ts) k = k x ts := by
  cases ts with
  | nil => simp only [andThen, sums, pure_bind]
  | cons t ts => simp only [andThen, sums, h t rfl, pure_bind]

theorem andThen_sums_of_some {op : BinaryOp} (h : sumOp? t.kind = some op) (x : Number)
    (k : Return σ Number) :
    andThen (sums size scope x (t :: ts)) k =
      andThen (factor size scope ts) (fun y ts => do
        let z ← apply op x y
        andThen (sums size scope z ts) k) := by
  rw [andThen, sums]
  simp only [h, andThen, bind_assoc, pure_bind]

end Productions

/-! ## Operands and operators -/

section Levels

variable {size : Nat} {pending : Pending} {place : Place σ} {e : Expr} {t : Token}
  {ts : List Token} {op : BinaryOp}

theorem onLevel_empty (k : Place σ → Calculation σ Value) :
    onLevel size .empty place k = k (firstTerm size place) := by
  simp only [onLevel, Pending.empty, evalWaiting, applyWaiting, pure_bind]
  rfl

/-- An operand that no operator follows ends the expression around it. -/
theorem onLevel_close (h : NoOperator ts) :
    (onLevel size pending place fun place => do
      let x ← evalIn place.scope e
      place.ret x ts) = (do
      let x ← evalIn place.scope (pending.closeSum e)
      place.ret x ts) := by
  have hsum : ∀ t ∈ ts.head?, sumOp? t.kind = none := fun t ht => (h t ht).1
  have hproduct : ∀ t ∈ ts.head?, productOp? t.kind = none := fun t ht => (h t ht).2
  obtain ⟨sum, product⟩ := pending
  cases sum <;> cases product <;>
    simp [onLevel, evalWaiting, applyWaiting, Pending.closeSum, Pending.closeProduct,
      evalIn_binary, andThen_products_of_none _ _ hproduct, andThen_sums_of_none _ _ hsum]

/-- An operand and an operator behind it wait for the right operand. -/
theorem onLevel_times (h : productOp? t.kind = some op) :
    (onLevel size pending place fun place => do
      let x ← evalIn place.scope e
      place.ret x (t :: ts)) =
      onLevel size (pending.times e op) place fun place =>
        andThen (term size place.scope ts) place.ret := by
  obtain ⟨sum, product⟩ := pending
  cases sum <;> cases product <;>
    simp [onLevel, evalWaiting, applyWaiting, Pending.times, Pending.closeProduct, evalIn_binary,
      andThen_products_of_some h]

theorem onLevel_plus (h : sumOp? t.kind = some op) :
    (onLevel size pending place fun place => do
      let x ← evalIn place.scope e
      place.ret x (t :: ts)) =
      onLevel size (pending.plus e op) place fun place =>
        andThen (term size place.scope ts) place.ret := by
  have hproduct : ∀ first ∈ (t :: ts).head?, productOp? first.kind = none := by
    rintro _ ⟨⟩
    cases hkind : t.kind <;> rw [hkind] at h <;> first | rfl | cases h
  obtain ⟨sum, product⟩ := pending
  cases sum <;> cases product <;>
    simp [onLevel, evalWaiting, applyWaiting, Pending.plus, Pending.closeProduct, Pending.closeSum,
      evalIn_binary, andThen_products_of_none _ _ hproduct, andThen_sums_of_some h,
      andThen_factor]

end Levels

end Tabletop.Calculator
