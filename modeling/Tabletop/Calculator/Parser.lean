/-
# Reading and evaluating in one pass

A line of input is evaluated while it is read, by one function for each production of the grammar.
A production gives its value back as soon as its last token has been read, so draws are made in the
order in which the input asks for them, and a fault of the evaluation comes before any fault of the
tokens behind it. Nothing is kept but values and the bindings of the enclosing `let` terms.

What a production finds says how many tokens it left. This is why the recursion ends.
-/

import Tabletop.Calculator.Basic
import Tabletop.Statement.Literal

namespace Tabletop.Calculator.Parser

open Reading

/-- What was found at the beginning of some tokens, and those that were left, fewer than `limit`. -/
structure Found (α : Type) (limit : Nat) where
  value : α
  rest : List Token
  within : rest.length < limit

variable {σ α : Type}

/-- Take what the token `t` was read as, or report why it was refused. -/
def accept (t : Token) (reading : Except Complaint α) : Calculation σ α :=
  Attempt.ofExcept (fun complaint => .badSyntax (complaint.locate t.stop)) reading

/-! ## Tokens

Faults at the end of the input are placed at the byte `size`, where it ends. -/

section Tokens

variable (size : Nat)

/-- The input ended where more was needed. -/
def ended (expected : List Expected) : Calculation σ α :=
  Attempt.fail (.badSyntax ⟨.inputEnded expected, size, size, ""⟩)

/-- A token of one kind. -/
def consume (kind : TokenKind) : (ts : List Token) → Calculation σ (Found Token ts.length)
  | [] => ended size [.token kind]
  | t :: rest => do
      accept t (if t.kind = kind then .ok () else refuse t [.token kind])
      return ⟨t, rest, Nat.lt_succ_self _⟩

/-- Nothing may follow. -/
def expectEnd (expected : List Expected) : List Token → Calculation σ Unit
  | [] => return ()
  | t :: _ => accept t (refuse t expected)

/-- A number token, or a minus sign and a number token. `read` is told whether there is a sign and
whether white space stands before both. -/
def signed (kinds : List TokenKind)
    (read : (negative separated : Bool) → Token → Except Complaint Number) :
    (ts : List Token) → Calculation σ (Found Number ts.length)
  | [] => ended size (expectedTokens kinds)
  | t :: rest =>
      if t.kind = .minus then
        match rest with
        | [] => ended size (expectedTokens kinds)
        | digits :: rest => do
            let x ← accept digits (read true t.spaced digits)
            return ⟨x, rest, Nat.lt_succ_of_lt (Nat.lt_succ_self _)⟩
      else do
        let x ← accept t (read false t.spaced t)
        return ⟨x, rest, Nat.lt_succ_self _⟩

/-- A number literal of one of some kinds. -/
def number (kinds : List TokenKind) (ts : List Token) : Calculation σ (Found Number ts.length) :=
  signed size kinds (fun negative _ t => literal kinds negative t) ts

/-- The upper bound of a range. That it is separated from the lower bound is checked once its text
is known, and before its value. -/
def upperBound (kinds : List TokenKind) (ts : List Token) :
    Calculation σ (Found Number ts.length) :=
  signed size kinds (fun negative separated t => do
    let text ← literalText kinds negative t
    if separated then literalValue t.kind text else .error ⟨.boundsTouch, text⟩) ts

end Tokens

/-! ## Values -/

/-- The value of a name, which is a global variable if no `let` binds it. -/
def lookup [RandomSource σ] (scope : Scope) (name : String) : Calculation σ Number := do
  evaluate (Expr.evalVariable (← get).globals scope name)

def apply (op : BinaryOp) (x y : Number) : Calculation σ Number :=
  Attempt.ofExcept (.eval ∘ .arithmetic) (op.apply x y)

/-- Draw between two bounds. -/
def draw [RandomSource σ] (lo hi : Number) : RangeKind → Evaluation σ Number
  | .uniformInt => .int <$> Sampler.uniformInt lo.toInt64 hi.toInt64
  | .uniformFloat => .float <$> Sampler.uniformFloat lo.toFloat hi.toFloat
  | .bellInt => .int <$> Sampler.bellInt lo.toInt64 hi.toInt64
  | .bellFloat => .float <$> Sampler.bell lo.toFloat hi.toFloat

/-! ## Productions -/

variable [RandomSource σ] (size : Nat)

/-- The bounds of a range and the bracket behind them. -/
def range (kind : RangeKind) (ts : List Token) : Calculation σ (Found Number (ts.length + 1)) := do
  let lo ← number size kind.bounds ts
  let hi ← upperBound size kind.bounds lo.rest
  let closing ← consume size kind.close hi.rest
  let value ← evaluate (draw lo.value hi.value kind)
  have within := Nat.lt_trans closing.within (Nat.lt_trans hi.within lo.within)
  return ⟨value, closing.rest, Nat.lt_succ_of_lt within⟩

mutual

/-- A single operand. -/
def term (scope : Scope) : (ts : List Token) → Calculation σ (Found Number ts.length)
  | [] => ended size (expectedTokens termKinds)
  | t :: ts =>
      match t.kind with
      | .dice => do
          let value ← evaluate (Expr.evalDice t.text)
          return ⟨value, ts, Nat.lt_succ_self _⟩
      | .leftBracket => range size .uniformInt ts
      | .leftBrace => range size .uniformFloat ts
      | .bellInt => range size .bellInt ts
      | .bellFloat => range size .bellFloat ts
      | .fuzz => do
          let value ← expr scope ts
          let comma ← consume size .comma value.rest
          let distance ← number size numberKinds comma.rest
          let closing ← consume size .rightParen distance.rest
          let x ← evaluate (Sampler.fuzz value.value.toFloat distance.value.toFloat)
          have hdistance := Nat.lt_trans distance.within (Nat.lt_trans comma.within value.within)
          have within := Nat.lt_trans closing.within hdistance
          return ⟨.float x, closing.rest, Nat.lt_succ_of_lt within⟩
      | .leftParen => do
          let value ← expr scope ts
          let closing ← consume size .rightParen value.rest
          have within := Nat.lt_trans closing.within value.within
          return ⟨value.value, closing.rest, Nat.lt_succ_of_lt within⟩
      | .letWord => do
          let name ← consume size .variable ts
          let equal ← consume size .equal name.rest
          have hvalue := Nat.lt_trans equal.within name.within
          let value ← expr scope equal.rest
          let inWord ← consume size .inWord value.rest
          have hbody := Nat.lt_trans inWord.within (Nat.lt_trans value.within hvalue)
          let body ← expr ((name.value.text, value.value) :: scope) inWord.rest
          have within := Nat.lt_trans body.within hbody
          return ⟨body.value, body.rest, Nat.lt_succ_of_lt within⟩
      | .variable => do
          let value ← lookup scope t.text
          return ⟨value, ts, Nat.lt_succ_self _⟩
      | .minus | .float | .integer => number size numberKinds (t :: ts)
      | _ => accept t (refuse t (expectedTokens termKinds))
termination_by ts => 3 * ts.length

/-- The operators `*` and `/` with their right operands, applied from left to right. -/
def products (scope : Scope) (lhs : Number) :
    (ts : List Token) → Calculation σ (Found Number (ts.length + 1))
  | [] => return ⟨lhs, [], Nat.lt_succ_self _⟩
  | t :: ts =>
      match productOp? t.kind with
      | none => return ⟨lhs, t :: ts, Nat.lt_succ_self _⟩
      | some op => do
          let rhs ← term scope ts
          let value ← apply op lhs rhs.value
          have hrest := rhs.within
          let found ← products scope value rhs.rest
          have within := Nat.lt_of_lt_of_le found.within hrest
          return ⟨found.value, found.rest, Nat.lt_succ_of_lt (Nat.lt_succ_of_lt within)⟩
termination_by ts => 3 * ts.length

def factor (scope : Scope) (ts : List Token) : Calculation σ (Found Number ts.length) := do
  let lhs ← term scope ts
  have hrest := lhs.within
  let found ← products scope lhs.value lhs.rest
  return ⟨found.value, found.rest, Nat.lt_of_lt_of_le found.within hrest⟩
termination_by 3 * ts.length + 1

/-- The operators `+` and `-` with their right operands, applied from left to right. -/
def sums (scope : Scope) (lhs : Number) :
    (ts : List Token) → Calculation σ (Found Number (ts.length + 1))
  | [] => return ⟨lhs, [], Nat.lt_succ_self _⟩
  | t :: ts =>
      match sumOp? t.kind with
      | none => return ⟨lhs, t :: ts, Nat.lt_succ_self _⟩
      | some op => do
          let rhs ← factor scope ts
          let value ← apply op lhs rhs.value
          have hrest := rhs.within
          let found ← sums scope value rhs.rest
          have within := Nat.lt_of_lt_of_le found.within hrest
          return ⟨found.value, found.rest, Nat.lt_succ_of_lt (Nat.lt_succ_of_lt within)⟩
termination_by ts => 3 * ts.length

def expr (scope : Scope) (ts : List Token) : Calculation σ (Found Number ts.length) := do
  let lhs ← factor scope ts
  have hrest := lhs.within
  let found ← sums scope lhs.value lhs.rest
  return ⟨found.value, found.rest, Nat.lt_of_lt_of_le found.within hrest⟩
termination_by 3 * ts.length + 2

end

/-! ## Goals -/

/-- An expression whose value is the answer. -/
def answer (ts : List Token) : Calculation σ Value := do
  let value ← expr size [] ts
  expectEnd afterExpression value.rest
  note (.answered value.value)
  return .plain value.value

/-- What stands behind `set`. The variable is assigned once the whole input has been read. -/
def assign (ts : List Token) : Calculation σ Value := do
  let name ← consume size .variable ts
  let value ← expr size [] name.rest
  expectEnd afterExpression value.rest
  modify fun c => { c with globals := Dictionary.put name.value.text value.value c.globals }
  note (.assigned name.value.text value.value)
  return .plain value.value

/-- What stands behind `u(`. -/
def quantity (ts : List Token) : Calculation σ Value := do
  let amount ← expr size [] ts
  let comma ← consume size .comma amount.rest
  let unit ← consume size .variable comma.rest
  let closing ← consume size .rightParen unit.rest
  expectEnd [.endOfInput] closing.rest
  note (.answeredQuantity amount.value unit.value.text)
  return .quantity amount.value unit.value.text

def goal : List Token → Calculation σ Value
  | [] => answer size []
  | t :: ts =>
      match t.kind with
      | .setWord => assign size ts
      | .unit => quantity size ts
      | _ => answer size (t :: ts)

end Tabletop.Calculator.Parser
