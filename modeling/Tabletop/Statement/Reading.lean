/-
# Reading statements

Tokens are read one after another, and each of them moves a small machine from one state to the
next. Its stack holds what is open: brackets, `fuzz(` terms and `let` terms, each with the
operators of the surrounding expression that still wait for their right operand. `*` and `/` bind
tighter than `+` and `-`, all four group to the left, and the body of a `let` reaches as far to the
right as it can.

A token that does not fit ends the reading with a breakoff. It carries the syntax error and the
work that was complete before it: whoever evaluates the input does that work first, because
reading and evaluating go from left to right together. The calculator's own parser keeps no tree
and needs no such record.
-/

import Tabletop.Expr
import Tabletop.Statement.Literal
import Tabletop.Token.Lexer

namespace Tabletop.Reading

/-- The operators of one bracket level that wait for their right operand. -/
structure Pending where
  sum : Option (Expr × BinaryOp)
  product : Option (Expr × BinaryOp)
  deriving DecidableEq, Repr

namespace Pending

def empty : Pending :=
  ⟨none, none⟩

/-- The product that ends with the operand `e`. -/
def closeProduct (p : Pending) (e : Expr) : Expr :=
  match p.product with
  | some (lhs, op) => .binary op lhs e
  | none => e

/-- The sum that ends with the operand `e`. -/
def closeSum (p : Pending) (e : Expr) : Expr :=
  match p.sum with
  | some (lhs, op) => .binary op lhs (p.closeProduct e)
  | none => p.closeProduct e

/-- The operand `e` is followed by `*` or `/`. -/
def times (p : Pending) (e : Expr) (op : BinaryOp) : Pending :=
  { p with product := some (p.closeProduct e, op) }

/-- The operand `e` is followed by `+` or `-`. -/
def plus (p : Pending) (e : Expr) (op : BinaryOp) : Pending :=
  ⟨some (p.closeSum e, op), none⟩

end Pending

/-- An open construct, with the operators that wait outside of it. -/
inductive Frame
  | paren (outer : Pending)
  | fuzz (outer : Pending)
  | letValue (name : String) (outer : Pending)
  | letBody (name : String) (value : Expr) (outer : Pending)
  deriving DecidableEq, Repr

/-- What the expression at the bottom of the stack is for. -/
inductive Goal
  | evaluate
  | assign (name : String)
  | quantity
  deriving DecidableEq, Repr

/-- Everything that is open around the next token, the innermost frame first. -/
structure Context where
  goal : Goal
  frames : List Frame
  pending : Pending
  deriving DecidableEq, Repr

/-- The term that a range stands for. -/
def RangeKind.toExpr (lo hi : Number) : RangeKind → Expr
  | .uniformInt => .uniformInt lo.toInt64 hi.toInt64
  | .uniformFloat => .uniformFloat lo.toFloat hi.toFloat
  | .bellInt => .bellInt lo.toInt64 hi.toInt64
  | .bellFloat => .bellFloat lo.toFloat hi.toFloat

/-- How far a pair of bounds has been read. The sign of the upper bound remembers whether it was
separated from the lower bound. -/
inductive BoundsStage
  | low
  | lowSigned
  | high (lo : Number)
  | highSigned (lo : Number) (separated : Bool)
  | closing (lo hi : Number)
  deriving DecidableEq, Repr

inductive State
  /-- Nothing has been read. -/
  | start
  /-- After `set`. -/
  | setName
  /-- A term must follow. -/
  | term (ctx : Context)
  /-- After a minus sign that stands for a term. -/
  | negative (ctx : Context)
  /-- After a term. -/
  | operand (ctx : Context) (e : Expr)
  /-- After `let`. -/
  | letName (ctx : Context)
  /-- After the name of a `let`. -/
  | letEqual (ctx : Context) (name : String)
  /-- Inside the brackets of a range. -/
  | range (ctx : Context) (kind : RangeKind) (stage : BoundsStage)
  /-- After the comma of a `fuzz(`, before or after the sign of the distance. -/
  | fuzzDistance (ctx : Context) (value : Expr) (signed : Bool)
  | fuzzClose (ctx : Context) (value : Expr) (distance : Number)
  /-- After the comma of a quantity. -/
  | unitName (amount : Expr)
  | unitClose (amount : Expr) (unit : String)
  /-- After the closing bracket of a quantity. -/
  | unitEnd (amount : Expr) (unit : String)
  deriving DecidableEq, Repr

/-- One piece of work that was complete when reading broke off. -/
inductive Step
  /-- The value is not needed any more, but its draws and its failures count. -/
  | evaluate (e : Expr)
  /-- The value is bound in the steps that follow. -/
  | bind (name : String) (e : Expr)
  deriving DecidableEq, Repr

/-- The operands that were complete on one level, from left to right. -/
def Pending.work (p : Pending) : List Step :=
  (p.sum.toList ++ p.product.toList).map fun (e, _) => .evaluate e

/-- What was complete outside of a frame and, for a `let`, its value. -/
def Frame.work : Frame → List Step
  | .paren outer | .fuzz outer | .letValue _ outer => outer.work
  | .letBody name value outer => outer.work ++ [.bind name value]

def framesWork (frames : List Frame) : List Step :=
  frames.reverse.flatMap Frame.work

def Context.work (ctx : Context) : List Step :=
  framesWork ctx.frames ++ ctx.pending.work

/-- The expression `e` is complete: it ends the bodies of all `let` terms on top of the stack,
each of which becomes an operand of the level around it. -/
def closeLets : List Frame → Expr → List Frame × Expr
  | .letBody name value outer :: frames, e =>
      closeLets frames (outer.closeSum (.letIn name value e))
  | frames, e => (frames, e)

/-- The operand `e` is followed by something that is no operator: what remains open, and the
expression that ends there. -/
def Context.complete (ctx : Context) (e : Expr) : List Frame × Expr :=
  closeLets ctx.frames (ctx.pending.closeSum e)

/-- The work that is complete in a state, if the next token does not fit. -/
def State.work : State → List Step
  | .start | .setName => []
  | .term ctx | .negative ctx | .letName ctx | .letEqual ctx _ | .range ctx _ _ => ctx.work
  | .operand ctx e =>
      let (frames, e) := ctx.complete e
      framesWork frames ++ [.evaluate e]
  | .fuzzDistance ctx value _ | .fuzzClose ctx value _ => ctx.work ++ [.evaluate value]
  | .unitName amount | .unitClose amount _ | .unitEnd amount _ => [.evaluate amount]

/-- Go on to `next` if the token has the only kind that is accepted. -/
def require (t : Token) (kind : TokenKind) (next : State) : Except Complaint State :=
  if t.kind = kind then .ok next else refuse t [.token kind]

/-- Open a construct: the operators of the current level wait outside. -/
def Context.push (ctx : Context) (frame : Pending → Frame) : Context :=
  { ctx with frames := frame ctx.pending :: ctx.frames, pending := .empty }

/-- The first token of a term. -/
def stepTerm (ctx : Context) (t : Token) : Except Complaint State :=
  match t.kind with
  | .dice => .ok (.operand ctx (.dice t.text))
  | .leftBracket => .ok (.range ctx .uniformInt .low)
  | .leftBrace => .ok (.range ctx .uniformFloat .low)
  | .bellInt => .ok (.range ctx .bellInt .low)
  | .bellFloat => .ok (.range ctx .bellFloat .low)
  | .fuzz => .ok (.term (ctx.push .fuzz))
  | .leftParen => .ok (.term (ctx.push .paren))
  | .letWord => .ok (.letName ctx)
  | .variable => .ok (.operand ctx (.variable t.text))
  | .minus => .ok (.negative ctx)
  | .float | .integer => do
      let value ← literal numberKinds false t
      return .operand ctx (.literal value)
  | _ => refuse t (expectedTokens termKinds)

/-- A token inside the brackets of a range. The upper bound must be separated from the lower one,
which is checked once the whole upper bound is known. -/
def stepRange (ctx : Context) (kind : RangeKind) (t : Token) :
    BoundsStage → Except Complaint State
  | .low =>
      if t.kind = .minus then .ok (.range ctx kind .lowSigned)
      else do
        let lo ← literal kind.bounds false t
        return .range ctx kind (.high lo)
  | .lowSigned => do
      let lo ← literal kind.bounds true t
      return .range ctx kind (.high lo)
  | .high lo =>
      if t.kind = .minus then .ok (.range ctx kind (.highSigned lo t.spaced))
      else high lo false t.spaced
  | .highSigned lo separated => high lo true separated
  | .closing lo hi => require t kind.close (.operand ctx (kind.toExpr lo hi))
where
  high (lo : Number) (signed separated : Bool) : Except Complaint State := do
    let text ← literalText kind.bounds signed t
    if separated then
      let hi ← literalValue t.kind text
      return .range ctx kind (.closing lo hi)
    else .error ⟨.boundsTouch, text⟩

/-- A token after a complete expression `e` that is no operator. The innermost construct that is
still open decides what it must be. -/
def stepClose (goal : Goal) (t : Token) : List Frame × Expr → Except Complaint State
  | (.paren outer :: frames, e) => require t .rightParen (.operand ⟨goal, frames, outer⟩ e)
  | (.fuzz outer :: frames, e) => require t .comma (.fuzzDistance ⟨goal, frames, outer⟩ e false)
  | (.letValue name outer :: frames, e) =>
      require t .inWord (.term ⟨goal, .letBody name e outer :: frames, .empty⟩)
  | (_, e) =>
      match goal with
      | .quantity => require t .comma (.unitName e)
      | .evaluate | .assign _ => refuse t afterExpression

/-- A token after a term. -/
def stepOperand (ctx : Context) (e : Expr) (t : Token) : Except Complaint State :=
  match t.kind with
  | .star => .ok (.term { ctx with pending := ctx.pending.times e .mul })
  | .slash => .ok (.term { ctx with pending := ctx.pending.times e .div })
  | .plus => .ok (.term { ctx with pending := ctx.pending.plus e .add })
  | .minus => .ok (.term { ctx with pending := ctx.pending.plus e .sub })
  | _ => stepClose ctx.goal t (ctx.complete e)

/-- Read one token. -/
def State.step (t : Token) : State → Except Complaint State
  | .start =>
      match t.kind with
      | .setWord => .ok .setName
      | .unit => .ok (.term ⟨.quantity, [], .empty⟩)
      | _ => stepTerm ⟨.evaluate, [], .empty⟩ t
  | .setName => require t .variable (.term ⟨.assign t.text, [], .empty⟩)
  | .term ctx => stepTerm ctx t
  | .negative ctx => do
      let value ← literal numberKinds true t
      return .operand ctx (.literal value)
  | .operand ctx e => stepOperand ctx e t
  | .letName ctx => require t .variable (.letEqual ctx t.text)
  | .letEqual ctx name => require t .equal (.term (ctx.push (.letValue name)))
  | .range ctx kind stage => stepRange ctx kind t stage
  | .fuzzDistance ctx value signed =>
      if t.kind = .minus && !signed then .ok (.fuzzDistance ctx value true)
      else do
        let distance ← literal numberKinds signed t
        return .fuzzClose ctx value distance
  | .fuzzClose ctx value distance =>
      require t .rightParen (.operand ctx (.fuzz value distance.toFloat))
  | .unitName amount => require t .variable (.unitClose amount t.text)
  | .unitClose amount unit => require t .rightParen (.unitEnd amount unit)
  | .unitEnd _ _ => refuse t [.endOfInput]

/-- What must follow a complete expression that ends with the input. -/
def finishClose (goal : Goal) : List Frame × Expr → Except (List Expected) Statement
  | (.paren _ :: _, _) => .error [.token .rightParen]
  | (.fuzz _ :: _, _) => .error [.token .comma]
  | (.letValue _ _ :: _, _) => .error [.token .inWord]
  | (_, e) =>
      match goal with
      | .evaluate => .ok (.evaluate e)
      | .assign name => .ok (.assign name e)
      | .quantity => .error [.token .comma]

/-- The end of the input: the statement, or what was still needed. -/
def State.finish : State → Except (List Expected) Statement
  | .start | .term _ => .error (expectedTokens termKinds)
  | .setName | .letName _ | .unitName _ => .error [.token .variable]
  | .negative _ | .fuzzDistance _ _ _ => .error (expectedTokens numberKinds)
  | .operand ctx e => finishClose ctx.goal (ctx.complete e)
  | .letEqual _ _ => .error [.token .equal]
  | .range _ kind (.closing _ _) => .error [.token kind.close]
  | .range _ kind _ => .error (expectedTokens kind.bounds)
  | .fuzzClose _ _ _ | .unitClose _ _ => .error [.token .rightParen]
  | .unitEnd amount unit => .ok (.quantity amount unit)

/-- Reading ended early: the work that was complete, and what was wrong after it. -/
structure Breakoff where
  work : List Step
  error : SyntaxError
  deriving DecidableEq, Repr

/-- Read the remaining tokens of an input that ends at byte `size`. -/
def readFrom (size : Nat) : State → List Token → Except Breakoff Statement
  | state, [] =>
      match state.finish with
      | .ok statement => .ok statement
      | .error expected => .error ⟨state.work, ⟨.inputEnded expected, size, size, ""⟩⟩
  | state, t :: tokens =>
      match state.step t with
      | .ok next => readFrom size next tokens
      | .error complaint => .error ⟨state.work, complaint.locate t.stop⟩

end Tabletop.Reading

namespace Tabletop

/-- Read a line of input. -/
def Statement.read (input : String) : Except Reading.Breakoff Statement :=
  Reading.readFrom input.utf8ByteSize .start (Token.scan input)

end Tabletop
