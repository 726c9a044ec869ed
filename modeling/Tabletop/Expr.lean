/-
# Expressions and statements

The tree of a line of calculator input. Grouping brackets leave no trace in it, and a dice term
keeps its text: that a count or a number of sides is out of range shows only when the dice are
thrown.
-/

import Tabletop.Number
import Tabletop.Token

namespace Tabletop

inductive BinaryOp
  | add | sub | mul | div
  deriving DecidableEq, Repr

def BinaryOp.apply : BinaryOp → Number → Number → Except ArithmeticError Number
  | .add => Number.add
  | .sub => Number.sub
  | .mul => Number.mul
  | .div => Number.div

/-- The operators between the summands of an expression. -/
def sumOp? : TokenKind → Option BinaryOp
  | .plus => some .add
  | .minus => some .sub
  | _ => none

/-- The operators between the terms of a factor. -/
def productOp? : TokenKind → Option BinaryOp
  | .star => some .mul
  | .slash => some .div
  | _ => none

inductive Expr
  | literal (value : Number)
  | dice (text : String)
  | uniformInt (lo hi : Int64)
  | uniformFloat (lo hi : Float)
  | bellInt (lo hi : Int64)
  | bellFloat (lo hi : Float)
  | fuzz (value : Expr) (distance : Float)
  | binary (op : BinaryOp) (lhs rhs : Expr)
  | letIn (name : String) (value body : Expr)
  | variable (name : String)
  deriving DecidableEq, Repr

/-- A whole line of input. -/
inductive Statement
  /-- The value is the answer. -/
  | evaluate (e : Expr)
  /-- The value is the answer and becomes the value of a global variable. -/
  | assign (name : String) (e : Expr)
  /-- The value is an amount of something. -/
  | quantity (amount : Expr) (unit : String)
  deriving DecidableEq, Repr

end Tabletop
