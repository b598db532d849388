import Resumable.Double.Basic

/-!
# Expressions

The tree of an expression: literals, names, property reads, object and array literals, and the
operators. Parentheses leave no trace in it.

This models `Expr`, `UnaryOp` and `BinaryOp`.
-/

namespace Resumable

/-- An operator before its operand. -/
inductive UnaryOp where
  /-- Logical negation. -/
  | not
  /-- Arithmetic negation. -/
  | neg
  deriving DecidableEq

/-- An operator between its operands. -/
inductive BinaryOp where
  /-- The first operand that counts as true, else the second. -/
  | or
  /-- The first operand that counts as false, else the second. -/
  | and
  /-- Equality without conversion. -/
  | strictEq
  /-- Its negation. -/
  | strictNe
  /-- Equality with conversion. -/
  | eq
  /-- Its negation. -/
  | ne
  /-- Less than. -/
  | lt
  /-- At most. -/
  | le
  /-- Greater than. -/
  | gt
  /-- At least. -/
  | ge
  /-- Sum or concatenation. -/
  | add
  /-- Difference. -/
  | sub
  /-- Product. -/
  | mul
  /-- Quotient. -/
  | div
  /-- Remainder. -/
  | rem
  deriving DecidableEq

/-- How tightly an operator binds: those of a higher tier take their operands first. All operators
of a tier associate to the left. -/
def BinaryOp.tier : BinaryOp → Nat
  | .or => 1
  | .and => 2
  | .strictEq | .strictNe | .eq | .ne => 3
  | .lt | .le | .gt | .ge => 4
  | .add | .sub => 5
  | .mul | .div | .rem => 6

/-- An expression. -/
inductive Expr where
  /-- The literal `undefined`. -/
  | undefined
  /-- The literal `null`. -/
  | null
  /-- The literals `true` and `false`. -/
  | bool (b : Bool)
  /-- A number literal. -/
  | num (x : Double)
  /-- A string literal. -/
  | str (s : String)
  /-- A variable. -/
  | name (n : String)
  /-- A property by its name. -/
  | member (object : Expr) (property : String)
  /-- A property by the value of an expression. -/
  | index (object : Expr) (subscript : Expr)
  /-- An object literal; names may repeat. -/
  | object (props : List (String × Expr))
  /-- An array literal. -/
  | array (items : List Expr)
  /-- An operator applied to its operand. -/
  | unary (op : UnaryOp) (operand : Expr)
  /-- An operator applied to its operands. -/
  | binary (op : BinaryOp) (left right : Expr)

end Resumable
