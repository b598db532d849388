import Resumable.Double.Arithmetic
import Resumable.Expr.Basic
import Resumable.Value.Equality

/-!
# Operators on values

What each operator computes from the values of its operands. Addition joins texts as soon as one
operand is a text or a structure; comparison is between texts if both are, and numeric otherwise,
where a NaN compares with nothing. A logical operator gives one of its operands; where the first
decides, the second need not be evaluated.

This models `apply_binary` and `compare`, the unary operators of `eval_at`, and the choice of an
operand that `eval_binary_chain` makes for `&&` and `||`.
-/

namespace Resumable.Expr

/-- Whether addition joins this operand as a text. -/
def joins (v : Value) : Bool :=
  match v with
  | .str _ => true
  | _ => v.isStructured

/-- The sum of two values, or their texts joined. -/
def plus (a b : Value) : Value :=
  if joins a || joins b then .str (a.display ++ b.display) else .num (a.toNumber.add b.toNumber)

/-- The order of two values, unless a NaN is compared. -/
def order (a b : Value) : Option Ordering :=
  match a, b with
  | .str s, .str t => some (compare s t)
  | _, _ => a.toNumber.order b.toNumber

/-- The value of an operator from the values of its operands. What the second one is does not matter
where the first `decides`. -/
def applyBinary (op : BinaryOp) (a b : Value) : Value :=
  match op with
  | .add => plus a b
  | .sub => .num (a.toNumber.sub b.toNumber)
  | .mul => .num (a.toNumber.mul b.toNumber)
  | .div => .num (a.toNumber.div b.toNumber)
  | .rem => .num (a.toNumber.rem b.toNumber)
  | .lt => .bool ((order a b).any Ordering.isLT)
  | .le => .bool ((order a b).any Ordering.isLE)
  | .gt => .bool ((order a b).any Ordering.isGT)
  | .ge => .bool ((order a b).any Ordering.isGE)
  | .eq => .bool (a.looseEq b)
  | .ne => .bool !(a.looseEq b)
  | .strictEq => .bool (a.strictEq b)
  | .strictNe => .bool !(a.strictEq b)
  | .and => if a.isTruthy then b else a
  | .or => if a.isTruthy then a else b

/-- Whether an operator's first operand already decides its value. -/
def decides (op : BinaryOp) (a : Value) : Bool :=
  match op with
  | .and => !a.isTruthy
  | .or => a.isTruthy
  | _ => false

/-- The value of an operator with one operand. -/
def applyUnary (op : UnaryOp) (a : Value) : Value :=
  match op with
  | .not => .bool !a.isTruthy
  | .neg => .num a.toNumber.neg

end Resumable.Expr
