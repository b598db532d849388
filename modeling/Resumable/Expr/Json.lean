import Resumable.Expr.Basic
import Resumable.Json.Writer

/-!
# Expressions as JSON

The tree of an expression as a JSON value: each node names its kind under `t`, and its parts follow
under their own names.

This models the serialized form of `Expr`.
-/

namespace Resumable

/-- The name of an operator with one operand. -/
def UnaryOp.label : UnaryOp → String
  | .not => "Not"
  | .neg => "Neg"

/-- The name of an operator with two operands. -/
def BinaryOp.label : BinaryOp → String
  | .or => "Or"
  | .and => "And"
  | .strictEq => "StrictEq"
  | .strictNe => "StrictNe"
  | .eq => "Eq"
  | .ne => "Ne"
  | .lt => "Lt"
  | .le => "Le"
  | .gt => "Gt"
  | .ge => "Ge"
  | .add => "Add"
  | .sub => "Sub"
  | .mul => "Mul"
  | .div => "Div"
  | .rem => "Rem"

namespace Expr

/-- A node of a kind with its parts. -/
def node (kind : String) (parts : List (String × Json)) : Json :=
  .object (("t", .string kind) :: parts)

mutual
/-- The JSON tree of an expression. -/
def toJson : Expr → Json
  | .undefined => node "LitUndefined" []
  | .null => node "LitNull" []
  | .bool b => node "LitBool" [("v", .bool b)]
  | .num x => node "LitNum" [("v", .number (.float x))]
  | .str s => node "LitStr" [("v", .string s)]
  | .name n => node "Ident" [("name", .string n)]
  | .member e property => node "Member" [("object", e.toJson), ("property", .string property)]
  | .index e i => node "Index" [("object", e.toJson), ("index", i.toJson)]
  | .object props => node "Object" [("props", .array (propsToJson props))]
  | .array items => node "Array" [("items", .array (itemsToJson items))]
  | .unary op e => node "Unary" [("op", .string op.label), ("operand", e.toJson)]
  | .binary op l r =>
    node "Binary" [("op", .string op.label), ("left", l.toJson), ("right", r.toJson)]

/-- The properties of an object literal, each a pair of name and value. -/
def propsToJson : List (String × Expr) → List Json
  | [] => []
  | (key, e) :: ps => .array [.string key, e.toJson] :: propsToJson ps

/-- The items of an array literal. -/
def itemsToJson : List Expr → List Json
  | [] => []
  | e :: es => e.toJson :: itemsToJson es
end

end Expr

end Resumable
