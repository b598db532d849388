import Resumable.Expr.Basic
import Resumable.Value.Convert

/-!
# Expressions as they are written

A phrase is an expression with what its tree forgets: parentheses, the spelling of an object's
names, the quotes of strings and the comma behind the last member. It is what the grammar finds in
a row of tokens, and the limits on an expression's size are counted on it.

A phrase models what the grammar hands to `build_expr` and `build_primary`, and `toExpr` what these
make of it.
-/

namespace Resumable.Expr

/-- The words that are values and not names. -/
inductive Keyword where
  /-- `true`. -/
  | true
  /-- `false`. -/
  | false
  /-- `null`. -/
  | null
  /-- `undefined`. -/
  | undefined
  deriving DecidableEq

/-- The keyword a word is. -/
def Keyword.ofName? : String → Option Keyword
  | "true" => some .true
  | "false" => some .false
  | "null" => some .null
  | "undefined" => some .undefined
  | _ => none

/-- The value a keyword stands for. -/
def Keyword.toExpr : Keyword → Expr
  | .true => .bool Bool.true
  | .false => .bool Bool.false
  | .null => .null
  | .undefined => .undefined

/-- The name of a property in an object literal, as it is written. -/
inductive Key where
  /-- A plain name. -/
  | name (n : String)
  /-- A string literal. -/
  | text (quote : Char) (s : String)
  /-- A numeral, by its value. -/
  | number (x : Double)
  deriving DecidableEq

/-- The name itself; a numeral names by its text. -/
def Key.toName : Key → String
  | .name n => n
  | .text _ s => s
  | .number x => Value.showNumber x

/-- An expression as it is written. -/
inductive Phrase where
  /-- A keyword. -/
  | keyword (k : Keyword)
  /-- A numeral, by its value. -/
  | number (x : Double)
  /-- A string literal. -/
  | text (quote : Char) (s : String)
  /-- A variable. -/
  | name (n : String)
  /-- A phrase in parentheses. -/
  | group (p : Phrase)
  /-- An object literal; `trailing` is a comma behind the last property. -/
  | object (props : List (Key × Phrase)) (trailing : Bool)
  /-- An array literal; `trailing` is a comma behind the last item. -/
  | array (items : List Phrase) (trailing : Bool)
  /-- A property by its name. -/
  | member (p : Phrase) (n : String)
  /-- A property by the value of a phrase. -/
  | index (p : Phrase) (subscript : Phrase)
  /-- An operator before its operand. -/
  | unary (op : UnaryOp) (p : Phrase)
  /-- An operator between its operands. -/
  | binary (op : BinaryOp) (left right : Phrase)

namespace Phrase

mutual
/-- The expression a phrase writes. -/
def toExpr : Phrase → Expr
  | .keyword k => k.toExpr
  | .number x => .num x
  | .text _ s => .str s
  | .name n => .name n
  | .group p => p.toExpr
  | .object props _ => .object (toProps props)
  | .array items _ => .array (toItems items)
  | .member p n => .member p.toExpr n
  | .index p i => .index p.toExpr i.toExpr
  | .unary op p => .unary op p.toExpr
  | .binary op l r => .binary op l.toExpr r.toExpr

/-- The properties an object literal writes. -/
def toProps : List (Key × Phrase) → List (String × Expr)
  | [] => []
  | (k, p) :: ps => (k.toName, p.toExpr) :: toProps ps

/-- The items an array literal writes. -/
def toItems : List Phrase → List Expr
  | [] => []
  | p :: ps => p.toExpr :: toItems ps
end

end Phrase

end Resumable.Expr
