import Resumable.Environment
import Resumable.Expr.Operator
import Resumable.Expr.Parse
import Resumable.Expr.Property
import Resumable.Text.Word

/-!
# Evaluating expressions

An expression is evaluated from the inside out, left before right. The depth of the evaluation is
bounded; a row of operators that nests to the left counts as one level, however long it is, because
its operands are taken one after the other. The first failure ends the evaluation, and an operand
that a logical operator skips cannot fail.

This models `evaluate`, `quoted_literal`, `evaluate_fallback`, `eval_expr`, `eval_at` and
`eval_binary_chain`. The message for a text that the grammar does not accept is not modelled.
-/

namespace Resumable.Expr

/-- The deepest evaluation that is followed. -/
def maxDepth : Nat := 200

/-- Why an expression has no value. -/
inductive EvalError where
  /-- The text is no expression. -/
  | parse (e : ParseError)
  /-- A variable is not bound. -/
  | unbound (n : String)
  /-- A property of an absent or empty value was asked for. -/
  | property (e : PropertyError)
  /-- The evaluation went too deep. -/
  | tooDeep
  deriving DecidableEq

/-- The wording of an error, if it has one of its own. -/
def EvalError.message? : EvalError → Option String
  | .parse e => e.message?.map ("Failed to parse expression: " ++ ·)
  | .unbound n => some (n ++ " is not defined")
  | .property e => some e.message
  | .tooDeep => some ("Expression nests deeper than " ++ toString maxDepth ++ " levels")

/-- The outcome of reading a property, as an outcome of evaluation. -/
def ofProperty : Except PropertyError Value → Except EvalError Value
  | .ok v => .ok v
  | .error e => .error (.property e)

/-- Unwinds the operators with two operands down the left side of an expression. Left are the operand
they start from and the operators from the innermost on, each with its right operand, followed by a
row that is given. -/
def unwind : Expr → List (BinaryOp × Expr) → Expr × List (BinaryOp × Expr)
  | .binary op l r, row => unwind l ((op, r) :: row)
  | e, row => (e, row)

/-- Applies a row of operators to a value, one after the other. A right operand is evaluated only if
the value before its operator does not decide. -/
def applyRow (operand : Expr → Except EvalError Value) :
    Value → List (BinaryOp × Expr) → Except EvalError Value
  | a, [] => .ok a
  | a, (op, e) :: row =>
    if decides op a then applyRow operand a row
    else do
      let b ← operand e
      applyRow operand (applyBinary op a b) row

/-- The value of an expression, if its operands are evaluated in a given way. -/
def evalNode (env : Environment) (operand : Expr → Except EvalError Value) :
    Expr → Except EvalError Value
  | .undefined => .ok .undefined
  | .null => .ok .null
  | .bool b => .ok (.bool b)
  | .num x => .ok (.num x)
  | .str s => .ok (.str s)
  | .name n => match env.get? n with
    | some v => .ok v
    | none => .error (.unbound n)
  | .member e property => do
    let v ← operand e
    ofProperty (readProperty v property)
  | .index e i => do
    let v ← operand e
    let subscript ← operand i
    ofProperty (readIndex v subscript)
  | .object props => do
    let fields ← props.mapM fun (key, e) => do
      let v ← operand e
      return (key, v)
    return .obj (Fields.ofEntries fields)
  | .array items => do
    let vs ← items.mapM operand
    return .list vs
  | .unary op e => do
    let v ← operand e
    return applyUnary op v
  | .binary op l r => do
    let (first, row) := unwind l [(op, r)]
    let a ← operand first
    applyRow operand a row

/-- The value of an expression, if its evaluation stays within a number of levels. -/
def evalWithin (env : Environment) : Nat → Expr → Except EvalError Value
  | 0, _ => .error .tooDeep
  | levels + 1, e => evalNode env (evalWithin env levels) e

/-- The value of an expression. The whole expression is at depth zero. -/
def eval (env : Environment) (e : Expr) : Except EvalError Value := evalWithin env (maxDepth + 1) e

/-- The value of the expression a text writes. -/
def evalText (env : Environment) (cs : List Char) : Except EvalError Value :=
  match parse cs with
  | .ok e => e.eval env
  | .error e => .error (.parse e)

/-! ### Texts with a direct reading -/

/-- The literal a whole text is: an optional minus sign, digits and an optional fraction. -/
def numberLiteral? (cs : List Char) : Option Double :=
  let (negative, digits) := match cs with
    | '-' :: rest => (true, rest)
    | _ => (false, cs)
  match Decimal.spanDigits digits with
  | ([], _) => none
  | (whole, []) => some ((Decimal.ofParts whole [] 0).toDouble negative)
  | (whole, '.' :: rest) => match Decimal.spanDigits rest with
    | ([], _) => none
    | (fraction, []) => some ((Decimal.ofParts whole fraction 0).toDouble negative)
    | _ => none
  | _ => none

/-- The content of a text that one pair of a quote encloses and that does not hold the quote. -/
def enclosedBy? (quote : Char) (cs : List Char) : Option (List Char) :=
  match cs with
  | c :: rest =>
    if c = quote then
      match rest.span (· != quote) with
      | (content, [_]) => some content
      | _ => none
    else none
  | [] => none

/-- The string literal a whole text is, between double or single quotes. -/
def stringLiteral? (cs : List Char) : Option String :=
  ((enclosedBy? '"' cs).or (enclosedBy? '\'' cs)).map String.ofList

/-- The two words of a text that is a word, a point and a word. -/
def projection? (cs : List Char) : Option (String × String) :=
  match Text.spanWord cs with
  | ([], _) => none
  | (base, '.' :: rest) => match Text.spanWord rest with
    | ([], _) => none
    | (field, []) => some (String.ofList base, String.ofList field)
    | _ => none
  | _ => none

/-- The value of a text without blanks at its ends, whatever it is. Keywords, literals, bound names
and a field of a bound name are read directly; anything else is an expression, and one without a
value is absent. -/
def evaluateTrimmed (env : Environment) (cs : List Char) : Value :=
  match Keyword.ofName? (String.ofList cs) with
  | some .true => .bool true
  | some .false => .bool false
  | some .null => .null
  | some .undefined => .undefined
  | none =>
  match numberLiteral? cs with
  | some x => .num x
  | none =>
  match stringLiteral? cs with
  | some s => .str s
  | none =>
  match env.get? (String.ofList cs) with
  | some v => v
  | none =>
  match projection? cs with
  | some (base, field) => match env.get? base with
    | some v => (readProperty v field).toOption.getD .undefined
    | none => .undefined
  | none => (evalText env cs).toOption.getD .undefined

/-- The value of a text. -/
def evaluate (env : Environment) (cs : List Char) : Value := evaluateTrimmed env (Text.trim cs)

end Resumable.Expr
