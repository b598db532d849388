import Resumable.Decimal.Basic
import Resumable.Expr.Basic
import Resumable.Source.Scanner

/-!
# Tokens of expressions

An expression is first cut into tokens. The longest operator that fits is taken; a numeral takes a
fraction only if a digit follows its point and an exponent only if it is complete; a string ends at
the next occurrence of its quote. Blanks between tokens are the space, the tab and the two line
ends. The minus sign is one token, whether it negates or subtracts.

This models the rules for operators, `ident`, `keyword`, `number`, `string` and the blanks between
them.
-/

namespace Resumable.Expr

/-- A pair of brackets. -/
inductive Bracket where
  /-- `(` and `)`. -/
  | round
  /-- `[` and `]`. -/
  | square
  /-- Braces. -/
  | curly
  deriving DecidableEq

/-- A token. -/
inductive Token where
  /-- A name or a keyword. -/
  | name (n : String)
  /-- A numeral, by its value. -/
  | number (x : Double)
  /-- A string literal: its quote and its content. -/
  | text (quote : Char) (s : String)
  /-- An operator between operands, or the minus sign. -/
  | op (o : BinaryOp)
  /-- The exclamation mark. -/
  | bang
  /-- The point. -/
  | dot
  /-- The comma. -/
  | comma
  /-- The colon. -/
  | colon
  /-- An opening bracket. -/
  | opening (b : Bracket)
  /-- A closing bracket. -/
  | closing (b : Bracket)
  deriving DecidableEq

/-- Whether a character may stand between tokens. -/
def isSpace (c : Char) : Bool := c == ' ' || c == '\t' || c == '\r' || c == '\n'

/-- Whether a character may start a name. -/
def isNameStart (c : Char) : Bool :=
  ('a' ≤ c && c ≤ 'z') || ('A' ≤ c && c ≤ 'Z') || c == '_' || c == '$'

/-- Whether a character may continue a name. -/
def isNameChar (c : Char) : Bool := isNameStart c || Decimal.isDigit c

namespace Token

/-- An operator, bracket or mark at the start of a text. -/
def mark? : List Char → Option (Token × List Char)
  | '|' :: '|' :: rest => some (.op .or, rest)
  | '&' :: '&' :: rest => some (.op .and, rest)
  | '=' :: '=' :: '=' :: rest => some (.op .strictEq, rest)
  | '=' :: '=' :: rest => some (.op .eq, rest)
  | '!' :: '=' :: '=' :: rest => some (.op .strictNe, rest)
  | '!' :: '=' :: rest => some (.op .ne, rest)
  | '!' :: rest => some (.bang, rest)
  | '<' :: '=' :: rest => some (.op .le, rest)
  | '<' :: rest => some (.op .lt, rest)
  | '>' :: '=' :: rest => some (.op .ge, rest)
  | '>' :: rest => some (.op .gt, rest)
  | '+' :: rest => some (.op .add, rest)
  | '-' :: rest => some (.op .sub, rest)
  | '*' :: rest => some (.op .mul, rest)
  | '/' :: rest => some (.op .div, rest)
  | '%' :: rest => some (.op .rem, rest)
  | '.' :: rest => some (.dot, rest)
  | ',' :: rest => some (.comma, rest)
  | ':' :: rest => some (.colon, rest)
  | '(' :: rest => some (.opening .round, rest)
  | ')' :: rest => some (.closing .round, rest)
  | '[' :: rest => some (.opening .square, rest)
  | ']' :: rest => some (.closing .square, rest)
  | '\x7b' :: rest => some (.opening .curly, rest)
  | '\x7d' :: rest => some (.closing .curly, rest)
  | _ => none

/-- The string behind an opening quote. -/
def text? (quote : Char) (cs : List Char) : Option (Token × List Char) :=
  match cs.span (· != quote) with
  | (_, []) => none
  | (content, _ :: rest) => some (.text quote (String.ofList content), rest)

/-- A token at the start of a text without leading blanks. -/
def next? : List Char → Option (Token × List Char)
  | [] => none
  | c :: cs =>
    if isNameStart c then
      let (n, rest) := cs.span isNameChar
      some (.name (String.ofList (c :: n)), rest)
    else if Decimal.isDigit c then
      (Decimal.literal? (c :: cs)).map fun (d, rest) => (.number (d.toDouble false), rest)
    else if Source.isQuote c then text? c cs
    else mark? (c :: cs)

/-- The tokens of a text. The first argument bounds their number. -/
def scan : Nat → List Char → Option (List Token)
  | n, cs => match cs.dropWhile isSpace, n with
    | [], _ => some []
    | _, 0 => none
    | cs, n + 1 => do
      let (t, rest) ← next? cs
      let ts ← scan n rest
      some (t :: ts)

/-- The tokens of a whole text. -/
def ofText? (cs : List Char) : Option (List Token) := scan cs.length cs

end Token

end Resumable.Expr
