import Resumable.Expr.Phrase
import Resumable.Expr.Token

/-!
# The grammar of expressions

A phrase is read from tokens. An operand is an atom with the property reads behind it and the
signs before it; operands alternate with operators; and the row of operands is then put together
tier by tier, so that tighter operators take their operands first and operators of one tier
associate to the left.

What stands between brackets is read by a reader that is handed in. The readers are tied together
by `phrase?`, whose first argument is how many levels of brackets may open.

This models the rules `program`, `expr`, `primary`, `postfix`, `object`, `property` and `array`, and
the precedence by which `build_expr` puts operands together.
-/

namespace Resumable.Expr

namespace Phrase

/-! ### Precedence -/

/-- The operands of a row up to its first operator of a tier, and the row behind each operator of
that tier. -/
def segments (tier : Nat) :
    List (BinaryOp × Phrase) →
      List (BinaryOp × Phrase) × List (BinaryOp × Phrase × List (BinaryOp × Phrase))
  | [] => ([], [])
  | (op, p) :: row =>
    let (run, rest) := segments tier row
    if op.tier = tier then ([], (op, p, run) :: rest) else ((op, p) :: run, rest)

/-- Puts a row of operands together. The argument counts the tiers that are left: with `n` left,
operators of tier `7 - n` are the loosest in the row. -/
def assemble : Nat → Phrase → List (BinaryOp × Phrase) → Phrase
  | 0, first, _ => first
  | n + 1, first, row =>
    let (run, rest) := segments (6 - n) row
    rest.foldl (fun left (op, p, run) => .binary op left (assemble n p run)) (assemble n first run)

/-! ### Reading -/

/-- A reader of tokens: what it finds at the start, and the tokens behind it. -/
abbrev Reader (α : Type) := List Token → Option (α × List Token)

variable {α : Type}

/-- Members with commas between them up to a closing bracket, at least one, and whether a comma
stands behind the last. The first argument bounds their number. -/
def members (close : Bracket) (read : Reader α) : Nat → Reader (List α × Bool)
  | 0, _ => none
  | n + 1, ts => do
    let (a, ts) ← read ts
    match ts with
    | .closing b :: ts => if b = close then some (([a], false), ts) else none
    | .comma :: .closing b :: ts => if b = close then some (([a], true), ts) else none
    | .comma :: ts =>
      let ((as, trailing), ts) ← members close read n ts
      some ((a :: as, trailing), ts)
    | _ => none

/-- The members behind an opening bracket, possibly none. -/
def enclosed (close : Bracket) (read : Reader α) : Reader (List α × Bool)
  | .closing b :: ts => if b = close then some (([], false), ts) else none
  | ts => members close read ts.length ts

/-- A property of an object literal. -/
def property (inner : Reader Phrase) : Reader (Key × Phrase) := fun ts => do
  let (k, ts) ← match ts with
    | .name n :: ts => some (Key.name n, ts)
    | .text quote s :: ts => some (Key.text quote s, ts)
    | .number x :: ts => some (Key.number x, ts)
    | _ => none
  match ts with
  | .colon :: ts =>
    let (p, ts) ← inner ts
    some ((k, p), ts)
  | _ => none

/-- A literal, a name, or a phrase in brackets. -/
def atom (inner : Reader Phrase) : Reader Phrase
  | .name n :: ts => match Keyword.ofName? n with
    | some k => some (.keyword k, ts)
    | none => some (.name n, ts)
  | .number x :: ts => some (.number x, ts)
  | .text quote s :: ts => some (.text quote s, ts)
  | .opening .round :: ts => do
    let (p, ts) ← inner ts
    match ts with
    | .closing .round :: ts => some (.group p, ts)
    | _ => none
  | .opening .square :: ts => do
    let ((items, trailing), ts) ← enclosed .square inner ts
    some (.array items trailing, ts)
  | .opening .curly :: ts => do
    let ((props, trailing), ts) ← enclosed .curly (property inner) ts
    some (.object props trailing, ts)
  | _ => none

/-- The property reads behind a phrase. The first argument bounds their number. -/
def links (inner : Reader Phrase) : Nat → Phrase → Reader Phrase
  | n + 1, p, .dot :: .name m :: ts => links inner n (.member p m) ts
  | n + 1, p, .opening .square :: ts => do
    let (i, ts) ← inner ts
    match ts with
    | .closing .square :: ts => links inner n (.index p i) ts
    | _ => none
  | _, p, ts => some (p, ts)

/-- An operand: signs, an atom, property reads. -/
def operand (inner : Reader Phrase) : Reader Phrase
  | .bang :: ts => (operand inner ts).map fun (p, ts) => (.unary .not p, ts)
  | .op .sub :: ts => (operand inner ts).map fun (p, ts) => (.unary .neg p, ts)
  | ts => do
    let (p, ts) ← atom inner ts
    links inner ts.length p ts

/-- Operators, each with the operand behind it. The first argument bounds their number. -/
def row (inner : Reader Phrase) : Nat → Reader (List (BinaryOp × Phrase))
  | n + 1, .op o :: ts => do
    let (p, ts) ← operand inner ts
    let (ps, ts) ← row inner n ts
    some ((o, p) :: ps, ts)
  | _, ts => some ([], ts)

/-- Operands with operators between them, put together. -/
def chain (inner : Reader Phrase) : Reader Phrase := fun ts => do
  let (p, ts) ← operand inner ts
  let (ps, ts) ← row inner ts.length ts
  some (assemble 6 p ps, ts)

/-- A phrase in which at most a number of brackets is open at once. -/
def phrase? : Nat → Reader Phrase
  | 0 => chain fun _ => none
  | n + 1 => chain (phrase? n)

/-- The phrase a whole text writes. A text of `n` characters opens at most `n` brackets. -/
def ofText? (cs : List Char) : Option Phrase := do
  let ts ← Token.ofText? cs
  match phrase? cs.length ts with
  | some (p, []) => some p
  | _ => none

end Phrase

end Resumable.Expr
