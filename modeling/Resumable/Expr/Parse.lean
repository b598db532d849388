import Resumable.Expr.Grammar
import Resumable.Expr.Limits

/-!
# From text to expression

A text is an expression if it keeps the limits and the grammar. Nesting is checked first, so that
the grammar is only tried on texts it can read in few levels; the other limits are checked on the
phrase the grammar finds.

This models `parse_expression`. Where and why the grammar does not accept a text is not modelled.
-/

namespace Resumable.Expr

/-- Why a text is no expression. -/
inductive ParseError where
  /-- The grammar does not accept it. -/
  | malformed
  /-- It passes a limit. -/
  | tooComplex (limit : Limit)
  deriving DecidableEq

/-- The wording of a parse error, if it has one of its own. -/
def ParseError.message? : ParseError → Option String
  | .malformed => none
  | .tooComplex limit => some ("Expression too complex: " ++ limit.message)

/-- The phrase of a text that keeps all limits. -/
def readPhrase (cs : List Char) : Except ParseError Phrase :=
  let depth := Source.nestingDepth cs
  if maxNesting < depth then .error (.tooComplex (.nesting depth))
  else match Phrase.ofText? cs with
    | none => .error .malformed
    | some p => match p.limit? with
      | some limit => .error (.tooComplex limit)
      | none => .ok p

/-- The expression a text writes. -/
def parse (cs : List Char) : Except ParseError Expr := (readPhrase cs).map Phrase.toExpr

end Resumable.Expr
