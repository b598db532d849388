import Resumable.Expr.Phrase
import Resumable.Source.Scanner

/-!
# Limits on the size of expressions

An expression may not nest brackets too deep, may not have too many nodes, and may not line up too
many signs. Nesting is counted on the characters before anything else; nodes and signs are counted
on the phrase, in the order in which they are written, and the first limit that is passed is the
one reported.

This models `check_size`, and the bound on nesting in `parse_expression`.
-/

namespace Resumable.Expr

/-- The deepest nesting of brackets that is accepted. -/
def maxNesting : Nat := 64

/-- The most nodes that are accepted. -/
def maxNodes : Nat := 4096

/-- The longest run of signs that is accepted. -/
def maxSigns : Nat := 64

/-- A limit that an expression passes. -/
inductive Limit where
  /-- Brackets nest to this depth. -/
  | nesting (depth : Nat)
  /-- There are too many nodes. -/
  | nodes
  /-- Too many signs follow each other. -/
  | signs
  deriving DecidableEq

/-- The wording of a limit. -/
def Limit.message : Limit → String
  | .nesting depth =>
    "nesting depth " ++ toString depth ++ " exceeds " ++ toString maxNesting
  | .nodes => "more than " ++ toString maxNodes ++ " nodes"
  | .signs => "more than " ++ toString maxSigns ++ " consecutive prefix operators"

/-- A node of a phrase, for counting. -/
inductive Mark where
  /-- A sign before an operand. -/
  | sign
  /-- Any other node. -/
  | plain
  deriving DecidableEq

/-- The nodes of a property's name; a string has one for its content. -/
def Key.marks : Key → List Mark
  | .text _ _ => [.plain, .plain]
  | _ => [.plain]

namespace Phrase

mutual
/-- The nodes of a phrase in the order in which they are written, before those that follow. A
phrase inside brackets, an item and a property's value count as one node besides their own. -/
def marks : Phrase → List Mark → List Mark
  | .keyword _, rest => .plain :: rest
  | .number _, rest => .plain :: rest
  | .text _ _, rest => .plain :: .plain :: rest
  | .name _, rest => .plain :: rest
  | .group p, rest => .plain :: p.marks rest
  | .object props _, rest => .plain :: propMarks props rest
  | .array items _, rest => .plain :: itemMarks items rest
  | .member p _, rest => p.marks (.plain :: .plain :: rest)
  | .index p i, rest => p.marks (.plain :: .plain :: i.marks rest)
  | .unary _ p, rest => .sign :: p.marks rest
  | .binary _ l r, rest => l.marks (.plain :: r.marks rest)

/-- The nodes of an object literal's properties. -/
def propMarks : List (Key × Phrase) → List Mark → List Mark
  | [], rest => rest
  | (k, p) :: ps, rest => .plain :: (k.marks ++ .plain :: p.marks (propMarks ps rest))

/-- The nodes of an array literal's items. -/
def itemMarks : List Phrase → List Mark → List Mark
  | [], rest => rest
  | p :: ps, rest => .plain :: p.marks (itemMarks ps rest)
end

/-- The first limit that nodes pass, after some number of nodes and a run of signs. -/
def passed? (nodes signs : Nat) : List Mark → Option Limit
  | [] => none
  | m :: ms =>
    if maxNodes < nodes + 1 then some .nodes
    else match m with
      | .plain => passed? (nodes + 1) 0 ms
      | .sign => if maxSigns < signs + 1 then some .signs else passed? (nodes + 1) (signs + 1) ms

/-- The limit that a phrase passes, if any. -/
def limit? (p : Phrase) : Option Limit := passed? 0 0 (p.marks [])

end Phrase

end Resumable.Expr
