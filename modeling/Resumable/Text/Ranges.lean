/-!
# Sets of characters given by ranges

A property of characters is written down as a list of closed ranges of code points, ascending
and apart. `CodeRanges.has` is membership; the tables themselves stand in the modules named for
the property they hold.
-/

namespace Resumable.Text

/-- Closed ranges of code points, ascending and apart. -/
abbrev CodeRanges := List (Nat × Nat)

namespace CodeRanges

/-- Whether a character lies in one of the ranges. -/
def has (rs : CodeRanges) (c : Char) : Bool :=
  rs.any fun r => r.1 ≤ c.toNat && c.toNat ≤ r.2

/-- The ranges are ascending, none is empty, and no two of them touch. -/
def Apart : CodeRanges → Bool
  | [] => true
  | [r] => r.1 ≤ r.2
  | r :: s :: rs => r.1 ≤ r.2 && r.2 + 1 < s.1 && Apart (s :: rs)

/-- The number of code points in the ranges. -/
def count (rs : CodeRanges) : Nat := rs.foldl (fun n r => n + (r.2 + 1 - r.1)) 0

end CodeRanges

end Resumable.Text
