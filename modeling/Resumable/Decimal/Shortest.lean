import Resumable.Decimal.Basic

/-!
# The shortest decimal of a number

Of all decimals that read back as a given finite number, the shortest is the one on the coarsest
power of ten, and of two such on the same power the one closer to the number. When both are
equally close, the format that is written decides.

The search goes through the powers of ten from the coarsest down. On each it tries the two
neighbours of the number; if one of them reads back, so does every decimal between it and the
number, hence no other decimal of that power can be closer.

This models the digits that `format_number` and the writer of JSON print.
-/

namespace Resumable.Decimal

/-- Which of two equally close decimals is taken. -/
inductive Tie where
  /-- The one with the even last digit. -/
  | even
  /-- The larger one. -/
  | up
  deriving DecidableEq

/-- The number `units rank` as a quotient of naturals on the grid of `10 ^ exponent`. -/
def onGrid (rank : Nat) (exponent : Int) : Nat × Nat :=
  if 0 ≤ exponent then (Double.units rank, Double.one * Nat.pow 10 exponent.toNat)
  else (Double.units rank * Nat.pow 10 (-exponent).toNat, Double.one)

/-- Whether a decimal reads back as the number of a rank. -/
def readsBack (rank : Nat) (d : Decimal) : Bool := d.nearestRank == rank

/-- The decimal on the grid of `10 ^ exponent` that reads back and is closest to the number. -/
def closest? (tie : Tie) (rank : Nat) (exponent : Int) : Option Decimal :=
  let (num, den) := onGrid rank exponent
  let below : Decimal := ⟨num / den, exponent⟩
  let above : Decimal := ⟨num / den + 1, exponent⟩
  match readsBack rank below, readsBack rank above with
  | false, false => none
  | true, false => some below
  | false, true => some above
  | true, true =>
    match compare (2 * (num % den)) den with
    | .lt => some below
    | .gt => some above
    | .eq => match tie with
      | .up => some above
      | .even => if num / den % 2 = 0 then some below else some above

/-- A power of ten above the number of a rank: from `2 ^ k`, the power `k * log 2` rounded up. -/
def coarsest (rank : Nat) : Int := ((Double.units rank).log2 - 1074 : Int) * 1233 / 4096 + 2

/-- The number of a rank as a decimal, digit for digit. -/
def exact (rank : Nat) : Decimal := ⟨Double.units rank * Nat.pow 5 1074, -1074⟩

/-- The shortest decimal that reads back as the number of a rank. -/
def shortest (tie : Tie) (rank : Nat) : Decimal :=
  ((List.range 24).findSome? fun (n : Nat) => closest? tie rank (coarsest rank - n)).getD
    (exact rank)

end Resumable.Decimal
