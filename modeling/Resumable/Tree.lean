import Resumable.Decimal.Layout
import Resumable.Fields

/-!
# Trees of settings

What a source of settings says before anyone knows what it means: scalars in arrays and named
tables. A setting that wants a number or a text takes any scalar that can be read as one: words
for yes and no count as one and zero, a number with a fraction is rounded, and every scalar has a
text.

This models the values that `build` gathers, and the conversions by which a `Config` is made from
them.
-/

namespace Resumable

/-- A single value. -/
inductive Scalar where
  /-- A truth value. -/
  | boolean (b : Bool)
  /-- A whole number. -/
  | integer (n : Int)
  /-- A binary64 number. -/
  | float (x : Double)
  /-- A text. -/
  | text (s : String)
  deriving DecidableEq

/-- Scalars, arrays and tables. -/
inductive Tree where
  /-- A place in an array that nothing was written to. -/
  | absent
  /-- A single value. -/
  | scalar (s : Scalar)
  /-- An array. -/
  | array (items : List Tree)
  /-- A table. -/
  | table (fields : List (String × Tree))

namespace Scalar

/-! ### Scalars as unsigned 64-bit numbers -/

/-- The number nearest to a finite magnitude, a half going up. -/
def roundedMagnitude (rank : Nat) : Nat := (2 * Double.units rank + Double.one) / (2 * Double.one)

/-- A binary64 number rounded into the unsigned 64-bit range. What lies outside goes to the nearer
end of it, and the NaN to zero. -/
def wordOfDouble : Double → Nat
  | .finite false rank => min (roundedMagnitude rank) Text.maxWord
  | .infinity false => Text.maxWord
  | _ => 0

/-- The number that a word for yes or no stands for, in letters of either case. -/
def wordOfAnswer? (s : String) : Option Nat :=
  let lower := s.map Char.toLower
  if lower ∈ ["true", "on", "yes"] then some 1
  else if lower ∈ ["false", "off", "no"] then some 0
  else none

/-- A scalar as an unsigned 64-bit number. -/
def word? : Scalar → Option Nat
  | .boolean b => some b.toNat
  | .integer n => if 0 ≤ n then some n.toNat else none
  | .float x => some (wordOfDouble x)
  | .text s => wordOfAnswer? s <|> Text.word? 10 s.toList

/-! ### Scalars as texts -/

/-- A binary64 number with its fewest digits, always positionally. -/
def showDouble : Double → String
  | .nan => "NaN"
  | .infinity false => "inf"
  | .infinity true => "-inf"
  | .finite negative rank => String.ofList
    ((if negative then ['-'] else []) ++
      if rank.val = 0 then ['0'] else (Decimal.shortest .up rank).positional false)

/-- An integer in decimal digits. -/
def showInteger (n : Int) : String :=
  String.ofList ((if n < 0 then ['-'] else []) ++ Text.decimal n.natAbs)

/-- A scalar as a text. -/
def toText : Scalar → String
  | .boolean true => "true"
  | .boolean false => "false"
  | .integer n => showInteger n
  | .float x => showDouble x
  | .text s => s

end Scalar

namespace Tree

/-- A tree that must be an unsigned 64-bit number. -/
def word? : Tree → Option Nat
  | .scalar s => s.word?
  | _ => none

/-- A tree that must be a text. -/
def text? : Tree → Option String
  | .scalar s => some s.toText
  | _ => none

end Tree

end Resumable
