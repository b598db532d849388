import Resumable.Double.Basic
import Resumable.Text.Numeral

/-!
# Decimals

A decimal is a natural number times a power of ten. This module finds the binary64 number nearest
to a decimal, and reads the plain numeral: digits with an optional fraction and an optional
exponent.

This models how `evaluate`, `parse_number` and `string_to_number` turn digits into a number; the
parser they call rounds correctly.
-/

namespace Resumable

/-- The number `digits * 10 ^ exponent`. -/
structure Decimal where
  /-- The significant digits, read as one number. -/
  digits : Nat
  /-- The power of ten that scales them. -/
  exponent : Int
  deriving DecidableEq

namespace Decimal

/-- Decimals of this many places on either side of the point lie beyond all finite numbers. -/
def horizon : Nat := 400

/-- The rank nearest to a decimal. Far beyond the horizon the exact quotient is not formed: there
the magnitude is past every finite one, or less than half of the least. -/
def nearestRank (d : Decimal) : Nat :=
  if d.digits = 0 then 0
  else if horizon < d.exponent then Double.topRank
  else if d.exponent + (d.digits.log2 + 1) < -(horizon : Int) then 0
  else if 0 ≤ d.exponent then
    Double.nearestRank (d.digits * Nat.pow 10 d.exponent.toNat * Double.one) 1
  else Double.nearestRank (d.digits * Double.one) (Nat.pow 10 (-d.exponent).toNat)

/-- The binary64 number nearest to a decimal with a sign. -/
def toDouble (negative : Bool) (d : Decimal) : Double := Double.ofRank negative d.nearestRank

/-! ### Reading -/

/-- Whether a character is a decimal digit. -/
def isDigit (c : Char) : Bool := '0' ≤ c && c ≤ '9'

/-- The number of a run of decimal digits. -/
def ofRun (cs : List Char) : Nat := cs.foldl (fun n c => n * 10 + (c.toNat - '0'.toNat)) 0

/-- The longest run of decimal digits at the start of a text, and what follows it. -/
def spanDigits (cs : List Char) : List Char × List Char := cs.span isDigit

/-- An exponent at the start of a text: the letter, an optional sign and at least one digit. -/
def exponent? : List Char → Option (Int × List Char)
  | c :: rest =>
    if c = 'e' ∨ c = 'E' then
      let (negative, rest) := match rest with
        | '+' :: rest => (false, rest)
        | '-' :: rest => (true, rest)
        | _ => (false, rest)
      match spanDigits rest with
      | ([], _) => none
      | (run, rest) => some (if negative then -(ofRun run : Int) else ofRun run, rest)
    else none
  | [] => none

/-- A decimal from its whole part, fraction and exponent. -/
def ofParts (whole fraction : List Char) (exponent : Int) : Decimal :=
  ⟨ofRun (whole ++ fraction), exponent - fraction.length⟩

/-- The digits behind a point at the start of a text, and what follows them. A point without a digit
behind it is left alone. -/
def takeFraction (cs : List Char) : List Char × List Char :=
  match cs with
  | '.' :: after => match spanDigits after with
    | ([], _) => ([], cs)
    | (run, after) => (run, after)
  | _ => ([], cs)

/-- A numeral at the start of a text, with a fraction only if a digit follows the point and an
exponent only if it is complete; and what follows it. -/
def literal? (cs : List Char) : Option (Decimal × List Char) :=
  match spanDigits cs with
  | ([], _) => none
  | (whole, rest) =>
    let (fraction, rest) := takeFraction rest
    match exponent? rest with
    | some (e, rest) => some (ofParts whole fraction e, rest)
    | none => some (ofParts whole fraction 0, rest)

/-- A whole text as a numeral: an optional sign, digits on at least one side of an optional point,
and an optional exponent. -/
def signed? (cs : List Char) : Option (Bool × Decimal) :=
  let (negative, cs) := match cs with
    | '+' :: rest => (false, rest)
    | '-' :: rest => (true, rest)
    | _ => (false, cs)
  let (whole, rest) := spanDigits cs
  let (fraction, rest) := match rest with
    | '.' :: after => spanDigits after
    | _ => ([], rest)
  if whole.isEmpty && fraction.isEmpty then none
  else match rest with
    | [] => some (negative, ofParts whole fraction 0)
    | _ => match exponent? rest with
      | some (e, []) => some (negative, ofParts whole fraction e)
      | _ => none

end Decimal

end Resumable
