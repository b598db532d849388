import Resumable.Decimal.Basic
import Resumable.Double.Arithmetic
import Resumable.Json.Basic

/-!
# JSON numbers

A number is read as it is written, and its value is a matter of its own. A number without fraction
and exponent is an integer as long as it fits 64 bits, unsigned or signed; negative zero is a
binary64 number. For every other number the digits are gathered into an unsigned 64-bit significand
for as long as they fit. Further digits of the whole part only raise the exponent, and further
digits of the fraction are dropped. The significand is converted to the nearest binary64 number and
then multiplied or divided by the power of ten, with one rounding more. A number beyond the finite
ones has no value.

This models how the reader of JSON, on which `load_responses` relies, makes a number from digits.
-/

namespace Resumable.Json

/-- A number as it is written. -/
structure Numeral where
  /-- Whether a minus sign leads it. -/
  negative : Bool
  /-- The digits before the point. -/
  whole : List Char
  /-- The digits behind the point, if there is one. -/
  fraction : Option (List Char)
  /-- The exponent, if there is one. -/
  exponent : Option Int
  deriving DecidableEq

/-! ### Values -/

/-- The value of a decimal digit. -/
def digit (c : Char) : Nat := c.toNat - '0'.toNat

/-- Gathers digits of the whole part: the significand, and how many digits found no room. -/
def gatherWhole (significand : Nat) : List Char → Nat × Nat
  | [] => (significand, 0)
  | c :: cs =>
    if significand * 10 + digit c ≤ Text.maxWord then gatherWhole (significand * 10 + digit c) cs
    else (significand, cs.length + 1)

/-- Gathers digits of the fraction: the significand, and how many digits were taken. -/
def gatherFraction (significand : Nat) : List Char → Nat × Nat
  | [] => (significand, 0)
  | c :: cs =>
    if significand * 10 + digit c ≤ Text.maxWord then
      let (total, taken) := gatherFraction (significand * 10 + digit c) cs
      (total, taken + 1)
    else (significand, 0)

/-- The largest power of ten below overflow. -/
def maxPower : Nat := 308

/-- The binary64 number nearest to a power of ten. -/
def power (n : Nat) : Double := (Decimal.mk 1 n).toDouble false

/-- Scales a number by a power of ten, `none` on overflow. Below the least power the number is
divided in steps; two steps bring every 64-bit significand down to zero. -/
def scale (steps : Nat) (x : Double) (exponent : Int) : Option Double :=
  if exponent.natAbs ≤ maxPower then
    if 0 ≤ exponent then
      let y := x.mul (power exponent.toNat)
      if y.isFinite then some y else none
    else some (x.div (power exponent.natAbs))
  else if x.isZero then some x
  else if 0 < exponent then none
  else match steps with
    | 0 => some .zero
    | steps + 1 => scale steps (x.div (power maxPower)) (exponent + maxPower)

/-- The number of a sign, the digits of its two parts and an exponent. -/
def float? (negative : Bool) (whole fraction : List Char) (exponent : Int) : Option Double :=
  let (significand, dropped) := gatherWhole 0 whole
  let (significand, taken) := gatherFraction significand fraction
  (scale 2 (.ofNat significand) (exponent + dropped - taken)).map fun x =>
    if negative then x.neg else x

/-- A number written without fraction and exponent. -/
def whole? (negative : Bool) (digits : List Char) : Option Number :=
  let n := Decimal.ofRun digits
  if negative then
    if 0 < n ∧ n ≤ Text.maxSigned + 1 then some (.integer (-n))
    else (float? true digits [] 0).map .float
  else if n ≤ Text.maxWord then some (.integer n)
  else (float? false digits [] 0).map .float

/-- The value of a number, `none` beyond the finite ones. -/
def Numeral.value? (n : Numeral) : Option Number :=
  match n.fraction, n.exponent with
  | none, none => whole? n.negative n.whole
  | _, _ => (float? n.negative n.whole (n.fraction.getD []) (n.exponent.getD 0)).map .float

/-! ### Reading -/

/-- A fraction at the start of a text, if a point stands there; it needs a digit. -/
def fraction? : List Char → Option (Option (List Char) × List Char)
  | '.' :: rest => match Decimal.spanDigits rest with
    | ([], _) => none
    | (run, rest) => some (some run, rest)
  | cs => some (none, cs)

/-- An exponent at the start of a text, if its letter stands there; it needs a digit. -/
def scaling? (cs : List Char) : Option (Option Int × List Char) :=
  match cs with
  | c :: _ =>
    if c = 'e' ∨ c = 'E' then (Decimal.exponent? cs).map fun (e, rest) => (some e, rest)
    else some (none, cs)
  | [] => some (none, [])

/-- A number at the start of a text, and what follows it. No zero leads other digits. -/
def numeral? (cs : List Char) : Option (Numeral × List Char) := do
  let (negative, cs) := match cs with
    | '-' :: rest => (true, rest)
    | _ => (false, cs)
  let (digits, rest) := Decimal.spanDigits cs
  match digits with
  | [] => none
  | '0' :: _ :: _ => none
  | _ =>
    let (fraction, rest) ← fraction? rest
    let (exponent, rest) ← scaling? rest
    some (⟨negative, digits, fraction, exponent⟩, rest)

end Resumable.Json
