import Resumable.Toml.Basic

/-!
# Values without quotes in TOML

Truth values, numbers and moments are words: runs of letters, digits and a few marks. A word is
read as a whole. Numbers may hold underscores between digits; a decimal integer has no leading
zeros; an integer of radix sixteen, eight or two has no sign; and integers are signed 64-bit
numbers.

This models the words that `build` reads from a file.
-/

namespace Resumable.Toml

/-- Whether a character may stand in a word. -/
def isWordChar (c : Char) : Bool :=
  c.isAlphanum || c == '+' || c == '-' || c == '_' || c == '.' || c == ':'

/-- A run of digits without the underscores that stand between them. -/
def ungroup? (digit : Char → Bool) : List Char → Option (List Char)
  | [] => none
  | [c] => if digit c then some [c] else none
  | c :: '_' :: cs => if digit c then (ungroup? digit cs).map (c :: ·) else none
  | c :: cs => if digit c then (ungroup? digit cs).map (c :: ·) else none

/-- A sign at the start of a text, if there is one, and what follows it. -/
def splitSign : List Char → Bool × List Char
  | '+' :: cs => (false, cs)
  | '-' :: cs => (true, cs)
  | cs => (false, cs)

/-- The digits of a decimal integer: zero alone or no leading zero. -/
def wholePart? (cs : List Char) : Option (List Char) :=
  match ungroup? Decimal.isDigit cs with
  | some ('0' :: _ :: _) => none
  | digits => digits

/-! ### Integers -/

/-- An integer of a radix from its digits. -/
def radixInteger? (radix : Nat) (cs : List Char) : Option Int := do
  let digits ← ungroup? (fun c => (Text.digitOf radix c).isSome) cs
  let n ← Text.natural? radix digits
  Text.signedWord? n

/-- A decimal integer. -/
def decimalInteger? (cs : List Char) : Option Int := do
  let (negative, cs) := splitSign cs
  let digits ← wholePart? cs
  let n : Int := Decimal.ofRun digits
  Text.signedWord? (if negative then -n else n)

/-- The integer a word stands for. -/
def integer? : List Char → Option Int
  | '0' :: 'x' :: cs => radixInteger? 16 cs
  | '0' :: 'o' :: cs => radixInteger? 8 cs
  | '0' :: 'b' :: cs => radixInteger? 2 cs
  | cs => decimalInteger? cs

/-! ### Numbers with a fraction or an exponent -/

/-- Whether a character is a decimal digit or an underscore. -/
def isGrouped (c : Char) : Bool := Decimal.isDigit c || c == '_'

/-- The exponent that a whole text stands for; an empty one is zero. -/
def exponent? : List Char → Option Int
  | [] => some 0
  | c :: cs =>
    if c = 'e' ∨ c = 'E' then do
      let (negative, cs) := splitSign cs
      let digits ← ungroup? Decimal.isDigit cs
      let n : Int := Decimal.ofRun digits
      some (if negative then -n else n)
    else none

/-- The fraction at the start of a text, possibly none, and what follows it. -/
def fractionPart? : List Char → Option (List Char × List Char)
  | '.' :: cs => do
    let (run, cs) := cs.span isGrouped
    let digits ← ungroup? Decimal.isDigit run
    some (digits, cs)
  | cs => some ([], cs)

/-- A number past the largest finite one is refused unless it is negative. -/
def belowInfinity? (x : Double) : Option Double := if x = .infinity false then none else some x

/-- The binary64 number of a word with a fraction or an exponent. -/
def decimalFloat? (cs : List Char) : Option Double := do
  let (negative, cs) := splitSign cs
  let (run, cs) := cs.span isGrouped
  if cs.isEmpty then none
  else
    let digits ← wholePart? run
    let (fraction, cs) ← fractionPart? cs
    let exponent ← exponent? cs
    belowInfinity? ((Decimal.ofParts digits fraction exponent).toDouble negative)

/-- The binary64 number a word stands for. -/
def float? (cs : List Char) : Option Double :=
  let (negative, word) := splitSign cs
  if word = ['i', 'n', 'f'] then some (.infinity negative)
  else if word = ['n', 'a', 'n'] then some .nan
  else decimalFloat? cs

/-! ### Words -/

/-- The truth value a word stands for. -/
def boolean? (cs : List Char) : Option Bool :=
  if cs = ['t', 'r', 'u', 'e'] then some true
  else if cs = ['f', 'a', 'l', 's', 'e'] then some false
  else none

/-- The value a word stands for. -/
def ofWord? (cs : List Char) : Option Toml :=
  (boolean? cs).map (fun b => .scalar (.boolean b)) <|>
    (integer? cs).map (fun n => .scalar (.integer n)) <|>
    (float? cs).map (fun x => .scalar (.float x)) <|>
    (moment? cs).map .moment

/-- Whether a space and a digit come next, so that a time may follow a date. -/
def timeFollows : List Char → Bool
  | ' ' :: c :: _ => Decimal.isDigit c
  | _ => false

/-- A value without quotes at the start of a text, and what follows it. Date and time may have a
space between them. -/
def bare? (cs : List Char) : Option (Toml × List Char) :=
  let (word, rest) := cs.span isWordChar
  if isDate word ∧ timeFollows rest then
    let (time, rest) := (rest.drop 1).span isWordChar
    (ofWord? (word ++ ' ' :: time)).map (·, rest)
  else (ofWord? word).map (·, rest)

end Resumable.Toml
