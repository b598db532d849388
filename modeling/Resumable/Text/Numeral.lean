/-!
# Numerals

Digits of a radix, the number a run of digits stands for, and the unsigned 64-bit numeral: an
optional plus sign and at least one digit. The ranges of the 64-bit numbers stand here too.

This models the integers of `string_to_number` that have a radix, and the texts that a setting
takes for a number.
-/

namespace Resumable.Text

/-- The largest unsigned 64-bit number. -/
def maxWord : Nat := Nat.pow 2 64 - 1

/-- The largest signed 64-bit number. -/
def maxSigned : Nat := Nat.pow 2 63 - 1

/-- An integer, if it is a signed 64-bit number. -/
def signedWord? (n : Int) : Option Int :=
  if -(maxSigned : Int) - 1 ≤ n ∧ n ≤ maxSigned then some n else none

/-- The value of a digit or letter, whatever the radix. -/
def digitValue (c : Char) : Option Nat :=
  if '0' ≤ c ∧ c ≤ '9' then some (c.toNat - '0'.toNat)
  else if 'a' ≤ c ∧ c ≤ 'z' then some (c.toNat - 'a'.toNat + 10)
  else if 'A' ≤ c ∧ c ≤ 'Z' then some (c.toNat - 'A'.toNat + 10)
  else none

/-- The value of a digit of the given radix. -/
def digitOf (radix : Nat) (c : Char) : Option Nat := (digitValue c).filter (· < radix)

/-- The digits of a text, if every character is one. -/
def digitsOf (radix : Nat) (cs : List Char) : Option (List Nat) := cs.mapM (digitOf radix)

/-- The number that digits, the most significant first, stand for. -/
def ofDigits (radix : Nat) (ds : List Nat) : Nat := ds.foldl (fun n d => n * radix + d) 0

/-- The number a non-empty run of digits stands for. -/
def natural? (radix : Nat) : List Char → Option Nat
  | [] => none
  | c :: cs => (digitsOf radix (c :: cs)).map (ofDigits radix)

/-- An unsigned 64-bit numeral: digits that may follow a plus sign and do not pass `maxWord`. -/
def word? (radix : Nat) (cs : List Char) : Option Nat :=
  let digits := match cs with
    | '+' :: rest => rest
    | _ => cs
  (natural? radix digits).filter (· ≤ maxWord)

/-- The decimal digits of a number. -/
def decimal (n : Nat) : List Char := Nat.toDigits 10 n

/-- The digits of a number in radix sixteen, in lower case. -/
def hexadecimal (n : Nat) : List Char := Nat.toDigits 16 n

/-- A text filled up on the left with a character to a width. -/
def padLeft (width : Nat) (fill : Char) (cs : List Char) : List Char :=
  List.replicate (width - cs.length) fill ++ cs

end Resumable.Text
