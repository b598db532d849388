/-!
# Binary64 numbers

A number is a NaN, an infinity or a finite value, and a finite value is named by its *rank*: its
place in the ascending list of all finite magnitudes. Zero has rank 0, the least positive value
rank 1, and so on. A rank is also the magnitude's 63 bits in the interchange format, so the list
has `2047 * 2 ^ 52` members.

`units` turns a rank into the magnitude it names, counted in multiples of the least positive
value `2 ^ -1074`, and `nearestRank` goes back: it rounds an exact quotient to the nearest
magnitude, a half going to the even rank. Every operation computes its exact result on units and
rounds it once.

This models the numbers of `Val`. The sign and the payload of a NaN are not modelled: no script can
tell one from another.
-/

namespace Resumable

namespace Double

/-- How many magnitudes lie from a power of two to the next one. -/
def binade : Nat := Nat.pow 2 52

/-- The number of finite magnitudes; as a rank it stands for what lies beyond them. -/
def topRank : Nat := 2047 * binade

end Double

/-- A binary64 number. There is one NaN. -/
inductive Double where
  /-- The result of an operation without a meaning. -/
  | nan
  /-- Positive or negative infinity. -/
  | infinity (negative : Bool)
  /-- The finite value of a sign and a rank; zero has two signs. -/
  | finite (negative : Bool) (rank : Fin Double.topRank)
  deriving DecidableEq

namespace Double

/-! ### Ranks and magnitudes -/

/-- How many units make one. -/
def one : Nat := Nat.pow 2 1074

/-- The magnitude of a rank, in units. The magnitudes of the first two binades are consecutive;
after them every binade doubles the spacing of the one before it. -/
def units (rank : Nat) : Nat :=
  if rank < 2 * binade then rank
  else (binade + rank % binade) * Nat.pow 2 (rank / binade - 1)

/-- The natural number nearest to `num / den`, a half going to the even one. -/
def roundQuotient (num den : Nat) : Nat :=
  let quotient := num / den
  let twice := 2 * (num % den)
  if twice < den then quotient
  else if den < twice then quotient + 1
  else quotient + quotient % 2

/-- The rank whose magnitude is nearest to `num / den` units, a half going to the even rank. The
result may be `topRank` or more, which is overflow. -/
def nearestRank (num den : Nat) : Nat :=
  let shift := (num / den).log2 - 52
  shift * binade + roundQuotient num (den * Nat.pow 2 shift)

/-- The number of a sign and a rank, infinite beyond the finite ranks. -/
def ofRank (negative : Bool) (rank : Nat) : Double :=
  if h : rank < topRank then .finite negative ⟨rank, h⟩ else .infinity negative

/-- The number nearest to `num / den` units, with the given sign. -/
def ofQuotient (negative : Bool) (num den : Nat) : Double :=
  ofRank negative (nearestRank num den)

/-- The number nearest to an integer count of units; `zeroNegative` is the sign of a zero. -/
def ofUnits (zeroNegative : Bool) (n : Int) : Double :=
  ofQuotient (if n = 0 then zeroNegative else n < 0) n.natAbs 1

/-- Positive zero. -/
def zero : Double := ofRank false 0

/-- The number nearest to an integer. -/
def ofInt (n : Int) : Double := ofUnits false (n * one)

/-- The number nearest to a natural number. -/
def ofNat (n : Nat) : Double := ofInt n

/-- A truth value as a number. -/
def ofBool (b : Bool) : Double := if b then ofNat 1 else zero

/-! ### Questions about a number -/

/-- A finite value as a signed count of units. -/
def signedUnits (negative : Bool) (rank : Nat) : Int :=
  if negative then -(units rank : Int) else units rank

/-- Whether a number is the NaN. -/
def isNaN : Double → Bool
  | .nan => true
  | _ => false

/-- Whether a number is zero, of either sign. -/
def isZero : Double → Bool
  | .finite _ rank => rank.val == 0
  | _ => false

/-- Whether a number is neither the NaN nor an infinity. -/
def isFinite : Double → Bool
  | .finite .. => true
  | _ => false

/-- The integer a number equals, if there is one. -/
def toInt? : Double → Option Int
  | .finite negative rank =>
    if units rank % one = 0 then some (signedUnits negative rank / one) else none
  | _ => none

/-- The place of a number on the line of signed ranks; the NaN has none. The two zeros share a
place. -/
def place : Double → Option Int
  | .nan => none
  | .infinity negative => some (if negative then -(topRank : Int) else topRank)
  | .finite negative rank => some (if negative then -(rank.val : Int) else rank.val)

/-- The order of two numbers, unless one is the NaN. -/
def order (a b : Double) : Option Ordering :=
  match a.place, b.place with
  | some i, some j => some (compare i j)
  | _, _ => none

/-- Numeric equality: the zeros are equal and the NaN equals nothing. -/
def eq (a b : Double) : Bool := a.order b == some .eq

/-! ### Interchange format -/

/-- The weight of the sign among 64 bits. -/
def signBit : Nat := Nat.pow 2 63

/-- The number of 64 bits in the interchange format. -/
def ofBits (bits : Nat) : Double :=
  let rank := bits % signBit
  if topRank < rank then .nan else ofRank (bits / signBit % 2 == 1) rank

/-- The 64 bits of a number in the interchange format; the NaN has no fixed ones. -/
def toBits? : Double → Option Nat
  | .nan => none
  | .infinity negative => some (negative.toNat * signBit + topRank)
  | .finite negative rank => some (negative.toNat * signBit + rank)

end Double

end Resumable
