import Resumable.Decimal.Shortest

/-!
# Decimals as text

A decimal is laid out positionally, the point standing inside, before or behind its digits, or
with an exponent behind one leading digit.

These are the layouts of `format_number` and of numbers in JSON and in settings.
-/

namespace Resumable.Decimal

/-- How many digits stand before the point when the decimal is written positionally; negative if
zeros follow the point first. -/
def pointAfter (d : Decimal) : Int := (Text.decimal d.digits).length + d.exponent

/-- The positional form. `pointZero` writes a whole number with a point and a zero behind it. -/
def positional (pointZero : Bool) (d : Decimal) : List Char :=
  let digits := Text.decimal d.digits
  if 0 ≤ d.exponent then
    digits ++ List.replicate d.exponent.toNat '0' ++ if pointZero then ['.', '0'] else []
  else if 0 < d.pointAfter then
    digits.take d.pointAfter.toNat ++ '.' :: digits.drop d.pointAfter.toNat
  else ['0', '.'] ++ List.replicate (-d.pointAfter).toNat '0' ++ digits

/-- The form with an exponent: one digit, the others behind a point, and the exponent with its
sign. -/
def scientific (d : Decimal) : List Char :=
  let (first, others) := (Text.decimal d.digits).splitAt 1
  let power := d.pointAfter - 1
  first ++ (if others.isEmpty then [] else '.' :: others) ++
    'e' :: (if power < 0 then '-' else '+') :: Text.decimal power.natAbs

end Resumable.Decimal
