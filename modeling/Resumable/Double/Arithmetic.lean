import Resumable.Double.Basic

/-!
# Arithmetic on binary64 numbers

Each operation settles the NaN, the infinities and division by zero first. What remains is a
result that is exact on units and is then rounded once. Addition of opposite values gives
positive zero, and a remainder has the sign of the dividend.

This models the arithmetic of `apply_binary`, which is that of the number format.
-/

namespace Resumable.Double

/-- The same magnitude with the other sign. -/
def neg : Double → Double
  | .nan => .nan
  | .infinity negative => .infinity !negative
  | .finite negative rank => .finite (!negative) rank

/-- The sum, rounded. -/
def add : Double → Double → Double
  | .nan, _ => .nan
  | _, .nan => .nan
  | .infinity s, .infinity t => if s = t then .infinity s else .nan
  | .infinity s, .finite _ _ => .infinity s
  | .finite _ _, .infinity t => .infinity t
  | .finite s a, .finite t b => ofUnits (s && t) (signedUnits s a + signedUnits t b)

/-- The difference, rounded. -/
def sub (a b : Double) : Double := a.add b.neg

/-- The product, rounded. -/
def mul : Double → Double → Double
  | .nan, _ => .nan
  | _, .nan => .nan
  | .infinity s, .infinity t => .infinity (s ^^ t)
  | .infinity s, .finite t b => if b.val = 0 then .nan else .infinity (s ^^ t)
  | .finite s a, .infinity t => if a.val = 0 then .nan else .infinity (s ^^ t)
  | .finite s a, .finite t b => ofQuotient (s ^^ t) (units a * units b) one

/-- The quotient, rounded. -/
def div : Double → Double → Double
  | .nan, _ => .nan
  | _, .nan => .nan
  | .infinity _, .infinity _ => .nan
  | .infinity s, .finite t _ => .infinity (s ^^ t)
  | .finite s _, .infinity t => ofRank (s ^^ t) 0
  | .finite s a, .finite t b =>
    if b.val = 0 then
      if a.val = 0 then .nan else .infinity (s ^^ t)
    else ofQuotient (s ^^ t) (units a * one) (units b)

/-- The remainder of a division whose quotient is cut toward zero. -/
def rem : Double → Double → Double
  | .nan, _ => .nan
  | _, .nan => .nan
  | .infinity _, _ => .nan
  | .finite s a, .infinity _ => .finite s a
  | .finite s a, .finite _ b =>
    if b.val = 0 then .nan else ofQuotient s (units a % units b) 1

end Resumable.Double
