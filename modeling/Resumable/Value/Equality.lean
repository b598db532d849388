import Resumable.Value.Convert

/-!
# Equality of values

Three equalities. `same` compares contents: it knows no conversion, ignores the order of an
object's fields, and a NaN anywhere makes it fail. Strict equality is `same`. Loose equality first
sets the absent and empty values apart from all others, compares texts as texts and structures by
content, and everything else as numbers.

This models `loose_eq`, `strict_eq` and the equality of `Val`.
-/

namespace Resumable.Value

mutual
/-- Equality of contents. -/
def same : Value → Value → Bool
  | .undefined, .undefined => true
  | .null, .null => true
  | .bool a, .bool b => a == b
  | .num x, .num y => x.eq y
  | .str s, .str t => s == t
  | .list vs, .list ws => sameItems vs ws
  | .obj fs, .obj gs => fs.length == gs.length && sameFields fs gs
  | _, _ => false

/-- Lists are equal item by item. -/
def sameItems : List Value → List Value → Bool
  | [], [] => true
  | v :: vs, w :: ws => v.same w && sameItems vs ws
  | _, _ => false

/-- Every field of the first object has its equal in the second. -/
def sameFields : List (String × Value) → List (String × Value) → Bool
  | [], _ => true
  | (name, v) :: fs, gs =>
    (match Fields.get? gs name with
      | some w => v.same w
      | none => false) && sameFields fs gs
end

/-- Equality without conversion. -/
def strictEq (a b : Value) : Bool := a.same b

/-- Equality with conversion. -/
def looseEq (a b : Value) : Bool :=
  if a.isNullish || b.isNullish then a.isNullish && b.isNullish
  else match a, b with
    | .str s, .str t => s == t
    | _, _ =>
      if a.isStructured || b.isStructured then a.same b else a.toNumber.eq b.toNumber

end Resumable.Value
