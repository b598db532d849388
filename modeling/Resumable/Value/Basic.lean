import Resumable.Double.Basic
import Resumable.Fields

/-!
# Values of a script

The values a script computes with and exchanges with its host. An object lists its fields in order
of arrival. The questions of this module (truth, absence, kind) are the ones operators and
statements ask.

This models `Val` with `is_truthy`, `is_nullish`, `is_structured` and `type_name`.
-/

namespace Resumable

/-- A value of a script. -/
inductive Value where
  /-- The absence of a value. -/
  | undefined
  /-- The empty value. -/
  | null
  /-- A truth value. -/
  | bool (b : Bool)
  /-- A number. -/
  | num (x : Double)
  /-- A text. -/
  | str (s : String)
  /-- A list. -/
  | list (items : List Value)
  /-- An object, its fields in order of arrival. -/
  | obj (fields : List (String × Value))

namespace Value

instance : Inhabited Value := ⟨.undefined⟩

/-- Whether a value counts as true: all do but the absent and empty ones, `false`, zero, the NaN
and the empty text. -/
def isTruthy : Value → Bool
  | .undefined => false
  | .null => false
  | .bool b => b
  | .num x => !x.isZero && !x.isNaN
  | .str s => !s.isEmpty
  | .list _ => true
  | .obj _ => true

/-- Whether a value is absent or empty. -/
def isNullish : Value → Bool
  | .undefined => true
  | .null => true
  | _ => false

/-- Whether a value is a list or an object: those that addition joins as texts. -/
def isStructured : Value → Bool
  | .list _ => true
  | .obj _ => true
  | _ => false

/-- The word for a value's kind. -/
def kindName : Value → String
  | .undefined => "undefined"
  | .null => "null"
  | .bool _ => "boolean"
  | .num _ => "number"
  | .str _ => "string"
  | .list _ => "array"
  | .obj _ => "object"

end Value

end Resumable
