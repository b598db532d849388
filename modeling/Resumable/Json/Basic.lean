import Resumable.Double.Basic
import Resumable.Fields

/-!
# JSON values

The tree of a JSON text. An object keeps its fields as they are written, repetitions included;
`Json.sorted` gives the form in which fields ascend by name and the last of several entries of
one name counts. A number is an integer or a binary64 number, as its spelling says.

This models the JSON values that `to_json` builds and from which a `Val` is made.
-/

namespace Resumable

namespace Json

/-- A number of a JSON text. -/
inductive Number where
  /-- A number written without fraction and exponent that fits 64 bits. -/
  | integer (n : Int)
  /-- Any other number. -/
  | float (x : Double)
  deriving DecidableEq

/-- The binary64 number nearest to a JSON number. -/
def Number.toDouble : Number → Double
  | .integer n => .ofInt n
  | .float x => x

end Json

/-- The tree of a JSON text. -/
inductive Json where
  /-- The word `null`. -/
  | null
  /-- A truth value. -/
  | bool (b : Bool)
  /-- A number. -/
  | number (n : Json.Number)
  /-- A string. -/
  | string (s : String)
  /-- An array. -/
  | array (items : List Json)
  /-- An object, its fields as written. -/
  | object (fields : List (String × Json))

namespace Json

mutual
/-- The same value with the fields of every object ascending by name. -/
def sorted : Json → Json
  | .null => .null
  | .bool b => .bool b
  | .number n => .number n
  | .string s => .string s
  | .array items => .array (sortedItems items)
  | .object fields => .object (Fields.sorted (sortedFields fields))

/-- Sorts every item of an array. -/
def sortedItems : List Json → List Json
  | [] => []
  | j :: js => j.sorted :: sortedItems js

/-- Sorts the value of every field of an object. -/
def sortedFields : List (String × Json) → List (String × Json)
  | [] => []
  | (name, j) :: fs => (name, j.sorted) :: sortedFields fs
end

end Json

end Resumable
