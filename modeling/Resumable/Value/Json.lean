import Resumable.Json.Reader
import Resumable.Json.Writer
import Resumable.Value.Basic

/-!
# Values and JSON

The plain form in which values go to the host and come from it. Absent values and numbers without
a JSON form become `null`. A whole number whose magnitude is at most `2 ^ 63` is written as a
signed 64-bit integer, the nearest one if it does not fit; every other number as a binary64
number. Objects lose the order of their fields: they ascend by name.

This models `to_json` and `number_to_json`, and the conversion by which a `Val` is made from JSON.
-/

namespace Resumable.Value

/-- A number as JSON. -/
def numberToJson (x : Double) : Json :=
  match x.toInt? with
  | some n =>
    if n.natAbs ≤ Text.maxSigned + 1 then .number (.integer (min n Text.maxSigned))
    else .number (.float x)
  | none => if x.isFinite then .number (.float x) else .null

mutual
/-- A value as JSON. -/
def toJson : Value → Json
  | .undefined => .null
  | .null => .null
  | .bool b => .bool b
  | .num x => numberToJson x
  | .str s => .string s
  | .list items => .array (itemsToJson items)
  | .obj fields => .object (Fields.sorted (fieldsToJson fields))

/-- The items of a list as JSON. -/
def itemsToJson : List Value → List Json
  | [] => []
  | v :: vs => v.toJson :: itemsToJson vs

/-- The fields of an object as JSON. -/
def fieldsToJson : List (String × Value) → List (String × Json)
  | [] => []
  | (name, v) :: fs => (name, v.toJson) :: fieldsToJson fs
end

mutual
/-- The value of a JSON tree whose objects do not repeat a name. -/
def ofJson : Json → Value
  | .null => .null
  | .bool b => .bool b
  | .number n => .num n.toDouble
  | .string s => .str s
  | .array items => .list (itemsOfJson items)
  | .object fields => .obj (fieldsOfJson fields)

/-- The values of an array's items. -/
def itemsOfJson : List Json → List Value
  | [] => []
  | j :: js => ofJson j :: itemsOfJson js

/-- The values of an object's fields. -/
def fieldsOfJson : List (String × Json) → List (String × Value)
  | [] => []
  | (name, j) :: fs => (name, ofJson j) :: fieldsOfJson fs
end

/-- The value a JSON text stands for. -/
def readJson? (text : String) : Option Value := (Json.read? text).map fun j => ofJson j.sorted

end Resumable.Value
