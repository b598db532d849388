import Resumable.Value.Json

/-!
# The tagged form of values

The form in which values are kept between two runs. Each value names its kind under `t` and, unless
it is absent or empty, has its content under `v`, so that no two values share a form. Objects keep
the order of their fields. A NaN or an infinity is written as a number without content and cannot
be read back. Reading is the work of `Resumable.Value.Tagged.Reader`.

This models the serialized form of `Val`.
-/

namespace Resumable.Value

/-- The kind a tagged value names. -/
inductive Tag where
  /-- The absence of a value. -/
  | undefined
  /-- The empty value. -/
  | null
  /-- A truth value. -/
  | bool
  /-- A number. -/
  | num
  /-- A text. -/
  | str
  /-- A list. -/
  | list
  /-- An object. -/
  | obj
  deriving DecidableEq

/-- The name of a kind. -/
def Tag.name : Tag → String
  | .undefined => "Undefined"
  | .null => "Null"
  | .bool => "Bool"
  | .num => "Num"
  | .str => "Str"
  | .list => "List"
  | .obj => "Obj"

/-- The kind of a name. -/
def Tag.ofName? : String → Option Tag
  | "Undefined" => some .undefined
  | "Null" => some .null
  | "Bool" => some .bool
  | "Num" => some .num
  | "Str" => some .str
  | "List" => some .list
  | "Obj" => some .obj
  | _ => none

/-- The kinds in their order. -/
def Tag.all : List Tag := [.undefined, .null, .bool, .num, .str, .list, .obj]

/-- A tagged value without content. -/
def bare (tag : Tag) : Json := .object [("t", .string tag.name)]

/-- A tagged value with its content. -/
def tagged (tag : Tag) (content : Json) : Json := .object [("t", .string tag.name), ("v", content)]

mutual
/-- The tagged form of a value. -/
def toTagged : Value → Json
  | .undefined => bare .undefined
  | .null => bare .null
  | .bool b => tagged .bool (.bool b)
  | .num x => tagged .num (.number (.float x))
  | .str s => tagged .str (.string s)
  | .list items => tagged .list (.array (itemsToTagged items))
  | .obj fields => tagged .obj (.object (fieldsToTagged fields))

/-- The tagged forms of a list's items. -/
def itemsToTagged : List Value → List Json
  | [] => []
  | v :: vs => v.toTagged :: itemsToTagged vs

/-- The tagged forms of an object's fields. -/
def fieldsToTagged : List (String × Value) → List (String × Json)
  | [] => []
  | (name, v) :: fs => (name, v.toTagged) :: fieldsToTagged fs
end

end Resumable.Value
