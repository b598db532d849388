import Resumable.Json.Reader
import Resumable.Value.Tagged

/-!
# Reading tagged values

A tagged value is an object with its kind under `t` and its content under `v`, in either order, or
an array of the two. What stands under other names is left alone, and a second `t` or `v` is
refused.

While the kind comes first, the content is read as what the kind says. A content that comes first
is held until its kind is known, so all of it must have a meaning, also what would otherwise be
left alone. In return the tags inside of it may be written more freely.

This models the deserialization of `Val`. Its messages are not modelled.
-/

namespace Resumable.Value

open Json (Piece Raw)

/-- How a value is read. -/
inductive Manner where
  /-- Straight from the text. -/
  | straight
  /-- After it was held until its kind was known. -/
  | held
  deriving DecidableEq

/-! ### Tags -/

/-- The kind of a written name. -/
def Tag.ofPieces? (name : List Piece) : Option Tag := (Json.text? name).bind Tag.ofName?

/-- Whether a value may stand under the only name of an object that is a tag. -/
def Manner.isBlank : Manner → Raw → Bool
  | _, .null => true
  | .held, .object [] => true
  | _, _ => false

/-- The kind under `t`: its name, or an object with nothing under its name, for which a level must
be left. -/
def tag? (manner : Manner) (room : Nat) : Raw → Option Tag
  | .string name => Tag.ofPieces? name
  | .object [(name, raw)] =>
    if 0 < room ∧ manner.isBlank raw then Tag.ofPieces? name else none
  | _ => none

/-- The kind of a place in their order. -/
def Tag.ofIndex? (index : Int) : Option Tag :=
  if 0 ≤ index then Tag.all[index.toNat]? else none

/-- The kind at the head of an array: its name, or its place if the array was held. -/
def headTag? : Manner → Raw → Option Tag
  | _, .string name => Tag.ofPieces? name
  | .held, .number n => match n.value? with
    | some (.integer index) => Tag.ofIndex? index
    | _ => none
  | _, _ => none

/-! ### Values -/

/-- What has been read of a tagged value's fields: the kind, and the content as a reader that
waits for the kind. -/
structure Parts where
  /-- The kind, once its field was met. -/
  tag : Option Tag := none
  /-- The content, once its field was met. -/
  content : Option (Tag → Option Value) := none

/-- The value of the parts. Only the absent and the empty value need no content. -/
def Parts.value? (p : Parts) : Option Value :=
  match p.tag, p.content with
  | some tag, some content => content tag
  | some .undefined, none => some .undefined
  | some .null, none => some .null
  | _, _ => none

mutual
/-- Reads a tagged value. The number is how many more levels of arrays and objects may open. -/
def ofTagged? : Manner → Nat → Raw → Option Value
  | manner, room + 1, .object fields => (partsOf manner room fields).bind Parts.value?
  | manner, room + 1, .array [tag, content] =>
    (headTag? manner tag).bind (contentOf manner room content)
  | _, _, _ => none

/-- Reads the content of a value of a given kind. -/
def contentOf : Manner → Nat → Raw → Tag → Option Value
  | _, _, .null, .undefined => some .undefined
  | _, _, .null, .null => some .null
  | _, _, .bool b, .bool => some (.bool b)
  | _, _, .number n, .num => n.value?.map fun n => .num n.toDouble
  | _, _, .string s, .str => (Json.text? s).map .str
  | manner, room + 1, .array items, .list => (itemsOf manner room items).map .list
  | manner, room + 1, .object fields, .obj =>
    (fieldsOf manner room fields).map fun fs => .obj (Fields.ofEntries fs)
  | _, _, _, _ => none

/-- Collects the tag and the content among a tagged value's fields. A content with its tag behind
it is held. -/
def partsOf : Manner → Nat → List (List Piece × Raw) → Option Parts
  | _, _, [] => some {}
  | manner, room, (name, raw) :: fs => do
    let name ← Json.text? name
    let p ← partsOf manner room fs
    if name = "t" then
      if p.tag.isSome then none
      else
        let tag ← tag? manner room raw
        some { p with tag := some tag }
    else if name = "v" then
      if p.content.isSome then none
      else if p.tag.isSome then
        if (raw.toJson? room).isNone then none
        else some { p with content := some (contentOf .held room raw) }
      else some { p with content := some (contentOf manner room raw) }
    else some p

/-- Reads a list's items. -/
def itemsOf : Manner → Nat → List Raw → Option (List Value)
  | _, _, [] => some []
  | manner, room, raw :: raws => do
    let v ← ofTagged? manner room raw
    let vs ← itemsOf manner room raws
    some (v :: vs)

/-- Reads an object's fields, repetitions included. -/
def fieldsOf : Manner → Nat → List (List Piece × Raw) → Option (List (String × Value))
  | _, _, [] => some []
  | manner, room, (name, raw) :: raws => do
    let name ← Json.text? name
    let v ← ofTagged? manner room raw
    let vs ← fieldsOf manner room raws
    some ((name, v) :: vs)
end

end Resumable.Value
