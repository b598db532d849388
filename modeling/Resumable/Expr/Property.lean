import Resumable.Text.Numeral
import Resumable.Value.Convert

/-!
# Properties of values

Reading a property of an absent or empty value fails. An object has its fields, a list its length
and its items, and every other value has no properties: a property that is not there is absent.

This models `read_property` and `list_index`.
-/

namespace Resumable.Expr

/-- Why a property cannot be read. -/
inductive PropertyError where
  /-- The value that was asked for a property is absent or empty; `base` is its kind. -/
  | nullish (property : String) (base : String)
  deriving DecidableEq

/-- The wording of a property error. -/
def PropertyError.message : PropertyError → String
  | .nullish property base => "Cannot read property '" ++ property ++ "' of " ++ base

/-- The item of a list that a text names by its place. -/
def itemNamed (items : List Value) (property : String) : Value :=
  match Text.word? 10 property.toList with
  | some i => items[i]?.getD .undefined
  | none => .undefined

/-- The property of a value under a name. -/
def readProperty (v : Value) (property : String) : Except PropertyError Value :=
  match v with
  | .undefined => .error (.nullish property v.kindName)
  | .null => .error (.nullish property v.kindName)
  | .obj fields => .ok ((Fields.get? fields property).getD .undefined)
  | .list items =>
    .ok (if property = "length" then .num (.ofNat items.length) else itemNamed items property)
  | _ => .ok .undefined

/-- The item of a list at the place a number gives, if it is whole and not negative. -/
def itemAt (items : List Value) (x : Double) : Value :=
  match x.toInt? with
  | some (.ofNat i) => items[i]?.getD .undefined
  | _ => .undefined

/-- The property of a value that the value of a subscript names. -/
def readIndex (v subscript : Value) : Except PropertyError Value :=
  match v, subscript with
  | .list items, .num x => .ok (itemAt items x)
  | _, _ => readProperty v subscript.display

end Resumable.Expr
