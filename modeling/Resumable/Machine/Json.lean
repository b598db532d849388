import Resumable.Machine.Basic
import Resumable.Value.Tagged.Reader

/-!
# Outcomes and continuations as JSON

An outcome is shown to the caller with its values in their plain form. A continuation is kept with
its values in their tagged form, so that a machine can be rebuilt from it. What a kept continuation
has under names that are not its own is left alone.

This models `to_json` of `Outcome`, and the serialized form of `Continuation` with its
deserialization. The messages for texts that keep no continuation are not modelled.
-/

namespace Resumable

/-- The JSON form of an outcome. -/
def Outcome.toJson : Outcome → Json
  | .suspended id request => .object
      [("continuationId", .number (.integer id)),
        ("fetchRequest", .object
          [("id", .number (.integer request.id)), ("options", .null),
            ("url", .string request.address)]),
        ("type", .string "suspended")]
  | .completed value => .object [("type", .string "completed"), ("value", value.toJson)]

namespace Continuation

/-- The JSON form in which a continuation is kept. -/
def toJson (k : Continuation) : Json :=
  .object
    [("id", .number (.integer k.id)),
      ("pending_binding", k.binding.elim .null .string),
      ("env_snapshot", .object (Value.fieldsToTagged k.snapshot.bindings)),
      ("remaining", .array (k.remaining.map .string)),
      ("last_value", k.lastValue.toTagged)]

/-- The text in which a continuation is kept. -/
def save (k : Continuation) : String := k.toJson.toText

/-- A number of a request. -/
def idOf : Json.Raw → Option Nat
  | .number n => match n.value? with
    | some (.integer n) => if 0 ≤ n ∧ n ≤ Text.maxWord then some n.toNat else none
    | _ => none
  | _ => none

/-- The variable that takes an answer, or none. -/
def bindingOf : Json.Raw → Option (Option String)
  | .null => some none
  | .string s => (Json.text? s).map some
  | _ => none

/-- The variables of a snapshot. A name that is repeated keeps its place and takes the last
value. The number is how many more levels of arrays and objects may open. -/
def snapshotOf : Nat → Json.Raw → Option Environment
  | room + 1, .object fields => (Value.fieldsOf .straight room fields).map .ofBindings
  | _, _ => none

/-- A statement. -/
def statementOf : Json.Raw → Option String
  | .string s => Json.text? s
  | _ => none

/-- The statements that are still to be executed. -/
def remainingOf : Json.Raw → Option (List String)
  | .array items => items.mapM statementOf
  | _ => none

/-- A continuation from its five parts, in which so many more levels of arrays and objects may
open. -/
def ofParts (room : Nat) (id binding snapshot remaining lastValue : Json.Raw) :
    Option Continuation := do
  let id ← idOf id
  let binding ← bindingOf binding
  let snapshot ← snapshotOf room snapshot
  let remaining ← remainingOf remaining
  let lastValue ← Value.ofTagged? .straight room lastValue
  some ⟨id, binding, snapshot, remaining, lastValue⟩

/-- What stands under a name that must occur once. -/
def required (name : String) (fields : List (String × Json.Raw)) : Option Json.Raw :=
  match Fields.entry name fields with
  | .once raw => some raw
  | _ => none

/-- What stands under a name that may be missing. -/
def optional (name : String) (fields : List (String × Json.Raw)) : Option Json.Raw :=
  match Fields.entry name fields with
  | .absent => some .null
  | .once raw => some raw
  | .repeated => none

/-- A continuation from the form in which it is kept. The fields may come in any order, and only
the variable may be missing; the five parts may also be written as an array. The number is how many
levels of arrays and objects may open. -/
def ofRaw? : Nat → Json.Raw → Option Continuation
  | room + 1, .object fields => do
    let fields ← Json.Raw.named? fields
    let id ← required "id" fields
    let binding ← optional "pending_binding" fields
    let snapshot ← required "env_snapshot" fields
    let remaining ← required "remaining" fields
    let lastValue ← required "last_value" fields
    ofParts room id binding snapshot remaining lastValue
  | room + 1, .array [id, binding, snapshot, remaining, lastValue] =>
    ofParts room id binding snapshot remaining lastValue
  | _, _ => none

/-- The continuation that a text keeps. -/
def restore? (text : String) : Option Continuation :=
  (Json.raw? text).bind (ofRaw? Json.maxDepth)

end Continuation

end Resumable
