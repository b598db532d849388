import Resumable.Json.Number

/-!
# JSON as it is written

The form of a JSON text without its meaning: numbers may lie beyond the finite ones, strings may
hold half of a surrogate pair, and nesting has no bound. `Raw.toJson?` gives the meaning of what
has one. A reader that looks for certain names can so leave alone what stands under others.

This models what the reader of JSON accepts where it skips a value, as it does for fields that a
`Continuation` does not have.
-/

namespace Resumable.Json

/-- How deep arrays and objects with a meaning may nest. -/
def maxDepth : Nat := 127

/-! ### Strings -/

/-- A piece of a string. -/
inductive Piece where
  /-- A character, written as it is or behind a backslash. -/
  | char (c : Char)
  /-- A code of four digits in radix sixteen. -/
  | code (value : Nat)
  deriving DecidableEq

/-- What a code stands for. -/
inductive Code where
  /-- A character. -/
  | char (c : Char)
  /-- The first half of a pair. -/
  | half (first : Nat)

/-- The meaning of a code behind an optional first half of a pair. -/
def code? (first : Option Nat) (value : Nat) : Option Code :=
  match first with
  | some high =>
    if 0xdc00 ≤ value ∧ value ≤ 0xdfff then
      some (.char (Char.ofNat (0x10000 + (high - 0xd800) * 0x400 + (value - 0xdc00))))
    else none
  | none =>
    if 0xdc00 ≤ value ∧ value ≤ 0xdfff then none
    else if 0xd800 ≤ value ∧ value ≤ 0xdbff then some (.half value)
    else some (.char (Char.ofNat value))

/-- The characters of a string's pieces behind an optional first half of a pair. -/
def decode : Option Nat → List Piece → Option (List Char)
  | none, [] => some []
  | some _, [] => none
  | none, .char c :: ps => (decode none ps).map (c :: ·)
  | some _, .char _ :: _ => none
  | first, .code value :: ps => match code? first value with
    | none => none
    | some (.char c) => (decode none ps).map (c :: ·)
    | some (.half high) => decode (some high) ps

/-- The text of a string's pieces. -/
def text? (ps : List Piece) : Option String := (decode none ps).map String.ofList

/-! ### Values -/

/-- A JSON text as it is written. -/
inductive Raw where
  /-- The word `null`. -/
  | null
  /-- A truth value. -/
  | bool (b : Bool)
  /-- A number. -/
  | number (n : Numeral)
  /-- A string. -/
  | string (s : List Piece)
  /-- An array. -/
  | array (items : List Raw)
  /-- An object, its fields as written. -/
  | object (fields : List (List Piece × Raw))

namespace Raw

mutual
/-- The meaning of a text. The number is how many more levels of arrays and objects may open. -/
def toJson? : Nat → Raw → Option Json
  | _, .null => some .null
  | _, .bool b => some (.bool b)
  | _, .number n => n.value?.map .number
  | _, .string s => (text? s).map .string
  | 0, .array _ => none
  | room + 1, .array items => (itemsToJson? room items).map .array
  | 0, .object _ => none
  | room + 1, .object fields => (fieldsToJson? room fields).map .object

/-- The meanings of an array's items. -/
def itemsToJson? : Nat → List Raw → Option (List Json)
  | _, [] => some []
  | room, raw :: raws => do
    let j ← raw.toJson? room
    let js ← itemsToJson? room raws
    some (j :: js)

/-- The meanings of an object's fields. -/
def fieldsToJson? : Nat → List (List Piece × Raw) → Option (List (String × Json))
  | _, [] => some []
  | room, (name, raw) :: raws => do
    let name ← text? name
    let j ← raw.toJson? room
    let fs ← fieldsToJson? room raws
    some ((name, j) :: fs)
end

/-- The fields of an object by their names, each of which must be a text. -/
def named? : List (List Piece × Raw) → Option (List (String × Raw))
  | [] => some []
  | (name, raw) :: raws => do
    let name ← text? name
    let fs ← named? raws
    some ((name, raw) :: fs)

end Raw

end Resumable.Json
