import Resumable.Tree

/-!
# Where a setting goes

A source names settings by paths: a name, and behind it names after dots and places in arrays in
brackets. A key that is no path counts as one name. Upper and lower case are not told apart: every
name is written in lower case. A negative place counts from the end of its array. Writing along a
path makes what is missing: what is not a table becomes one where a name goes on, and what is not
an array becomes one where a place does. A table that is written under a name is merged into what
stands there; every other tree replaces it.

This models how `build` lays the keys of one source over those of another.
-/

namespace Resumable

/-! ### Writing into trees -/

namespace Tree

/-- The fields of a table; anything else has none. -/
def fields : Tree → List (String × Tree)
  | .table fs => fs
  | _ => []

/-- The items of an array; anything else has none. -/
def items : Tree → List Tree
  | .array ts => ts
  | _ => []

/-- The form in which a name is written: ASCII letters, the only ones that names of settings have,
are in lower case. -/
def foldCase (name : String) : String := name.map Char.toLower

mutual
/-- What stands under a name after a tree was written there: a table is merged into a table that is
there already, field by field, and every other tree takes the place. -/
def merged : Option Tree → Tree → Tree
  | old, .table fs => mergeFields (old.getD (.table [])) fs
  | _, new => new

/-- Writes fields under their names into a tree. Without fields it stays what it was. -/
def mergeFields : Tree → List (String × Tree) → Tree
  | old, [] => old
  | old, (name, new) :: fs =>
    let name := foldCase name
    mergeFields
      (.table (Fields.insert name (merged (Fields.get? old.fields name) new) old.fields)) fs
end

/-- Writes a tree under a name. -/
def write (old : Tree) (name : String) (new : Tree) : Tree :=
  .table (Fields.insert name (merged (Fields.get? old.fields name) new) old.fields)

end Tree

namespace Settings

/-! ### Paths -/

/-- A step of a path behind its first name. -/
inductive Segment where
  /-- To the field of a name. -/
  | field (name : String)
  /-- To the item at a place; a negative one counts from the end. -/
  | item (index : Int)
  deriving DecidableEq

/-- A path: a name and the steps behind it. -/
structure Path where
  /-- The name it starts with. -/
  head : String
  /-- The steps behind it. -/
  steps : List Segment
  deriving DecidableEq

/-- Whether a character may stand in a name of a path. -/
def isPathChar (c : Char) : Bool := c.isAlphanum || c == ' ' || c == '_' || c == '-'

/-- Whether a character may stand beside the number in brackets. -/
def isPadding (c : Char) : Bool := c == ' ' || c == '\t'

/-- A signed 64-bit number at the start of a text, and what follows it: digits that may stand behind
a minus sign. -/
def index? (cs : List Char) : Option (Int × List Char) := do
  let (negative, cs) := match cs with
    | '-' :: rest => (true, rest)
    | _ => (false, cs)
  let (run, rest) := cs.span Decimal.isDigit
  let n ← Text.natural? 10 run
  let index ← Text.signedWord? (if negative then -n else n)
  some (index, rest)

/-- The steps that a whole text stands for. The number bounds them. -/
def segments? : Nat → List Char → Option (List Segment)
  | _, [] => some []
  | n + 1, '.' :: cs =>
    match cs.span isPathChar with
    | ([], _) => none
    | (name, rest) =>
      (segments? n rest).map (.field (Tree.foldCase (String.ofList name)) :: ·)
  | n + 1, '[' :: cs => do
    let (index, rest) ← index? (cs.dropWhile isPadding)
    match rest.dropWhile isPadding with
    | ']' :: rest => (segments? n rest).map (.item index :: ·)
    | _ => none
  | _, _ => none

/-- The path of a key. -/
def pathOf (key : String) : Path :=
  let (name, rest) := key.toList.span isPathChar
  match segments? rest.length rest with
  | some steps =>
    if name.isEmpty then ⟨Tree.foldCase key, []⟩
    else ⟨Tree.foldCase (String.ofList name), steps⟩
  | none => ⟨Tree.foldCase key, []⟩

/-- The place in an array of so many items that an index stands for. -/
def place (index : Int) (length : Nat) : Nat :=
  if 0 ≤ index then index.toNat else length - index.natAbs

/-- Writes an item at a place of an array that grows as far as needed. -/
def setItem (index : Nat) (new : Tree) (items : List Tree) : List Tree :=
  (items ++ List.replicate (index + 1 - items.length) Tree.absent).set index new

/-- Writes a tree at the end of steps that start at a tree. -/
def writeSteps (new : Tree) : List Segment → Tree → Tree
  | [], _ => new
  | [.field name], old => old.write name new
  | .field name :: steps, old =>
    let inner := (Fields.get? old.fields name).getD .absent
    .table (Fields.insert name (writeSteps new steps inner) old.fields)
  | .item index :: steps, old =>
    let here := place index old.items.length
    let inner := old.items.getD here .absent
    .array (setItem here (writeSteps new steps inner) old.items)

/-- Writes a tree under a key. -/
def write (key : String) (new old : Tree) : Tree :=
  let path := pathOf key
  writeSteps new (.field path.head :: path.steps) old

/-- Writes what a source says, key by key. -/
def overlay (source : List (String × Tree)) (old : Tree) : Tree :=
  source.foldl (fun tree (key, new) => write key new tree) old

end Settings

end Resumable
