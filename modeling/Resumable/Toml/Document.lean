import Resumable.Toml.Line

/-!
# TOML documents

The lines of a document build one table. Every table knows how it came to be, because that decides
who may add to it: a header may open a table once, and also one that headers have only passed
through; a dotted key may add only to tables that dotted keys made. A key has one value.

One name is reserved: a table that starts with it stands for the moment that its text names, and
its other entries count for nothing.

This models how the reader of TOML, on which `build` relies, puts a file's lines together.
-/

namespace Resumable.Toml

/-- How a table came to be. -/
inductive Origin where
  /-- A header opened it, or it is a whole document, an element of an array or an inline table. -/
  | opened
  /-- A header passed through it. -/
  | passed
  /-- A dotted key passed through it. -/
  | dotted
  deriving DecidableEq

/-- What stands under a name while a document is put together. -/
inductive Node where
  /-- A single value. -/
  | scalar (s : Scalar)
  /-- A date or time. -/
  | moment (m : Moment)
  /-- An array. -/
  | array (items : List Node)
  /-- A table in braces, to which nothing can be added. -/
  | inline (fields : List (String × Node))
  /-- A table. -/
  | table (origin : Origin) (fields : List (String × Node))
  /-- An array of tables: the earlier ones, and the last one, to which lines may still add. -/
  | tables (earlier : List (List (String × Node))) (last : List (String × Node))

/-! ### From nodes to trees -/

/-- The reserved name. -/
def momentName : String := "$__toml_private_datetime"

/-- The tree of a moment: its text. -/
def Moment.toTree (m : Moment) : Tree := .scalar (.text (String.ofList m.render))

/-- The moment that the entry of the reserved name gives as a text. -/
def Node.named? : Node → Option Moment
  | .scalar (.text s) => moment? s.toList
  | _ => none

mutual
/-- The tree of a node. -/
def Node.toTree? : Node → Option Tree
  | .scalar s => some (.scalar s)
  | .moment m => some m.toTree
  | .array items => (itemTrees? items).map .array
  | .inline fields => tableTree? fields
  | .table _ fields => tableTree? fields
  | .tables earlier last => do
    let trees ← elementTrees? earlier
    let tree ← tableTree? last
    some (.array (trees ++ [tree]))

/-- The trees of an array's items. -/
def itemTrees? : List Node → Option (List Tree)
  | [] => some []
  | node :: nodes => do
    let tree ← node.toTree?
    let trees ← itemTrees? nodes
    some (tree :: trees)

/-- The tree of a table with the given fields. -/
def tableTree? : List (String × Node) → Option Tree
  | [] => some (.table [])
  | (name, node) :: fields =>
    if name = momentName then node.named?.map Moment.toTree
    else do
      let tree ← node.toTree?
      let trees ← fieldTrees? fields
      some (.table ((name, tree) :: trees))

/-- The trees of a table's fields behind the first. -/
def fieldTrees? : List (String × Node) → Option (List (String × Tree))
  | [] => some []
  | (name, node) :: fields => do
    let tree ← node.toTree?
    let trees ← fieldTrees? fields
    some ((name, tree) :: trees)

/-- The trees of the tables of an array. -/
def elementTrees? : List (List (String × Node)) → Option (List Tree)
  | [] => some []
  | fields :: elements => do
    let tree ← tableTree? fields
    let trees ← elementTrees? elements
    some (tree :: trees)
end

/-! ### Adding to a table -/

/-- A change of a table's fields, which may be refused and may depend on the table's origin. -/
abbrev Change := Origin → List (String × Node) → Option (List (String × Node))

/-- Changes the table at the end of a path, making tables on the way where there are none. In an
array of tables the path goes on in the last one. A path of a dotted key does not go through tables
that a header opened. -/
def changeAt (isDotted : Bool) (change : Change) : List String → Change
  | [], origin, fields => change origin fields
  | name :: path, _, fields =>
    match Fields.get? fields name with
    | none => do
      let origin := if isDotted then .dotted else .passed
      let inner ← changeAt isDotted change path origin []
      some (Fields.insert name (.table origin inner) fields)
    | some (.table origin inner) =>
      if isDotted ∧ origin = .opened then none
      else do
        let inner ← changeAt isDotted change path origin inner
        some (Fields.insert name (.table origin inner) fields)
    | some (.tables earlier last) => do
      let last ← changeAt isDotted change path .opened last
      some (Fields.insert name (.tables earlier last) fields)
    | some _ => none

/-- Gives a name without a value its value. -/
def define (name : String) (node : Node) (fields : List (String × Node)) :
    Option (List (String × Node)) :=
  match Fields.get? fields name with
  | none => some (Fields.insert name node fields)
  | some _ => none

/-- Gives a key its value. A key of several names ends in a table that dotted keys made, a key of
one name in one that they did not. -/
def addEntry (key : Key) (node : Node) : Change :=
  changeAt true (fun origin fields =>
    if decide (origin = .dotted) = key.parents.isEmpty then none
    else define key.last node fields) key.parents

/-- Opens a table. One that headers have passed through moves to the end. -/
def openTable (key : Key) : Change :=
  changeAt false (fun _ fields =>
    match Fields.get? fields key.last with
    | none => some (Fields.insert key.last (.table .opened []) fields)
    | some (.table .passed inner) =>
      some (Fields.insert key.last (.table .opened inner) (Fields.erase key.last fields))
    | some _ => none) key.parents

/-- Opens a new element of an array of tables. -/
def openElement (key : Key) : Change :=
  changeAt false (fun _ fields =>
    match Fields.get? fields key.last with
    | none => some (Fields.insert key.last (.tables [] []) fields)
    | some (.tables earlier last) =>
      some (Fields.insert key.last (.tables (earlier ++ [last]) []) fields)
    | some _ => none) key.parents

/-- The fields that entries build, one after the other. -/
def buildEntries : List (Key × Node) → List (String × Node) → Option (List (String × Node))
  | [], fields => some fields
  | (key, node) :: entries, fields => (addEntry key node .opened fields).bind (buildEntries entries)

mutual
/-- The node of a value. The entries of an inline table follow the rules of lines. -/
def toNode? : Toml → Option Node
  | .scalar s => some (.scalar s)
  | .moment m => some (.moment m)
  | .array items => (itemNodes? items).map .array
  | .inline entries => do
    let entries ← entryNodes? entries
    let fields ← buildEntries entries []
    some (.inline fields)

/-- The nodes of an array's items. -/
def itemNodes? : List Toml → Option (List Node)
  | [] => some []
  | item :: items => do
    let node ← toNode? item
    let nodes ← itemNodes? items
    some (node :: nodes)

/-- The nodes of an inline table's entries under their keys. -/
def entryNodes? : List (List String × String × Toml) → Option (List (Key × Node))
  | [] => some []
  | (parents, last, value) :: entries => do
    let node ← toNode? value
    let nodes ← entryNodes? entries
    some ((⟨parents, last⟩, node) :: nodes)
end

/-! ### Documents -/

/-- Adds lines to a document whose open table is at the end of a path. -/
def build : List Line → List String → List (String × Node) → Option (List (String × Node))
  | [], _, fields => some fields
  | .table key :: lines, _, fields => do
    let fields ← openTable key .opened fields
    build lines (key.parents ++ [key.last]) fields
  | .element key :: lines, _, fields => do
    let fields ← openElement key .opened fields
    build lines (key.parents ++ [key.last]) fields
  | .entry key value :: lines, path, fields => do
    let node ← toNode? value
    let fields ← changeAt false (addEntry key node) path .opened fields
    build lines path fields

/-- The fields of the table that a text stands for. -/
def read? (text : String) : Option (List (String × Tree)) := do
  let lines ← lines? text
  let fields ← build lines [] []
  match ← tableTree? fields with
  | .table fields => some fields
  | _ => none

end Resumable.Toml
