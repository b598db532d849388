import Resumable.Settings.Basic
import Resumable.Settings.Path
import Resumable.Toml.Document
import Resumable.Workspace

/-!
# Loading settings

Settings come from three sources, of which a later one overrides an earlier one key by key: what
is built in, a TOML file, and the variables of the environment, to which the file `.env` may add.
The file is the one that a path names, with its ending or without; without a path it is
`fetchflow.toml`, which need not exist. A section is a table, or an array with its settings in
order.

This models `ConfigBuilder` and its `build`. Only files in TOML are modelled: a file with the ending
of another format counts as one that cannot be read, and without a path no such file is looked for.
Of a failure the outermost message is kept, which is the one that is shown.
-/

namespace Resumable.Settings

/-- Why settings could not be loaded. -/
inductive LoadError where
  /-- The file is missing, unreadable or no TOML. -/
  | noFile
  /-- A setting is missing or of the wrong kind. -/
  | wrongKind
  /-- The settings have a fault. -/
  | fault (fault : Fault)
  deriving DecidableEq

/-- The wording of the reason. -/
def LoadError.message : LoadError → String
  | .noFile => "Failed to load configuration"
  | .wrongKind => "Invalid configuration"
  | .fault f => f.message

/-! ### Trees and settings -/

/-- Settings as a tree. -/
def toTree (s : Settings) : Tree :=
  .table
    [("engine", .table
        [("suspend_function", .scalar (.text s.engine.suspendFunction)),
          ("first_continuation_id", .scalar (.integer s.engine.firstId))]),
      ("logging", .table [("level", .scalar (.text s.level))])]

/-- The entries of a section under the given names: by name in a table, in order in an array. -/
def section? (names : List String) : Tree → Option (List Tree)
  | .table fields => names.mapM (Fields.get? fields)
  | .array items => if names.length ≤ items.length then some (items.take names.length) else none
  | _ => none

/-- The settings of a machine that a tree holds. -/
def engineOf? (tree : Tree) : Option Engine :=
  match section? ["suspend_function", "first_continuation_id"] tree with
  | some [function, first] => do some ⟨← function.text?, ← first.word?⟩
  | _ => none

/-- The level of the log that a tree holds. -/
def levelOf? (tree : Tree) : Option String :=
  match section? ["level"] tree with
  | some [level] => level.text?
  | _ => none

/-- The settings that a tree holds. -/
def ofTree? (tree : Tree) : Option Settings :=
  match section? ["engine", "logging"] tree with
  | some [engine, logging] => do some ⟨← engineOf? engine, ← levelOf? logging⟩
  | _ => none

/-! ### Sources -/

/-- The ending of files that are read. -/
def ending : List Char := ".toml".toList

/-- The name of the file that is read if no path is given, without its ending. -/
def defaultName : String := "fetchflow"

/-- What a path leads to. -/
inductive Found where
  /-- No file. -/
  | missing
  /-- A file whose ending is another one. -/
  | otherKind
  /-- A file that is read. -/
  | content (bytes : ByteArray)

/-- Finds the file of a path: as it stands, else with the ending behind it. -/
def find (w : Workspace) (path : String) : Found :=
  let way := Workspace.route path
  match w.file? path with
  | some bytes => if Workspace.hasEnding ending way then .content bytes else .otherKind
  | none => match w.fileAt? (Workspace.withEnding ending way) with
    | some bytes => .content bytes
    | none => .missing

/-- The text of the file that settings are read from. A file that nobody asked for may be missing or
hold no text. -/
def fileText (w : Workspace) (path : Option String) : Except LoadError (Option String) :=
  match find w (path.getD defaultName) with
  | .content bytes => match String.fromUTF8? bytes with
    | some text => .ok (some text)
    | none => if path.isSome then .error .noFile else .ok none
  | _ => if path.isSome then .error .noFile else .ok none

/-- What the file says. -/
def fileSource (w : Workspace) (path : Option String) :
    Except LoadError (List (String × Tree)) := do
  match ← fileText w path with
  | none => .ok []
  | some text => match Toml.read? text with
    | some fields => .ok fields
    | none => .error .noFile

/-- The variables of the environment with those that `.env` adds. -/
def allVariables (w : Workspace) : Variables :=
  match w.file? ".env" with
  | some bytes => w.vars.addFile (Workspace.linesOf bytes)
  | none => w.vars

/-- What the environment says. -/
def environmentSource (w : Workspace) (skipEnvironment : Bool) : List (String × Tree) :=
  if skipEnvironment then [] else (allVariables w).settings

/-- Settings without a fault. -/
def validated (s : Settings) : Except LoadError Settings :=
  match s.fault? with
  | some f => .error (.fault f)
  | none => .ok s

/-- Loads the settings. -/
def load (w : Workspace) (path : Option String) (skipEnvironment : Bool) :
    Except LoadError Settings := do
  let file ← fileSource w path
  let tree := overlay (environmentSource w skipEnvironment) (overlay file (toTree {}))
  match ofTree? tree with
  | some s => validated s
  | none => .error .wrongKind

end Resumable.Settings
