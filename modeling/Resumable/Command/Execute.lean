import Resumable.Command.Arguments
import Resumable.Machine.Json
import Resumable.Machine.Run
import Resumable.Settings.Load
import Resumable.Settings.Render

/-!
# Carrying out commands

A command prints text and then succeeds or fails; what it printed before a failure stands. Settings
are loaded before anything else. Running a script prints its outcomes, one on each line: as long as
the script is suspended and responses are left, the next one answers the request.

This models `run_cli_with_args`, `execute`, `read_script` and `load_responses`. What goes to the log
is not modelled, nor is an output that cannot be written.
-/

namespace Resumable

/-- Why a command failed. -/
inductive Failure where
  /-- The settings could not be loaded. -/
  | settings (error : Settings.LoadError)
  /-- The script could not be read. -/
  | noScript (path : String)
  /-- The file of responses could not be read. -/
  | noResponses (path : String)
  /-- The file of responses is no JSON. -/
  | notJson (path : String)
  /-- The responses are no array. -/
  | notArray (path : String)
  /-- The settings cannot be written. -/
  | unwritable
  /-- The machine refused, or the script raised an error. -/
  | machine (error : MachineError)

/-- The wording of a failure. -/
def Failure.message : Failure → String
  | .settings error => error.message
  | .noScript path => "Failed to read script " ++ path
  | .noResponses path => "Failed to read responses " ++ path
  | .notJson path => "Invalid JSON in " ++ path
  | .notArray path => "Responses file " ++ path ++ " must contain a JSON array"
  | .unwritable => "Failed to render config"
  | .machine error => error.message

/-- What a command printed, and why it failed if it did. -/
structure Report where
  /-- What was printed. -/
  printed : String
  /-- Why it failed. -/
  failure : Option Failure

namespace Command

/-! ### Running -/

/-- The line of an outcome. -/
def outcomeLine (o : Outcome) : String := o.toJson.toText ++ "\n"

/-- The outcomes of a script from one of them on, each request being answered by the next of the
responses, and the error that ended it if one did. -/
def converse : List Value → Machine × Except MachineError Outcome →
    List Outcome × Option MachineError
  | _, (_, .error e) => ([], some e)
  | _, (_, .ok (.completed v)) => ([.completed v], none)
  | [], (_, .ok (.suspended id request)) => ([.suspended id request], none)
  | response :: responses, (m, .ok (.suspended id request)) =>
    let (outcomes, ending) := converse responses (m.resume id response)
    (.suspended id request :: outcomes, ending)

/-- Runs a script with responses. -/
def runScript (engine : Settings.Engine) (source : String) (responses : List Value) : Report :=
  let (outcomes, ending) := converse responses ((Machine.new engine).run source)
  ⟨String.join (outcomes.map outcomeLine), ending.map .machine⟩

/-! ### Files -/

/-- The text of a script. -/
def readScript (w : Workspace) (path : String) : Except Failure String :=
  match w.text? path with
  | some text => .ok text
  | none => .error (.noScript path)

/-- The responses in a file. -/
def readResponses (w : Workspace) (path : String) : Except Failure (List Value) :=
  match w.text? path with
  | none => .error (.noResponses path)
  | some text => match Value.readJson? text with
    | none => .error (.notJson path)
    | some (.list responses) => .ok responses
    | some _ => .error (.notArray path)

/-! ### Commands -/

/-- The line of a statement: its number, on the right of three places, and its text. -/
def statementLine (number : Nat) (text : String) : String :=
  String.ofList (Text.padLeft 3 ' ' (Text.decimal number)) ++ ": " ++ text ++ "\n"

/-- The lines of statements, numbered from a number on. -/
def statementLines : Nat → List String → String
  | _, [] => ""
  | n, text :: rest => statementLine n text ++ statementLines (n + 1) rest

/-- The report of a failure before anything was printed. -/
def failed (f : Failure) : Report := ⟨"", some f⟩

/-- Carries out a command under settings. -/
def execute (w : Workspace) (settings : Settings) : Command → Report
  | .run script responses =>
    match readScript w script with
    | .error f => failed f
    | .ok source =>
      match responses.elim (.ok []) (readResponses w) with
      | .error f => failed f
      | .ok responses => runScript settings.engine source responses
  | .split script =>
    match readScript w script with
    | .error f => failed f
    | .ok source => ⟨statementLines 1 (Source.statements source), none⟩
  | .config =>
    match settings.render? with
    | none => failed .unwritable
    | some text => ⟨text, none⟩

end Command

/-- The paths of the files that an invocation may read. -/
def Invocation.paths (i : Invocation) : List String :=
  let settings := i.settings.getD Settings.defaultName
  let files := match i.command with
    | .run script responses => script :: responses.toList
    | .split script => [script]
    | .config => []
  [".env", settings, settings ++ String.ofList Settings.ending] ++ files

/-- Carries out an invocation. -/
def Invocation.execute (w : Workspace) (i : Invocation) : Report :=
  match Settings.load w i.settings false with
  | .error e => Command.failed (.settings e)
  | .ok settings => i.command.execute w settings

end Resumable
