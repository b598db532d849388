import Resumable.Command.Execute

/-!
# The program

Reads the files that the command may need and the variables of the process, carries the command
out, and prints its report.

This models `main`. The texts of help and of usage errors are the program's own, and the log that
`init_tracing` installs is not modelled.
-/

namespace Resumable.Program

/-- What the arguments may be. -/
def usage : String :=
  "Usage: fetchflow [--config <file>] <command>\n\n" ++
    "Commands:\n" ++
    "  run <script> [-r <file>]  Run a script, answering each fetch from a responses file\n" ++
    "  split <script>            Print the statements a script splits into\n" ++
    "  config                    Print the effective configuration\n"

/-- Bytes cut at every zero. -/
def cutAtZeros : List UInt8 → List (List UInt8)
  | [] => [[]]
  | b :: bs =>
    if b = 0 then [] :: cutAtZeros bs
    else match cutAtZeros bs with
      | [] => [[b]]
      | piece :: pieces => (b :: piece) :: pieces

/-- The variable that an entry of the process's block sets: its name ends at an equals sign. -/
def assigned? (entry : List UInt8) : Option (String × String) := do
  let cs ← Workspace.decode? entry
  match cs.span (· != '=') with
  | (name, _ :: value) => some (String.ofList name, String.ofList value)
  | _ => none

/-- The content of a file, if there is one. -/
def readFile? (path : String) : IO (Option ByteArray) := do
  try return some (← IO.FS.readBinFile path)
  catch _ => return none

/-- The variables of the process. -/
def processVariables : IO Settings.Variables := do
  let block ← readFile? "/proc/self/environ"
  return (cutAtZeros (block.getD .empty).data.toList).filterMap assigned?

/-- The files at the given paths, as far as they exist. -/
def readFiles (paths : List String) : IO (List (String × ByteArray)) :=
  paths.filterMapM fun path => do return (← readFile? path).map (path, ·)

/-- Carries out an invocation and prints its report. -/
def carryOut (i : Invocation) : IO UInt32 := do
  let files ← readFiles i.paths
  let report := i.execute { files, vars := ← processVariables }
  IO.print report.printed
  match report.failure with
  | none => return 0
  | some f =>
    IO.eprintln ("Error: " ++ f.message)
    return 1

end Resumable.Program

/-- The program. -/
def main (args : List String) : IO UInt32 :=
  match Resumable.Invocation.parse args with
  | .ok i => Resumable.Program.carryOut i
  | .error .help => do
    IO.print Resumable.Program.usage
    return 0
  | .error _ => do
    IO.eprint Resumable.Program.usage
    return 2
