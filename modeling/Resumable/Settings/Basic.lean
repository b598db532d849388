import Resumable.Expr.Token
import Resumable.Text.Quoted

/-!
# Settings

What can be set from outside: the function whose calls leave the script, the number of the first
request, and the level of the log. Settings are valid if the function is named by an identifier
and requests are numbered from one on or later.

This models `Config`, `EngineConfig` and `LoggingConfig` with their defaults, and `validate`. The
level is only loaded and shown: the log is not modelled.
-/

namespace Resumable

namespace Settings

/-- The settings of a machine. -/
structure Engine where
  /-- The function whose calls leave the script. -/
  suspendFunction : String := "fetch"
  /-- The number of the first request. -/
  firstId : Nat := 1
  deriving DecidableEq

end Settings

/-- All settings. -/
structure Settings where
  /-- The settings of a machine. -/
  engine : Settings.Engine := {}
  /-- The level of the log. -/
  level : String := "info"
  deriving DecidableEq

namespace Settings

/-- What is wrong with settings. -/
inductive Fault where
  /-- The function is not named by an identifier. -/
  | notIdentifier (name : String)
  /-- The first request would have number zero. -/
  | zeroFirstId
  deriving DecidableEq

/-- The wording of a fault. -/
def Fault.message : Fault → String
  | .notIdentifier name =>
    "engine.suspend_function must be an identifier, got " ++ Text.quoted name
  | .zeroFirstId => "engine.first_continuation_id must be at least 1"

/-- Whether a text is an identifier. -/
def isIdentifier (name : String) : Bool :=
  match name.toList with
  | [] => false
  | c :: cs => Expr.isNameStart c && cs.all Expr.isNameChar

/-- The first fault of settings, if they have one. -/
def fault? (s : Settings) : Option Fault :=
  if !isIdentifier s.engine.suspendFunction then some (.notIdentifier s.engine.suspendFunction)
  else if s.engine.firstId = 0 then some .zeroFirstId
  else none

end Settings

end Resumable
