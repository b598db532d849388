import Resumable.Environment
import Resumable.Settings.Basic

/-!
# Machines

A machine runs one script at a time and stops at each call that leaves it. While it waits for the
answer it holds a continuation: everything needed to go on. The continuation is plain data and can
be kept elsewhere; a machine rebuilt from it goes on in the same way.

This models `VM`, `VmStatus`, `VmError`, `Continuation`, `Outcome` and `FetchRequest`. Numbers of
requests are natural numbers and so the next one always exists; a counter of 64 bits gives the same
numbers until it overflows. The options of a request, which are never set, are not modelled.
-/

namespace Resumable

/-- What is needed to go on after a call that left the script. -/
structure Continuation where
  /-- The number of the request that was made. -/
  id : Nat
  /-- The variable that takes the answer. -/
  binding : Option String
  /-- The variables at the call. -/
  snapshot : Environment
  /-- The statements that are still to be executed. -/
  remaining : List String
  /-- The value of the last expression before the call. -/
  lastValue : Value

/-- A request to the outside. -/
structure Request where
  /-- Its number. -/
  id : Nat
  /-- Its address. -/
  address : String
  deriving DecidableEq

/-- How a run ends. -/
inductive Outcome where
  /-- It waits for the answer to a request, which is to be given under this number. -/
  | suspended (id : Nat) (request : Request)
  /-- It executed all statements; the value is that of the last expression. -/
  | completed (value : Value)

/-- Why a machine refuses a call or ends a run. -/
inductive MachineError where
  /-- An answer came while none was awaited. -/
  | notSuspended (id : Nat)
  /-- An answer came for another request than the awaited one. -/
  | mismatch (expected got : Nat)
  /-- A script was to be started while an answer was awaited. -/
  | alreadySuspended (id : Nat)
  /-- The script raised an error. -/
  | script (message : String)
  deriving DecidableEq

/-- The wording of an error. -/
def MachineError.message : MachineError → String
  | .notSuspended id => "No paused fetch with ID " ++ toString id
  | .mismatch expected got =>
    "No paused fetch with ID " ++ toString got ++ " (live continuation is " ++ toString expected ++
      ")"
  | .alreadySuspended id =>
    "VM is suspended on continuation " ++ toString id ++ "; resume or dispose it first"
  | .script message => message

/-- Whether an error is the caller's and not the script's. -/
def MachineError.isUsage : MachineError → Bool
  | .script _ => false
  | _ => true

/-- The state of a machine's work. -/
inductive Status where
  /-- Nothing was run since it was built or cleared. -/
  | idle
  /-- Statements are being executed. -/
  | running
  /-- An answer is awaited. -/
  | suspended
  /-- The last run executed all statements. -/
  | completed
  /-- The last run raised an error. -/
  | failed
  deriving DecidableEq

/-- A machine. -/
structure Machine where
  /-- The variables. -/
  env : Environment
  /-- The continuation, while an answer is awaited. -/
  live : Option Continuation
  /-- The value of the last expression. -/
  lastValue : Value
  /-- The state of its work. -/
  status : Status
  /-- The function whose calls leave the script. -/
  function : String
  /-- The number of the next request. -/
  nextId : Nat

end Resumable
