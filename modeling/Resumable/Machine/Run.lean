import Resumable.Machine.Basic
import Resumable.Statement.Call
import Resumable.Statement.Exec

/-!
# Running scripts

Statements are executed in order until one leaves the script, one raises an error, or none is
left. Starting a script and answering a request both come down to `advance`; an answer goes on with
the statements that the continuation kept.

This models `with_config`, `from_continuation`, `run`, `resume`, `dispose` and `execute_code` of
`VM`, with `run_statements`, `suspend` and `allocate_continuation_id`. The counter of requests is a
natural number: that it overflows after `2 ^ 64 - 1` is not modelled, nor is the log.
-/

namespace Resumable.Machine

/-- A fresh machine. -/
def new (engine : Settings.Engine) : Machine where
  env := .empty
  live := none
  lastValue := .undefined
  status := .idle
  function := engine.suspendFunction
  nextId := engine.firstId

/-- A machine that waits for the answer a continuation needs. Its next request is numbered behind
the continuation's own, as far as numbers reach. -/
def ofContinuation (engine : Settings.Engine) (k : Continuation) : Machine where
  env := k.snapshot
  live := some k
  lastValue := k.lastValue
  status := .suspended
  function := engine.suspendFunction
  nextId := max engine.firstId (min (k.id + 1) Text.maxWord)

/-- Stops at a statement that leaves the script, keeping the statements behind it. -/
def suspend (m : Machine) (text : String) (remaining : List String) : Machine × Outcome :=
  ({ m with
      live := some
        { id := m.nextId
          binding := Statement.bindingTarget? text.toList
          snapshot := m.env
          remaining := remaining
          lastValue := m.lastValue }
      status := .suspended
      nextId := m.nextId + 1 },
    .suspended m.nextId ⟨m.nextId, Statement.address m.function m.env text⟩)

/-- Executes statements until one leaves the script, one raises an error, or none is left. -/
def advance (m : Machine) : List String → Machine × Except MachineError Outcome
  | [] => ({ m with status := .completed }, .ok (.completed m.lastValue))
  | text :: rest =>
    if Statement.isCall m.function text then
      let (m, outcome) := m.suspend text rest
      (m, .ok outcome)
    else match Statement.exec m.env (Statement.classify text) with
      | .wrote env => advance { m with env := env } rest
      | .value v => advance { m with lastValue := v } rest
      | .raised message => ({ m with status := .failed }, .error (.script message))

/-- Starts a script. The variables of earlier runs are kept; the last value is not. -/
def run (m : Machine) (source : String) : Machine × Except MachineError Outcome :=
  match m.live with
  | some k => (m, .error (.alreadySuspended k.id))
  | none =>
    advance { m with lastValue := .undefined, status := .running } (Source.statements source)

/-- Binds the answer to the variable that takes it, if there is one. -/
def bindAnswer (env : Environment) (binding : Option String) (value : Value) : Environment :=
  match binding with
  | some name => env.set name value
  | none => env

/-- Answers a request. An answer to another request than the awaited one changes nothing. -/
def resume (m : Machine) (id : Nat) (value : Value) : Machine × Except MachineError Outcome :=
  match m.live with
  | none => (m, .error (.notSuspended id))
  | some k =>
    if k.id = id then
      advance
        { m with
          env := bindAnswer m.env k.binding value
          live := none
          lastValue := k.lastValue
          status := .running }
        k.remaining
    else (m, .error (.mismatch k.id id))

/-- Drops everything but the numbering of requests. -/
def dispose (m : Machine) : Machine :=
  { m with env := .empty, live := none, lastValue := .undefined, status := .idle }

/-- Runs a script once on a machine of its own. -/
def execute (source : String) : Except MachineError Outcome := ((new {}).run source).2

/-! ### One statement at a time -/

variable {m : Machine} {text : String} {rest : List String}

theorem advance_of_call (h : Statement.isCall m.function text = true) :
    m.advance (text :: rest) = ((m.suspend text rest).1, .ok (m.suspend text rest).2) := by
  rw [advance, if_pos h]

theorem advance_of_wrote {env : Environment} (h : Statement.isCall m.function text = false)
    (he : Statement.exec m.env (Statement.classify text) = .wrote env) :
    m.advance (text :: rest) = advance { m with env := env } rest := by
  rw [advance, if_neg (by simp [h]), he]

theorem advance_of_value {v : Value} (h : Statement.isCall m.function text = false)
    (he : Statement.exec m.env (Statement.classify text) = .value v) :
    m.advance (text :: rest) = advance { m with lastValue := v } rest := by
  rw [advance, if_neg (by simp [h]), he]

theorem advance_of_raised {message : String} (h : Statement.isCall m.function text = false)
    (he : Statement.exec m.env (Statement.classify text) = .raised message) :
    m.advance (text :: rest) = ({ m with status := .failed }, .error (.script message)) := by
  rw [advance, if_neg (by simp [h]), he]

theorem run_of_free (free : m.live = none) (source : String) :
    m.run source =
      advance { m with lastValue := .undefined, status := .running } (Source.statements source) := by
  simp only [run, free]

/-- An answer to the request of a statement goes on behind that statement. -/
theorem resume_suspend (value : Value) :
    (m.suspend text rest).1.resume m.nextId value =
      advance
        { m with
          env := bindAnswer m.env (Statement.bindingTarget? text.toList) value
          live := none
          status := .running
          nextId := m.nextId + 1 }
        rest := by
  simp [suspend, resume]

end Resumable.Machine
