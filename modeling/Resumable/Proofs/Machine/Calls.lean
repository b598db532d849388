import Resumable.Machine.Run

/-!
# Calls and histories

A caller starts scripts, answers requests and drops everything, in any order and as often as it
likes. What it sees is a history: its calls and what it got back for each.

## The model

* `Call`, `Reply` and `Event`: one call, what came back, and the two together.
* `Machine.after` and `Machine.history`: the machine after a sequence of calls, and the history of
  that sequence. Calls that are refused are part of it.

## What is proved

* `advance_to`: executing statements ends in one of three ways, and `AdvancesTo` says what the
  machine is then.
* `calls_to`: a call does one of six things, and `CallsTo` says what they are. Every fact about a
  single call is read off here.
* `history_induction`: what holds of a machine and the empty history, and is kept by each call,
  holds after every sequence of calls.
-/

namespace Resumable

/-! ### Calls -/

/-- A call on a machine. -/
inductive Call where
  /-- A script is to be started. -/
  | run (source : String)
  /-- A request is answered. -/
  | resume (id : Nat) (value : Value)
  /-- Everything is to be dropped. -/
  | dispose

/-- What a caller gets back. -/
inductive Reply where
  /-- How the run ended, or why the call was refused. -/
  | ended (result : Except MachineError Outcome)
  /-- Everything was dropped. -/
  | disposed

/-- A call and what the caller got back. -/
structure Event where
  /-- The call. -/
  call : Call
  /-- What the caller got back. -/
  reply : Reply

namespace Machine

/-- Makes a call. -/
def call (m : Machine) : Call → Machine × Reply
  | .run source => ((m.run source).1, .ended (m.run source).2)
  | .resume id value => ((m.resume id value).1, .ended (m.resume id value).2)
  | .dispose => (m.dispose, .disposed)

/-- The machine after a sequence of calls. -/
def after (m : Machine) (calls : List Call) : Machine := calls.foldl (fun m c => (m.call c).1) m

/-- The history of a sequence of calls, oldest first. -/
def history (m : Machine) : List Call → List Event
  | [] => []
  | c :: calls => ⟨c, (m.call c).2⟩ :: history (m.call c).1 calls

/-- **Induction over calls**: what holds at the start and is kept by each call holds after every
sequence of calls. -/
theorem history_induction {P : Machine → List Event → Prop} {m : Machine} (start : P m [])
    (step : ∀ m h c, P m h → P (m.call c).1 (h ++ [⟨c, (m.call c).2⟩])) (calls : List Call) :
    P (m.after calls) (m.history calls) := by
  -- The calls are taken from the front, so the history so far has to be arbitrary.
  have go : ∀ (calls : List Call) (m : Machine) (h : List Event), P m h →
      P (m.after calls) (h ++ m.history calls) := by
    intro calls
    induction calls with
    | nil => intro m h hp; rw [history, List.append_nil]; exact hp
    | cons c calls ih =>
      intro m h hp
      have := ih _ _ (step m h c hp)
      rwa [List.append_assoc] at this
  simpa using go calls m [] start

/-! ### What executing statements does -/

/-- How executing statements can end: the machine afterwards and the result. -/
inductive AdvancesTo (m : Machine) (texts : List String) :
    Machine → Except MachineError Outcome → Prop where
  /-- All statements were executed. -/
  | completed (env : Environment) (v : Value) :
      AdvancesTo m texts { m with env := env, lastValue := v, status := .completed }
        (.ok (.completed v))
  /-- A statement raised an error. -/
  | failed (env : Environment) (v : Value) (message : String) :
      AdvancesTo m texts { m with env := env, lastValue := v, status := .failed }
        (.error (.script message))
  /-- A statement made a request, and those behind it are kept. -/
  | suspended (env : Environment) (v : Value) {text : String} {rest : List String}
      (left : text :: rest <:+ texts) :
      AdvancesTo m texts
        { m with
          env := env
          live := some ⟨m.nextId, Statement.bindingTarget? text.toList, env, rest, v⟩
          lastValue := v
          status := .suspended
          nextId := m.nextId + 1 }
        (.ok (.suspended m.nextId ⟨m.nextId, Statement.address m.function env text⟩))

/-- A statement in front that changes only the variables and the last value. -/
theorem AdvancesTo.cons {m m' : Machine} {texts : List String} {r : Except MachineError Outcome}
    {env : Environment} {v : Value} (text : String)
    (h : AdvancesTo { m with env := env, lastValue := v } texts m' r) :
    AdvancesTo m (text :: texts) m' r := by
  cases h with
  | completed env v => exact .completed env v
  | failed env v message => exact .failed env v message
  | suspended env v left => exact .suspended env v (left.trans (List.suffix_cons text texts))

theorem advance_to (texts : List String) : ∀ m : Machine,
    AdvancesTo m texts (m.advance texts).1 (m.advance texts).2 := by
  induction texts with
  | nil => exact fun m => .completed m.env m.lastValue
  | cons text rest ih =>
    intro m
    cases hcall : Statement.isCall m.function text with
    | true =>
      rw [advance_of_call hcall]
      exact .suspended m.env m.lastValue (List.suffix_refl _)
    | false =>
      cases hexec : Statement.exec m.env (Statement.classify text) with
      | wrote env =>
        rw [advance_of_wrote hcall hexec]
        exact (ih { m with env := env }).cons text
      | value v =>
        rw [advance_of_value hcall hexec]
        exact (ih { m with lastValue := v }).cons text
      | raised message =>
        rw [advance_of_raised hcall hexec]
        exact .failed m.env m.lastValue message

/-! ### What a call does -/

/-- What a call can do: the machine afterwards and what the caller gets back. -/
inductive CallsTo (m : Machine) : Call → Machine → Reply → Prop where
  /-- No script is started while an answer is awaited. -/
  | busy {k : Continuation} (source : String) (held : m.live = some k) :
      CallsTo m (.run source) m (.ended (.error (.alreadySuspended k.id)))
  /-- No answer is taken while none is awaited. -/
  | unasked (id : Nat) (value : Value) (free : m.live = none) :
      CallsTo m (.resume id value) m (.ended (.error (.notSuspended id)))
  /-- No answer is taken but to the request that was made. -/
  | mismatched {k : Continuation} (id : Nat) (value : Value) (held : m.live = some k)
      (other : k.id ≠ id) : CallsTo m (.resume id value) m (.ended (.error (.mismatch k.id id)))
  /-- A script is started. -/
  | started {m' : Machine} {r : Except MachineError Outcome} (source : String)
      (free : m.live = none)
      (ends : AdvancesTo { m with lastValue := .undefined, status := .running }
        (Source.statements source) m' r) : CallsTo m (.run source) m' (.ended r)
  /-- An answer is taken. -/
  | answered {m' : Machine} {r : Except MachineError Outcome} {k : Continuation} (value : Value)
      (held : m.live = some k)
      (ends : AdvancesTo
        { m with
          env := bindAnswer m.env k.binding value
          live := none
          lastValue := k.lastValue
          status := .running }
        k.remaining m' r) : CallsTo m (.resume k.id value) m' (.ended r)
  /-- Everything is dropped. -/
  | disposed : CallsTo m .dispose m.dispose .disposed

theorem calls_to (m : Machine) (c : Call) : CallsTo m c (m.call c).1 (m.call c).2 := by
  cases c with
  | run source =>
    cases hlive : m.live with
    | none => rw [call, run_of_free hlive]; exact .started source hlive (advance_to _ _)
    | some k => simp only [call, run, hlive]; exact .busy source hlive
  | resume id value =>
    cases hlive : m.live with
    | none => simp only [call, resume, hlive]; exact .unasked id value hlive
    | some k =>
      by_cases hid : k.id = id
      · subst hid
        simp only [call, resume, hlive, if_true]
        exact .answered value hlive (advance_to _ _)
      · simp only [call, resume, hlive, if_neg hid]
        exact .mismatched id value hlive hid
  | dispose => exact .disposed

end Machine

end Resumable
