import Resumable.Machine.Run

/-!
# Suspension is transparent

A script that stops at each call and is taken up again with the answers does what it would have
done without stopping.

## The model

* `converse` is the caller's side: it starts a script and answers each request with the next of its
  answers, under the number it was told, until the script ends or the answers run out.
* `pass` is the script's side: one pass from left to right over the statements, with the answers at
  hand. It knows no machine and no continuation; where a statement calls the outside it notes the
  request and sets the variable that the statement names, if it names one, to the next answer. It
  also notes the statements it came to.

## What is proved

* `converse_advance`: from any machine that awaits no answer, both sides make the same requests and
  leave the same variables, last value and ending, whatever the statements and the answers.
* `converse_run_follows_pass`: so it is for a whole script. What a machine still holds when the
  answers run out is what the pass did not come to: no statement is lost, repeated or moved.
-/

namespace Resumable.Machine

/-! ### The two sides -/

/-- What a conversation with a machine leaves behind. -/
structure Conversation where
  /-- The requests that were made, in order. -/
  requests : List Request
  /-- The machine after the last call. -/
  machine : Machine
  /-- How the last call ended. -/
  result : Except MachineError Outcome

/-- Goes on from the end of a call: as long as a request was made and answers are left, the next
answer is given under the number that came with the request. -/
def converse : List Value → Machine × Except MachineError Outcome → Conversation
  | _, (m, .error e) => ⟨[], m, .error e⟩
  | _, (m, .ok (.completed v)) => ⟨[], m, .ok (.completed v)⟩
  | [], (m, .ok (.suspended id request)) => ⟨[request], m, .ok (.suspended id request)⟩
  | answer :: answers, (m, .ok (.suspended id request)) =>
    let c := converse answers (m.resume id answer)
    { c with requests := request :: c.requests }

/-- What one pass over statements leaves behind. -/
structure Pass where
  /-- The requests that were made, in order. -/
  requests : List Request
  /-- The statements the pass came to, in order. -/
  visited : List String
  /-- The variables at the end. -/
  env : Environment
  /-- The value of the last expression. -/
  lastValue : Value
  /-- How the pass ended. -/
  result : Except MachineError Outcome

/-- A pass with a statement, and the requests it made, in front. -/
def Pass.behind (text : String) (requests : List Request) (p : Pass) : Pass :=
  { p with requests := requests ++ p.requests, visited := text :: p.visited }

/-- One pass over statements, with the answers to its requests. Requests are numbered from a given
number on. It ends at a request for which no answer is left. -/
def pass (function : String) (id : Nat) (env : Environment) (lastValue : Value) :
    List String → List Value → Pass
  | [], _ => ⟨[], [], env, lastValue, .ok (.completed lastValue)⟩
  | text :: rest, answers =>
    if Statement.isCall function text then
      let request : Request := ⟨id, Statement.address function env text⟩
      match answers with
      | [] => ⟨[request], [text], env, lastValue, .ok (.suspended id request)⟩
      | answer :: answers =>
        let env := match Statement.bindingTarget? text.toList with
          | some name => env.set name answer
          | none => env
        (pass function (id + 1) env lastValue rest answers).behind text [request]
    else match Statement.exec env (Statement.classify text) with
      | .wrote env => (pass function id env lastValue rest answers).behind text []
      | .value v => (pass function id env v rest answers).behind text []
      | .raised message => ⟨[], [text], env, lastValue, .error (.script message)⟩

/-- A conversation goes as a pass over statements does. -/
structure Conversation.Follows (c : Conversation) (p : Pass) (statements : List String) : Prop where
  /-- It makes the same requests. -/
  requests : c.requests = p.requests
  /-- It leaves the same variables, in the same order. -/
  env : c.machine.env = p.env
  /-- It leaves the same last value. -/
  lastValue : c.machine.lastValue = p.lastValue
  /-- It ends in the same way. -/
  result : c.result = p.result
  /-- If it waits for an answer, the machine holds what the pass did not come to. -/
  waiting : ∀ id request, c.result = .ok (.suspended id request) →
    ∃ k, c.machine.live = some k ∧ k.id = id ∧ p.visited ++ k.remaining = statements
  /-- If it is completed, the pass came to every statement. -/
  completed : ∀ v, c.result = .ok (.completed v) → c.machine.live = none ∧ p.visited = statements
  /-- If it failed, the pass came to the statements up to one of them. -/
  failed : ∀ e, c.result = .error e → c.machine.live = none ∧ p.visited <+: statements

/-! ### One statement more -/

theorem converse_error (answers : List Value) (m : Machine) (e : MachineError) :
    converse answers (m, .error e) = ⟨[], m, .error e⟩ := by
  cases answers <;> rfl

theorem converse_completed (answers : List Value) (m : Machine) (v : Value) :
    converse answers (m, .ok (.completed v)) = ⟨[], m, .ok (.completed v)⟩ := by
  cases answers <;> rfl

theorem converse_suspend (m : Machine) (text : String) (rest : List String) (answer : Value)
    (answers : List Value) :
    converse (answer :: answers) ((m.suspend text rest).1, .ok (m.suspend text rest).2) =
      let c := converse answers ((m.suspend text rest).1.resume m.nextId answer)
      { c with requests := ⟨m.nextId, Statement.address m.function m.env text⟩ :: c.requests } :=
  rfl

variable {c : Conversation} {p : Pass} {text : String} {rest : List String}

/-- A statement in front of both sides, with its requests, keeps them together. -/
theorem Conversation.Follows.behind (h : c.Follows p rest) (requests : List Request) :
    Follows { c with requests := requests ++ c.requests } (p.behind text requests)
      (text :: rest) where
  requests := by rw [Pass.behind, h.requests]
  env := h.env
  lastValue := h.lastValue
  result := h.result
  waiting id request hr := by
    obtain ⟨k, hk, hid, hrest⟩ := h.waiting id request hr
    exact ⟨k, hk, hid, congrArg (text :: ·) hrest⟩
  completed v hr := by
    obtain ⟨hlive, hrest⟩ := h.completed v hr
    exact ⟨hlive, congrArg (text :: ·) hrest⟩
  failed e hr := by
    obtain ⟨hlive, hrest⟩ := h.failed e hr
    exact ⟨hlive, List.cons_prefix_cons.mpr ⟨rfl, hrest⟩⟩

/-- Both sides end where no statement is left. -/
theorem Conversation.Follows.finished {m : Machine} (free : m.live = none) :
    Follows ⟨[], { m with status := .completed }, .ok (.completed m.lastValue)⟩
      ⟨[], [], m.env, m.lastValue, .ok (.completed m.lastValue)⟩ [] where
  requests := rfl
  env := rfl
  lastValue := rfl
  result := rfl
  waiting _ _ hr := by cases hr
  completed _ _ := ⟨free, rfl⟩
  failed _ hr := by cases hr

/-- A statement that raises an error ends both sides. -/
theorem Conversation.Follows.raised {m : Machine} (free : m.live = none) (message : String) :
    Follows ⟨[], { m with status := .failed }, .error (.script message)⟩
      ⟨[], [text], m.env, m.lastValue, .error (.script message)⟩ (text :: rest) where
  requests := rfl
  env := rfl
  lastValue := rfl
  result := rfl
  waiting _ _ hr := by cases hr
  completed _ hr := by cases hr
  failed _ _ := ⟨free, List.prefix_append [text] rest⟩

/-- A request without an answer ends both sides, and the machine holds the statements behind it. -/
theorem Conversation.Follows.suspended (m : Machine) :
    let request : Request := ⟨m.nextId, Statement.address m.function m.env text⟩
    Follows ⟨[request], (m.suspend text rest).1, .ok (.suspended m.nextId request)⟩
      ⟨[request], [text], m.env, m.lastValue, .ok (.suspended m.nextId request)⟩
      (text :: rest) where
  requests := rfl
  env := rfl
  lastValue := rfl
  result := rfl
  waiting id request hr := by
    cases hr
    exact ⟨_, rfl, rfl, rfl⟩
  completed _ hr := by cases hr
  failed _ hr := by cases hr

/-! ### Whole scripts -/

/-- **Both sides agree** on any statements, from any machine that awaits no answer. -/
theorem converse_advance (texts : List String) : ∀ (m : Machine) (answers : List Value),
    m.live = none → (converse answers (m.advance texts)).Follows
      (pass m.function m.nextId m.env m.lastValue texts answers) texts := by
  induction texts with
  | nil =>
    intro m answers free
    rw [advance, converse_completed, pass]
    exact .finished free
  | cons text rest ih =>
    intro m answers free
    cases hcall : Statement.isCall m.function text with
    | true =>
      rw [advance_of_call hcall, pass, if_pos hcall]
      cases answers with
      | nil => exact .suspended m
      | cons answer answers =>
        -- The machine that goes on is no longer the one that stopped: the answer is bound, nothing
        -- is awaited, and one number is used up.
        rw [converse_suspend, resume_suspend]
        exact (ih _ answers rfl).behind [_]
    | false =>
      rw [pass, if_neg (by simp [hcall])]
      cases hexec : Statement.exec m.env (Statement.classify text) with
      | wrote env =>
        rw [advance_of_wrote hcall hexec]
        exact (ih { m with env := env } answers free).behind []
      | value v =>
        rw [advance_of_value hcall hexec]
        exact (ih { m with lastValue := v } answers free).behind []
      | raised message =>
        rw [advance_of_raised hcall hexec, converse_error]
        exact .raised free message

/-- **Suspension is transparent**: a script that is started on a machine which awaits no answer, and
whose requests are answered one after the other, goes as one pass over its statements does. -/
theorem converse_run_follows_pass (m : Machine) (source : String) (answers : List Value)
    (free : m.live = none) :
    (converse answers (m.run source)).Follows
      (pass m.function m.nextId m.env .undefined (Source.statements source) answers)
      (Source.statements source) := by
  rw [run_of_free free]
  exact converse_advance (Source.statements source)
    { m with lastValue := .undefined, status := .running } answers free

/-- One answer for two requests: the script waits at the second, whose address is the answer to the
first, and its last statement is left. -/
theorem converse_run_follows_pass_one_answer :
    (new {}).live = none ∧
      (converse [.str "/b"] ((new {}).run "const a = fetch('/a'); fetch(a); a")).requests =
        [⟨1, "/a"⟩, ⟨2, "/b"⟩] ∧
      (pass "fetch" 1 .empty .undefined (Source.statements "const a = fetch('/a'); fetch(a); a")
        [.str "/b"]).visited = ["const a = fetch('/a')", "fetch(a)"] ∧
      (converse [.str "/b"] ((new {}).run "const a = fetch('/a'); fetch(a); a")).Follows
        (pass "fetch" 1 .empty .undefined (Source.statements "const a = fetch('/a'); fetch(a); a")
          [.str "/b"])
        (Source.statements "const a = fetch('/a'); fetch(a); a") :=
  ⟨rfl, by decide +kernel, by decide +kernel,
    converse_run_follows_pass (new {}) "const a = fetch('/a'); fetch(a); a" [.str "/b"] rfl⟩

end Resumable.Machine
