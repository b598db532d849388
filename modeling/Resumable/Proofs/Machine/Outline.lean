import Resumable.Proofs.Machine.Conversation

/-!
# What the text of a script tells

Which statements leave a script and which one raises an error is written in their text. Two numbers
then tell how far one pass over a script comes and how it ends: how many requests it can make, and
how many answers there are.

## The model

* `Statement.failure?` and `Statement.isExpression`: the message with which a statement ends a
  script, and whether it has a value of its own.
* `callCount` and `firstFailure?`: how many requests a script can make before it raises an error, and
  the message of that error.
* `executed`: the statements that are executed before a script first stops.

## What is proved

* `pass_outlined`: with fewer answers than calls, a pass ends at the request behind the last answer;
  with enough of them, it makes all requests and ends with the first error, or executes all
  statements. Its requests are numbered one after the other.
-/

namespace Resumable

/-! ### One statement -/

namespace Statement

/-- The message of the error that a statement raises. One that leaves the script raises none. -/
def failure? (function text : String) : Option String :=
  if isCall function text then none
  else match classify text with
    | .raise message => some message
    | _ => none

/-- Whether a statement is an expression. -/
def isExpression (text : String) : Bool :=
  match classify text with
  | .expression _ => true
  | _ => false

variable {function text : String}

theorem failure?_of_call (h : isCall function text = true) : failure? function text = none :=
  if_pos h

/-- A statement raises an error in every environment or in none. -/
theorem failure?_eq (h : isCall function text = false) (env : Environment) :
    failure? function text = match exec env (classify text) with
      | .raised message => some message
      | _ => none := by
  rw [failure?, if_neg (by simp [h])]
  cases classify text <;> rfl

theorem isExpression_eq (text : String) (env : Environment) :
    isExpression text = match exec env (classify text) with
      | .value _ => true
      | _ => false := by
  rw [isExpression]
  cases classify text <;> rfl

end Statement

namespace Machine

open Statement (isCall failure?)

/-! ### A whole script -/

/-- How many statements leave the script before one raises an error. -/
def callCount (function : String) (texts : List String) : Nat :=
  (texts.takeWhile fun text => (failure? function text).isNone).countP (isCall function)

/-- The message of the first statement that raises an error. -/
def firstFailure? (function : String) (texts : List String) : Option String :=
  texts.findSome? (failure? function)

/-- The statements before the first one that leaves the script or raises an error. -/
def executed (function : String) (texts : List String) : List String :=
  texts.takeWhile fun text => !isCall function text && (failure? function text).isNone

variable {function text message : String} {rest : List String}

theorem callCount_of_call (h : isCall function text = true) :
    callCount function (text :: rest) = callCount function rest + 1 := by
  simp [callCount, Statement.failure?_of_call h, h]

theorem callCount_of_failure (h : failure? function text = some message) :
    callCount function (text :: rest) = 0 := by
  simp [callCount, h]

theorem callCount_of_quiet (hcall : isCall function text = false)
    (h : failure? function text = none) :
    callCount function (text :: rest) = callCount function rest := by
  simp [callCount, h, hcall]

theorem firstFailure?_of_failure (h : failure? function text = some message) :
    firstFailure? function (text :: rest) = some message := by
  simp [firstFailure?, h]

theorem firstFailure?_of_none (h : failure? function text = none) :
    firstFailure? function (text :: rest) = firstFailure? function rest := by
  simp [firstFailure?, h]

theorem executed_of_call (h : isCall function text = true) :
    executed function (text :: rest) = [] := by
  simp [executed, h]

theorem executed_of_failure (h : failure? function text = some message) :
    executed function (text :: rest) = [] := by
  simp [executed, h]

theorem executed_of_quiet (hcall : isCall function text = false)
    (h : failure? function text = none) :
    executed function (text :: rest) = text :: executed function rest := by
  simp [executed, h, hcall]

/-! ### One pass over it -/

/-- How a pass comes out: its requests are numbered from `id` on, and how many they are and how it
ends can be told from the number of calls, the first error and the number of answers. -/
structure Pass.Outlined (p : Pass) (id calls : Nat) (failure : Option String) (answers : Nat) :
    Prop where
  /-- Requests are numbered one after the other. -/
  numbered : ∀ i request, p.requests[i]? = some request → request.id = id + i
  /-- With fewer answers than calls, it ends at the request behind the last answer. -/
  few : answers < calls →
    p.requests.length = answers + 1 ∧ ∃ n request, p.result = .ok (.suspended n request)
  /-- With enough answers, it makes all requests, and ends with the error or executes all
  statements. -/
  enough : calls ≤ answers →
    p.requests.length = calls ∧
      p.result = match failure with
        | some message => .error (.script message)
        | none => .ok (.completed p.lastValue)

variable {p : Pass} {id calls answers : Nat} {failure : Option String} {env : Environment}
  {v : Value}

/-- A statement in front that is executed changes nothing. -/
theorem Pass.Outlined.behind (h : p.Outlined id calls failure answers) :
    (p.behind text []).Outlined id calls failure answers :=
  ⟨h.numbered, h.few, h.enough⟩

/-- A request in front that is answered is one more call with one more answer. -/
theorem Pass.Outlined.behind_request (h : p.Outlined (id + 1) calls failure answers)
    (address : String) :
    (p.behind text [⟨id, address⟩]).Outlined id (calls + 1) failure (answers + 1) where
  numbered i request hi := by
    cases i with
    | zero =>
      obtain rfl : _ = request := Option.some.inj hi
      rfl
    | succ i =>
      have hid := h.numbered i request hi
      omega
  few hlt := by
    obtain ⟨hlength, hresult⟩ := h.few (Nat.lt_of_succ_lt_succ hlt)
    exact ⟨congrArg (· + 1) hlength, hresult⟩
  enough hle := by
    obtain ⟨hlength, hresult⟩ := h.enough (Nat.le_of_succ_le_succ hle)
    exact ⟨congrArg (· + 1) hlength, hresult⟩

/-- A request that is not answered ends a pass. -/
theorem Pass.Outlined.unanswered (address : String) (visited : List String) :
    Outlined ⟨[⟨id, address⟩], visited, env, v, .ok (.suspended id ⟨id, address⟩)⟩ id (calls + 1)
      failure 0 where
  numbered i request hi := by
    rw [List.getElem?_singleton] at hi
    split at hi
    · subst i
      obtain rfl : _ = request := Option.some.inj hi
      rfl
    · cases hi
  few _ := ⟨rfl, _, _, rfl⟩
  enough hle := absurd hle (Nat.not_succ_le_zero _)

/-- Where no statement is left, and where one raises an error, a pass ends without a request. -/
theorem Pass.Outlined.ended (visited : List String) {r : Except MachineError Outcome}
    (h : r = match failure with
      | some message => .error (.script message)
      | none => .ok (.completed v)) :
    Outlined ⟨[], visited, env, v, r⟩ id 0 failure answers where
  numbered i request hi := by simp at hi
  few hlt := absurd hlt (Nat.not_lt_zero _)
  enough _ := ⟨rfl, h⟩

/-- **How a pass comes out can be read off the text of its statements.** -/
theorem pass_outlined (function : String) (texts : List String) :
    ∀ (id : Nat) (env : Environment) (v : Value) (answers : List Value),
      (pass function id env v texts answers).Outlined id (callCount function texts)
        (firstFailure? function texts) answers.length := by
  induction texts with
  | nil => exact fun id env v answers => .ended [] rfl
  | cons text rest ih =>
    intro id env v answers
    cases hcall : isCall function text with
    | true =>
      rw [callCount_of_call hcall, firstFailure?_of_none (Statement.failure?_of_call hcall), pass,
        if_pos hcall]
      cases answers with
      | nil => exact .unanswered _ _
      | cons answer answers => exact (ih (id + 1) _ v answers).behind_request _
    | false =>
      have hfailure := Statement.failure?_eq hcall env
      rw [pass, if_neg (by simp [hcall])]
      cases hexec : Statement.exec env (Statement.classify text) with
      | wrote env' =>
        rw [hexec] at hfailure
        rw [callCount_of_quiet hcall hfailure, firstFailure?_of_none hfailure]
        exact (ih id env' v answers).behind
      | value v' =>
        rw [hexec] at hfailure
        rw [callCount_of_quiet hcall hfailure, firstFailure?_of_none hfailure]
        exact (ih id env v' answers).behind
      | raised message =>
        rw [hexec] at hfailure
        rw [callCount_of_failure hfailure, firstFailure?_of_failure hfailure]
        exact .ended _ rfl

end Machine

end Resumable
