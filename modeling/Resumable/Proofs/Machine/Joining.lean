import Resumable.Proofs.Machine.Calls
import Resumable.Proofs.Machine.Outline
import Resumable.Proofs.Source.Cuts

/-!
# Scripts that follow each other

A script that is cut at a semicolon on its top level can be run in two parts, one after the other.
The two ways differ in one point: each run starts without a last value, so that the second part does
not know the value with which the first one ended.

## The model

* `queue`: a machine that has further statements to execute behind those it kept.
* `relast`: what a call leaves, with another last value everywhere.

## What is proved

* `advance_append`: executing statements and then others is executing all of them.
* `advance_lastValue`: a last value from before is seen in the end exactly if no expression was
  executed.
* `run_joined`: what one run of both parts does, told from a run of the first part and, if that is
  completed, a run of the second part.
-/

namespace Resumable

/-- An outcome with another value, if it has one. -/
def Outcome.withValue (v : Value) : Outcome → Outcome
  | .suspended id request => .suspended id request
  | .completed _ => .completed v

namespace Machine

open Statement (isCall isExpression)

variable {m : Machine}

/-! ### Statements behind statements -/

/-- A machine with further statements behind those that its continuation keeps. -/
def queue (m : Machine) (texts : List String) : Machine :=
  { m with live := m.live.map fun k => { k with remaining := k.remaining ++ texts } }

/-- Executing statements does not depend on the state of the machine's work. -/
theorem advance_status (texts : List String) : ∀ (m : Machine) (status : Status),
    advance { m with status := status } texts = m.advance texts := by
  induction texts with
  | nil => exact fun m status => rfl
  | cons text rest ih =>
    intro m status
    cases hcall : isCall m.function text with
    | true =>
      rw [advance_of_call hcall, advance_of_call (m := { m with status := status }) hcall]
      rfl
    | false =>
      cases hexec : Statement.exec m.env (Statement.classify text) with
      | wrote env =>
        rw [advance_of_wrote hcall hexec,
          advance_of_wrote (m := { m with status := status }) hcall hexec]
        exact ih { m with env := env } status
      | value v =>
        rw [advance_of_value hcall hexec,
          advance_of_value (m := { m with status := status }) hcall hexec]
        exact ih { m with lastValue := v } status
      | raised message =>
        rw [advance_of_raised hcall hexec,
          advance_of_raised (m := { m with status := status }) hcall hexec]

/-- Executing statements and then others is executing all of them: the others are kept if the first
ones make a request, and are not come to if one of these raises an error. -/
theorem advance_append (first second : List String) : ∀ m : Machine,
    m.advance (first ++ second) =
      match m.advance first with
      | (m', .ok (.completed _)) => m'.advance second
      | (m', .ok (.suspended id request)) => (m'.queue second, .ok (.suspended id request))
      | (m', .error e) => (m', .error e) := by
  induction first with
  | nil => exact fun m => (advance_status second m .completed).symm
  | cons text rest ih =>
    intro m
    rw [List.cons_append]
    cases hcall : isCall m.function text with
    | true =>
      rw [advance_of_call hcall, advance_of_call hcall]
      rfl
    | false =>
      cases hexec : Statement.exec m.env (Statement.classify text) with
      | wrote env => rw [advance_of_wrote hcall hexec, advance_of_wrote hcall hexec, ih]
      | value v => rw [advance_of_value hcall hexec, advance_of_value hcall hexec, ih]
      | raised message => rw [advance_of_raised hcall hexec, advance_of_raised hcall hexec]

/-! ### The last value -/

/-- What a call leaves, with another last value: that of the machine, that of the continuation it
holds, and that with which the run is completed. -/
def relast (v : Value) (s : Machine × Except MachineError Outcome) :
    Machine × Except MachineError Outcome :=
  ({ s.1 with lastValue := v, live := s.1.live.map fun k => { k with lastValue := v } },
    s.2.map (Outcome.withValue v))

/-- Whether an expression is executed before the statements first stop. -/
def expresses (function : String) (texts : List String) : Bool :=
  (executed function texts).any isExpression

/-- A last value from before is forgotten once an expression is executed; otherwise it is the last
value in the end. Nothing else depends on it. -/
theorem advance_lastValue (v : Value) (texts : List String) : ∀ m : Machine, m.live = none →
    advance { m with lastValue := v } texts =
      if expresses m.function texts then m.advance texts else relast v (m.advance texts) := by
  induction texts with
  | nil =>
    intro m free
    simp [expresses, executed, advance, relast, Outcome.withValue, free, Except.map]
  | cons text rest ih =>
    intro m free
    cases hcall : isCall m.function text with
    | true =>
      rw [advance_of_call hcall, advance_of_call (m := { m with lastValue := v }) hcall, expresses,
        executed_of_call hcall]
      rfl
    | false =>
      have hfailure := Statement.failure?_eq hcall m.env
      have hexpression := Statement.isExpression_eq text m.env
      cases hexec : Statement.exec m.env (Statement.classify text) with
      | wrote env =>
        rw [hexec] at hfailure hexpression
        rw [advance_of_wrote hcall hexec,
          advance_of_wrote (m := { m with lastValue := v }) hcall hexec, expresses,
          executed_of_quiet hcall hfailure, List.any_cons, hexpression, Bool.false_or]
        exact ih { m with env := env } free
      | value v' =>
        rw [hexec] at hfailure hexpression
        rw [advance_of_value hcall hexec,
          advance_of_value (m := { m with lastValue := v }) hcall hexec, expresses,
          executed_of_quiet hcall hfailure, List.any_cons, hexpression, Bool.true_or]
        rfl
      | raised message =>
        rw [hexec] at hfailure
        rw [advance_of_raised hcall hexec,
          advance_of_raised (m := { m with lastValue := v }) hcall hexec, expresses,
          executed_of_failure hfailure]
        simp [relast, free, Except.map]

/-! ### Whole scripts -/

/-- Going on with the statements of a script, in place of starting it, keeps the last value. -/
theorem advance_eq_run (free : m.live = none) (source : String) :
    m.advance (Source.statements source) =
      if expresses m.function (Source.statements source) then m.run source
      else relast m.lastValue (m.run source) := by
  rw [run_of_free free, ← advance_status _ m .running]
  exact advance_lastValue m.lastValue _ { m with lastValue := .undefined, status := .running } free

/-- A run that leaves a machine completed tells its last value. -/
theorem run_of_completed (free : m.live = none) {source : String}
    (h : (m.run source).1.status = .completed) :
    (m.run source).2 = .ok (.completed (m.run source).1.lastValue) := by
  have hto := advance_to (Source.statements source)
    { m with lastValue := .undefined, status := .running }
  rw [← run_of_free free] at hto
  generalize m.run source = s at hto h ⊢
  obtain ⟨m', r⟩ := s
  cases hto with
  | completed env v => rfl
  | failed env v message => cases h
  | suspended env v left => cases h

/-- **A script may be cut at a semicolon on its top level.** If the first part raises an error, so
does the whole, with the same machine. If it makes a request, the whole makes it, and keeps the
statements of the second part behind those that are left of the first. If it is completed, the whole
does what a run of the second part does afterwards; but if that executes no expression, the last
value is the one with which the first part was completed. -/
theorem run_joined (m : Machine) (first second : String) (free : m.live = none)
    (top : ({} : Source.Scanner).run first.toList = {}) :
    (∀ e, (m.run first).2 = .error e → m.run (first ++ ";" ++ second) = m.run first) ∧
      (∀ id request, (m.run first).2 = .ok (.suspended id request) →
        ∃ k, (m.run first).1.live = some k ∧
          m.run (first ++ ";" ++ second) =
            ({ (m.run first).1 with
                live := some { k with remaining := k.remaining ++ Source.statements second } },
              .ok (.suspended id request))) ∧
      ∀ v, (m.run first).2 = .ok (.completed v) →
        m.run (first ++ ";" ++ second) =
          if expresses m.function (Source.statements second) then (m.run first).1.run second
          else relast v ((m.run first).1.run second) := by
  have hto := advance_to (Source.statements first)
    { m with lastValue := .undefined, status := .running }
  have hjoint : m.run (first ++ ";" ++ second) = _ := run_of_free free _
  rw [Source.statements_append top, advance_append] at hjoint
  rw [← run_of_free free] at hto hjoint
  generalize m.run first = s at hto hjoint ⊢
  obtain ⟨m', r⟩ := s
  cases hto with
  | completed env v =>
    refine ⟨fun e he => (by cases he), fun id request he => (by cases he), fun v' he => ?_⟩
    cases he
    rw [hjoint]
    exact advance_eq_run (m := { m with env := env, lastValue := v, status := .completed }) free
      second
  | failed env v message =>
    exact ⟨fun e _ => hjoint, fun id request he => (by cases he), fun v' he => (by cases he)⟩
  | suspended env v left =>
    refine ⟨fun e he => (by cases he), fun id request he => ?_, fun v' he => (by cases he)⟩
    cases he
    exact ⟨_, rfl, hjoint⟩

/-- The second part declares a variable and makes a request, and has no expression: the value of the
first part is the last one while the whole waits. -/
theorem run_joined_unexpressed :
    (new {}).live = none ∧ ({} : Source.Scanner).run "let a = '/a'; a".toList = {} ∧
      expresses "fetch" (Source.statements "let b = a; fetch(b)") = false ∧
      ∃ v, ((new {}).run "let a = '/a'; a").2 = .ok (.completed v) ∧ v.display = "/a" ∧
        (new {}).run "let a = '/a'; a;let b = a; fetch(b)" =
          relast v (((new {}).run "let a = '/a'; a").1.run "let b = a; fetch(b)") := by
  have free : (new {}).live = none := rfl
  have top : ({} : Source.Scanner).run "let a = '/a'; a".toList = {} := by decide
  have none : expresses "fetch" (Source.statements "let b = a; fetch(b)") = false := by
    decide +kernel
  have status : ((new {}).run "let a = '/a'; a").1.status = .completed := by decide +kernel
  have shown : ((new {}).run "let a = '/a'; a").1.lastValue.display = "/a" := by decide +kernel
  have completed := run_of_completed free status
  have joined :=
    (run_joined (new {}) "let a = '/a'; a" "let b = a; fetch(b)" free top).2.2 _ completed
  rw [if_neg (by rw [new, none]; simp)] at joined
  exact ⟨free, top, none, _, completed, shown, joined⟩

end Machine

end Resumable
