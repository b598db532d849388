import Mathlib.Data.List.Forall2
import Resumable.Proofs.Machine.Calls

/-!
# Numbers of requests are names

A script never sees the number of a request, and a machine only compares such numbers and counts
them up. Two machines that differ in their numbers by a constant therefore stay so, whatever is
called on them, as long as answers come under numbers that differ in the same way.

## The model

* `Offset d i j`: the second number is the first one plus `d`, which may be negative.
* `Machine.Renumbered`, `Call.Renumbered` and `Event.Renumbered`: two machines, two calls, and two
  events agree on everything but numbers, and these differ by `d`.

## What is proved

* `advance_renumbered` and `call_renumbered`: executing statements and making a call keep machines
  agreeing up to numbers, and end in the same way up to numbers.
* `history_renumbered`: so do any calls in any order, refused or not. A machine that dropped
  everything is a fresh one that starts with its next number.
-/

namespace Resumable

variable {d : Int}

/-! ### Numbers -/

/-- The second number is the first one plus `d`. -/
def Offset (d : Int) (i j : Nat) : Prop := (j : Int) = i + d

theorem Offset.succ {i j : Nat} (h : Offset d i j) : Offset d (i + 1) (j + 1) := by
  simp only [Offset] at h ⊢
  omega

/-- Numbers that were the same are the same, and others are others. -/
theorem Offset.eq_iff {i i' j j' : Nat} (h : Offset d i j) (h' : Offset d i' j') :
    i = i' ↔ j = j' := by
  simp only [Offset] at h h'
  omega

/-! ### What a caller gives and gets -/

/-- Two calls differ in numbers only, and by `d`. -/
inductive Call.Renumbered (d : Int) : Call → Call → Prop where
  /-- Both start the same script. -/
  | run (source : String) : Renumbered d (.run source) (.run source)
  /-- Both give the same answer. -/
  | resume {id id' : Nat} (value : Value) (hid : Offset d id id') :
      Renumbered d (.resume id value) (.resume id' value)
  /-- Both drop everything. -/
  | dispose : Renumbered d .dispose .dispose

/-- Two results differ in numbers only, and by `d`. -/
inductive EndsRenumbered (d : Int) :
    Except MachineError Outcome → Except MachineError Outcome → Prop where
  /-- Both make a request at the same address. -/
  | suspended {id id' n n' : Nat} (address : String) (hid : Offset d id id')
      (hn : Offset d n n') :
      EndsRenumbered d (.ok (.suspended id ⟨n, address⟩)) (.ok (.suspended id' ⟨n', address⟩))
  /-- Both execute all statements, with the same value. -/
  | completed (v : Value) : EndsRenumbered d (.ok (.completed v)) (.ok (.completed v))
  /-- Both raise the same error. -/
  | script (message : String) :
      EndsRenumbered d (.error (.script message)) (.error (.script message))
  /-- Neither awaits an answer. -/
  | notSuspended {id id' : Nat} (hid : Offset d id id') :
      EndsRenumbered d (.error (.notSuspended id)) (.error (.notSuspended id'))
  /-- Both await another answer. -/
  | mismatch {expected expected' got got' : Nat} (hexpected : Offset d expected expected')
      (hgot : Offset d got got') :
      EndsRenumbered d (.error (.mismatch expected got)) (.error (.mismatch expected' got'))
  /-- Both await an answer. -/
  | alreadySuspended {id id' : Nat} (hid : Offset d id id') :
      EndsRenumbered d (.error (.alreadySuspended id)) (.error (.alreadySuspended id'))

/-- Two replies differ in numbers only, and by `d`. -/
inductive Reply.Renumbered (d : Int) : Reply → Reply → Prop where
  /-- Both tell how a call ended. -/
  | ended {r r' : Except MachineError Outcome} (h : EndsRenumbered d r r') :
      Renumbered d (.ended r) (.ended r')
  /-- Both tell that everything was dropped. -/
  | disposed : Renumbered d .disposed .disposed

/-- Two events differ in numbers only, and by `d`. -/
structure Event.Renumbered (d : Int) (e e' : Event) : Prop where
  /-- The calls do. -/
  call : e.call.Renumbered d e'.call
  /-- The replies do. -/
  reply : e.reply.Renumbered d e'.reply

/-! ### Machines -/

/-- Two continuations agree on all but their numbers, which differ by `d`. -/
structure Continuation.Renumbered (d : Int) (k k' : Continuation) : Prop where
  /-- The numbers of the awaited requests differ by `d`. -/
  id : Offset d k.id k'.id
  /-- The same variable takes the answer. -/
  binding : k.binding = k'.binding
  /-- The variables at the call are the same. -/
  snapshot : k.snapshot = k'.snapshot
  /-- The same statements are left. -/
  remaining : k.remaining = k'.remaining
  /-- The last values are the same. -/
  lastValue : k.lastValue = k'.lastValue

namespace Machine

/-- Two machines agree on all but their numbers, which differ by `d`. -/
structure Renumbered (d : Int) (m m' : Machine) : Prop where
  /-- The same calls leave the script. -/
  function : m.function = m'.function
  /-- The variables are the same. -/
  env : m.env = m'.env
  /-- The last values are the same. -/
  lastValue : m.lastValue = m'.lastValue
  /-- Their work is in the same state. -/
  status : m.status = m'.status
  /-- Both await no answer, or both await one, under numbers that differ by `d`. -/
  live : Option.Rel (Continuation.Renumbered d) m.live m'.live
  /-- The numbers of the next requests differ by `d`. -/
  nextId : Offset d m.nextId m'.nextId

variable {m m' : Machine} {c c' : Call}

/-- Executing the same statements keeps machines agreeing up to numbers, and ends in the same way up
to numbers. -/
theorem advance_renumbered (texts : List String) : ∀ {m m' : Machine}, Renumbered d m m' →
    Renumbered d (m.advance texts).1 (m'.advance texts).1 ∧
      EndsRenumbered d (m.advance texts).2 (m'.advance texts).2 := by
  induction texts with
  | nil =>
    intro m m' h
    refine ⟨{ h with status := rfl }, ?_⟩
    simp only [advance, h.lastValue]
    exact .completed m'.lastValue
  | cons text rest ih =>
    intro m m' h
    cases hcall : Statement.isCall m.function text with
    | true =>
      have hcall' : Statement.isCall m'.function text = true := by rw [← h.function, hcall]
      rw [advance_of_call hcall, advance_of_call hcall']
      refine ⟨{ h with status := rfl, live := ?_, nextId := h.nextId.succ }, ?_⟩
      · exact .some ⟨h.nextId, rfl, h.env, rfl, h.lastValue⟩
      · simp only [suspend, h.function, h.env]
        exact .suspended _ h.nextId h.nextId
    | false =>
      have hcall' : Statement.isCall m'.function text = false := by rw [← h.function, hcall]
      cases hexec : Statement.exec m.env (Statement.classify text) with
      | wrote env =>
        rw [advance_of_wrote hcall hexec, advance_of_wrote hcall' (h.env ▸ hexec)]
        exact ih { h with env := rfl }
      | value v =>
        rw [advance_of_value hcall hexec, advance_of_value hcall' (h.env ▸ hexec)]
        exact ih { h with lastValue := rfl }
      | raised message =>
        rw [advance_of_raised hcall hexec, advance_of_raised hcall' (h.env ▸ hexec)]
        exact ⟨{ h with status := rfl }, .script message⟩

theorem run_renumbered (h : Renumbered d m m') (source : String) :
    Renumbered d (m.run source).1 (m'.run source).1 ∧
      EndsRenumbered d (m.run source).2 (m'.run source).2 := by
  have hlive := h.live
  generalize hk : m.live = live at hlive
  generalize hk' : m'.live = live' at hlive
  cases hlive with
  | none =>
    rw [run_of_free hk, run_of_free hk']
    exact advance_renumbered _ { h with lastValue := rfl, status := rfl }
  | some hcont =>
    simp only [run, hk, hk']
    exact ⟨h, .alreadySuspended hcont.id⟩

/-- An answer is taken by both machines or by neither: the awaited number and the given one are the
same for one of them if they are for the other. -/
theorem resume_renumbered (h : Renumbered d m m') {id id' : Nat} (hid : Offset d id id')
    (value : Value) :
    Renumbered d (m.resume id value).1 (m'.resume id' value).1 ∧
      EndsRenumbered d (m.resume id value).2 (m'.resume id' value).2 := by
  have hlive := h.live
  generalize hk : m.live = live at hlive
  generalize hk' : m'.live = live' at hlive
  cases hlive with
  | none =>
    simp only [resume, hk, hk']
    exact ⟨h, .notSuspended hid⟩
  | @some k k' hcont =>
    by_cases heq : k.id = id
    · have heq' : k'.id = id' := (hcont.id.eq_iff hid).mp heq
      simp only [resume, hk, hk', if_pos heq, if_pos heq', ← h.env, ← hcont.binding,
        ← hcont.remaining, ← hcont.lastValue]
      exact advance_renumbered k.remaining
        { h with env := rfl, lastValue := rfl, status := rfl, live := .none }
    · have heq' : ¬ k'.id = id' := (hcont.id.eq_iff hid).not.mp heq
      simp only [resume, hk, hk', if_neg heq, if_neg heq']
      exact ⟨h, .mismatch hcont.id hid⟩

/-- Calls that agree up to numbers keep machines agreeing up to numbers. -/
theorem call_renumbered (h : Renumbered d m m') (hc : c.Renumbered d c') :
    Renumbered d (m.call c).1 (m'.call c').1 ∧ (m.call c).2.Renumbered d (m'.call c').2 := by
  cases hc with
  | run source =>
    obtain ⟨hm, hr⟩ := run_renumbered h source
    exact ⟨hm, .ended hr⟩
  | resume value hid =>
    obtain ⟨hm, hr⟩ := resume_renumbered h hid value
    exact ⟨hm, .ended hr⟩
  | dispose =>
    exact ⟨{ h with env := rfl, live := .none, lastValue := rfl, status := rfl }, .disposed⟩

/-- A machine that dropped everything is a fresh one that starts with its next number. -/
theorem dispose_eq_new (m : Machine) :
    m.dispose = new { suspendFunction := m.function, firstId := m.nextId } := rfl

/-- **Numbers are names**: two machines that agree up to numbers bring the same histories up to
numbers, and agree up to numbers afterwards, whatever calls are made that agree up to numbers. In
particular, after everything was dropped a machine brings the history of a fresh one that has its
function and starts with its next number. -/
theorem history_renumbered :
    (∀ (d : Int) (m m' : Machine), Renumbered d m m' → ∀ calls calls' : List Call,
        List.Forall₂ (Call.Renumbered d) calls calls' →
          List.Forall₂ (Event.Renumbered d) (m.history calls) (m'.history calls') ∧
            Renumbered d (m.after calls) (m'.after calls')) ∧
      ∀ (m : Machine) (later : List Call),
        (m.call .dispose).1.history later =
            (new { suspendFunction := m.function, firstId := m.nextId }).history later ∧
          (m.call .dispose).1.after later =
            (new { suspendFunction := m.function, firstId := m.nextId }).after later := by
  constructor
  · intro d m m' h calls calls' hcalls
    induction hcalls generalizing m m' with
    | nil => exact ⟨.nil, h⟩
    | cons hc _ ih =>
      obtain ⟨hm, hreply⟩ := call_renumbered h hc
      obtain ⟨hhistory, hafter⟩ := ih _ _ hm
      exact ⟨.cons ⟨hc, hreply⟩ hhistory, hafter⟩
  · intro m later
    rw [call, dispose_eq_new]
    exact ⟨rfl, rfl⟩

/-- A machine that numbers from 8 on, and one that numbers from 1 on: an answer to the request after
the next is refused by both, and in the end they await answers under 9 and under 2. -/
theorem history_renumbered_seven :
    let source := "const a = fetch('/a'); fetch(a)"
    let calls := [Call.run source, .resume 9 .null, .resume 8 (.str "/b")]
    let calls' := [Call.run source, .resume 2 .null, .resume 1 (.str "/b")]
    Renumbered (-7) (new { firstId := 8 }) (new {}) ∧
      List.Forall₂ (Call.Renumbered (-7)) calls calls' ∧
      ((new { firstId := 8 }).after calls).live.map Continuation.id = some 9 ∧
      ((new {}).after calls').live.map Continuation.id = some 2 ∧
      List.Forall₂ (Event.Renumbered (-7)) ((new { firstId := 8 }).history calls)
        ((new {}).history calls') := by
  intro source calls calls'
  have machines : Renumbered (-7) (new { firstId := 8 }) (new {}) :=
    ⟨rfl, rfl, rfl, rfl, .none, rfl⟩
  have alike : List.Forall₂ (Call.Renumbered (-7)) calls calls' :=
    .cons (.run source) (.cons (.resume .null rfl) (.cons (.resume (.str "/b") rfl) .nil))
  exact ⟨machines, alike, by decide +kernel, by decide +kernel,
    (history_renumbered.1 (-7) _ _ machines calls calls' alike).1⟩

end Machine

end Resumable
