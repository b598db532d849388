import Resumable.Proofs.Machine.Conversation

/-!
# Control does not depend on data

Which statements are executed, where a script stops, under which numbers it asks, what it binds, how
it ends and which names it creates is written in its text. The values of variables and answers show
in addresses and in other values, and nowhere else.

## The model

* `Machine.Alike`, `EndsAlike` and `Conversation.Alike`: two machines, two endings and two whole
  conversations agree on everything but values and addresses.

## What is proved

* `Statement.exec_alike`: in any two environments a statement has the same kind of effect, and
  writes the same names.
* `advance_alike` and `resume_alike`: machines that are alike are so after executing the same
  statements, and after answers to the same request with any two values.
* `converse_run_alike`: so it is for a whole script, after every answer.
-/

namespace Resumable

/-! ### Endings and effects -/

/-- Two continuations go on alike: they differ in variables and values only. -/
structure Continuation.Alike (k k' : Continuation) : Prop where
  /-- They await an answer under the same number. -/
  id : k.id = k'.id
  /-- They bind it to the same variable, or to none. -/
  binding : k.binding = k'.binding
  /-- The same statements are left. -/
  remaining : k.remaining = k'.remaining

/-- Two calls end alike: they differ in addresses and values only. -/
inductive EndsAlike : Except MachineError Outcome → Except MachineError Outcome → Prop where
  /-- Both make a request under the same numbers. -/
  | suspended (id : Nat) {request request' : Request} (same : request.id = request'.id) :
      EndsAlike (.ok (.suspended id request)) (.ok (.suspended id request'))
  /-- Both execute all statements. -/
  | completed (v v' : Value) : EndsAlike (.ok (.completed v)) (.ok (.completed v'))
  /-- Both fail with the same error. -/
  | failed (e : MachineError) : EndsAlike (.error e) (.error e)

/-- Two effects of a statement are alike; `named` says whether the names of the variables have to
agree. -/
inductive Statement.Effect.Alike (named : Prop) : Effect → Effect → Prop where
  /-- Both write the environment. -/
  | wrote {env env' : Environment} (names : named → env.names = env'.names) :
      Alike named (.wrote env) (.wrote env')
  /-- Both are values. -/
  | value (v v' : Value) : Alike named (.value v) (.value v')
  /-- Both are the same error. -/
  | raised (message : String) : Alike named (.raised message) (.raised message)

/-! ### One statement -/

theorem Environment.names_set_congr {env env' : Environment} (name : String) (v v' : Value)
    (h : env.names = env'.names) : (env.set name v).names = (env'.set name v').names := by
  rw [names_set, names_set, h]

/-- In any two environments a statement has the same kind of effect. -/
theorem Statement.exec_alike {named : Prop} {env env' : Environment}
    (h : named → env.names = env'.names) (shape : Shape) :
    Effect.Alike named (exec env shape) (exec env' shape) := by
  cases shape with
  | declare name expr => exact .wrote fun hn => Environment.names_set_congr name _ _ (h hn)
  | assign name expr => exact .wrote fun hn => Environment.names_set_congr name _ _ (h hn)
  | assignField object field expr =>
    refine .wrote fun hn => ?_
    rw [Environment.names_modify, Environment.names_modify, h hn]
  | raise message => exact .raised message
  | expression text => exact .value _ _

namespace Machine

/-! ### Machines and conversations -/

/-- Two machines are alike: they differ in variables and values only. -/
structure Alike (m m' : Machine) : Prop where
  /-- The same calls leave the script. -/
  function : m.function = m'.function
  /-- The next request gets the same number. -/
  nextId : m.nextId = m'.nextId
  /-- Their work is in the same state. -/
  status : m.status = m'.status
  /-- Both await no answer, or go on alike after it. -/
  live : Option.Rel Continuation.Alike m.live m'.live

/-- Two conversations are alike: they differ in addresses, variables and values only. -/
structure Conversation.Alike (c c' : Conversation) : Prop where
  /-- The same numbers were given to requests. -/
  requests : c.requests.map Request.id = c'.requests.map Request.id
  /-- The machines are alike. -/
  machine : Machine.Alike c.machine c'.machine
  /-- The last calls ended alike. -/
  result : EndsAlike c.result c'.result

/-- What a call leaves on two machines is alike, and, if `named`, so are the names. -/
structure CallAlike (named : Prop) (s s' : Machine × Except MachineError Outcome) : Prop where
  /-- The machines are alike. -/
  machine : Alike s.1 s'.1
  /-- The names of the variables agree. -/
  names : named → s.1.env.names = s'.1.env.names
  /-- The calls end alike. -/
  result : EndsAlike s.2 s'.2

variable {named : Prop} {m m' : Machine}

theorem names_bindAnswer {env env' : Environment} (binding : Option String) (v v' : Value)
    (h : env.names = env'.names) :
    (bindAnswer env binding v).names = (bindAnswer env' binding v').names := by
  cases binding with
  | none => exact h
  | some name => exact Environment.names_set_congr name v v' h

/-! ### One call -/

/-- Executing the same statements keeps machines alike, whatever their variables hold. -/
theorem advance_alike (texts : List String) : ∀ {m m' : Machine}, Alike m m' →
    (named → m.env.names = m'.env.names) → CallAlike named (m.advance texts) (m'.advance texts) := by
  induction texts with
  | nil =>
    intro m m' h hnames
    exact ⟨{ h with status := rfl }, hnames, .completed _ _⟩
  | cons text rest ih =>
    intro m m' h hnames
    cases hcall : Statement.isCall m.function text with
    | true =>
      have hcall' : Statement.isCall m'.function text = true := by rw [← h.function, hcall]
      rw [advance_of_call hcall, advance_of_call hcall']
      refine ⟨⟨h.function, ?_, rfl, .some ⟨h.nextId, rfl, rfl⟩⟩, hnames, ?_⟩
      · exact congrArg (· + 1) h.nextId
      · simp only [suspend, h.nextId]
        exact .suspended _ rfl
    | false =>
      have hcall' : Statement.isCall m'.function text = false := by rw [← h.function, hcall]
      have heffect := Statement.exec_alike hnames (Statement.classify text)
      -- The two effects are of one kind, so that both machines take the same branch.
      generalize hexec : Statement.exec m.env (Statement.classify text) = effect at heffect
      generalize hexec' : Statement.exec m'.env (Statement.classify text) = effect' at heffect
      cases heffect with
      | wrote names =>
        rw [advance_of_wrote hcall hexec, advance_of_wrote hcall' hexec']
        exact ih { h with } names
      | value v v' =>
        rw [advance_of_value hcall hexec, advance_of_value hcall' hexec']
        exact ih { h with } hnames
      | raised message =>
        rw [advance_of_raised hcall hexec, advance_of_raised hcall' hexec']
        exact ⟨{ h with status := rfl }, hnames, .failed _⟩

/-- A script that is started on two machines which await no answer leaves them alike. -/
theorem run_alike (hfunction : m.function = m'.function) (hnext : m.nextId = m'.nextId)
    (free : m.live = none) (free' : m'.live = none) (source : String) :
    CallAlike (m.env.names = m'.env.names) (m.run source) (m'.run source) := by
  rw [run_of_free free, run_of_free free']
  refine advance_alike (Source.statements source) ⟨hfunction, hnext, rfl, ?_⟩ id
  simp only [free, free']
  exact .none

/-- Answers under the same number keep machines alike, whatever the answers are. -/
theorem resume_alike (h : Alike m m') (hnames : named → m.env.names = m'.env.names) (id : Nat)
    (v v' : Value) : CallAlike named (m.resume id v) (m'.resume id v') := by
  have hlive := h.live
  generalize hk : m.live = live at hlive
  generalize hk' : m'.live = live' at hlive
  cases hlive with
  | none =>
    simp only [resume, hk, hk']
    exact ⟨h, hnames, .failed _⟩
  | @some k k' hcont =>
    simp only [resume, hk, hk', ← hcont.id, ← hcont.binding, ← hcont.remaining]
    split
    · refine advance_alike k.remaining ⟨h.function, h.nextId, rfl, .none⟩ fun hn => ?_
      exact names_bindAnswer k.binding v v' (hnames hn)
    · exact ⟨h, hnames, .failed _⟩

/-! ### Whole scripts -/

/-- From calls that left machines alike, conversations with as many answers stay alike. -/
theorem converse_alike (answers : List Value) : ∀ {answers' : List Value}
    {s s' : Machine × Except MachineError Outcome}, answers.length = answers'.length →
    CallAlike named s s' →
      (converse answers s).Alike (converse answers' s') ∧
        (named → (converse answers s).machine.env.names =
          (converse answers' s').machine.env.names) := by
  induction answers with
  | nil =>
    rintro answers' ⟨m, r⟩ ⟨m', r'⟩ hlength ⟨hm, hnames, hr⟩
    obtain rfl := List.length_eq_zero_iff.mp hlength.symm
    cases hr with
    | suspended id same => exact ⟨⟨congrArg ([·]) same, hm, .suspended id same⟩, hnames⟩
    | completed v v' => exact ⟨⟨rfl, hm, .completed v v'⟩, hnames⟩
    | failed e => exact ⟨⟨rfl, hm, .failed e⟩, hnames⟩
  | cons answer answers ih =>
    rintro answers' ⟨m, r⟩ ⟨m', r'⟩ hlength ⟨hm, hnames, hr⟩
    obtain ⟨answer', answers', rfl⟩ := List.exists_cons_of_length_eq_add_one hlength.symm
    cases hr with
    | suspended id same =>
      -- The request was answered on both sides, so both go on with what is left.
      obtain ⟨hc, hcnames⟩ := ih (Nat.succ.inj hlength) (resume_alike hm hnames id answer answer')
      refine ⟨⟨?_, hc.machine, hc.result⟩, hcnames⟩
      exact List.cons_eq_cons.mpr ⟨same, hc.requests⟩
    | completed v v' => exact ⟨⟨rfl, hm, .completed v v'⟩, hnames⟩
    | failed e => exact ⟨⟨rfl, hm, .failed e⟩, hnames⟩

/-- **Control does not depend on data**: a script is started on two machines with the same function
and the same next number that await no answer, and is answered with two lists of as many values.
After every answer the conversations are alike, whatever the variables and the answers are. If both
machines started with the same names, they have the same names all the time. -/
theorem converse_run_alike (m m' : Machine) (hfunction : m.function = m'.function)
    (hnext : m.nextId = m'.nextId) (free : m.live = none) (free' : m'.live = none)
    (source : String) (answers answers' : List Value)
    (hlength : answers.length = answers'.length) :
    (∀ n, (converse (answers.take n) (m.run source)).Alike
        (converse (answers'.take n) (m'.run source))) ∧
      (m.env.names = m'.env.names → ∀ n,
        (converse (answers.take n) (m.run source)).machine.env.names =
          (converse (answers'.take n) (m'.run source)).machine.env.names) := by
  have htake : ∀ n, (answers.take n).length = (answers'.take n).length := by
    intro n
    rw [List.length_take, List.length_take, hlength]
  have hrun := run_alike hfunction hnext free free' source
  constructor
  · intro n
    exact (converse_alike _ (htake n) hrun).1
  · intro hnames n
    exact (converse_alike _ (htake n) hrun).2 hnames

/-- Two machines with different values ask for different addresses, under the same numbers and with
the same names. -/
theorem converse_run_alike_addresses :
    let m : Machine := { new {} with env := ⟨[("a", .str "/a")]⟩ }
    let m' : Machine := { new {} with env := ⟨[("a", .bool true)]⟩ }
    let source := "const b = fetch(a); fetch(b); b"
    let c := converse [.str "/b"] (m.run source)
    let c' := converse [.null] (m'.run source)
    c.requests = [⟨1, "/a"⟩, ⟨2, "/b"⟩] ∧ c'.requests = [⟨1, "true"⟩, ⟨2, "unknown"⟩] ∧
      c.Alike c' ∧ m.env.names = m'.env.names ∧
      c.machine.env.names = c'.machine.env.names := by
  intro m m' source c c'
  have halike := converse_run_alike m m' rfl rfl rfl rfl source [.str "/b"] [.null] rfl
  exact ⟨by decide +kernel, by decide +kernel, halike.1 1, rfl, halike.2 rfl 1⟩

end Machine

end Resumable
