import Resumable.Proofs.Machine.Calls

/-!
# Variables keep their place

A statement writes one variable at most, and all it can do to the names is to put a new one behind
the others. So the names of a machine's variables are, at any time, the first names of all later
times, until everything is dropped.

## The model

* `Shape.target?`: the variable that a statement writes, and `Effect.env` the variables behind it.
* `FieldWritten`: what writing a field makes of the value of a variable.
* `Environment.GrowsTo`: names are added behind those that are there, and none twice.

## What is proved

* `exec_frame`, `exec_growsTo`: what a statement leaves as it was, and what it does to the names.
* `fieldWritten_exec`: an assignment to a field writes that field and nothing else.
* `after_growsTo`: names grow over all sequences of calls that drop nothing.
* `names_keep_place`: all of this together.
-/

namespace Resumable

/-! ### Names -/

namespace Environment

/-- Variables were only added: the names of one environment are the first names of another, and
the other's names do not repeat, if those of the first do not. -/
structure GrowsTo (before after : Environment) : Prop where
  /-- The names are where they were. -/
  places : before.names <+: after.names
  /-- No name comes to stand twice. -/
  distinct : before.names.Nodup → after.names.Nodup

theorem GrowsTo.refl (env : Environment) : env.GrowsTo env where
  places := List.prefix_refl _
  distinct h := h

theorem GrowsTo.trans {a b c : Environment} (hab : a.GrowsTo b) (hbc : b.GrowsTo c) :
    a.GrowsTo c where
  places := hab.places.trans hbc.places
  distinct h := hbc.distinct (hab.distinct h)

theorem growsTo_set (env : Environment) (name : String) (value : Value) :
    env.GrowsTo (env.set name value) where
  places := Fields.prefix_names_insert name value env.bindings
  distinct h := Fields.nodup_names_insert h name value

theorem growsTo_modify (env : Environment) (name : String) (f : Value → Value) :
    env.GrowsTo (env.modify name f) where
  places := by simp only [names_modify, List.prefix_refl]
  distinct h := by simpa only [names_modify] using h

end Environment

/-! ### One statement -/

namespace Statement

/-- The variable that a statement of a shape writes. -/
def Shape.target? : Shape → Option String
  | .declare name _ => some name
  | .assign name _ => some name
  | .assignField object _ _ => some object
  | .raise _ => none
  | .expression _ => none

/-- The variables behind a statement: those before it, unless its effect is to write. -/
def Effect.env (before : Environment) : Effect → Environment
  | .wrote after => after
  | .value _ => before
  | .raised _ => before

/-- What writing a field makes of the value of a variable, which may be unbound. -/
inductive FieldWritten (field : String) (value : Value) : Option Value → Option Value → Prop where
  /-- An object has the value in the field. Its other fields are what and where they were, and a
  field that it did not have comes last. -/
  | object {fields fields' : List (String × Value)}
      (written : Fields.get? fields' field = some value)
      (others : Fields.erase field fields' = Fields.erase field fields)
      (places : Fields.names fields <+: Fields.names fields') :
      FieldWritten field value (some (.obj fields)) (some (.obj fields'))
  /-- Anything else stays what it is. -/
  | other {v : Option Value} (plain : ∀ fields, v ≠ some (.obj fields)) : FieldWritten field value v v

/-- A statement changes the value of no variable but the one it writes. -/
theorem exec_frame {env : Environment} {shape : Shape} {other : String}
    (h : shape.target? ≠ some other) :
    ((exec env shape).env env).get? other = env.get? other := by
  cases shape with
  | declare name expr | assign name expr =>
    exact (env.get?_set ..).trans (if_neg fun heq => h (congrArg some heq.symm))
  | assignField object field expr =>
    exact (env.get?_modify ..).trans (if_neg fun heq => h (congrArg some heq.symm))
  | raise message | expression text => rfl

theorem exec_growsTo (env : Environment) (shape : Shape) :
    env.GrowsTo ((exec env shape).env env) := by
  cases shape with
  | declare name expr | assign name expr => exact env.growsTo_set name _
  | assignField object field expr => exact env.growsTo_modify object _
  | raise message | expression text => exact .refl env

theorem fieldWritten_writeField (field : String) (value : Value) (v : Option Value) :
    FieldWritten field value v (v.map (writeField field value)) := by
  cases v with
  | none => exact .other fun fields h => Option.some_ne_none _ h.symm
  | some v =>
    cases v with
    | obj fields =>
      refine .object ?_ (Fields.erase_insert field value fields)
        (Fields.prefix_names_insert field value fields)
      rw [Fields.get?_insert, if_pos rfl]
    | _ => exact .other fun fields h => by simp at h

/-- An assignment to a field binds and removes no variable, and writes the field and nothing
else. -/
theorem fieldWritten_exec (env : Environment) (object field expr : String) :
    let after := (exec env (.assignField object field expr)).env env
    after.names = env.names ∧
      FieldWritten field (Expr.evaluate env expr.toList) (env.get? object) (after.get? object) := by
  intro after
  refine ⟨env.names_modify object _, ?_⟩
  have hget : after.get? object =
      (env.get? object).map (writeField field (Expr.evaluate env expr.toList)) :=
    (env.get?_modify ..).trans (if_pos rfl)
  rw [hget]
  exact fieldWritten_writeField ..

end Statement

/-! ### Calls -/

namespace Machine

theorem advance_growsTo (texts : List String) : ∀ m : Machine,
    m.env.GrowsTo (m.advance texts).1.env := by
  induction texts with
  | nil => exact fun m => .refl m.env
  | cons text rest ih =>
    intro m
    cases hcall : Statement.isCall m.function text with
    | true =>
      rw [advance_of_call hcall]
      exact .refl m.env
    | false =>
      have hstep := Statement.exec_growsTo m.env (Statement.classify text)
      cases hexec : Statement.exec m.env (Statement.classify text) with
      | wrote env =>
        rw [hexec] at hstep
        rw [advance_of_wrote hcall hexec]
        exact hstep.trans (ih { m with env := env })
      | value v =>
        rw [advance_of_value hcall hexec]
        exact ih { m with lastValue := v }
      | raised message =>
        rw [advance_of_raised hcall hexec]
        exact .refl m.env

/-- A machine that executes one statement has the variables behind it. -/
theorem env_advance_single {m : Machine} {text : String}
    (h : Statement.isCall m.function text = false) :
    (m.advance [text]).1.env = (Statement.exec m.env (Statement.classify text)).env m.env := by
  cases hexec : Statement.exec m.env (Statement.classify text) with
  | wrote env => rw [advance_of_wrote h hexec]; rfl
  | value v => rw [advance_of_value h hexec]; rfl
  | raised message => rw [advance_of_raised h hexec]; rfl

theorem bindAnswer_growsTo (env : Environment) (binding : Option String) (value : Value) :
    env.GrowsTo (bindAnswer env binding value) := by
  cases binding with
  | none => exact .refl env
  | some name => exact env.growsTo_set name value

/-- A call that drops nothing only adds variables. -/
theorem call_growsTo (m : Machine) {c : Call} (h : c ≠ .dispose) :
    m.env.GrowsTo (m.call c).1.env := by
  cases c with
  | run source =>
    cases hlive : m.live with
    | some k =>
      simp only [call, run, hlive]
      exact .refl m.env
    | none =>
      rw [call, run_of_free hlive]
      exact advance_growsTo _ { m with lastValue := .undefined, status := .running }
  | resume id value =>
    simp only [call, resume]
    split
    · exact .refl m.env
    · rename_i k hlive
      split
      · have hbound := bindAnswer_growsTo m.env k.binding value
        exact hbound.trans (advance_growsTo k.remaining
          { m with
            env := bindAnswer m.env k.binding value
            live := none
            lastValue := k.lastValue
            status := .running })
      · exact .refl m.env
  | dispose => exact absurd rfl h

theorem after_growsTo (calls : List Call) : ∀ m : Machine, Call.dispose ∉ calls →
    m.env.GrowsTo (m.after calls).env := by
  induction calls with
  | nil => exact fun m _ => .refl m.env
  | cons c calls ih =>
    intro m h
    rw [List.mem_cons, not_or] at h
    exact (m.call_growsTo (Ne.symm h.1)).trans (ih (m.call c).1 h.2)

/-- **Variables keep their place**: a statement changes no variable but its target. If it is an
assignment to a field, it binds and removes none, and of the target, if that is an object, it writes
this one field and leaves the others as they are and where they are; if it raises an error or is an
expression, it changes nothing. A machine that executes the statement has the variables behind it.
Over any sequence of calls that drop nothing, the names of the variables before are the first names
after, and none of them comes to stand twice. -/
theorem names_keep_place :
    (∀ (env : Environment) (text : String),
      let shape := Statement.classify text
      let after := (Statement.exec env shape).env env
      (∀ other, shape.target? ≠ some other → after.get? other = env.get? other) ∧
        (∀ object field expr, shape = .assignField object field expr →
          after.names = env.names ∧
            Statement.FieldWritten field (Expr.evaluate env expr.toList) (env.get? object)
              (after.get? object)) ∧
        (shape.target? = none → after = env) ∧
        ∀ m : Machine, m.env = env → Statement.isCall m.function text = false →
          (m.advance [text]).1.env = after) ∧
      ∀ (m : Machine) (calls : List Call), Call.dispose ∉ calls →
        m.env.names <+: (m.after calls).env.names ∧
          (m.env.names.Nodup → (m.after calls).env.names.Nodup) := by
  refine ⟨fun env text => ?_, fun m calls h => ?_⟩
  · intro shape after
    refine ⟨fun other hother => Statement.exec_frame hother, ?_, fun hnone => ?_, ?_⟩
    · intro object field expr hshape
      have hafter : after = (Statement.exec env (.assignField object field expr)).env env := by
        rw [← hshape]
      rw [hafter]
      exact Statement.fieldWritten_exec env object field expr
    · show (Statement.exec env shape).env env = env
      cases hshape : shape with
      | raise message | expression text => rfl
      | _ => simp [hshape, Statement.Shape.target?] at hnone
    · rintro m rfl hcall
      exact env_advance_single hcall
  · have hgrows := after_growsTo calls m h
    exact ⟨hgrows.places, hgrows.distinct⟩

/-- A field is written, a variable is written again, and an answer binds a new one. -/
theorem names_keep_place_answered :
    let m : Machine := { new {} with env := ⟨[("b", .null), ("a", .obj [])]⟩ }
    let calls : List Call := [.run "a.x = 1; let c = fetch(b); b = a", .resume 1 .null]
    Call.dispose ∉ calls ∧ m.env.names.Nodup ∧ (m.after calls).env.names = ["b", "a", "c"] ∧
      m.env.names <+: (m.after calls).env.names ∧ (m.after calls).env.names.Nodup := by
  intro m calls
  have hcalls : Call.dispose ∉ calls := by simp [calls]
  have hdistinct : m.env.names.Nodup := by decide
  have hplaces := names_keep_place.2 m calls hcalls
  exact ⟨hcalls, hdistinct, by decide +kernel, hplaces.1, hplaces.2 hdistinct⟩

end Machine

end Resumable
