import Resumable.Value.Equality

/-!
# Environments

The variables of a script, in order of arrival. There is one scope: declaring a variable and
assigning to it both write the same list.

This models `Environment`. A copy that `snapshot` takes is the environment itself, since nothing
here changes in place.
-/

namespace Resumable

/-- The variables of a script. -/
structure Environment where
  /-- The variables with their values, in order of arrival. -/
  bindings : List (String × Value) := []

namespace Environment

/-- The environment without variables. -/
def empty : Environment := {}

/-- The value of a variable. -/
def get? (env : Environment) (name : String) : Option Value := Fields.get? env.bindings name

/-- Whether a variable is bound. -/
def contains (env : Environment) (name : String) : Bool := (env.get? name).isSome

/-- Binds a variable; one that is bound keeps its place. -/
def set (env : Environment) (name : String) (value : Value) : Environment :=
  ⟨Fields.insert name value env.bindings⟩

/-- Changes the value of a variable if it is bound. -/
def modify (env : Environment) (name : String) (f : Value → Value) : Environment :=
  match env.get? name with
  | some v => env.set name (f v)
  | none => env

/-- The names of the variables, in order of arrival. -/
def names (env : Environment) : List String := Fields.names env.bindings

/-- The number of variables. -/
def size (env : Environment) : Nat := env.bindings.length

/-- The environment that results from binding variables one after the other. -/
def ofBindings (bs : List (String × Value)) : Environment := ⟨Fields.ofEntries bs⟩

/-- Binding a variable changes its value and no other one's. -/
theorem get?_set (env : Environment) (name other : String) (value : Value) :
    (env.set name value).get? other = if other = name then some value else env.get? other :=
  Fields.get?_insert name other value env.bindings

theorem names_set (env : Environment) (name : String) (value : Value) :
    (env.set name value).names = if name ∈ env.names then env.names else env.names ++ [name] :=
  Fields.names_insert name value env.bindings

/-- Changing the value of a variable changes no other one's. -/
theorem get?_modify (env : Environment) (name other : String) (f : Value → Value) :
    (env.modify name f).get? other =
      if other = name then (env.get? name).map f else env.get? other := by
  unfold modify
  split
  · rename_i v hget
    rw [get?_set, hget, Option.map_some]
  · rename_i hget
    by_cases h : other = name
    · rw [if_pos h, h, hget, Option.map_none]
    · rw [if_neg h]

/-- Changing the value of a variable neither binds a name nor moves one. -/
theorem names_modify (env : Environment) (name : String) (f : Value → Value) :
    (env.modify name f).names = env.names := by
  unfold modify
  split
  · rename_i v hget
    have hmem : name ∈ env.names := Fields.mem_names_of_get? hget
    rw [names_set, if_pos hmem]
  · rfl

/-- Whether two environments bind the same names to equal values, in whatever order. -/
def same (a b : Environment) : Bool :=
  a.bindings.length == b.bindings.length && Value.sameFields a.bindings b.bindings

end Environment

end Resumable
