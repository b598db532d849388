import Resumable.Toml.Moment
import Resumable.Tree

/-!
# TOML as it is written

The pieces of a document before its tables are put together: a key is a path of names, a value is
a scalar, a moment, an array or an inline table, and a line opens a table, opens a new element of
an array of tables, or gives a key its value.

This models documents in TOML as `build` reads them from a file.
-/

namespace Resumable

/-- A value as it is written. -/
inductive Toml where
  /-- A single value. -/
  | scalar (s : Scalar)
  /-- A date or time. -/
  | moment (m : Toml.Moment)
  /-- An array. -/
  | array (items : List Toml)
  /-- A table in braces: the names before the last of each key, its last name, and its value. -/
  | inline (entries : List (List String × String × Toml))

namespace Toml

/-- A path of at least one name. -/
structure Key where
  /-- The names before the last. -/
  parents : List String
  /-- The last name. -/
  last : String
  deriving DecidableEq

/-- A line of a document that says something. -/
inductive Line where
  /-- Opens a table. -/
  | table (key : Key)
  /-- Opens a new element of an array of tables. -/
  | element (key : Key)
  /-- Gives a key of the open table its value. -/
  | entry (key : Key) (value : Toml)

end Toml

end Resumable
