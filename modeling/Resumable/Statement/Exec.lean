import Resumable.Expr.Eval
import Resumable.Statement.Shape

/-!
# Executing a statement

A statement that does not leave the script either writes the environment, has a value, or raises
an error. Only a raised error stops a script: an expression without a value is absent, and writing
a field of something that is no object changes nothing.

This models `execute_statement` and `assign_field`. Why the write of a field was skipped goes to the
log only and is not modelled.
-/

namespace Resumable.Statement

/-- What executing a statement does. -/
inductive Effect where
  /-- The environment is now this one. -/
  | wrote (env : Environment)
  /-- The statement has a value. -/
  | value (v : Value)
  /-- The statement raises an error. -/
  | raised (message : String)

/-- A value with one of its fields written, if it is an object. -/
def writeField (field : String) (value : Value) : Value → Value
  | .obj fields => .obj (Fields.insert field value fields)
  | v => v

/-- Executes a statement of a shape. -/
def exec (env : Environment) : Shape → Effect
  | .declare name expr => .wrote (env.set name (Expr.evaluate env expr.toList))
  | .assign name expr => .wrote (env.set name (Expr.evaluate env expr.toList))
  | .assignField object field expr =>
    .wrote (env.modify object (writeField field (Expr.evaluate env expr.toList)))
  | .raise message => .raised message
  | .expression text => .value (Expr.evaluate env text.toList)

end Resumable.Statement
