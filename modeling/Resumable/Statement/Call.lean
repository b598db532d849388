import Resumable.Expr.Eval
import Resumable.Source.Split

/-!
# Calls that leave the script

A statement calls the outside if it holds the name of the configured function with a parenthesis
right behind it. The address of the request is the value of the call's first argument, whatever
stands around the call: arguments reach up to the last parenthesis of the statement, which only
blanks and one semicolon may follow. An argument that starts with a quote gives its text even if it
is empty; any other one that counts as false, and a missing one, gives no address.

This models `SuspendMatcher` with `is_suspend_point` and `extract_url`. Its pattern for the argument
of a call is written out as readers of its parts.
-/

namespace Resumable.Statement

/-- The address of a request whose argument gives none. -/
def unknownAddress : String := "unknown"

/-- What follows a text at the start of another. -/
def after? : List Char → List Char → Option (List Char)
  | [], cs => some cs
  | _ :: _, [] => none
  | p :: ps, c :: cs => if p = c then after? ps cs else none

/-- Whether a text occurs in another. -/
def occurs (pattern : List Char) : List Char → Bool
  | [] => pattern.isEmpty
  | c :: cs => (after? pattern (c :: cs)).isSome || occurs pattern cs

/-- Whether a statement calls the function. -/
def isCall (function : String) (text : String) : Bool :=
  occurs (function.toList ++ ['(']) text.toList

/-- A text before and behind its last closing parenthesis. -/
def aroundLast? (cs : List Char) : Option (List Char × List Char) :=
  match cs.reverse.span (· != ')') with
  | (_, []) => none
  | (behind, _ :: before) => some (before.reverse, behind.reverse)

/-- Whether nothing but blanks and one semicolon at the very end stands in a text. -/
def isEnding (cs : List Char) : Bool :=
  match Text.trimStart cs with
  | [] => true
  | [';'] => true
  | _ => false

/-- The arguments of a call that starts a text. -/
def argumentsAt? (function : List Char) (cs : List Char) : Option (List Char) :=
  match (after? function cs).map Text.trimStart with
  | some ('(' :: rest) => match aroundLast? rest with
    | some (arguments, behind) =>
      if !arguments.isEmpty && isEnding behind then some arguments else none
    | none => none
  | _ => none

/-- The arguments of the first call in a text that has any. -/
def arguments? (function : List Char) : List Char → Option (List Char)
  | [] => argumentsAt? function []
  | c :: cs => (argumentsAt? function (c :: cs)).or (arguments? function cs)

/-- The address that the text of an argument gives. -/
def addressOf (env : Environment) (argument : List Char) : String :=
  let quoted := argument.head?.any Source.isQuote
  match Expr.evaluateTrimmed env argument with
  | .undefined => unknownAddress
  | .str s => if quoted || !s.isEmpty then s else unknownAddress
  | v => if quoted || v.isTruthy then v.display else unknownAddress

/-- The address that a statement requests. -/
def address (function : String) (env : Environment) (text : String) : String :=
  match arguments? function.toList text.toList with
  | some arguments => addressOf env (Text.trim (Source.firstPiece ',' arguments))
  | none => unknownAddress

end Resumable.Statement
