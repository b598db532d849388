import Resumable.Source.Scanner
import Resumable.Text.Blank
import Resumable.Text.Word

/-!
# Shapes of statements

A statement is known by its first words. A declaration is one of three keywords, a name, an equals
sign and an expression; an assignment lacks the keyword; an assignment to a field has a name, a
point and a name on its left. None of the three is meant if a second equals sign follows the first.
The word `throw` raises an error, and everything else is an expression.

This models `classify` and `extract_binding_target`. Their patterns are written out as readers of
their parts.
-/

namespace Resumable.Statement

/-- The shape of a statement. -/
inductive Shape where
  /-- A declared variable and the text of its value. -/
  | declare (name : String) (expr : String)
  /-- An assigned variable and the text of its value. -/
  | assign (name : String) (expr : String)
  /-- An assigned field of a variable and the text of its value. -/
  | assignField (object : String) (field : String) (expr : String)
  /-- An error that is raised. -/
  | raise (message : String)
  /-- The text of an expression. -/
  | expression (text : String)
  deriving DecidableEq

/-! ### Parts of a statement -/

/-- What follows the keyword of a declaration. -/
def afterKeyword? : List Char → Option (List Char)
  | 'c' :: 'o' :: 'n' :: 's' :: 't' :: rest => some rest
  | 'l' :: 'e' :: 't' :: rest => some rest
  | 'v' :: 'a' :: 'r' :: rest => some rest
  | _ => none

/-- A word at the start of a text, and what follows it. -/
def word? (cs : List Char) : Option (String × List Char) :=
  match Text.spanWord cs with
  | ([], _) => none
  | (w, rest) => some (String.ofList w, rest)

/-- The variable at the start of a declaration, and what follows it. -/
def declared? (cs : List Char) : Option (String × List Char) :=
  match afterKeyword? cs with
  | some (c :: rest) => if Text.isBlank c then word? (Text.trimStart rest) else none
  | _ => none

/-- The field at the start of an assignment to one, and what follows it. -/
def fieldOf? (cs : List Char) : Option (String × String × List Char) :=
  match word? cs with
  | some (object, '.' :: rest) => (word? rest).map fun (field, rest) => (object, field, rest)
  | _ => none

/-- The text behind an equals sign that blanks may precede. At least one character follows the
sign, and it is no second one. -/
def assigned? (cs : List Char) : Option String :=
  match Text.trimStart cs with
  | '=' :: '=' :: _ => none
  | '=' :: c :: rest => some (String.ofList (c :: rest))
  | _ => none

/-- The variable a declaration binds, if an equals sign follows it. -/
def bindingTarget? (cs : List Char) : Option String :=
  match declared? cs with
  | some (name, rest) => match Text.trimStart rest with
    | '=' :: _ => some name
    | _ => none
  | none => none

/-! ### Raised errors -/

/-- The message of an error that is raised without one. -/
def defaultMessage : String := "Error"

/-- The message at the start of a text: the word `Error`, a parenthesis, a quote, and the
characters up to the next quote of any kind, at least one. -/
def messageAt? : List Char → Option (List Char)
  | 'E' :: 'r' :: 'r' :: 'o' :: 'r' :: rest => match Text.trimStart rest with
    | '(' :: rest => match Text.trimStart rest with
      | q :: rest =>
        if Source.isQuote q then
          match rest.takeWhile (!Source.isQuote ·) with
          | [] => none
          | message => some message
        else none
      | [] => none
    | _ => none
  | _ => none

/-- The first message in a text. -/
def message? : List Char → Option (List Char)
  | [] => none
  | c :: cs => (messageAt? (c :: cs)).or (message? cs)

/-- Whether a text starts with the word `throw`. -/
def raises : List Char → Bool
  | 't' :: 'h' :: 'r' :: 'o' :: 'w' :: rest => match rest with
    | [] => true
    | c :: _ => !Text.isWord c
  | _ => false

/-! ### Classification -/

/-- The declaration a text is. -/
def declaration? (cs : List Char) : Option Shape :=
  (declared? cs).bind fun (name, rest) => (assigned? rest).map (.declare name)

/-- The assignment a text is. -/
def assignment? (cs : List Char) : Option Shape :=
  (word? cs).bind fun (name, rest) => (assigned? rest).map (.assign name)

/-- The assignment to a field that a text is. -/
def fieldAssignment? (cs : List Char) : Option Shape :=
  (fieldOf? cs).bind fun (object, field, rest) => (assigned? rest).map (.assignField object field)

/-- The error that a text raises. -/
def raised? (cs : List Char) : Option Shape :=
  if raises cs then some (.raise (((message? cs).map String.ofList).getD defaultMessage)) else none

/-- The shape of a statement. -/
def classify (text : String) : Shape :=
  let cs := text.toList
  (((declaration? cs).or (assignment? cs)).or ((fieldAssignment? cs).or (raised? cs))).getD
    (.expression text)

end Resumable.Statement
