import Resumable.Json.Raw

/-!
# Reading JSON

The reader follows the standard grammar and nothing beyond it: blanks are the space, the tab and
the two line ends, a string holds no raw control character, and nothing but blanks follows the
value. `raw?` reads a text as it is written and `read?` also asks for its meaning.

This models the reader of JSON on which `load_responses` and the deserialization of a `Continuation`
rely. Its messages are not modelled.
-/

namespace Resumable.Json

/-- Whether a character may stand between tokens. -/
def isSpace (c : Char) : Bool := c == ' ' || c == '\t' || c == '\n' || c == '\r'

/-- A text without its leading blanks. -/
def skip (cs : List Char) : List Char := cs.dropWhile isSpace

/-! ### Strings -/

/-- Where the reader stands inside a string. -/
inductive Mode where
  /-- Between characters. -/
  | plain
  /-- Behind a backslash. -/
  | escaped
  /-- Inside the four digits of a code: the value of the digits so far, and how many are still to
  come. -/
  | code (value : Nat) (left : Nat)

/-- The character of a backslash and a letter. -/
def unescape : Char → Option Char
  | '"' => some '"'
  | '\\' => some '\\'
  | '/' => some '/'
  | 'b' => some '\x08'
  | 'f' => some '\x0c'
  | 'n' => some '\n'
  | 'r' => some '\r'
  | 't' => some '\t'
  | _ => none

/-- The pieces of a string up to its closing quote, and what follows it. -/
def stringBody : Mode → List Char → Option (List Piece × List Char)
  | _, [] => none
  | .plain, c :: cs =>
    if c = '"' then some ([], cs)
    else if c = '\\' then stringBody .escaped cs
    else if c.toNat < 0x20 then none
    else (stringBody .plain cs).map fun (s, rest) => (.char c :: s, rest)
  | .escaped, c :: cs =>
    if c = 'u' then stringBody (.code 0 4) cs
    else match unescape c with
      | some d => (stringBody .plain cs).map fun (s, rest) => (.char d :: s, rest)
      | none => none
  | .code value left, c :: cs =>
    match Text.digitOf 16 c with
    | none => none
    | some d =>
      if 1 < left then stringBody (.code (value * 16 + d) (left - 1)) cs
      else (stringBody .plain cs).map fun (s, rest) => (.code (value * 16 + d) :: s, rest)

/-- A string at the start of a text, and what follows it. -/
def string? : List Char → Option (List Piece × List Char)
  | '"' :: cs => stringBody .plain cs
  | _ => none

/-! ### Values -/

variable {α : Type}

/-- Members with commas between them up to a closing bracket, at least one. The number bounds
them. -/
def members (close : Char) (read : List Char → Option (α × List Char)) :
    Nat → List Char → Option (List α × List Char)
  | 0, _ => none
  | n + 1, cs => do
    let (a, cs) ← read (skip cs)
    match skip cs with
    | ',' :: cs =>
      let (as, cs) ← members close read n cs
      some (a :: as, cs)
    | c :: cs => if c = close then some ([a], cs) else none
    | [] => none

/-- The members behind an opening bracket, possibly none. The number bounds them. -/
def group (close : Char) (read : List Char → Option (α × List Char)) (bound : Nat)
    (cs : List Char) : Option (List α × List Char) :=
  match skip cs with
  | [] => none
  | c :: rest => if c = close then some ([], rest) else members close read bound (c :: rest)

/-- A field of an object: its name, a colon and its value. -/
def field (read : List Char → Option (α × List Char)) (cs : List Char) :
    Option ((List Piece × α) × List Char) := do
  let (name, cs) ← string? cs
  match skip cs with
  | ':' :: cs =>
    let (value, cs) ← read (skip cs)
    some ((name, value), cs)
  | _ => none

/-- A value at the start of a text without leading blanks, and what follows it. The number bounds
both the levels of arrays and objects and the members of each, and the length of the text is
enough: every level and every member takes up a character. -/
def value? : Nat → List Char → Option (Raw × List Char)
  | _, 'n' :: 'u' :: 'l' :: 'l' :: rest => some (.null, rest)
  | _, 't' :: 'r' :: 'u' :: 'e' :: rest => some (.bool true, rest)
  | _, 'f' :: 'a' :: 'l' :: 's' :: 'e' :: rest => some (.bool false, rest)
  | _, '"' :: rest => (string? ('"' :: rest)).map fun (s, rest) => (.string s, rest)
  | 0, '[' :: _ => none
  | n + 1, '[' :: rest =>
    (group ']' (value? n) n rest).map fun (items, rest) => (.array items, rest)
  | 0, '\x7b' :: _ => none
  | n + 1, '\x7b' :: rest =>
    (group '\x7d' (field (value? n)) n rest).map fun (fields, rest) => (.object fields, rest)
  | _, cs => (numeral? cs).map fun (n, rest) => (.number n, rest)

/-- A whole text as it is written. -/
def raw? (text : String) : Option Raw :=
  let cs := skip text.toList
  match value? cs.length cs with
  | some (raw, rest) => if (skip rest).isEmpty then some raw else none
  | none => none

/-- The value a whole text stands for. -/
def read? (text : String) : Option Json := (raw? text).bind (Raw.toJson? maxDepth)

end Resumable.Json
