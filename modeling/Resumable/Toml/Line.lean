import Resumable.Toml.Text
import Resumable.Toml.Word

/-!
# Reading the lines of a TOML document

Spaces and tabs may surround every token, and comments run to the end of their line. Line ends
are significant except inside arrays. Arrays and inline tables nest at most `maxNesting` levels
deep and a key has at most `maxNames` names; the recursion runs on these bounds.

This models the reader of TOML on which `build` relies. Its messages are not modelled.
-/

namespace Resumable.Toml

/-- How deep arrays and inline tables may nest. -/
def maxNesting : Nat := 79

/-- How many names a key may have. -/
def maxNames : Nat := 79

/-- A text without its leading spaces and tabs. -/
def skip (cs : List Char) : List Char := cs.dropWhile isSpace

/-- What follows spaces, line ends and comments. The first argument says whether the text starts
inside a comment. A comment ends before a control, where nothing else can go on. -/
def gap : Bool → List Char → List Char
  | _, [] => []
  | false, c :: cs =>
    if isSpace c || c == '\n' then gap false cs else if c == '#' then gap true cs else c :: cs
  | true, c :: cs =>
    if c == '\n' then gap false cs else if isControl c then c :: cs else gap true cs

/-- What follows the end of a line, before which only spaces and a comment may stand. -/
def lineEnd? (cs : List Char) : Option (List Char) :=
  match skip cs with
  | [] => some []
  | '\n' :: cs => some cs
  | '#' :: cs => match cs.dropWhile fun c => !isControl c with
    | [] => some []
    | '\n' :: cs => some cs
    | _ => none
  | _ => none

/-! ### Keys -/

/-- Whether a character may stand in a name without quotes. -/
def isNameChar (c : Char) : Bool := c.isAlphanum || c == '_' || c == '-'

/-- A name at the start of a text, and what follows it. -/
def name? : List Char → Option (String × List Char)
  | '"' :: cs => (body ⟨true, false⟩ .plain cs).map fun (s, rest) => (String.ofList s, rest)
  | '\'' :: cs => (body ⟨false, false⟩ .plain cs).map fun (s, rest) => (String.ofList s, rest)
  | cs => match cs.span isNameChar with
    | ([], _) => none
    | (name, rest) => some (String.ofList name, rest)

/-- A key of at most so many names at the start of a text, and what follows it and the spaces
behind it. -/
def keyOf? : Nat → List Char → Option (Key × List Char)
  | 0, _ => none
  | n + 1, cs => do
    let (name, cs) ← name? (skip cs)
    match skip cs with
    | '.' :: cs =>
      let (key, cs) ← keyOf? n cs
      some (⟨name :: key.parents, key.last⟩, cs)
    | cs => some (⟨[], name⟩, cs)

/-- A key at the start of a text, and what follows it. -/
def key? (cs : List Char) : Option (Key × List Char) := keyOf? maxNames cs

/-- What follows an equals sign that must stand at the start of a text. -/
def equals? : List Char → Option (List Char)
  | '=' :: cs => some (skip cs)
  | _ => none

/-! ### Values -/

/-- The items of an array up to its closing bracket, and what follows it. A comma may stand behind
the last item. The number bounds the items. -/
def items (read : List Char → Option (Toml × List Char)) :
    Nat → List Char → Option (List Toml × List Char)
  | 0, _ => none
  | n + 1, cs =>
    match gap false cs with
    | ']' :: cs => some ([], cs)
    | cs => do
      let (a, cs) ← read cs
      match gap false cs with
      | ',' :: cs =>
        let (as, cs) ← items read n cs
        some (a :: as, cs)
      | ']' :: cs => some ([a], cs)
      | _ => none

/-- The entries of an inline table up to its closing brace, at least one, and what follows it. The
number bounds the entries. -/
def entries (read : List Char → Option (Toml × List Char)) :
    Nat → List Char → Option (List (List String × String × Toml) × List Char)
  | 0, _ => none
  | n + 1, cs => do
    let (key, cs) ← key? cs
    let cs ← equals? cs
    let (value, cs) ← read cs
    let entry := (key.parents, key.last, value)
    match skip cs with
    | ',' :: cs =>
      let (es, cs) ← entries read n cs
      some (entry :: es, cs)
    | '\x7d' :: cs => some ([entry], cs)
    | _ => none

/-- The entries behind an opening brace, possibly none, and what follows the closing one. -/
def braces (read : List Char → Option (Toml × List Char)) (cs : List Char) :
    Option (List (List String × String × Toml) × List Char) :=
  match skip cs with
  | '\x7d' :: cs => some ([], cs)
  | cs => entries read (cs.length + 1) cs

/-- A value without brackets or braces at the start of a text, and what follows it. -/
def scalarValue? (cs : List Char) : Option (Toml × List Char) :=
  match opening? cs with
  | some _ => (string? cs).map fun (s, rest) => (.scalar (.text s), rest)
  | none => bare? cs

/-- A value at the start of a text, and what follows it. The number is how many more levels of
arrays and inline tables may open. -/
def value? : Nat → List Char → Option (Toml × List Char)
  | 0, '[' :: _ => none
  | room + 1, '[' :: cs =>
    (items (value? room) (cs.length + 1) cs).map fun (items, rest) => (.array items, rest)
  | 0, '\x7b' :: _ => none
  | room + 1, '\x7b' :: cs =>
    (braces (value? room) cs).map fun (entries, rest) => (.inline entries, rest)
  | _, cs => scalarValue? cs

/-! ### Lines -/

/-- What follows a text that must stand at the start of another. -/
def strip? (mark : List Char) (cs : List Char) : Option (List Char) :=
  if mark.isPrefixOf cs then some (cs.drop mark.length) else none

/-- A line at the start of a text, and what follows it. -/
def line? : List Char → Option (Line × List Char)
  | '[' :: '[' :: cs => do
    let (key, cs) ← key? cs
    let cs ← strip? [']', ']'] cs
    let cs ← lineEnd? cs
    some (.element key, cs)
  | '[' :: cs => do
    let (key, cs) ← key? cs
    let cs ← strip? [']'] cs
    let cs ← lineEnd? cs
    some (.table key, cs)
  | cs => do
    let (key, cs) ← key? cs
    let cs ← equals? cs
    let (value, cs) ← value? maxNesting cs
    let cs ← lineEnd? cs
    some (.entry key value, cs)

/-- The lines of a text that say something. The number bounds them. -/
def linesOf? : Nat → List Char → Option (List Line)
  | 0, _ => none
  | n + 1, cs =>
    match gap false cs with
    | [] => some []
    | cs => do
      let (line, cs) ← line? cs
      let lines ← linesOf? n cs
      some (line :: lines)

/-- A text in which every line end is a single character. -/
def unifyLineEnds : List Char → List Char
  | [] => []
  | '\r' :: '\n' :: cs => '\n' :: unifyLineEnds cs
  | c :: cs => c :: unifyLineEnds cs

/-- A text without the mark of its byte order. -/
def dropMark : List Char → List Char
  | '\ufeff' :: cs => cs
  | cs => cs

/-- The lines of a document. -/
def lines? (text : String) : Option (List Line) :=
  let cs := unifyLineEnds (dropMark text.toList)
  linesOf? (cs.length + 1) cs

end Resumable.Toml
