import Resumable.Fields
import Resumable.Text.Alphanumeric
import Resumable.Text.Blank
import Resumable.Tree

/-!
# Variables of the environment

Variables come from the process, and a file of assignments can add more of them without changing
one that is set. The file is read record by record, a record being one line or more if quotes are
open at its end. A value may stand in quotes and may refer to other variables. The first record
that cannot be read ends the file; what stood before it counts.

The variables whose names start with `fetchflow_`, in letters of either case, are settings. Behind
that, two underscores in a row separate the names of a path.

This models the source of `build` that reads variables with the prefix `FETCHFLOW`, and how `.env`
is read before it. Variables whose bytes are no text are not modelled.
-/

namespace Resumable.Settings

/-- The variables of the environment, in the order in which they were set. -/
abbrev Variables := List (String × String)

namespace Variables

/-! ### Records -/

/-- Where the search for the end of a record stands. -/
inductive Scan where
  /-- Outside quotes. -/
  | plain
  /-- Behind a blank outside quotes, where a comment may start. -/
  | blank
  /-- Behind a backslash outside quotes. -/
  | escaped
  /-- Inside the quotes of the given kind. -/
  | quoted (quote : Char)
  /-- Behind a backslash inside quotes. -/
  | quotedEscaped (quote : Char)
  deriving DecidableEq

/-- Moves past a character; `none` at the start of a comment. -/
def Scan.next (scan : Scan) (c : Char) : Option Scan :=
  match scan with
  | .plain =>
    if Text.isBlank c && c != '\n' && c != '\r' then some .blank
    else if c = '\\' then some .escaped
    else if c = '"' ∨ c = '\'' then some (.quoted c)
    else some .plain
  | .blank =>
    if c = '#' then none
    else if c = '\\' then some .escaped
    else if c = '"' ∨ c = '\'' then some (.quoted c)
    else some .plain
  | .escaped => some .plain
  | .quoted q => some (if c = '\\' then .quotedEscaped q else if c = q then .plain else .quoted q)
  | .quotedEscaped q => some (.quoted q)

/-- A line up to a comment on it, and where the search stands at its end unless there is a
comment. -/
def scanLine : Scan → List Char → List Char × Option Scan
  | scan, [] => ([], some scan)
  | scan, c :: cs =>
    match scan.next c with
    | none => ([], none)
    | some scan =>
      let (kept, ending) := scanLine scan cs
      (c :: kept, ending)

/-- Whether a text is a comment. -/
def isComment (cs : List Char) : Bool := (Text.trimStart cs).head? == some '#'

/-- The records that lines make, given what an open record has so far and where the search stands.
A record that is still open behind the last line is lost. -/
def records (sofar : List Char) (scan : Scan) : List (List Char) → List (List Char)
  | [] => []
  | line :: lines =>
    if isComment (sofar ++ line) then records [] .plain lines
    else
      let (kept, ending) := scanLine scan line
      match ending with
      | none => (sofar ++ kept) :: records [] .plain lines
      | some .plain => (sofar ++ kept) :: records [] .plain lines
      | some scan => records (sofar ++ kept) scan lines

/-! ### Values -/

/-- Where the reader of a value stands. -/
inductive Reading where
  /-- Outside quotes, or inside double ones. -/
  | plain (isQuoted : Bool)
  /-- Behind a backslash. -/
  | escaped (isQuoted : Bool)
  /-- Inside single quotes. -/
  | literal
  /-- Behind a dollar sign: the characters of a variable's name so far. -/
  | name (isQuoted : Bool) (reversed : List Char)
  /-- Behind a dollar sign and a brace. -/
  | braced (isQuoted : Bool) (reversed : List Char)
  /-- Behind the value, where only blanks and a comment may stand. -/
  | ended

/-- The value of a variable, which is empty if it is not set. -/
def lookup (vars : Variables) (reversed : List Char) : List Char :=
  ((Fields.get? vars (String.ofList reversed.reverse)).getD "").toList

/-- The character of a backslash and another character. -/
def unescape : Char → Option Char
  | 'n' => some '\n'
  | c => if c ∈ ['\\', '\'', '"', '$', ' '] then some c else none

/-- The value that a text stands for, from a point inside it. A name without braces ends before the
first character that is no letter or number, and that character stands for itself unless it starts
another name. -/
def valueFrom? (vars : Variables) : Reading → List Char → Option (List Char)
  | .plain false, [] => some []
  | .escaped false, [] => some []
  | .name false n, [] => some (lookup vars n)
  | .ended, [] => some []
  | _, [] => none
  | .ended, c :: cs =>
    if c = ' ' ∨ c = '\t' then valueFrom? vars .ended cs else if c = '#' then some [] else none
  | .escaped q, c :: cs =>
    match unescape c with
    | some d => (valueFrom? vars (.plain q) cs).map (d :: ·)
    | none => none
  | .literal, c :: cs =>
    if c = '\'' then valueFrom? vars (.plain false) cs
    else (valueFrom? vars .literal cs).map (c :: ·)
  | .name q n, c :: cs =>
    if Text.isAlphanumeric c then valueFrom? vars (.name q (c :: n)) cs
    else if c = '\x7b' ∧ n = [] then valueFrom? vars (.braced q []) cs
    else if c = '$' then (valueFrom? vars (.name q []) cs).map (lookup vars n ++ ·)
    else (valueFrom? vars (.plain q) cs).map (lookup vars n ++ c :: ·)
  | .braced q n, c :: cs =>
    if c = '\x7d' then (valueFrom? vars (.plain q) cs).map (lookup vars n ++ ·)
    else valueFrom? vars (.braced q (c :: n)) cs
  | .plain q, c :: cs =>
    if c = '$' then valueFrom? vars (.name q []) cs
    else if c = '"' then valueFrom? vars (.plain (!q)) cs
    else if c = '\\' then valueFrom? vars (.escaped q) cs
    else if c = '\'' ∧ !q then valueFrom? vars .literal cs
    else if (c = ' ' ∨ c = '\t') ∧ !q then valueFrom? vars .ended cs
    else (valueFrom? vars (.plain q) cs).map (c :: ·)

/-! ### Assignments -/

/-- A variable's name at the start of a text, and what follows it. -/
def name? (cs : List Char) : Option (List Char × List Char) :=
  match cs with
  | c :: _ =>
    if c.isAlpha || c == '_' then some (cs.span fun c => c.isAlphanum || c == '_' || c == '.')
    else none
  | [] => none

/-- The name that is assigned to and the text behind the equals sign. The word `export` may stand
before the name. -/
def target? (cs : List Char) : Option (List Char × List Char) := do
  let (name, cs) ← name? cs
  match Text.trimStart cs with
  | '=' :: cs => some (name, cs)
  | cs =>
    if name = "export".toList then
      let (name, cs) ← name? cs
      match Text.trimStart cs with
      | '=' :: cs => some (name, cs)
      | _ => none
    else none

/-- What a record says. -/
inductive Assignment where
  /-- Nothing. -/
  | nothing
  /-- A variable has a value. -/
  | assign (name value : String)

/-- What a record says, if it can be read. -/
def assignment? (vars : Variables) (record : List Char) : Option Assignment :=
  match Text.trim record with
  | [] => some .nothing
  | '#' :: _ => some .nothing
  | cs => do
    let (name, cs) ← target? cs
    let value ← match Text.trimStart cs with
      | '#' :: _ => some []
      | cs => valueFrom? vars (.plain false) cs
    some (.assign (String.ofList name) (String.ofList value))

/-- The variables with those added that a list of records sets, up to the first one that cannot be
read. A variable that is set keeps its value. -/
def addRecords : Variables → List (List Char) → Variables
  | vars, [] => vars
  | vars, record :: rest =>
    match assignment? vars record with
    | none => vars
    | some .nothing => addRecords vars rest
    | some (.assign name value) =>
      match Fields.get? vars name with
      | some _ => addRecords vars rest
      | none => addRecords (vars ++ [(name, value)]) rest

/-- The variables with those added that the lines of a file set. -/
def addFile (vars : Variables) (lines : List (List Char)) : Variables :=
  addRecords vars (records [] .plain lines)

/-! ### Settings in variables -/

/-- What the names of variables that are settings start with. -/
def mark : List Char := "fetchflow_".toList

/-- A name with two underscores in a row replaced by a dot, from left to right. -/
def dots : List Char → List Char
  | [] => []
  | '_' :: '_' :: cs => '.' :: dots cs
  | c :: cs => c :: dots cs

/-- The key of the setting that a variable is, if it is one. Only the letters that the keys of
settings are made of matter, so that letters beyond ASCII need no other case. -/
def key? (name : String) : Option String :=
  let lower := name.toList.map Char.toLower
  if mark.isPrefixOf lower then some (String.ofList (dots (lower.drop mark.length))) else none

/-- The settings among variables. Of two variables for one key the later one counts. -/
def settings (vars : Variables) : List (String × Tree) :=
  Fields.ofEntries (vars.filterMap fun (name, value) =>
    (key? name).map (·, Tree.scalar (.text value)))

end Variables

end Resumable.Settings
