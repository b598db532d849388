import Resumable.Settings.Variables

/-!
# The surroundings of a command

What a command can see besides its arguments: the files of the working directory and the variables
of the environment. A path names a file by the names on the way to it, from the root if it starts
with a slash and else from the working directory; a single dot and a doubled slash add nothing.

This models the files and variables that `build`, `read_script` and `load_responses` see. Links, and
steps to the directory above, are not modelled.
-/

namespace Resumable

/-- Files and the variables of the environment. -/
structure Workspace where
  /-- The contents of the files under their paths. -/
  files : List (String × ByteArray)
  /-- The variables of the environment. -/
  vars : Settings.Variables

namespace Workspace

/-! ### Paths -/

/-- A text cut at every slash. -/
def cut : List Char → List (List Char)
  | [] => [[]]
  | c :: cs =>
    if c = '/' then [] :: cut cs
    else match cut cs with
      | [] => [[c]]
      | piece :: pieces => (c :: piece) :: pieces

/-- Whether a piece of a path adds nothing to it. -/
def isIdle (piece : List Char) : Bool := piece.isEmpty || piece == ['.']

/-- The names on the way that a path describes. A slash, which no name holds, stands for the
root. -/
def route (path : String) : List (List Char) :=
  let names := (cut path.toList).filter fun piece => !isIdle piece
  if path.toList.head? = some '/' then ['/'] :: names else names

/-- Whether a path may name a file: it does not end in a slash or a single dot. -/
def endsInName (path : String) : Bool :=
  match (cut path.toList).getLast? with
  | some piece => !isIdle piece
  | none => false

/-- The content of the file at the end of a route. -/
def fileAt? (w : Workspace) (way : List (List Char)) : Option ByteArray :=
  if way.isEmpty then none
  else (w.files.find? fun (path, _) => route path == way).map (·.2)

/-- The content of the file that a path names. -/
def file? (w : Workspace) (path : String) : Option ByteArray :=
  if endsInName path then w.fileAt? (route path) else none

/-- The text of the file that a path names, if it holds text. -/
def text? (w : Workspace) (path : String) : Option String :=
  (w.file? path).bind String.fromUTF8?

/-! ### Files with an ending -/

/-- Whether the last name of a route is another name followed by an ending. -/
def hasEnding (ending : List Char) (way : List (List Char)) : Bool :=
  match way.getLast? with
  | some name => ending.isSuffixOf name && ending.length < name.length
  | none => false

/-- A route with an ending behind its last name. -/
def withEnding (ending : List Char) (way : List (List Char)) : List (List Char) :=
  match way.getLast? with
  | some name => way.dropLast ++ [name ++ ending]
  | none => []

/-! ### Lines -/

/-- Bytes cut behind every line end. -/
def byteLines : List UInt8 → List (List UInt8)
  | [] => []
  | b :: bs =>
    if b = 10 then [b] :: byteLines bs
    else match byteLines bs with
      | [] => [[b]]
      | line :: lines => (b :: line) :: lines

/-- Bytes without the mark of their order. -/
def dropByteMark : List UInt8 → List UInt8
  | 0xef :: 0xbb :: 0xbf :: bs => bs
  | bs => bs

/-- Bytes as text. -/
def decode? (bs : List UInt8) : Option (List Char) :=
  (String.fromUTF8? ⟨bs.toArray⟩).map String.toList

/-- Lines of bytes as text, up to the first one that is none. -/
def decodeLines : List (List UInt8) → List (List Char)
  | [] => []
  | line :: lines => match decode? line with
    | some cs => cs :: decodeLines lines
    | none => []

/-- The lines of a file, with their line ends. -/
def linesOf (content : ByteArray) : List (List Char) :=
  decodeLines (byteLines (dropByteMark content.data.toList))

end Workspace

end Resumable
