import Resumable.Source.Scanner
import Resumable.Text.Blank

/-!
# Cutting a script into pieces

A text is cut at every separator that stands outside brackets and strings. Cut at semicolons, a
script falls into its statements: the pieces without the blanks around them, empty ones left out.

This models `split_top_level` and `split_statements`.
-/

namespace Resumable.Source

/-- The pieces of a text between exposed separators: the first one and the others. -/
def cut (separator : Char) (s : Scanner) : List Char → List Char × List (List Char)
  | [] => ([], [])
  | c :: cs =>
    let (piece, pieces) := cut separator (s.step c) cs
    if s.exposes c && c == separator then ([], piece :: pieces) else (c :: piece, pieces)

/-- The pieces of a text between exposed separators; there is always one. -/
def pieces (separator : Char) (cs : List Char) : List (List Char) :=
  let (piece, pieces) := cut separator {} cs
  piece :: pieces

/-- The piece of a text before its first exposed separator. -/
def firstPiece (separator : Char) (cs : List Char) : List Char := (cut separator {} cs).1

/-- The statements of a script, in order. -/
def statements (source : String) : List String :=
  ((pieces ';' source.toList).map Text.trim).filter (!·.isEmpty) |>.map String.ofList

end Resumable.Source
