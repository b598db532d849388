/-!
# Brackets and strings in a script

The scanner reads a script character by character and knows two things: how many brackets of each
kind are open, and whether it stands inside a string. A string opens with one of three quotes and
closes at the next occurrence of the same quote; nothing escapes a quote. A closing bracket counts
down without bound, so that a stray one keeps the scanner off the top level.

This models `Depth`, `Scanner` and `max_nesting_depth`. Its counts are integers: counters of 32 bits
give the same until a script has more than `2 ^ 31` brackets of one kind.
-/

namespace Resumable.Source

/-- What the scanner knows after reading part of a script. -/
structure Scanner where
  /-- Open minus closed parentheses. -/
  parens : Int := 0
  /-- Open minus closed braces. -/
  braces : Int := 0
  /-- Open minus closed square brackets. -/
  brackets : Int := 0
  /-- The quote that closes the string being read. -/
  quote : Option Char := none
  deriving DecidableEq

/-- Whether a character opens a string. -/
def isQuote (c : Char) : Bool := c == '"' || c == '\'' || c == '\x60'

theorem isQuote_iff {c : Char} : isQuote c = true ↔ c = '"' ∨ c = '\'' ∨ c = '\x60' := by
  simp only [isQuote, Bool.or_eq_true, beq_iff_eq, or_assoc]

namespace Scanner

/-- Whether no bracket of any kind is open or closed in excess. -/
def isTop (s : Scanner) : Bool := s.parens == 0 && s.braces == 0 && s.brackets == 0

/-- How many brackets are open altogether. -/
def depth (s : Scanner) : Int := s.parens + s.braces + s.brackets

/-- Counts a bracket; any other character changes nothing. -/
def count (s : Scanner) (c : Char) : Scanner :=
  match c with
  | '(' => { s with parens := s.parens + 1 }
  | ')' => { s with parens := s.parens - 1 }
  | '\x7b' => { s with braces := s.braces + 1 }
  | '\x7d' => { s with braces := s.braces - 1 }
  | '[' => { s with brackets := s.brackets + 1 }
  | ']' => { s with brackets := s.brackets - 1 }
  | _ => s

/-- The scanner after one more character. -/
def step (s : Scanner) (c : Char) : Scanner :=
  match s.quote with
  | some q => if c = q then { s with quote := none } else s
  | none => if isQuote c then { s with quote := some c } else s.count c

/-- Whether a character, read in this state, stands outside strings and leaves the top level
reached. -/
def exposes (s : Scanner) (c : Char) : Bool :=
  s.quote.isNone && !isQuote c && (s.step c).isTop

/-- The scanner after a whole text. -/
def run (s : Scanner) (cs : List Char) : Scanner := cs.foldl step s

theorem run_cons (s : Scanner) (c : Char) (cs : List Char) : s.run (c :: cs) = (s.step c).run cs :=
  rfl

theorem run_append (s : Scanner) (cs ds : List Char) : s.run (cs ++ ds) = (s.run cs).run ds :=
  List.foldl_append

end Scanner

/-- The greatest depth among a state and those after each further character. -/
def deepest (s : Scanner) : List Char → Int
  | [] => s.depth
  | c :: cs => max s.depth (deepest (s.step c) cs)

/-- How many brackets are open at once, outside strings, where a text nests deepest. -/
def nestingDepth (cs : List Char) : Nat := (deepest {} cs).toNat

end Resumable.Source
