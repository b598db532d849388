import Resumable.Text.Numeral

/-!
# Strings in TOML

A string is written in one of four styles: in double quotes, where a backslash escapes, or in
single ones, where it does not; and on one line, or between tripled quotes on any number of lines.
The reader is a machine that goes through the characters behind the opening quotes. Line ends are
single characters here: a document has them unified before it is read.

This models strings as `build` reads them and as the `config` command writes them.
-/

namespace Resumable.Toml

/-- How a string is written. -/
structure Style where
  /-- Whether it stands in double quotes, where a backslash escapes. -/
  escapes : Bool
  /-- Whether its quotes are tripled, so that it may run over several lines. -/
  manyLines : Bool
  deriving DecidableEq

/-- The quote of a style. -/
def Style.quote (style : Style) : Char := if style.escapes then '"' else '\''

/-- The quotes on either side of a string. -/
def Style.quotes (style : Style) : List Char :=
  List.replicate (if style.manyLines then 3 else 1) style.quote

/-- Whether a character is a control, the tab apart. -/
def isControl (c : Char) : Bool := (c.toNat < 0x20 && c != '\t') || c == '\x7f'

/-- Whether a character separates words on a line. -/
def isSpace (c : Char) : Bool := c == ' ' || c == '\t'

/-! ### Reading -/

/-- Where the reader stands inside a string. -/
inductive Mode where
  /-- Between characters. -/
  | plain
  /-- Behind a backslash. -/
  | escaped
  /-- Inside the digits of a code: the value of those read, and how many are still to come. -/
  | code (value left : Nat)
  /-- Behind a backslash and a space, where only spaces may stand before the end of the line. -/
  | folding
  /-- Behind a backslash at the end of a line, where spaces and line ends are skipped. -/
  | folded

/-- What one character inside a string does. -/
inductive Step where
  /-- The string ends; some quotes may still belong to it, and what follows it is given. -/
  | close (last : List Char) (rest : List Char)
  /-- The string goes on, with a character or without one. -/
  | go (char : Option Char) (mode : Mode)
  /-- The character may not stand here. -/
  | reject

/-- The character of a backslash and a letter. -/
def unescape : Char → Option Char
  | 'b' => some '\x08'
  | 't' => some '\t'
  | 'n' => some '\n'
  | 'f' => some '\x0c'
  | 'r' => some '\r'
  | '"' => some '"'
  | '\\' => some '\\'
  | _ => none

/-- The character of a number, unless it is none or half of a surrogate pair. -/
def scalar? (n : Nat) : Option Char :=
  if n < 0xd800 ∨ (0xdfff < n ∧ n < 0x110000) then some (Char.ofNat n) else none

/-- Closes a string at the first of its closing quotes. Of up to five quotes in a row the last
three close a string of many lines and the others belong to it. -/
def close (style : Style) (rest : List Char) : Step :=
  let q := style.quote
  if !style.manyLines then .close [] rest
  else match rest with
    | a :: b :: rest =>
      if a = q ∧ b = q then
        match rest with
        | c :: d :: after =>
          if c = q ∧ d = q then .close [q, q] after
          else if c = q then .close [q] (d :: after)
          else .close [] rest
        | [c] => if c = q then .close [q] [] else .close [] rest
        | [] => .close [] []
      else .go (some q) .plain
    | _ => .go (some q) .plain

/-- A step between characters. -/
def plainStep (style : Style) (c : Char) (rest : List Char) : Step :=
  if c = style.quote then close style rest
  else if c = '\\' ∧ style.escapes then .go none .escaped
  else if isControl c ∧ ¬ (c = '\n' ∧ style.manyLines) then .reject
  else .go (some c) .plain

/-- A step of the reader. -/
def step (style : Style) (mode : Mode) (c : Char) (rest : List Char) : Step :=
  match mode with
  | .plain => plainStep style c rest
  | .escaped =>
    if c = 'u' then .go none (.code 0 4)
    else if c = 'U' then .go none (.code 0 8)
    else if c = '\n' ∧ style.manyLines then .go none .folded
    else if isSpace c ∧ style.manyLines then .go none .folding
    else match unescape c with
      | some d => .go (some d) .plain
      | none => .reject
  | .code value left =>
    match Text.digitOf 16 c with
    | none => .reject
    | some d =>
      if 1 < left then .go none (.code (value * 16 + d) (left - 1))
      else match scalar? (value * 16 + d) with
        | some e => .go (some e) .plain
        | none => .reject
  | .folding =>
    if c = '\n' then .go none .folded else if isSpace c then .go none .folding else .reject
  | .folded => if c = '\n' ∨ isSpace c then .go none .folded else plainStep style c rest

/-- The characters of a string from a point inside it to its end, and what follows it. -/
def body (style : Style) : Mode → List Char → Option (List Char × List Char)
  | _, [] => none
  | mode, c :: cs =>
    match step style mode c cs with
    | .close last rest => some (last, rest)
    | .go char mode => (body style mode cs).map fun (s, rest) => (char.toList ++ s, rest)
    | .reject => none

/-- The style that opening quotes announce, and what follows them. A line end directly behind
tripled quotes is not part of the string. -/
def opening? : List Char → Option (Style × List Char)
  | '"' :: '"' :: '"' :: '\n' :: rest => some (⟨true, true⟩, rest)
  | '"' :: '"' :: '"' :: rest => some (⟨true, true⟩, rest)
  | '\'' :: '\'' :: '\'' :: '\n' :: rest => some (⟨false, true⟩, rest)
  | '\'' :: '\'' :: '\'' :: rest => some (⟨false, true⟩, rest)
  | '"' :: rest => some (⟨true, false⟩, rest)
  | '\'' :: rest => some (⟨false, false⟩, rest)
  | _ => none

/-- A string at the start of a text, and what follows it. -/
def string? (cs : List Char) : Option (String × List Char) := do
  let (style, cs) ← opening? cs
  let (s, cs) ← body style .plain cs
  some (String.ofList s, cs)

/-! ### Writing -/

/-- Whether a character occurs three times in a row. -/
def hasTriple (q : Char) : List Char → Bool
  | a :: b :: c :: cs => (a == q && b == q && c == q) || hasTriple q (b :: c :: cs)
  | _ => false

/-- The plainest style for a text: one line before many, and double quotes before single ones, as
long as nothing but tabs needs an escape. -/
def styleOf (cs : List Char) : Style :=
  let lines := cs.contains '\n'
  let controls := cs.any fun c => isControl c && c != '\n'
  let backslash := cs.contains '\\'
  if !controls && !backslash && !lines && !cs.contains '"' then ⟨true, false⟩
  else if !controls && !lines && !cs.contains '\'' then ⟨false, false⟩
  else if !controls && !backslash && !hasTriple '"' cs then ⟨true, true⟩
  else if !controls && !hasTriple '\'' cs then ⟨false, true⟩
  else ⟨true, lines⟩

/-- A character other than a quote where a backslash escapes. -/
def escape (manyLines : Bool) (c : Char) : List Char :=
  match c with
  | '\x08' => ['\\', 'b']
  | '\t' => ['\\', 't']
  | '\n' => if manyLines then ['\n'] else ['\\', 'n']
  | '\x0c' => ['\\', 'f']
  | '\r' => ['\\', 'r']
  | '\\' => ['\\', '\\']
  | _ =>
    if isControl c then
      ['\\', 'u'] ++ Text.padLeft 4 '0' ((Text.hexadecimal c.toNat).map Char.toUpper)
    else [c]

/-- A text with its escapes. On one line every quote is escaped, on many lines every third one in
a row; `run` counts the quotes before the text that were not. -/
def escapeAll (manyLines : Bool) (run : Nat) : List Char → List Char
  | [] => []
  | c :: cs =>
    if c = '"' then
      if manyLines ∧ run < 2 then '"' :: escapeAll manyLines (run + 1) cs
      else '\\' :: '"' :: escapeAll manyLines 0 cs
    else escape manyLines c ++ escapeAll manyLines 0 cs

/-- A string as it is written. A text of several lines starts on a line of its own. -/
def renderString (s : String) : List Char :=
  let cs := s.toList
  let style := styleOf cs
  style.quotes ++ (if style.manyLines && cs.contains '\n' then ['\n'] else []) ++
    (if style.escapes then escapeAll style.manyLines 0 cs else cs) ++ style.quotes

end Resumable.Toml
