import Resumable.Decimal.Layout
import Resumable.Json.Basic

/-!
# Writing JSON

A value is written without blanks. In a string the quote, the backslash and the controls are
escaped and every other character stands for itself. A binary64 number is written with its
shortest digits: positionally, with a point and a zero behind a whole number, if the point falls
between the fifth zero behind it and the sixteenth digit before it, else with an exponent. A NaN
or an infinity has no JSON form and is written `null`.

This models the writer of JSON that prints an outcome and serializes a `Continuation`.
-/

namespace Resumable.Json

/-- A character inside a string. -/
def escape (c : Char) : List Char :=
  match c with
  | '"' => ['\\', '"']
  | '\\' => ['\\', '\\']
  | '\x08' => ['\\', 'b']
  | '\t' => ['\\', 't']
  | '\n' => ['\\', 'n']
  | '\x0c' => ['\\', 'f']
  | '\r' => ['\\', 'r']
  | _ =>
    if c.toNat < 0x20 then ['\\', 'u'] ++ Text.padLeft 4 '0' (Text.hexadecimal c.toNat) else [c]

/-- A string between its quotes. -/
def renderString (s : String) : List Char := '"' :: (s.toList.flatMap escape ++ ['"'])

/-- A finite magnitude. -/
def renderMagnitude (rank : Nat) : List Char :=
  if rank = 0 then ['0', '.', '0']
  else
    let d := Decimal.shortest .even rank
    if -5 < d.pointAfter ∧ d.pointAfter ≤ 16 then d.positional true else d.scientific

/-- A binary64 number. -/
def renderDouble : Double → List Char
  | .finite negative rank => (if negative then ['-'] else []) ++ renderMagnitude rank
  | _ => ['n', 'u', 'l', 'l']

/-- An integer. -/
def renderInteger (n : Int) : List Char :=
  (if n < 0 then ['-'] else []) ++ Text.decimal n.natAbs

/-- A number. -/
def Number.render : Number → List Char
  | .integer n => renderInteger n
  | .float x => renderDouble x

/-- Pieces with commas between them. -/
def commas (pieces : List (List Char)) : List Char := [','].intercalate pieces

mutual
/-- The text of a value. -/
def render : Json → List Char
  | .null => ['n', 'u', 'l', 'l']
  | .bool true => ['t', 'r', 'u', 'e']
  | .bool false => ['f', 'a', 'l', 's', 'e']
  | .number n => n.render
  | .string s => renderString s
  | .array items => '[' :: (commas (renderItems items) ++ [']'])
  | .object fields => '\x7b' :: (commas (renderFields fields) ++ ['\x7d'])

/-- The texts of the items of an array. -/
def renderItems : List Json → List (List Char)
  | [] => []
  | j :: js => j.render :: renderItems js

/-- The texts of the fields of an object. -/
def renderFields : List (String × Json) → List (List Char)
  | [] => []
  | (name, j) :: fs => (renderString name ++ ':' :: j.render) :: renderFields fs
end

/-- The text of a value as a string. -/
def toText (j : Json) : String := String.ofList j.render

end Resumable.Json
