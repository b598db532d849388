import Resumable.Text.Numeral
import Resumable.Text.Shown

/-!
# Quoted text in messages

A text shown in a message stands between double quotes. The quote, the backslash and the common
controls are written with a backslash, and any other character without a shape of its own by its
number in radix sixteen.

This models how the message of `validate` shows a name.
-/

namespace Resumable.Text

/-- A character as it is written between the quotes. -/
def escape (c : Char) : List Char :=
  match c with
  | '"' => ['\\', '"']
  | '\\' => ['\\', '\\']
  | '\n' => ['\\', 'n']
  | '\r' => ['\\', 'r']
  | '\t' => ['\\', 't']
  | '\x00' => ['\\', '0']
  | _ => if isShown c then [c] else ['\\', 'u', '\x7b'] ++ hexadecimal c.toNat ++ ['\x7d']

/-- A text between double quotes, as a message shows it. -/
def quoted (s : String) : String := String.ofList ('"' :: (s.toList.flatMap escape ++ ['"']))

end Resumable.Text
