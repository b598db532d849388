import Resumable.Decimal.Layout
import Resumable.Text.Blank
import Resumable.Value.Basic

/-!
# Values as numbers and as texts

The two conversions that operators apply to their operands. A text is a number if, without the
blanks at its ends, it is empty, an infinity, an integer of radix sixteen, eight or two behind its
mark, or a decimal numeral. A number is shown with all its digits if it is whole and below
`10 ^ 21`, else with the fewest that identify it, always positionally.

This models `to_number`, `string_to_number`, `to_display_string` and `format_number`.
-/

namespace Resumable.Value

/-! ### Numbers -/

/-- The radix that a mark at the start of a text announces, and what follows the mark. -/
def radixMark : List Char → Option (Nat × List Char)
  | '0' :: 'x' :: rest => some (16, rest)
  | '0' :: 'X' :: rest => some (16, rest)
  | '0' :: 'o' :: rest => some (8, rest)
  | '0' :: 'O' :: rest => some (8, rest)
  | '0' :: 'b' :: rest => some (2, rest)
  | '0' :: 'B' :: rest => some (2, rest)
  | _ => none

/-- The number of a text without blanks at its ends. -/
def numberOfTrimmed (cs : List Char) : Double :=
  if cs.isEmpty then .zero
  else if cs = "Infinity".toList ∨ cs = "+Infinity".toList then .infinity false
  else if cs = "-Infinity".toList then .infinity true
  else match radixMark cs with
    | some (radix, digits) => match Text.word? radix digits with
      | some n => .ofNat n
      | none => .nan
    | none => match Decimal.signed? cs with
      | some (negative, d) => d.toDouble negative
      | none => .nan

/-- The number of a text. -/
def numberOfText (s : String) : Double := numberOfTrimmed (Text.trim s.toList)

/-- The number a value stands for in arithmetic. A list of one item stands for that item. -/
def toNumber : Value → Double
  | .undefined => .nan
  | .null => .zero
  | .bool b => .ofBool b
  | .num x => x
  | .str s => numberOfText s
  | .list [] => .zero
  | .list [v] => v.toNumber
  | .list (_ :: _ :: _) => .nan
  | .obj _ => .nan

/-! ### Texts -/

/-- Whole numbers from here on are shown by their shortest digits. -/
def wholeLimit : Nat := Nat.pow 10 21

/-- A number as a text. -/
def showNumber (x : Double) : String :=
  match x with
  | .nan => "NaN"
  | .infinity false => "Infinity"
  | .infinity true => "-Infinity"
  | .finite negative rank =>
    let shortest := String.ofList
      ((if negative then ['-'] else []) ++ (Decimal.shortest .up rank).positional false)
    match x.toInt? with
    | some n =>
      if n.natAbs < wholeLimit then
        String.ofList ((if n < 0 then ['-'] else []) ++ Text.decimal n.natAbs)
      else shortest
    | none => shortest

mutual
/-- The text of a value in concatenations and addresses. -/
def display : Value → String
  | .undefined => "undefined"
  | .null => "null"
  | .bool true => "true"
  | .bool false => "false"
  | .num x => showNumber x
  | .str s => s
  | .list items => ",".intercalate (displayItems items)
  | .obj _ => "[object Object]"

/-- The texts of a list's items; an absent or empty one has none. -/
def displayItems : List Value → List String
  | [] => []
  | v :: vs => (if v.isNullish then "" else v.display) :: displayItems vs
end

end Resumable.Value
