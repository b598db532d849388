import Resumable.Decimal.Basic

/-!
# Dates and times in TOML

A moment is a date, a time of day, or both, and with both an offset from universal time may stand.
It is checked against the calendar and the clock, and shown in one form: a `T` between date and
time, at most nine digits of a second's fraction and no zero at their end, and a signed offset.

This models the dates and times that `build` reads from a file; as settings only their texts count.
-/

namespace Resumable.Toml

/-- A number of exactly so many digits at the start of a text, and what follows it. -/
def fixed? (width : Nat) (cs : List Char) : Option (Nat × List Char) :=
  let run := cs.take width
  if run.length = width ∧ run.all Decimal.isDigit then some (Decimal.ofRun run, cs.drop width)
  else none

/-- What follows a character that must stand at the start of a text. -/
def after? (c : Char) : List Char → Option (List Char)
  | d :: cs => if d = c then some cs else none
  | [] => none

/-- A number filled up with zeros to a width. -/
def filled (width n : Nat) : List Char := Text.padLeft width '0' (Text.decimal n)

/-! ### Dates -/

/-- A day of the calendar. -/
structure Date where
  /-- The year, of four digits. -/
  year : Nat
  /-- The month, from one on. -/
  month : Nat
  /-- The day of the month, from one on. -/
  day : Nat

/-- Whether a year has a leap day. -/
def isLeap (year : Nat) : Bool := year % 4 == 0 && (year % 100 != 0 || year % 400 == 0)

/-- How many days a month has. -/
def daysIn (year month : Nat) : Nat :=
  if month = 2 then (if isLeap year then 29 else 28)
  else if month ∈ [4, 6, 9, 11] then 30
  else 31

/-- A date at the start of a text, and what follows it. -/
def date? (cs : List Char) : Option (Date × List Char) := do
  let (year, cs) ← fixed? 4 cs
  let cs ← after? '-' cs
  let (month, cs) ← fixed? 2 cs
  let cs ← after? '-' cs
  let (day, cs) ← fixed? 2 cs
  if 1 ≤ month ∧ month ≤ 12 ∧ 1 ≤ day ∧ day ≤ daysIn year month then some (⟨year, month, day⟩, cs)
  else none

/-- The text of a date. -/
def Date.render (d : Date) : List Char :=
  filled 4 d.year ++ '-' :: filled 2 d.month ++ '-' :: filled 2 d.day

/-! ### Times -/

/-- A time of day. -/
structure Time where
  /-- The hour. -/
  hour : Nat
  /-- The minute. -/
  minute : Nat
  /-- The second; a minute may have one more than sixty. -/
  second : Nat
  /-- The digits of the second's fraction, at most nine and the last one not zero. -/
  fraction : List Char

/-- Digits without the zeros at their end. -/
def withoutZeros (cs : List Char) : List Char := (cs.reverse.dropWhile (· == '0')).reverse

/-- A fraction of a second at the start of a text, possibly none, and what follows it. -/
def fraction? : List Char → Option (List Char × List Char)
  | '.' :: cs => match Decimal.spanDigits cs with
    | ([], _) => none
    | (run, cs) => some (withoutZeros (run.take 9), cs)
  | cs => some ([], cs)

/-- A time of day at the start of a text, and what follows it. -/
def time? (cs : List Char) : Option (Time × List Char) := do
  let (hour, cs) ← fixed? 2 cs
  let cs ← after? ':' cs
  let (minute, cs) ← fixed? 2 cs
  let cs ← after? ':' cs
  let (second, cs) ← fixed? 2 cs
  let (fraction, cs) ← fraction? cs
  if hour ≤ 23 ∧ minute ≤ 59 ∧ second ≤ 60 then some (⟨hour, minute, second, fraction⟩, cs)
  else none

/-- The text of a time. -/
def Time.render (t : Time) : List Char :=
  filled 2 t.hour ++ ':' :: filled 2 t.minute ++ ':' :: filled 2 t.second ++
    if t.fraction.isEmpty then [] else '.' :: t.fraction

/-! ### Offsets -/

/-- How a local time is related to universal time. -/
inductive Offset where
  /-- Nothing is said about it. -/
  | unknown
  /-- It is universal time. -/
  | universal
  /-- It is so many minutes ahead. -/
  | ahead (minutes : Int)

/-- The offset that a whole text stands for. -/
def offset? : List Char → Option Offset
  | [] => some .unknown
  | ['Z'] => some .universal
  | ['z'] => some .universal
  | sign :: cs => do
    let (hours, cs) ← fixed? 2 cs
    let cs ← after? ':' cs
    let (minutes, cs) ← fixed? 2 cs
    let total : Int := (hours * 60 + minutes : Nat)
    if cs.isEmpty ∧ hours ≤ 23 ∧ minutes ≤ 59 then
      if sign = '+' then some (.ahead total)
      else if sign = '-' then some (.ahead (-total))
      else none
    else none

/-- The text of an offset. An offset of zero has a plus sign. -/
def Offset.render : Offset → List Char
  | .unknown => []
  | .universal => ['Z']
  | .ahead minutes =>
    (if minutes < 0 then '-' else '+') ::
      filled 2 (minutes.natAbs / 60) ++ ':' :: filled 2 (minutes.natAbs % 60)

/-! ### Moments -/

/-- A date, a time of day, or both. -/
inductive Moment where
  /-- A day. -/
  | day (d : Date)
  /-- A time on any day. -/
  | clock (t : Time)
  /-- A time on a day. -/
  | instant (d : Date) (t : Time) (offset : Offset)

/-- The text of a moment. -/
def Moment.render : Moment → List Char
  | .day d => d.render
  | .clock t => t.render
  | .instant d t offset => d.render ++ 'T' :: t.render ++ offset.render

/-- Whether a whole text is a date. -/
def isDate (cs : List Char) : Bool :=
  match date? cs with
  | some (_, []) => true
  | _ => false

/-- Whether a character may stand between a date and a time. -/
def isMark (c : Char) : Bool := c == 'T' || c == 't' || c == ' '

/-- The moment that a whole text stands for. -/
def moment? (cs : List Char) : Option Moment :=
  match date? cs with
  | some (d, []) => some (.day d)
  | some (d, mark :: cs) =>
    if isMark mark then do
      let (t, cs) ← time? cs
      let offset ← offset? cs
      some (.instant d t offset)
    else none
  | none => match time? cs with
    | some (t, []) => some (.clock t)
    | _ => none

end Resumable.Toml
