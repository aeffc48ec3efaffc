import Keystrokes.Text.Decimal
import Keystrokes.Toml.Number

/-!
# Moments of TOML

A moment is a date, a time of day, or both, and a moment of both may tell its
distance from Greenwich time.  A moment has one text, whatever way it was written.
-/

set_option autoImplicit false

namespace Keystrokes.Toml

/-! ## Moments -/

/-- A day of the calendar. -/
structure Date where
  year : Nat
  month : Nat
  day : Nat
  deriving DecidableEq

/-- A time of day. -/
structure TimeOfDay where
  hour : Nat
  minute : Nat
  second : Nat
  nanosecond : Nat := 0
  deriving DecidableEq

/-- A distance from Greenwich time. -/
inductive Offset where
  /-- Greenwich time itself, told by a letter. -/
  | zulu
  /-- So many minutes ahead of Greenwich time. -/
  | ahead (minutes : Int)
  deriving DecidableEq

/-- A moment in time. -/
structure Moment where
  date : Option Date := none
  time : Option TimeOfDay := none
  offset : Option Offset := none
  deriving DecidableEq

/-! ## The text of a moment -/

/-- A date, such as `1979-05-27`. -/
def Date.text (date : Date) : String :=
  Text.zeroPadded 4 date.year ++ "-" ++ Text.zeroPadded 2 date.month ++ "-"
    ++ Text.zeroPadded 2 date.day

/-- A time of day, such as `07:32:00` or `00:32:00.5`. -/
def TimeOfDay.text (time : TimeOfDay) : String :=
  Text.zeroPadded 2 time.hour ++ ":" ++ Text.zeroPadded 2 time.minute ++ ":"
    ++ Text.zeroPadded 2 time.second
    ++ if time.nanosecond = 0 then "" else "." ++ Text.fraction 9 time.nanosecond

/-- A distance from Greenwich time: a letter, or a sign with hours and minutes. -/
def Offset.text : Offset → String
  | .zulu => "Z"
  | .ahead minutes =>
      (if minutes < 0 then "-" else "+") ++ Text.zeroPadded 2 (minutes.natAbs / 60) ++ ":"
        ++ Text.zeroPadded 2 (minutes.natAbs % 60)

/-- A moment: its parts in order, with a letter between a date and a time. -/
def Moment.text (moment : Moment) : String :=
  let parts := (moment.date.map Date.text).toList ++ (moment.time.map TimeOfDay.text).toList
  "T".intercalate parts ++ (moment.offset.map Offset.text).getD ""

/-! ## Reading a moment -/

/-- A number of so many decimal digits within bounds. -/
def fixedNumber? (count least most : Nat) : Reader Nat := fun input =>
  let digits := input.take count
  let value := numberOf 10 digits
  if digits.length = count && digits.all Char.isDigit && least ≤ value && value ≤ most then
    some (value, input.drop count)
  else none

/-- The number of days in a month. -/
def daysIn (year month : Nat) : Nat :=
  if month = 2 then
    if year % 4 = 0 && (year % 100 != 0 || year % 400 = 0) then 29 else 28
  else if [4, 6, 9, 11].contains month then 30
  else 31

/-- A date that is on the calendar. -/
def date? : Reader Date := fun input => do
  let (year, rest) ← fixedNumber? 4 0 9999 input
  let (month, rest) ← fixedNumber? 2 1 12 (← expect? '-' rest)
  let (day, rest) ← fixedNumber? 2 1 (daysIn year month) (← expect? '-' rest)
  return ({ year, month, day }, rest)

/-- The nanoseconds in the digits after the point of a second.  What is less than a
nanosecond is left out. -/
def nanoseconds (digits : List Char) : Nat :=
  let kept := digits.take 9
  numberOf 10 kept * Nat.pow 10 (9 - kept.length)

/-- A time of day, with a fraction of a second if it has one. -/
def timeOfDay? : Reader TimeOfDay := fun input => do
  let (hour, rest) ← fixedNumber? 2 0 23 input
  let (minute, rest) ← fixedNumber? 2 0 59 (← expect? ':' rest)
  let (second, rest) ← fixedNumber? 2 0 60 (← expect? ':' rest)
  match rest with
  | '.' :: rest =>
      let digits := rest.takeWhile Char.isDigit
      if digits.isEmpty then none
      else return ({ hour, minute, second, nanosecond := nanoseconds digits },
        rest.dropWhile Char.isDigit)
  | _ => return ({ hour, minute, second }, rest)

/-- Hours and minutes, as minutes. -/
def hoursAndMinutes? : Reader Nat := fun input => do
  let (hours, rest) ← fixedNumber? 2 0 23 input
  let (minutes, rest) ← fixedNumber? 2 0 59 (← expect? ':' rest)
  return (60 * hours + minutes, rest)

/-- The distance from Greenwich time, if there is one. -/
def offset? : Reader (Option Offset) := fun input =>
  match input with
  | 'Z' :: rest | 'z' :: rest => some (some .zulu, rest)
  | '+' :: rest =>
      (hoursAndMinutes? rest).map fun (minutes, rest) => (some (.ahead minutes), rest)
  | '-' :: rest =>
      (hoursAndMinutes? rest).map fun (minutes, rest) => (some (.ahead (-minutes)), rest)
  | _ => some (none, input)

/-- The time after a date, with a letter or a space between them. -/
def timeAfterDate? : Reader TimeOfDay := fun input =>
  match input with
  | separator :: rest => if ['T', 't', ' '].contains separator then timeOfDay? rest else none
  | [] => none

/-- A moment. -/
def moment? : Reader Moment := fun input =>
  match date? input with
  | none => (timeOfDay? input).map fun (time, rest) => ({ time := some time }, rest)
  | some (date, rest) =>
      match timeAfterDate? rest with
      | none => some ({ date := some date }, rest)
      | some (time, rest) => do
          let (offset, rest) ← offset? rest
          return ({ date := some date, time := some time, offset }, rest)

end Keystrokes.Toml
