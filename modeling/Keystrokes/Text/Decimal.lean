/-!
# Numbers and durations in decimal

Numbers of a fixed width, the digits after a decimal point, and durations.  A duration is
held in whole milliseconds and shown in the largest unit that leaves a number before the
point: seconds from one second on, milliseconds below, and the empty duration as
nanoseconds.
-/

set_option autoImplicit false

namespace Keystrokes.Text

/-- A number in decimal, with zeros in front up to a width. -/
def zeroPadded (width number : Nat) : String :=
  let digits := Nat.toDigits 10 number
  String.ofList (List.replicate (width - digits.length) '0' ++ digits)

/-- The digits after the point for so many parts of ten to the power of `places`,
less the zeros at the end. -/
def fraction (places parts : Nat) : String :=
  String.ofList ((zeroPadded places parts).toList.reverse.dropWhile (· == '0')).reverse

/-- A duration in words: `0ns`, `300ms`, `1s`, `1.5s`, `60.001s`. -/
def duration (milliseconds : Nat) : String :=
  if milliseconds = 0 then "0ns"
  else if milliseconds < 1000 then toString milliseconds ++ "ms"
  else if milliseconds % 1000 = 0 then toString (milliseconds / 1000) ++ "s"
  else toString (milliseconds / 1000) ++ "." ++ fraction 3 (milliseconds % 1000) ++ "s"

end Keystrokes.Text
