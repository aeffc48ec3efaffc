import Keystrokes.Toml.Text

/-!
# Numbers of TOML

Integers are signed and have 64 bits.  Floats are recognised, and only it is read
whether they are well formed, which asks that a float written without a minus sign
be finite.
-/

set_option autoImplicit false

namespace Keystrokes.Toml

/-! ## Digits -/

/-- What follows digits, single underscores between them allowed; the first of
them has been read.  An underscore has to be followed by a digit. -/
def digitsRest? (isDigit : Char → Bool) : Reader (List Char)
  | '_' :: digit :: rest =>
      if isDigit digit then do
        let (digits, rest) ← digitsRest? isDigit rest
        return (digit :: digits, rest)
      else none
  | ['_'] => none
  | digit :: rest =>
      if isDigit digit then do
        let (digits, rest) ← digitsRest? isDigit rest
        return (digit :: digits, rest)
      else some ([], digit :: rest)
  | [] => some ([], [])

/-- One or more digits, single underscores between them allowed. -/
def digits? (isDigit : Char → Bool) : Reader (List Char)
  | digit :: rest =>
      if isDigit digit then do
        let (digits, rest) ← digitsRest? isDigit rest
        return (digit :: digits, rest)
      else none
  | [] => none

/-- The number of some digits in a base. -/
def numberOf (base : Nat) (digits : List Char) : Nat :=
  digits.foldl (fun value digit => base * value + (hexDigit? digit).getD 0) 0

/-- A sign, if there is one: whether it is a minus, and what follows it. -/
def sign : List Char → Bool × List Char
  | '+' :: rest => (false, rest)
  | '-' :: rest => (true, rest)
  | input => (false, input)

/-- Decimal digits without a needless zero in front. -/
def decimalDigits? : Reader (List Char)
  | '0' :: rest => some (['0'], rest)
  | input => digits? Char.isDigit input

/-! ## Integers -/

/-- An integer, if 64 bits are enough for it. -/
def int64? (value : Int) : Option Int :=
  if -Nat.pow 2 63 ≤ value && value < Nat.pow 2 63 then some value else none

/-- An integer in a base that its two first characters name. -/
def basedInteger? (base : Nat) (isDigit : Char → Bool) : Reader Int := fun input => do
  let (digits, rest) ← digits? isDigit input
  return (← int64? (numberOf base digits), rest)

/-- An integer. -/
def integer? : Reader Int
  | '0' :: 'x' :: rest => basedInteger? 16 (fun digit => (hexDigit? digit).isSome) rest
  | '0' :: 'o' :: rest => basedInteger? 8 (fun digit => '0' ≤ digit && digit ≤ '7') rest
  | '0' :: 'b' :: rest => basedInteger? 2 (fun digit => '0' ≤ digit && digit ≤ '1') rest
  | input => do
      let (negative, rest) := sign input
      let (digits, rest) ← decimalDigits? rest
      let value : Int := numberOf 10 digits
      return (← int64? (if negative then -value else value), rest)

/-! ## Floats -/

/-- Whether a decimal number is too large for a double: at least the least power of
two that a double does not reach, less half the distance between the largest
doubles.  The number is `digits` with the point after `whole` of them, times ten
to the power of `exponent`. -/
def exceedsDouble (digits : List Char) (whole : Nat) (exponent : Int) : Bool :=
  let significant := digits.dropWhile (· == '0')
  let scale : Int := whole - (digits.length - significant.length : Nat) + exponent
  if significant.isEmpty || scale < 309 then false
  else if scale > 309 then true
  else
    let limit := Nat.pow 2 1024 - Nat.pow 2 970
    let count := significant.length
    if count ≤ 309 then limit ≤ numberOf 10 significant * Nat.pow 10 (309 - count)
    else limit * Nat.pow 10 (count - 309) ≤ numberOf 10 significant

/-- The exponent of a float, after its letter. -/
def exponent? : Reader Int := fun input => do
  let (negative, rest) := sign input
  let (digits, rest) ← digits? Char.isDigit rest
  let value : Int := numberOf 10 digits
  return (if negative then -value else value, rest)

/-- The exponent of a float, if it has one. -/
def optionalExponent? : Reader Int
  | 'e' :: rest => exponent? rest
  | 'E' :: rest => exponent? rest
  | input => some (0, input)

/-- A float: digits with a fraction, an exponent or both, or one of the words for
infinity and for no number. -/
def float? : Reader Unit := fun input => do
  let (negative, rest) := sign input
  match rest with
  | 'i' :: 'n' :: 'f' :: rest => return ((), rest)
  | 'n' :: 'a' :: 'n' :: rest => return ((), rest)
  | _ =>
      let (whole, rest) ← decimalDigits? rest
      let (fraction, rest) ← match rest with
        | '.' :: rest => digits? Char.isDigit rest
        | 'e' :: _ | 'E' :: _ => some ([], rest)
        | _ => none
      let (exponent, rest) ← optionalExponent? rest
      if !negative && exceedsDouble (whole ++ fraction) whole.length exponent then none
      else return ((), rest)

end Keystrokes.Toml
