/-!
# Blanks, keys and texts of TOML

A reader takes a list of characters and gives what it has read and the characters
after it, or nothing.  The readers of this module read blanks, line ends, comments
and the four forms of text: in quotes or apostrophes, on one line or, in threes,
on several.
-/

set_option autoImplicit false

namespace Keystrokes.Toml

/-- A reader: what has been read, and what comes after it. -/
abbrev Reader (α : Type) := List Char → Option (α × List Char)

/-- How deep a document may lead: the most parts of a key, and the most arrays and
inline tables within one another. -/
def nestingLimit : Nat := 79

/-- What follows an expected character. -/
def expect? (expected : Char) : List Char → Option (List Char)
  | character :: rest => if character = expected then some rest else none
  | [] => none

/-! ## Blanks, line ends and comments -/

/-- A space or a tab. -/
def isSpace (character : Char) : Bool :=
  character == ' ' || character == '\t'

/-- A character that may stand in a comment or in an apostrophed text: the tab and
everything that is not a control. -/
def isPlain (character : Char) : Bool :=
  character == '\t' || (' ' ≤ character && character != '\x7f')

/-- What follows the spaces. -/
def skipSpaces (input : List Char) : List Char :=
  input.dropWhile isSpace

/-- What follows a line end, if there is one. -/
def newline? : List Char → Option (List Char)
  | '\n' :: rest => some rest
  | '\r' :: '\n' :: rest => some rest
  | _ => none

/-- What follows a comment; without a comment, everything. -/
def skipComment : List Char → List Char
  | '#' :: rest => rest.dropWhile isPlain
  | input => input

/-- What follows the end of a line that may hold spaces and a comment.  The end of
the document ends a line too. -/
def lineEnd? (input : List Char) : Option (List Char) :=
  match skipComment (skipSpaces input) with
  | [] => some []
  | rest => newline? rest

/-- What follows spaces, line ends and comments.  A comment runs to the first
character that may not stand in it. -/
def skipLines (inComment : Bool) : List Char → List Char
  | [] => []
  | '\n' :: rest => skipLines false rest
  | '\r' :: '\n' :: rest => skipLines false rest
  | character :: rest =>
      if inComment && isPlain character then skipLines true rest
      else if character == '#' then skipLines true rest
      else if isSpace character then skipLines false rest
      else character :: rest

/-! ## Escapes -/

/-- The value of a hexadecimal digit. -/
def hexDigit? (character : Char) : Option Nat :=
  if character.isDigit then some (character.toNat - '0'.toNat)
  else if 'a' ≤ character && character ≤ 'f' then some (character.toNat - 'a'.toNat + 10)
  else if 'A' ≤ character && character ≤ 'F' then some (character.toNat - 'A'.toNat + 10)
  else none

/-- The number of so many hexadecimal digits. -/
def hexNumber? (count value : Nat) : Reader Nat := fun input =>
  match count, input with
  | 0, _ => some (value, input)
  | _ + 1, [] => none
  | count + 1, digit :: rest => do
      hexNumber? count (16 * value + (← hexDigit? digit)) rest

/-- The character of a number, if it has one: numbers of surrogates have none. -/
def characterOf? (number : Nat) : Option Char :=
  if number.isValidChar then some (Char.ofNat number) else none

/-- The character that an escape stands for, read after the backslash. -/
def escape? : Reader Char
  | 'b' :: rest => some ('\x08', rest)
  | 'f' :: rest => some ('\x0c', rest)
  | 'n' :: rest => some ('\n', rest)
  | 'r' :: rest => some ('\r', rest)
  | 't' :: rest => some ('\t', rest)
  | '"' :: rest => some ('"', rest)
  | '\\' :: rest => some ('\\', rest)
  | 'u' :: rest => do
      let (number, rest) ← hexNumber? 4 0 rest
      return (← characterOf? number, rest)
  | 'U' :: rest => do
      let (number, rest) ← hexNumber? 8 0 rest
      return (← characterOf? number, rest)
  | _ => none

/-! ## Texts on one line -/

/-- The rest of a quoted text, read after its opening quote.  `budget` is at least
the number of characters left. -/
def quotedRest? : Nat → Reader (List Char)
  | 0, _ => none
  | budget + 1, input =>
      match input with
      | [] => none
      | '"' :: rest => some ([], rest)
      | '\\' :: rest => do
          let (character, rest) ← escape? rest
          let (text, rest) ← quotedRest? budget rest
          return (character :: text, rest)
      | character :: rest =>
          if isPlain character then do
            let (text, rest) ← quotedRest? budget rest
            return (character :: text, rest)
          else none

/-- The rest of an apostrophed text, read after its opening apostrophe. -/
def apostrophedRest? : Reader (List Char)
  | [] => none
  | '\'' :: rest => some ([], rest)
  | character :: rest =>
      if isPlain character then do
        let (text, rest) ← apostrophedRest? rest
        return (character :: text, rest)
      else none

/-! ## Texts on several lines -/

/-- How the end of a text on several lines is told from delimiters inside it: of a
run of delimiters, one or two belong to the text, and three end it, after at most
two that still belong to it.  Gives the delimiters that belong to the text, the
characters after the run, and whether the text has ended. -/
def delimiterRun (delimiter : Char) (input : List Char) : List Char × List Char × Bool :=
  let count := (input.takeWhile (· == delimiter)).length
  if count < 3 then (List.replicate count delimiter, input.drop count, false)
  else
    let inside := min (count - 3) 2
    (List.replicate inside delimiter, input.drop (inside + 3), true)

/-- What follows a backslash at the end of a line: everything up to the next
character that is neither a space nor a line end. -/
def continuedLine? (input : List Char) : Option (List Char) := do
  let rest ← newline? (skipSpaces input)
  return skipBlankLines rest
where
  /-- What follows spaces and line ends. -/
  skipBlankLines : List Char → List Char
    | '\n' :: rest => skipBlankLines rest
    | '\r' :: '\n' :: rest => skipBlankLines rest
    | character :: rest => if isSpace character then skipBlankLines rest else character :: rest
    | [] => []

/-- The rest of a text on several lines, read after its opening and the line end
that may follow it.  Line ends are read as line feeds.  Only in quotes has the
backslash a meaning.  `budget` is at least the number of characters left. -/
def severalLinesRest? (delimiter : Char) : Nat → Reader (List Char)
  | 0, _ => none
  | budget + 1, input =>
      match newline? input with
      | some rest => do
          let (text, rest) ← severalLinesRest? delimiter budget rest
          return ('\n' :: text, rest)
      | none =>
          match input with
          | [] => none
          | character :: rest =>
              if character == delimiter then
                let (inside, rest, ended) := delimiterRun delimiter input
                if ended then some (inside, rest)
                else do
                  let (text, rest) ← severalLinesRest? delimiter budget rest
                  return (inside ++ text, rest)
              else if character == '\\' && delimiter == '"' then
                match continuedLine? rest with
                | some rest => severalLinesRest? delimiter budget rest
                | none => do
                    let (escaped, rest) ← escape? rest
                    let (text, rest) ← severalLinesRest? delimiter budget rest
                    return (escaped :: text, rest)
              else if isPlain character then do
                let (text, rest) ← severalLinesRest? delimiter budget rest
                return (character :: text, rest)
              else none

/-- A text on several lines, read after the three delimiters that open it.  A line
end right after them does not belong to the text. -/
def severalLines? (delimiter : Char) : Reader (List Char) := fun input =>
  let body := (newline? input).getD input
  severalLinesRest? delimiter (body.length + 1) body

/-! ## Texts and keys -/

/-- A text on one line. -/
def singleLineText? : Reader String := fun input =>
  match input with
  | '"' :: rest => do
      let (text, rest) ← quotedRest? (rest.length + 1) rest
      return (String.ofList text, rest)
  | '\'' :: rest => do
      let (text, rest) ← apostrophedRest? rest
      return (String.ofList text, rest)
  | _ => none

/-- A text of any form. -/
def text? : Reader String := fun input =>
  match input with
  | '"' :: '"' :: '"' :: rest => do
      let (text, rest) ← severalLines? '"' rest
      return (String.ofList text, rest)
  | '\'' :: '\'' :: '\'' :: rest => do
      let (text, rest) ← severalLines? '\'' rest
      return (String.ofList text, rest)
  | _ => singleLineText? input

/-- A character of a key without quotes. -/
def isKeyCharacter (character : Char) : Bool :=
  character.isAlphanum || character == '_' || character == '-'

/-- A key without dots: a text on one line, or bare. -/
def simpleKey? : Reader String := fun input =>
  match singleLineText? input with
  | some read => some read
  | none =>
      let bare := input.takeWhile isKeyCharacter
      if bare.isEmpty then none else some (String.ofList bare, input.dropWhile isKeyCharacter)

/-- A key with dots between its parts, and with spaces around them.  `budget` is
at least the number of characters left. -/
def keyParts? : Nat → Reader (List String)
  | 0, _ => none
  | budget + 1, input => do
      let (part, rest) ← simpleKey? (skipSpaces input)
      match skipSpaces rest with
      | '.' :: rest => do
          let (parts, rest) ← keyParts? budget rest
          return (part :: parts, rest)
      | rest => return ([part], rest)

/-- A key: the tables it leads through, and its last part.  It has no more parts than
values may be nested. -/
def key? : Reader (List String × String) := fun input => do
  let (parts, rest) ← keyParts? (input.length + 1) input
  if parts.length ≤ nestingLimit then return ((parts.dropLast, parts.getLastD ""), rest)
  else none

end Keystrokes.Toml
