import Keystrokes.Keyboard.Platform
import Keystrokes.Shortcut.Basic
import Keystrokes.Text.Blank

/-!
# Shortcuts as people write them

A shortcut is written as words with blanks between them, one word for each chord,
such as `$mod+Alt+s Shift+a`.  A `+` that follows an ASCII letter, an ASCII digit
or an underscore separates the tokens of a word; any other `+` belongs to a
token, so that `Shift++` asks for the plus key.  The last token is the key, the
others are modifiers, and `$mod` among them is the platform's own modifier.

Every text is a shortcut.  A blank text has no word and is read as one chord
without modifiers whose key is the empty text.
-/

set_option autoImplicit false

namespace Keystrokes

/-! ## Tokens -/

/-- Whether a `+` after this character separates tokens: an ASCII letter, an
ASCII digit or an underscore. -/
def isWordCharacter (character : Char) : Bool :=
  character.isAlphanum || character == '_'

/-- The tokens of a word, where `afterWord` tells whether the character before
the text is a word character. -/
def tokensFrom (afterWord : Bool) : List Char → List (List Char)
  | [] => [[]]
  | character :: rest =>
      if afterWord && character == '+' then [] :: tokensFrom false rest
      else (tokensFrom (isWordCharacter character) rest).modifyHead (character :: ·)

/-- The tokens of a word. -/
def tokens (word : List Char) : List (List Char) :=
  tokensFrom false word

/-! ## Chords and shortcuts -/

/-- The name that stands for the platform's own modifier. -/
def ownModifierAlias : String := "$mod"

/-- The name that a modifier token means on a platform. -/
def Platform.resolve (platform : Platform) (token : String) : String :=
  if token == ownModifierAlias then platform.ownModifier.name else token

/-- The chord that a word writes. -/
def Chord.ofWord (platform : Platform) (word : List Char) : Chord :=
  let parts := (tokens word).map String.ofList
  { required := RequiredModifiers.ofNames (parts.dropLast.map platform.resolve)
    key := parts.getLastD "" }

/-- The chord that a text writes when it is taken as one word, blanks and all. -/
def Chord.ofText (platform : Platform) (text : String) : Chord :=
  Chord.ofWord platform text.toList

/-- The shortcut that a text writes. -/
def Shortcut.ofText (platform : Platform) (text : String) : Shortcut :=
  match (Text.words text.toList).map (Chord.ofWord platform) with
  | [] => ⟨Chord.ofWord platform [], []⟩
  | first :: later => ⟨first, later⟩

end Keystrokes
