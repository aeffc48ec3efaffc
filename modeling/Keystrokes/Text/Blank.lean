/-!
# Blank characters and words

A blank is a character with the Unicode property `White_Space`.  There are
twenty-five of them; the zero-width space U+200B and the byte order mark U+FEFF
are not among them.  Text is cut at blanks into words, and a text is blank when
it has no word.
-/

set_option autoImplicit false

namespace Keystrokes.Text

/-! ## The property -/

/-- The code points with the property `White_Space`, as closed ranges. -/
def blankRanges : List (Nat × Nat) :=
  [(0x09, 0x0d), (0x20, 0x20), (0x85, 0x85), (0xa0, 0xa0), (0x1680, 0x1680),
    (0x2000, 0x200a), (0x2028, 0x2029), (0x202f, 0x202f), (0x205f, 0x205f),
    (0x3000, 0x3000)]

/-- Whether a character is blank. -/
def isBlank (character : Char) : Bool :=
  blankRanges.any fun range => range.1 ≤ character.toNat && character.toNat ≤ range.2

/-- A text all of whose characters are blank. -/
def allBlank (text : String) : Bool :=
  text.toList.all isBlank

/-! ## Cutting at blanks -/

/-- The stretches between blanks, empty ones included: one more than there are
blanks. -/
def stretches : List Char → List (List Char)
  | [] => [[]]
  | character :: rest =>
      if isBlank character then [] :: stretches rest
      else (stretches rest).modifyHead (character :: ·)

/-- The words of a text: its stretches that are not empty. -/
def words (text : List Char) : List (List Char) :=
  (stretches text).filter fun stretch => !stretch.isEmpty

end Keystrokes.Text
