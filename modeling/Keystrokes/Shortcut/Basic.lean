import Keystrokes.Shortcut.Chord

/-!
# Shortcuts

A shortcut is one chord, or several chords to be typed in order.
-/

set_option autoImplicit false

namespace Keystrokes

/-- A list of chords that is not empty. -/
structure Shortcut where
  first : Chord
  later : List Chord := []
  deriving DecidableEq

namespace Shortcut

/-- The chords, in the order in which they are typed. -/
def chords (shortcut : Shortcut) : List Chord :=
  shortcut.first :: shortcut.later

/-- The shortcut of a list of chords, if there is one. -/
def ofChords? : List Chord → Option Shortcut
  | [] => none
  | first :: later => some ⟨first, later⟩

@[simp] theorem chords_ne_nil (shortcut : Shortcut) : shortcut.chords ≠ [] := by
  simp [chords]

@[simp] theorem ofChords?_chords (shortcut : Shortcut) :
    ofChords? shortcut.chords = some shortcut := rfl

/-- The number of chords. -/
def size (shortcut : Shortcut) : Nat :=
  shortcut.chords.length

/-- Whether there is more than one chord. -/
def hasSeveral (shortcut : Shortcut) : Bool :=
  1 < shortcut.size

/-- The chords of one shortcut and then those of another. -/
def append (shortcut next : Shortcut) : Shortcut :=
  ⟨shortcut.first, shortcut.later ++ next.chords⟩

@[simp] theorem chords_append (shortcut next : Shortcut) :
    (shortcut.append next).chords = shortcut.chords ++ next.chords := rfl

/-- A shortcut in words. -/
def text (shortcut : Shortcut) : String :=
  " ".intercalate (shortcut.chords.map Chord.text)

end Shortcut

end Keystrokes
