import Keystrokes.Shortcut.Basic

/-!
# Where a shortcut stands

Some keystrokes leave a shortcut typed in full, on its way, or out of reach.  This
is told by walking chords and keystrokes side by side: every keystroke but the last
has to meet its chord, and the last one may also be a modifier that its chord still
waits for.
-/

set_option autoImplicit false

namespace Keystrokes

/-- Where a shortcut stands after some keystrokes. -/
inductive Standing where
  /-- Every chord has been met. -/
  | matched
  /-- Every keystroke meets its chord, and chords are left. -/
  | possible
  /-- Every keystroke but the last meets its chord, and the last is a modifier
  that its chord waits for. -/
  | awaiting
  /-- The keystrokes do not lead to the shortcut. -/
  | dead
  deriving DecidableEq

/-- Where the last keystroke leaves the chord it faces, with the chords after it. -/
def Chord.standing (tracked : Modifiers) (chord : Chord) (later : List Chord)
    (stroke : Keystroke) : Standing :=
  if chord.metBy stroke then
    if later.isEmpty then .matched else .possible
  else if tracked.tracksKey stroke.key && chord.awaits stroke then .awaiting
  else .dead

/-- Where some keystrokes leave a list of chords.  No keystroke at all leaves it
dead, and so do more keystrokes than chords. -/
def standing (tracked : Modifiers) : List Chord → List Keystroke → Standing
  | chord :: later, [stroke] => chord.standing tracked later stroke
  | chord :: later, stroke :: next :: strokes =>
      if chord.metBy stroke then standing tracked later (next :: strokes) else .dead
  | _, _ => .dead

/-- Where some keystrokes leave a shortcut. -/
def Shortcut.standing (tracked : Modifiers) (shortcut : Shortcut) (strokes : List Keystroke) :
    Standing :=
  Keystrokes.standing tracked shortcut.chords strokes

end Keystrokes
