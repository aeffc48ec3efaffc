import Keystrokes.Keyboard.Keystroke

/-!
# Trails

The trail holds the keystrokes typed so far towards some shortcut.  A modifier goes
down before the key it belongs to, so a keystroke of a tracked modifier is folded
into the next keystroke when that one still holds it.  A keystroke that only serves
as a modifier being waited for is provisional: if the modifier is let go, the next
keystroke takes its place.
-/

set_option autoImplicit false

namespace Keystrokes

/-- The keystrokes typed so far. -/
structure Trail where
  /-- The keystrokes, the oldest first. -/
  strokes : List Keystroke := []
  /-- Whether the last keystroke is only a modifier being waited for. -/
  provisional : Bool := false
  deriving DecidableEq

namespace Trail

/-- The trail before anything is typed. -/
def empty : Trail := {}

/-- The number of keystrokes. -/
def size (trail : Trail) : Nat :=
  trail.strokes.length

/-- The last keystroke, if the next one takes its place. -/
def replaced? (tracked : Modifiers) (trail : Trail) (next : Keystroke) : Option Keystroke :=
  trail.strokes.getLast?.filter fun last => last.foldsInto tracked next || trail.provisional

/-- The last keystroke, if the next one takes its place because the modifier has
been let go. -/
def dropped? (tracked : Modifiers) (trail : Trail) (next : Keystroke) : Option Keystroke :=
  (trail.replaced? tracked next).filter fun last => !last.foldsInto tracked next

/-- The trail after one more keystroke, which is not provisional. -/
def extend (tracked : Modifiers) (trail : Trail) (next : Keystroke) : Trail where
  strokes :=
    (if (trail.replaced? tracked next).isSome then trail.strokes.dropLast else trail.strokes)
      ++ [next]

/-- Mark the last keystroke as provisional or not; without a keystroke there is
nothing to mark. -/
def mark (trail : Trail) (provisional : Bool) : Trail :=
  { trail with provisional := provisional && !trail.strokes.isEmpty }

end Trail

end Keystrokes
