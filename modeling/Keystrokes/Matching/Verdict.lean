import Keystrokes.Matching.Trail
import Keystrokes.Note

/-!
# Verdicts

A matcher answers each keystroke with a verdict: which shortcuts have just been
typed in full, and whether a further keystroke could complete a shortcut.
-/

set_option autoImplicit false

namespace Keystrokes

/-- The answer to one keystroke.  Shortcuts are known by their position in the
list they were registered in. -/
structure Verdict where
  /-- The shortcuts that have been typed in full, in ascending order. -/
  matched : List Nat := []
  /-- Whether a further keystroke could complete a shortcut. -/
  possible : Bool := false
  deriving DecidableEq

/-- Whether the keystroke has led nowhere. -/
def Verdict.isDead (verdict : Verdict) : Bool :=
  verdict.matched.isEmpty && !verdict.possible

/-- What is told about a keystroke given to a matcher: the keystroke itself, the
modifier that the trail lets go, and whether the matcher starts again. -/
def Trail.notes (matcher : MatcherKind) (tracked : Modifiers) (trail : Trail)
    (stroke : Keystroke) (verdict : Verdict) : List Note :=
  .struck matcher stroke :: (trail.dropped? tracked stroke).toList.map .dropped
    ++ if verdict.possible then [] else [.restarted matcher (trail.extend tracked stroke).size]

end Keystrokes
