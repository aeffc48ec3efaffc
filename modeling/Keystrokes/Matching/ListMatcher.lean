import Keystrokes.Matching.Verdict
import Keystrokes.Shortcut.Standing

/-!
# The list matcher

The list matcher holds its shortcuts in a list and, on each keystroke, asks every
one of them where the whole trail leaves it.
-/

set_option autoImplicit false

namespace Keystrokes

/-- A matcher that asks every shortcut. -/
structure ListMatcher where
  shortcuts : List Shortcut
  tracked : Modifiers
  trail : Trail := Trail.empty
  deriving DecidableEq

namespace ListMatcher

/-- Where every shortcut stands after a trail, in the order of registration. -/
def standings (matcher : ListMatcher) (trail : Trail) : List Standing :=
  matcher.shortcuts.map fun shortcut => shortcut.standing matcher.tracked trail.strokes

/-- The positions at which a standing occurs in a list. -/
def positions (wanted : Standing) (standings : List Standing) : List Nat :=
  (standings.zipIdx.filter fun entry => entry.1 == wanted).map Prod.snd

/-- The verdict on some standings. -/
def verdict (standings : List Standing) : Verdict where
  matched := positions .matched standings
  possible := standings.contains .possible || standings.contains .awaiting

/-- Whether the standings leave the last keystroke provisional: some shortcut
awaits it, and none is met by it. -/
def leavesProvisional (standings : List Standing) : Bool :=
  standings.contains .awaiting
    && !(standings.contains .matched || standings.contains .possible)

/-- Give the matcher one more keystroke.  When no further keystroke could complete
a shortcut, it starts again. -/
def step (matcher : ListMatcher) (stroke : Keystroke) : ListMatcher × Verdict :=
  let extended := matcher.trail.extend matcher.tracked stroke
  let standings := matcher.standings extended
  let verdict := verdict standings
  let trail := if verdict.possible then extended.mark (leavesProvisional standings)
    else Trail.empty
  ({ matcher with trail }, verdict)

/-- Start again. -/
def restart (matcher : ListMatcher) : ListMatcher :=
  { matcher with trail := Trail.empty }

/-- What is told about one more keystroke. -/
def notes (matcher : ListMatcher) (stroke : Keystroke) : List Note :=
  matcher.trail.notes .list matcher.tracked stroke (matcher.step stroke).2

end ListMatcher

end Keystrokes
