import Keystrokes.Matching.ShortcutTree
import Keystrokes.Matching.Verdict

/-!
# The tree matcher

The tree matcher walks a shortcut tree.  It remembers, for each keystroke of the
trail, the nodes that the keystrokes up to it lead to: the frontier of that
keystroke.  One more keystroke moves on from the last frontier, or from the root
when nothing has been typed.
-/

set_option autoImplicit false

namespace Keystrokes

/-- A matcher that walks a tree of shortcuts. -/
structure TreeMatcher where
  tree : ShortcutTree
  tracked : Modifiers
  trail : Trail := Trail.empty
  /-- For each keystroke of the trail the nodes reached with it, the oldest first. -/
  frontiers : List (List Nat) := []
  deriving DecidableEq

namespace TreeMatcher

/-- The tree matcher of a list of shortcuts. -/
def ofShortcuts (shortcuts : List Shortcut) (tracked : Modifiers) : TreeMatcher :=
  { tree := ShortcutTree.ofShortcuts shortcuts, tracked }

/-- The last of some frontiers; before the first keystroke it is the root. -/
def lastFrontier (frontiers : List (List Nat)) : List Nat :=
  frontiers.getLastD [ShortcutTree.root]

/-- The nodes from which the next keystroke moves on. -/
def frontier (matcher : TreeMatcher) : List Nat :=
  lastFrontier matcher.frontiers

/-! ## Moving on by one keystroke -/

/-- The nodes that are one chord further on than some others. -/
def successors (tree : ShortcutTree) (frontier : List Nat) : List Nat :=
  frontier.flatMap tree.children

/-- The nodes that a keystroke leads to. -/
def reached (tree : ShortcutTree) (frontier : List Nat) (stroke : Keystroke) : List Nat :=
  (successors tree frontier).filter fun position =>
    (tree.node position).chord.any fun chord => chord.metBy stroke

/-- Whether a keystroke is a modifier that a chord further on waits for. -/
def awaited (tree : ShortcutTree) (tracked : Modifiers) (frontier : List Nat)
    (stroke : Keystroke) : Bool :=
  tracked.tracksKey stroke.key && (successors tree frontier).any fun position =>
    (tree.node position).chord.any fun chord => !chord.metBy stroke && chord.awaits stroke

/-- Numbers in ascending order, each of them once. -/
def ascending (numbers : List Nat) : List Nat :=
  (numbers.mergeSort fun left right => left ≤ right).eraseReps

/-- The verdict on the nodes that a keystroke leads to. -/
def verdict (tree : ShortcutTree) (reached : List Nat) (awaited : Bool) : Verdict where
  matched := ascending (reached.flatMap tree.endingAt)
  possible := awaited || reached.any fun position => !(tree.children position).isEmpty

/-! ## The steps of the matcher -/

/-- The frontiers that stay when a keystroke is added: when it takes the place of
the last one, the last frontier goes. -/
def keptFrontiers (matcher : TreeMatcher) (stroke : Keystroke) : List (List Nat) :=
  if (matcher.trail.replaced? matcher.tracked stroke).isSome then matcher.frontiers.dropLast
  else matcher.frontiers

/-- Start again. -/
def restart (matcher : TreeMatcher) : TreeMatcher :=
  { matcher with trail := Trail.empty, frontiers := [] }

/-- Give the matcher one more keystroke.  When no further keystroke could complete
a shortcut, it starts again. -/
def step (matcher : TreeMatcher) (stroke : Keystroke) : TreeMatcher × Verdict :=
  let frontiers := matcher.keptFrontiers stroke
  let frontier := lastFrontier frontiers
  let reached := reached matcher.tree frontier stroke
  let verdict := verdict matcher.tree reached
    (awaited matcher.tree matcher.tracked frontier stroke)
  if verdict.possible then
    ({ matcher with
        trail := (matcher.trail.extend matcher.tracked stroke).mark reached.isEmpty
        frontiers := frontiers ++ [reached] }, verdict)
  else (matcher.restart, verdict)

/-- What is told about one more keystroke. -/
def notes (matcher : TreeMatcher) (stroke : Keystroke) : List Note :=
  matcher.trail.notes .tree matcher.tracked stroke (matcher.step stroke).2

end TreeMatcher

end Keystrokes
