import Keystrokes.Matching.ListMatcher
import Keystrokes.Matching.TreeMatcher

/-!
# Matchers

A matcher looks at its shortcuts as a list or as a tree.  Either way it answers
keystrokes with verdicts, keeps a trail and can start again; this module gives both
one face.
-/

set_option autoImplicit false

namespace Keystrokes

/-- A matcher of either kind. -/
inductive Matcher where
  | list (matcher : ListMatcher)
  | tree (matcher : TreeMatcher)
  deriving DecidableEq

namespace Matcher

/-- Give the matcher one more keystroke. -/
def step (matcher : Matcher) (stroke : Keystroke) : Matcher × Verdict :=
  match matcher with
  | .list inner => ((inner.step stroke).map .list id)
  | .tree inner => ((inner.step stroke).map .tree id)

/-- Start again. -/
def restart : Matcher → Matcher
  | .list inner => .list inner.restart
  | .tree inner => .tree inner.restart

/-- What is told about one more keystroke. -/
def notes (matcher : Matcher) (stroke : Keystroke) : List Note :=
  match matcher with
  | .list inner => inner.notes stroke
  | .tree inner => inner.notes stroke

/-- The keystrokes typed so far. -/
def trail : Matcher → Trail
  | .list inner => inner.trail
  | .tree inner => inner.trail

/-- The number of shortcuts. -/
def size : Matcher → Nat
  | .list inner => inner.shortcuts.length
  | .tree inner => inner.tree.size

end Matcher

end Keystrokes
