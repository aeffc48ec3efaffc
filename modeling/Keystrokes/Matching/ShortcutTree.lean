import Keystrokes.Shortcut.Basic

/-!
# Shortcut trees

Shortcuts that begin with the same chords share the nodes for them.  The nodes are
kept in one list and known by their position; the root comes first and has no
chord, and every other node comes after its parent.  A node carries the shortcuts
that end at it.
-/

set_option autoImplicit false

namespace Keystrokes

/-- A node of a shortcut tree. -/
structure TreeNode where
  /-- The chord that leads from the parent to the node; the root has none. -/
  chord : Option Chord := none
  /-- The nodes one chord further on, in the order of their making. -/
  children : List Nat := []
  /-- The shortcuts that end here, in ascending order. -/
  shortcuts : List Nat := []
  deriving DecidableEq

/-- Shortcuts that share their common beginnings. -/
structure ShortcutTree where
  nodes : List TreeNode := [{}]
  /-- The number of shortcuts. -/
  size : Nat := 0
  deriving DecidableEq

namespace ShortcutTree

/-- The node before any chord. -/
def root : Nat := 0

/-- The node at a position; there is nothing at a position without a node. -/
def node (tree : ShortcutTree) (position : Nat) : TreeNode :=
  tree.nodes.getD position {}

/-- The nodes one chord further on. -/
def children (tree : ShortcutTree) (position : Nat) : List Nat :=
  (tree.node position).children

/-- The shortcuts that end at a node. -/
def endingAt (tree : ShortcutTree) (position : Nat) : List Nat :=
  (tree.node position).shortcuts

/-- The child that a chord leads to, if there is one. -/
def child? (tree : ShortcutTree) (parent : Nat) (chord : Chord) : Option Nat :=
  (tree.children parent).find? fun child => (tree.node child).chord == some chord

/-- The tree with a new child for a chord. -/
def grow (tree : ShortcutTree) (parent : Nat) (chord : Chord) : ShortcutTree :=
  { tree with
    nodes :=
      tree.nodes.modify parent
          (fun node => { node with children := node.children ++ [tree.nodes.length] })
        ++ [{ chord := some chord }] }

/-- The child that a chord leads to, made if it was not there. -/
def child (tree : ShortcutTree) (parent : Nat) (chord : Chord) : Nat × ShortcutTree :=
  match tree.child? parent chord with
  | some position => (position, tree)
  | none => (tree.nodes.length, tree.grow parent chord)

/-- The node that a list of chords leads to, with every node on the way made if
it was not there. -/
def descend (tree : ShortcutTree) (position : Nat) : List Chord → Nat × ShortcutTree
  | [] => (position, tree)
  | chord :: later =>
      let (next, grown) := tree.child position chord
      grown.descend next later

/-- The tree with one more shortcut, which gets the next free number. -/
def insert (tree : ShortcutTree) (shortcut : Shortcut) : ShortcutTree :=
  let (last, grown) := tree.descend root shortcut.chords
  { nodes := grown.nodes.modify last
      (fun node => { node with shortcuts := node.shortcuts ++ [tree.size] })
    size := tree.size + 1 }

/-- The tree of a list of shortcuts, numbered in the order of the list. -/
def ofShortcuts (shortcuts : List Shortcut) : ShortcutTree :=
  shortcuts.foldl insert {}

end ShortcutTree

end Keystrokes
