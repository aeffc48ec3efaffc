import Keystrokes.Proofs.Matching.Sharing
import Keystrokes.Shortcut.Written
import Mathlib.Data.Finset.Card

/-!
# The tree of shortcuts is the trie of their beginnings

A beginning of some shortcuts is a list of chords, at least one, with which one of them
begins.  The tree of a list has one node for each of its beginnings and the root besides,
and no other node (`is_trie_of_beginnings`).  So two shortcuts share a node exactly as far
as they begin alike, however the list is ordered and whatever it repeats.

That every path is a beginning, and every beginning a path, is what a tree holds
(`Represents`).  It remains that no node is without a path (`IsTree.exists_spells`): a node
comes after its parent, so the induction is on positions.
-/

set_option autoImplicit false

namespace Keystrokes

namespace ShortcutTree

/-! ## Beginnings -/

/-- The different lists of chords, other than the empty one, with which some shortcuts
begin. -/
def beginnings (shortcuts : List Shortcut) : Finset (List Chord) :=
  (shortcuts.flatMap fun shortcut => shortcut.chords.inits).toFinset.erase []

theorem mem_beginnings {shortcuts : List Shortcut} {path : List Chord} :
    path ∈ beginnings shortcuts ↔
      path ≠ [] ∧ ∃ shortcut ∈ shortcuts, path <+: shortcut.chords := by
  simp [beginnings]

/-! ## Every node has a path -/

variable {tree : ShortcutTree}

/-- **Every node of a tree that is well formed has a path.** -/
theorem IsTree.exists_spells (isTree : tree.IsTree) {position : Nat}
    (isNode : position < tree.nodes.length) : ∃ path, tree.Spells path position := by
  induction position using Nat.strong_induction_on with
  | _ position hypothesis =>
      rcases Nat.eq_zero_or_pos position with rfl | afterRoot
      · exact ⟨[], .root⟩
      · obtain ⟨parent, isChild⟩ := isTree.has_parent position afterRoot isNode
        obtain ⟨isBefore, -⟩ := isTree.child_after parent position isChild
        obtain ⟨path, before⟩ := hypothesis parent isBefore (isBefore.trans isNode)
        obtain ⟨chord, hasChord⟩ :=
          Option.ne_none_iff_exists'.mp (isTree.child_chord parent position isChild)
        exact ⟨path ++ [chord], .child before isChild hasChord⟩

/-- A function that tells the path of every node. -/
theorem IsTree.exists_path (isTree : tree.IsTree) : ∃ pathTo : Nat → List Chord,
    ∀ position < tree.nodes.length, ∀ path, tree.Spells path position ↔ path = pathTo position := by
  choose! pathTo spelled using fun position (isNode : position < tree.nodes.length) =>
    isTree.exists_spells isNode
  refine ⟨pathTo, fun position isNode path => ⟨fun also => ?_, ?_⟩⟩
  · exact also.path_unique isTree (spelled position isNode)
  · rintro rfl
    exact spelled position isNode

/-! ## The trie -/

/-- The nodes of a tree other than the root. -/
def inner (tree : ShortcutTree) : Finset Nat :=
  (Finset.range tree.nodes.length).erase root

theorem mem_inner {position : Nat} :
    position ∈ tree.inner ↔ position ≠ root ∧ position < tree.nodes.length := by
  simp [inner]

/-- A tree is the trie of a list of shortcuts when its nodes are their beginnings and
each of them ends at the node of its chords. -/
structure IsTrieOf (tree : ShortcutTree) (shortcuts : List Shortcut) : Prop where
  /-- The root, and no other node, is without a chord. -/
  chord_eq_none_iff : ∀ position < tree.nodes.length,
    (tree.node position).chord = none ↔ position = root
  /-- Every other node is a child of one node, where it is listed once and which comes
  before it. -/
  one_parent : ∀ position ∈ tree.inner, ∃ parent < position,
    (tree.children parent).count position = 1 ∧
      ∀ other, position ∈ tree.children other → other = parent
  /-- Only such nodes are children. -/
  children_inner : ∀ parent, ∀ child ∈ tree.children parent, child ∈ tree.inner
  siblings_differ : ∀ parent, (tree.children parent).Pairwise fun first second =>
    (tree.node first).chord ≠ (tree.node second).chord
  /-- The nodes other than the root are the beginnings of the shortcuts, one each: a node
  is the beginning that is spelled on the way to it. -/
  one_to_one : ∃ pathTo : Nat → List Chord,
    (∀ position < tree.nodes.length, ∀ path,
      tree.Spells path position ↔ path = pathTo position) ∧
    Set.BijOn pathTo tree.inner (beginnings shortcuts)
  length_eq : tree.nodes.length = (beginnings shortcuts).card + 1
  /-- A shortcut ends at one node, where it is listed once and to which its chords lead. -/
  one_end : ∀ number shortcut, shortcuts[number]? = some shortcut → ∃ position,
    tree.Spells shortcut.chords position ∧ (tree.endingAt position).count number = 1 ∧
      ∀ other, number ∈ tree.endingAt other → other = position
  /-- Nothing ends at a node but shortcuts of the list. -/
  lt_of_mem_endingAt : ∀ position, ∀ number ∈ tree.endingAt position, number < shortcuts.length
  endingAt_ascending : ∀ position, (tree.endingAt position).Pairwise (· < ·)

namespace Represents

variable {shortcuts : List Shortcut} (holds : tree.Represents shortcuts)
include holds

/-- The paths to the nodes other than the root are the beginnings of the shortcuts. -/
theorem mem_beginnings_iff {path : List Chord} :
    path ∈ beginnings shortcuts ↔ ∃ position ∈ tree.inner, tree.Spells path position := by
  rw [mem_beginnings]
  constructor
  · rintro ⟨notEmpty, begins⟩
    obtain ⟨position, spelled⟩ := (holds.spells_iff path).mpr (.inr begins)
    refine ⟨position, mem_inner.mpr ⟨?_, spelled.lt_length holds.isTree⟩, spelled⟩
    exact fun isRoot => notEmpty ((spelled.eq_nil_iff holds.isTree).mpr isRoot)
  · rintro ⟨position, isInner, spelled⟩
    have notEmpty : path ≠ [] := fun isEmpty =>
      (mem_inner.mp isInner).1 ((spelled.eq_nil_iff holds.isTree).mp isEmpty)
    exact ⟨notEmpty, ((holds.spells_iff path).mp ⟨position, spelled⟩).resolve_left notEmpty⟩

/-- **The nodes other than the root are the beginnings, one each.** -/
theorem bijOn {pathTo : Nat → List Chord} (isPath : ∀ position < tree.nodes.length, ∀ path,
    tree.Spells path position ↔ path = pathTo position) :
    Set.BijOn pathTo tree.inner (beginnings shortcuts) := by
  have spelled : ∀ position ∈ tree.inner, tree.Spells (pathTo position) position :=
    fun position isInner => (isPath position (mem_inner.mp isInner).2 _).mpr rfl
  refine ⟨fun position isInner => ?_, fun first isFirst second isSecond same => ?_,
    fun path isBeginning => ?_⟩
  · exact holds.mem_beginnings_iff.mpr ⟨position, isInner, spelled position isInner⟩
  · exact (spelled first isFirst).node_unique holds.isTree (same ▸ spelled second isSecond)
  · obtain ⟨position, isInner, leads⟩ := holds.mem_beginnings_iff.mp isBeginning
    exact ⟨position, isInner, ((isPath position (mem_inner.mp isInner).2 path).mp leads).symm⟩

theorem card_inner : tree.inner.card = (beginnings shortcuts).card := by
  obtain ⟨pathTo, isPath⟩ := holds.isTree.exists_path
  exact Set.BijOn.finsetCard_eq pathTo (holds.bijOn isPath)

theorem isTrieOf : tree.IsTrieOf shortcuts where
  chord_eq_none_iff position isNode := by
    constructor
    · intro noChord
      by_contra notRoot
      obtain ⟨parent, isChild⟩ :=
        holds.isTree.has_parent position (Nat.pos_of_ne_zero notRoot) isNode
      exact holds.isTree.child_chord parent position isChild noChord
    · rintro rfl
      exact holds.isTree.root_chord
  one_parent position isInner := by
    obtain ⟨notRoot, isNode⟩ := mem_inner.mp isInner
    obtain ⟨parent, isChild⟩ :=
      holds.isTree.has_parent position (Nat.pos_of_ne_zero notRoot) isNode
    exact ⟨parent, (holds.isTree.child_after parent position isChild).1,
      List.count_eq_one_of_mem (holds.isTree.children_nodup parent) isChild,
      fun other isOther => holds.isTree.parent_unique other parent position isOther isChild⟩
  children_inner parent child isChild := by
    obtain ⟨after, isNode⟩ := holds.isTree.child_after parent child isChild
    exact mem_inner.mpr ⟨Nat.ne_zero_of_lt after, isNode⟩
  siblings_differ parent :=
    (holds.isTree.children_nodup parent).imp_of_mem fun isFirst isSecond different same =>
      different (holds.isTree.sibling_unique parent _ isFirst _ isSecond same)
  one_to_one := by
    obtain ⟨pathTo, isPath⟩ := holds.isTree.exists_path
    exact ⟨pathTo, isPath, holds.bijOn isPath⟩
  length_eq := by
    have hasRoot := holds.isTree.hasRoot
    have isErased : tree.inner.card = tree.nodes.length - 1 := by
      rw [inner, Finset.card_erase_of_mem (Finset.mem_range.mpr hasRoot), Finset.card_range]
    have sameCard := holds.card_inner
    omega
  one_end number shortcut found := by
    obtain ⟨position, spelled⟩ := (holds.spells_iff shortcut.chords).mpr
      (.inr ⟨shortcut, List.mem_of_getElem? found, List.prefix_refl _⟩)
    have ends : number ∈ tree.endingAt position :=
      (holds.mem_endingAt position number).mpr ⟨shortcut, found, spelled⟩
    refine ⟨position, spelled, List.count_eq_one_of_mem
      ((holds.endingAt_ascending position).imp Nat.ne_of_lt) ends, fun other endsThere => ?_⟩
    obtain ⟨same, foundThere, spelledThere⟩ := (holds.mem_endingAt other number).mp endsThere
    obtain rfl : shortcut = same := Option.some.inj (found.symm.trans foundThere)
    exact spelledThere.node_unique holds.isTree spelled
  lt_of_mem_endingAt _ _ := holds.lt_of_mem_endingAt
  endingAt_ascending := holds.endingAt_ascending

end Represents

/-- **The tree of a list of shortcuts is the trie of their beginnings.**  Its root alone has
no chord.  Every other node is a child of one node before it, and its siblings have other
chords.  The nodes other than the root are the beginnings of the shortcuts, one each, and
each shortcut ends at the one node to which its chords lead. -/
theorem is_trie_of_beginnings (shortcuts : List Shortcut) :
    (ofShortcuts shortcuts).IsTrieOf shortcuts ∧ (ofShortcuts shortcuts).size = shortcuts.length :=
  ⟨(represents_ofShortcuts shortcuts).isTrieOf, (represents_ofShortcuts shortcuts).size_eq⟩

/-- The root, and the four beginnings of three shortcuts. -/
example : (ofShortcuts (["g g", "g g g", "g t"].map (Shortcut.ofText .other))).nodes.length = 5 := by
  decide +kernel

end ShortcutTree

end Keystrokes
