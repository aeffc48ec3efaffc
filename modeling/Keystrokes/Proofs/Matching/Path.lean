import Keystrokes.Matching.ShortcutTree
import Mathlib.Data.List.Induction

/-!
# Paths of a shortcut tree

A path of a shortcut tree is the list of the chords on the way from the root to a
node.  In a tree that is well formed the node determines the path and the path
determines the node (`Spells.path_unique`, `Spells.node_unique`): no node has two
parents, and children of one node have different chords.

A tree grows by one child at a time.  Growth keeps it well formed, moves no node,
and adds one path (`IsTree.grow`, `spells_grow_iff`).
-/

set_option autoImplicit false

namespace Keystrokes

namespace ShortcutTree

/-! ## Paths -/

/-- The chords on the way from the root to a node, the first one first. -/
inductive Spells (tree : ShortcutTree) : List Chord → Nat → Prop where
  | root : Spells tree [] root
  | child {path : List Chord} {parent child : Nat} {chord : Chord}
      (before : Spells tree path parent) (isChild : child ∈ tree.children parent)
      (hasChord : (tree.node child).chord = some chord) :
      Spells tree (path ++ [chord]) child

variable {tree : ShortcutTree}

@[simp] theorem spells_nil_iff {position : Nat} : tree.Spells [] position ↔ position = root := by
  constructor
  · intro spelled
    generalize empty : ([] : List Chord) = path at spelled
    cases spelled with
    | root => rfl
    | child _ _ _ => exact absurd empty.symm (by simp)
  · rintro rfl
    exact .root

theorem spells_concat_iff {path : List Chord} {chord : Chord} {position : Nat} :
    tree.Spells (path ++ [chord]) position ↔
      ∃ parent, tree.Spells path parent ∧ position ∈ tree.children parent ∧
        (tree.node position).chord = some chord := by
  constructor
  · intro spelled
    generalize whole : path ++ [chord] = longer at spelled
    cases spelled with
    | root => simp at whole
    | child before isChild hasChord =>
        obtain ⟨rfl, same⟩ := List.append_inj' whole rfl
        obtain rfl : chord = _ := by simpa using same
        exact ⟨_, before, isChild, hasChord⟩
  · rintro ⟨parent, before, isChild, hasChord⟩
    exact .child before isChild hasChord

/-- Every beginning of a path is a path. -/
theorem Spells.of_append {begun later : List Chord} {position : Nat}
    (spelled : tree.Spells (begun ++ later) position) : ∃ earlier, tree.Spells begun earlier := by
  induction later using List.reverseRecOn generalizing position with
  | nil => exact ⟨position, by simpa using spelled⟩
  | append_singleton later chord hypothesis =>
      rw [← List.append_assoc, spells_concat_iff] at spelled
      obtain ⟨parent, before, -, -⟩ := spelled
      exact hypothesis before

/-! ## Well formed trees -/

/-- A shortcut tree is well formed when its root is the one node without a chord,
every other node is a child of one earlier node, once, and the children of a node
have different chords. -/
structure IsTree (tree : ShortcutTree) : Prop where
  hasRoot : root < tree.nodes.length
  root_chord : (tree.node root).chord = none
  child_after : ∀ parent, ∀ child ∈ tree.children parent,
    parent < child ∧ child < tree.nodes.length
  child_chord : ∀ parent, ∀ child ∈ tree.children parent, (tree.node child).chord ≠ none
  children_nodup : ∀ parent, (tree.children parent).Nodup
  parent_unique : ∀ first second child, child ∈ tree.children first →
    child ∈ tree.children second → first = second
  sibling_unique : ∀ parent, ∀ first ∈ tree.children parent, ∀ second ∈ tree.children parent,
    (tree.node first).chord = (tree.node second).chord → first = second
  has_parent : ∀ position, root < position → position < tree.nodes.length →
    ∃ parent, position ∈ tree.children parent

theorem IsTree.root_not_child (isTree : tree.IsTree) (parent : Nat) :
    root ∉ tree.children parent := by
  intro isChild
  exact Nat.not_lt_zero _ (isTree.child_after parent root isChild).1

/-- A node with a path is a node of the tree. -/
theorem Spells.lt_length (isTree : tree.IsTree) {path : List Chord} {position : Nat}
    (spelled : tree.Spells path position) : position < tree.nodes.length := by
  cases spelled with
  | root => exact isTree.hasRoot
  | child _ isChild _ => exact (isTree.child_after _ _ isChild).2

/-- **A path leads to one node.** -/
theorem Spells.node_unique (isTree : tree.IsTree) {path : List Chord} {first second : Nat}
    (one : tree.Spells path first) (other : tree.Spells path second) : first = second := by
  induction path using List.reverseRecOn generalizing first second with
  | nil => rw [spells_nil_iff.mp one, spells_nil_iff.mp other]
  | append_singleton path chord hypothesis =>
      obtain ⟨parent, before, isChild, hasChord⟩ := spells_concat_iff.mp one
      obtain ⟨parent', before', isChild', hasChord'⟩ := spells_concat_iff.mp other
      obtain rfl := hypothesis before before'
      exact isTree.sibling_unique parent first isChild second isChild'
        (hasChord.trans hasChord'.symm)

/-- **A node has one path.** -/
theorem Spells.path_unique (isTree : tree.IsTree) {left right : List Chord} {position : Nat}
    (one : tree.Spells left position) (other : tree.Spells right position) : left = right := by
  induction one generalizing right with
  | root =>
      generalize start : ShortcutTree.root = position at other
      cases other with
      | root => rfl
      | child _ isChild _ =>
          subst start
          exact absurd isChild (isTree.root_not_child _)
  | @child path parent child chord _ isChild hasChord hypothesis =>
      cases other with
      | root => exact absurd isChild (isTree.root_not_child _)
      | child before' isChild' hasChord' =>
          obtain rfl := isTree.parent_unique _ _ _ isChild isChild'
          obtain rfl : chord = _ := by simpa using hasChord.symm.trans hasChord'
          rw [hypothesis before']

/-- The root is the node with the empty path. -/
theorem Spells.eq_nil_iff (isTree : tree.IsTree) {path : List Chord} {position : Nat}
    (spelled : tree.Spells path position) : path = [] ↔ position = ShortcutTree.root := by
  constructor
  · rintro rfl
    exact spells_nil_iff.mp spelled
  · rintro rfl
    exact spelled.path_unique isTree .root

/-- Two paths lead to the same node when they are the same. -/
theorem Spells.node_eq_iff (isTree : tree.IsTree) {left right : List Chord} {first second : Nat}
    (one : tree.Spells left first) (other : tree.Spells right second) :
    first = second ↔ left = right := by
  constructor
  · rintro rfl
    exact one.path_unique isTree other
  · rintro rfl
    exact one.node_unique isTree other

/-! ## One more child -/

/-- What stands at a position after a node has grown a child. -/
theorem node_grow {parent : Nat} (isNode : parent < tree.nodes.length) (chord : Chord)
    (position : Nat) :
    (tree.grow parent chord).node position =
      if position = tree.nodes.length then { chord := some chord }
      else if position = parent then
        { tree.node parent with children := tree.children parent ++ [tree.nodes.length] }
      else tree.node position := by
  simp only [node, grow, children, List.getD_eq_getElem?_getD, List.getElem?_append,
    List.length_modify]
  by_cases isNew : position = tree.nodes.length
  · simp [isNew]
  · by_cases isOld : position < tree.nodes.length
    · by_cases isParent : position = parent
      · simp [isParent, isNode, Nat.ne_of_lt isNode]
      · simp [isNew, isOld, isParent, Ne.symm isParent]
    · have beyond : position - tree.nodes.length ≠ 0 := by omega
      have notParent : position ≠ parent := by omega
      simp [isNew, isOld, notParent, beyond]

@[simp] theorem length_grow (parent : Nat) (chord : Chord) :
    (tree.grow parent chord).nodes.length = tree.nodes.length + 1 := by
  simp [grow]

/-- A position beyond the nodes has no children. -/
theorem children_eq_nil {position : Nat} (beyond : tree.nodes.length ≤ position) :
    tree.children position = [] := by
  simp [children, node, List.getD_eq_getElem?_getD, List.getElem?_eq_none beyond]

/-- A position beyond the nodes has no shortcut. -/
theorem endingAt_eq_nil {position : Nat} (beyond : tree.nodes.length ≤ position) :
    tree.endingAt position = [] := by
  simp [endingAt, node, List.getD_eq_getElem?_getD, List.getElem?_eq_none beyond]

theorem children_grow {parent : Nat} (isNode : parent < tree.nodes.length) (chord : Chord)
    (position : Nat) :
    (tree.grow parent chord).children position =
      if position = parent then tree.children parent ++ [tree.nodes.length]
      else tree.children position := by
  by_cases isNew : position = tree.nodes.length
  · subst isNew
    rw [if_neg (Nat.ne_of_gt isNode), children_eq_nil (Nat.le_refl _), children, node_grow isNode]
    simp
  · by_cases isParent : position = parent
    · simp [children, node_grow isNode, isParent, Nat.ne_of_lt isNode]
    · simp [children, node_grow isNode, isNew, isParent]

theorem chord_grow {parent : Nat} (isNode : parent < tree.nodes.length) (chord : Chord)
    (position : Nat) :
    ((tree.grow parent chord).node position).chord =
      if position = tree.nodes.length then some chord else (tree.node position).chord := by
  rw [node_grow isNode]
  by_cases isNew : position = tree.nodes.length
  · simp [isNew]
  · by_cases isParent : position = parent
    · subst isParent
      simp [isNew]
    · simp [isNew, isParent]

@[simp] theorem endingAt_grow {parent : Nat} (isNode : parent < tree.nodes.length) (chord : Chord)
    (position : Nat) :
    (tree.grow parent chord).endingAt position = tree.endingAt position := by
  by_cases isNew : position = tree.nodes.length
  · subst isNew
    rw [endingAt_eq_nil (Nat.le_refl _), endingAt, node_grow isNode]
    simp
  · by_cases isParent : position = parent
    · subst isParent
      simp [endingAt, node_grow isNode, isNew]
    · simp [endingAt, node_grow isNode, isNew, isParent]

theorem mem_children_grow {parent : Nat} (isNode : parent < tree.nodes.length) {chord : Chord}
    {position child : Nat} :
    child ∈ (tree.grow parent chord).children position ↔
      child ∈ tree.children position ∨ position = parent ∧ child = tree.nodes.length := by
  rw [children_grow isNode]
  by_cases isParent : position = parent
  · subst isParent
    simp
  · simp [isParent]

/-- Growth moves no node. -/
theorem Spells.grow (isTree : tree.IsTree) {parent : Nat} (isNode : parent < tree.nodes.length)
    {chord : Chord} {path : List Chord} {position : Nat} (spelled : tree.Spells path position) :
    (tree.grow parent chord).Spells path position := by
  induction spelled with
  | root => exact .root
  | child _ isChild hasChord hypothesis =>
      refine .child hypothesis ((mem_children_grow isNode).mpr (.inl isChild)) ?_
      rw [chord_grow isNode, if_neg (Nat.ne_of_lt (isTree.child_after _ _ isChild).2)]
      exact hasChord

/-- Growth adds the path of the new child and no other. -/
theorem spells_grow_iff (isTree : tree.IsTree) {parent : Nat}
    (isNode : parent < tree.nodes.length) {chord : Chord} {path : List Chord} {position : Nat} :
    (tree.grow parent chord).Spells path position ↔
      tree.Spells path position ∨
        position = tree.nodes.length ∧
          ∃ before, tree.Spells before parent ∧ path = before ++ [chord] := by
  constructor
  · intro spelled
    induction spelled with
    | root => exact .inl .root
    | @child path above position last _ isChild hasChord hypothesis =>
        rw [chord_grow isNode] at hasChord
        rw [mem_children_grow isNode] at isChild
        rcases hypothesis with before | ⟨rfl, -⟩
        · rcases isChild with isChild | ⟨rfl, rfl⟩
          · have isOld := (isTree.child_after _ _ isChild).2
            rw [if_neg (Nat.ne_of_lt isOld)] at hasChord
            exact .inl (.child before isChild hasChord)
          · obtain rfl : chord = last := by simpa using hasChord
            exact .inr ⟨rfl, path, before, rfl⟩
        · rcases isChild with isChild | ⟨rfl, -⟩
          · rw [children_eq_nil (Nat.le_refl _)] at isChild
            exact absurd isChild (by simp)
          · exact absurd isNode (Nat.lt_irrefl _)
  · rintro (spelled | ⟨rfl, before, spelled, rfl⟩)
    · exact spelled.grow isTree isNode
    · refine .child (spelled.grow isTree isNode) ?_ (by simp [chord_grow isNode])
      exact (mem_children_grow isNode).mpr (.inr ⟨rfl, rfl⟩)

/-- Growth under a chord that no child has keeps a tree well formed. -/
theorem IsTree.grow (isTree : tree.IsTree) {parent : Nat} (isNode : parent < tree.nodes.length)
    {chord : Chord}
    (isFresh : ∀ child ∈ tree.children parent, (tree.node child).chord ≠ some chord) :
    (tree.grow parent chord).IsTree where
  hasRoot := by
    rw [length_grow]
    exact Nat.lt_succ_of_lt isTree.hasRoot
  root_chord := by
    rw [chord_grow isNode, if_neg (Nat.ne_of_lt isTree.hasRoot)]
    exact isTree.root_chord
  child_after := by
    intro above child isChild
    rw [length_grow]
    rcases (mem_children_grow isNode).mp isChild with isOld | ⟨rfl, rfl⟩
    · obtain ⟨after, inside⟩ := isTree.child_after above child isOld
      exact ⟨after, Nat.lt_succ_of_lt inside⟩
    · exact ⟨isNode, Nat.lt_succ_self _⟩
  child_chord := by
    intro above child isChild
    rw [chord_grow isNode]
    rcases (mem_children_grow isNode).mp isChild with isOld | ⟨rfl, rfl⟩
    · rw [if_neg (Nat.ne_of_lt (isTree.child_after above child isOld).2)]
      exact isTree.child_chord above child isOld
    · simp
  children_nodup := by
    intro above
    rw [children_grow isNode]
    split
    · refine List.nodup_append.mpr ⟨isTree.children_nodup parent, by simp, ?_⟩
      intro child isOld other isNew
      rw [List.mem_singleton.mp isNew]
      exact Nat.ne_of_lt (isTree.child_after parent child isOld).2
    · exact isTree.children_nodup above
  parent_unique := by
    intro first second child isFirst isSecond
    rcases (mem_children_grow isNode).mp isFirst with oldFirst | ⟨rfl, rfl⟩
    · rcases (mem_children_grow isNode).mp isSecond with oldSecond | ⟨rfl, rfl⟩
      · exact isTree.parent_unique first second child oldFirst oldSecond
      · exact absurd (isTree.child_after first _ oldFirst).2 (Nat.lt_irrefl _)
    · rcases (mem_children_grow isNode).mp isSecond with oldSecond | ⟨rfl, -⟩
      · exact absurd (isTree.child_after second _ oldSecond).2 (Nat.lt_irrefl _)
      · rfl
  sibling_unique := by
    intro above first isFirst second isSecond same
    rw [chord_grow isNode, chord_grow isNode] at same
    rcases (mem_children_grow isNode).mp isFirst with oldFirst | ⟨rfl, rfl⟩
    · rw [if_neg (Nat.ne_of_lt (isTree.child_after above first oldFirst).2)] at same
      rcases (mem_children_grow isNode).mp isSecond with oldSecond | ⟨rfl, rfl⟩
      · rw [if_neg (Nat.ne_of_lt (isTree.child_after above second oldSecond).2)] at same
        exact isTree.sibling_unique above first oldFirst second oldSecond same
      · rw [if_pos rfl] at same
        exact absurd same (isFresh first oldFirst)
    · rcases (mem_children_grow isNode).mp isSecond with oldSecond | ⟨-, rfl⟩
      · rw [if_pos rfl, if_neg (Nat.ne_of_lt (isTree.child_after _ second oldSecond).2)] at same
        exact absurd same.symm (isFresh second oldSecond)
      · rfl
  has_parent := by
    intro position afterRoot inside
    rw [length_grow] at inside
    by_cases isNew : position = tree.nodes.length
    · exact ⟨parent, (mem_children_grow isNode).mpr (.inr ⟨rfl, isNew⟩)⟩
    · obtain ⟨above, isChild⟩ := isTree.has_parent position afterRoot (by omega)
      exact ⟨above, (mem_children_grow isNode).mpr (.inl isChild)⟩

end ShortcutTree

end Keystrokes
