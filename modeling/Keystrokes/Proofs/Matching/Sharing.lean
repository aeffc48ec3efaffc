import Keystrokes.Proofs.Matching.Path

/-!
# What a tree of shortcuts holds

The tree of a list of shortcuts is well formed.  Its paths are the beginnings of the
shortcuts, and a shortcut ends at the node to which its chords lead
(`represents_ofShortcuts`).  Shortcuts with a common beginning share its nodes,
since a path leads to one node.
-/

set_option autoImplicit false

namespace Keystrokes

namespace ShortcutTree

variable {tree grown : ShortcutTree}

/-! ## Going down -/

/-- A tree that has grown along a path: no node has moved, no shortcut has come or
gone, and every new path is a beginning of the one grown along. -/
structure Extends (tree grown : ShortcutTree) (along : List Chord) : Prop where
  isTree : grown.IsTree
  endingAt_eq : ∀ position, grown.endingAt position = tree.endingAt position
  keeps : ∀ path position, tree.Spells path position → grown.Spells path position
  adds : ∀ path position, grown.Spells path position →
    tree.Spells path position ∨ path <+: along

theorem Extends.refl (isTree : tree.IsTree) (along : List Chord) : tree.Extends tree along where
  isTree := isTree
  endingAt_eq _ := rfl
  keeps _ _ spelled := spelled
  adds _ _ spelled := .inl spelled

/-- Growing along a beginning of a path and then along the path is growing along
the path. -/
theorem Extends.trans {middle : ShortcutTree} {begun along : List Chord}
    (first : tree.Extends middle begun) (second : middle.Extends grown along)
    (isBeginning : begun <+: along) : tree.Extends grown along where
  isTree := second.isTree
  endingAt_eq position := (second.endingAt_eq position).trans (first.endingAt_eq position)
  keeps path position spelled := second.keeps path position (first.keeps path position spelled)
  adds path position spelled := by
    rcases second.adds path position spelled with before | isNew
    · exact (first.adds path position before).imp_right fun isNew => isNew.trans isBeginning
    · exact .inr isNew

/-- The child for a chord is there, or none is there and one is made. -/
theorem child_cases (tree : ShortcutTree) (parent : Nat) (chord : Chord) :
    (∃ position ∈ tree.children parent, (tree.node position).chord = some chord ∧
        tree.child parent chord = (position, tree)) ∨
      (∀ position ∈ tree.children parent, (tree.node position).chord ≠ some chord) ∧
        tree.child parent chord = (tree.nodes.length, tree.grow parent chord) := by
  unfold child
  cases found : tree.child? parent chord with
  | some position =>
      refine .inl ⟨position, List.mem_of_find?_eq_some found, ?_, rfl⟩
      simpa using List.find?_some found
  | none =>
      refine .inr ⟨fun position isChild => ?_, rfl⟩
      simpa using List.find?_eq_none.mp found position isChild

/-- The child for a chord is reached by one more chord. -/
theorem child_extends (isTree : tree.IsTree) {path : List Chord} {parent : Nat}
    (spelled : tree.Spells path parent) (chord : Chord) :
    tree.Extends (tree.child parent chord).2 (path ++ [chord]) ∧
      (tree.child parent chord).2.Spells (path ++ [chord]) (tree.child parent chord).1 := by
  have isNode := spelled.lt_length isTree
  rcases tree.child_cases parent chord with ⟨position, isChild, hasChord, same⟩ | ⟨isFresh, same⟩
  · rw [same]
    exact ⟨.refl isTree _, .child spelled isChild hasChord⟩
  · rw [same]
    refine ⟨⟨isTree.grow isNode isFresh, endingAt_grow isNode chord,
      fun _ _ before => before.grow isTree isNode, ?_⟩,
      (spells_grow_iff isTree isNode).mpr (.inr ⟨rfl, path, spelled, rfl⟩)⟩
    intro longer position after
    rcases (spells_grow_iff isTree isNode).mp after with before | ⟨-, begun, before, rfl⟩
    · exact .inl before
    · rw [before.path_unique isTree spelled]
      exact .inr (List.prefix_refl _)

/-- **Going down a list of chords reaches the node of the longer path.** -/
theorem descend_extends (isTree : tree.IsTree) {path : List Chord} {position : Nat}
    (spelled : tree.Spells path position) (chords : List Chord) :
    tree.Extends (tree.descend position chords).2 (path ++ chords) ∧
      (tree.descend position chords).2.Spells (path ++ chords)
        (tree.descend position chords).1 := by
  induction chords generalizing tree path position with
  | nil =>
      rw [descend, List.append_nil]
      exact ⟨.refl isTree path, spelled⟩
  | cons chord later hypothesis =>
      obtain ⟨first, reached⟩ := child_extends isTree spelled chord
      obtain ⟨second, last⟩ := hypothesis first.isTree reached
      rw [List.append_assoc, List.singleton_append] at second last
      exact ⟨first.trans second ⟨later, by simp⟩, last⟩

/-! ## Equal up to shortcuts -/

section Congruence

variable {other : ShortcutTree}
  (sameChildren : ∀ position, other.children position = tree.children position)
  (sameChord : ∀ position, (other.node position).chord = (tree.node position).chord)
include sameChildren sameChord

theorem Spells.congr {path : List Chord} {position : Nat} (spelled : tree.Spells path position) :
    other.Spells path position := by
  induction spelled with
  | root => exact .root
  | child _ isChild hasChord hypothesis =>
      exact .child hypothesis ((sameChildren _).symm ▸ isChild) ((sameChord _).trans hasChord)

theorem spells_congr {path : List Chord} {position : Nat} :
    other.Spells path position ↔ tree.Spells path position :=
  ⟨Spells.congr (fun position => (sameChildren position).symm)
    (fun position => (sameChord position).symm), Spells.congr sameChildren sameChord⟩

theorem IsTree.congr (isTree : tree.IsTree) (sameLength : other.nodes.length = tree.nodes.length) :
    other.IsTree := by
  obtain ⟨hasRoot, rootChord, childAfter, childChord, nodup, parentUnique, siblingUnique,
    hasParent⟩ := isTree
  constructor
  all_goals simp only [sameChildren, sameChord, sameLength]
  all_goals assumption

end Congruence

/-! ## One more shortcut -/

/-- The node at which a new shortcut ends, with the tree grown down to it. -/
def place (tree : ShortcutTree) (shortcut : Shortcut) : Nat × ShortcutTree :=
  tree.descend root shortcut.chords

theorem insert_eq (tree : ShortcutTree) (shortcut : Shortcut) :
    tree.insert shortcut =
      { nodes := (tree.place shortcut).2.nodes.modify (tree.place shortcut).1
          (fun node => { node with shortcuts := node.shortcuts ++ [tree.size] })
        size := tree.size + 1 } :=
  rfl

/-- What stands at a position after a shortcut has been added. -/
theorem node_insert (shortcut : Shortcut) (position : Nat)
    (isNode : (tree.place shortcut).1 < (tree.place shortcut).2.nodes.length) :
    (tree.insert shortcut).node position =
      if position = (tree.place shortcut).1 then
        { (tree.place shortcut).2.node position with
          shortcuts := (tree.place shortcut).2.endingAt position ++ [tree.size] }
      else (tree.place shortcut).2.node position := by
  rw [insert_eq]
  simp only [node, endingAt, List.getD_eq_getElem?_getD, List.getElem?_modify]
  by_cases isLast : position = (tree.place shortcut).1
  · subst isLast
    simp [isNode]
  · simp [isLast, Ne.symm isLast]

/-- A tree that holds a list of shortcuts: its paths are their beginnings, and each
of them ends, under its number, at the node to which its chords lead. -/
structure Represents (tree : ShortcutTree) (shortcuts : List Shortcut) : Prop where
  isTree : tree.IsTree
  size_eq : tree.size = shortcuts.length
  spells_iff : ∀ path, (∃ position, tree.Spells path position) ↔
    path = [] ∨ ∃ shortcut ∈ shortcuts, path <+: shortcut.chords
  mem_endingAt : ∀ position number, number ∈ tree.endingAt position ↔
    ∃ shortcut, shortcuts[number]? = some shortcut ∧ tree.Spells shortcut.chords position
  endingAt_ascending : ∀ position, (tree.endingAt position).Pairwise (· < ·)

theorem represents_empty : ({} : ShortcutTree).Represents [] := by
  have noChildren : ∀ position, ({} : ShortcutTree).children position = [] := by
    intro position
    cases position <;> rfl
  have noShortcuts : ∀ position, ({} : ShortcutTree).endingAt position = [] := by
    intro position
    cases position <;> rfl
  refine ⟨⟨by decide, rfl, ?_, ?_, ?_, ?_, ?_, ?_⟩, rfl, ?_, ?_, ?_⟩
  · simp [noChildren]
  · simp [noChildren]
  · simp [noChildren]
  · simp [noChildren]
  · simp [noChildren]
  · intro position afterRoot inside
    exact absurd inside (Nat.not_lt.mpr afterRoot)
  · intro path
    constructor
    · rintro ⟨position, spelled⟩
      cases spelled with
      | root => exact .inl rfl
      | child _ isChild _ => simp [noChildren] at isChild
    · rintro (rfl | ⟨_, isMember, _⟩)
      · exact ⟨root, .root⟩
      · simp at isMember
  · simp [noShortcuts]
  · simp [noShortcuts]

namespace Represents

variable {shortcuts : List Shortcut} (holds : tree.Represents shortcuts) (shortcut : Shortcut)
include holds

theorem lt_of_mem_endingAt {position number : Nat} (isMember : number ∈ tree.endingAt position) :
    number < shortcuts.length := by
  obtain ⟨_, found, -⟩ := (holds.mem_endingAt position number).mp isMember
  exact (List.getElem?_eq_some_iff.mp found).1

/-- The tree grown down to the place of a new shortcut. -/
theorem extends_place :
    tree.Extends (tree.place shortcut).2 shortcut.chords ∧
      (tree.place shortcut).2.Spells shortcut.chords (tree.place shortcut).1 :=
  descend_extends holds.isTree (.root : tree.Spells [] root) shortcut.chords

theorem place_lt_length : (tree.place shortcut).1 < (tree.place shortcut).2.nodes.length := by
  obtain ⟨extended, reached⟩ := holds.extends_place shortcut
  exact reached.lt_length extended.isTree

theorem children_insert (position : Nat) :
    (tree.insert shortcut).children position = (tree.place shortcut).2.children position := by
  rw [children, node_insert shortcut position (holds.place_lt_length shortcut)]
  split <;> rfl

theorem chord_insert (position : Nat) :
    ((tree.insert shortcut).node position).chord =
      ((tree.place shortcut).2.node position).chord := by
  rw [node_insert shortcut position (holds.place_lt_length shortcut)]
  split <;> rfl

theorem endingAt_insert (position : Nat) :
    (tree.insert shortcut).endingAt position =
      if position = (tree.place shortcut).1 then tree.endingAt position ++ [shortcuts.length]
      else tree.endingAt position := by
  have unchanged := (holds.extends_place shortcut).1.endingAt_eq position
  rw [endingAt, node_insert shortcut position (holds.place_lt_length shortcut)]
  split
  · simp [unchanged, holds.size_eq]
  · exact unchanged

theorem spells_insert_iff {path : List Chord} {position : Nat} :
    (tree.insert shortcut).Spells path position ↔
      (tree.place shortcut).2.Spells path position :=
  spells_congr (holds.children_insert shortcut) (holds.chord_insert shortcut)

/-- A new shortcut ends at its place. -/
theorem spells_insert_self {position : Nat} :
    (tree.insert shortcut).Spells shortcut.chords position ↔
      position = (tree.place shortcut).1 := by
  obtain ⟨extended, reached⟩ := holds.extends_place shortcut
  rw [holds.spells_insert_iff]
  constructor
  · intro spelled
    exact spelled.node_unique extended.isTree reached
  · rintro rfl
    exact reached

/-- The path of an older shortcut leads where it led before. -/
theorem spells_insert_older {older : Shortcut} (isMember : older ∈ shortcuts) {position : Nat} :
    (tree.insert shortcut).Spells older.chords position ↔
      tree.Spells older.chords position := by
  have extended := (holds.extends_place shortcut).1
  rw [holds.spells_insert_iff]
  constructor
  · intro after
    obtain ⟨found, before⟩ := (holds.spells_iff older.chords).mpr
      (.inr ⟨older, isMember, List.prefix_refl _⟩)
    obtain rfl := (extended.keeps _ _ before).node_unique extended.isTree after
    exact before
  · exact extended.keeps _ _

theorem spells_iff_insert (path : List Chord) :
    (∃ position, (tree.insert shortcut).Spells path position) ↔
      path = [] ∨ ∃ which ∈ shortcuts ++ [shortcut], path <+: which.chords := by
  obtain ⟨extended, reached⟩ := holds.extends_place shortcut
  simp only [holds.spells_insert_iff]
  constructor
  · rintro ⟨position, spelled⟩
    rcases extended.adds path position spelled with before | isNew
    · refine ((holds.spells_iff path).mp ⟨position, before⟩).imp_right ?_
      rintro ⟨older, isMember, begins⟩
      exact ⟨older, List.mem_append_left _ isMember, begins⟩
    · exact .inr ⟨shortcut, by simp, isNew⟩
  · intro isBeginning
    rcases isBeginning with rfl | ⟨which, isMember, begins⟩
    · exact ⟨root, .root⟩
    · rcases List.mem_append.mp isMember with isOld | isNew
      · obtain ⟨position, before⟩ := (holds.spells_iff path).mpr (.inr ⟨which, isOld, begins⟩)
        exact ⟨position, extended.keeps path position before⟩
      · rw [List.mem_singleton.mp isNew] at begins
        obtain ⟨later, whole⟩ := begins
        exact Spells.of_append (whole ▸ reached)

theorem mem_endingAt_insert (position number : Nat) :
    number ∈ (tree.insert shortcut).endingAt position ↔
      ∃ which, (shortcuts ++ [shortcut])[number]? = some which ∧
        (tree.insert shortcut).Spells which.chords position := by
  have grown : number ∈ (tree.insert shortcut).endingAt position ↔
      number ∈ tree.endingAt position ∨
        position = (tree.place shortcut).1 ∧ number = shortcuts.length := by
    rw [holds.endingAt_insert]
    split <;> simp [*]
  rw [grown, holds.mem_endingAt]
  constructor
  · rintro (⟨older, found, before⟩ | ⟨rfl, rfl⟩)
    · have inside := (List.getElem?_eq_some_iff.mp found).1
      refine ⟨older, by rw [List.getElem?_append_left inside, found], ?_⟩
      exact (holds.spells_insert_older shortcut (List.mem_of_getElem? found)).mpr before
    · exact ⟨shortcut, by simp, (holds.spells_insert_self shortcut).mpr rfl⟩
  · rintro ⟨which, found, after⟩
    by_cases inside : number < shortcuts.length
    · rw [List.getElem?_append_left inside] at found
      exact .inl ⟨which, found,
        (holds.spells_insert_older shortcut (List.mem_of_getElem? found)).mp after⟩
    · rw [List.getElem?_append_right (Nat.not_lt.mp inside)] at found
      have isLast : number - shortcuts.length = 0 ∧ which = shortcut := by
        simpa [List.getElem?_singleton, eq_comm] using found
      obtain ⟨atEnd, rfl⟩ := isLast
      exact .inr ⟨(holds.spells_insert_self which).mp after, by omega⟩

theorem endingAt_insert_ascending (position : Nat) :
    ((tree.insert shortcut).endingAt position).Pairwise (· < ·) := by
  rw [holds.endingAt_insert]
  split
  · refine List.pairwise_append.mpr ⟨holds.endingAt_ascending position, by simp, ?_⟩
    intro number isMember next isNew
    rw [List.mem_singleton.mp isNew]
    exact holds.lt_of_mem_endingAt isMember
  · exact holds.endingAt_ascending position

/-- **A tree that holds a list holds it with one more shortcut after insertion.** -/
theorem insert : (tree.insert shortcut).Represents (shortcuts ++ [shortcut]) where
  isTree := (holds.extends_place shortcut).1.isTree.congr (holds.children_insert shortcut)
    (holds.chord_insert shortcut) (by simp [insert_eq])
  size_eq := by simp [insert_eq, holds.size_eq]
  spells_iff := holds.spells_iff_insert shortcut
  mem_endingAt := holds.mem_endingAt_insert shortcut
  endingAt_ascending := holds.endingAt_insert_ascending shortcut

end Represents

/-- **The tree of a list of shortcuts holds the list.** -/
theorem represents_ofShortcuts (shortcuts : List Shortcut) :
    (ofShortcuts shortcuts).Represents shortcuts := by
  induction shortcuts using List.reverseRecOn with
  | nil => exact represents_empty
  | append_singleton shortcuts shortcut hypothesis =>
      rw [ofShortcuts, List.foldl_append]
      exact hypothesis.insert shortcut

end ShortcutTree

end Keystrokes
