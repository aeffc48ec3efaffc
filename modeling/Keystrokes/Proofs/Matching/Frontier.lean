import Keystrokes.Proofs.Matching.Ascending
import Keystrokes.Proofs.Matching.Sharing
import Keystrokes.Proofs.Shortcut.Standing

/-!
# Where keystrokes lead in a tree

The nodes that some keystrokes lead to are those whose paths they meet
(`mem_arrivals_iff`).  Hence one more keystroke shows in the tree of a list what it
shows in the list: which shortcuts are typed in full, whether one is on its way, and
whether one is awaited (`ends_at_arrivals_iff`, `continues_iff`, `awaited_iff`).
-/

set_option autoImplicit false

namespace Keystrokes

namespace TreeMatcher

variable {tree : ShortcutTree}

/-! ## Walks -/

/-- The nodes that some keystrokes lead to, from the root on. -/
def arrivals (tree : ShortcutTree) (strokes : List Keystroke) : List Nat :=
  strokes.foldl (reached tree) [ShortcutTree.root]

/-- The frontiers of some keystrokes: for each of them the nodes that the keystrokes
up to it lead to. -/
def walk (tree : ShortcutTree) (frontier : List Nat) : List Keystroke → List (List Nat)
  | [] => []
  | stroke :: later => reached tree frontier stroke :: walk tree (reached tree frontier stroke) later

@[simp] theorem arrivals_concat (strokes : List Keystroke) (stroke : Keystroke) :
    arrivals tree (strokes ++ [stroke]) = reached tree (arrivals tree strokes) stroke := by
  simp [arrivals, List.foldl_append]

theorem walk_concat (frontier : List Nat) (strokes : List Keystroke) (stroke : Keystroke) :
    walk tree frontier (strokes ++ [stroke]) =
      walk tree frontier strokes ++ [reached tree (strokes.foldl (reached tree) frontier) stroke] := by
  induction strokes generalizing frontier with
  | nil => rfl
  | cons first strokes hypothesis => simp [walk, hypothesis]

theorem walk_dropLast (frontier : List Nat) (strokes : List Keystroke) :
    walk tree frontier strokes.dropLast = (walk tree frontier strokes).dropLast := by
  rcases List.eq_nil_or_concat' strokes with rfl | ⟨earlier, stroke, rfl⟩
  · rfl
  · rw [walk_concat, List.dropLast_concat, List.dropLast_concat]

/-- One more keystroke adds the frontier of the nodes that all of them lead to. -/
theorem walk_root_concat (strokes : List Keystroke) (stroke : Keystroke) :
    walk tree [ShortcutTree.root] (strokes ++ [stroke]) =
      walk tree [ShortcutTree.root] strokes ++ [arrivals tree (strokes ++ [stroke])] := by
  rw [walk_concat, arrivals_concat, arrivals]

/-- The last frontier of a walk holds the nodes that its keystrokes lead to. -/
theorem lastFrontier_walk (strokes : List Keystroke) :
    lastFrontier (walk tree [ShortcutTree.root] strokes) = arrivals tree strokes := by
  rcases List.eq_nil_or_concat' strokes with rfl | ⟨earlier, stroke, rfl⟩
  · rfl
  · rw [walk_root_concat, lastFrontier, List.getLastD_concat]

theorem mem_successors {frontier : List Nat} {position : Nat} :
    position ∈ successors tree frontier ↔
      ∃ parent ∈ frontier, position ∈ tree.children parent := by
  simp [successors]

theorem mem_reached {frontier : List Nat} {stroke : Keystroke} {position : Nat} :
    position ∈ reached tree frontier stroke ↔
      ∃ parent ∈ frontier, position ∈ tree.children parent ∧
        ∃ chord, (tree.node position).chord = some chord ∧ chord.metBy stroke := by
  simp only [reached, List.mem_filter, mem_successors, Option.any_eq_true]
  constructor
  · rintro ⟨⟨parent, inFrontier, isChild⟩, met⟩
    exact ⟨parent, inFrontier, isChild, met⟩
  · rintro ⟨parent, inFrontier, isChild, met⟩
    exact ⟨⟨parent, inFrontier, isChild⟩, met⟩

/-- **Keystrokes lead to the nodes whose paths they meet.** -/
theorem mem_arrivals_iff {strokes : List Keystroke} {position : Nat} :
    position ∈ arrivals tree strokes ↔ ∃ path, tree.Spells path position ∧ Meets path strokes := by
  induction strokes using List.reverseRecOn generalizing position with
  | nil =>
      constructor
      · intro isRoot
        exact ⟨[], ShortcutTree.spells_nil_iff.mpr (List.mem_singleton.mp isRoot), .nil⟩
      · rintro ⟨path, spelled, met⟩
        obtain rfl := List.forall₂_nil_right_iff.mp met
        exact List.mem_singleton.mpr (ShortcutTree.spells_nil_iff.mp spelled)
  | append_singleton earlier stroke hypothesis =>
      rw [arrivals_concat, mem_reached]
      constructor
      · rintro ⟨parent, arrived, isChild, chord, hasChord, meets⟩
        obtain ⟨path, spelled, met⟩ := hypothesis.mp arrived
        exact ⟨path ++ [chord], .child spelled isChild hasChord,
          forall₂_concat_iff.mpr ⟨met, meets⟩⟩
      · rintro ⟨path, spelled, met⟩
        obtain ⟨begun, chord, rfl, before, meets⟩ := met.exists_concat
        obtain ⟨parent, spelledBefore, isChild, hasChord⟩ :=
          ShortcutTree.spells_concat_iff.mp spelled
        exact ⟨parent, hypothesis.mpr ⟨begun, spelledBefore, before⟩, isChild, chord, hasChord,
          meets⟩

/-! ## One more keystroke in the tree of a list -/

section Represents

variable {shortcuts : List Shortcut} (holds : tree.Represents shortcuts) (tracked : Modifiers)
  (earlier : List Keystroke) (stroke : Keystroke)
include holds

/-- The shortcuts that end where the keystrokes lead are those typed in full. -/
theorem ends_at_arrivals_iff (number : Nat) :
    (∃ position ∈ arrivals tree (earlier ++ [stroke]), number ∈ tree.endingAt position) ↔
      ∃ shortcut, shortcuts[number]? = some shortcut ∧
        shortcut.standing tracked (earlier ++ [stroke]) = .matched := by
  simp only [Shortcut.standing, standing_eq_matched_iff, mem_arrivals_iff, holds.mem_endingAt]
  constructor
  · rintro ⟨position, ⟨path, spelled, met⟩, shortcut, found, ends⟩
    rw [spelled.path_unique holds.isTree ends] at met
    exact ⟨shortcut, found, met⟩
  · rintro ⟨shortcut, found, met⟩
    obtain ⟨position, ends⟩ := (holds.spells_iff shortcut.chords).mpr
      (.inr ⟨shortcut, List.mem_of_getElem? found, List.prefix_refl _⟩)
    exact ⟨position, ⟨_, ends, met⟩, shortcut, found, ends⟩

/-- Below a node there are the chords that follow its path in some shortcut. -/
theorem exists_child_iff {path : List Chord} {position : Nat}
    (spelled : tree.Spells path position) (chord : Chord) :
    (∃ child ∈ tree.children position, (tree.node child).chord = some chord) ↔
      ∃ shortcut ∈ shortcuts, path ++ [chord] <+: shortcut.chords := by
  have longer := holds.spells_iff (path ++ [chord])
  simp only [List.append_eq_nil_iff, List.cons_ne_nil, and_false, false_or] at longer
  rw [← longer]
  constructor
  · rintro ⟨child, isChild, hasChord⟩
    exact ⟨child, .child spelled isChild hasChord⟩
  · rintro ⟨child, below⟩
    obtain ⟨parent, before, isChild, hasChord⟩ := ShortcutTree.spells_concat_iff.mp below
    obtain rfl := before.node_unique holds.isTree spelled
    exact ⟨child, isChild, hasChord⟩

theorem continues_iff :
    (∃ position ∈ arrivals tree (earlier ++ [stroke]), tree.children position ≠ []) ↔
      ∃ shortcut ∈ shortcuts, shortcut.standing tracked (earlier ++ [stroke]) = .possible := by
  simp only [Shortcut.standing, standing_eq_possible_iff, mem_arrivals_iff]
  constructor
  · rintro ⟨position, ⟨path, spelled, met⟩, hasChildren⟩
    obtain ⟨child, isChild⟩ := List.exists_mem_of_ne_nil _ hasChildren
    obtain ⟨chord, hasChord⟩ := Option.ne_none_iff_exists'.mp
      (holds.isTree.child_chord position child isChild)
    obtain ⟨shortcut, isMember, later, whole⟩ :=
      (exists_child_iff holds spelled chord).mp ⟨child, isChild, hasChord⟩
    rw [List.append_assoc] at whole
    exact ⟨shortcut, isMember, path, _, whole.symm, by simp, met⟩
  · rintro ⟨shortcut, isMember, begun, later, whole, isProper, met⟩
    obtain ⟨position, spelled⟩ := (holds.spells_iff begun).mpr
      (.inr ⟨shortcut, isMember, later, whole.symm⟩)
    cases later with
    | nil => exact absurd rfl isProper
    | cons chord later =>
        obtain ⟨child, isChild, -⟩ := (exists_child_iff holds spelled chord).mpr
          ⟨shortcut, isMember, later, by simp [whole]⟩
        exact ⟨position, ⟨begun, spelled, met⟩, List.ne_nil_of_mem isChild⟩

theorem awaited_iff :
    awaited tree tracked (arrivals tree earlier) stroke ↔
      ∃ shortcut ∈ shortcuts, shortcut.standing tracked (earlier ++ [stroke]) = .awaiting := by
  simp only [Shortcut.standing, standing_eq_awaiting_iff, awaited, Bool.and_eq_true,
    List.any_eq_true, mem_successors, Option.any_eq_true, mem_arrivals_iff, Bool.not_eq_true']
  constructor
  · rintro ⟨isTracked, child, ⟨parent, ⟨path, spelled, met⟩, isChild⟩, chord, hasChord, unmet, waits⟩
    obtain ⟨shortcut, isMember, later, whole⟩ :=
      (exists_child_iff holds spelled chord).mp ⟨child, isChild, hasChord⟩
    rw [List.append_assoc] at whole
    exact ⟨shortcut, isMember, path, chord, later, whole.symm, met, unmet, isTracked, waits⟩
  · rintro ⟨shortcut, isMember, begun, chord, later, whole, met, unmet, isTracked, waits⟩
    obtain ⟨parent, spelled⟩ := (holds.spells_iff begun).mpr
      (.inr ⟨shortcut, isMember, chord :: later, whole.symm⟩)
    obtain ⟨child, isChild, hasChord⟩ := (exists_child_iff holds spelled chord).mpr
      ⟨shortcut, isMember, later, by simp [whole]⟩
    exact ⟨isTracked, child, ⟨parent, ⟨begun, spelled, met⟩, isChild⟩, chord, hasChord, unmet,
      waits⟩

omit tracked earlier stroke in
/-- Keystrokes that meet a beginning of a shortcut lead somewhere. -/
theorem arrivals_ne_nil {shortcut : Shortcut} (isMember : shortcut ∈ shortcuts)
    {begun : List Chord} (begins : begun <+: shortcut.chords) {strokes : List Keystroke}
    (met : Meets begun strokes) : arrivals tree strokes ≠ [] := by
  obtain ⟨position, spelled⟩ := (holds.spells_iff begun).mpr (.inr ⟨shortcut, isMember, begins⟩)
  exact List.ne_nil_of_mem (mem_arrivals_iff.mpr ⟨begun, spelled, met⟩)

/-- Keystrokes lead somewhere when they meet a beginning of some shortcut, all of it
or not. -/
theorem arrives_iff :
    arrivals tree (earlier ++ [stroke]) ≠ [] ↔
      ∃ shortcut ∈ shortcuts, shortcut.standing tracked (earlier ++ [stroke]) = .matched ∨
        shortcut.standing tracked (earlier ++ [stroke]) = .possible := by
  simp only [Shortcut.standing, standing_eq_matched_iff, standing_eq_possible_iff]
  constructor
  · intro arrives
    obtain ⟨position, arrived⟩ := List.exists_mem_of_ne_nil _ arrives
    obtain ⟨path, spelled, met⟩ := mem_arrivals_iff.mp arrived
    rcases (holds.spells_iff path).mp ⟨position, spelled⟩ with rfl | ⟨shortcut, isMember, later, whole⟩
    · exact absurd met.length_eq (by simp)
    · refine ⟨shortcut, isMember, ?_⟩
      by_cases isWhole : later = []
      · rw [isWhole, List.append_nil] at whole
        exact .inl (whole ▸ met)
      · exact .inr ⟨path, later, whole.symm, isWhole, met⟩
  · rintro ⟨shortcut, isMember, met | ⟨begun, later, whole, -, met⟩⟩
    · exact arrivals_ne_nil holds isMember (List.prefix_refl _) met
    · exact arrivals_ne_nil holds isMember ⟨later, whole.symm⟩ met

end Represents

end TreeMatcher

end Keystrokes
