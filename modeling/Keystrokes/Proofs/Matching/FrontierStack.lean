import Keystrokes.Proofs.Matching.Underway
import Mathlib.Data.List.Nodup

/-!
# The frontiers go with the trail

A tree matcher keeps two stacks: the keystrokes of the trail, and for each of them the
nodes reached with it.  They are changed in different places, one by the trail and one by
the matcher.  Still they go together, whatever the matcher has been asked
(`frontiers_go_with_trail`): there is one frontier for each keystroke, and it holds, each of
them once, the nodes whose paths are met by the keystrokes up to that one.  Only the last
frontier may be empty, and it is when the last keystroke is provisional.

The frontiers are the walk of the trail through the tree (`Matcher.exists_led`), so nothing
is left to prove about steps.  What a frontier of a walk holds is told by the paths that are
met (`mem_arrivals_iff`), and a trail that is kept leads somewhere at every keystroke but
perhaps the last (`Trail.IsUnderway`).
-/

set_option autoImplicit false

namespace Keystrokes

namespace TreeMatcher

variable {tree : ShortcutTree}

/-! ## The frontiers of a walk -/

@[simp] theorem length_walk (frontier : List Nat) (strokes : List Keystroke) :
    (walk tree frontier strokes).length = strokes.length := by
  induction strokes generalizing frontier with
  | nil => rfl
  | cons stroke later hypothesis => simp [walk, hypothesis]

/-- A frontier of a walk holds what the keystrokes up to its own lead to. -/
theorem getElem?_walk {strokes : List Keystroke} {place : Nat} (inside : place < strokes.length) :
    (walk tree [ShortcutTree.root] strokes)[place]? =
      some (arrivals tree (strokes.take (place + 1))) := by
  induction strokes using List.reverseRecOn with
  | nil => exact absurd inside (Nat.not_lt_zero place)
  | append_singleton earlier stroke hypothesis =>
      rw [walk_root_concat]
      rw [List.length_append, List.length_singleton] at inside
      rcases Nat.lt_succ_iff_lt_or_eq.mp inside with isEarlier | rfl
      · rw [List.getElem?_append_left (by simpa using isEarlier), hypothesis isEarlier,
          List.take_append_of_le_length isEarlier]
      · rw [List.getElem?_append_right (by simp), length_walk, Nat.sub_self,
          List.getElem?_cons_zero, List.take_of_length_le (by simp)]

/-- The last frontier of a walk is empty when the keystrokes lead nowhere. -/
theorem getLast?_walk_eq_nil_iff {strokes : List Keystroke} :
    (walk tree [ShortcutTree.root] strokes).getLast? = some [] ↔ arrivals tree strokes = [] := by
  rcases List.eq_nil_or_concat' strokes with rfl | ⟨earlier, stroke, rfl⟩
  · simp [walk, arrivals]
  · rw [walk_root_concat, List.getLast?_concat, Option.some.injEq]

/-- A keystroke leads to a node once, since the node has one parent and is one child
of it. -/
theorem nodup_reached (isTree : tree.IsTree) {frontier : List Nat} (nodup : frontier.Nodup)
    (stroke : Keystroke) : (reached tree frontier stroke).Nodup := by
  refine List.Nodup.filter _ (List.nodup_flatMap.mpr
    ⟨fun parent _ => isTree.children_nodup parent, nodup.imp fun different => ?_⟩)
  intro child isFirst isSecond
  exact different (isTree.parent_unique _ _ child isFirst isSecond)

theorem nodup_arrivals (isTree : tree.IsTree) (strokes : List Keystroke) :
    (arrivals tree strokes).Nodup := by
  induction strokes using List.reverseRecOn with
  | nil => exact List.nodup_singleton _
  | append_singleton earlier stroke hypothesis =>
      rw [arrivals_concat]
      exact nodup_reached isTree hypothesis stroke

/-- Keystrokes lead away from the root. -/
theorem arrivals_eq_root_iff (isTree : tree.IsTree) {strokes : List Keystroke} :
    arrivals tree strokes = [ShortcutTree.root] ↔ strokes = [] := by
  constructor
  · intro atRoot
    have isThere : ShortcutTree.root ∈ arrivals tree strokes := by simp [atRoot]
    obtain ⟨path, spelled, met⟩ := mem_arrivals_iff.mp isThere
    rw [(spelled.eq_nil_iff isTree).mpr rfl] at met
    exact List.forall₂_nil_left_iff.mp met
  · rintro rfl
    rfl

/-! ## Two stacks -/

/-- How the frontiers of a tree matcher go with its trail. -/
structure GoesWithTrail (matcher : TreeMatcher) : Prop where
  length_eq : matcher.frontiers.length = matcher.trail.size
  /-- The frontier of a keystroke lists once, and lists only, the nodes at the depth of that
  keystroke whose paths are met, chord by chord, by the keystrokes up to it. -/
  frontier_at : ∀ place frontier, matcher.frontiers[place]? = some frontier →
    frontier.Nodup ∧ ∀ position, position ∈ frontier ↔ ∃ path,
      matcher.tree.Spells path position ∧ path.length = place + 1 ∧
        Meets path (matcher.trail.strokes.take (place + 1))
  only_last_empty : ∀ place, matcher.frontiers[place]? = some [] →
    place + 1 = matcher.frontiers.length
  last_empty_iff : matcher.frontiers.getLast? = some [] ↔ matcher.trail.provisional = true
  frontier_eq_root_iff : matcher.frontier = [ShortcutTree.root] ↔ matcher.trail.strokes = []

end TreeMatcher

variable {shortcuts : List Shortcut} {tracked : Modifiers} {trail : Trail}

namespace Trail

/-- The keystrokes of a trail under way that are not the last meet the first chords of
some shortcut. -/
theorem IsUnderway.exists_met (underway : trail.IsUnderway shortcuts tracked) :
    ∃ earlier last, trail.strokes = earlier ++ [last] ∧
      ∃ shortcut ∈ shortcuts, ∃ begun, begun <+: shortcut.chords ∧ Meets begun earlier := by
  obtain ⟨shortcut, isMember, outcome⟩ := underway.leads
  have alive := Standing.ne_dead_of_leads outcome
  rcases List.eq_nil_or_concat' trail.strokes with isEmpty | ⟨earlier, last, isTyped⟩
  · rw [isEmpty] at alive
    exact absurd rfl alive
  · rw [isTyped] at alive
    obtain ⟨begun, chord, later, isSplit, met⟩ := exists_of_standing_ne_dead alive
    exact ⟨earlier, last, isTyped, shortcut, isMember, begun, ⟨chord :: later, isSplit.symm⟩, met⟩

end Trail

namespace TreeMatcher

/-- A trail that is kept leads somewhere at every keystroke but perhaps the last. -/
theorem arrivals_take_ne_nil (kept : trail.IsKept shortcuts tracked) {count : Nat}
    (notLast : count < trail.size) :
    arrivals (ShortcutTree.ofShortcuts shortcuts) (trail.strokes.take count) ≠ [] := by
  rcases kept with ⟨isEmpty, -⟩ | underway
  · simp [Trail.size, isEmpty] at notLast
  · obtain ⟨earlier, last, isTyped, shortcut, isMember, begun, begins, met⟩ := underway.exists_met
    have isEarlier : count ≤ earlier.length := by
      simp only [Trail.size, isTyped, List.length_append, List.length_singleton] at notLast
      omega
    rw [isTyped, List.take_append_of_le_length isEarlier]
    exact arrivals_ne_nil (ShortcutTree.represents_ofShortcuts shortcuts) isMember
      ((List.take_prefix count begun).trans begins) (List.forall₂_take count met)

/-- A trail that is kept leads nowhere when its last keystroke is provisional. -/
theorem arrivals_eq_nil_iff (kept : trail.IsKept shortcuts tracked) :
    arrivals (ShortcutTree.ofShortcuts shortcuts) trail.strokes = [] ↔
      trail.provisional = true := by
  rcases kept with ⟨isEmpty, notProvisional⟩ | underway
  · simp [isEmpty, notProvisional, arrivals]
  · obtain ⟨earlier, last, isTyped, -⟩ := underway.exists_met
    have arrives := arrives_iff (ShortcutTree.represents_ofShortcuts shortcuts) tracked earlier last
    rw [underway.provisional_iff, isTyped, ← not_iff_not, ← ne_eq, arrives]
    push Not
    exact exists_congr fun shortcut => and_congr_right fun _ => or_iff_not_imp_left

/-- **The walk of a trail that is kept goes with it.** -/
theorem goesWithTrail_of_isKept (kept : trail.IsKept shortcuts tracked) :
    let tree := ShortcutTree.ofShortcuts shortcuts
    GoesWithTrail { tree, tracked, trail, frontiers := walk tree [ShortcutTree.root] trail.strokes } := by
  intro tree
  have isTree := (ShortcutTree.represents_ofShortcuts shortcuts).isTree
  have frontier_at : ∀ place frontier,
      (walk tree [ShortcutTree.root] trail.strokes)[place]? = some frontier →
        place < trail.size ∧ frontier = arrivals tree (trail.strokes.take (place + 1)) := by
    intro place frontier found
    have inside : place < trail.strokes.length := by
      simpa using (List.getElem?_eq_some_iff.mp found).1
    exact ⟨inside, Option.some.inj (found.symm.trans (getElem?_walk inside))⟩
  refine ⟨length_walk _ _, fun place frontier found => ?_, fun place found => ?_, ?_, ?_⟩
  · obtain ⟨inside, rfl⟩ := frontier_at place frontier found
    refine ⟨nodup_arrivals isTree _, fun position => ?_⟩
    rw [mem_arrivals_iff]
    refine exists_congr fun path => and_congr_right fun _ => ?_
    refine ⟨fun met => ⟨?_, met⟩, And.right⟩
    rw [met.length_eq, List.length_take_of_le inside]
  · obtain ⟨inside, nowhere⟩ := frontier_at place [] found
    rw [length_walk]
    by_contra notLast
    exact arrivals_take_ne_nil kept (Nat.lt_of_le_of_ne inside notLast) nowhere.symm
  · rw [getLast?_walk_eq_nil_iff]
    exact arrivals_eq_nil_iff kept
  · rw [frontier, lastFrontier_walk]
    exact arrivals_eq_root_iff isTree

end TreeMatcher

/-- **The frontiers of a tree matcher go with its trail**, whatever the matcher has been
asked. -/
theorem frontiers_go_with_trail (shortcuts : List Shortcut) (tracked : Modifiers)
    (demands : List Matcher.Demand) :
    ∃ matcher : TreeMatcher,
      (Matcher.tree (.ofShortcuts shortcuts tracked)).led demands = .tree matcher ∧
        matcher.tree = ShortcutTree.ofShortcuts shortcuts ∧ matcher.GoesWithTrail := by
  obtain ⟨trail, kept, isLed⟩ := Matcher.exists_led .tree shortcuts tracked demands
  exact ⟨_, isLed, rfl, TreeMatcher.goesWithTrail_of_isKept kept⟩

end Keystrokes
