import Keystrokes.Matching.Matcher
import Keystrokes.Proofs.Matching.Frontier

/-!
# The two matchers are one machine

What a matcher answers to a keystroke, and the trail it keeps, depend on its
shortcuts, the tracked modifiers and its trail only.  It does not matter whether it
looks at the shortcuts as a list or as a tree (`step_holding`): the frontiers of the
tree matcher are the walk of its trail through the tree, and the walk is carried on
by each keystroke.  So the state of a matcher is its trail, and every statement about
matchers of both kinds is a statement about trails.
-/

set_option autoImplicit false

namespace Keystrokes

/-! ## The machine on trails -/

/-- Where some keystrokes leave every shortcut of a list, in the order of the list. -/
def standings (shortcuts : List Shortcut) (tracked : Modifiers) (strokes : List Keystroke) :
    List Standing :=
  shortcuts.map fun shortcut => shortcut.standing tracked strokes

/-- The answer to the last of some keystrokes. -/
def verdictOn (shortcuts : List Shortcut) (tracked : Modifiers) (strokes : List Keystroke) :
    Verdict :=
  ListMatcher.verdict (standings shortcuts tracked strokes)

namespace Trail

/-- The keystrokes that stay when another one is added. -/
def kept (tracked : Modifiers) (trail : Trail) (next : Keystroke) : List Keystroke :=
  if (trail.replaced? tracked next).isSome then trail.strokes.dropLast else trail.strokes

@[simp] theorem strokes_extend (tracked : Modifiers) (trail : Trail) (next : Keystroke) :
    (trail.extend tracked next).strokes = trail.kept tracked next ++ [next] :=
  rfl

@[simp] theorem strokes_mark (trail : Trail) (provisional : Bool) :
    (trail.mark provisional).strokes = trail.strokes :=
  rfl

/-- The trail after one more keystroke towards some shortcuts.  It starts again when
no further keystroke could complete a shortcut. -/
def next (shortcuts : List Shortcut) (tracked : Modifiers) (trail : Trail)
    (stroke : Keystroke) : Trail :=
  let extended := trail.extend tracked stroke
  if (verdictOn shortcuts tracked extended.strokes).possible then
    extended.mark (ListMatcher.leavesProvisional (standings shortcuts tracked extended.strokes))
  else Trail.empty

end Trail

variable {shortcuts : List Shortcut} {tracked : Modifiers} {strokes : List Keystroke}

theorem getElem?_standings {number : Nat} {outcome : Standing} :
    (standings shortcuts tracked strokes)[number]? = some outcome ↔
      ∃ shortcut, shortcuts[number]? = some shortcut ∧
        shortcut.standing tracked strokes = outcome := by
  simp [standings, Option.map_eq_some_iff]

theorem contains_standings {outcome : Standing} :
    (standings shortcuts tracked strokes).contains outcome = true ↔
      ∃ shortcut ∈ shortcuts, shortcut.standing tracked strokes = outcome := by
  simp [standings]

/-- The shortcuts typed in full are those that stand matched. -/
theorem mem_matched {number : Nat} :
    number ∈ (verdictOn shortcuts tracked strokes).matched ↔
      ∃ shortcut, shortcuts[number]? = some shortcut ∧
        shortcut.standing tracked strokes = .matched := by
  rw [verdictOn, ListMatcher.verdict, ListMatcher.mem_positions, getElem?_standings]

/-- The shortcuts typed in full come in ascending order, each of them once. -/
theorem pairwise_matched (shortcuts : List Shortcut) (tracked : Modifiers)
    (strokes : List Keystroke) :
    (verdictOn shortcuts tracked strokes).matched.Pairwise (· < ·) :=
  ListMatcher.pairwise_positions _ _

theorem lt_length_of_mem_matched {number : Nat}
    (isMatched : number ∈ (verdictOn shortcuts tracked strokes).matched) :
    number < shortcuts.length := by
  obtain ⟨_, found, -⟩ := mem_matched.mp isMatched
  exact (List.getElem?_eq_some_iff.mp found).1

/-- A further keystroke could complete a shortcut when one is on its way or awaited. -/
theorem possible_iff :
    (verdictOn shortcuts tracked strokes).possible = true ↔
      (∃ shortcut ∈ shortcuts, shortcut.standing tracked strokes = .possible) ∨
        ∃ shortcut ∈ shortcuts, shortcut.standing tracked strokes = .awaiting := by
  simp only [verdictOn, ListMatcher.verdict, Bool.or_eq_true, contains_standings]

/-- The last keystroke is provisional when a shortcut awaits it and none is met by
it. -/
theorem leavesProvisional_iff :
    ListMatcher.leavesProvisional (standings shortcuts tracked strokes) = true ↔
      (∃ shortcut ∈ shortcuts, shortcut.standing tracked strokes = .awaiting) ∧
        ¬ ∃ shortcut ∈ shortcuts, shortcut.standing tracked strokes = .matched ∨
          shortcut.standing tracked strokes = .possible := by
  have metByNone : ((standings shortcuts tracked strokes).contains .matched ||
      (standings shortcuts tracked strokes).contains .possible) = true ↔
      ∃ shortcut ∈ shortcuts, shortcut.standing tracked strokes = .matched ∨
        shortcut.standing tracked strokes = .possible := by
    rw [Bool.or_eq_true, contains_standings, contains_standings, ← exists_or]
    exact exists_congr fun _ => and_or_left.symm
  rw [ListMatcher.leavesProvisional, Bool.and_eq_true, contains_standings, Bool.not_eq_true',
    ← metByNone, Bool.not_eq_true]

/-! ## A matcher that holds a trail -/

namespace Matcher

/-- The matcher of some shortcuts before anything is typed. -/
def ofKind (kind : MatcherKind) (shortcuts : List Shortcut) (tracked : Modifiers) : Matcher :=
  match kind with
  | .list => .list { shortcuts, tracked }
  | .tree => .tree (.ofShortcuts shortcuts tracked)

/-- The matcher of some shortcuts that holds a trail. -/
def holding (kind : MatcherKind) (shortcuts : List Shortcut) (tracked : Modifiers)
    (trail : Trail) : Matcher :=
  match kind with
  | .list => .list { shortcuts, tracked, trail }
  | .tree =>
      let tree := ShortcutTree.ofShortcuts shortcuts
      .tree { tree, tracked, trail,
              frontiers := TreeMatcher.walk tree [ShortcutTree.root] trail.strokes }

variable (kind : MatcherKind) (shortcuts : List Shortcut) (tracked : Modifiers) (trail : Trail)

theorem ofKind_eq_holding :
    ofKind kind shortcuts tracked = holding kind shortcuts tracked Trail.empty := by
  cases kind <;> rfl

@[simp] theorem trail_holding : (holding kind shortcuts tracked trail).trail = trail := by
  cases kind <;> rfl

@[simp] theorem restart_holding :
    (holding kind shortcuts tracked trail).restart =
      holding kind shortcuts tracked Trail.empty := by
  cases kind <;> rfl

end Matcher

/-! ## One keystroke -/

namespace TreeMatcher

/-- The answer read off the tree of a list is the answer read off the list. -/
theorem verdict_eq_verdictOn (shortcuts : List Shortcut) (tracked : Modifiers)
    (earlier : List Keystroke) (stroke : Keystroke) :
    let tree := ShortcutTree.ofShortcuts shortcuts
    verdict tree (arrivals tree (earlier ++ [stroke]))
        (awaited tree tracked (arrivals tree earlier) stroke) =
      verdictOn shortcuts tracked (earlier ++ [stroke]) := by
  intro tree
  have holds := ShortcutTree.represents_ofShortcuts shortcuts
  have sameMatched : (verdict tree (arrivals tree (earlier ++ [stroke]))
      (awaited tree tracked (arrivals tree earlier) stroke)).matched =
      (verdictOn shortcuts tracked (earlier ++ [stroke])).matched := by
    refine eq_of_ascending (pairwise_ascending _) (pairwise_matched _ _ _) fun number => ?_
    rw [mem_matched, ← ends_at_arrivals_iff holds, verdict, mem_ascending, List.mem_flatMap]
  have samePossible : (verdict tree (arrivals tree (earlier ++ [stroke]))
      (awaited tree tracked (arrivals tree earlier) stroke)).possible =
      (verdictOn shortcuts tracked (earlier ++ [stroke])).possible := by
    rw [Bool.eq_iff_iff, possible_iff, ← continues_iff holds, ← awaited_iff holds, or_comm]
    simp only [verdict, Bool.or_eq_true, List.any_eq_true, Bool.not_eq_true',
      List.isEmpty_eq_false_iff]
    exact Iff.rfl
  generalize verdict tree (arrivals tree (earlier ++ [stroke]))
    (awaited tree tracked (arrivals tree earlier) stroke) = answer at *
  cases answer
  simp only at sameMatched samePossible
  rw [sameMatched, samePossible]

/-- A keystroke that leads nowhere in the tree, and only such a keystroke, leaves the
trail provisional while a shortcut may still be completed. -/
theorem isEmpty_arrivals (shortcuts : List Shortcut) (tracked : Modifiers)
    (earlier : List Keystroke) (stroke : Keystroke)
    (possible : (verdictOn shortcuts tracked (earlier ++ [stroke])).possible) :
    (arrivals (ShortcutTree.ofShortcuts shortcuts) (earlier ++ [stroke])).isEmpty =
      ListMatcher.leavesProvisional (standings shortcuts tracked (earlier ++ [stroke])) := by
  have holds := ShortcutTree.represents_ofShortcuts shortcuts
  have arrives := arrives_iff holds tracked earlier stroke
  rw [Bool.eq_iff_iff, leavesProvisional_iff, ← arrives, not_not, List.isEmpty_iff]
  refine ⟨fun nowhere => ⟨?_, nowhere⟩, And.right⟩
  rcases possible_iff.mp possible with ⟨shortcut, isMember, onItsWay⟩ | isAwaited
  · exact absurd nowhere (arrives.mpr ⟨shortcut, isMember, .inr onItsWay⟩)
  · exact isAwaited

end TreeMatcher

namespace Matcher

/-- **A keystroke does to a matcher of either kind what it does to the trail.** -/
theorem step_holding (kind : MatcherKind) (shortcuts : List Shortcut) (tracked : Modifiers)
    (trail : Trail) (stroke : Keystroke) :
    (holding kind shortcuts tracked trail).step stroke =
      (holding kind shortcuts tracked (trail.next shortcuts tracked stroke),
        verdictOn shortcuts tracked (trail.extend tracked stroke).strokes) := by
  cases kind with
  | list => rfl
  | tree =>
      have frontiers : TreeMatcher.keptFrontiers
          { tree := ShortcutTree.ofShortcuts shortcuts, tracked, trail,
            frontiers := TreeMatcher.walk (ShortcutTree.ofShortcuts shortcuts)
              [ShortcutTree.root] trail.strokes } stroke =
          TreeMatcher.walk (ShortcutTree.ofShortcuts shortcuts) [ShortcutTree.root]
            (trail.kept tracked stroke) := by
        rw [TreeMatcher.keptFrontiers, Trail.kept]
        split
        · rw [TreeMatcher.walk_dropLast]
        · rfl
      have answer := TreeMatcher.verdict_eq_verdictOn shortcuts tracked
        (trail.kept tracked stroke) stroke
      have provisional := TreeMatcher.isEmpty_arrivals shortcuts tracked
        (trail.kept tracked stroke) stroke
      by_cases possible :
          (verdictOn shortcuts tracked (trail.kept tracked stroke ++ [stroke])).possible
      · simp only [holding, step, TreeMatcher.step, frontiers, TreeMatcher.lastFrontier_walk,
          ← TreeMatcher.arrivals_concat, answer, Trail.next, Trail.strokes_extend, possible,
          if_true, Trail.strokes_mark, TreeMatcher.walk_root_concat, provisional possible]
        rfl
      · simp only [holding, step, TreeMatcher.step, frontiers, TreeMatcher.lastFrontier_walk,
          ← TreeMatcher.arrivals_concat, answer, Trail.next, Trail.strokes_extend, possible]
        rfl

end Matcher

end Keystrokes
