import Keystrokes.Proofs.Responding.Agreement

/-!
# A trail that is kept leads somewhere

A matcher keeps a trail only as long as a further keystroke could complete a shortcut.
So whatever a matcher has been asked, its trail is empty or under way
(`trail_leads_on`): some shortcut is on its way or awaited, which bounds the trail by the
longest shortcut, and the last keystroke is provisional exactly when no shortcut is met
by the trail.

The mark of a trail is set from the standings of the shortcuts by one matcher and from
the frontier by the other.  Both are the machine on trails (`Matcher.step_holding`), and
there one keystroke makes a trail that is empty or under way, whatever the trail was
before (`Trail.isKept_next`).
-/

set_option autoImplicit false

namespace Keystrokes

/-- The size of the longest of some shortcuts. -/
def longest (shortcuts : List Shortcut) : Nat :=
  (shortcuts.map Shortcut.size).max?.getD 0

/-! ## Trails under way -/

namespace Trail

/-- A trail is under way when it leads to some shortcut. -/
structure IsUnderway (shortcuts : List Shortcut) (tracked : Modifiers) (trail : Trail) :
    Prop where
  /-- A further keystroke could complete a shortcut. -/
  leads : ∃ shortcut ∈ shortcuts,
    shortcut.standing tracked trail.strokes = .possible ∨
      shortcut.standing tracked trail.strokes = .awaiting
  fits : trail.size ≤ longest shortcuts
  /-- The last keystroke is provisional when no shortcut is met by the trail. -/
  provisional_iff : trail.provisional = true ↔ ∀ shortcut ∈ shortcuts,
    shortcut.standing tracked trail.strokes ≠ .matched ∧
      shortcut.standing tracked trail.strokes ≠ .possible
  /-- A provisional keystroke is a tracked modifier, and those before it meet the first
  chords of a shortcut. -/
  of_provisional : trail.provisional = true → ∃ earlier last, trail.strokes = earlier ++ [last] ∧
    tracked.tracksKey last.key = true ∧
    ∃ shortcut ∈ shortcuts, Meets (shortcut.chords.take earlier.length) earlier

/-- A trail that a matcher keeps is empty or under way. -/
def IsKept (shortcuts : List Shortcut) (tracked : Modifiers) (trail : Trail) : Prop :=
  trail.strokes = [] ∧ trail.provisional = false ∨ trail.IsUnderway shortcuts tracked

end Trail

variable {shortcuts : List Shortcut} {tracked : Modifiers} {trail : Trail}

/-- What is on its way or awaited is not out of reach. -/
theorem Standing.ne_dead_of_leads {outcome : Standing}
    (leads : outcome = .possible ∨ outcome = .awaiting) : outcome ≠ .dead := by
  rcases leads with rfl | rfl <;> decide

/-- A shortcut that is not out of reach bounds the keystrokes. -/
theorem length_le_longest {earlier : List Keystroke} {stroke : Keystroke} {shortcut : Shortcut}
    (isMember : shortcut ∈ shortcuts)
    (alive : shortcut.standing tracked (earlier ++ [stroke]) ≠ .dead) :
    (earlier ++ [stroke]).length ≤ longest shortcuts :=
  calc (earlier ++ [stroke]).length
      ≤ shortcut.size := length_le_of_standing_ne_dead alive
    _ ≤ longest shortcuts := List.le_max?_getD_of_mem (List.mem_map_of_mem isMember)

/-- The mark that the standings ask for, in terms of the shortcuts that are met. -/
theorem leavesProvisional_iff_of_possible {strokes : List Keystroke}
    (possible : (verdictOn shortcuts tracked strokes).possible = true) :
    ListMatcher.leavesProvisional (standings shortcuts tracked strokes) = true ↔
      ∀ shortcut ∈ shortcuts, shortcut.standing tracked strokes ≠ .matched ∧
        shortcut.standing tracked strokes ≠ .possible := by
  have metByNone : (¬ ∃ shortcut ∈ shortcuts, shortcut.standing tracked strokes = .matched ∨
      shortcut.standing tracked strokes = .possible) ↔
      ∀ shortcut ∈ shortcuts, shortcut.standing tracked strokes ≠ .matched ∧
        shortcut.standing tracked strokes ≠ .possible := by
    push Not
    exact Iff.rfl
  rw [leavesProvisional_iff, metByNone]
  refine ⟨And.right, fun unmet => ⟨?_, unmet⟩⟩
  rcases possible_iff.mp possible with ⟨shortcut, isMember, onItsWay⟩ | isAwaited
  · exact absurd onItsWay (unmet shortcut isMember).2
  · exact isAwaited

/-- A keystroke that is provisional is a tracked modifier, and those before it meet the
first chords of a shortcut. -/
theorem of_leavesProvisional {earlier : List Keystroke} {stroke : Keystroke}
    (provisional : ListMatcher.leavesProvisional
      (standings shortcuts tracked (earlier ++ [stroke])) = true) :
    tracked.tracksKey stroke.key = true ∧
      ∃ shortcut ∈ shortcuts, Meets (shortcut.chords.take earlier.length) earlier := by
  obtain ⟨⟨shortcut, isMember, isAwaited⟩, -⟩ := leavesProvisional_iff.mp provisional
  obtain ⟨begun, chord, later, isSplit, met, -, isTracked, -⟩ :=
    standing_eq_awaiting_iff.mp isAwaited
  refine ⟨isTracked, shortcut, isMember, ?_⟩
  have sameLength : begun.length = earlier.length := met.length_eq
  rw [isSplit, ← sameLength, List.take_left]
  exact met

/-! ## One more keystroke -/

namespace Trail

/-- Keystrokes that could be gone on from are a trail under way, with the mark that the
standings ask for. -/
theorem isUnderway_of_possible {earlier : List Keystroke} {stroke : Keystroke}
    (possible : (verdictOn shortcuts tracked (earlier ++ [stroke])).possible = true) :
    IsUnderway shortcuts tracked ⟨earlier ++ [stroke],
      ListMatcher.leavesProvisional (standings shortcuts tracked (earlier ++ [stroke]))⟩ := by
  have leads : ∃ shortcut ∈ shortcuts,
      shortcut.standing tracked (earlier ++ [stroke]) = .possible ∨
        shortcut.standing tracked (earlier ++ [stroke]) = .awaiting := by
    simpa only [and_or_left, exists_or] using possible_iff.mp possible
  refine ⟨leads, ?_, leavesProvisional_iff_of_possible possible, ?_⟩
  · obtain ⟨shortcut, isMember, outcome⟩ := leads
    exact length_le_longest isMember (Standing.ne_dead_of_leads outcome)
  · intro provisional
    obtain ⟨isTracked, met⟩ := of_leavesProvisional provisional
    exact ⟨earlier, stroke, rfl, isTracked, met⟩

theorem mark_extend (trail : Trail) (stroke : Keystroke) (provisional : Bool) :
    (trail.extend tracked stroke).mark provisional =
      ⟨trail.kept tracked stroke ++ [stroke], provisional⟩ := by
  simp [mark, strokes_extend]

/-- **One more keystroke makes a trail that is empty or under way**, whatever the trail
was before. -/
theorem isKept_next (trail : Trail) (stroke : Keystroke) :
    (trail.next shortcuts tracked stroke).IsKept shortcuts tracked := by
  rw [next, mark_extend, strokes_extend]
  by_cases possible : (verdictOn shortcuts tracked
      (trail.kept tracked stroke ++ [stroke])).possible = true
  · rw [if_pos possible]
    exact .inr (isUnderway_of_possible possible)
  · rw [if_neg possible]
    exact .inl ⟨rfl, rfl⟩

/-- A keystroke is the last of the trail, or leaves it empty when nothing could be
completed. -/
theorem strokes_next (trail : Trail) (stroke : Keystroke) :
    (trail.next shortcuts tracked stroke).strokes =
      if (verdictOn shortcuts tracked (trail.kept tracked stroke ++ [stroke])).possible
      then trail.kept tracked stroke ++ [stroke] else [] := by
  rw [next, mark_extend, strokes_extend]
  split <;> rfl

end Trail

/-! ## Runs of a matcher -/

namespace Matcher

/-- The matcher after some demands. -/
def led (matcher : Matcher) (demands : List Demand) : Matcher :=
  demands.foldl (fun matcher demand => (matcher.comply demand).1) matcher

/-- **What a new matcher is led to by demands holds a trail that is empty or under
way.** -/
theorem exists_led (kind : MatcherKind) (shortcuts : List Shortcut) (tracked : Modifiers)
    (demands : List Demand) :
    ∃ trail : Trail, trail.IsKept shortcuts tracked ∧
      (ofKind kind shortcuts tracked).led demands = holding kind shortcuts tracked trail := by
  induction demands using List.reverseRecOn with
  | nil => exact ⟨Trail.empty, .inl ⟨rfl, rfl⟩, ofKind_eq_holding kind shortcuts tracked⟩
  | append_singleton demands demand hypothesis =>
      obtain ⟨trail, -, isLed⟩ := hypothesis
      have isLedOn : (ofKind kind shortcuts tracked).led (demands ++ [demand]) =
          ((holding kind shortcuts tracked trail).comply demand).1 := by
        rw [← isLed, led, led, List.foldl_append, List.foldl_cons, List.foldl_nil]
      rw [isLedOn]
      cases demand with
      | step stroke =>
          refine ⟨trail.next shortcuts tracked stroke, trail.isKept_next stroke, ?_⟩
          simp only [comply, step_holding, Prod.map, id]
      | restart => exact ⟨Trail.empty, .inl ⟨rfl, rfl⟩, restart_holding kind shortcuts tracked trail⟩

end Matcher

/-- **A trail that is kept leads somewhere.**  After any demands, the trail of a matcher
of either kind is empty and not provisional, or it is under way.  A further keystroke
leaves it empty exactly when its verdict says that nothing could be completed, and is the
last of it otherwise. -/
theorem trail_leads_on (kind : MatcherKind) (shortcuts : List Shortcut) (tracked : Modifiers)
    (demands : List Matcher.Demand) :
    let matcher := (Matcher.ofKind kind shortcuts tracked).led demands
    matcher.trail.IsKept shortcuts tracked ∧
      ∀ stroke, let (next, verdict) := matcher.step stroke
        (verdict.possible = false ↔ next.trail.strokes = []) ∧
          (verdict.possible = true → next.trail.strokes.getLast? = some stroke) := by
  intro matcher
  obtain ⟨trail, isKept, isLed⟩ := Matcher.exists_led kind shortcuts tracked demands
  have held : matcher = Matcher.holding kind shortcuts tracked trail := isLed
  rw [held, Matcher.trail_holding]
  refine ⟨isKept, fun stroke => ?_⟩
  rw [Matcher.step_holding]
  simp only [Matcher.trail_holding, Trail.strokes_next, Trail.strokes_extend]
  cases (verdictOn shortcuts tracked (trail.kept tracked stroke ++ [stroke])).possible with
  | false => simp
  | true => simp

end Keystrokes
