import Keystrokes.Proofs.Matching.Typing
import Keystrokes.Proofs.Shortcut.Unmeetable

/-!
# What is possible can be done

A verdict says that a further keystroke could complete a shortcut.  If no shortcut asks for
an unknown modifier, some keystrokes really complete one: it is still possible after each
of them but the last, and with the last one a shortcut has been typed in full
(`exists_completion`).

A chord can be met without a modifier key, since the physical key is enough
(`Chord.plainStroke`).  If the last keystroke is of a modifier key, the next one may take
its place.  So the chord for which it stands is met once more, now by a plain keystroke,
and the rest of the shortcut is typed after that (`Trail.exists_continuation`).
-/

set_option autoImplicit false

namespace Keystrokes

variable {shortcuts : List Shortcut} {tracked : Modifiers} {trail : Trail}

/-! ## Plain keystrokes -/

namespace Chord

/-- The keystroke that holds the modifiers of a chord and has the key of the chord for its
physical key.  It has no logical key, so it is not that of a modifier. -/
def plainStroke (chord : Chord) : Keystroke :=
  ⟨chord.required.known, "", chord.key⟩

theorem metBy_plainStroke {chord : Chord} (meetable : ¬ chord.AsksUnknown) :
    chord.metBy chord.plainStroke = true := by
  have known : chord.required.unknown.isEmpty = true := by simpa [AsksUnknown] using meetable
  simp [metBy, RequiredModifiers.metBy, plainStroke, known]

theorem foldsInto_plainStroke (chord : Chord) (tracked : Modifiers) (next : Keystroke) :
    chord.plainStroke.foldsInto tracked next = false := by
  have isNoModifier : tracked.tracksKey "" = false := rfl
  rw [Keystroke.foldsInto, plainStroke, isNoModifier, Bool.false_and]

/-- A keystroke of a modifier key folds into the plain keystroke of a chord that it meets or
that awaits it. -/
theorem foldsInto_of_standing {chord : Chord} {stroke : Keystroke}
    (isTracked : tracked.tracksKey stroke.key = true)
    (leads : chord.metBy stroke = true ∨ chord.awaits stroke = true) :
    stroke.foldsInto tracked chord.plainStroke = true := by
  have isWithin : stroke.held.isWithin chord.required.known = true := by
    rcases leads with meets | isAwaited
    · have same : chord.required.known = stroke.held := by
        simp only [metBy, RequiredModifiers.metBy, Bool.and_eq_true, beq_iff_eq] at meets
        exact meets.1.2
      rw [same, Modifiers.isWithin_refl]
    · exact (Bool.and_eq_true_iff.mp isAwaited).2
  rw [Keystroke.foldsInto, isTracked, Bool.true_and]
  exact isWithin

theorem meets_plainStrokes {chords : List Chord}
    (meetable : ∀ chord ∈ chords, ¬ chord.AsksUnknown) : Meets chords (chords.map plainStroke) := by
  refine List.forall₂_map_right_iff.mpr (List.forall₂_same.mpr fun chord isMember => ?_)
  exact metBy_plainStroke (meetable chord isMember)

theorem apart_plainStrokes (chords : List Chord) : Apart tracked (chords.map plainStroke) := by
  refine List.isChain_iff_forall_rel_of_append_cons_cons.mpr fun stroke next before after split => ?_
  have isMember : stroke ∈ chords.map plainStroke := by simp [split]
  obtain ⟨chord, -, rfl⟩ := List.mem_map.mp isMember
  exact chord.foldsInto_plainStroke tracked next

end Chord

/-! ## Going on -/

namespace Trail

/-- **Plain keystrokes go on from a trail that leads to a shortcut.**  They meet the chords
left of some shortcut, from the chord on for which the last keystroke stands if that is of
a modifier key. -/
theorem exists_continuation {stroke : Keystroke}
    (possible : (verdictOn shortcuts tracked
      (trail.kept tracked stroke ++ [stroke])).possible = true) :
    ∃ shortcut ∈ shortcuts, ∃ begun later typed, shortcut.chords = begun ++ later ∧ later ≠ [] ∧
      Meets begun typed ∧ ∀ next ∈ (later.map Chord.plainStroke).head?,
        (trail.next shortcuts tracked stroke).kept tracked next = typed := by
  have isTyped : (trail.next shortcuts tracked stroke).strokes =
      trail.kept tracked stroke ++ [stroke] := by rw [strokes_next, if_pos possible]
  -- The last keystroke of a modifier key is lost to the plain keystroke of its chord.
  have replaces : ∀ {chord : Chord} {more : List Chord}, tracked.tracksKey stroke.key = true →
      (chord.metBy stroke = true ∨ chord.awaits stroke = true) →
      ∀ next ∈ ((chord :: more).map Chord.plainStroke).head?,
        (trail.next shortcuts tracked stroke).kept tracked next = trail.kept tracked stroke := by
    rintro chord more isTracked leads next ⟨⟩
    exact kept_of_replaced isTyped (.inr (Chord.foldsInto_of_standing isTracked leads))
  rcases possible_iff.mp possible with ⟨shortcut, isMember, onItsWay⟩ | ⟨shortcut, isMember, awaits⟩
  · obtain ⟨begun, later, isSplit, isProper, met⟩ := standing_eq_possible_iff.mp onItsWay
    cases isTracked : tracked.tracksKey stroke.key with
    | true =>
        obtain ⟨first, chord, rfl, metFirst, metLast⟩ := met.exists_concat
        exact ⟨shortcut, isMember, first, chord :: later, _, by simpa using isSplit, by simp,
          metFirst, replaces isTracked (.inl metLast)⟩
    | false =>
        refine ⟨shortcut, isMember, begun, later, _, isSplit, isProper, met, fun next _ => ?_⟩
        rw [next_of_possible isMember onItsWay]
        refine kept_of_apart rfl fun last isLast => ?_
        obtain rfl : stroke = last := by simpa using isLast
        rw [Keystroke.foldsInto, isTracked, Bool.false_and]
  · obtain ⟨begun, chord, later, isSplit, met, -, isTracked, isAwaited⟩ :=
      standing_eq_awaiting_iff.mp awaits
    exact ⟨shortcut, isMember, begun, chord :: later, _, isSplit, by simp, met,
      replaces isTracked (.inr isAwaited)⟩

end Trail

/-! ## The completion -/

/-- **What is possible can be done.**  Let no shortcut ask for an unknown modifier.  After
any demands, if a matcher of either kind says of one more keystroke that a shortcut could
be completed, then some further keystrokes complete one: the matcher says the same of each
of them but the last, and with the last one the shortcut has been typed in full. -/
theorem exists_completion (kind : MatcherKind) (shortcuts : List Shortcut) (tracked : Modifiers)
    (meetable : ∀ shortcut ∈ shortcuts, ∀ chord ∈ shortcut.chords, ¬ chord.AsksUnknown)
    (demands : List Matcher.Demand) (stroke : Keystroke) :
    let reached := ((Matcher.ofKind kind shortcuts tracked).led demands).step stroke
    reached.2.possible = true →
      ∃ strokes, strokes ≠ [] ∧ ∃ number, Completes number (reached.1.verdicts strokes) := by
  intro reached possible
  obtain ⟨trail, -, isLed⟩ := Matcher.exists_led kind shortcuts tracked demands
  have isReached : reached = _ :=
    (congrArg (Matcher.step · stroke) isLed).trans (Matcher.step_holding ..)
  rw [isReached] at possible ⊢
  obtain ⟨shortcut, isMember, begun, later, typed, isSplit, isProper, met, isKept⟩ :=
    Trail.exists_continuation possible
  obtain ⟨number, found⟩ := List.mem_iff_getElem?.mp isMember
  have meetableLater : ∀ chord ∈ later, ¬ chord.AsksUnknown := by
    intro chord isLater
    exact meetable shortcut isMember chord (isSplit ▸ List.mem_append_right begun isLater)
  exact ⟨later.map Chord.plainStroke, by simpa using isProper, number,
    completes_of_meets kind found isSplit met (Chord.meets_plainStrokes meetableLater) isProper
      isKept (Chord.apart_plainStrokes later)⟩

/-- Control has met the first of two chords that both ask for Control, so whatever meets the
second one takes its place.  The shortcut can be completed all the same. -/
theorem exists_completion_after_control :
    let control := Modifiers.ofList [.control]
    let shortcuts : List Shortcut :=
      [⟨⟨.ofHeld control, "Control"⟩, [⟨.ofHeld control, "k"⟩]⟩]
    let reached := ((Matcher.ofKind .list shortcuts .all).led []).step
      ⟨control, "Control", "ControlLeft"⟩
    (∀ shortcut ∈ shortcuts, ∀ chord ∈ shortcut.chords, ¬ chord.AsksUnknown) ∧
      reached.2.possible = true ∧
      ∃ strokes, strokes ≠ [] ∧ ∃ number, Completes number (reached.1.verdicts strokes) := by
  intro control shortcuts reached
  have meetable : ∀ shortcut ∈ shortcuts, ∀ chord ∈ shortcut.chords, ¬ chord.AsksUnknown := by
    decide
  have possible : reached.2.possible = true := by decide
  exact ⟨meetable, possible, exists_completion .list shortcuts .all meetable [] _ possible⟩

end Keystrokes
