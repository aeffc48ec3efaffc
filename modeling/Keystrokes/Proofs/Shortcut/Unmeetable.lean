import Keystrokes.Keyboard.Signal
import Keystrokes.Proofs.Shortcut.Standing

/-!
# Chords that cannot be met

A chord that asks for an unknown modifier is met by no keystroke, and none leads to it.  A
chord that asks for a modifier which is not tracked is met by no keystroke of a key
event (`Chord.IsUnmeetable.metBy_stroke`).

A shortcut that holds a chord of the first kind can never be typed in full, but it can be
begun.  What keystrokes make of it is what they make of any shortcut that begins like it,
as long as they have not led out of what both have in common
(`standing_of_same_beginning`).
-/

set_option autoImplicit false

namespace Keystrokes

/-! ## Chords -/

namespace Chord

/-- A chord asks for a modifier that no keyboard has. -/
def AsksUnknown (chord : Chord) : Prop :=
  chord.required.unknown.isEmpty = false

instance (chord : Chord) : Decidable chord.AsksUnknown :=
  inferInstanceAs (Decidable (chord.required.unknown.isEmpty = false))

/-- A chord asks for a modifier that no keyboard has, or for one that is not among those
tracked. -/
def IsUnmeetable (tracked : Modifiers) (chord : Chord) : Prop :=
  chord.AsksUnknown ∨
    ∃ modifier, chord.required.known.contains modifier = true ∧ tracked.contains modifier = false

variable {chord : Chord}

theorem AsksUnknown.metBy (asksUnknown : chord.AsksUnknown) (stroke : Keystroke) :
    chord.metBy stroke = false := by
  rw [Chord.metBy, RequiredModifiers.metBy, asksUnknown, Bool.false_and, Bool.false_and]

theorem AsksUnknown.awaits (asksUnknown : chord.AsksUnknown) (stroke : Keystroke) :
    chord.awaits stroke = false := by
  rw [Chord.awaits, RequiredModifiers.withinReachOf, asksUnknown, Bool.false_and]

/-- The last keystroke leaves nothing of a shortcut whose next chord asks for an unknown
modifier. -/
theorem AsksUnknown.standing (asksUnknown : chord.AsksUnknown) (tracked : Modifiers)
    (later : List Chord) (stroke : Keystroke) : chord.standing tracked later stroke = .dead := by
  simp [Chord.standing, asksUnknown.metBy, asksUnknown.awaits]

/-- **No key event meets a chord that cannot be met.** -/
theorem IsUnmeetable.metBy_stroke {tracked : Modifiers} (unmeetable : chord.IsUnmeetable tracked)
    (event : KeyEvent) : chord.metBy (event.stroke tracked) = false := by
  rcases unmeetable with asksUnknown | ⟨modifier, asked, untracked⟩
  · exact asksUnknown.metBy _
  · -- The modifiers of the keystroke are among those tracked, so they are not those asked for.
    have different : (chord.required.known == (event.stroke tracked).held) = false := by
      refine beq_eq_false_iff_ne.mpr fun same => ?_
      have held : (event.stroke tracked).held.contains modifier = true := same ▸ asked
      rw [KeyEvent.stroke, KeyEvent.heldAmong, Modifiers.contains_inter, untracked] at held
      exact absurd held (by simp)
    rw [Chord.metBy, RequiredModifiers.metBy, different, Bool.and_false, Bool.false_and]

end Chord

/-! ## Shortcuts that can only be begun -/

variable {tracked : Modifiers} {begun later : List Chord} {chord : Chord}

/-- What is on the left of a list of related pairs is related to something. -/
theorem exists_related_of_mem {β γ : Type} {related : β → γ → Prop} {left : List β}
    {right : List γ} (pairs : List.Forall₂ related left right) {first : β}
    (isMember : first ∈ left) : ∃ second ∈ right, related first second := by
  induction pairs with
  | nil => exact absurd isMember List.not_mem_nil
  | @cons _ second _ rest isRelated _ hypothesis =>
      rcases List.mem_cons.mp isMember with rfl | isLater
      · exact ⟨second, List.mem_cons_self, isRelated⟩
      · obtain ⟨later, inRest, isRelated⟩ := hypothesis isLater
        exact ⟨later, List.mem_cons_of_mem _ inRest, isRelated⟩

/-- Chords that are met hold none that asks for an unknown modifier. -/
theorem Meets.not_mem {chords : List Chord} {strokes : List Keystroke}
    (met : Meets chords strokes) (asksUnknown : chord.AsksUnknown) : chord ∉ chords := by
  intro isMember
  obtain ⟨stroke, -, isMet⟩ := exists_related_of_mem met isMember
  exact absurd isMet (by simp [asksUnknown.metBy])

/-- A shortcut with a chord that asks for an unknown modifier is never typed in full. -/
theorem standing_ne_matched {chords : List Chord} (isMember : chord ∈ chords)
    (asksUnknown : chord.AsksUnknown) (strokes : List Keystroke) :
    standing tracked chords strokes ≠ .matched := by
  intro isMatched
  rcases List.eq_nil_or_concat' strokes with rfl | ⟨earlier, stroke, rfl⟩
  · cases chords <;> exact absurd isMatched (by simp [standing])
  · rw [standing_eq_matched_iff] at isMatched
    exact isMatched.not_mem asksUnknown isMember

/-- While a shortcut with a chord that asks for an unknown modifier is within reach, the
last keystroke faces a chord before that one. -/
theorem exists_facing (asksUnknown : chord.AsksUnknown) {earlier : List Keystroke}
    {stroke : Keystroke} {outcome : Standing} (alive : outcome ≠ .dead)
    (stands : standing tracked (begun ++ chord :: later) (earlier ++ [stroke]) = outcome) :
    ∃ met facing between, begun = met ++ facing :: between ∧ Meets met earlier ∧
      facing.standing tracked (between ++ chord :: later) stroke = outcome := by
  obtain ⟨met, facing, rest, isSplit, meets, facingStands⟩ := (standing_eq_iff alive).mp stands
  have unmet : chord ∉ met := meets.not_mem asksUnknown
  have unfaced : facing ≠ chord := by
    rintro rfl
    exact alive (facingStands.symm.trans (asksUnknown.standing ..))
  rcases List.append_eq_append_iff.mp isSplit with ⟨between, rfl, isRest⟩ |
    ⟨between, isBegun, isRest⟩
  · -- The keystrokes before the last would have met the chord, or the last faces it.
    rcases List.cons_eq_append_iff.mp isRest with ⟨-, same⟩ | ⟨between, rfl, -⟩
    · exact absurd (List.cons.inj same).1 unfaced
    · exact absurd (by simp) unmet
  · rcases List.cons_eq_append_iff.mp isRest with ⟨-, same⟩ | ⟨between, rfl, rfl⟩
    · exact absurd (List.cons.inj same).1.symm unfaced
    · exact ⟨met, facing, between, isBegun, meets, facingStands⟩

/-- **What keystrokes make of a shortcut that can only be begun, they make of every
shortcut that goes on from the same beginning**, while the first is within reach. -/
theorem standing_of_same_beginning (asksUnknown : chord.AsksUnknown) {strokes : List Keystroke}
    (alive : standing tracked (begun ++ chord :: later) strokes ≠ .dead) :
    begun ≠ [] ∧ ∀ next more, standing tracked (begun ++ next :: more) strokes =
      standing tracked (begun ++ chord :: later) strokes := by
  rcases List.eq_nil_or_concat' strokes with rfl | ⟨earlier, stroke, rfl⟩
  · exact absurd (by cases begun <;> rfl) alive
  · obtain ⟨met, facing, between, rfl, meets, outcome⟩ := exists_facing asksUnknown alive rfl
    refine ⟨by simp, fun next more => ?_⟩
    have sameFacing : facing.standing tracked (between ++ next :: more) stroke =
        facing.standing tracked (between ++ chord :: later) stroke := by
      simp [Chord.standing]
    rw [← outcome, ← sameFacing, List.append_assoc, List.cons_append]
    exact standing_append meets (facing :: (between ++ next :: more))

end Keystrokes
