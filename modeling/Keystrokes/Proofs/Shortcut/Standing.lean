import Keystrokes.Shortcut.Standing
import Mathlib.Data.List.Forall2

/-!
# Standings through the chords that are met

Where a shortcut stands after some keystrokes is told chord by chord.  It is typed in
full when its chords are met by the keystrokes one by one
(`standing_eq_matched_iff`), and on its way when a proper beginning of them is
(`standing_eq_possible_iff`).  It is awaited when all keystrokes but the last meet a
beginning and the last is a modifier for which the next chord waits
(`standing_eq_awaiting_iff`).
-/

set_option autoImplicit false

namespace Keystrokes

/-- Keystrokes meet chords when there are equally many and each keystroke meets the
chord in its place. -/
abbrev Meets (chords : List Chord) (strokes : List Keystroke) : Prop :=
  List.Forall₂ (fun chord stroke => chord.metBy stroke = true) chords strokes

variable {tracked : Modifiers} {chords : List Chord} {earlier : List Keystroke}
  {stroke : Keystroke}

/-- The last keystroke faces the chord after those that the earlier ones meet. -/
theorem standing_append {begun : List Chord} (met : Meets begun earlier) (rest : List Chord) :
    standing tracked (begun ++ rest) (earlier ++ [stroke]) = standing tracked rest [stroke] := by
  induction met with
  | nil => rfl
  | @cons chord first begun strokes meets _ hypothesis =>
      cases strokes with
      | nil =>
          rw [List.nil_append] at hypothesis
          simp [standing, meets, hypothesis]
      | cons second strokes => simpa [standing, meets] using hypothesis

/-- A shortcut that is not out of reach has a chord for the last keystroke to face,
after chords that the earlier keystrokes meet. -/
theorem exists_of_standing_ne_dead
    (alive : standing tracked chords (earlier ++ [stroke]) ≠ .dead) :
    ∃ begun chord later, chords = begun ++ chord :: later ∧ Meets begun earlier := by
  induction earlier generalizing chords with
  | nil =>
      cases chords with
      | nil => exact absurd rfl alive
      | cons chord later => exact ⟨[], chord, later, rfl, .nil⟩
  | cons first earlier hypothesis =>
      cases chords with
      | nil => exact absurd rfl alive
      | cons chord later =>
          have unfolded : standing tracked (chord :: later) (first :: (earlier ++ [stroke])) =
              if chord.metBy first then standing tracked later (earlier ++ [stroke])
              else .dead := by
            cases earlier <;> rfl
          rw [List.cons_append, unfolded] at alive
          by_cases meets : chord.metBy first
          · rw [if_pos meets] at alive
            obtain ⟨begun, facing, later, rfl, met⟩ := hypothesis alive
            exact ⟨chord :: begun, facing, later, rfl, .cons meets met⟩
          · exact absurd (if_neg meets) alive

/-- More keystrokes than chords leave nothing of a shortcut. -/
theorem length_le_of_standing_ne_dead
    (alive : standing tracked chords (earlier ++ [stroke]) ≠ .dead) :
    (earlier ++ [stroke]).length ≤ chords.length := by
  obtain ⟨begun, chord, later, rfl, met⟩ := exists_of_standing_ne_dead alive
  have sameLength : begun.length = earlier.length := met.length_eq
  simp only [List.length_append, List.length_cons, List.length_nil]
  omega

/-- A standing other than death is that of the chord which the last keystroke
faces. -/
theorem standing_eq_iff {outcome : Standing} (alive : outcome ≠ .dead) :
    standing tracked chords (earlier ++ [stroke]) = outcome ↔
      ∃ begun chord later, chords = begun ++ chord :: later ∧ Meets begun earlier ∧
        chord.standing tracked later stroke = outcome := by
  constructor
  · rintro rfl
    obtain ⟨begun, chord, later, rfl, met⟩ := exists_of_standing_ne_dead alive
    have facing : standing tracked (begun ++ chord :: later) (earlier ++ [stroke]) =
        chord.standing tracked later stroke := standing_append met (chord :: later)
    exact ⟨begun, chord, later, rfl, met, facing.symm⟩
  · rintro ⟨begun, chord, later, rfl, met, rfl⟩
    exact standing_append met (chord :: later)

theorem forall₂_concat_iff {β γ : Type} {related : β → γ → Prop} {left : List β}
    {right : List γ} {first : β} {second : γ} :
    List.Forall₂ related (left ++ [first]) (right ++ [second]) ↔
      List.Forall₂ related left right ∧ related first second := by
  rw [← List.forall₂_reverse_iff, List.reverse_append, List.reverse_append]
  simp [List.forall₂_reverse_iff, and_comm]

/-- Chords that are met by a list ending in a keystroke end in a chord that it
meets. -/
theorem Meets.exists_concat (met : Meets chords (earlier ++ [stroke])) :
    ∃ begun chord, chords = begun ++ [chord] ∧ Meets begun earlier ∧ chord.metBy stroke := by
  rcases List.eq_nil_or_concat' chords with rfl | ⟨begun, chord, rfl⟩
  · exact absurd met.length_eq (by simp)
  · exact ⟨begun, chord, rfl, forall₂_concat_iff.mp met⟩

/-- **A shortcut is typed in full when the keystrokes meet its chords.** -/
theorem standing_eq_matched_iff :
    standing tracked chords (earlier ++ [stroke]) = .matched ↔
      Meets chords (earlier ++ [stroke]) := by
  rw [standing_eq_iff (by decide)]
  constructor
  · rintro ⟨begun, chord, later, rfl, met, isMatched⟩
    have last : chord.metBy stroke ∧ later = [] := by
      unfold Chord.standing at isMatched
      split at isMatched <;> split at isMatched <;> simp_all
    obtain ⟨meets, rfl⟩ := last
    exact forall₂_concat_iff.mpr ⟨met, meets⟩
  · intro met
    obtain ⟨begun, chord, rfl, before, meets⟩ := met.exists_concat
    exact ⟨begun, chord, [], rfl, before, by simp [Chord.standing, meets]⟩

/-- **A shortcut is on its way when the keystrokes meet a proper beginning.** -/
theorem standing_eq_possible_iff :
    standing tracked chords (earlier ++ [stroke]) = .possible ↔
      ∃ begun later, chords = begun ++ later ∧ later ≠ [] ∧
        Meets begun (earlier ++ [stroke]) := by
  rw [standing_eq_iff (by decide)]
  constructor
  · rintro ⟨begun, chord, later, rfl, met, isPossible⟩
    have last : chord.metBy stroke ∧ later ≠ [] := by
      unfold Chord.standing at isPossible
      split at isPossible <;> split at isPossible <;> simp_all
    exact ⟨begun ++ [chord], later, by simp, last.2, forall₂_concat_iff.mpr ⟨met, last.1⟩⟩
  · rintro ⟨begun, later, rfl, isProper, met⟩
    obtain ⟨begun, chord, rfl, before, meets⟩ := met.exists_concat
    exact ⟨begun, chord, later, by simp, before, by simp [Chord.standing, meets, isProper]⟩

/-- **A shortcut is awaited when the next chord waits for the last keystroke.** -/
theorem standing_eq_awaiting_iff :
    standing tracked chords (earlier ++ [stroke]) = .awaiting ↔
      ∃ begun chord later, chords = begun ++ chord :: later ∧ Meets begun earlier ∧
        chord.metBy stroke = false ∧ tracked.tracksKey stroke.key ∧ chord.awaits stroke := by
  rw [standing_eq_iff (by decide)]
  refine exists_congr fun begun => exists_congr fun chord => exists_congr fun later =>
    and_congr_right fun _ => and_congr_right fun _ => ?_
  unfold Chord.standing
  by_cases meets : chord.metBy stroke
  · cases later <;> simp [meets]
  · simp [meets]

end Keystrokes
