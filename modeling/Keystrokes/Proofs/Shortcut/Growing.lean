import Keystrokes.Proofs.Shortcut.Standing
import Keystrokes.Shortcut.Written

/-!
# Standings as more is typed

Of all shortcuts only one that is on its way may outlive another keystroke: what is typed in
full, awaited or out of reach is out of reach once more has been typed
(`only_possible_goes_on`).  For a shortcut that is not out of reach has met every keystroke
but the last with a chord of its own, and faces the last one with another.

Where a shortcut stands is told by walking chords and keystrokes side by side.  It may as
well be told by number: by the number of keystrokes, by the chords before the last of them,
and by the one chord that has the number of the last (`Shortcut.standingByNumber?`).  There
always is such a chord when it is looked up.
-/

set_option autoImplicit false

namespace Keystrokes

variable {tracked : Modifiers} {chords : List Chord} {strokes : List Keystroke}

/-! ## The first chords -/

/-- Chords that are met are the first ones, as many as there are keystrokes. -/
theorem Meets.take_eq {begun : List Chord} (met : Meets begun strokes) (later : List Chord) :
    (begun ++ later).take strokes.length = begun := by
  rw [← met.length_eq, List.take_left]

/-- The first of some keystrokes meet the first of the chords that all of them meet. -/
theorem Meets.of_append {more : List Keystroke} (met : Meets chords (strokes ++ more)) :
    Meets (chords.take strokes.length) strokes :=
  List.forall₂_take_append chords strokes more met

/-- The chord with a number stands after as many chords. -/
theorem getElem?_eq_some_iff_split {number : Nat} {slot : Chord} :
    chords[number]? = some slot ↔
      ∃ later, chords = chords.take number ++ slot :: later ∧ (chords.take number).length = number := by
  constructor
  · intro found
    obtain ⟨inside, isSlot⟩ := List.getElem?_eq_some_iff.mp found
    refine ⟨chords.drop (number + 1), ?_, List.length_take_of_le (Nat.le_of_lt inside)⟩
    rw [← isSlot, ← List.drop_eq_getElem_cons inside, List.take_append_drop]
  · rintro ⟨later, isSplit, sameLength⟩
    rw [isSplit, List.getElem?_append_right (Nat.le_of_eq sameLength), sameLength, Nat.sub_self,
      List.getElem?_cons_zero]

/-! ## What the standings mean -/

/-- A chord waits for a keystroke when all that it asks for are modifiers, and those held
are among them. -/
theorem Chord.awaits_iff {chord : Chord} {stroke : Keystroke} :
    chord.awaits stroke = true ↔ chord.required.unknown.toList = [] ∧
      ∀ modifier, stroke.held.contains modifier = true →
        chord.required.known.contains modifier = true := by
  rw [Chord.awaits, RequiredModifiers.withinReachOf, Bool.and_eq_true, WordSet.isEmpty,
    List.isEmpty_iff, Modifiers.isWithin_iff]

/-- A shortcut is typed in full when as many keystrokes as it has chords meet them. -/
theorem standing_eq_matched_iff_take (someTyped : strokes ≠ []) :
    standing tracked chords strokes = .matched ↔
      strokes.length = chords.length ∧ Meets (chords.take strokes.length) strokes := by
  obtain ⟨earlier, last, rfl⟩ := (List.eq_nil_or_concat' strokes).resolve_left someTyped
  rw [standing_eq_matched_iff]
  constructor
  · intro met
    exact ⟨met.length_eq.symm, by rwa [← met.length_eq, List.take_length]⟩
  · rintro ⟨sameLength, met⟩
    rwa [sameLength, List.take_length] at met

/-- A shortcut is on its way when fewer keystrokes meet its first chords. -/
theorem standing_eq_possible_iff_take (someTyped : strokes ≠ []) :
    standing tracked chords strokes = .possible ↔
      strokes.length < chords.length ∧ Meets (chords.take strokes.length) strokes := by
  obtain ⟨earlier, last, rfl⟩ := (List.eq_nil_or_concat' strokes).resolve_left someTyped
  rw [standing_eq_possible_iff]
  constructor
  · rintro ⟨begun, later, rfl, isProper, met⟩
    rw [met.take_eq, ← met.length_eq, List.length_append]
    exact ⟨Nat.lt_add_of_pos_right (List.length_pos_of_ne_nil isProper), met⟩
  · rintro ⟨isShorter, met⟩
    refine ⟨_, _, (List.take_append_drop (earlier ++ [last]).length chords).symm, ?_, met⟩
    exact fun isWhole => absurd (List.drop_eq_nil_iff.mp isWhole) (Nat.not_le.mpr isShorter)

/-- A shortcut is awaited when the chord with the number of the last keystroke waits for it. -/
theorem standing_eq_awaiting_iff_slot (someTyped : strokes ≠ []) :
    standing tracked chords strokes = .awaiting ↔ ∃ earlier last slot,
      strokes = earlier ++ [last] ∧ chords[earlier.length]? = some slot ∧
        Meets (chords.take earlier.length) earlier ∧ slot.metBy last = false ∧
        tracked.tracksKey last.key = true ∧ slot.required.unknown.toList = [] ∧
        ∀ modifier, last.held.contains modifier = true →
          slot.required.known.contains modifier = true := by
  obtain ⟨before, stroke, rfl⟩ := (List.eq_nil_or_concat' strokes).resolve_left someTyped
  rw [standing_eq_awaiting_iff]
  constructor
  · rintro ⟨begun, slot, later, rfl, met, unmet, isTracked, waits⟩
    refine ⟨before, stroke, slot, rfl, ?_, ?_, unmet, isTracked, Chord.awaits_iff.mp waits⟩
    · rw [← met.length_eq]
      simp
    · rwa [met.take_eq]
  · rintro ⟨earlier, last, slot, isTyped, found, met, unmet, isTracked, waits⟩
    obtain ⟨rfl, same⟩ := List.append_inj' isTyped rfl
    obtain rfl := List.singleton_inj.mp same
    obtain ⟨later, isSplit, -⟩ := getElem?_eq_some_iff_split.mp found
    exact ⟨_, slot, later, isSplit, met, unmet, isTracked, Chord.awaits_iff.mpr waits⟩

/-! ## One more keystroke -/

/-- **A shortcut that is not out of reach has been on its way before.** -/
theorem standing_possible_of_append {more : List Keystroke} (someTyped : strokes ≠ [])
    (someMore : more ≠ []) (alive : standing tracked chords (strokes ++ more) ≠ .dead) :
    standing tracked chords strokes = .possible := by
  obtain ⟨front, last, rfl⟩ := (List.eq_nil_or_concat' more).resolve_left someMore
  rw [← List.append_assoc] at alive
  obtain ⟨begun, chord, later, rfl, met⟩ := exists_of_standing_ne_dead alive
  rw [standing_eq_possible_iff_take someTyped]
  have isShorter : strokes.length ≤ begun.length := by
    rw [met.length_eq, List.length_append]
    exact Nat.le_add_right ..
  refine ⟨?_, ?_⟩
  · rw [List.length_append, List.length_cons]
    omega
  · rw [List.take_append_of_le_length isShorter]
    exact met.of_append

/-! ## Chords looked up by number -/

/-- Where some keystrokes leave a shortcut, with the chord that the last one faces looked up
by its number.  There is no answer if no chord has the number. -/
def Shortcut.standingByNumber? (shortcut : Shortcut) (tracked : Modifiers)
    (strokes : List Keystroke) : Option Standing :=
  match strokes.getLast? with
  | none => some .dead
  | some last =>
      let earlier := strokes.dropLast
      if shortcut.size < strokes.length then some .dead
      else if (earlier.zip shortcut.chords).all fun pair => pair.2.metBy pair.1 then
        shortcut.chords[earlier.length]?.map fun slot =>
          if slot.metBy last then
            if strokes.length = shortcut.size then .matched else .possible
          else if tracked.tracksKey last.key && slot.awaits last then .awaiting
          else .dead
      else some .dead

section Facing

variable {earlier : List Keystroke} {last : Keystroke}

/-- Keystrokes that are compared with chords as far as both go meet the first of them. -/
theorem all_zip_iff (fits : earlier.length ≤ chords.length) :
    ((earlier.zip chords).all fun pair => pair.2.metBy pair.1) = true ↔
      Meets (chords.take earlier.length) earlier := by
  induction earlier generalizing chords with
  | nil => simp
  | cons stroke earlier hypothesis =>
      cases chords with
      | nil => exact absurd fits (Nat.not_succ_le_zero _)
      | cons chord later => simp [hypothesis (Nat.le_of_succ_le_succ fits)]

/-- The last keystroke faces the chord with its number, if those before it meet the first
chords. -/
theorem standing_of_met {slot : Chord} (found : chords[earlier.length]? = some slot)
    (met : Meets (chords.take earlier.length) earlier) :
    standing tracked chords (earlier ++ [last]) =
      if slot.metBy last then
        if (earlier ++ [last]).length = chords.length then .matched else .possible
      else if tracked.tracksKey last.key && slot.awaits last then .awaiting
      else .dead := by
  obtain ⟨later, isSplit, sameLength⟩ := getElem?_eq_some_iff_split.mp found
  have isLast : (earlier ++ [last]).length = chords.length ↔ later.isEmpty = true := by
    have isWhole := congrArg List.length isSplit
    rw [List.length_append, sameLength, List.length_cons] at isWhole
    rw [List.isEmpty_iff_length_eq_zero, List.length_append, List.length_singleton]
    omega
  have facing : standing tracked chords (earlier ++ [last]) =
      slot.standing tracked later last := by
    rw [isSplit]
    exact standing_append met (slot :: later)
  rw [facing, Chord.standing]
  simp only [isLast]

/-- Nothing is left of a shortcut if the keystrokes before the last do not meet its first
chords. -/
theorem standing_of_unmet (unmet : ¬ Meets (chords.take earlier.length) earlier) :
    standing tracked chords (earlier ++ [last]) = .dead := by
  by_contra alive
  obtain ⟨begun, slot, later, rfl, met⟩ := exists_of_standing_ne_dead alive
  exact unmet ((met.take_eq (slot :: later)).symm ▸ met)

end Facing

/-- **There is a chord with the number that is looked up**, and it tells where the shortcut
stands. -/
theorem Shortcut.standingByNumber?_eq (shortcut : Shortcut) (tracked : Modifiers)
    (strokes : List Keystroke) :
    shortcut.standingByNumber? tracked strokes = some (shortcut.standing tracked strokes) := by
  rcases List.eq_nil_or_concat' strokes with rfl | ⟨earlier, last, rfl⟩
  · rfl
  · simp only [standingByNumber?, List.getLast?_concat, List.dropLast_concat]
    split
    · next isLonger =>
        have isDead : shortcut.standing tracked (earlier ++ [last]) = .dead := by
          by_contra alive
          exact absurd isLonger (Nat.not_lt.mpr (length_le_of_standing_ne_dead alive))
        rw [isDead]
    · next fits =>
        have inside : earlier.length < shortcut.chords.length := by
          rw [size, List.length_append, List.length_singleton] at fits
          omega
        have found := List.getElem?_eq_getElem inside
        split
        · next allMet =>
            have met := (all_zip_iff (Nat.le_of_lt inside)).mp allMet
            rw [found, Option.map_some, Shortcut.standing, standing_of_met found met]
            rfl
        · next notAllMet =>
            rw [Shortcut.standing, standing_of_unmet]
            exact fun met => notAllMet ((all_zip_iff (Nat.le_of_lt inside)).mpr met)

/-! ## What may still become of a shortcut -/

/-- **Only a shortcut on its way may outlive another keystroke.**  Where a shortcut stands
can be told by looking its chords up by number, and there is no number that no chord has.
If it is not out of reach after more keystrokes, it was on its way before; so whatever was
typed in full, awaited or out of reach is out of reach then.  It is typed in full when there
are as many keystrokes as chords and all meet their chords; on its way when there are fewer
and all meet their chords; and awaited when all but the last do, and the last is a tracked
modifier key whose chord asks for modifiers alone, those held among them. -/
theorem only_possible_goes_on (shortcut : Shortcut) (tracked : Modifiers) :
    (∀ strokes, shortcut.standingByNumber? tracked strokes =
      some (shortcut.standing tracked strokes)) ∧
    ∀ typed, typed ≠ [] →
      (∀ more, more ≠ [] → shortcut.standing tracked (typed ++ more) ≠ .dead →
        shortcut.standing tracked typed = .possible) ∧
      (∀ more, more ≠ [] → shortcut.standing tracked typed ≠ .possible →
        shortcut.standing tracked (typed ++ more) = .dead) ∧
      (shortcut.standing tracked typed = .matched ↔
        typed.length = shortcut.size ∧ Meets (shortcut.chords.take typed.length) typed) ∧
      (shortcut.standing tracked typed = .possible ↔
        typed.length < shortcut.size ∧ Meets (shortcut.chords.take typed.length) typed) ∧
      (shortcut.standing tracked typed = .awaiting ↔ ∃ earlier last slot,
        typed = earlier ++ [last] ∧ shortcut.chords[earlier.length]? = some slot ∧
          Meets (shortcut.chords.take earlier.length) earlier ∧ slot.metBy last = false ∧
          tracked.tracksKey last.key = true ∧ slot.required.unknown.toList = [] ∧
          ∀ modifier, last.held.contains modifier = true →
            slot.required.known.contains modifier = true) := by
  refine ⟨shortcut.standingByNumber?_eq tracked, fun typed someTyped => ⟨?_, ?_, ?_, ?_, ?_⟩⟩
  · intro more someMore alive
    exact standing_possible_of_append someTyped someMore alive
  · intro more someMore notPossible
    by_contra alive
    exact notPossible (standing_possible_of_append someTyped someMore alive)
  · exact standing_eq_matched_iff_take someTyped
  · exact standing_eq_possible_iff_take someTyped
  · exact standing_eq_awaiting_iff_slot someTyped

/-- Control alone is awaited by the first of two chords, and another keystroke puts the
shortcut out of reach; the first chord itself leaves it on its way, and it goes on. -/
theorem only_possible_goes_on_from_first_chord :
    let shortcut := Shortcut.ofText .other "Control+k g"
    let control : Keystroke := ⟨{ control := true }, "Control", "ControlLeft"⟩
    let first : Keystroke := ⟨{ control := true }, "k", "KeyK"⟩
    let second : Keystroke := ⟨.none, "g", "KeyG"⟩
    (shortcut.standing .all [control] = .awaiting ∧
      shortcut.standing .all [control, first] = .dead) ∧
    (shortcut.standing .all [first, second] = .matched ∧
      shortcut.standing .all [first] = .possible) := by
  intro shortcut control first second
  have isAwaited : shortcut.standing .all [control] = .awaiting := by decide +kernel
  have isMatched : shortcut.standing .all [first, second] = .matched := by decide +kernel
  obtain ⟨-, ends, -⟩ := (only_possible_goes_on shortcut .all).2 [control] (by simp)
  obtain ⟨goesOn, -⟩ := (only_possible_goes_on shortcut .all).2 [first] (by simp)
  exact ⟨⟨isAwaited, ends [first] (by simp) (by simp [isAwaited])⟩,
    ⟨isMatched, goesOn [second] (by simp) (by simp [isMatched])⟩⟩

end Keystrokes
