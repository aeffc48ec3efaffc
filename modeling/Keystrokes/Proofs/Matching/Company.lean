import Keystrokes.Proofs.Matching.Underway
import Keystrokes.Proofs.Shortcut.Unmeetable

/-!
# One more shortcut

When one more shortcut is registered among others, those after it get new numbers
(`renumber`).  If the keystrokes do not complete it and it does not go on alone, the
answer to them is the old one with the new numbers (`verdictOn_insert`), and the mark
that it leaves on the trail is the old one (`leavesProvisional_insert`).

A shortcut with a chord that asks for an unknown modifier is never completed.  It never
goes on alone if it begins with this chord, or if what it begins with is the beginning of
another shortcut that goes on (`InCompany.of_same_beginning`).
-/

set_option autoImplicit false

namespace Keystrokes

/-! ## Numbers -/

/-- The number of a shortcut once another one has been registered at a place. -/
def renumber (place number : Nat) : Nat :=
  if number < place then number else number + 1

theorem renumber_ne (place number : Nat) : renumber place number ≠ place := by
  unfold renumber
  split <;> omega

theorem renumber_lt_renumber {place first second : Nat} (before : first < second) :
    renumber place first < renumber place second := by
  unfold renumber
  split <;> split <;> omega

/-- Every number but that of the place is the new number of something. -/
theorem exists_renumber_eq {place number : Nat} (elsewhere : number ≠ place) :
    ∃ old, renumber place old = number := by
  rcases Nat.lt_or_gt_of_ne elsewhere with isBefore | isAfter
  · exact ⟨number, if_pos isBefore⟩
  · have notBefore : ¬ number - 1 < place := by omega
    exact ⟨number - 1, (if_neg notBefore).trans (by omega)⟩

/-- What stands at a number stands at its new number once something has been put in. -/
theorem getElem?_renumber {β : Type} (before after : List β) (extra : β) (number : Nat) :
    (before ++ extra :: after)[renumber before.length number]? = (before ++ after)[number]? := by
  unfold renumber
  split
  · next isBefore =>
      rw [List.getElem?_append_left isBefore, List.getElem?_append_left isBefore]
  · next notBefore =>
      rw [List.getElem?_append_right (by omega), List.getElem?_append_right (by omega),
        Nat.succ_sub (by omega), List.getElem?_cons_succ]

/-! ## Company -/

/-- A shortcut is in company when it does not go on alone.  If it is on its way, so is one
of the others, or one of them is typed in full while one is awaited.  If it is awaited, one
of the others is on its way or awaited. -/
structure InCompany (tracked : Modifiers) (others : List Shortcut) (shortcut : Shortcut)
    (strokes : List Keystroke) : Prop where
  possible : shortcut.standing tracked strokes = .possible →
    (∃ other ∈ others, other.standing tracked strokes = .possible) ∨
      (∃ other ∈ others, other.standing tracked strokes = .matched) ∧
        ∃ other ∈ others, other.standing tracked strokes = .awaiting
  awaiting : shortcut.standing tracked strokes = .awaiting →
    ∃ other ∈ others, other.standing tracked strokes = .possible ∨
      other.standing tracked strokes = .awaiting

variable {tracked : Modifiers} {strokes : List Keystroke}

theorem InCompany.of_dead {others : List Shortcut} {shortcut : Shortcut}
    (isDead : shortcut.standing tracked strokes = .dead) :
    InCompany tracked others shortcut strokes := by
  constructor
  · intro isPossible
    exact absurd (isDead.symm.trans isPossible) (by decide)
  · intro isAwaiting
    exact absurd (isDead.symm.trans isAwaiting) (by decide)

/-- **A shortcut that can only be begun is in company** if nothing comes before its chord
that cannot be met, or if another shortcut goes on from what comes before it. -/
theorem InCompany.of_same_beginning {others : List Shortcut} {shortcut : Shortcut}
    {begun later : List Chord} {chord : Chord} (isSplit : shortcut.chords = begun ++ chord :: later)
    (asksUnknown : chord.AsksUnknown)
    (goesOn : begun = [] ∨
      ∃ other ∈ others, ∃ next more, other.chords = begun ++ next :: more)
    (strokes : List Keystroke) : InCompany tracked others shortcut strokes := by
  by_cases isDead : shortcut.standing tracked strokes = .dead
  · exact .of_dead isDead
  · have alive : standing tracked (begun ++ chord :: later) strokes ≠ .dead := isSplit ▸ isDead
    obtain ⟨isBegun, same⟩ := standing_of_same_beginning asksUnknown alive
    obtain ⟨other, isMember, next, more, isOther⟩ := goesOn.resolve_left isBegun
    have sameStanding : other.standing tracked strokes = shortcut.standing tracked strokes := by
      rw [Shortcut.standing, Shortcut.standing, isOther, isSplit]
      exact same next more
    constructor
    · intro isPossible
      exact .inl ⟨other, isMember, sameStanding.trans isPossible⟩
    · intro isAwaiting
      exact ⟨other, isMember, .inr (sameStanding.trans isAwaiting)⟩

/-! ## The answer with one more shortcut -/

variable {before after : List Shortcut} {extra : Shortcut}

theorem exists_mem_insert {property : Shortcut → Prop} :
    (∃ shortcut ∈ before ++ extra :: after, property shortcut) ↔
      property extra ∨ ∃ shortcut ∈ before ++ after, property shortcut := by
  simp only [List.mem_append, List.mem_cons]
  constructor
  · rintro ⟨shortcut, isBefore | rfl | isAfter, holds⟩
    · exact .inr ⟨shortcut, .inl isBefore, holds⟩
    · exact .inl holds
    · exact .inr ⟨shortcut, .inr isAfter, holds⟩
  · rintro (holds | ⟨shortcut, isBefore | isAfter, holds⟩)
    · exact ⟨extra, .inr (.inl rfl), holds⟩
    · exact ⟨shortcut, .inl isBefore, holds⟩
    · exact ⟨shortcut, .inr (.inr isAfter), holds⟩

theorem matched_insert (unmatched : extra.standing tracked strokes ≠ .matched) :
    (verdictOn (before ++ extra :: after) tracked strokes).matched =
      (verdictOn (before ++ after) tracked strokes).matched.map (renumber before.length) := by
  refine eq_of_ascending (pairwise_matched ..)
    ((pairwise_matched ..).map _ fun _ _ => renumber_lt_renumber) fun number => ?_
  rw [List.mem_map, mem_matched]
  constructor
  · rintro ⟨shortcut, found, isMatched⟩
    have elsewhere : number ≠ before.length := by
      rintro rfl
      obtain rfl : extra = shortcut := by simpa using found
      exact unmatched isMatched
    obtain ⟨old, rfl⟩ := exists_renumber_eq elsewhere
    rw [getElem?_renumber] at found
    exact ⟨old, mem_matched.mpr ⟨shortcut, found, isMatched⟩, rfl⟩
  · rintro ⟨old, isMatched, rfl⟩
    obtain ⟨shortcut, found, isMatched⟩ := mem_matched.mp isMatched
    exact ⟨shortcut, (getElem?_renumber ..).trans found, isMatched⟩

theorem possible_insert (company : InCompany tracked (before ++ after) extra strokes) :
    (verdictOn (before ++ extra :: after) tracked strokes).possible =
      (verdictOn (before ++ after) tracked strokes).possible := by
  rw [Bool.eq_iff_iff, possible_iff, possible_iff, exists_mem_insert, exists_mem_insert]
  constructor
  · rintro ((isPossible | others) | (isAwaiting | others))
    · exact (company.possible isPossible).imp_right And.right
    · exact .inl others
    · simpa only [and_or_left, exists_or] using company.awaiting isAwaiting
    · exact .inr others
  · exact Or.imp .inr .inr

/-- **The answer with one more shortcut that is not completed and does not go on alone.** -/
theorem verdictOn_insert (unmatched : extra.standing tracked strokes ≠ .matched)
    (company : InCompany tracked (before ++ after) extra strokes) :
    verdictOn (before ++ extra :: after) tracked strokes =
      { matched := (verdictOn (before ++ after) tracked strokes).matched.map (renumber before.length)
        possible := (verdictOn (before ++ after) tracked strokes).possible } := by
  rw [← matched_insert unmatched, ← possible_insert company]

/-- **The mark with one more shortcut that is not completed and does not go on alone.** -/
theorem leavesProvisional_insert (unmatched : extra.standing tracked strokes ≠ .matched)
    (company : InCompany tracked (before ++ after) extra strokes) :
    ListMatcher.leavesProvisional (standings (before ++ extra :: after) tracked strokes) =
      ListMatcher.leavesProvisional (standings (before ++ after) tracked strokes) := by
  rw [Bool.eq_iff_iff, leavesProvisional_iff, leavesProvisional_iff, exists_mem_insert,
    exists_mem_insert]
  constructor
  · rintro ⟨isAwaited, metByNone⟩
    have metByNoOther : ¬ ∃ shortcut ∈ before ++ after,
        shortcut.standing tracked strokes = .matched ∨
          shortcut.standing tracked strokes = .possible := mt .inr metByNone
    refine ⟨?_, metByNoOther⟩
    rcases isAwaited with isAwaiting | others
    · obtain ⟨other, isMember, isPossible | isAwaiting⟩ := company.awaiting isAwaiting
      · exact absurd ⟨other, isMember, .inr isPossible⟩ metByNoOther
      · exact ⟨other, isMember, isAwaiting⟩
    · exact others
  · rintro ⟨isAwaited, metByNone⟩
    refine ⟨.inr isAwaited, ?_⟩
    rintro ((isMatched | isPossible) | others)
    · exact unmatched isMatched
    · rcases company.possible isPossible with ⟨other, isMember, isPossible⟩ |
        ⟨⟨other, isMember, isMatched⟩, -⟩
      · exact metByNone ⟨other, isMember, .inr isPossible⟩
      · exact metByNone ⟨other, isMember, .inl isMatched⟩
    · exact metByNone others

/-! ## The trail with one more shortcut -/

variable {trail : Trail} {stroke : Keystroke}

/-- A shortcut that goes on keeps the trail.  So it is in company after a keystroke if it
is in company after what the trail keeps of it. -/
theorem InCompany.of_next
    (company : InCompany tracked (before ++ after) extra
      (trail.next (before ++ extra :: after) tracked stroke).strokes) :
    InCompany tracked (before ++ after) extra (trail.extend tracked stroke).strokes := by
  rw [Trail.strokes_next] at company
  rw [Trail.strokes_extend]
  by_cases possible : (verdictOn (before ++ extra :: after) tracked
      (trail.kept tracked stroke ++ [stroke])).possible = true
  · rwa [if_pos possible] at company
  · -- The trail has been left empty, since nothing could be completed, this shortcut neither.
    constructor
    · intro isPossible
      exact absurd (possible_iff.mpr (.inl ⟨extra, by simp, isPossible⟩)) possible
    · intro isAwaiting
      exact absurd (possible_iff.mpr (.inr ⟨extra, by simp, isAwaiting⟩)) possible

/-- **The trail is the same with one more shortcut that is not completed and does not go
on alone.** -/
theorem Trail.next_insert
    (unmatched : extra.standing tracked (trail.extend tracked stroke).strokes ≠ .matched)
    (company : InCompany tracked (before ++ after) extra (trail.extend tracked stroke).strokes) :
    trail.next (before ++ extra :: after) tracked stroke =
      trail.next (before ++ after) tracked stroke := by
  rw [Trail.next, Trail.next, possible_insert company, leavesProvisional_insert unmatched company]

end Keystrokes
