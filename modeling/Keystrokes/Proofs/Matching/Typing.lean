import Keystrokes.Proofs.Matching.Underway
import Mathlib.Data.List.Chain

/-!
# Typing a shortcut chord by chord

Whoever types a shortcut gives one keystroke for each of its chords.  The one thing that
can go wrong is that a keystroke folds into the next one: then the trail is shorter than
the shortcut when the last keystroke is given.  Nothing else stands in the way, whatever
other shortcuts there are (`typed_iff_apart`).

As long as no keystroke folds into the next one, the shortcut is on its way, so its
keystrokes are kept and none is provisional (`completes_of_meets`).  A trail that has as
many keystrokes as have been given has lost none of them, so none has been folded
(`apart_of_length_kept`).
-/

set_option autoImplicit false

namespace Keystrokes

variable {shortcuts : List Shortcut} {tracked : Modifiers} {trail : Trail}

/-! ## Keystrokes in a row -/

namespace Trail

/-- The trail after some keystrokes. -/
def after (shortcuts : List Shortcut) (tracked : Modifiers) (trail : Trail)
    (strokes : List Keystroke) : Trail :=
  strokes.foldl (next shortcuts tracked) trail

@[simp] theorem after_nil : trail.after shortcuts tracked [] = trail :=
  rfl

@[simp] theorem after_cons (stroke : Keystroke) (later : List Keystroke) :
    trail.after shortcuts tracked (stroke :: later) =
      (trail.next shortcuts tracked stroke).after shortcuts tracked later :=
  rfl

@[simp] theorem after_concat (earlier : List Keystroke) (last : Keystroke) :
    trail.after shortcuts tracked (earlier ++ [last]) =
      (trail.after shortcuts tracked earlier).next shortcuts tracked last := by
  simp [after]

/-- The last keystroke is lost when it is provisional or folds into the next one. -/
theorem kept_of_replaced {earlier : List Keystroke} {last stroke : Keystroke}
    (isTyped : trail.strokes = earlier ++ [last])
    (isReplaced : trail.provisional = true ∨ last.foldsInto tracked stroke = true) :
    trail.kept tracked stroke = earlier := by
  have isSome : (trail.replaced? tracked stroke).isSome = true := by
    rw [replaced?, isTyped, List.getLast?_concat]
    rcases isReplaced with provisional | folds
    · simp [provisional]
    · simp [folds]
  rw [kept, if_pos isSome, isTyped, List.dropLast_concat]

/-- A trail that is not provisional keeps its keystrokes if the last one does not fold into
the next. -/
theorem kept_of_apart {stroke : Keystroke} (notProvisional : trail.provisional = false)
    (apart : ∀ last ∈ trail.strokes.getLast?, last.foldsInto tracked stroke = false) :
    trail.kept tracked stroke = trail.strokes := by
  have notReplaced : trail.replaced? tracked stroke = none := by
    rw [replaced?, Option.filter_eq_none_iff]
    intro last isLast
    simp [apart last isLast, notProvisional]
  rw [kept, notReplaced]
  rfl

/-- Another keystroke leaves all keystrokes, and then the last one does not fold into it, or
it leaves fewer. -/
theorem kept_cases (trail : Trail) (tracked : Modifiers) (stroke : Keystroke) :
    (trail.kept tracked stroke = trail.strokes ∧
        ∀ last ∈ trail.strokes.getLast?, last.foldsInto tracked stroke = false) ∨
      (trail.kept tracked stroke).length < trail.strokes.length := by
  rw [kept]
  split
  · next isReplaced =>
      refine .inr ?_
      cases typed : trail.strokes with
      | nil => simp [replaced?, typed] at isReplaced
      | cons first later => simp
  · next notReplaced =>
      refine .inl ⟨rfl, fun last isLast => ?_⟩
      rw [replaced?, Option.mem_def.mp isLast] at notReplaced
      cases folds : last.foldsInto tracked stroke with
      | false => rfl
      | true => simp [folds] at notReplaced

theorem length_kept_le (trail : Trail) (tracked : Modifiers) (stroke : Keystroke) :
    (trail.kept tracked stroke).length ≤ trail.strokes.length := by
  rcases trail.kept_cases tracked stroke with ⟨isWhole, -⟩ | isShorter
  · rw [isWhole]
  · exact Nat.le_of_lt isShorter

/-- A trail never has more keystrokes than have been given. -/
theorem length_after_le (strokes : List Keystroke) :
    (trail.after shortcuts tracked strokes).strokes.length ≤
      trail.strokes.length + strokes.length := by
  induction strokes generalizing trail with
  | nil => exact Nat.le_refl _
  | cons stroke later hypothesis =>
      have oneMore : (trail.next shortcuts tracked stroke).strokes.length ≤
          trail.strokes.length + 1 := by
        have := trail.length_kept_le tracked stroke
        rw [strokes_next]
        split
        · simpa using this
        · exact Nat.zero_le _
      calc ((trail.next shortcuts tracked stroke).after shortcuts tracked later).strokes.length
          ≤ (trail.next shortcuts tracked stroke).strokes.length + later.length := hypothesis
        _ ≤ trail.strokes.length + (stroke :: later).length := by
            rw [List.length_cons]
            omega

end Trail

namespace Matcher

/-- The verdicts on keystrokes that are given one after the other. -/
def verdicts (matcher : Matcher) : List Keystroke → List Verdict
  | [] => []
  | stroke :: later => (matcher.step stroke).2 :: (matcher.step stroke).1.verdicts later

variable (kind : MatcherKind)

theorem verdicts_cons (stroke : Keystroke) (later : List Keystroke) :
    (holding kind shortcuts tracked trail).verdicts (stroke :: later) =
      verdictOn shortcuts tracked (trail.kept tracked stroke ++ [stroke]) ::
        (holding kind shortcuts tracked (trail.next shortcuts tracked stroke)).verdicts later := by
  rw [verdicts, step_holding, Trail.strokes_extend]

theorem verdicts_concat (earlier : List Keystroke) (last : Keystroke) :
    (holding kind shortcuts tracked trail).verdicts (earlier ++ [last]) =
      (holding kind shortcuts tracked trail).verdicts earlier ++
        [verdictOn shortcuts tracked
          ((trail.after shortcuts tracked earlier).kept tracked last ++ [last])] := by
  induction earlier generalizing trail with
  | nil => exact verdicts_cons kind last []
  | cons stroke earlier hypothesis =>
      rw [List.cons_append, verdicts_cons, hypothesis, verdicts_cons, Trail.after_cons,
        List.cons_append]

/-- A matcher that is given keystrokes holds the trail after them. -/
theorem led_strokes (strokes : List Keystroke) :
    (holding kind shortcuts tracked trail).led (strokes.map .step) =
      holding kind shortcuts tracked (trail.after shortcuts tracked strokes) := by
  induction strokes generalizing trail with
  | nil => rfl
  | cons stroke later hypothesis =>
      rw [List.map_cons, led, List.foldl_cons, comply, step_holding]
      exact hypothesis

end Matcher

/-! ## From some chords of a shortcut to all of them -/

/-- Keystrokes are apart when none of them folds into the next one. -/
abbrev Apart (tracked : Modifiers) (strokes : List Keystroke) : Prop :=
  strokes.IsChain fun stroke next => stroke.foldsInto tracked next = false

/-- Verdicts in a row complete a shortcut when it is typed in full with the last of them
and could be completed before. -/
def Completes (number : Nat) (verdicts : List Verdict) : Prop :=
  ∃ earlier last, verdicts = earlier ++ [last] ∧ (∀ verdict ∈ earlier, verdict.possible = true) ∧
    number ∈ last.matched

namespace Trail

/-- A keystroke that leaves a shortcut on its way is kept, and not provisional. -/
theorem next_of_possible {shortcut : Shortcut} {stroke : Keystroke}
    (isMember : shortcut ∈ shortcuts)
    (onItsWay : shortcut.standing tracked (trail.kept tracked stroke ++ [stroke]) = .possible) :
    trail.next shortcuts tracked stroke = ⟨trail.kept tracked stroke ++ [stroke], false⟩ := by
  have possible : (verdictOn shortcuts tracked
      (trail.kept tracked stroke ++ [stroke])).possible = true :=
    possible_iff.mpr (.inl ⟨shortcut, isMember, onItsWay⟩)
  have notProvisional : ListMatcher.leavesProvisional
      (standings shortcuts tracked (trail.kept tracked stroke ++ [stroke])) = false := by
    refine Bool.eq_false_iff.mpr fun provisional => ?_
    exact (leavesProvisional_iff.mp provisional).2 ⟨shortcut, isMember, .inr onItsWay⟩
  rw [next, mark_extend, strokes_extend, if_pos possible, notProvisional]

end Trail

/-- **Keystrokes that are apart and meet the chords left complete a shortcut**, whatever
other shortcuts there are, if the first of them leaves what meets the other chords. -/
theorem completes_of_meets (kind : MatcherKind) {number : Nat} {shortcut : Shortcut}
    (found : shortcuts[number]? = some shortcut) {begun later : List Chord}
    {typed strokes : List Keystroke} (isSplit : shortcut.chords = begun ++ later)
    (met : Meets begun typed) (meets : Meets later strokes) (isProper : later ≠ [])
    (keeps : ∀ stroke ∈ strokes.head?, trail.kept tracked stroke = typed)
    (apart : Apart tracked strokes) :
    Completes number ((Matcher.holding kind shortcuts tracked trail).verdicts strokes) := by
  have isMember : shortcut ∈ shortcuts := List.mem_of_getElem? found
  induction meets generalizing trail begun typed with
  | nil => exact absurd rfl isProper
  | @cons chord stroke later strokes metLast meets hypothesis =>
      have isKept : trail.kept tracked stroke = typed := keeps stroke rfl
      have metOn : Meets (begun ++ [chord]) (typed ++ [stroke]) :=
        forall₂_concat_iff.mpr ⟨met, metLast⟩
      rw [Matcher.verdicts_cons, isKept]
      cases meets with
      | nil =>
          refine ⟨[], _, rfl, by simp, mem_matched.mpr ⟨shortcut, found, ?_⟩⟩
          rw [Shortcut.standing, isSplit]
          exact standing_eq_matched_iff.mpr metOn
      | @cons next nextStroke more moreStrokes metNext meets =>
          have isSplitOn : shortcut.chords = (begun ++ [chord]) ++ next :: more := by simp [isSplit]
          have onItsWay : shortcut.standing tracked (typed ++ [stroke]) = .possible :=
            standing_eq_possible_iff.mpr ⟨begun ++ [chord], _, isSplitOn, by simp, metOn⟩
          have isNext := Trail.next_of_possible isMember (isKept.symm ▸ onItsWay)
          obtain ⟨unfolded, apartOn⟩ := List.isChain_cons_cons.mp apart
          have isKeptOn : (trail.next shortcuts tracked stroke).kept tracked nextStroke =
              typed ++ [stroke] := by
            rw [isNext, isKept]
            exact Trail.kept_of_apart rfl (by simpa using unfolded)
          obtain ⟨earlier, last, areVerdicts, possible, isMatched⟩ :=
            hypothesis isSplitOn metOn (by simp) (by simpa using isKeptOn) apartOn
          rw [areVerdicts]
          refine ⟨_ :: earlier, last, rfl, ?_, isMatched⟩
          rintro verdict (_ | ⟨_, isEarlier⟩)
          · exact possible_iff.mpr (.inl ⟨shortcut, isMember, onItsWay⟩)
          · exact possible verdict isEarlier

/-! ## Keystrokes that have been lost -/

/-- **A trail that has as many keystrokes as have been given has folded none of them.** -/
theorem apart_of_length_kept (earlier : List Keystroke) (last : Keystroke)
    (isWhole : ((Trail.empty.after shortcuts tracked earlier).kept tracked last).length =
      earlier.length) : Apart tracked (earlier ++ [last]) := by
  induction earlier using List.reverseRecOn generalizing last with
  | nil => exact List.isChain_singleton last
  | append_singleton earlier stroke hypothesis =>
      have atMost : (Trail.empty.after shortcuts tracked earlier).strokes.length ≤ 0 + earlier.length :=
        Trail.length_after_le earlier
      rw [Trail.after_concat, List.length_append, List.length_singleton] at isWhole
      generalize Trail.empty.after shortcuts tracked earlier = before at *
      have bound : (before.kept tracked stroke).length ≤ earlier.length :=
        calc (before.kept tracked stroke).length
            ≤ before.strokes.length := before.length_kept_le tracked stroke
          _ ≤ earlier.length := by simpa using atMost
      have goesOn : (before.next shortcuts tracked stroke).strokes =
          before.kept tracked stroke ++ [stroke] := by
        have := (before.next shortcuts tracked stroke).length_kept_le tracked last
        rw [Trail.strokes_next] at this ⊢
        split
        · rfl
        · next impossible =>
            rw [if_neg impossible, List.length_nil] at this
            omega
      rcases (before.next shortcuts tracked stroke).kept_cases tracked last with
        ⟨isKept, unfolded⟩ | isShorter
      · rw [isKept, goesOn, List.length_append, List.length_singleton] at isWhole
        have apart := hypothesis stroke (Nat.succ.inj isWhole)
        rw [goesOn, List.getLast?_concat] at unfolded
        rw [List.append_assoc]
        exact List.isChain_append_cons_cons.mpr
          ⟨apart, unfolded stroke rfl, List.isChain_singleton last⟩
      · rw [goesOn, List.length_append, List.length_singleton] at isShorter
        omega

/-! ## The shortcut as a whole -/

/-- **Keystrokes type a shortcut chord by chord when none folds into the next one.**  Let
each keystroke meet the chord in its place.  Whatever other shortcuts there are, a new
matcher of either kind finds the shortcut typed in full with the last keystroke if and only
if no keystroke folds into the next one, and then it could be completed all the while. -/
theorem typed_iff_apart (kind : MatcherKind) (shortcuts : List Shortcut) (tracked : Modifiers)
    {number : Nat} {shortcut : Shortcut} (found : shortcuts[number]? = some shortcut)
    {strokes : List Keystroke} (met : Meets shortcut.chords strokes) :
    let verdicts := (Matcher.ofKind kind shortcuts tracked).verdicts strokes
    ((∃ verdict, verdicts.getLast? = some verdict ∧ number ∈ verdict.matched) ↔
        Apart tracked strokes) ∧
      (Apart tracked strokes → ∀ verdict ∈ verdicts.dropLast, verdict.possible = true) := by
  intro verdicts
  have areVerdicts : verdicts =
      (Matcher.holding kind shortcuts tracked Trail.empty).verdicts strokes := by
    rw [← Matcher.ofKind_eq_holding]
  have completes : Apart tracked strokes → Completes number verdicts := by
    intro apart
    rw [areVerdicts]
    have fromStart : shortcut.chords = [] ++ shortcut.chords := rfl
    refine completes_of_meets kind found fromStart .nil met shortcut.chords_ne_nil ?_ apart
    exact fun stroke _ => Trail.kept_of_apart rfl (by simp [Trail.empty])
  refine ⟨⟨?_, fun apart => ?_⟩, fun apart => ?_⟩
  · rintro ⟨verdict, isLast, isMatched⟩
    rcases List.eq_nil_or_concat strokes with rfl | ⟨earlier, last, rfl⟩
    · exact List.isChain_nil
    · simp only [List.concat_eq_append] at *
      rw [areVerdicts, Matcher.verdicts_concat, List.getLast?_concat, Option.some.injEq] at isLast
      rw [← isLast] at isMatched
      obtain ⟨other, isOther, stands⟩ := mem_matched.mp isMatched
      obtain rfl : shortcut = other := Option.some.inj (found.symm.trans isOther)
      have sameLength := (standing_eq_matched_iff.mp stands).length_eq.symm.trans met.length_eq
      rw [List.length_append, List.length_append, Nat.add_right_cancel_iff] at sameLength
      exact apart_of_length_kept earlier last sameLength
  · obtain ⟨earlier, last, isSplit, -, isMatched⟩ := completes apart
    exact ⟨last, by rw [isSplit, List.getLast?_concat], isMatched⟩
  · obtain ⟨earlier, last, isSplit, possible, -⟩ := completes apart
    rw [isSplit, List.dropLast_concat]
    exact possible

/-- Control is tapped and then a key is pressed without it, as the shortcut asks, while
another shortcut waits for a key to be pressed with it. -/
theorem typed_iff_apart_tapped :
    let control := Modifiers.ofList [.control]
    let tapped : Shortcut := ⟨⟨.ofHeld control, "Control"⟩, [⟨{}, "x"⟩]⟩
    let shortcuts : List Shortcut := [tapped, ⟨⟨.ofHeld control, "k"⟩, []⟩]
    let strokes : List Keystroke := [⟨control, "Control", "ControlLeft"⟩, ⟨.none, "x", "KeyX"⟩]
    let verdicts := (Matcher.ofKind .tree shortcuts .all).verdicts strokes
    shortcuts[0]? = some tapped ∧ Meets tapped.chords strokes ∧ Apart .all strokes ∧
      (∃ verdict, verdicts.getLast? = some verdict ∧ 0 ∈ verdict.matched) ∧
      ∀ verdict ∈ verdicts.dropLast, verdict.possible = true := by
  intro control tapped shortcuts strokes verdicts
  have found : shortcuts[0]? = some tapped := rfl
  have met : Meets tapped.chords strokes := .cons (by decide) (.cons (by decide) .nil)
  have apart : Apart .all strokes := by decide
  obtain ⟨isTyped, possible⟩ := typed_iff_apart .tree shortcuts .all found met
  exact ⟨found, met, apart, isTyped.mpr apart, possible apart⟩

end Keystrokes
