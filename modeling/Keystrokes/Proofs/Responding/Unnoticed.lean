import Keystrokes.Proofs.Matching.Company
import Keystrokes.Proofs.Matching.Underway
import Keystrokes.Proofs.Responding.Polling

/-!
# Shortcuts that go unnoticed

A shortcut with a chord that asks for an unknown modifier is never typed in full.  All the
same it takes part in matching, for it may be begun, and then what is typed is kept and
what is complete is postponed.  So it may be noticed by the other shortcuts: it may delay
them, and even swallow a key that one of them begins with (`lone_beginning_is_noticed`).

It goes unnoticed in every run in which it is never the only one to go on.  This is every
run, if it begins with a chord that asks for an unknown modifier, or as another shortcut
begins that goes on (`goes_unnoticed`).  The invariant is that the phases of the two
responders, with and without the shortcut, are one phase with two numberings
(`Design.reached_insert`).
-/

set_option autoImplicit false

namespace Keystrokes

variable {α : Type}

/-- A callback that ran, with the number that its shortcut has once another one has been
registered at a place. -/
def Firing.renumbered (place : Nat) (firing : Firing α) : Firing α :=
  { firing with shortcut := renumber place firing.shortcut }

namespace Responder

/-! ## Phases with other numbers -/

/-- A call whose shortcut has a new number. -/
def renumberCall (place : Nat) (call : Call) : Call :=
  { call with shortcut := renumber place call.shortcut }

/-- A wait in which the shortcuts have new numbers. -/
def Wait.renumbered (place : Nat) (wait : Wait) : Wait :=
  { wait with matched := wait.matched.map (renumber place) }

theorem Wait.calls_renumbered (place : Nat) (wait : Wait) :
    (wait.renumbered place).calls = wait.calls.map (renumberCall place) := by
  simp [calls, renumbered, renumberCall, Function.comp_def]

namespace Phase

/-- A phase in which the shortcuts have new numbers. -/
def renumbered (place : Nat) : Phase → Phase
  | .waiting wait => .waiting (wait.renumbered place)
  | phase => phase

variable (place timeout now : Nat) (phase : Phase)

@[simp] theorem trail_renumbered : (phase.renumbered place).trail = phase.trail := by
  cases phase <;> rfl

@[simp] theorem isDetached_renumbered :
    (phase.renumbered place).isDetached = phase.isDetached := by
  cases phase <;> rfl

theorem settle_renumbered :
    (phase.renumbered place).settle timeout now = (phase.settle timeout now).renumbered place := by
  cases phase with
  | resting => rfl
  | detached => rfl
  | waiting wait =>
      have sameDeadline : (wait.renumbered place).deadline timeout = wait.deadline timeout := rfl
      rw [renumbered, settle, settle, sameDeadline]
      split <;> rfl

theorem due_renumbered :
    (phase.renumbered place).due timeout now =
      (phase.due timeout now).map (renumberCall place) := by
  cases phase with
  | resting => rfl
  | detached => rfl
  | waiting wait =>
      have sameDeadline : (wait.renumbered place).deadline timeout = wait.deadline timeout := rfl
      rw [renumbered, due, due, sameDeadline, Wait.calls_renumbered]
      split <;> rfl

end Phase

/-! ## One more entry -/

namespace Design

/-- The same design over other entries. -/
def withEntries (design : Design α) (bound : List (Bound α)) : Design α :=
  { design with bound }

/-- The trail after a key event has been taken. -/
theorem trail_take (design : Design α) (phase : Phase) (event : KeyEvent) (now : Nat) :
    (design.take phase event now).trail =
      phase.trail.next design.shortcuts design.tracked (event.stroke design.settings.tracked) := by
  rw [Design.take, verdict, Trail.next]
  split <;> rfl

/-- The shortcut of an entry is in company after some keystrokes. -/
abbrev Accompanies (design : Design α) (others : List (Bound α)) (extra : Bound α)
    (strokes : List Keystroke) : Prop :=
  InCompany design.tracked (others.map Bound.shortcut) extra.shortcut strokes

/-- The shortcut of an entry is completed by no keystrokes. -/
abbrev NeverMatched (design : Design α) (extra : Bound α) : Prop :=
  ∀ strokes, extra.shortcut.standing design.tracked strokes ≠ .matched

variable {design : Design α} {before after : List (Bound α)} {extra : Bound α}

theorem shortcuts_insert :
    (design.withEntries (before ++ extra :: after)).shortcuts =
      before.map Bound.shortcut ++ extra.shortcut :: after.map Bound.shortcut := by
  simp [shortcuts, withEntries]

theorem shortcuts_append :
    (design.withEntries (before ++ after)).shortcuts =
      before.map Bound.shortcut ++ after.map Bound.shortcut := by
  simp [shortcuts, withEntries]

theorem accompanies_append {strokes : List Keystroke} :
    design.Accompanies (before ++ after) extra strokes ↔
      InCompany design.tracked (before.map Bound.shortcut ++ after.map Bound.shortcut)
        extra.shortcut strokes := by
  rw [Accompanies, List.map_append]

/-- The verdict with one more entry that is not completed and does not go on alone. -/
theorem verdict_insert (unmatched : design.NeverMatched extra) (phase : Phase) (event : KeyEvent)
    (company : design.Accompanies (before ++ after) extra
      (phase.trail.extend design.tracked (event.stroke design.settings.tracked)).strokes) :
    (design.withEntries (before ++ extra :: after)).verdict (phase.renumbered before.length) event =
      { matched := ((design.withEntries (before ++ after)).verdict phase event).matched.map
          (renumber before.length)
        possible := ((design.withEntries (before ++ after)).verdict phase event).possible } := by
  rw [verdict, verdict, shortcuts_insert, shortcuts_append, Phase.trail_renumbered,
    ← List.length_map Bound.shortcut]
  exact verdictOn_insert (unmatched _) (accompanies_append.mp company)

/-- **A key event is taken alike with one more entry** that is not completed and does not
go on alone. -/
theorem take_insert (unmatched : design.NeverMatched extra) (phase : Phase) (event : KeyEvent)
    (now : Nat) :
    let joined := design.withEntries (before ++ extra :: after)
    let plain := design.withEntries (before ++ after)
    design.Accompanies (before ++ after) extra
      (joined.take (phase.renumbered before.length) event now).trail.strokes →
    joined.take (phase.renumbered before.length) event now =
        (plain.take phase event now).renumbered before.length ∧
      joined.atOnce (phase.renumbered before.length) event =
        (plain.atOnce phase event).map (renumberCall before.length) := by
  intro joined plain company
  have goesOn : design.Accompanies (before ++ after) extra
      (phase.trail.extend design.tracked (event.stroke design.settings.tracked)).strokes := by
    rw [trail_take, shortcuts_insert, Phase.trail_renumbered] at company
    exact accompanies_append.mpr (.of_next (accompanies_append.mp company))
  have sameVerdict : joined.verdict (phase.renumbered before.length) event =
      { matched := (plain.verdict phase event).matched.map (renumber before.length)
        possible := (plain.verdict phase event).possible } :=
    verdict_insert unmatched phase event goesOn
  have sameTrail : phase.trail.next joined.shortcuts joined.tracked
      (event.stroke joined.settings.tracked) =
      phase.trail.next plain.shortcuts plain.tracked (event.stroke plain.settings.tracked) := by
    rw [shortcuts_insert, shortcuts_append]
    exact Trail.next_insert (unmatched _) (accompanies_append.mp goesOn)
  simp only [Design.take, atOnce, sameVerdict, Phase.trail_renumbered, sameTrail]
  cases (plain.verdict phase event).possible with
  | true => exact ⟨rfl, rfl⟩
  | false => exact ⟨rfl, by simp [renumberCall, Function.comp_def]⟩

/-- **An input is answered alike with one more entry** that is not completed and does not
go on alone. -/
theorem respond_insert (unmatched : design.NeverMatched extra) {phase : Phase}
    (isAttached : phase.isDetached = false) (input : Input) :
    let joined := design.withEntries (before ++ extra :: after)
    let plain := design.withEntries (before ++ after)
    design.Accompanies (before ++ after) extra
      (joined.phaseAfter (phase.renumbered before.length) input).trail.strokes →
    joined.phaseAfter (phase.renumbered before.length) input =
        (plain.phaseAfter phase input).renumbered before.length ∧
      joined.callsIn (phase.renumbered before.length) input =
        (plain.callsIn phase input).map (renumberCall before.length) := by
  intro joined plain company
  cases input with
  | poll now => exact ⟨phase.settle_renumbered .., phase.due_renumbered ..⟩
  | signal signal now =>
      cases screened : design.fresh.screen signal with
      | error reason =>
          have rejected : joined.fresh.screen signal = .error reason := screened
          have rejectedToo : plain.fresh.screen signal = .error reason := screened
          simp only [phaseAfter, callsIn, rejected, rejectedToo, List.map_nil, and_self]
      | ok event =>
          have accepted : joined.fresh.screen signal = .ok event := screened
          have acceptedToo : plain.fresh.screen signal = .ok event := screened
          have stillAttached : (phase.renumbered before.length).isDetached = false := by
            rw [Phase.isDetached_renumbered, isAttached]
          rw [phaseAfter_accepted stillAttached accepted, Phase.settle_renumbered] at company ⊢
          rw [phaseAfter_accepted isAttached acceptedToo,
            callsIn_accepted stillAttached accepted, callsIn_accepted isAttached acceptedToo,
            Phase.settle_renumbered, Phase.due_renumbered, List.map_append]
          obtain ⟨taken, atOnce⟩ := take_insert unmatched
            (phase.settle design.settings.timeout now) event now company
          exact ⟨taken, congrArg _ atOnce⟩

/-! ## Runs -/

/-- In the course of some inputs an entry does not go on alone: what has been typed after
any of them leaves its shortcut in company. -/
def KeepsCompany (design : Design α) (before : List (Bound α)) (extra : Bound α)
    (after : List (Bound α)) (inputs : List Input) : Prop :=
  ∀ earlier, earlier <+: inputs → design.Accompanies (before ++ after) extra
    ((design.withEntries (before ++ extra :: after)).fresh.after earlier).typed

theorem KeepsCompany.of_prefix {inputs earlier : List Input}
    (keeps : design.KeepsCompany before extra after inputs) (isEarlier : earlier <+: inputs) :
    design.KeepsCompany before extra after earlier :=
  fun _ isBefore => keeps _ (isBefore.trans isEarlier)

/-- What has been typed is the trail of the phase that has been reached. -/
theorem KeepsCompany.reached {inputs : List Input}
    (keeps : design.KeepsCompany before extra after inputs) :
    design.Accompanies (before ++ after) extra
      ((design.withEntries (before ++ extra :: after)).reached inputs).trail.strokes := by
  have company := keeps inputs (List.prefix_refl inputs)
  rwa [after_fresh, typed_during] at company

/-- **The phases of a run are the same with one more entry**, but for the numbers. -/
theorem reached_insert (unmatched : design.NeverMatched extra) {inputs : List Input}
    (keeps : design.KeepsCompany before extra after inputs) :
    (design.withEntries (before ++ extra :: after)).reached inputs =
      ((design.withEntries (before ++ after)).reached inputs).renumbered before.length := by
  induction inputs using List.reverseRecOn with
  | nil => rfl
  | append_singleton inputs input hypothesis =>
      have same := hypothesis (keeps.of_prefix (List.prefix_append inputs [input]))
      -- The company is told of the run with the entry, which the hypothesis carries over.
      have company := keeps.reached
      rw [reached_concat, same] at company
      rw [reached_concat, reached_concat, same]
      exact (respond_insert unmatched (isDetached_reached _ inputs) input company).1

/-- The callbacks of calls are the same with one more entry, but for the numbers. -/
theorem run_insert (calls : List Call) :
    (calls.map (renumberCall before.length)).flatMap
        (design.withEntries (before ++ extra :: after)).run =
      (calls.flatMap (design.withEntries (before ++ after)).run).map
        (Firing.renumbered before.length) := by
  rw [List.flatMap_map, List.map_flatMap]
  refine List.flatMap_congr fun call _ => ?_
  have sameEntry : (design.withEntries (before ++ extra :: after)).bound[renumber before.length
      call.shortcut]? = (design.withEntries (before ++ after)).bound[call.shortcut]? :=
    getElem?_renumber ..
  rw [run, run, renumberCall, sameEntry, List.map_map]
  rfl

/-- **The callbacks of a turn are the same with one more entry**, but for the numbers. -/
theorem fired_insert (unmatched : design.NeverMatched extra) {earlier : List Input} {input : Input}
    (keeps : design.KeepsCompany before extra after (earlier ++ [input])) :
    ((design.withEntries (before ++ extra :: after)).turnAfter earlier input).fired =
      ((design.withEntries (before ++ after)).turnAfter earlier input).fired.map
        (Firing.renumbered before.length) := by
  have same := reached_insert unmatched (keeps.of_prefix (List.prefix_append earlier [input]))
  have company := keeps.reached
  rw [reached_concat, same] at company
  rw [turnAfter_eq, turnAfter_eq, same,
    (respond_insert unmatched (isDetached_reached _ earlier) input company).2, run_insert]

end Design

/-! ## Unnoticed -/

/-- An entry goes unnoticed in the course of some inputs when the others run the same
callbacks with the same events in the same turns, with it and without it. -/
def GoesUnnoticed (design : Design α) (before : List (Bound α)) (extra : Bound α)
    (after : List (Bound α)) (inputs : List Input) : Prop :=
  ((design.withEntries (before ++ extra :: after)).fresh.turns inputs).map
      (fun turn => turn.fired.filter fun firing => firing.shortcut ≠ before.length) =
    ((design.withEntries (before ++ after)).fresh.turns inputs).map
      fun turn => turn.fired.map (Firing.renumbered before.length)

variable {design : Design α} {before after : List (Bound α)} {extra : Bound α}

/-- **An entry that is never completed and does not go on alone goes unnoticed.** -/
theorem goesUnnoticed_of_keepsCompany (unmatched : design.NeverMatched extra) {inputs : List Input}
    (keeps : design.KeepsCompany before extra after inputs) :
    GoesUnnoticed design before extra after inputs := by
  induction inputs using List.reverseRecOn with
  | nil => rfl
  | append_singleton inputs input hypothesis =>
      have same := hypothesis (keeps.of_prefix (List.prefix_append inputs [input]))
      have sameFired := Design.fired_insert unmatched keeps
      have others : ∀ firing ∈ ((design.withEntries (before ++ extra :: after)).turnAfter inputs
          input).fired, firing.shortcut ≠ before.length := by
        intro firing hasRun
        rw [sameFired] at hasRun
        obtain ⟨old, -, rfl⟩ := List.mem_map.mp hasRun
        exact renumber_ne before.length old.shortcut
      have kept := List.filter_eq_self.mpr fun firing hasRun =>
        decide_eq_true (others firing hasRun)
      rw [GoesUnnoticed] at same ⊢
      rw [Design.turns_concat, Design.turns_concat, List.map_append, List.map_append, same,
        List.map_singleton, List.map_singleton, kept, sameFired]

/-- **A shortcut that can only be begun goes unnoticed in company.**  One more entry is
registered anywhere among others, and a chord of its shortcut asks for an unknown
modifier.  In the course of any inputs that do not leave its shortcut to go on alone, the
other entries run the same callbacks with the same events in the same turns as without it.
If nothing comes before the chord, or another shortcut goes on from what comes before it,
no inputs leave its shortcut to go on alone. -/
theorem goes_unnoticed (design : Design α) (before after : List (Bound α)) (extra : Bound α)
    {begun later : List Chord} {chord : Chord}
    (isSplit : extra.shortcut.chords = begun ++ chord :: later) (asksUnknown : chord.AsksUnknown) :
    (∀ inputs, design.KeepsCompany before extra after inputs →
        GoesUnnoticed design before extra after inputs) ∧
      ((begun = [] ∨ ∃ other ∈ before ++ after, ∃ next more,
          other.shortcut.chords = begun ++ next :: more) →
        ∀ inputs, GoesUnnoticed design before extra after inputs) := by
  have unmatched : design.NeverMatched extra :=
    standing_ne_matched (by simp [isSplit]) asksUnknown
  refine ⟨fun inputs => goesUnnoticed_of_keepsCompany unmatched, fun goesOn inputs => ?_⟩
  have shared : begun = [] ∨ ∃ shortcut ∈ (before ++ after).map Bound.shortcut, ∃ next more,
      shortcut.chords = begun ++ next :: more := by
    refine goesOn.imp_right ?_
    rintro ⟨other, isMember, next, more, isOther⟩
    exact ⟨other.shortcut, List.mem_map_of_mem isMember, next, more, isOther⟩
  exact goesUnnoticed_of_keepsCompany unmatched fun earlier _ =>
    .of_same_beginning isSplit asksUnknown shared _

/-- The entry of a text. -/
def entryOf (text : String) : Bound Unit :=
  ⟨Shortcut.ofText .other text, text, ()⟩

/-- A shortcut that asks for a modifier no keyboard has is begun as another one is.  It
goes unnoticed whatever is typed. -/
theorem goes_unnoticed_beside_longer_shortcut :
    let extra := entryOf "g Hyper+k"
    let begun : List Chord := [⟨{}, "g"⟩]
    let chord : Chord := ⟨.ofNames ["Hyper"], "k"⟩
    extra.shortcut.chords = begun ++ [chord] ∧ chord.AsksUnknown ∧
      (∃ other ∈ [entryOf "h", entryOf "g x"], ∃ next more,
        other.shortcut.chords = begun ++ next :: more) ∧
      ∀ inputs, GoesUnnoticed growingShortcuts [entryOf "h"] extra [entryOf "g x"] inputs := by
  intro extra begun chord
  have isSplit : extra.shortcut.chords = begun ++ [chord] := by decide +kernel
  have asksUnknown : chord.AsksUnknown := by decide +kernel
  have goesOn : ∃ other ∈ [entryOf "h", entryOf "g x"], ∃ next more,
      other.shortcut.chords = begun ++ next :: more :=
    ⟨entryOf "g x", by simp, ⟨{}, "x"⟩, [], by decide +kernel⟩
  exact ⟨isSplit, asksUnknown, goesOn,
    (goes_unnoticed growingShortcuts [entryOf "h"] [entryOf "g x"] extra isSplit asksUnknown).2
      (.inr goesOn)⟩

/-- **A beginning of its own is noticed.**  A shortcut that asks for a modifier no keyboard
has begins with `g`.  So `g` is kept when it has been typed, the `h` after it does not
begin anything, and the callback of `h` does not run. -/
theorem lone_beginning_is_noticed :
    let key (name code : String) : Signal := .key { key := name, code }
    let extra := entryOf "g Hyper+k"
    (∃ chord ∈ extra.shortcut.chords, chord.AsksUnknown) ∧
      ¬ GoesUnnoticed growingShortcuts [entryOf "h"] extra []
        [.signal (key "g" "KeyG") 0, .signal (key "h" "KeyH") 10] := by
  intro key extra
  refine ⟨⟨⟨.ofNames ["Hyper"], "k"⟩, by decide +kernel, by decide +kernel⟩, fun unnoticed => ?_⟩
  have sameNumbers := congrArg (List.map List.length) unnoticed
  revert sameNumbers
  decide +kernel

end Responder

end Keystrokes
