import Keystrokes.Proofs.Responding.Agreement
import Keystrokes.Proofs.Responding.Thread

/-!
# Trail and agenda are in step

A responder keeps what has been typed in its trail and what is to be done in its agenda.
Signals, polls, giving up and detaching change each of the two on its own, at moments
that may run backwards.  All the same the two are always in step: something has been
typed exactly when the pause has an end, and then everything that is postponed belongs
to the last key event that was accepted (`in_step`).

The invariant is that of the threads (`Phase.Follows`): a wait remembers the last key
event that was accepted, whose keystroke is the last of the trail, and the shortcuts
that the trail completes.  It is carried here through commands of every kind.
-/

set_option autoImplicit false

namespace Keystrokes

namespace Responder

variable {α : Type} {design : Design α}

/-! ## What is accepted in the course of commands -/

variable (design) in
/-- The key event that a command brings, with its moment, if the settings accept it. -/
def Design.acceptedOn? : Command → Option (KeyEvent × Nat)
  | .give input => design.accepted? input
  | _ => none

variable (design) in
/-- The key events that are accepted in the course of some commands, with their
moments. -/
def Design.acceptedOn (commands : List Command) : List (KeyEvent × Nat) :=
  commands.filterMap design.acceptedOn?

theorem Design.acceptedOn_concat (commands : List Command) (command : Command) :
    design.acceptedOn (commands ++ [command]) =
      design.acceptedOn commands ++ (design.acceptedOn? command).toList := by
  rw [acceptedOn, List.filterMap_append]
  cases found : design.acceptedOn? command <;> simp [acceptedOn, found]

/-! ## The invariant -/

/-- No input ends the phase of a detached responder. -/
theorem Design.phaseAfter_detached (input : Input) :
    design.phaseAfter .detached input = .detached := by
  cases input with
  | poll now => rfl
  | signal signal now =>
      rw [phaseAfter]
      cases design.fresh.screen signal <;> rfl

/-- **What is remembered after a command was typed.** -/
theorem Phase.Follows.phaseOn {accepted : List (KeyEvent × Nat)} {phase : Phase}
    (follows : phase.Follows design accepted) (command : Command) :
    (design.phaseOn phase command).Follows design
      (accepted ++ (design.acceptedOn? command).toList) := by
  cases command with
  | give input =>
      cases phase with
      | resting => exact follows.phaseAfter rfl input
      | waiting wait => exact follows.phaseAfter rfl input
      | detached =>
          rw [Design.phaseOn, design.phaseAfter_detached]
          trivial
  | abandon => cases phase <;> trivial
  | detach => trivial

theorem follows_phaseLed (design : Design α) (commands : List Command) :
    (design.phaseLed commands).Follows design (design.acceptedOn commands) := by
  induction commands using List.reverseRecOn with
  | nil => trivial
  | append_singleton commands command hypothesis =>
      rw [Design.phaseLed_concat, Design.acceptedOn_concat]
      exact hypothesis.phaseOn command

/-! ## Trail and agenda -/

/-- The trail of a responder and its agenda are in step, after some key events have been
accepted. -/
structure InStep (design : Design α) (accepted : List (KeyEvent × Nat))
    (responder : Responder α) : Prop where
  typed_iff : responder.typed ≠ [] ↔ responder.agenda.pauseEnd.isSome
  pauseEnd_iff : responder.agenda.pauseEnd.isSome ↔ responder.deadline.isSome
  deadline_iff : responder.deadline.isSome ↔ responder.isAtRest = false
  /-- The pause ends one timeout after the last key event, which has left the last
  keystroke.  All that is postponed is postponed with this event and to the end of the
  pause. -/
  last : ∀ deadline, responder.agenda.pauseEnd = some deadline →
    ∃ event time, accepted.getLast? = some (event, time) ∧
      deadline = time + design.settings.timeout ∧
      responder.typed.getLast? = some (event.stroke design.settings.tracked) ∧
      ∀ postponed ∈ responder.agenda.postponed,
        postponed.deadline = deadline ∧ postponed.call.event = event
  ascending : (responder.agenda.postponed.map fun postponed => postponed.call.shortcut).Pairwise
    (· < ·)
  exist : ∀ postponed ∈ responder.agenda.postponed,
    postponed.call.shortcut < responder.callbacks.length
  /-- What is postponed are the calls of the shortcuts that have been typed in full. -/
  matched : ∀ number,
    (number ∈ responder.agenda.postponed.map fun postponed => postponed.call.shortcut) ↔
      ∃ shortcut, design.shortcuts[number]? = some shortcut ∧
        shortcut.standing design.tracked responder.typed = .matched
  detached : responder.detached = true → responder.isAtRest = true

theorem Wait.earliest_agenda (timeout : Nat) (wait : Wait) :
    (wait.agenda timeout).earliest = some (wait.deadline timeout) := by
  rw [Agenda.earliest, List.min?_eq_some_iff]
  constructor
  · simp [agenda]
  · intro deadline isMember
    have same : deadline = wait.deadline timeout := by
      rcases List.mem_append.mp isMember with isPostponed | isEnd
      · obtain ⟨postponed, isCall, rfl⟩ := List.mem_map.mp isPostponed
        obtain ⟨call, -, rfl⟩ := List.mem_map.mp isCall
        rfl
      · exact (Option.some.inj (Option.mem_toList.mp isEnd)).symm
    exact Nat.le_of_eq same.symm

theorem Wait.shortcuts_agenda (timeout : Nat) (wait : Wait) :
    ((wait.agenda timeout).postponed.map fun postponed => postponed.call.shortcut) =
      wait.matched := by
  simp [agenda, calls, Function.comp_def]

/-- A responder with nothing typed and nothing to be done is in step. -/
theorem inStep_at_rest {accepted : List (KeyEvent × Nat)} {responder : Responder α}
    (nothingTyped : responder.typed = []) (nothingToDo : responder.agenda = Agenda.empty) :
    InStep design accepted responder := by
  have noDeadline : responder.deadline = none := by
    rw [deadline, nothingToDo]
    rfl
  have atRest : responder.isAtRest = true := by
    rw [isAtRest, nothingTyped, nothingToDo]
    rfl
  refine ⟨?_, ?_, ?_, ?_, ?_, ?_, ?_, fun _ => atRest⟩
  · simp [nothingTyped, nothingToDo, Agenda.empty]
  · simp [nothingToDo, noDeadline, Agenda.empty]
  · simp [noDeadline, atRest]
  · simp [nothingToDo, Agenda.empty]
  · simp [nothingToDo, Agenda.empty]
  · simp [nothingToDo, Agenda.empty]
  · intro number
    rw [nothingToDo, nothingTyped]
    constructor
    · intro isMember
      exact absurd isMember (by simp [Agenda.empty])
    · -- No shortcut is typed in full by no keystroke at all.
      rintro ⟨shortcut, -, isMatched⟩
      exact absurd isMatched (by simp [Shortcut.standing, standing])

/-- A responder that waits is in step. -/
theorem Wait.Follows.inStep {accepted : List (KeyEvent × Nat)} {wait : Wait} {places : List Nat}
    {last : Nat} (follows : wait.Follows design accepted places last) :
    InStep design accepted (design.during (.waiting wait)) := by
  obtain ⟨earlier, strokes, -, isConcat, -⟩ := follows.exists_concat
  have typed : (design.during (.waiting wait)).typed =
      strokes ++ [wait.event.stroke design.settings.tracked] := by
    rw [Design.typed_during]
    exact isConcat
  have agenda : (design.during (.waiting wait)).agenda = wait.agenda design.settings.timeout := rfl
  have deadline : (design.during (.waiting wait)).deadline =
      some (wait.deadline design.settings.timeout) := by
    rw [Responder.deadline, agenda, wait.earliest_agenda]
  have notAtRest : (design.during (.waiting wait)).isAtRest = false := by
    simp [isAtRest, typed]
  refine ⟨?_, ?_, ?_, ?_, ?_, ?_, ?_, ?_⟩
  · rw [typed, agenda]
    simp [Wait.agenda]
  · rw [agenda, deadline]
    simp [Wait.agenda]
  · simp [deadline, notAtRest]
  · intro deadline isEnd
    obtain rfl : wait.deadline design.settings.timeout = deadline := Option.some.inj isEnd
    refine ⟨wait.event, wait.since, ?_, rfl, ?_, ?_⟩
    · rw [List.getLast?_eq_getElem?, follows.isLast, Nat.add_sub_cancel, follows.found]
    · rw [typed, List.getLast?_concat]
    · intro postponed isMember
      rw [agenda] at isMember
      obtain ⟨call, isCall, rfl⟩ := List.mem_map.mp isMember
      obtain ⟨number, -, rfl⟩ := List.mem_map.mp isCall
      exact ⟨rfl, rfl⟩
  · rw [agenda, wait.shortcuts_agenda, follows.matched]
    exact pairwise_matched ..
  · intro postponed isMember
    have isMatched : postponed.call.shortcut ∈ wait.matched := by
      rw [← wait.shortcuts_agenda design.settings.timeout]
      exact List.mem_map_of_mem isMember
    rw [follows.matched] at isMatched
    have isShortcut := lt_length_of_mem_matched isMatched
    have sameLength : design.shortcuts.length = (design.during (.waiting wait)).callbacks.length := by
      simp [Design.shortcuts, Design.during, Design.fresh, ofMatcher]
    rwa [sameLength] at isShortcut
  · intro number
    rw [agenda, wait.shortcuts_agenda, follows.matched, mem_matched, Design.typed_during]
    exact Iff.rfl
  · intro isDetached
    exact absurd isDetached (by simp [Phase.isDetached])

/-- **Trail and agenda are in step after commands of every kind**, at whatever moments
they are given. -/
theorem in_step (design : Design α) (commands : List Command) :
    InStep design (design.acceptedOn commands) (design.fresh.led commands) := by
  have follows := follows_phaseLed design commands
  rw [design.led_fresh]
  cases isPhase : design.phaseLed commands with
  | resting => exact inStep_at_rest (Design.typed_during .resting) rfl
  | detached => exact inStep_at_rest (Design.typed_during .detached) rfl
  | waiting wait =>
      rw [isPhase] at follows
      obtain ⟨places, last, follows⟩ := follows
      exact follows.inStep

end Responder

end Keystrokes
