import Keystrokes.Proofs.Responding.InStep
import Keystrokes.Proofs.Responding.Law
import Keystrokes.Proofs.Responding.Polling

/-!
# What a responder forgets

A responder at rest shows an empty trail and an empty agenda, and it keeps nothing else
anywhere: it goes on as a new one does.  A responder that is given an input at its deadline
or later runs what is postponed, and goes on as a new one does that is given the same
input (`forgets_at_rest_and_at_deadline`).

A responder that is not detached is new or waits (`Design.led_cases`), and a wait is no
rest.  What is heeded at the deadline of a wait polls first, which ends the wait, so that
the input falls on a responder at rest (`Design.over_expired`).
-/

set_option autoImplicit false

namespace Keystrokes

namespace Responder

variable {α : Type} {design : Design α}

namespace Design

/-! ## Rest -/

theorem isAtRest_resting : (design.during .resting).isAtRest = true := by
  rw [isAtRest, typed_during]
  rfl

theorem isAtRest_waiting (wait : Wait) : (design.during (.waiting wait)).isAtRest = false := by
  have isToDo : (design.during (.waiting wait)).agenda.isEmpty = false := by
    simp [Agenda.isEmpty, Phase.agenda, Wait.agenda]
  rw [isAtRest, isToDo, Bool.and_false]

/-- **A responder that is not detached is a new one, or it waits.** -/
theorem led_cases {commands : List Command}
    (isAttached : (design.fresh.led commands).detached = false) :
    (design.fresh.led commands).isAtRest = true ∧ design.fresh.led commands = design.fresh ∨
      ∃ wait, (design.fresh.led commands).isAtRest = false ∧
        design.phaseLed commands = .waiting wait := by
  rw [design.led_fresh, detached_during] at isAttached
  rw [design.led_fresh, design.fresh_eq_during]
  cases isPhase : design.phaseLed commands with
  | resting => exact .inl ⟨isAtRest_resting, rfl⟩
  | waiting wait => exact .inr ⟨wait, isAtRest_waiting wait, rfl⟩
  | detached => exact absurd isAttached (by simp [isPhase, Phase.isDetached])

/-! ## The end of a wait -/

variable {wait : Wait} {input : Input}

/-- An input that is heeded when a wait is over runs the calls of the wait, and does then
what it does to a responder at rest. -/
theorem respond_expired (heeded : design.Heeds input)
    (isOver : wait.deadline design.settings.timeout ≤ input.now) :
    design.callsIn (.waiting wait) input = wait.calls ++ design.callsIn .resting input ∧
      design.phaseAfter (.waiting wait) input = design.phaseAfter .resting input := by
  have settled : Phase.settle design.settings.timeout (wait.deadline design.settings.timeout)
      (.waiting wait) = .resting := if_pos (Nat.le_refl _)
  have due : Phase.due design.settings.timeout (wait.deadline design.settings.timeout)
      (.waiting wait) = wait.calls := if_pos (Nat.le_refl _)
  obtain ⟨calls, next⟩ := design.polls_first heeded (.waiting wait) isOver
  rw [settled, due] at calls
  rw [settled] at next
  exact ⟨calls.symm, next.symm⟩

/-- **A wait that is over is forgotten once its calls have run.** -/
theorem over_expired (heeded : design.Heeds input)
    (isOver : wait.deadline design.settings.timeout ≤ input.now) (later : List Input) :
    design.callsOver (.waiting wait) (input :: later) =
        wait.calls ++ design.callsOver .resting (input :: later) ∧
      design.phaseOver (.waiting wait) (input :: later) =
        design.phaseOver .resting (input :: later) := by
  obtain ⟨calls, next⟩ := respond_expired heeded isOver
  constructor
  · rw [callsOver, callsOver, calls, next, List.append_assoc]
  · rw [phaseOver, phaseOver, List.foldl_cons, List.foldl_cons, next]

/-- The calls of a wait are those of shortcuts that exist, in ascending order. -/
theorem orderly_of_follows {accepted : List (KeyEvent × Nat)} {places : List Nat} {last : Nat}
    (follows : wait.Follows design accepted places last) : design.Orderly wait.calls := by
  rw [Wait.calls, follows.matched]
  exact design.orderly_matched _ wait.event

end Design

/-! ## What is forgotten -/

/-- **Rest and deadlines leave nothing behind.**  A responder that has been led to where it
is by any commands, and is not detached, may be at rest: then the same callbacks run with
the same events as those of a new responder, whatever comes, and both are the same in the
end.  Otherwise it has a deadline.  If a poll or a key event that is accepted comes then or
later, the calls that are postponed run first, each once and in ascending order; and then
the callbacks of a new responder on the same inputs run, and both are the same in the
end. -/
theorem forgets_at_rest_and_at_deadline (design : Design α) (commands : List Command)
    (isAttached : (design.fresh.led commands).detached = false) :
    let responder := design.fresh.led commands
    (responder.isAtRest = true → ∀ inputs, responder.outcome inputs = design.fresh.outcome inputs) ∧
      (responder.isAtRest = false → ∃ deadline, responder.deadline = some deadline ∧
        (responder.agenda.postponed.map fun postponed => postponed.call.shortcut).Pairwise (· < ·) ∧
        ∀ input later, design.Heeds input → deadline ≤ input.now → ∃ first,
          (first.map fun firing => (firing.call, some firing.callback)) =
              (responder.agenda.postponed.map fun postponed =>
                (postponed.call, design.callback? postponed.call.shortcut)) ∧
            (responder.outcome (input :: later)).fired =
              first ++ (design.fresh.outcome (input :: later)).fired ∧
            (responder.outcome (input :: later)).last =
              (design.fresh.outcome (input :: later)).last) := by
  intro responder
  rcases design.led_cases isAttached with ⟨atRest, isNew⟩ | ⟨wait, notAtRest, isWaiting⟩
  · refine ⟨fun _ inputs => by rw [← isNew], fun notAtRest => ?_⟩
    exact absurd atRest (by simp [responder, notAtRest])
  · refine ⟨fun atRest => absurd atRest (by simp [responder, notAtRest]), fun _ => ?_⟩
    have isLed : responder = design.during (.waiting wait) := by
      rw [← isWaiting]
      exact design.led_fresh commands
    obtain ⟨places, last, follows⟩ : Phase.Follows design _ (.waiting wait) :=
      isWaiting ▸ follows_phaseLed design commands
    have isOrderly := design.orderly_of_follows follows
    have isPostponed : responder.agenda.postponed =
        wait.calls.map fun call => ⟨call, wait.deadline design.settings.timeout⟩ := by
      rw [isLed]
      rfl
    have hasDeadline : responder.deadline = some (wait.deadline design.settings.timeout) := by
      rw [isLed]
      exact wait.earliest_agenda _
    refine ⟨_, hasDeadline, ?_, fun input later heeded isOver => ?_⟩
    · rw [isPostponed, List.map_map]
      exact isOrderly.ascending
    · obtain ⟨sameCalls, sameEnd⟩ := design.over_expired heeded isOver later
      refine ⟨wait.calls.flatMap design.run, ?_, ?_, ?_⟩
      · rw [isPostponed, List.map_map]
        exact design.map_flatMap_run isOrderly
      · rw [isLed, design.fresh_eq_during, Design.outcome_during, Design.outcome_during, sameCalls,
          List.flatMap_append]
      · rw [isLed, design.fresh_eq_during, Design.outcome_during, Design.outcome_during, sameEnd]

/-- The shorter of two shortcuts is typed, and its key is pressed again after the pause.
The callback runs that was postponed, and the key is taken as if nothing had been typed. -/
theorem forgets_shorter_shortcut :
    let key : Signal := .key { key := "g", code := "KeyG" }
    let responder := growingShortcuts.fresh.led [.give (.signal key 0)]
    let again : Input := .signal key 1500
    responder.detached = false ∧ responder.isAtRest = false ∧
      responder.deadline = some 1000 ∧ growingShortcuts.Heeds again ∧ 1000 ≤ again.now ∧
      ∃ first,
        (first.map fun firing => (firing.call, some firing.callback)) =
            (responder.agenda.postponed.map fun postponed =>
              (postponed.call, growingShortcuts.callback? postponed.call.shortcut)) ∧
          (responder.outcome [again]).fired =
            first ++ (growingShortcuts.fresh.outcome [again]).fired ∧
          (responder.outcome [again]).last = (growingShortcuts.fresh.outcome [again]).last := by
  intro key responder again
  have isAttached : responder.detached = false := by decide +kernel
  have notAtRest : responder.isAtRest = false := by decide +kernel
  have hasDeadline : responder.deadline = some 1000 := by decide +kernel
  have heeded : growingShortcuts.Heeds again := .inr rfl
  have isOver : 1000 ≤ again.now := by decide
  obtain ⟨-, forgets⟩ := forgets_at_rest_and_at_deadline growingShortcuts _ isAttached
  obtain ⟨deadline, isDeadline, -, goesOn⟩ := forgets notAtRest
  obtain rfl : 1000 = deadline := Option.some.inj (hasDeadline.symm.trans isDeadline)
  exact ⟨isAttached, notAtRest, hasDeadline, heeded, isOver, goesOn again [] heeded isOver⟩

end Responder

end Keystrokes
