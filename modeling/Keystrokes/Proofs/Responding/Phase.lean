import Keystrokes.Proofs.Matching.Agreement
import Keystrokes.Proofs.Responding.Run
import Mathlib.Data.List.Induction

/-!
# Phases of a responder

A responder is at rest, or it waits for a shortcut to go on, or it is detached.  While
it waits it remembers the last key event that it took, when that was, which shortcuts
that event completed, and the trail.  Everything else in it never changes.

So the steps of a responder are steps from phase to phase: a poll ends a wait whose
time has come and runs its calls (`poll_during`), and a key event that is accepted
begins a new wait or leaves the responder at rest (`handle_during`).
-/

set_option autoImplicit false

namespace Keystrokes

namespace Responder

/-! ## Phases -/

/-- What a responder remembers while it waits for a shortcut to go on. -/
structure Wait where
  /-- The last key event that was taken. -/
  event : KeyEvent
  /-- When it was taken. -/
  since : Nat
  /-- The shortcuts that it completed. -/
  matched : List Nat
  trail : Trail

namespace Wait

/-- The calls that run when the wait is over. -/
def calls (wait : Wait) : List Call :=
  wait.matched.map fun shortcut => ⟨shortcut, wait.event⟩

/-- When the wait is over. -/
def deadline (timeout : Nat) (wait : Wait) : Nat :=
  wait.since + timeout

/-- What is to be done in the end. -/
def agenda (timeout : Nat) (wait : Wait) : Agenda where
  postponed := wait.calls.map fun call => ⟨call, wait.deadline timeout⟩
  pauseEnd := some (wait.deadline timeout)

end Wait

/-- What a responder is doing. -/
inductive Phase where
  | resting
  | waiting (wait : Wait)
  | detached

namespace Phase

/-- The keystrokes typed so far. -/
def trail : Phase → Trail
  | .waiting wait => wait.trail
  | _ => Trail.empty

/-- What is to be done. -/
def agenda (timeout : Nat) : Phase → Agenda
  | .waiting wait => wait.agenda timeout
  | _ => Agenda.empty

/-- Whether the responder is detached. -/
def isDetached : Phase → Bool
  | .detached => true
  | _ => false

/-- The calls that run in a poll. -/
def due (timeout now : Nat) : Phase → List Call
  | .waiting wait => if wait.deadline timeout ≤ now then wait.calls else []
  | _ => []

/-- The phase after a poll. -/
def settle (timeout now : Nat) : Phase → Phase
  | .waiting wait => if wait.deadline timeout ≤ now then .resting else .waiting wait
  | phase => phase

/-- The phase after everything has been given up. -/
def abandon : Phase → Phase
  | .detached => .detached
  | _ => .resting

@[simp] theorem isDetached_settle (timeout now : Nat) (phase : Phase) :
    (phase.settle timeout now).isDetached = phase.isDetached := by
  cases phase with
  | resting => rfl
  | waiting wait =>
      rw [settle]
      split <;> rfl
  | detached => rfl

end Phase

/-! ## Designs -/

/-- What a responder is made from: shortcuts with their callbacks, a matcher for them
of either kind, and settings. -/
structure Design (α : Type) where
  kind : MatcherKind
  /-- The modifiers that the matcher tracks. -/
  tracked : Modifiers
  bound : List (Bound α)
  settings : Settings

namespace Design

variable {α : Type} (design : Design α)

/-- The shortcuts, in the order of their registration. -/
def shortcuts : List Shortcut :=
  design.bound.map Bound.shortcut

/-- The responder, newly made. -/
def fresh : Responder α :=
  ofMatcher (.ofKind design.kind design.shortcuts design.tracked) design.bound design.settings

/-- The responder in a phase. -/
def during (phase : Phase) : Responder α :=
  { design.fresh with
    matcher := .holding design.kind design.shortcuts design.tracked phase.trail
    agenda := phase.agenda design.settings.timeout
    detached := phase.isDetached }

/-- The callback that a call runs, if its shortcut has one. -/
def run (call : Call) : List (Firing α) :=
  design.bound[call.shortcut]?.toList.map fun entry => ⟨call.shortcut, entry.callback, call.event⟩

/-- The verdict on a key event in a phase. -/
def verdict (phase : Phase) (event : KeyEvent) : Verdict :=
  let stroke := event.stroke design.settings.tracked
  verdictOn design.shortcuts design.tracked (phase.trail.extend design.tracked stroke).strokes

/-- The phase after a key event has been taken. -/
def take (phase : Phase) (event : KeyEvent) (now : Nat) : Phase :=
  let verdict := design.verdict phase event
  let stroke := event.stroke design.settings.tracked
  if verdict.possible then
    .waiting ⟨event, now, verdict.matched,
      phase.trail.next design.shortcuts design.tracked stroke⟩
  else .resting

/-- The calls that a key event runs at once. -/
def atOnce (phase : Phase) (event : KeyEvent) : List Call :=
  let verdict := design.verdict phase event
  if verdict.possible then [] else verdict.matched.map fun shortcut => ⟨shortcut, event⟩

/-- A responder with another matcher and another agenda is in another phase. -/
theorem during_eq (phase other : Phase) (same : phase.isDetached = other.isDetached) :
    { design.during phase with
      matcher := .holding design.kind design.shortcuts design.tracked other.trail
      agenda := other.agenda design.settings.timeout } = design.during other := by
  simp only [during, same]

theorem fresh_eq_during : design.fresh = design.during .resting := by
  simp only [during, fresh, ofMatcher, Matcher.ofKind_eq_holding]
  rfl

/-! ## What is seen of a phase -/

variable {design} (phase : Phase)

@[simp] theorem timeout_during : (design.during phase).timeout = design.settings.timeout :=
  rfl

@[simp] theorem tracked_during : (design.during phase).tracked = design.settings.tracked :=
  rfl

@[simp] theorem agenda_during :
    (design.during phase).agenda = phase.agenda design.settings.timeout :=
  rfl

@[simp] theorem detached_during : (design.during phase).detached = phase.isDetached :=
  rfl

@[simp] theorem trail_during : (design.during phase).matcher.trail = phase.trail :=
  Matcher.trail_holding ..

@[simp] theorem typed_during : (design.during phase).typed = phase.trail.strokes := by
  rw [typed, trail_during]

@[simp] theorem screen_during (signal : Signal) :
    (design.during phase).screen signal = design.fresh.screen signal :=
  rfl

/-! ## Calls -/

@[simp] theorem firings_append (first second : List (Report α)) :
    firings (first ++ second) = firings first ++ firings second :=
  List.filterMap_append

@[simp] theorem firings_notes (notes : List Note) :
    firings (notes.map (Report.note (α := α))) = [] := by
  simp [firings, Report.firing?, List.filterMap_map, Function.comp_def]

/-- A responder that is not detached runs the callbacks of its calls. -/
theorem firings_fire (responder : Responder α) (isAttached : responder.detached = false)
    (same : responder.callbacks = design.fresh.callbacks) (calls : List Call) :
    firings (calls.flatMap responder.fire) = calls.flatMap design.run := by
  induction calls with
  | nil => rfl
  | cons call calls hypothesis =>
      rw [List.flatMap_cons, List.flatMap_cons, firings_append, hypothesis]
      congr 1
      simp only [fire, callback?, isAttached, same, Bool.false_eq_true, if_false, run, fresh,
        ofMatcher, List.getElem?_map]
      cases design.bound[call.shortcut]? <;> rfl

end Design

/-! ## Polls -/

theorem Wait.collect_agenda (timeout now : Nat) (wait : Wait) :
    (wait.agenda timeout).collect now =
      if wait.deadline timeout ≤ now then
        (⟨wait.calls.map fun call => ⟨call, wait.deadline timeout⟩, true⟩, Agenda.empty)
      else (⟨[], false⟩, wait.agenda timeout) := by
  by_cases isOver : wait.deadline timeout ≤ now
  · simp [Agenda.collect, agenda, Agenda.pauseOver, List.filter_map, Function.comp_def, isOver,
      Agenda.empty]
  · simp [Agenda.collect, agenda, Agenda.pauseOver, List.filter_map, Function.comp_def, isOver]

namespace Design

variable {α : Type} {design : Design α}

theorem restart_during (phase : Phase) :
    (design.during phase).matcher.restart =
      .holding design.kind design.shortcuts design.tracked Trail.empty :=
  Matcher.restart_holding ..

/-- Giving up everything ends a wait. -/
theorem abandon_during (phase : Phase) :
    (design.during phase).abandon.1 = design.during phase.abandon := by
  rw [Responder.abandon, restart_during]
  cases phase <;> rfl

/-- Detaching ends a wait for good. -/
theorem detach_during (phase : Phase) :
    (design.during phase).detach.1 = design.during .detached := by
  have restarted := design.restart_during phase
  simp only [detach, Responder.abandon, restarted]
  rfl

/-- **A poll ends a wait whose time has come, and runs its calls.** -/
theorem poll_during (phase : Phase) (now : Nat) :
    ((design.during phase).poll now).1 =
        design.during (phase.settle design.settings.timeout now) ∧
      firings ((design.during phase).poll now).2 =
        (phase.due design.settings.timeout now).flatMap design.run := by
  cases phase with
  | resting => exact ⟨rfl, rfl⟩
  | detached => exact ⟨design.abandon_during .detached, rfl⟩
  | waiting wait =>
      have collected : (design.during (.waiting wait)).agenda.collect now = _ :=
        wait.collect_agenda design.settings.timeout now
      have restarted := design.restart_during (.waiting wait)
      simp only [poll, collect, collected, Phase.settle, Phase.due]
      by_cases isOver : wait.deadline design.settings.timeout ≤ now
      · simp only [isOver, if_true, firings_append, firings_notes, List.append_nil,
          List.flatMap_map]
        refine ⟨?_, firings_fire _ rfl rfl _⟩
        simp only [concludePoll, abandonIfDetached, restarted]
        rfl
      · simp only [isOver, if_false, firings_append, firings_notes, List.append_nil,
          List.flatMap_nil]
        exact ⟨rfl, rfl⟩

end Design

/-! ## Key events -/

theorem foldl_postpone (shortcuts : List Nat) (event : KeyEvent) (deadline : Nat)
    (agenda : Agenda) :
    shortcuts.foldl (fun agenda shortcut => agenda.postpone ⟨shortcut, event⟩ deadline) agenda =
      { agenda with
        postponed := agenda.postponed ++ shortcuts.map fun shortcut => ⟨⟨shortcut, event⟩, deadline⟩ } := by
  induction shortcuts generalizing agenda with
  | nil => simp
  | cons shortcut shortcuts hypothesis =>
      rw [List.foldl_cons, hypothesis]
      simp [Agenda.postpone]

namespace Design

variable {α : Type} {design : Design α}

theorem isDetached_take (phase : Phase) (event : KeyEvent) (now : Nat) :
    (design.take phase event now).isDetached = false := by
  rw [Design.take]
  split <;> rfl

/-- **A key event begins a new wait, or completes shortcuts and leaves the responder
at rest.** -/
theorem take_during {phase : Phase} (isAttached : phase.isDetached = false) (event : KeyEvent)
    (now : Nat) :
    ((design.during phase).take event now).responder = design.during (design.take phase event now) ∧
      (((design.during phase).take event now).firing.map fun shortcut => ⟨shortcut, event⟩) =
        design.atOnce phase event := by
  have stepped : (design.during phase).matcher.step (event.stroke design.settings.tracked) =
      (_, design.verdict phase event) := Matcher.step_holding ..
  simp only [Responder.take, tracked_during, timeout_during, stepped, Design.take, atOnce]
  by_cases possible : (design.verdict phase event).possible
  · simp only [possible, if_true, foldl_postpone, List.map_nil, and_true]
    rw [← design.during_eq phase (.waiting _) isAttached]
    simp only [Phase.trail, Phase.agenda, Wait.agenda, Wait.calls, Wait.deadline, List.map_map,
      Function.comp_def, Agenda.endPauseAt, Agenda.empty, List.nil_append]
    rfl
  · have givenUp : phase.trail.next design.shortcuts design.tracked
        (event.stroke design.settings.tracked) = Trail.empty := if_neg possible
    simp only [possible, givenUp, Bool.false_eq_true, if_false, and_true]
    rw [← design.during_eq phase .resting isAttached]
    rfl

/-- An input that is not an accepted key event changes nothing and runs nothing. -/
theorem handle_rejected (responder : Responder α) {signal : Signal} {reason : Note}
    (rejected : responder.screen signal = .error reason) (now : Nat) :
    responder.handle signal now = (responder, [.note reason]) := by
  rw [handle, rejected]

/-- **An accepted key event runs what is due, and is then taken.** -/
theorem handle_during (phase : Phase) (isAttached : phase.isDetached = false) {signal : Signal}
    {event : KeyEvent} (accepted : design.fresh.screen signal = .ok event) (now : Nat) :
    let settled := phase.settle design.settings.timeout now
    ((design.during phase).handle signal now).1 =
        design.during (design.take settled event now) ∧
      firings ((design.during phase).handle signal now).2 =
        (phase.due design.settings.timeout now).flatMap design.run ++
          (design.atOnce settled event).flatMap design.run := by
  intro settled
  obtain ⟨polled, before⟩ := design.poll_during phase now
  have stillAttached : settled.isDetached = false := by simp [settled, isAttached]
  obtain ⟨taken, firing⟩ := design.take_during stillAttached event now
  have attached : (design.take settled event now).isDetached = false := isDetached_take ..
  have handled : (design.during phase).handle signal now =
      (design.during (design.take settled event now),
        ((design.during phase).poll now).2 ++
          ((design.during settled).take event now).notes.map .note ++
          ((design.during settled).take event now).firing.flatMap (fun shortcut =>
            (design.during (design.take settled event now)).fire ⟨shortcut, event⟩) ++ []) := by
    simp only [handle, screen_during, accepted, polled, detached_during, stillAttached, taken,
      abandonIfDetached, attached, Bool.false_eq_true, if_false, List.map_nil, settled]
  rw [handled]
  refine ⟨rfl, ?_⟩
  have ran := design.firings_fire (design.during (design.take settled event now)) attached rfl
    (design.atOnce settled event)
  rw [← firing, List.flatMap_map, firing] at ran
  rw [List.append_nil, firings_append, firings_append, firings_notes, List.append_nil, before, ran]

/-! ## Inputs and commands -/

variable (design) in
/-- The phase after an input. -/
def phaseAfter (phase : Phase) : Input → Phase
  | .poll now => phase.settle design.settings.timeout now
  | .signal signal now =>
      match design.fresh.screen signal with
      | .error _ => phase
      | .ok event =>
          if phase.isDetached then phase
          else design.take (phase.settle design.settings.timeout now) event now

variable (design) in
/-- The calls that run in an input. -/
def callsIn (phase : Phase) : Input → List Call
  | .poll now => phase.due design.settings.timeout now
  | .signal signal now =>
      match design.fresh.screen signal with
      | .error _ => []
      | .ok event =>
          if phase.isDetached then []
          else phase.due design.settings.timeout now ++
            design.atOnce (phase.settle design.settings.timeout now) event

/-- **What a responder does with an input, told by its phases.** -/
theorem respond_during (phase : Phase) (input : Input) :
    ((design.during phase).respond input).1 = design.during (design.phaseAfter phase input) ∧
      firings ((design.during phase).respond input).2 =
        (design.callsIn phase input).flatMap design.run := by
  cases input with
  | poll now => exact design.poll_during phase now
  | signal signal now =>
      rw [respond, phaseAfter, callsIn]
      cases screened : design.fresh.screen signal with
      | error reason =>
          rw [handle_rejected (design.during phase) screened]
          exact ⟨rfl, rfl⟩
      | ok event =>
          cases phase with
          | detached =>
              obtain ⟨polled, before⟩ := design.poll_during .detached now
              have handled : (design.during .detached).handle signal now =
                  (design.during .detached, ((design.during .detached).poll now).2) := by
                simp only [handle, screen_during, screened, polled, detached_during]
                rfl
              rw [handled]
              exact ⟨rfl, before⟩
          | resting =>
              obtain ⟨taken, ran⟩ := handle_during .resting rfl screened now
              exact ⟨taken, ran.trans List.flatMap_append.symm⟩
          | waiting wait =>
              obtain ⟨taken, ran⟩ := handle_during (.waiting wait) rfl screened now
              exact ⟨taken, ran.trans List.flatMap_append.symm⟩

/-! ## What is heard -/

variable (design) in
/-- The key event that an input brings, with its moment, if the settings accept it: they
have no filter, or one that passes the event. -/
def accepted? : Input → Option (KeyEvent × Nat)
  | .signal (.key event) now =>
      if design.settings.filter.all fun passes => passes event then some (event, now) else none
  | _ => none

/-- **A key event is accepted exactly when the filter, if there is one, passes it.**  Nothing
else is accepted. -/
theorem accepted?_eq_some_iff {input : Input} {event : KeyEvent} {now : Nat} :
    design.accepted? input = some (event, now) ↔
      input = .signal (.key event) now ∧
        ∀ passes ∈ design.settings.filter, passes event = true := by
  simp only [Option.mem_def, ← Option.all_eq_true]
  match input with
  | .poll later => simp [accepted?]
  | .signal (.foreign kind) later => simp [accepted?]
  | .signal (.key other) later =>
      rw [accepted?, Option.ite_none_right_eq_some]
      constructor
      · rintro ⟨isPassed, ⟨⟩⟩
        exact ⟨rfl, isPassed⟩
      · rintro ⟨⟨⟩, isPassed⟩
        exact ⟨isPassed, rfl⟩

/-- What a responder handles is accepted. -/
theorem accepted?_of_handled {signal : Signal} {event : KeyEvent}
    (handled : design.fresh.screen signal = .ok event) (now : Nat) :
    design.accepted? (.signal signal now) = some (event, now) := by
  obtain ⟨rfl, isPassed⟩ := screen_eq_ok_iff.mp handled
  exact accepted?_eq_some_iff.mpr ⟨rfl, isPassed⟩

/-- What a responder refuses to handle is not accepted. -/
theorem accepted?_of_refused {signal : Signal} {reason : Note}
    (refused : design.fresh.screen signal = .error reason) (now : Nat) :
    design.accepted? (.signal signal now) = none := by
  rw [Option.eq_none_iff_forall_ne_some]
  rintro ⟨event, time⟩ isAccepted
  obtain ⟨isSignal, isPassed⟩ := accepted?_eq_some_iff.mp isAccepted
  obtain ⟨rfl, rfl⟩ := Input.signal.inj isSignal
  have handled : design.fresh.screen (.key event) = .ok event :=
    screen_eq_ok_iff.mpr ⟨rfl, isPassed⟩
  exact absurd (refused.symm.trans handled) (by simp)

variable (design) in
/-- The key events that are accepted in the course of some inputs, with their moments. -/
def accepted (inputs : List Input) : List (KeyEvent × Nat) :=
  inputs.filterMap design.accepted?

theorem accepted_concat (inputs : List Input) (input : Input) :
    design.accepted (inputs ++ [input]) =
      design.accepted inputs ++ (design.accepted? input).toList := by
  rw [accepted, List.filterMap_append]
  cases found : design.accepted? input <;> simp [accepted, found]

/-- A responder that is not detached hears the key events that its settings accept. -/
theorem hears?_during {phase : Phase} (isAttached : phase.isDetached = false) (input : Input) :
    (design.during phase).hears? input =
      (design.accepted? input).map fun (event, now) =>
        ⟨event, now, design.verdict (phase.settle design.settings.timeout now) event⟩ := by
  cases input with
  | poll now => rfl
  | signal signal now =>
      rw [hears?, screen_during]
      cases screened : design.fresh.screen signal with
      | error reason => rw [accepted?_of_refused screened, Option.map_none]
      | ok event =>
          rw [accepted?_of_handled screened, Option.map_some]
          obtain ⟨polled, -⟩ := design.poll_during phase now
          have judged : ((design.during (phase.settle design.settings.timeout now)).matcher.step
              (event.stroke design.settings.tracked)).2 =
              design.verdict (phase.settle design.settings.timeout now) event :=
            congrArg Prod.snd (Matcher.step_holding ..)
          simp only [polled, detached_during, Phase.isDetached_settle, isAttached, tracked_during,
            judged, Bool.false_eq_true, if_false]

/-- **What an input may be to a responder that is not detached**: a poll, a signal that
is not accepted, or a key event that is. -/
theorem input_cases {phase : Phase} (isAttached : phase.isDetached = false) (input : Input) :
    (∃ now, input = .poll now ∧ design.accepted? input = none ∧
      design.phaseAfter phase input = phase.settle design.settings.timeout now ∧
      design.callsIn phase input = phase.due design.settings.timeout now) ∨
    (∃ signal now, input = .signal signal now ∧ design.accepted? input = none ∧
      design.phaseAfter phase input = phase ∧ design.callsIn phase input = []) ∨
    ∃ signal now event, input = .signal signal now ∧
      design.accepted? input = some (event, now) ∧
      design.phaseAfter phase input =
        design.take (phase.settle design.settings.timeout now) event now ∧
      design.callsIn phase input = phase.due design.settings.timeout now ++
        design.atOnce (phase.settle design.settings.timeout now) event := by
  cases input with
  | poll now => exact .inl ⟨now, rfl, rfl, rfl, rfl⟩
  | signal signal now =>
      rw [phaseAfter, callsIn]
      cases screened : design.fresh.screen signal with
      | error reason =>
          exact .inr (.inl ⟨signal, now, rfl, accepted?_of_refused screened now, rfl, rfl⟩)
      | ok event =>
          simp only [isAttached, Bool.false_eq_true, if_false]
          exact .inr (.inr
            ⟨signal, now, event, rfl, accepted?_of_handled screened now, rfl, rfl⟩)

/-! ## Runs -/

variable (design) in
/-- The phase that a new responder reaches by some inputs. -/
def reached (inputs : List Input) : Phase :=
  inputs.foldl design.phaseAfter .resting

theorem reached_concat (inputs : List Input) (input : Input) :
    design.reached (inputs ++ [input]) = design.phaseAfter (design.reached inputs) input := by
  simp only [reached, List.foldl_append, List.foldl_cons, List.foldl_nil]

theorem after_during (phase : Phase) (inputs : List Input) :
    (design.during phase).after inputs = design.during (inputs.foldl design.phaseAfter phase) := by
  induction inputs generalizing phase with
  | nil => rfl
  | cons input inputs hypothesis =>
      rw [after_cons, (design.respond_during phase input).1, hypothesis, List.foldl_cons]

variable (design) in
theorem after_fresh (inputs : List Input) :
    design.fresh.after inputs = design.during (design.reached inputs) := by
  rw [fresh_eq_during, after_during, reached]

/-- No input detaches a responder. -/
theorem isDetached_phaseAfter {phase : Phase} (isAttached : phase.isDetached = false)
    (input : Input) : (design.phaseAfter phase input).isDetached = false := by
  rcases design.input_cases isAttached input with
    ⟨now, -, -, next, -⟩ | ⟨signal, now, -, -, next, -⟩ | ⟨signal, now, event, -, -, next, -⟩
  · rw [next, Phase.isDetached_settle, isAttached]
  · rw [next, isAttached]
  · rw [next, isDetached_take]

variable (design) in
theorem isDetached_reached (inputs : List Input) : (design.reached inputs).isDetached = false := by
  induction inputs using List.reverseRecOn with
  | nil => rfl
  | append_singleton inputs input hypothesis =>
      rw [reached_concat]
      exact isDetached_phaseAfter hypothesis input

variable (design)

/-- The turn in which a responder is given an input after others. -/
def turnAfter (earlier : List Input) (input : Input) : Turn α :=
  (design.fresh.after earlier).turn input

theorem turns_concat (earlier : List Input) (input : Input) :
    design.fresh.turns (earlier ++ [input]) =
      design.fresh.turns earlier ++ [design.turnAfter earlier input] :=
  turns_append ..

/-- What is heard in a turn, and the callbacks that run, told by the phase before. -/
theorem turnAfter_eq (earlier : List Input) (input : Input) :
    let phase := design.reached earlier
    design.turnAfter earlier input =
      { input
        heard := (design.accepted? input).map fun (event, now) =>
          ⟨event, now, design.verdict (phase.settle design.settings.timeout now) event⟩
        fired := (design.callsIn phase input).flatMap design.run } := by
  intro phase
  rw [turnAfter, after_fresh, turn, hears?_during (design.isDetached_reached earlier),
    (design.respond_during _ input).2]

end Design

end Responder

end Keystrokes
