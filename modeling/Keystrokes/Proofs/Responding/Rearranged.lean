import Keystrokes.Proofs.Matching.Rearranged
import Keystrokes.Proofs.Responding.InStep
import Keystrokes.Proofs.Responding.Unnoticed

/-!
# Entries in another order

The order in which entries are registered only orders.  When it is changed, matchers keep the
same trails, and responders run the same callbacks with the same events on the same commands.
What does change is the order among callbacks that run for one event, since these run in
ascending order of their numbers (`registration_only_orders`).

A responder keeps numbers while it waits, so the relation between the two responders is one
between their phases (`Phase.Rearranges`): both rest, both are detached, or both wait with the
same trail for the same shortcuts.  Every command keeps it (`Phase.Rearranges.phaseOn`), and
the callbacks of a command come in two batches, those that are due and those that run at once
(`Phase.Rearranges.callsOn`).
-/

set_option autoImplicit false

namespace Keystrokes

variable {number : Equiv.Perm Nat}

/-! ## Matchers -/

namespace Matcher

/-- What is seen of a matcher with its shortcuts in another order: the same trail, and the
verdict on them in that order. -/
structure Answer.Rearranges (number : Equiv.Perm Nat) (answer arranged : Answer) : Prop where
  verdict : Option.Rel (Verdict.Rearranges number) answer.verdict arranged.verdict
  trail : arranged.trail = answer.trail

/-- **A matcher of either kind answers alike in every order**, but for the numbers. -/
theorem rearranges_answers {shortcuts arranged : List Shortcut}
    (isRearranged : IsRearranged number shortcuts arranged) (kind : MatcherKind)
    (tracked : Modifiers) (trail : Trail) (demands : List Demand) :
    List.Forall₂ (Answer.Rearranges number) ((holding kind shortcuts tracked trail).answers demands)
      ((holding kind arranged tracked trail).answers demands) := by
  induction demands generalizing trail with
  | nil => exact .nil
  | cons demand later hypothesis =>
      cases demand with
      | step stroke =>
          have sameTrail : trail.next arranged tracked stroke = trail.next shortcuts tracked stroke :=
            trail.next_of_same_members (fun _ => isRearranged.mem_iff) stroke
          simp only [answers, comply, step_holding, Prod.map, id, trail_holding, sameTrail]
          exact .cons ⟨.some (rearranges_verdictOn isRearranged _), rfl⟩ (hypothesis _)
      | restart =>
          simp only [answers, comply, restart_holding, trail_holding]
          exact .cons ⟨.none, rfl⟩ (hypothesis _)

end Matcher

/-! ## Batches of callbacks -/

variable {α : Type}

/-- A callback that ran, with the new number of its shortcut. -/
def Firing.moved (number : Equiv.Perm Nat) (firing : Firing α) : Firing α :=
  { firing with shortcut := number firing.shortcut }

/-- Callbacks that run for one event run in another order: the same ones, in ascending order
of their new numbers. -/
structure Firing.Rearranges (number : Equiv.Perm Nat) (batch arranged : List (Firing α)) :
    Prop where
  same : arranged.Perm (batch.map (Firing.moved number))
  ascending : (arranged.map Firing.shortcut).Pairwise (· < ·)
  oneEvent : ∃ event, ∀ firing ∈ batch, firing.event = event

theorem Firing.rearranges_nil : Firing.Rearranges number ([] : List (Firing α)) [] :=
  ⟨.nil, .nil, ⟨{ key := "", code := "" }, by simp⟩⟩

/-- Callbacks come in batches, and each batch runs in another order. -/
def Firing.InBatches (number : Equiv.Perm Nat) (fired arranged : List (Firing α)) : Prop :=
  ∃ batches arrangedBatches, fired = batches.flatten ∧ arranged = arrangedBatches.flatten ∧
    List.Forall₂ (Firing.Rearranges number) batches arrangedBatches

namespace Firing.InBatches

theorem nothing : InBatches number ([] : List (Firing α)) [] :=
  ⟨[], [], rfl, rfl, .nil⟩

theorem single {batch arranged : List (Firing α)}
    (rearranges : Firing.Rearranges number batch arranged) : InBatches number batch arranged :=
  ⟨[batch], [arranged], by simp, by simp, .cons rearranges .nil⟩

theorem append {first second arrangedFirst arrangedSecond : List (Firing α)}
    (before : InBatches number first arrangedFirst)
    (after : InBatches number second arrangedSecond) :
    InBatches number (first ++ second) (arrangedFirst ++ arrangedSecond) := by
  obtain ⟨batches, arranged, rfl, rfl, same⟩ := before
  obtain ⟨more, arrangedMore, rfl, rfl, sameMore⟩ := after
  exact ⟨batches ++ more, arranged ++ arrangedMore, List.flatten_append.symm,
    List.flatten_append.symm, List.rel_append same sameMore⟩

end Firing.InBatches

namespace Responder

namespace Design

variable {design : Design α} {arranged : List (Bound α)}

theorem mem_run {call : Call} {firing : Firing α} (runs : firing ∈ design.run call) :
    firing.shortcut = call.shortcut ∧ firing.event = call.event := by
  obtain ⟨entry, -, rfl⟩ := List.mem_map.mp runs
  exact ⟨rfl, rfl⟩

/-- A call runs at most one callback. -/
theorem pairwise_run (call : Call) (related : Firing α → Firing α → Prop) :
    (design.run call).Pairwise related := by
  rw [run]
  cases design.bound[call.shortcut]? <;> simp

/-- The callback of a shortcut is found at its new number. -/
theorem run_moved (isRearranged : IsRearranged number design.bound arranged) (shortcut : Nat)
    (event : KeyEvent) :
    (design.withEntries arranged).run ⟨number shortcut, event⟩ =
      (design.run ⟨shortcut, event⟩).map (Firing.moved number) := by
  have sameEntry : (design.withEntries arranged).bound[number shortcut]? =
      design.bound[shortcut]? := isRearranged shortcut
  rw [run, run, sameEntry, List.map_map]
  rfl

/-- **The callbacks of some shortcuts for one event**, told with their new numbers. -/
theorem rearranges_run (isRearranged : IsRearranged number design.bound arranged)
    {matched moved : List Nat} (same : moved.Perm (matched.map number))
    (ascending : moved.Pairwise (· < ·)) (event : KeyEvent) :
    Firing.Rearranges number
      ((matched.map fun shortcut => (⟨shortcut, event⟩ : Call)).flatMap design.run)
      ((moved.map fun shortcut => (⟨shortcut, event⟩ : Call)).flatMap
        (design.withEntries arranged).run) where
  same := by
    rw [List.flatMap_map, List.flatMap_map, List.map_flatMap]
    refine (same.flatMap_right _).trans (.of_eq ?_)
    rw [List.flatMap_map]
    exact List.flatMap_congr fun shortcut _ => run_moved isRearranged shortcut event
  ascending := by
    rw [List.flatMap_map, List.pairwise_map, List.pairwise_flatMap]
    refine ⟨fun shortcut _ => pairwise_run .., ascending.imp fun before => ?_⟩
    intro first runsFirst second runsSecond
    rwa [(mem_run runsFirst).1, (mem_run runsSecond).1]
  oneEvent := by
    refine ⟨event, fun firing runs => ?_⟩
    obtain ⟨call, isCall, runs⟩ := List.mem_flatMap.mp runs
    obtain ⟨shortcut, -, rfl⟩ := List.mem_map.mp isCall
    exact (mem_run runs).2

end Design

/-! ## Phases -/

/-- Two responders wait for the same shortcuts, which one of them knows by their new
numbers. -/
structure Wait.Rearranges (number : Equiv.Perm Nat) (wait arranged : Wait) : Prop where
  event : arranged.event = wait.event
  since : arranged.since = wait.since
  trail : arranged.trail = wait.trail
  matched : arranged.matched.Perm (wait.matched.map number)
  ascending : arranged.matched.Pairwise (· < ·)

/-- Two responders, one of which knows the shortcuts by their new numbers, do the same. -/
inductive Phase.Rearranges (number : Equiv.Perm Nat) : Phase → Phase → Prop where
  | resting : Rearranges number .resting .resting
  | waiting {wait arranged : Wait} :
      wait.Rearranges number arranged → Rearranges number (.waiting wait) (.waiting arranged)
  | detached : Rearranges number .detached .detached

namespace Phase.Rearranges

variable {design : Design α} {bound : List (Bound α)} {phase arranged : Phase}

theorem trail_eq (alike : phase.Rearranges number arranged) : arranged.trail = phase.trail := by
  cases alike with
  | resting => rfl
  | waiting alike => exact alike.trail
  | detached => rfl

theorem isDetached_eq (alike : phase.Rearranges number arranged) :
    arranged.isDetached = phase.isDetached := by
  cases alike <;> rfl

theorem earliest_eq (alike : phase.Rearranges number arranged) (timeout : Nat) :
    (arranged.agenda timeout).earliest = (phase.agenda timeout).earliest := by
  cases alike with
  | resting => rfl
  | waiting alike =>
      rw [agenda, agenda, Wait.earliest_agenda, Wait.earliest_agenda, Wait.deadline,
        Wait.deadline, alike.since]
  | detached => rfl

theorem isEmpty_agenda_eq (alike : phase.Rearranges number arranged) (timeout : Nat) :
    (arranged.agenda timeout).isEmpty = (phase.agenda timeout).isEmpty := by
  cases alike with
  | resting => rfl
  | waiting alike => simp [agenda, Wait.agenda, Agenda.isEmpty]
  | detached => rfl

/-- A poll ends both waits, or neither. -/
theorem settle (alike : phase.Rearranges number arranged) (timeout now : Nat) :
    (phase.settle timeout now).Rearranges number (arranged.settle timeout now) := by
  cases alike with
  | resting => exact .resting
  | @waiting wait arranged alike =>
      have sameDeadline : arranged.deadline timeout = wait.deadline timeout := by
        rw [Wait.deadline, Wait.deadline, alike.since]
      rw [Phase.settle, Phase.settle, sameDeadline]
      split
      · exact .resting
      · exact .waiting alike
  | detached => exact .detached

/-- The callbacks that are due in a poll. -/
theorem due (alike : phase.Rearranges number arranged)
    (isRearranged : IsRearranged number design.bound bound) (timeout now : Nat) :
    Firing.Rearranges number ((phase.due timeout now).flatMap design.run)
      ((arranged.due timeout now).flatMap (design.withEntries bound).run) := by
  cases alike with
  | resting => exact Firing.rearranges_nil
  | @waiting wait arranged alike =>
      have sameDeadline : arranged.deadline timeout = wait.deadline timeout := by
        rw [Wait.deadline, Wait.deadline, alike.since]
      rw [Phase.due, Phase.due, sameDeadline]
      split
      · rw [Wait.calls, Wait.calls, alike.event]
        exact Design.rearranges_run isRearranged alike.matched alike.ascending wait.event
      · exact Firing.rearranges_nil
  | detached => exact Firing.rearranges_nil

/-- The verdict on a key event. -/
theorem verdict (alike : phase.Rearranges number arranged)
    (isRearranged : IsRearranged number design.bound bound) (event : KeyEvent) :
    Verdict.Rearranges number (design.verdict phase event)
      ((design.withEntries bound).verdict arranged event) := by
  rw [Design.verdict, Design.verdict, alike.trail_eq]
  exact rearranges_verdictOn (isRearranged.map Bound.shortcut) _

/-- **A key event begins both waits, or leaves both responders at rest.** -/
theorem take (alike : phase.Rearranges number arranged)
    (isRearranged : IsRearranged number design.bound bound) (event : KeyEvent) (now : Nat) :
    (design.take phase event now).Rearranges number
      ((design.withEntries bound).take arranged event now) := by
  have judged := alike.verdict isRearranged event
  have sameTrail : arranged.trail.next (bound.map Bound.shortcut) design.tracked
        (event.stroke design.settings.tracked) =
      phase.trail.next design.shortcuts design.tracked (event.stroke design.settings.tracked) := by
    rw [alike.trail_eq]
    exact phase.trail.next_of_same_members
      (fun _ => (isRearranged.map Bound.shortcut).mem_iff) _
  rw [Design.take, Design.take, judged.possible]
  split
  · exact .waiting ⟨rfl, rfl, sameTrail, judged.matched, judged.ascending⟩
  · exact .resting

/-- The callbacks that run at once on a key event. -/
theorem atOnce (alike : phase.Rearranges number arranged)
    (isRearranged : IsRearranged number design.bound bound) (event : KeyEvent) :
    Firing.Rearranges number ((design.atOnce phase event).flatMap design.run)
      (((design.withEntries bound).atOnce arranged event).flatMap
        (design.withEntries bound).run) := by
  have judged := alike.verdict isRearranged event
  rw [Design.atOnce, Design.atOnce, judged.possible]
  split
  · exact Firing.rearranges_nil
  · exact Design.rearranges_run isRearranged judged.matched judged.ascending event

/-! ## Commands -/

/-- **Every command leaves both responders doing the same.** -/
theorem phaseOn (alike : phase.Rearranges number arranged)
    (isRearranged : IsRearranged number design.bound bound) (command : Command) :
    (design.phaseOn phase command).Rearranges number
      ((design.withEntries bound).phaseOn arranged command) := by
  cases command with
  | give input =>
      cases input with
      | poll now => exact alike.settle design.settings.timeout now
      | signal signal now =>
          rw [Design.phaseOn, Design.phaseOn, Design.phaseAfter, Design.phaseAfter,
            alike.isDetached_eq]
          have sameScreen : (design.withEntries bound).fresh.screen signal =
              design.fresh.screen signal := rfl
          rw [sameScreen]
          cases design.fresh.screen signal with
          | error reason => exact alike
          | ok event =>
              dsimp only
              split
              · exact alike
              · exact (alike.settle design.settings.timeout now).take isRearranged event now
  | abandon => cases alike <;> constructor
  | detach => exact .detached

/-- **The callbacks of a command**: those that are due, then those that run at once. -/
theorem callsOn (alike : phase.Rearranges number arranged)
    (isRearranged : IsRearranged number design.bound bound) (command : Command) :
    Firing.InBatches number ((design.callsOn phase command).flatMap design.run)
      (((design.withEntries bound).callsOn arranged command).flatMap
        (design.withEntries bound).run) := by
  cases command with
  | give input =>
      cases input with
      | poll now => exact .single (alike.due isRearranged design.settings.timeout now)
      | signal signal now =>
          rw [Design.callsOn, Design.callsOn, Design.callsIn, Design.callsIn, alike.isDetached_eq]
          have sameScreen : (design.withEntries bound).fresh.screen signal =
              design.fresh.screen signal := rfl
          rw [sameScreen]
          cases design.fresh.screen signal with
          | error reason => exact .nothing
          | ok event =>
              dsimp only
              split
              · exact .nothing
              · have settled := alike.settle design.settings.timeout now
                rw [List.flatMap_append, List.flatMap_append]
                exact (Firing.InBatches.single (alike.due isRearranged _ now)).append
                  (.single (settled.atOnce isRearranged event))
  | abandon => exact .nothing
  | detach => exact .nothing

end Phase.Rearranges

/-! ## What a host sees -/

/-- What a host sees of a responder with its entries in another order: the same callbacks run
with the same events, and only the order among those that run for one event is another. -/
structure Showing.Rearranges (number : Equiv.Perm Nat) (showing arranged : Showing α) : Prop where
  fired : Firing.InBatches number showing.fired arranged.fired
  typed : arranged.typed = showing.typed
  deadline : arranged.deadline = showing.deadline
  atRest : arranged.atRest = showing.atRest

/-- **What a host sees in the course of some commands is the same in every order**, but for
the order among callbacks that run for one event. -/
theorem rearranges_showingsFrom {design : Design α} {bound : List (Bound α)}
    (isRearranged : IsRearranged number design.bound bound) {phase arranged : Phase}
    (alike : phase.Rearranges number arranged) (commands : List Command) :
    List.Forall₂ (Showing.Rearranges number) (design.showingsFrom phase commands)
      ((design.withEntries bound).showingsFrom arranged commands) := by
  induction commands generalizing phase arranged with
  | nil => exact .nil
  | cons command later hypothesis =>
      have next := alike.phaseOn isRearranged command
      refine .cons ⟨alike.callsOn isRearranged command, ?_, ?_, ?_⟩ (hypothesis next)
      · exact congrArg Trail.strokes next.trail_eq
      · exact next.earliest_eq design.settings.timeout
      · exact congrArg₂ and (congrArg (fun trail => trail.strokes.isEmpty) next.trail_eq)
          (next.isEmpty_agenda_eq design.settings.timeout)

end Responder

open Responder in
/-- **Registration only orders.**  For every list of shortcuts and every order of it, a matcher
of either kind keeps the same trail under every sequence of demands, and finds the same
shortcuts typed in full, in ascending order of their new numbers.  For every list of entries
and every order of it, the responders made from them run the same callbacks with the same
events on the same commands; only among callbacks that run for one event does the order
differ. -/
theorem registration_only_orders :
    (∀ (kind : MatcherKind) (shortcuts : List Shortcut)
      (order : Equiv.Perm (Fin shortcuts.length)) (tracked : Modifiers)
      (demands : List Matcher.Demand),
      List.Forall₂ (Matcher.Answer.Rearranges (newNumber order))
        ((Matcher.ofKind kind shortcuts tracked).answers demands)
        ((Matcher.ofKind kind (rearranged shortcuts order) tracked).answers demands)) ∧
    ∀ (α : Type) (design : Design α) (order : Equiv.Perm (Fin design.bound.length))
      (commands : List Command),
      List.Forall₂ (Showing.Rearranges (newNumber order)) (design.fresh.showings commands)
        ((design.withEntries (rearranged design.bound order)).fresh.showings commands) := by
  constructor
  · intro kind shortcuts order tracked demands
    rw [Matcher.ofKind_eq_holding, Matcher.ofKind_eq_holding]
    exact Matcher.rearranges_answers (isRearranged_rearranged shortcuts order) kind tracked _ demands
  · intro α design order commands
    rw [Design.fresh_eq_during, Design.fresh_eq_during, Design.showings_during,
      Design.showings_during]
    exact rearranges_showingsFrom (isRearranged_rearranged design.bound order) .resting commands

end Keystrokes
