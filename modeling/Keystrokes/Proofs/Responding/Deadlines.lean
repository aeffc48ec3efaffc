import Keystrokes.Responding.Responder
import Mathlib.Data.List.Basic
import Mathlib.Data.List.Induction

/-!
# Deadlines

What waits in an agenda can be told from what has been done to it: the calls that have been
postponed since, and the end of the pause, unless something has taken them out again
(`postponed_after`, `pauseEnd_after`).

At any moment an agenda gives out what is due and keeps the rest, each in its order.  This is
nothing, and the agenda stays as it is, exactly when its earliest deadline has not come yet,
and afterwards that is so (`Agenda.collects_due`).  A responder that is polled does the same
(`Responder.poll_of_notYet` and `Responder.notYet_poll`).
-/

set_option autoImplicit false

namespace Keystrokes

/-- A deadline has not come yet: there is none, or it is still ahead. -/
def NotYet (now : Nat) (deadline : Option Nat) : Prop :=
  ∀ moment, deadline = some moment → now < moment

theorem notYet_none (now : Nat) : NotYet now none := by
  intro moment isNone
  exact absurd isNone (by simp)

/-- The earliest of some deadlines has not come yet when none of them has. -/
theorem notYet_min_iff {now : Nat} {moments : List Nat} :
    NotYet now moments.min? ↔ ∀ moment ∈ moments, now < moment := by
  constructor
  · intro notYet moment isMember
    cases found : moments.min? with
    | none =>
        rw [List.min?_eq_none_iff.mp found] at isMember
        exact absurd isMember List.not_mem_nil
    | some earliest =>
        have isLeast := (List.min?_eq_some_iff.mp found).2 moment isMember
        exact Nat.lt_of_lt_of_le (notYet earliest found) isLeast
  · intro ahead earliest found
    exact ahead earliest (List.min?_eq_some_iff.mp found).1

namespace Agenda

/-! ## What waits -/

/-- What may be done to an agenda. -/
inductive Change where
  | postpone (call : Call) (deadline : Nat)
  | endPauseAt (deadline : Nat)
  | giveUp
  | collect (now : Nat)
  deriving DecidableEq

/-- The agenda after a change. -/
def change (agenda : Agenda) : Change → Agenda
  | .postpone call deadline => agenda.postpone call deadline
  | .endPauseAt deadline => agenda.endPauseAt deadline
  | .giveUp => empty
  | .collect now => (agenda.collect now).2

/-- The agenda after some changes; at first there is nothing to do. -/
def after (changes : List Change) : Agenda :=
  changes.foldl change empty

namespace Change

/-- Whether a change takes out what waits for a deadline. -/
def takesOut (deadline : Nat) : Change → Bool
  | .giveUp => true
  | .collect now => deadline ≤ now
  | _ => false

/-- Whether a change sets the end of the pause. -/
def setsPauseEnd : Change → Bool
  | .endPauseAt _ => true
  | _ => false

/-- The calls that have been postponed and that nothing later takes out, the oldest first. -/
def waiting : List Change → List PostponedCall
  | [] => []
  | .postpone call deadline :: later =>
      if later.any (takesOut deadline) then waiting later
      else ⟨call, deadline⟩ :: waiting later
  | _ :: later => waiting later

/-- The end of the pause that has been set and that nothing later sets anew or takes out. -/
def waitingPauseEnd : List Change → Option Nat
  | [] => none
  | .endPauseAt deadline :: later =>
      if later.any fun change => change.setsPauseEnd || change.takesOut deadline then
        waitingPauseEnd later
      else some deadline
  | _ :: later => waitingPauseEnd later

/-- The call that a change postpones. -/
def postponed : Change → List PostponedCall
  | .postpone call deadline => [⟨call, deadline⟩]
  | _ => []

/-- One more change takes some calls out, and postpones one or none. -/
theorem waiting_concat (changes : List Change) (last : Change) :
    waiting (changes ++ [last]) =
      (waiting changes).filter (fun call => !last.takesOut call.deadline) ++ last.postponed := by
  induction changes with
  | nil => cases last <;> rfl
  | cons first later hypothesis =>
      cases first with
      | postpone call deadline =>
          rw [List.cons_append, waiting, waiting, hypothesis, List.any_append, List.any_cons,
            List.any_nil, Bool.or_false]
          cases later.any (takesOut deadline) with
          | true => rfl
          | false => cases isOut : last.takesOut deadline <;> simp [isOut]
      | endPauseAt | giveUp | collect => exact hypothesis

/-- No end of the pause waits when none has been set. -/
theorem waitingPauseEnd_eq_none {changes : List Change}
    (unset : ∀ change ∈ changes, change.setsPauseEnd = false) : waitingPauseEnd changes = none := by
  induction changes with
  | nil => rfl
  | cons first later hypothesis =>
      have laterUnset := hypothesis fun change isLater =>
        unset change (List.mem_cons_of_mem _ isLater)
      cases first with
      | endPauseAt deadline => exact absurd (unset _ List.mem_cons_self) (by simp [setsPauseEnd])
      | postpone | giveUp | collect => exact laterUnset

/-- One more change sets the end of the pause, takes it out or leaves it. -/
theorem waitingPauseEnd_concat (changes : List Change) (last : Change) :
    waitingPauseEnd (changes ++ [last]) =
      match last with
      | .endPauseAt deadline => some deadline
      | last => (waitingPauseEnd changes).filter fun deadline => !last.takesOut deadline := by
  induction changes with
  | nil => cases last <;> rfl
  | cons first later hypothesis =>
      cases first with
      | endPauseAt deadline =>
          rw [List.cons_append, waitingPauseEnd, waitingPauseEnd, hypothesis, List.any_append,
            List.any_cons, List.any_nil, Bool.or_false]
          cases isEnded : later.any fun change => change.setsPauseEnd || change.takesOut deadline with
          | true => rfl
          | false =>
              -- Nothing after it sets the end of the pause, so this is the one that may wait.
              have unset : ∀ change ∈ later, change.setsPauseEnd = false := by
                intro change isLater
                have isNeither := List.any_eq_false.mp isEnded change isLater
                rw [Bool.not_eq_true, Bool.or_eq_false_iff] at isNeither
                exact isNeither.1
              rw [waitingPauseEnd_eq_none unset]
              cases last with
              | endPauseAt => rfl
              | postpone => rfl
              | giveUp => rfl
              | collect now =>
                  by_cases isDue : deadline ≤ now <;>
                    simp [takesOut, setsPauseEnd, Option.filter_some, isDue]
      | postpone | giveUp | collect => exact hypothesis

end Change

theorem after_concat (changes : List Change) (last : Change) :
    after (changes ++ [last]) = (after changes).change last := by
  rw [after, List.foldl_append]
  rfl

/-- **The calls that wait are those that have been postponed since**, in their order. -/
theorem postponed_after (changes : List Change) :
    (after changes).postponed = Change.waiting changes := by
  induction changes using List.reverseRecOn with
  | nil => rfl
  | append_singleton changes last hypothesis =>
      rw [after_concat, Change.waiting_concat, ← hypothesis]
      cases last with
      | postpone call deadline =>
          simp [change, postpone, Change.takesOut, Change.postponed, List.filter_true]
      | endPauseAt deadline =>
          simp [change, endPauseAt, Change.takesOut, Change.postponed, List.filter_true]
      | giveUp => simp [change, empty, Change.takesOut, Change.postponed]
      | collect now => simp [change, collect, Change.takesOut, Change.postponed]

/-- **The pause ends when it has been set to end last**, unless that has been taken out. -/
theorem pauseEnd_after (changes : List Change) :
    (after changes).pauseEnd = Change.waitingPauseEnd changes := by
  induction changes using List.reverseRecOn with
  | nil => rfl
  | append_singleton changes last hypothesis =>
      rw [after_concat, Change.waitingPauseEnd_concat, ← hypothesis]
      cases last with
      | postpone call deadline =>
          have isKept : (after changes).pauseEnd =
              (after changes).pauseEnd.filter fun _ => true := by
            cases (after changes).pauseEnd <;> rfl
          exact isKept
      | endPauseAt deadline => rfl
      | giveUp => simp [change, empty, Change.takesOut]
      | collect now =>
          cases isSet : (after changes).pauseEnd with
          | none => simp [change, collect, pauseOver, isSet]
          | some deadline =>
              by_cases isDue : deadline ≤ now <;>
                simp [change, collect, pauseOver, isSet, isDue, Change.takesOut, Option.filter_some]

/-! ## What is due -/

variable {agenda : Agenda} {now : Nat}

theorem notYet_earliest_iff : NotYet now agenda.earliest ↔
    (∀ postponed ∈ agenda.postponed, now < postponed.deadline) ∧ NotYet now agenda.pauseEnd := by
  rw [earliest, notYet_min_iff]
  simp only [List.mem_append, List.mem_map, Option.mem_toList]
  constructor
  · intro ahead
    exact ⟨fun postponed isPostponed => ahead _ (.inl ⟨postponed, isPostponed, rfl⟩),
      fun deadline isEnd => ahead deadline (.inr isEnd)⟩
  · rintro ⟨callsAhead, endAhead⟩ moment (⟨postponed, isPostponed, rfl⟩ | isEnd)
    · exact callsAhead postponed isPostponed
    · exact endAhead moment isEnd

theorem pauseOver_iff :
    agenda.pauseOver now = true ↔ ∃ deadline, agenda.pauseEnd = some deadline ∧ deadline ≤ now := by
  rw [pauseOver, Option.any_eq_true]
  simp

theorem pauseOver_eq_false_iff : agenda.pauseOver now = false ↔ NotYet now agenda.pauseEnd := by
  rw [← Bool.not_eq_true, pauseOver_iff]
  simp [NotYet]

/-- What an agenda gives out at a moment, and what it keeps. -/
structure CollectsDue (agenda : Agenda) (now : Nat) : Prop where
  calls : (agenda.collect now).1.calls =
    agenda.postponed.filter fun postponed => postponed.deadline ≤ now
  postponed : (agenda.collect now).2.postponed =
    agenda.postponed.filter fun postponed => now < postponed.deadline
  pauseOver : (agenda.collect now).1.pauseOver = true ↔
    ∃ deadline, agenda.pauseEnd = some deadline ∧ deadline ≤ now
  pauseEnd : (agenda.collect now).2.pauseEnd =
    if (agenda.collect now).1.pauseOver then none else agenda.pauseEnd
  isEmpty : (agenda.collect now).1.isEmpty = true ↔ NotYet now agenda.earliest
  same : (agenda.collect now).2 = agenda ↔ NotYet now agenda.earliest
  ahead : NotYet now (agenda.collect now).2.earliest

theorem postponed_collect : (agenda.collect now).2.postponed =
    agenda.postponed.filter fun postponed => now < postponed.deadline := by
  simp only [collect, ← decide_not, Nat.not_le]

theorem isEmpty_collect_iff :
    (agenda.collect now).1.isEmpty = true ↔ NotYet now agenda.earliest := by
  rw [Due.isEmpty, Bool.and_eq_true, Bool.not_eq_true', notYet_earliest_iff, collect,
    pauseOver_eq_false_iff, List.isEmpty_iff, List.filter_eq_nil_iff]
  simp

theorem pauseEnd_collect (agenda : Agenda) (now : Nat) :
    NotYet now (agenda.collect now).2.pauseEnd := by
  rw [collect]
  cases isOver : agenda.pauseOver now with
  | true => exact notYet_none now
  | false => exact pauseOver_eq_false_iff.mp isOver

/-- **What is kept is not due yet.** -/
theorem notYet_collect (agenda : Agenda) (now : Nat) :
    NotYet now (agenda.collect now).2.earliest := by
  rw [notYet_earliest_iff, postponed_collect]
  exact ⟨fun postponed isKept => by simpa using (List.mem_filter.mp isKept).2,
    agenda.pauseEnd_collect now⟩

/-- **An agenda stays as it is when nothing is due, and only then.** -/
theorem collect_eq_self_iff : (agenda.collect now).2 = agenda ↔ NotYet now agenda.earliest := by
  constructor
  · intro isSame
    exact isSame ▸ agenda.notYet_collect now
  · intro notYet
    obtain ⟨callsAhead, endAhead⟩ := notYet_earliest_iff.mp notYet
    have sameCalls : (agenda.collect now).2.postponed = agenda.postponed := by
      rw [postponed_collect, List.filter_eq_self]
      simpa using callsAhead
    have sameEnd : (agenda.collect now).2.pauseEnd = agenda.pauseEnd := by
      rw [collect, pauseOver_eq_false_iff.mpr endAhead]
      rfl
    cases agenda
    exact congrArg₂ Agenda.mk sameCalls sameEnd

theorem collect_of_notYet (notYet : NotYet now agenda.earliest) :
    agenda.collect now = ({}, agenda) := by
  have isEmpty := isEmpty_collect_iff.mpr notYet
  rw [Due.isEmpty, Bool.and_eq_true, List.isEmpty_iff, Bool.not_eq_true'] at isEmpty
  have nothingDue : (agenda.collect now).1 = {} := congrArg₂ Due.mk isEmpty.1 isEmpty.2
  exact Prod.ext nothingDue (collect_eq_self_iff.mpr notYet)

/-- **An agenda gives out what is due, and keeps the rest.** -/
theorem collects_due (agenda : Agenda) (now : Nat) : agenda.CollectsDue now where
  calls := rfl
  postponed := postponed_collect
  pauseOver := pauseOver_iff
  pauseEnd := rfl
  isEmpty := isEmpty_collect_iff
  same := collect_eq_self_iff
  ahead := agenda.notYet_collect now

end Agenda

/-! ## Polling a responder -/

namespace Responder

variable {α : Type} {responder : Responder α} {now : Nat}

/-- A responder that is detached has given up everything already. -/
def IsCleared (responder : Responder α) : Prop :=
  responder.detached = true → responder.abandon = (responder, [])

theorem IsCleared.abandonIfDetached (isCleared : responder.IsCleared) :
    responder.abandonIfDetached = (responder, []) := by
  rw [Responder.abandonIfDetached]
  split
  · next isDetached => exact isCleared isDetached
  · rfl

theorem isCleared_abandon (responder : Responder α) : responder.abandon.1.IsCleared := by
  intro _
  have restarted : responder.matcher.restart.restart = responder.matcher.restart := by
    cases responder.matcher <;> rfl
  rw [abandon, abandon, restarted]
  rfl

theorem isCleared_abandonIfDetached (responder : Responder α) :
    responder.abandonIfDetached.1.IsCleared := by
  rw [Responder.abandonIfDetached]
  split
  · exact responder.isCleared_abandon
  · next isAttached => exact fun isDetached => absurd isDetached isAttached

/-- A poll leaves nothing to a detached responder. -/
theorem isCleared_poll (responder : Responder α) (now : Nat) :
    (responder.poll now).1.IsCleared := by
  have concluded : ∀ (collected : Responder α) (pauseOver : Bool),
      (collected.concludePoll pauseOver).1.IsCleared := by
    intro collected pauseOver
    cases pauseOver with
    | false => exact collected.isCleared_abandonIfDetached
    | true =>
        exact isCleared_abandonIfDetached { collected with matcher := collected.matcher.restart }
  exact concluded (responder.collect now).2 (responder.collect now).1.pauseOver

/-- **Nothing happens in a poll before the earliest deadline.** -/
theorem poll_of_notYet (isCleared : responder.IsCleared) (notYet : NotYet now responder.deadline) :
    responder.poll now = (responder, []) := by
  have collected : responder.collect now = ({}, responder) := by
    rw [collect, Agenda.collect_of_notYet notYet]
  have polled : responder.poll now =
      (responder.abandonIfDetached.1, responder.abandonIfDetached.2.map .note) := by
    rw [poll, collected]
    rfl
  rw [polled, isCleared.abandonIfDetached, List.map_nil]

theorem agenda_abandonIfDetached (responder : Responder α) :
    responder.abandonIfDetached.1.agenda = responder.agenda ∨
      responder.abandonIfDetached.1.agenda = Agenda.empty := by
  rw [abandonIfDetached]
  split
  · exact .inr rfl
  · exact .inl rfl

/-- **No deadline that has come is left behind by a poll.** -/
theorem notYet_poll (responder : Responder α) (now : Nat) :
    NotYet now (responder.poll now).1.deadline := by
  let collected := (responder.collect now).2
  have concluded : ∀ pauseOver, (collected.concludePoll pauseOver).1.agenda = collected.agenda ∨
      (collected.concludePoll pauseOver).1.agenda = Agenda.empty := by
    intro pauseOver
    cases pauseOver with
    | false => exact collected.agenda_abandonIfDetached
    | true => exact agenda_abandonIfDetached { collected with matcher := collected.matcher.restart }
  rw [deadline]
  rcases concluded (responder.collect now).1.pauseOver with isKept | isEmpty
  · exact isKept ▸ responder.agenda.notYet_collect now
  · exact isEmpty ▸ notYet_none now

/-- Polling once more at the same moment does nothing. -/
theorem poll_poll (responder : Responder α) (now : Nat) :
    (responder.poll now).1.poll now = ((responder.poll now).1, []) :=
  poll_of_notYet (responder.isCleared_poll now) (responder.notYet_poll now)

end Responder

end Keystrokes
