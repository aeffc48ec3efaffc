import Keystrokes.Proofs.Responding.Phase

/-!
# When callbacks run

A key event that is heard completes some shortcuts.  If no further keystroke could
complete a shortcut, their callbacks run in the same turn.  If one could, the key
event is pending, and their callbacks run in the first later turn that reaches its
deadline, unless another key event is heard before that.  A turn reaches a deadline
when it is a poll or hears a key event, not before the deadline.

`fires_what_is_due_and_complete` says that these callbacks run, in this order, and no
others.  It holds of every turn of every run, whatever the moments of its inputs.  The
invariant is that the phase of a responder remembers the one key event that is pending
(`pending_iff`).
-/

set_option autoImplicit false

namespace Keystrokes

variable {α : Type}

/-- The call that a callback answers. -/
def Firing.call (firing : Firing α) : Call :=
  ⟨firing.shortcut, firing.event⟩

namespace Responder

/-! ## Turns in which callbacks may run -/

/-- The calls of the shortcuts that a key event completes. -/
def Hearing.calls (hearing : Hearing) : List Call :=
  hearing.verdict.matched.map fun shortcut => ⟨shortcut, hearing.event⟩

namespace Turn

/-- The calls that run in a turn because of what is heard in it. -/
def complete (turn : Turn α) : List Call :=
  match turn.heard with
  | some hearing => if hearing.verdict.possible then [] else hearing.calls
  | none => []

/-- Whether a turn is a poll or hears a key event, not before a deadline. -/
def Reaches (turn : Turn α) (deadline : Nat) : Prop :=
  match turn.input with
  | .poll now => deadline ≤ now
  | .signal _ now => turn.heard.isSome ∧ deadline ≤ now

end Turn

/-- A key event is pending at the end of some turns: it was heard in one of them, a
further keystroke could complete a shortcut, and since then nothing has been heard and
the deadline has not been reached. -/
def Pending (timeout : Nat) (turns : List (Turn α)) (hearing : Hearing) : Prop :=
  ∃ before turn since, turns = before ++ turn :: since ∧ turn.heard = some hearing ∧
    hearing.verdict.possible ∧
    ∀ later ∈ since, later.heard = none ∧ ¬ later.Reaches (hearing.time + timeout)

/-- The calls that are due in a turn after others are those of the pending key event
whose deadline the turn reaches, if there is one. -/
structure AreDue (timeout : Nat) (before : List (Turn α)) (turn : Turn α)
    (calls : List Call) : Prop where
  ripe : ∀ hearing, Pending timeout before hearing →
    turn.Reaches (hearing.time + timeout) → calls = hearing.calls
  unripe : (∀ hearing, Pending timeout before hearing →
    ¬ turn.Reaches (hearing.time + timeout)) → calls = []

theorem not_pending_nil {timeout : Nat} {hearing : Hearing} :
    ¬ Pending timeout ([] : List (Turn α)) hearing := by
  rintro ⟨before, turn, since, isRun, -⟩
  simp at isRun

/-- **A turn makes a key event pending, or leaves it so.** -/
theorem pending_concat_iff {timeout : Nat} {turns : List (Turn α)} {turn : Turn α}
    {hearing : Hearing} :
    Pending timeout (turns ++ [turn]) hearing ↔
      (turn.heard = some hearing ∧ hearing.verdict.possible) ∨
        turn.heard = none ∧ ¬ turn.Reaches (hearing.time + timeout) ∧
          Pending timeout turns hearing := by
  constructor
  · rintro ⟨before, here, since, isRun, isHeard, possible, quiet⟩
    -- The turn is the one in which the key event was heard, or the last one since then.
    rcases List.eq_nil_or_concat' since with rfl | ⟨since, last, rfl⟩
    · obtain ⟨-, same⟩ := List.append_inj' isRun rfl
      obtain rfl : turn = here := by simpa using same
      exact .inl ⟨isHeard, possible⟩
    · have split : turns ++ [turn] = (before ++ here :: since) ++ [last] := by simpa using isRun
      obtain ⟨rfl, same⟩ := List.append_inj' split rfl
      obtain rfl : turn = last := by simpa using same
      obtain ⟨notHeard, notReached⟩ := quiet turn (by simp)
      exact .inr ⟨notHeard, notReached, before, here, since, rfl, isHeard, possible,
        fun later isLater => quiet later (by simp [isLater])⟩
  · rintro (⟨isHeard, possible⟩ | ⟨notHeard, notReached, before, here, since, rfl, isHeard,
      possible, quiet⟩)
    · exact ⟨turns, turn, [], rfl, isHeard, possible, by simp⟩
    · refine ⟨before, here, since ++ [turn], by simp, isHeard, possible, fun later isLater => ?_⟩
      rcases List.mem_append.mp isLater with isLater | isLast
      · exact quiet later isLater
      · obtain rfl : later = turn := by simpa using isLast
        exact ⟨notHeard, notReached⟩

/-! ## The pending key event is remembered -/

/-- The key event that is remembered in a phase. -/
def Phase.remembered? : Phase → Option Hearing
  | .waiting wait => some ⟨wait.event, wait.since, ⟨wait.matched, true⟩⟩
  | _ => none

theorem Phase.remembered?_settle (timeout now : Nat) (phase : Phase) :
    (phase.settle timeout now).remembered? =
      phase.remembered?.filter fun hearing => !(hearing.time + timeout ≤ now) := by
  cases phase with
  | resting => rfl
  | detached => rfl
  | waiting wait =>
      by_cases isOver : wait.since + timeout ≤ now <;>
        simp [settle, remembered?, Wait.deadline, Option.filter, isOver]

/-- The calls that run in a poll are those of the key event that is remembered. -/
theorem Phase.due_eq (timeout now : Nat) (phase : Phase) :
    phase.due timeout now =
      match phase.remembered? with
      | some hearing => if hearing.time + timeout ≤ now then hearing.calls else []
      | none => [] := by
  cases phase <;> rfl

namespace Design

variable (design : Design α)

theorem remembered?_take (phase : Phase) (event : KeyEvent) (now : Nat) :
    (design.take phase event now).remembered? =
      (some ⟨event, now, design.verdict phase event⟩).filter
        fun hearing : Hearing => hearing.verdict.possible := by
  rw [Design.take]
  by_cases possible : (design.verdict phase event).possible
  · have same : (⟨(design.verdict phase event).matched, true⟩ : Verdict) =
        design.verdict phase event := by rw [← possible]
    simp [possible, Phase.remembered?, Option.filter, same]
  · simp [possible, Phase.remembered?, Option.filter]

/-- **The phase remembers the key event that is pending, and no other is.** -/
theorem pending_iff (inputs : List Input) (hearing : Hearing) :
    Pending design.settings.timeout (design.fresh.turns inputs) hearing ↔
      (design.reached inputs).remembered? = some hearing := by
  induction inputs using List.reverseRecOn generalizing hearing with
  | nil =>
      refine ⟨fun isPending => absurd isPending not_pending_nil, fun remembered => ?_⟩
      exact absurd remembered (by simp [reached, Phase.remembered?])
  | append_singleton inputs input hypothesis =>
      rw [turns_concat, pending_concat_iff, hypothesis, turnAfter_eq, reached_concat]
      rcases design.input_cases (design.isDetached_reached inputs) input with
        ⟨now, rfl, notHeard, next, -⟩ | ⟨signal, now, rfl, notHeard, next, -⟩ |
          ⟨signal, now, event, rfl, isHeard, next, -⟩
      · rw [next, notHeard, Phase.remembered?_settle, Option.filter_eq_some_iff]
        simp [Turn.Reaches, and_comm]
      · simp [next, notHeard, Turn.Reaches]
      · rw [next, isHeard, remembered?_take, Option.filter_eq_some_iff]
        simp

/-! ## The calls of a turn -/

/-- A verdict names shortcuts that exist, in ascending order. -/
structure Orderly (calls : List Call) : Prop where
  ascending : (calls.map Call.shortcut).Pairwise (· < ·)
  exist : ∀ call ∈ calls, call.shortcut < design.bound.length

theorem orderly_nil : design.Orderly [] :=
  ⟨.nil, by simp⟩

/-- The shortcuts typed in full give calls in order. -/
theorem orderly_matched (strokes : List Keystroke) (event : KeyEvent) :
    design.Orderly ((verdictOn design.shortcuts design.tracked strokes).matched.map
      fun shortcut => ⟨shortcut, event⟩) where
  ascending := by
    rw [List.map_map]
    simpa only [Function.comp_def, List.map_id'] using pairwise_matched ..
  exist := by
    intro call isCall
    obtain ⟨shortcut, isMatched, rfl⟩ := List.mem_map.mp isCall
    have isShortcut := lt_length_of_mem_matched isMatched
    rwa [shortcuts, List.length_map] at isShortcut

variable {design} in
theorem orderly_calls (phase : Phase) (hearing : Hearing)
    (isVerdict : hearing.verdict = design.verdict phase hearing.event) :
    design.Orderly hearing.calls := by
  rw [Hearing.calls, isVerdict]
  exact design.orderly_matched _ hearing.event

theorem orderly_atOnce (phase : Phase) (event : KeyEvent) :
    design.Orderly (design.atOnce phase event) := by
  rw [atOnce]
  split
  · exact design.orderly_nil
  · exact orderly_calls phase ⟨event, 0, design.verdict phase event⟩ rfl

/-- The verdict on the key event that is remembered was given in some phase. -/
theorem verdict_of_remembered {inputs : List Input} {hearing : Hearing}
    (remembered : (design.reached inputs).remembered? = some hearing) :
    ∃ phase, hearing.verdict = design.verdict phase hearing.event := by
  induction inputs using List.reverseRecOn with
  | nil => simp [reached, Phase.remembered?] at remembered
  | append_singleton inputs input hypothesis =>
      rw [reached_concat] at remembered
      rcases design.input_cases (design.isDetached_reached inputs) input with
        ⟨now, -, -, next, -⟩ | ⟨signal, now, -, -, next, -⟩ | ⟨signal, now, event, -, -, next, -⟩
      · rw [next, Phase.remembered?_settle, Option.filter_eq_some_iff] at remembered
        exact hypothesis remembered.1
      · rw [next] at remembered
        exact hypothesis remembered
      · rw [next, remembered?_take, Option.filter_eq_some_iff, Option.some.injEq] at remembered
        obtain ⟨rfl, -⟩ := remembered
        exact ⟨_, rfl⟩

theorem orderly_due (inputs : List Input) (now : Nat) :
    design.Orderly ((design.reached inputs).due design.settings.timeout now) := by
  rw [Phase.due_eq]
  cases remembered : (design.reached inputs).remembered? with
  | none => exact design.orderly_nil
  | some hearing =>
      obtain ⟨phase, isVerdict⟩ := design.verdict_of_remembered remembered
      by_cases isOver : hearing.time + design.settings.timeout ≤ now
      · simpa only [isOver, if_true] using orderly_calls phase hearing isVerdict
      · simpa only [isOver, if_false] using design.orderly_nil

/-- The calls that a poll runs are due in every turn that reaches the deadlines up to
its moment. -/
theorem areDue_due (earlier : List Input) (now : Nat) {turn : Turn α}
    (reaches : ∀ deadline, turn.Reaches deadline ↔ deadline ≤ now) :
    AreDue design.settings.timeout (design.fresh.turns earlier) turn
      ((design.reached earlier).due design.settings.timeout now) where
  ripe := by
    intro hearing isPending isReached
    have isOver := (reaches _).mp isReached
    rw [Phase.due_eq, (design.pending_iff earlier hearing).mp isPending]
    simp only [isOver, if_true]
  unripe := by
    intro notReached
    rw [Phase.due_eq]
    cases remembered : (design.reached earlier).remembered? with
    | none => rfl
    | some hearing =>
        have isPending := (design.pending_iff earlier hearing).mpr remembered
        have notOver := mt (reaches _).mpr (notReached hearing isPending)
        simp only [notOver, if_false]

/-- The calls of a turn are those that are due and those that are complete. -/
theorem exists_due (earlier : List Input) (input : Input) :
    let turn := design.turnAfter earlier input
    ∃ due, AreDue design.settings.timeout (design.fresh.turns earlier) turn due ∧
      design.callsIn (design.reached earlier) input = due ++ turn.complete ∧
      design.Orderly due ∧ design.Orderly turn.complete := by
  intro turn
  have isTurn : turn = _ := design.turnAfter_eq earlier input
  rcases design.input_cases (design.isDetached_reached earlier) input with
    ⟨now, rfl, notHeard, -, calls⟩ | ⟨signal, now, rfl, notHeard, -, calls⟩ |
      ⟨signal, now, event, rfl, isHeard, -, calls⟩
  · have isComplete : turn.complete = [] := by simp [isTurn, notHeard, Turn.complete]
    refine ⟨_, design.areDue_due earlier now ?_, ?_, design.orderly_due _ _, ?_⟩
    · simp [isTurn, Turn.Reaches]
    · rw [calls, isComplete, List.append_nil]
    · exact isComplete ▸ design.orderly_nil
  · have isComplete : turn.complete = [] := by simp [isTurn, notHeard, Turn.complete]
    refine ⟨[], ⟨?_, fun _ => rfl⟩, ?_, design.orderly_nil, ?_⟩
    · intro hearing _ isReached
      simp [isTurn, notHeard, Turn.Reaches] at isReached
    · rw [calls, isComplete, List.append_nil]
    · exact isComplete ▸ design.orderly_nil
  · have isComplete : turn.complete =
        design.atOnce ((design.reached earlier).settle design.settings.timeout now) event := by
      rw [isTurn, isHeard]
      rfl
    refine ⟨_, design.areDue_due earlier now ?_, ?_, design.orderly_due _ _, ?_⟩
    · simp [isTurn, isHeard, Turn.Reaches]
    · rw [calls, isComplete]
    · rw [isComplete]
      exact design.orderly_atOnce _ event

end Design

/-! ## The law -/

variable (design : Design α)

/-- The callback of a shortcut. -/
def Design.callback? (shortcut : Nat) : Option α :=
  design.bound[shortcut]?.map Bound.callback

theorem Design.map_flatMap_run {calls : List Call} (isOrderly : design.Orderly calls) :
    (calls.flatMap design.run).map (fun firing => (firing.call, some firing.callback)) =
      calls.map fun call => (call, design.callback? call.shortcut) := by
  have exist := isOrderly.exist
  clear isOrderly
  induction calls with
  | nil => rfl
  | cons call calls hypothesis =>
      have isShortcut := exist call (by simp)
      have later := hypothesis fun call isCall => exist call (by simp [isCall])
      simp [run, callback?, isShortcut, Firing.call] at later ⊢
      exact later

/-- **The callbacks that run are those that are due, then those that are complete.**
A run goes on with a turn on every input.  In it the responder hears the key event that
its settings accept.  It runs the callbacks of the calls that are due and then of those
that are complete, each once, in ascending order, with their events, and no others.  An
input that is neither a poll nor heard does nothing at all. -/
theorem fires_what_is_due_and_complete (earlier : List Input) (input : Input) :
    let before := design.fresh.turns earlier
    let turn := design.turnAfter earlier input
    design.fresh.turns (earlier ++ [input]) = before ++ [turn] ∧
    (turn.heard.map fun hearing => (hearing.event, hearing.time)) = design.accepted? input ∧
    (∃ due, AreDue design.settings.timeout before turn due ∧
      (turn.fired.map fun firing => (firing.call, some firing.callback)) =
        ((due ++ turn.complete).map fun call => (call, design.callback? call.shortcut)) ∧
      (due.map Call.shortcut).Pairwise (· < ·) ∧
      (turn.complete.map Call.shortcut).Pairwise (· < ·)) ∧
    ((∃ now, input = .poll now) ∨ turn.heard.isSome ∨
      turn.fired = [] ∧ design.fresh.after (earlier ++ [input]) = design.fresh.after earlier) := by
  intro before turn
  have isTurn : turn = _ := design.turnAfter_eq earlier input
  refine ⟨design.turns_concat earlier input, ?_, ?_, ?_⟩
  · rw [isTurn]
    cases design.accepted? input <;> rfl
  · obtain ⟨due, areDue, isSum, dueOrderly, completeOrderly⟩ := design.exists_due earlier input
    refine ⟨due, areDue, ?_, dueOrderly.ascending, completeOrderly.ascending⟩
    have ran : turn.fired = (design.callsIn (design.reached earlier) input).flatMap design.run :=
      congrArg Turn.fired isTurn
    rw [ran, isSum, List.flatMap_append, List.map_append, List.map_append,
      design.map_flatMap_run dueOrderly, design.map_flatMap_run completeOrderly]
  · rcases design.input_cases (design.isDetached_reached earlier) input with
      ⟨now, rfl, -, -, -⟩ | ⟨signal, now, rfl, -, next, calls⟩ |
        ⟨signal, now, event, rfl, isHeard, -, -⟩
    · exact .inl ⟨now, rfl⟩
    · refine .inr (.inr ⟨by rw [isTurn, calls, List.flatMap_nil], ?_⟩)
      rw [design.after_fresh, design.after_fresh, Design.reached_concat, next]
    · exact .inr (.inl (by rw [isTurn, isHeard]; rfl))

end Responder

end Keystrokes
