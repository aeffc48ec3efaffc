import Keystrokes.Proofs.Responding.Agreement

/-!
# How often a host polls

A host may poll a responder as often as it likes.  As long as its clock does not run
backwards and its last poll stays the last, more polls in between change neither the
callbacks that run nor the responder in the end (`polls_do_not_matter`).  A poll after
the last one does matter: it may run what would otherwise wait (`late_poll_matters`).

The reason is that a poll at a later moment does what an earlier one would have done
(`Phase.settle_settle`, `Phase.due_settle`), that a key event which is accepted polls
first, and that one which is not does nothing.  So a poll may be put in front of
everything that comes later, if a poll comes in the end (`Design.over_poll_first`).
-/

set_option autoImplicit false

namespace Keystrokes

namespace Responder

/-! ## More polls -/

/-- One list of inputs is another with polls put in between. -/
inductive MorePolls : List Input → List Input → Prop where
  | nil : MorePolls [] []
  | same {inputs more : List Input} (input : Input) :
      MorePolls inputs more → MorePolls (input :: inputs) (input :: more)
  | poll {inputs more : List Input} (now : Nat) :
      MorePolls inputs more → MorePolls inputs (.poll now :: more)

theorem MorePolls.sublist {inputs more : List Input} (isMore : MorePolls inputs more) :
    inputs.Sublist more := by
  induction isMore with
  | nil => exact .slnil
  | same input _ hypothesis => exact hypothesis.cons_cons input
  | poll now _ hypothesis => exact hypothesis.cons (.poll now)

/-- The clock does not run backwards. -/
def Onward (inputs : List Input) : Prop :=
  (inputs.map Input.now).Pairwise (· ≤ ·)

theorem onward_cons_iff {input : Input} {later : List Input} :
    Onward (input :: later) ↔ (∀ next ∈ later, input.now ≤ next.now) ∧ Onward later := by
  simp [Onward]

/-! ## Outcomes -/

/-- What comes of a run: the callbacks that have run, in their order, and the responder
in the end. -/
structure Outcome (α : Type) where
  fired : List (Firing α)
  last : Responder α

/-- What comes of giving some inputs to a responder. -/
def outcome {α : Type} (responder : Responder α) (inputs : List Input) : Outcome α where
  fired := (responder.turns inputs).flatMap Turn.fired
  last := responder.after inputs

/-! ## Earlier and later polls -/

namespace Phase

theorem eq_detached {phase : Phase} (isDetached : phase.isDetached = true) : phase = .detached := by
  cases phase with
  | resting => exact absurd isDetached (by simp [Phase.isDetached])
  | waiting wait => exact absurd isDetached (by simp [Phase.isDetached])
  | detached => rfl

variable {now later : Nat}

/-- **A later poll ends the waits that an earlier one ends.** -/
theorem settle_settle (timeout : Nat) (inOrder : now ≤ later) (phase : Phase) :
    (phase.settle timeout now).settle timeout later = phase.settle timeout later := by
  cases phase with
  | resting => rfl
  | detached => rfl
  | waiting wait =>
      by_cases isOver : wait.deadline timeout ≤ now
      · have isOverLater : wait.deadline timeout ≤ later := Nat.le_trans isOver inOrder
        simp only [settle, isOver, isOverLater, if_true]
      · simp only [settle, isOver, if_false]

/-- **The calls that an earlier poll runs are not run by a later one again.** -/
theorem due_settle (timeout : Nat) (inOrder : now ≤ later) (phase : Phase) :
    phase.due timeout now ++ (phase.settle timeout now).due timeout later =
      phase.due timeout later := by
  cases phase with
  | resting => rfl
  | detached => rfl
  | waiting wait =>
      by_cases isOver : wait.deadline timeout ≤ now
      · have isOverLater : wait.deadline timeout ≤ later := Nat.le_trans isOver inOrder
        simp only [settle, due, isOver, isOverLater, if_true, List.append_nil]
      · simp only [settle, due, isOver, if_false, List.nil_append]

end Phase

namespace Design

variable {α : Type} {design : Design α}

variable (design) in
/-- The calls that run in the course of some inputs. -/
def callsOver (phase : Phase) : List Input → List Call
  | [] => []
  | input :: later => design.callsIn phase input ++ callsOver (design.phaseAfter phase input) later

variable (design) in
/-- The phase after some inputs. -/
def phaseOver (phase : Phase) (inputs : List Input) : Phase :=
  inputs.foldl design.phaseAfter phase

theorem outcome_during (phase : Phase) (inputs : List Input) :
    (design.during phase).outcome inputs =
      ⟨(design.callsOver phase inputs).flatMap design.run,
        design.during (design.phaseOver phase inputs)⟩ := by
  have fired : ((design.during phase).turns inputs).flatMap Turn.fired =
      (design.callsOver phase inputs).flatMap design.run := by
    induction inputs generalizing phase with
    | nil => rfl
    | cons input later hypothesis =>
        obtain ⟨next, ran⟩ := design.respond_during phase input
        rw [turns, List.flatMap_cons, next, hypothesis, callsOver, List.flatMap_append, turn, ran]
  rw [outcome, fired, after_during, phaseOver]

theorem callsIn_accepted {phase : Phase} (isAttached : phase.isDetached = false) {signal : Signal}
    {event : KeyEvent} (accepted : design.fresh.screen signal = .ok event) (now : Nat) :
    design.callsIn phase (.signal signal now) =
      phase.due design.settings.timeout now ++
        design.atOnce (phase.settle design.settings.timeout now) event := by
  simp only [callsIn, accepted, isAttached, Bool.false_eq_true, if_false]

theorem phaseAfter_accepted {phase : Phase} (isAttached : phase.isDetached = false)
    {signal : Signal} {event : KeyEvent} (accepted : design.fresh.screen signal = .ok event)
    (now : Nat) :
    design.phaseAfter phase (.signal signal now) =
      design.take (phase.settle design.settings.timeout now) event now := by
  simp only [phaseAfter, accepted, isAttached, Bool.false_eq_true, if_false]

variable (design) in
/-- An input is heeded when it is a poll or a key event that the settings accept. -/
def Heeds (input : Input) : Prop :=
  (∃ now, input = .poll now) ∨ (design.accepted? input).isSome = true

/-- An input that is not heeded does nothing. -/
theorem of_not_heeds {input : Input} (unheeded : ¬ design.Heeds input) (phase : Phase) :
    design.callsIn phase input = [] ∧ design.phaseAfter phase input = phase := by
  cases input with
  | poll now => exact absurd (.inl ⟨now, rfl⟩) unheeded
  | signal signal now =>
      cases screened : design.fresh.screen signal with
      | error reason => simp only [callsIn, phaseAfter, screened, and_self]
      | ok event =>
          have isAccepted : (design.accepted? (.signal signal now)).isSome = true := by
            rw [accepted?_of_handled screened, Option.isSome_some]
          exact absurd (.inr isAccepted) unheeded

/-- **An input that is heeded polls first**, so that an earlier poll makes no difference
to it. -/
theorem polls_first {now : Nat} {input : Input} (heeded : design.Heeds input) (phase : Phase)
    (inOrder : now ≤ input.now) :
    let settled := phase.settle design.settings.timeout now
    phase.due design.settings.timeout now ++ design.callsIn settled input =
        design.callsIn phase input ∧
      design.phaseAfter settled input = design.phaseAfter phase input := by
  intro settled
  cases input with
  | poll later => exact ⟨Phase.due_settle _ inOrder phase, Phase.settle_settle _ inOrder phase⟩
  | signal signal later =>
      have inOrder : now ≤ later := inOrder
      rcases heeded with ⟨_, isPoll⟩ | isAccepted
      · exact absurd isPoll (by simp)
      · cases screened : design.fresh.screen signal with
        | error reason =>
            rw [accepted?_of_refused screened] at isAccepted
            exact absurd isAccepted (by simp)
        | ok event =>
            cases isDetached : phase.isDetached with
            | true =>
                obtain rfl : phase = .detached := Phase.eq_detached isDetached
                exact ⟨rfl, rfl⟩
            | false =>
                have isAttached : settled.isDetached = false := by simp [settled, isDetached]
                have sameEnd : settled.settle design.settings.timeout later =
                    phase.settle design.settings.timeout later := phase.settle_settle _ inOrder
                have sameCalls := phase.due_settle design.settings.timeout inOrder
                rw [callsIn_accepted isAttached screened, callsIn_accepted isDetached screened,
                  phaseAfter_accepted isAttached screened,
                  phaseAfter_accepted isDetached screened, sameEnd, ← List.append_assoc, sameCalls]
                exact ⟨rfl, rfl⟩

/-- **A poll may be put in front of what comes later, if a poll comes in the end.** -/
theorem over_poll_first {now last : Nat} (phase : Phase) {inputs : List Input}
    (inOrder : ∀ input ∈ inputs ++ [.poll last], now ≤ input.now) :
    let settled := phase.settle design.settings.timeout now
    phase.due design.settings.timeout now ++ design.callsOver settled (inputs ++ [.poll last]) =
        design.callsOver phase (inputs ++ [.poll last]) ∧
      design.phaseOver settled (inputs ++ [.poll last]) =
        design.phaseOver phase (inputs ++ [.poll last]) := by
  intro settled
  induction inputs with
  | nil =>
      have before : now ≤ last := inOrder (.poll last) (by simp)
      have sameCalls := phase.due_settle design.settings.timeout before
      have sameEnd := phase.settle_settle design.settings.timeout before
      constructor
      · rw [List.nil_append, callsOver, callsOver, callsOver, callsOver, List.append_nil,
          List.append_nil]
        exact sameCalls
      · exact sameEnd
  | cons input later hypothesis =>
      have inOrderLater : ∀ input ∈ later ++ [.poll last], now ≤ input.now := by
        intro next isLater
        exact inOrder next (List.mem_cons_of_mem _ isLater)
      obtain ⟨laterCalls, laterEnd⟩ := hypothesis inOrderLater
      rw [List.cons_append, callsOver, callsOver, phaseOver, phaseOver, List.foldl_cons,
        List.foldl_cons]
      by_cases heeded : design.Heeds input
      · obtain ⟨sameCalls, sameEnd⟩ := design.polls_first heeded phase (inOrder input (by simp))
        rw [sameEnd, ← List.append_assoc, sameCalls]
        exact ⟨rfl, rfl⟩
      · -- What is not heeded leaves both sides to the inputs after it.
        have unheeded := design.of_not_heeds heeded
        rw [(unheeded settled).1, (unheeded settled).2, (unheeded phase).1, (unheeded phase).2,
          List.nil_append, List.nil_append]
        exact ⟨laterCalls, laterEnd⟩

/-- **More polls make no difference to a run that ends with a poll.** -/
theorem over_morePolls {inputs more : List Input} (isMore : MorePolls inputs more) {last : Nat}
    (onward : Onward (more ++ [.poll last])) (phase : Phase) :
    design.callsOver phase (more ++ [.poll last]) =
        design.callsOver phase (inputs ++ [.poll last]) ∧
      design.phaseOver phase (more ++ [.poll last]) =
        design.phaseOver phase (inputs ++ [.poll last]) := by
  induction isMore generalizing phase with
  | nil => exact ⟨rfl, rfl⟩
  | same input _ hypothesis =>
      obtain ⟨-, onwardLater⟩ := onward_cons_iff.mp onward
      obtain ⟨laterCalls, laterEnd⟩ := hypothesis onwardLater (design.phaseAfter phase input)
      rw [List.cons_append, List.cons_append, callsOver, callsOver, laterCalls]
      exact ⟨rfl, laterEnd⟩
  | @poll inputs more now isMore hypothesis =>
      obtain ⟨inOrder, onwardLater⟩ := onward_cons_iff.mp onward
      have inOrderWithout : ∀ input ∈ inputs ++ [.poll last], now ≤ input.now := by
        intro input isMember
        exact inOrder input ((isMore.sublist.append (.refl _)).subset isMember)
      obtain ⟨sameCalls, sameEnd⟩ := design.over_poll_first phase inOrderWithout
      obtain ⟨laterCalls, laterEnd⟩ :=
        hypothesis onwardLater (phase.settle design.settings.timeout now)
      constructor
      · rw [← sameCalls, ← laterCalls]
        rfl
      · rw [← sameEnd, ← laterEnd]
        rfl

end Design

/-! ## The law -/

/-- **More polls do not matter.**  A responder that has been led to where it is by any
commands is given some inputs and polled in the end, and the clock does not run
backwards meanwhile.  More polls before the last one change neither the callbacks that
run, nor their order, nor the responder in the end. -/
theorem polls_do_not_matter {α : Type} (design : Design α) (commands : List Command)
    {inputs more : List Input} (last : Nat) (isMore : MorePolls inputs more)
    (onward : Onward (more ++ [.poll last])) :
    (design.fresh.led commands).outcome (more ++ [.poll last]) =
      (design.fresh.led commands).outcome (inputs ++ [.poll last]) := by
  obtain ⟨sameCalls, sameEnd⟩ := design.over_morePolls isMore onward (design.phaseLed commands)
  rw [design.led_fresh, design.outcome_during, design.outcome_during, sameCalls, sameEnd]

/-- A shortcut that another one goes on from. -/
def growingShortcuts : Design Unit where
  kind := .list
  tracked := Modifiers.all
  bound := [⟨⟨⟨{}, "g"⟩, []⟩, "g", ()⟩, ⟨⟨⟨{}, "g"⟩, [⟨{}, "g"⟩]⟩, "g g", ()⟩]
  settings := {}

/-- The shorter of two shortcuts is polled for often while it could still grow, and after
that.  It runs once. -/
theorem polls_do_not_matter_to_shorter_shortcut :
    let key : Input := .signal (.key { key := "g", code := "KeyG" }) 0
    let inputs := [key]
    let more := [.poll 0, key, .poll 500, .poll 1000, .poll 3000]
    MorePolls inputs more ∧ Onward (more ++ [.poll 3000]) ∧
      (growingShortcuts.fresh.led []).outcome (more ++ [.poll 3000]) =
        (growingShortcuts.fresh.led []).outcome (inputs ++ [.poll 3000]) := by
  intro key inputs more
  have isMore : MorePolls inputs more :=
    .poll 0 (.same key (.poll 500 (.poll 1000 (.poll 3000 .nil))))
  have onward : Onward (more ++ [.poll 3000]) := by
    simp [Onward, more, key, Input.now]
  exact ⟨isMore, onward, polls_do_not_matter growingShortcuts [] 3000 isMore onward⟩

/-- **A poll after the last one matters.**  The shorter of two shortcuts still waits at the
last poll, and a later poll runs its callback. -/
theorem late_poll_matters :
    ¬ ∀ (design : Design Unit) (inputs more : List Input) (last : Nat),
      MorePolls inputs more → Onward more → inputs.getLast? = some (.poll last) →
        design.fresh.outcome more = design.fresh.outcome inputs := by
  intro unchanged
  let key : Input := .signal (.key { key := "g", code := "KeyG" }) 0
  have isMore : MorePolls [key, .poll 10] [key, .poll 10, .poll 2000] :=
    .same key (.same (.poll 10) (.poll 2000 .nil))
  have onward : Onward [key, .poll 10, .poll 2000] := by
    simp [Onward, key, Input.now]
  have same := unchanged growingShortcuts _ _ 10 isMore onward rfl
  have sameNumber : (growingShortcuts.fresh.outcome [key, .poll 10, .poll 2000]).fired.length =
      (growingShortcuts.fresh.outcome [key, .poll 10]).fired.length := by rw [same]
  have once : (growingShortcuts.fresh.outcome [key, .poll 10, .poll 2000]).fired.length = 1 := by
    decide +kernel
  have never : (growingShortcuts.fresh.outcome [key, .poll 10]).fired.length = 0 := by
    decide +kernel
  exact absurd (never.symm.trans (sameNumber.symm.trans once)) (by decide)

end Responder

end Keystrokes
