import Keystrokes.Proofs.Listening.Settled
import Keystrokes.Proofs.Listening.LeaveAlone

/-!
# Deadlines at a hub

The earliest deadline of a hub is the earliest of the responders that are registered
(`notYet_deadline_iff`).  When callbacks leave the hub alone, a poll polls each of these
responders by itself (`exists_asked`), and a responder that is registered twice finds nothing
to do the second time.

So a poll before the earliest deadline does nothing, and after a poll the earliest deadline is
ahead.  A host that waits for it neither polls in vain nor sleeps past anything
(`deadlines_are_exact`).
-/

set_option autoImplicit false

namespace Keystrokes

namespace Hub

variable {α : Type} {hub : Hub α} {now : Nat}

/-- The earliest deadline has not come when that of no registered responder has. -/
theorem notYet_deadline_iff : NotYet now hub.deadline ↔
    ∀ listener ∈ hub.registry.listeners, ∀ responder,
      hub.responder? listener.place = some responder → NotYet now responder.deadline := by
  rw [deadline, notYet_min_iff]
  simp only [List.mem_filterMap, Option.bind_eq_some_iff]
  constructor
  · intro ahead listener isListed responder found moment isDeadline
    exact ahead moment ⟨listener, isListed, responder, found, isDeadline⟩
  · rintro ahead moment ⟨listener, isListed, responder, found, isDeadline⟩
    exact ahead listener isListed responder found moment isDeadline

/-! ## One responder -/

/-- There is nothing to poll where no responder is. -/
theorem ask_of_vacant {listener : Listener} (vacant : hub.responder? listener.place = none) :
    ask leaveAlone now hub listener = .ok (hub.record (.polled listener)) := by
  have noStation : hub.stations[listener.place]? = none := Option.map_eq_none_iff.mp vacant
  have outside : hub.stations.length ≤ listener.place := List.getElem?_eq_none_iff.mp noStation
  have sameHub : ∀ busy, (hub.record (.polled listener)).setBusy listener.place busy =
      hub.record (.polled listener) := by
    intro busy
    simp only [setBusy, record, List.modify_eq_self outside]
  have notBusy : (hub.record (.polled listener)).isBusy listener.place = false := by
    rw [isBusy]
    exact congrArg (Option.any Station.busy) noStation
  have polled : pollResponder leaveAlone now listener.place (hub.record (.polled listener)) =
      .ok (hub.record (.polled listener)) := by
    have stillVacant : (hub.record (.polled listener)).responder? listener.place = none := vacant
    rw [pollResponder, stillVacant]
  rw [ask, occupy, notBusy, sameHub true, polled]
  exact congrArg Except.ok (sameHub false)

theorem ask_of_found {listener : Listener} {responder : Responder α}
    (found : hub.stations[listener.place]? = some ⟨responder, false⟩) :
    ask leaveAlone now hub listener =
      .ok ((hub.record (.polled listener)).become listener.place
        (responder.poll now).1 (responder.poll now).2) :=
  occupy_eq (fun _ isThere => pollResponder_leaveAlone isThere now) found

/-- **A responder whose deadline has not come is asked in vain.** -/
theorem ask_of_notYet (isPollable : hub.IsPollable) {listener : Listener}
    (notYet : ∀ responder, hub.responder? listener.place = some responder →
      NotYet now responder.deadline) :
    ask leaveAlone now hub listener = .ok (hub.record (.polled listener)) := by
  cases found : hub.responder? listener.place with
  | none => exact ask_of_vacant found
  | some responder =>
      obtain ⟨busy, isThere⟩ := responder?_eq_some_iff.mp found
      obtain ⟨isFree, isCleared⟩ := isPollable _ _ isThere
      obtain rfl : busy = false := isFree
      have stillThere : (hub.record (.polled listener)).responder? listener.place =
          some responder := found
      rw [ask_of_found isThere, Responder.poll_of_notYet isCleared (notYet responder found),
        become_self stillThere, List.map_nil, List.append_nil]

theorem getElem?_become (place other : Nat) (next : Responder α) (reports : List (Report α)) :
    (hub.become place next reports).stations[other]? = hub.stations[other]?.map fun station =>
      if place = other then { station with responder := next } else station :=
  List.getElem?_modify ..

/-- **A responder that is asked polls by itself**, and the others stay as they are. -/
theorem exists_asked (isPollable : hub.IsPollable) (listener : Listener) (now : Nat) :
    ∃ next, ask leaveAlone now hub listener = .ok next ∧ next.registry = hub.registry ∧
      next.IsPollable ∧ ∀ place, next.responder? place = (hub.responder? place).map
        fun responder => if listener.place = place then (responder.poll now).1 else responder := by
  cases found : hub.responder? listener.place with
  | none =>
      refine ⟨_, ask_of_vacant found, rfl, isPollable, fun place => ?_⟩
      by_cases isPlace : listener.place = place
      · subst isPlace
        rw [found]
        exact found
      · simp only [isPlace, if_false, Option.map_id']
        rfl
  | some responder =>
      obtain ⟨busy, isThere⟩ := responder?_eq_some_iff.mp found
      obtain rfl : busy = false := (isPollable _ _ isThere).1
      refine ⟨_, ask_of_found isThere, rfl, fun place station isStation => ?_, fun place => ?_⟩
      · rw [getElem?_become, Option.map_eq_some_iff] at isStation
        obtain ⟨before, isBefore, rfl⟩ := isStation
        obtain ⟨isFree, isCleared⟩ := isPollable place before isBefore
        split
        · exact ⟨isFree, responder.isCleared_poll now⟩
        · exact ⟨isFree, isCleared⟩
      · rw [responder?, getElem?_become, Option.map_map]
        by_cases isPlace : listener.place = place
        · subst isPlace
          have recorded : (hub.record (.polled listener)).stations[listener.place]? =
              some ⟨responder, false⟩ := isThere
          rw [recorded, found]
          simp
        · simp only [isPlace, if_false, Option.map_id']
          rfl

/-! ## Every responder -/

/-- **Asking in vain leaves nothing but a record of it.** -/
theorem asks_of_notYet (isPollable : hub.IsPollable) {listeners : List Listener}
    (notYet : ∀ listener ∈ listeners, ∀ responder,
      hub.responder? listener.place = some responder → NotYet now responder.deadline) :
    listeners.foldlM (ask leaveAlone now) hub =
      .ok { hub with journal := hub.journal ++ listeners.map .polled } := by
  induction listeners generalizing hub with
  | nil => simp [pure, Except.pure]
  | cons listener later hypothesis =>
      have asked := ask_of_notYet isPollable (notYet listener List.mem_cons_self)
      have restPollable : (hub.record (.polled listener)).IsPollable := isPollable
      have rest := hypothesis restPollable fun other isLater =>
        notYet other (List.mem_cons_of_mem _ isLater)
      rw [List.foldlM_cons, asked]
      refine rest.trans ?_
      simp [record]

/-- **Everyone who is asked polls by itself.**  Whoever is asked once more has nothing to do. -/
theorem exists_all_asked (isPollable : hub.IsPollable) (listeners : List Listener) (now : Nat) :
    ∃ last, listeners.foldlM (ask leaveAlone now) hub = .ok last ∧
      last.registry = hub.registry ∧ ∀ place, last.responder? place = (hub.responder? place).map
        fun responder =>
          if place ∈ listeners.map Listener.place then (responder.poll now).1 else responder := by
  induction listeners generalizing hub with
  | nil => exact ⟨hub, rfl, rfl, fun place => by simp⟩
  | cons listener later hypothesis =>
      obtain ⟨next, asked, nextRegistry, nextPollable, nextResponder⟩ :=
        exists_asked isPollable listener now
      obtain ⟨last, laterAsked, lastRegistry, lastResponder⟩ := hypothesis nextPollable
      refine ⟨last, ?_, lastRegistry.trans nextRegistry, fun place => ?_⟩
      · rw [List.foldlM_cons, asked]
        exact laterAsked
      · rw [lastResponder, nextResponder, Option.map_map]
        congr 1
        funext responder
        simp only [Function.comp_apply, List.map_cons, List.mem_cons]
        by_cases isFirst : listener.place = place
        · have isAsked : place = listener.place ∨ place ∈ later.map Listener.place :=
            .inl isFirst.symm
          rw [if_pos isFirst, if_pos isAsked, responder.poll_poll, ite_self]
        · simp only [if_neg isFirst, or_iff_right (Ne.symm isFirst)]

/-! ## Polls -/

/-- Polling a hub whose callbacks do nothing to it. -/
theorem act_poll (hub : Hub α) (depth now : Nat) :
    hub.act (fun _ => []) depth now .poll =
      (do return (← hub.registry.listeners.foldlM (ask leaveAlone now) hub, .done)) := by
  rw [act, runScript_nil]
  rfl

/-- How a hub whose callbacks do nothing to it is polled at a moment: before the earliest
deadline nothing happens but that it is written down, and after the poll the earliest deadline
is ahead. -/
structure PollsDue (hub : Hub α) (depth now : Nat) : Prop where
  before : NotYet now hub.deadline → hub.act (fun _ => []) depth now .poll =
    .ok ({ hub with journal := hub.journal ++ hub.registry.listeners.map .polled }, .done)
  ahead : ∃ polled, hub.act (fun _ => []) depth now .poll = .ok (polled, .done) ∧
    NotYet now polled.deadline

theorem IsPollable.pollsDue (isPollable : hub.IsPollable) (depth now : Nat) :
    hub.PollsDue depth now where
  before := by
    intro notYet
    rw [act_poll, asks_of_notYet isPollable (notYet_deadline_iff.mp notYet)]
    rfl
  ahead := by
    obtain ⟨polled, asked, sameRegistry, polledResponder⟩ :=
      exists_all_asked isPollable hub.registry.listeners now
    refine ⟨polled, by rw [act_poll, asked]; rfl, notYet_deadline_iff.mpr ?_⟩
    intro listener isListed responder found
    rw [sameRegistry] at isListed
    have isAsked : listener.place ∈ hub.registry.listeners.map Listener.place :=
      List.mem_map_of_mem isListed
    rw [polledResponder, Option.map_eq_some_iff] at found
    obtain ⟨before, -, isPolled⟩ := found
    rw [if_pos isAsked] at isPolled
    exact isPolled ▸ before.notYet_poll now

/-- **Deadlines are exact.**  In an agenda wait the calls that have been postponed, in their
order, and the end of the pause, as far as nothing has taken them out.  At any moment it gives
out exactly what is due and keeps the rest; nothing is due and nothing changes exactly when its
earliest deadline has not come, and afterwards that is so.  It is the same with a hub, however
it has come about: nothing happens in a poll before its earliest deadline, and after a poll
that deadline is ahead. -/
theorem deadlines_are_exact {hub : Hub α} (comesAbout : hub.ComesAbout)
    (changes : List Agenda.Change) (depth now : Nat) :
    (Agenda.after changes).postponed = Agenda.Change.waiting changes ∧
    (Agenda.after changes).pauseEnd = Agenda.Change.waitingPauseEnd changes ∧
    (Agenda.after changes).CollectsDue now ∧
    hub.PollsDue depth now :=
  ⟨Agenda.postponed_after changes, Agenda.pauseEnd_after changes,
    (Agenda.after changes).collects_due now, comesAbout.isPollable.pollsDue depth now⟩

/-- One key of a shortcut of two has been typed.  A poll just before the end of the pause does
nothing, and one at its end leaves no deadline behind. -/
theorem deadlines_are_exact_after_one_key :
    ∃ hub : Hub Unit, hub.ComesAbout ∧ hub.deadline = some 1000 ∧
      hub.act (fun _ => []) 0 999 .poll =
        .ok ({ hub with journal := hub.journal ++ hub.registry.listeners.map .polled }, .done) ∧
      ∃ polled, hub.act (fun _ => []) 0 1000 .poll = .ok (polled, .done) ∧
        NotYet 1000 polled.deadline := by
  let layout : Layout Unit := .flat ⟨[("g g", ())]⟩
  let subscribed : Hub Unit := (subscribe {} "keys" layout {}).1
  let signal : Signal := .key { key := "g", code := "KeyG" }
  have acts : Acts 0 (leaveAlone : Effect Unit) := fun _ _ _ ran => (Except.ok.inj ran).symm
  have subscribing : perform leaveAlone 0 {} (.subscribe "keys" layout {}) =
      .ok (subscribed, .subscribed ⟨0, 0⟩) := rfl
  have typing : ((subscribed.perform leaveAlone 0 (.deliver signal)).toOption.map
      fun outcome => outcome.1.deadline) = some (some 1000) := by decide +kernel
  cases performed : subscribed.perform leaveAlone 0 (.deliver signal) with
  | error stall =>
      rw [performed] at typing
      exact absurd typing (by simp [Except.toOption])
  | ok outcome =>
      rw [performed] at typing
      have isDeadline : outcome.1.deadline = some 1000 := Option.some.inj typing
      have comesAbout : outcome.1.ComesAbout :=
        (ComesAbout.empty.act acts subscribing).act acts performed
      refine ⟨outcome.1, comesAbout, isDeadline, ?_, ?_⟩
      · refine (deadlines_are_exact comesAbout [] 0 999).2.2.2.before ?_
        intro moment isMoment
        obtain rfl : 1000 = moment := Option.some.inj (isDeadline.symm.trans isMoment)
        decide
      · exact (deadlines_are_exact comesAbout [] 0 1000).2.2.2.ahead

end Hub

end Keystrokes
