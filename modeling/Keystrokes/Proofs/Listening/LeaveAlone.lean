import Keystrokes.Proofs.Listening.Teardown

/-!
# Callbacks that leave the hub alone

When callbacks do nothing to a hub, a hub does to the responder at a place what the
responder does by itself: its station holds the next responder, and the journal goes on
with what the responder reports (`pollResponder_leaveAlone`, `handleAt_leaveAlone`).
Nothing else changes, and a responder that is not in the middle of something is not in
the middle of anything afterwards (`occupy_eq`).
-/

set_option autoImplicit false

namespace Keystrokes

/-- What a responder at a place reports, as it stands in a journal. -/
def Report.occurrence {α : Type} (place : Nat) : Report α → Occurrence α
  | .note told => .note told
  | .fired firing => .fired place firing

namespace Hub

variable {α : Type}

/-- The effect of callbacks that do nothing to a hub. -/
def leaveAlone : Effect α := fun _ hub => .ok hub

/-- Callbacks without a script leave the hub alone. -/
theorem runScript_nil (now depth : Nat) :
    runScript (fun _ : α => []) now depth = leaveAlone := by
  cases depth <;> rfl

/-! ## The next responder at a place -/

/-- Two changes that do the same to what stands at a place of a list. -/
theorem modify_congr {β : Type} {list : List β} {place : Nat} {element : β}
    (found : list[place]? = some element) {first second : β → β}
    (same : first element = second element) :
    list.modify place first = list.modify place second := by
  refine List.ext_getElem? ?_
  intro position
  rw [List.getElem?_modify, List.getElem?_modify]
  by_cases isPlace : place = position
  · simp [← isPlace, found, same]
  · simp [isPlace]

/-- The hub with the next responder at a place, which has reported something. -/
def become (hub : Hub α) (place : Nat) (next : Responder α) (reports : List (Report α)) :
    Hub α :=
  { hub with
    stations := hub.stations.modify place fun station => { station with responder := next }
    journal := hub.journal ++ reports.map (Report.occurrence place) }

variable {hub : Hub α} {place : Nat} {responder : Responder α}

theorem responder?_eq_some_iff :
    hub.responder? place = some responder ↔
      ∃ busy, hub.stations[place]? = some ⟨responder, busy⟩ := by
  rw [responder?, Option.map_eq_some_iff]
  constructor
  · rintro ⟨station, found, rfl⟩
    exact ⟨station.busy, found⟩
  · rintro ⟨busy, found⟩
    exact ⟨_, found, rfl⟩

theorem responder?_become (found : hub.responder? place = some responder) (next : Responder α)
    (reports : List (Report α)) : (hub.become place next reports).responder? place = some next := by
  obtain ⟨busy, found⟩ := responder?_eq_some_iff.mp found
  refine responder?_eq_some_iff.mpr ⟨busy, ?_⟩
  simp [become, found]

theorem become_become (first second : Responder α) (earlier later : List (Report α)) :
    (hub.become place first earlier).become place second later =
      hub.become place second (earlier ++ later) := by
  simp only [become, List.modify_modify_eq, List.map_append, List.append_assoc]
  rfl

/-- A responder that stays as it is only reports. -/
theorem become_self (found : hub.responder? place = some responder)
    (reports : List (Report α)) :
    hub.become place responder reports =
      { hub with journal := hub.journal ++ reports.map (Report.occurrence place) } := by
  obtain ⟨busy, found⟩ := responder?_eq_some_iff.mp found
  have same : hub.stations.modify place (fun station => { station with responder }) =
      hub.stations := by
    refine Eq.trans ?_ (List.modify_id place hub.stations)
    exact modify_congr found rfl
  rw [become, same]

/-- Changing the responder at a place makes it the next one, which reports what is told
about it. -/
theorem update_eq_become (found : hub.responder? place = some responder)
    (change : Responder α → Responder α × List Note) :
    hub.update place change =
      hub.become place (change responder).1 ((change responder).2.map .note) := by
  simp only [update, found, become, tell, List.map_map, Function.comp_def, Report.occurrence]

/-! ## One responder -/

theorem fire_leaveAlone (found : hub.responder? place = some responder) (call : Call) :
    fire leaveAlone place hub call = .ok (hub.become place responder (responder.fire call)) := by
  rw [fire, found, Option.bind_some, Responder.fire, become_self found]
  cases responder.callback? call with
  | none => simp
  | some entry => simp [leaveAlone, tell, record, Report.occurrence]

theorem fires_leaveAlone (found : hub.responder? place = some responder) (calls : List Call) :
    calls.foldlM (fire leaveAlone place) hub =
      .ok (hub.become place responder (calls.flatMap responder.fire)) := by
  induction calls generalizing hub with
  | nil =>
      rw [List.flatMap_nil, become_self found, List.map_nil, List.append_nil]
      rfl
  | cons call calls hypothesis =>
      have foundNext := responder?_become found responder (responder.fire call)
      rw [List.foldlM_cons, fire_leaveAlone found]
      refine (hypothesis foundNext).trans ?_
      rw [become_become, List.flatMap_cons]

/-- **A hub polls a responder as the responder polls by itself.** -/
theorem pollResponder_leaveAlone (found : hub.responder? place = some responder) (now : Nat) :
    pollResponder leaveAlone now place hub =
      .ok (hub.become place (responder.poll now).1 (responder.poll now).2) := by
  let due := (responder.collect now).1
  let collected := (responder.collect now).2
  let calls := due.calls.map PostponedCall.call
  have begun : hub.update place (fun responder => ((responder.collect now).2, [])) =
      hub.become place collected [] := update_eq_become found _
  have foundCollected : (hub.become place collected []).responder? place = some collected :=
    responder?_become found collected []
  have fired := fires_leaveAlone foundCollected calls
  have foundFired := responder?_become foundCollected collected (calls.flatMap collected.fire)
  have concluded := update_eq_become foundFired fun responder =>
    responder.concludePoll due.pauseOver
  have polled : responder.poll now =
      ((collected.concludePoll due.pauseOver).1,
        calls.flatMap collected.fire ++ (collected.concludePoll due.pauseOver).2.map .note) := by
    simp only [calls, List.flatMap_map]
    rfl
  have ran : pollResponder leaveAlone now place hub = do
      let fired ← calls.foldlM (fire leaveAlone place) (hub.become place collected [])
      return fired.update place fun responder => responder.concludePoll due.pauseOver := by
    rw [pollResponder, found, ← begun]
  rw [ran, fired, polled]
  refine congrArg Except.ok (concluded.trans ?_)
  rw [become_become, become_become, List.nil_append]

/-- **A hub lets a responder take a key event as the responder takes it by itself.** -/
theorem takeAt_leaveAlone (found : hub.responder? place = some responder) (event : KeyEvent)
    (now : Nat) :
    let response := responder.take event now
    takeAt leaveAlone now place event hub =
      .ok (hub.become place response.responder.abandonIfDetached.1
        (response.notes.map .note ++
          response.firing.flatMap (fun shortcut => response.responder.fire ⟨shortcut, event⟩) ++
          response.responder.abandonIfDetached.2.map .note)) := by
  intro response
  let calls := response.firing.map fun shortcut => (⟨shortcut, event⟩ : Call)
  have taken : hub.update place (fun _ => (response.responder, response.notes)) =
      hub.become place response.responder (response.notes.map .note) := update_eq_become found _
  have foundTaken := responder?_become found response.responder (response.notes.map .note)
  have fired := fires_leaveAlone foundTaken calls
  have foundFired :=
    responder?_become foundTaken response.responder (calls.flatMap response.responder.fire)
  have ended := update_eq_become foundFired Responder.abandonIfDetached
  have ran : takeAt leaveAlone now place event hub = do
      let fired ← calls.foldlM (fire leaveAlone place)
        (hub.become place response.responder (response.notes.map .note))
      return fired.update place Responder.abandonIfDetached := by
    rw [takeAt, found, ← taken]
  rw [ran, fired]
  refine congrArg Except.ok (ended.trans ?_)
  rw [become_become, become_become, List.flatMap_map, List.append_assoc]

/-- **A hub lets a responder handle a signal as the responder handles it by itself.** -/
theorem handleAt_leaveAlone (found : hub.responder? place = some responder) (signal : Signal)
    (now : Nat) :
    handleAt leaveAlone now place signal hub =
      .ok (hub.become place (responder.handle signal now).1 (responder.handle signal now).2) := by
  cases screened : responder.screen signal with
  | error reason =>
      have handled : responder.handle signal now = (responder, [.note reason]) := by
        rw [Responder.handle, screened]
      rw [handled, become_self found]
      simp only [handleAt, found, screened]
      rfl
  | ok event =>
      let polled := (responder.poll now).1
      let before := (responder.poll now).2
      have foundPolled : (hub.become place polled before).responder? place = some polled :=
        responder?_become found polled before
      have ran : handleAt leaveAlone now place signal hub =
          if (hub.become place polled before).isDetached place then
            .ok (hub.become place polled before)
          else takeAt leaveAlone now place event (hub.become place polled before) := by
        simp only [handleAt, found, screened, pollResponder_leaveAlone found]
        rfl
      have sameDetached : (hub.become place polled before).isDetached place = polled.detached := by
        rw [isDetached, foundPolled, Option.any_some]
      rw [ran, sameDetached, takeAt_leaveAlone foundPolled, Responder.handle, screened]
      cases isDetached : polled.detached with
      | true => simp only [isDetached, if_true, polled, before]
      | false =>
          simp only [isDetached, Bool.false_eq_true, if_false, polled, before, become_become,
            List.append_assoc]

/-- **What a responder is in the middle of meanwhile leaves no mark**, if it was not in
the middle of something before. -/
theorem occupy_eq {next : Responder α} {reports : List (Report α)}
    {work : Hub α → Except Stall (Hub α)}
    (works : ∀ hub : Hub α, hub.responder? place = some responder →
      work hub = .ok (hub.become place next reports))
    (found : hub.stations[place]? = some ⟨responder, false⟩) :
    occupy place work hub = .ok (hub.become place next reports) := by
  have notBusy : hub.isBusy place = false := isBusy_eq found
  have stillFound : (hub.setBusy place true).responder? place = some responder := by
    rw [responder?_setBusy]
    exact responder?_eq_some_iff.mpr ⟨false, found⟩
  have sameStations : ((hub.stations.modify place fun station => { station with busy := true }).modify
        place fun station => { station with responder := next }).modify place
        (fun station => { station with busy := false }) =
      hub.stations.modify place fun station => { station with responder := next } := by
    rw [List.modify_modify_eq, List.modify_modify_eq]
    exact modify_congr found rfl
  rw [occupy, notBusy, works _ stillFound]
  refine congrArg Except.ok ?_
  simp only [setBusy, become, sameStations]

end Hub

end Keystrokes
