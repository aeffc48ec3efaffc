import Keystrokes.Proofs.Listening.Reach
import Keystrokes.Proofs.Listening.Sound

/-!
# No callback after teardown

When a subscription is dropped, its responder is detached.  From then on no callback of
it runs, whatever is going on at that moment, and when that is over the responder has
nothing to do and nothing has been typed (`silent_after_drop`).

Each callback is run only after another look at the responder (`sustains_fire`), and
whatever a responder is in the middle of ends with a released responder
(`continues_pollResponder`, `continues_takeAt`).  What a callback does meanwhile is not in
the way of this, since it cannot give more to a responder that is in the middle of
something (`unbroken_sustains`).
-/

set_option autoImplicit false

namespace Keystrokes

namespace Hub

variable {α : Type} {effect : Effect α}

/-! ## Callbacks -/

/-- A callback runs only if its responder is not detached. -/
theorem sustains_fire (keeps : Keeps Sustains effect) {place : Nat} {hub next : Hub α}
    {call : Call} (ran : fire effect place hub call = .ok next) : Sustains hub next := by
  rw [fire] at ran
  split at ran
  · next entry found =>
      obtain ⟨responder, isResponder, isCallback⟩ := Option.bind_eq_some_iff.mp found
      have isAttached : responder.detached = false := by
        cases isDetached : responder.detached with
        | false => rfl
        | true => simp [Responder.callback?, isDetached] at isCallback
      have notDetached : hub.isDetached place = false := by
        rw [isDetached, isResponder, Option.any_some, isAttached]
      intro sound
      have isRecorded := (sound.tell [.firing entry.label]).record_fired notDetached
        ⟨call.shortcut, entry.callback, call.event⟩
      obtain ⟨nextSound, sameBusy⟩ := keeps ran isRecorded
      exact ⟨nextSound, sameBusy⟩
  · obtain rfl := Except.ok.inj ran
    exact Sustains.refl hub

theorem sustains_fires (keeps : Keeps Sustains effect) {place : Nat} {hub next : Hub α}
    {calls : List Call} (ran : calls.foldlM (fire effect place) hub = .ok next) :
    Sustains hub next :=
  related_of_foldlM Sustains.refl Sustains.trans (sustains_fire keeps) ran

/-! ## One responder -/

/-- The responder at a place is in the middle of something, between two steps of it. -/
structure Occupied (hub : Hub α) (place : Nat) : Prop where
  sound : hub.Sound
  busy : (hub.responder? place).isSome = true → hub.isBusy place = true
  released : ∀ responder, hub.responder? place = some responder → responder.IsReleased

/-- What is done with the responder at a place leaves it between two steps, and the same
responders are in the middle of something. -/
def Continues (place : Nat) (hub next : Hub α) : Prop :=
  hub.Occupied place → next.Occupied place ∧ ∀ other, next.isBusy other = hub.isBusy other

theorem Continues.refl (place : Nat) (hub : Hub α) : Continues place hub hub :=
  fun occupied => ⟨occupied, fun _ => rfl⟩

theorem Continues.trans {place : Nat} {hub middle last : Hub α}
    (first : Continues place hub middle) (second : Continues place middle last) :
    Continues place hub last := by
  intro occupied
  obtain ⟨middleOccupied, middleBusy⟩ := first occupied
  obtain ⟨lastOccupied, lastBusy⟩ := second middleOccupied
  exact ⟨lastOccupied, fun other => (lastBusy other).trans (middleBusy other)⟩

theorem responder?_update (hub : Hub α) (place : Nat)
    (change : Responder α → Responder α × List Note) :
    (hub.update place change).responder? place =
      (hub.responder? place).map fun responder => (change responder).1 := by
  obtain ⟨notes, same⟩ := hub.update_eq place change
  have altered := hub.getElem?_alter place place fun station =>
    { station with responder := (change station.responder).1 }
  rw [same]
  refine (congrArg (Option.map Station.responder) altered).trans ?_
  rw [responder?, Option.map_map, Option.map_map]
  exact congrArg (Option.map · _) (funext fun station => by simp)

/-- **Firing calls in between and releasing the responder in the end continues what it
is in the middle of.** -/
theorem continues_of_fires (keeps : Keeps Sustains effect) {place : Nat} {hub fired : Hub α}
    {calls : List Call} {begin finish : Responder α → Responder α × List Note}
    (beginKeeps : ∀ responder, hub.responder? place = some responder →
      (begin responder).1.detached = responder.detached)
    (finishKeeps : ∀ responder, (finish responder).1.detached = responder.detached)
    (releases : ∀ responder, (finish responder).1.IsReleased)
    (isSeated : (hub.responder? place).isSome = true)
    (ran : calls.foldlM (fire effect place) (hub.update place begin) = .ok fired) :
    Continues place hub (fired.update place finish) := by
  intro occupied
  have isBusy := occupied.busy isSeated
  have begun : (hub.update place begin).Sound := by
    refine occupied.sound.update fun station found => ⟨beginKeeps _ ?_, fun isFree => ?_⟩
    · rw [responder?, found, Option.map_some]
    · exact absurd ((isBusy_eq found).symm.trans isBusy) (by simp [isFree])
  -- The callbacks may have dropped its subscription, but they have not ended what it does.
  obtain ⟨firedSound, firedBusy⟩ := sustains_fires keeps ran begun
  have stillBusy : ∀ other, (fired.update place finish).isBusy other = hub.isBusy other := by
    intro other
    rw [isBusy_update, firedBusy, isBusy_update]
  refine ⟨⟨?_, fun _ => (stillBusy place).trans isBusy, ?_⟩, stillBusy⟩
  · exact firedSound.update fun station _ => ⟨finishKeeps _, fun _ => releases _⟩
  · intro responder isResponder
    rw [responder?_update, Option.map_eq_some_iff] at isResponder
    obtain ⟨before, -, rfl⟩ := isResponder
    exact releases before

theorem continues_pollResponder (keeps : Keeps Sustains effect) {now place : Nat}
    {hub next : Hub α} (ran : pollResponder effect now place hub = .ok next) :
    Continues place hub next := by
  rw [pollResponder] at ran
  cases found : hub.responder? place with
  | none =>
      rw [found] at ran
      obtain rfl := Except.ok.inj ran
      exact Continues.refl place hub
  | some responder =>
      rw [found] at ran
      obtain ⟨fired, ranCalls, concluded⟩ := bind_eq_ok_iff.mp ran
      obtain rfl := Except.ok.inj concluded
      exact continues_of_fires keeps (fun _ _ => rfl)
        (fun responder => responder.detached_concludePoll _)
        (fun responder => responder.isReleased_concludePoll _) (by rw [found]; rfl) ranCalls

theorem continues_takeAt (keeps : Keeps Sustains effect) {now place : Nat} {event : KeyEvent}
    {hub next : Hub α} (ran : takeAt effect now place event hub = .ok next) :
    Continues place hub next := by
  rw [takeAt] at ran
  cases found : hub.responder? place with
  | none =>
      rw [found] at ran
      obtain rfl := Except.ok.inj ran
      exact Continues.refl place hub
  | some responder =>
      rw [found] at ran
      obtain ⟨fired, ranCalls, concluded⟩ := bind_eq_ok_iff.mp ran
      obtain rfl := Except.ok.inj concluded
      refine continues_of_fires keeps (fun other isOther => ?_)
        (fun responder => responder.detached_abandonIfDetached)
        (fun responder => responder.isReleased_abandonIfDetached) (by rw [found]; rfl) ranCalls
      obtain rfl : responder = other := Option.some.inj (found.symm.trans isOther)
      exact responder.detached_take event now

theorem continues_handleAt (keeps : Keeps Sustains effect) {now place : Nat} {signal : Signal}
    {hub next : Hub α} (ran : handleAt effect now place signal hub = .ok next) :
    Continues place hub next := by
  rw [handleAt] at ran
  cases found : hub.responder? place with
  | none =>
      rw [found] at ran
      obtain rfl := Except.ok.inj ran
      exact Continues.refl place hub
  | some responder =>
      simp only [found] at ran
      cases screened : responder.screen signal with
      | error reason =>
          rw [screened] at ran
          obtain rfl := Except.ok.inj ran
          exact fun occupied =>
            ⟨⟨occupied.sound.tell _, occupied.busy, occupied.released⟩, fun _ => rfl⟩
      | ok event =>
          rw [screened] at ran
          obtain ⟨polled, ranPoll, ranTake⟩ := bind_eq_ok_iff.mp ran
          have first := continues_pollResponder keeps ranPoll
          split at ranTake
          · obtain rfl := Except.ok.inj ranTake
            exact first
          · exact first.trans (continues_takeAt keeps ranTake)

theorem responder?_setBusy (hub : Hub α) (place other : Nat) (busy : Bool) :
    (hub.setBusy place busy).responder? other = hub.responder? other := by
  have altered := hub.getElem?_alter place other fun station => { station with busy }
  refine (congrArg (Option.map Station.responder) altered).trans ?_
  rw [responder?, Option.map_map]
  refine congrArg (Option.map · _) (funext fun station => ?_)
  by_cases isPlace : place = other <;> simp [isPlace]

theorem isBusy_setBusy (hub : Hub α) (place other : Nat) (busy : Bool) :
    (hub.setBusy place busy).isBusy other =
      if place = other then (hub.responder? place).isSome && busy else hub.isBusy other := by
  have altered := hub.getElem?_alter place other fun station => { station with busy }
  have same : (hub.setBusy place busy).isBusy other = _ := congrArg (Option.any Station.busy) altered
  rw [same, isSome_responder?]
  split
  · next isPlace =>
      rw [← isPlace]
      cases hub.stations[place]? <;> simp
  · rw [isBusy]
    cases hub.stations[other]? <;> rfl

/-- **What a responder has been in the middle of ends with a released responder.** -/
theorem sustains_occupy {place : Nat} {work : Hub α → Except Stall (Hub α)}
    (continues : ∀ {hub next}, work hub = .ok next → Continues place hub next)
    {hub next : Hub α} (ran : occupy place work hub = .ok next) : Sustains hub next := by
  rw [occupy] at ran
  split at ran
  · exact absurd ran (by simp)
  · next notBusy =>
      obtain ⟨worked, ranWork, ended⟩ := bind_eq_ok_iff.mp ran
      obtain rfl := Except.ok.inj ended
      intro sound
      have entered : (hub.setBusy place true).Occupied place := by
        refine ⟨sound.alter fun station _ => ⟨id, fun isFree => absurd isFree (by simp)⟩, ?_, ?_⟩
        · intro isSeated
          rw [responder?_setBusy] at isSeated
          rw [isBusy_setBusy, if_pos rfl, isSeated, Bool.and_true]
        · intro responder isResponder
          rw [responder?_setBusy, responder?, Option.map_eq_some_iff] at isResponder
          obtain ⟨station, found, rfl⟩ := isResponder
          have isFree : station.busy = false := by simpa [isBusy_eq found] using notBusy
          exact sound.released place station found isFree
      obtain ⟨occupied, sameBusy⟩ := continues ranWork entered
      refine ⟨occupied.sound.alter fun station found => ⟨id, fun _ => ?_⟩, fun other => ?_⟩
      · exact occupied.released _ (by rw [responder?, found, Option.map_some])
      · rw [isBusy_setBusy, sameBusy, isBusy_setBusy]
        split
        · next isPlace => simpa [isPlace] using notBusy
        · rfl

/-! ## Every responder -/

theorem sustains_deliver (keeps : Keeps Sustains effect) {now : Nat} {signal : Signal}
    {hub next : Hub α} (ran : hub.deliver effect now signal = .ok next) : Sustains hub next := by
  refine related_of_foldlM Sustains.refl Sustains.trans ?_ ran
  intro hub listener next handed
  refine Sustains.trans ?_ (sustains_occupy (continues_handleAt keeps) handed)
  exact fun sound => ⟨sound.write (by simp) (by simp), fun _ => rfl⟩

theorem sustains_poll (keeps : Keeps Sustains effect) {now : Nat} {hub next : Hub α}
    (ran : hub.poll effect now = .ok next) : Sustains hub next := by
  refine related_of_foldlM Sustains.refl Sustains.trans ?_ ran
  intro hub listener next asked
  refine Sustains.trans ?_ (sustains_occupy (continues_pollResponder keeps) asked)
  exact fun sound => ⟨sound.write (by simp) (by simp), fun _ => rfl⟩

/-- **No action ends what a responder is in the middle of, or makes a hub unsound.** -/
theorem unbroken_sustains : Unbroken (Sustains : Hub α → Hub α → Prop) where
  refl := Sustains.refl
  trans := Sustains.trans
  perform := by
    intro effect now action hub next reply keeps performed
    cases action with
    | subscribe name layout settings =>
        obtain ⟨rfl, -⟩ := Prod.mk.inj (Except.ok.inj performed)
        exact hub.sustains_subscribe name layout settings
    | unsubscribe name =>
        obtain ⟨rfl, -⟩ := Prod.mk.inj (Except.ok.inj performed)
        exact hub.sustains_unsubscribe name
    | listen place kind =>
        obtain ⟨rfl, -⟩ := Prod.mk.inj (Except.ok.inj performed)
        exact hub.sustains_listen place kind
    | remove listener =>
        obtain ⟨rfl, -⟩ := Prod.mk.inj (Except.ok.inj performed)
        exact hub.sustains_remove listener
    | deliver signal =>
        obtain ⟨delivered, ran, done⟩ := bind_eq_ok_iff.mp performed
        obtain ⟨rfl, -⟩ := Prod.mk.inj (Except.ok.inj done)
        exact sustains_deliver keeps ran
    | poll =>
        obtain ⟨polled, ran, done⟩ := bind_eq_ok_iff.mp performed
        obtain ⟨rfl, -⟩ := Prod.mk.inj (Except.ok.inj done)
        exact sustains_poll keeps ran

/-! ## The end of a subscription -/

/-- A reachable hub is sound, and none of its responders is in the middle of
something. -/
theorem Reachable.sound {hub : Hub α} (reachable : hub.Reachable) :
    hub.Sound ∧ ∀ place, hub.isBusy place = false := by
  obtain ⟨depth, leads⟩ := reachable
  exact unbroken_sustains.related_of_leads leads sound_empty

/-- **A dropped subscription is silent.**  At a reachable hub, no callback of the
responder of a subscription has run after the subscription was dropped.  The responder
is detached, it has nothing to do, and nothing has been typed. -/
theorem silent_after_drop {hub : Hub α} (reachable : hub.Reachable)
    {before after : List (Occurrence α)} {subscription : Subscription}
    (isDropped : hub.journal = before ++ .dropped subscription :: after) :
    (∀ firing, .fired subscription.place firing ∉ after) ∧
      ∃ responder, hub.responder? subscription.place = some responder ∧
        responder.detached = true ∧ responder.agenda = Agenda.empty ∧ responder.typed = [] := by
  obtain ⟨sound, notBusy⟩ := reachable.sound
  constructor
  · intro firing hasRun
    have silent := sound.silent
    rw [isDropped] at silent
    have silentLater := (List.pairwise_cons.mp (List.pairwise_append.mp silent).2.1).1
    exact silentLater _ hasRun subscription firing rfl rfl
  · have isMember : .dropped subscription ∈ hub.journal := by simp [isDropped]
    obtain ⟨station, found, isDetached⟩ :=
      (hub.isDetached_iff _).mp (sound.detached subscription isMember)
    have isFree : station.busy = false := (isBusy_eq found).symm.trans (notBusy _)
    obtain ⟨nothingToDo, nothingTyped⟩ := sound.released _ station found isFree isDetached
    refine ⟨station.responder, ?_, isDetached, nothingToDo, nothingTyped⟩
    rw [responder?, found, Option.map_some]

/-- The script of two callbacks, the first of which drops the subscription of both. -/
def droppingScript : Bool → List (Action Bool)
  | true => [.unsubscribe "keys"]
  | false => []

/-- Both callbacks are due for one key.  The first drops their subscription, so the
second does not run. -/
theorem silent_after_drop_by_callback :
    ∃ (hub : Hub Bool) (before after : List (Occurrence Bool)), hub.Reachable ∧
      hub.journal = before ++ .dropped ⟨0, 0⟩ :: after ∧
      (∀ firing, .fired 0 firing ∉ after) ∧
      ∃ responder, hub.responder? 0 = some responder ∧ responder.detached = true ∧
        responder.agenda = Agenda.empty ∧ responder.typed = [] := by
  let layout : Layout Bool := .flat ⟨[("g", true), ("KeyG", false)]⟩
  let subscribed : Hub Bool := (subscribe {} "keys" layout {}).1
  let signal : Signal := .key { key := "g", code := "KeyG" }
  let dropped? : Occurrence Bool → Option Subscription
    | .dropped subscription => some subscription
    | _ => none
  have dropping : ((subscribed.act droppingScript 1 0 (.deliver signal)).toOption.map
      fun outcome => outcome.1.journal.filterMap dropped?) = some [⟨0, 0⟩] := by decide +kernel
  have acts : Acts 1 (runScript droppingScript 0 1) := acts_runScript droppingScript 0 1
  have subscribing : perform (runScript droppingScript 0 1) 0 {} (.subscribe "keys" layout {}) =
      .ok (subscribed, .subscribed ⟨0, 0⟩) := rfl
  cases performed : subscribed.act droppingScript 1 0 (.deliver signal) with
  | error stall =>
      rw [performed] at dropping
      exact absurd dropping (by simp [Except.toOption])
  | ok outcome =>
      rw [performed] at dropping
      have reachable : outcome.1.Reachable :=
        ⟨1, .act acts subscribing (.act acts performed (.refl _))⟩
      have isListed : (⟨0, 0⟩ : Subscription) ∈ outcome.1.journal.filterMap dropped? := by
        simp [Option.some.inj dropping]
      obtain ⟨occurrence, isMember, isDropping⟩ := List.mem_filterMap.mp isListed
      obtain rfl : occurrence = .dropped ⟨0, 0⟩ := by
        cases occurrence <;> simp_all [dropped?]
      obtain ⟨before, after, isDropped⟩ := List.append_of_mem isMember
      exact ⟨outcome.1, before, after, reachable, isDropped, silent_after_drop reachable isDropped⟩

end Hub

end Keystrokes
