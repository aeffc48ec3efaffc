import Keystrokes.Proofs.Listening.Teardown
import Keystrokes.Proofs.Matching.Agreement
import Keystrokes.Proofs.Responding.Deadlines

/-!
# How hubs come about

A hub comes about from an empty one by actions, whatever their callbacks do.  A host may also
give a place to a responder of its own, and give signals to the responder at a place, poll it,
let it give up everything or detach it without going through the hub (`ComesAbout`).

However a hub has come about, between two steps none of its responders is in the middle of
something, and those that are detached have given up everything (`ComesAbout.isPollable`).  That
they have nothing to do and that nothing has been typed is known of sound hubs; and when
nothing has been typed, a matcher has nothing left to forget (`Matcher.IsTidy`).
-/

set_option autoImplicit false

namespace Keystrokes

/-! ## Matchers with nothing to forget -/

namespace Matcher

/-- When nothing has been typed, starting again changes nothing. -/
def IsTidy (matcher : Matcher) : Prop :=
  matcher.trail.strokes = [] → matcher.restart = matcher

theorem isTidy_restart (matcher : Matcher) : matcher.restart.IsTidy := by
  intro _
  cases matcher <;> rfl

/-- **Every keystroke leaves a tidy matcher**: it is remembered, or the matcher starts again. -/
theorem isTidy_step (matcher : Matcher) (stroke : Keystroke) :
    (matcher.step stroke).1.IsTidy := by
  have remembered : ∀ (tracked : Modifiers) (trail : Trail) (provisional : Bool),
      ((trail.extend tracked stroke).mark provisional).strokes ≠ [] := by
    intro tracked trail provisional
    simp
  cases matcher with
  | list inner =>
      simp only [step, ListMatcher.step, Prod.map]
      split
      · exact fun nothingTyped => absurd nothingTyped (remembered inner.tracked inner.trail _)
      · exact isTidy_restart (.list inner)
  | tree inner =>
      simp only [step, TreeMatcher.step, Prod.map]
      split
      · exact fun nothingTyped => absurd nothingTyped (remembered inner.tracked inner.trail _)
      · exact isTidy_restart (.tree inner)

end Matcher

namespace Responder

variable {α : Type} (responder : Responder α)

theorem isTidy_ofLayout (layout : Layout α) (settings : Settings) :
    (ofLayout layout settings).matcher.IsTidy := by
  intro _
  cases layout <;> rfl

theorem isTidy_abandonIfDetached (isTidy : responder.matcher.IsTidy) :
    responder.abandonIfDetached.1.matcher.IsTidy := by
  rw [abandonIfDetached]
  split
  · exact responder.matcher.isTidy_restart
  · exact isTidy

theorem isTidy_concludePoll (isTidy : responder.matcher.IsTidy) (pauseOver : Bool) :
    (responder.concludePoll pauseOver).1.matcher.IsTidy := by
  cases pauseOver with
  | false => exact responder.isTidy_abandonIfDetached isTidy
  | true =>
      exact isTidy_abandonIfDetached { responder with matcher := responder.matcher.restart }
        responder.matcher.isTidy_restart

theorem isTidy_take (event : KeyEvent) (now : Nat) :
    (responder.take event now).responder.matcher.IsTidy := by
  simp only [take]
  split <;> exact responder.matcher.isTidy_step _

variable {responder} in
/-- A released responder with a tidy matcher has given up everything. -/
theorem IsReleased.isCleared (isReleased : responder.IsReleased)
    (isTidy : responder.matcher.IsTidy) : responder.IsCleared := by
  intro isDetached
  obtain ⟨nothingToDo, nothingTyped⟩ := isReleased isDetached
  have sameMatcher : responder.matcher.restart = responder.matcher := isTidy nothingTyped
  cases responder
  obtain rfl := nothingToDo
  rw [abandon, sameMatcher]
  rfl

end Responder

namespace Hub

variable {α : Type}

/-! ## Hubs with tidy matchers -/

/-- Every responder has a tidy matcher. -/
def IsTidy (hub : Hub α) : Prop :=
  ∀ place responder, hub.responder? place = some responder → responder.matcher.IsTidy

/-- What an action does to a hub with tidy matchers: they stay tidy. -/
def Tidies (hub next : Hub α) : Prop :=
  hub.IsTidy → next.IsTidy

theorem Tidies.refl (hub : Hub α) : Tidies hub hub :=
  id

theorem Tidies.trans {hub middle last : Hub α} (first : Tidies hub middle)
    (second : Tidies middle last) : Tidies hub last :=
  second ∘ first

/-- What does not touch the responders leaves them tidy. -/
theorem tidies_of_eq {hub next : Hub α}
    (same : ∀ place, next.responder? place = hub.responder? place) : Tidies hub next := by
  intro isTidy place responder found
  exact isTidy place responder (same place ▸ found)

section

variable (hub : Hub α)

theorem responder?_alter (place other : Nat) (change : Station α → Station α) :
    (hub.alter place change).responder? other =
      hub.stations[other]?.map fun station =>
        (if place = other then change station else station).responder := by
  rw [responder?, getElem?_alter, Option.map_map]
  rfl

/-- A changed responder has to be tidy again. -/
theorem tidies_update {place : Nat} {change : Responder α → Responder α × List Note}
    (keeps : ∀ responder, hub.responder? place = some responder → responder.matcher.IsTidy →
      (change responder).1.matcher.IsTidy) : Tidies hub (hub.update place change) := by
  intro isTidy other responder found
  obtain ⟨notes, same⟩ := hub.update_eq place change
  have altered : (hub.update place change).responder? other = (hub.alter place fun station =>
      { station with responder := (change station.responder).1 }).responder? other := by
    rw [same]
    rfl
  rw [altered, responder?_alter, Option.map_eq_some_iff] at found
  obtain ⟨station, isStation, rfl⟩ := found
  have isThere : hub.responder? other = some station.responder := by
    rw [responder?, isStation, Option.map_some]
  split
  · next isPlace =>
      subst isPlace
      exact keeps _ isThere (isTidy _ _ isThere)
  · exact isTidy _ _ isThere

theorem tidies_seat {responder : Responder α} (isTidy : responder.matcher.IsTidy) :
    Tidies hub (hub.seat responder).1 := by
  intro areTidy place other found
  rw [responder?, getElem?_seat] at found
  split at found
  · obtain rfl := Option.some.inj found
    exact isTidy
  · exact areTidy place other found

theorem tidies_remove (number : Nat) : Tidies hub (hub.remove number) := by
  obtain ⟨registry, notes, same⟩ := hub.remove_eq number
  rw [same]
  exact tidies_of_eq fun _ => rfl

theorem tidies_drop (subscription : Subscription) : Tidies hub (hub.drop subscription) := by
  let recorded := hub.record (.dropped subscription)
  let detached := recorded.update subscription.place fun responder =>
    ({ responder with detached := true }, [])
  have detaching : Tidies hub detached := recorded.tidies_update fun _ _ isTidy => isTidy
  have removing : Tidies hub (detached.remove subscription.listener) :=
    detaching.trans (detached.tidies_remove subscription.listener)
  rw [drop]
  split
  · exact removing
  · exact removing.trans (tidies_update _ fun responder _ _ => responder.matcher.isTidy_restart)

theorem tidies_unsubscribe (name : String) : Tidies hub (hub.unsubscribe name) := by
  rw [unsubscribe]
  split
  · have released : Tidies hub { hub with kept := hub.kept.filter fun entry => entry.1 != name } :=
      tidies_of_eq fun _ => rfl
    exact released.trans (tidies_drop _ _)
  · exact Tidies.refl hub

theorem tidies_subscribe (name : String) (layout : Layout α) (settings : Settings) :
    Tidies hub (hub.subscribe name layout settings).1 := by
  intro isTidy
  have seated := hub.tidies_seat (Responder.isTidy_ofLayout layout settings) isTidy
  exact tidies_unsubscribe (listen _ _ _).1 name seated

end

/-! ## Running callbacks -/

section

variable {effect : Effect α} {hub next : Hub α} {place now : Nat}

theorem tidies_fire (keeps : Keeps Tidies effect) {call : Call}
    (ran : fire effect place hub call = .ok next) : Tidies hub next := by
  rw [fire] at ran
  split at ran
  · exact fun isTidy => keeps ran isTidy
  · obtain rfl := Except.ok.inj ran
    exact id

/-- Running calls one after the other, between two changes of the responder. -/
theorem tidies_of_fires (keeps : Keeps Tidies effect) {fired : Hub α} {calls : List Call}
    {begin finish : Responder α → Responder α × List Note}
    (beginKeeps : ∀ responder, hub.responder? place = some responder →
      responder.matcher.IsTidy → (begin responder).1.matcher.IsTidy)
    (finishKeeps : ∀ responder : Responder α, responder.matcher.IsTidy →
      (finish responder).1.matcher.IsTidy)
    (ran : calls.foldlM (fire effect place) (hub.update place begin) = .ok fired) :
    Tidies hub (fired.update place finish) := by
  intro isTidy
  have begun := hub.tidies_update beginKeeps isTidy
  have running : Tidies (hub.update place begin) fired :=
    related_of_foldlM Tidies.refl Tidies.trans (tidies_fire keeps) ran
  exact fired.tidies_update (fun responder _ => finishKeeps responder) (running begun)

theorem tidies_pollResponder (keeps : Keeps Tidies effect)
    (ran : pollResponder effect now place hub = .ok next) : Tidies hub next := by
  rw [pollResponder] at ran
  cases found : hub.responder? place with
  | none =>
      rw [found] at ran
      obtain rfl := Except.ok.inj ran
      exact Tidies.refl hub
  | some responder =>
      rw [found] at ran
      obtain ⟨fired, ranCalls, concluded⟩ := bind_eq_ok_iff.mp ran
      obtain rfl := Except.ok.inj concluded
      exact tidies_of_fires keeps (fun _ _ isTidy => isTidy)
        (fun responder isTidy => responder.isTidy_concludePoll isTidy _) ranCalls

theorem tidies_takeAt (keeps : Keeps Tidies effect) {event : KeyEvent}
    (ran : takeAt effect now place event hub = .ok next) : Tidies hub next := by
  rw [takeAt] at ran
  cases found : hub.responder? place with
  | none =>
      rw [found] at ran
      obtain rfl := Except.ok.inj ran
      exact Tidies.refl hub
  | some responder =>
      rw [found] at ran
      obtain ⟨fired, ranCalls, concluded⟩ := bind_eq_ok_iff.mp ran
      obtain rfl := Except.ok.inj concluded
      exact tidies_of_fires keeps (fun _ _ _ => responder.isTidy_take event now)
        (fun responder => responder.isTidy_abandonIfDetached) ranCalls

theorem tidies_handleAt (keeps : Keeps Tidies effect) {signal : Signal}
    (ran : handleAt effect now place signal hub = .ok next) : Tidies hub next := by
  rw [handleAt] at ran
  cases found : hub.responder? place with
  | none =>
      rw [found] at ran
      obtain rfl := Except.ok.inj ran
      exact Tidies.refl hub
  | some responder =>
      simp only [found] at ran
      cases screened : responder.screen signal with
      | error reason =>
          rw [screened] at ran
          obtain rfl := Except.ok.inj ran
          exact tidies_of_eq fun _ => rfl
      | ok event =>
          rw [screened] at ran
          obtain ⟨polled, ranPoll, ranTake⟩ := bind_eq_ok_iff.mp ran
          have first := tidies_pollResponder keeps ranPoll
          split at ranTake
          · obtain rfl := Except.ok.inj ranTake
            exact first
          · exact first.trans (tidies_takeAt keeps ranTake)

theorem tidies_occupy {work : Hub α → Except Stall (Hub α)}
    (tidies : ∀ {hub next}, work hub = .ok next → Tidies hub next)
    (ran : occupy place work hub = .ok next) : Tidies hub next := by
  rw [occupy] at ran
  split at ran
  · exact absurd ran (by simp)
  · obtain ⟨worked, ranWork, ended⟩ := bind_eq_ok_iff.mp ran
    obtain rfl := Except.ok.inj ended
    have entered : Tidies hub (hub.setBusy place true) :=
      tidies_of_eq fun other => hub.responder?_setBusy place other true
    have left : Tidies worked (worked.setBusy place false) :=
      tidies_of_eq fun other => worked.responder?_setBusy place other false
    exact (entered.trans (tidies ranWork)).trans left

/-- **No action leaves a matcher untidy.** -/
theorem unbroken_tidies : Unbroken (Tidies : Hub α → Hub α → Prop) where
  refl := Tidies.refl
  trans := Tidies.trans
  perform := by
    intro effect now action hub next reply keeps performed
    cases action with
    | subscribe name layout settings =>
        obtain ⟨rfl, -⟩ := Prod.mk.inj (Except.ok.inj performed)
        exact hub.tidies_subscribe name layout settings
    | unsubscribe name =>
        obtain ⟨rfl, -⟩ := Prod.mk.inj (Except.ok.inj performed)
        exact hub.tidies_unsubscribe name
    | listen place kind =>
        obtain ⟨rfl, -⟩ := Prod.mk.inj (Except.ok.inj performed)
        exact tidies_of_eq fun _ => rfl
    | remove number =>
        obtain ⟨rfl, -⟩ := Prod.mk.inj (Except.ok.inj performed)
        exact hub.tidies_remove number
    | deliver signal =>
        obtain ⟨delivered, ran, done⟩ := bind_eq_ok_iff.mp performed
        obtain ⟨rfl, -⟩ := Prod.mk.inj (Except.ok.inj done)
        refine related_of_foldlM Tidies.refl Tidies.trans ?_ ran
        intro hub listener next handed
        exact fun isTidy => tidies_occupy (tidies_handleAt keeps) handed isTidy
    | poll =>
        obtain ⟨polled, ran, done⟩ := bind_eq_ok_iff.mp performed
        obtain ⟨rfl, -⟩ := Prod.mk.inj (Except.ok.inj done)
        refine related_of_foldlM Tidies.refl Tidies.trans ?_ ran
        intro hub listener next asked
        exact fun isTidy => tidies_occupy (tidies_pollResponder keeps) asked isTidy

end

/-! ## How hubs come about -/

/-- A hub comes about from an empty one by actions and by what a host does with the responders at
their places.  Callbacks may act on the hub meanwhile. -/
inductive ComesAbout : Hub α → Prop where
  | empty : ComesAbout {}
  | act {hub next : Hub α} {effect : Effect α} {depth now : Nat} {action : Action α}
      {reply : Reply} : ComesAbout hub → Acts depth effect →
      hub.perform effect now action = .ok (next, reply) → ComesAbout next
  /-- A new responder gets a place. -/
  | seat {hub : Hub α} (layout : Layout α) (settings : Settings) : ComesAbout hub →
      ComesAbout (hub.seat (Responder.ofLayout layout settings)).1
  /-- The responder at a place is given a signal. -/
  | handle {hub next : Hub α} {effect : Effect α} {depth now place : Nat} {signal : Signal} :
      ComesAbout hub → Acts depth effect →
      occupy place (handleAt effect now place signal) hub = .ok next → ComesAbout next
  /-- The responder at a place is polled. -/
  | poll {hub next : Hub α} {effect : Effect α} {depth now place : Nat} :
      ComesAbout hub → Acts depth effect →
      occupy place (pollResponder effect now place) hub = .ok next → ComesAbout next
  | abandon {hub : Hub α} (place : Nat) : ComesAbout hub → ComesAbout (hub.abandon place)
  | detach {hub : Hub α} (place : Nat) : ComesAbout hub → ComesAbout (hub.detach place)

theorem sustains_abandon (hub : Hub α) (place : Nat) : Sustains hub (hub.abandon place) :=
  fun sound =>
    ⟨sound.update fun station _ => ⟨rfl, fun _ => station.responder.isReleased_abandon⟩,
      fun other => hub.isBusy_update place other _⟩

/-- A responder that is detached gives up everything at once. -/
theorem sustains_detach (hub : Hub α) (place : Nat) : Sustains hub (hub.detach place) := by
  intro sound
  obtain ⟨notes, same⟩ := hub.update_eq place Responder.detach
  have altered : (hub.alter place fun station =>
      { station with responder := station.responder.detach.1 }).Sound :=
    sound.alter fun station _ => ⟨fun _ => rfl, fun _ => Responder.isReleased_abandon _⟩
  refine ⟨?_, fun other => hub.isBusy_update place other _⟩
  rw [detach, same]
  exact altered.tell notes

/-- A hub between two steps: it is sound, none of its responders is in the middle of something,
and their matchers are tidy. -/
structure IsSettled (hub : Hub α) : Prop where
  sound : hub.Sound
  notBusy : ∀ place, hub.isBusy place = false
  tidy : hub.IsTidy

theorem IsSettled.carry {hub next : Hub α} (isSettled : hub.IsSettled)
    (sustains : Sustains hub next) (tidies : Tidies hub next) : next.IsSettled := by
  obtain ⟨sound, sameBusy⟩ := sustains isSettled.sound
  exact ⟨sound, fun place => (sameBusy place).trans (isSettled.notBusy place),
    tidies isSettled.tidy⟩

/-- **However a hub has come about, it is settled.** -/
theorem ComesAbout.isSettled {hub : Hub α} (comesAbout : hub.ComesAbout) : hub.IsSettled := by
  induction comesAbout with
  | empty =>
      refine ⟨sound_empty, fun _ => rfl, fun place responder found => ?_⟩
      exact absurd found (by simp [responder?])
  | act _ acts performed hypothesis =>
      exact hypothesis.carry
        (unbroken_sustains.perform (unbroken_sustains.keeps_of_acts acts) performed)
        (unbroken_tidies.perform (unbroken_tidies.keeps_of_acts acts) performed)
  | seat layout settings _ hypothesis =>
      exact hypothesis.carry (sustains_seat _ (Responder.detached_ofLayout layout settings))
        (tidies_seat _ (Responder.isTidy_ofLayout layout settings))
  | handle _ acts ran hypothesis =>
      exact hypothesis.carry
        (sustains_occupy (continues_handleAt (unbroken_sustains.keeps_of_acts acts)) ran)
        (tidies_occupy (tidies_handleAt (unbroken_tidies.keeps_of_acts acts)) ran)
  | poll _ acts ran hypothesis =>
      exact hypothesis.carry
        (sustains_occupy (continues_pollResponder (unbroken_sustains.keeps_of_acts acts)) ran)
        (tidies_occupy (tidies_pollResponder (unbroken_tidies.keeps_of_acts acts)) ran)
  | abandon place _ hypothesis =>
      exact hypothesis.carry (sustains_abandon _ place)
        (tidies_update _ fun responder _ _ => responder.matcher.isTidy_restart)
  | detach place _ hypothesis =>
      exact hypothesis.carry (sustains_detach _ place)
        (tidies_update _ fun responder _ _ => responder.matcher.isTidy_restart)

/-- A hub may be polled: no responder is in the middle of something, and those that are detached
have given up everything. -/
def IsPollable (hub : Hub α) : Prop :=
  ∀ (place : Nat) (station : Station α), hub.stations[place]? = some station →
    station.busy = false ∧ station.responder.IsCleared

/-- **However a hub has come about, it may be polled.** -/
theorem ComesAbout.isPollable {hub : Hub α} (comesAbout : hub.ComesAbout) : hub.IsPollable := by
  obtain ⟨sound, notBusy, isTidy⟩ := comesAbout.isSettled
  intro place station found
  have isFree : station.busy = false := (isBusy_eq found).symm.trans (notBusy place)
  have isThere : hub.responder? place = some station.responder := by
    rw [responder?, found, Option.map_some]
  exact ⟨isFree, (sound.released place station found isFree).isCleared (isTidy place _ isThere)⟩

end Hub

end Keystrokes
