import Keystrokes.Proofs.Listening.Reach
import Keystrokes.Proofs.Listening.Sound

/-!
# What is written into the journal

Most of what happens at a hub leaves the registry alone and only writes into the journal
(`Writes`).  What responders tell is never that a listener is registered or removed, so such a
note in the journal says that the registry has changed.

Subscribing and dropping a subscription consist of such writing and of registering and
removing listeners (`Arranges`).  What is done with one responder consists of such writing and
of running callbacks (`Serves`).  An action is an arrangement, or it goes through a list of
listeners and serves the responder of each (`arranges_or_goes_through`).
-/

set_option autoImplicit false

namespace Keystrokes

/-! ## What responders tell -/

/-- A note of anything but the registration or the removal of a listener. -/
def Note.IsQuiet : Note → Prop
  | .listenerAdded .. => False
  | .listenerRemoved _ => False
  | _ => True

theorem Agenda.isQuiet_of_mem_abandonNotes {agenda : Agenda} {note : Note}
    (isTold : note ∈ agenda.abandonNotes) : note.IsQuiet := by
  rw [abandonNotes] at isTold
  split at isTold
  · exact absurd isTold List.not_mem_nil
  · rw [List.mem_singleton.mp isTold]
    trivial

theorem Matcher.isQuiet_of_mem_notes {matcher : Matcher} {stroke : Keystroke} {note : Note}
    (isTold : note ∈ matcher.notes stroke) : note.IsQuiet := by
  have ofTrail : ∀ {kind tracked} {trail : Trail} {verdict},
      note ∈ trail.notes kind tracked stroke verdict → note.IsQuiet := by
    intro kind tracked trail verdict isTold
    rcases List.mem_append.mp isTold with isEarlier | isLater
    · rcases List.mem_cons.mp isEarlier with rfl | isDropped
      · trivial
      · obtain ⟨lost, -, rfl⟩ := List.mem_map.mp isDropped
        trivial
    · split at isLater
      · exact absurd isLater List.not_mem_nil
      · rw [List.mem_singleton.mp isLater]
        trivial
  cases matcher with
  | list inner => exact ofTrail isTold
  | tree inner => exact ofTrail isTold

namespace Responder

variable {α : Type} {responder : Responder α} {note : Note}

theorem isQuiet_of_mem_abandonIfDetached (isTold : note ∈ responder.abandonIfDetached.2) :
    note.IsQuiet := by
  rw [abandonIfDetached] at isTold
  split at isTold
  · exact Agenda.isQuiet_of_mem_abandonNotes isTold
  · exact absurd isTold List.not_mem_nil

theorem isQuiet_of_mem_concludePoll {pauseOver : Bool}
    (isTold : note ∈ (responder.concludePoll pauseOver).2) : note.IsQuiet := by
  cases pauseOver with
  | false => exact isQuiet_of_mem_abandonIfDetached isTold
  | true =>
      rcases List.mem_cons.mp isTold with rfl | isLater
      · trivial
      · exact isQuiet_of_mem_abandonIfDetached isLater

theorem isQuiet_of_mem_take {event : KeyEvent} {now : Nat}
    (isTold : note ∈ (responder.take event now).notes) : note.IsQuiet := by
  have told : note ∈ responder.agenda.abandonNotes ++
      responder.matcher.notes (event.stroke responder.tracked) → note.IsQuiet := by
    intro isTold
    rcases List.mem_append.mp isTold with isAbandoned | isStruck
    · exact Agenda.isQuiet_of_mem_abandonNotes isAbandoned
    · exact Matcher.isQuiet_of_mem_notes isStruck
  simp only [take] at isTold
  split at isTold
  · rcases List.mem_append.mp isTold with isEarlier | isPostponed
    · exact told isEarlier
    · obtain ⟨shortcut, -, rfl⟩ := List.mem_map.mp isPostponed
      trivial
  · exact told isTold

theorem isQuiet_of_screen {signal : Signal} (isRefused : responder.screen signal = .error note) :
    note.IsQuiet := by
  cases signal with
  | foreign kind =>
      obtain rfl := Except.error.inj isRefused
      trivial
  | key event =>
      rw [screen] at isRefused
      split at isRefused
      · exact absurd isRefused (by simp)
      · obtain rfl := Except.error.inj isRefused
        trivial

end Responder

/-! ## Writing -/

deriving instance DecidableEq for Firing
deriving instance DecidableEq for Occurrence

variable {α : Type}

/-- The listener whose responder an occurrence reaches. -/
def Occurrence.listener? : Occurrence α → Option Listener
  | .delivered listener _ => some listener
  | .polled listener => some listener
  | _ => none

/-- The listeners whose responders are reached, the earliest first. -/
def reached (occurrences : List (Occurrence α)) : List Listener :=
  occurrences.filterMap Occurrence.listener?

@[simp] theorem reached_append (earlier later : List (Occurrence α)) :
    reached (earlier ++ later) = reached earlier ++ reached later :=
  List.filterMap_append

/-- How often the responder of a listener is reached. -/
def timesReached (number : Nat) (occurrences : List (Occurrence α)) : Nat :=
  (reached occurrences).countP fun listener => listener.number == number

theorem timesReached_append (number : Nat) (earlier later : List (Occurrence α)) :
    timesReached number (earlier ++ later) =
      timesReached number earlier + timesReached number later := by
  rw [timesReached, reached_append, List.countP_append, timesReached, timesReached]

theorem timesReached_eq_zero_iff {number : Nat} {occurrences : List (Occurrence α)} :
    timesReached number occurrences = 0 ↔
      ∀ listener ∈ reached occurrences, listener.number ≠ number := by
  simp [timesReached]

/-- No listener is registered or removed. -/
def Occurrence.IsQuiet : Occurrence α → Prop
  | .note told => told.IsQuiet
  | _ => True

/-- No listener is registered or removed, no responder is reached and no callback runs. -/
def Occurrence.IsCalm : Occurrence α → Prop
  | .note told => told.IsQuiet
  | .dropped _ => True
  | _ => False

theorem Occurrence.IsCalm.isQuiet {occurrence : Occurrence α} (isCalm : occurrence.IsCalm) :
    occurrence.IsQuiet := by
  cases occurrence with
  | note note => exact isCalm
  | delivered | polled | fired | dropped => trivial

namespace Hub

/-- The registry stays as it is, and occurrences of some kind are written into the journal. -/
def Writes (kind : Occurrence α → Prop) (hub next : Hub α) : Prop :=
  next.registry = hub.registry ∧
    ∃ written, next.journal = hub.journal ++ written ∧ ∀ occurrence ∈ written, kind occurrence

theorem Writes.mono {kind other : Occurrence α → Prop} {hub next : Hub α}
    (writes : Writes kind hub next) (allowed : ∀ {occurrence}, kind occurrence → other occurrence) :
    Writes other hub next := by
  obtain ⟨sameRegistry, written, grows, isKind⟩ := writes
  exact ⟨sameRegistry, written, grows, fun occurrence isWritten => allowed (isKind _ isWritten)⟩

section

variable {kind : Occurrence α → Prop} (hub : Hub α)

theorem writes_nothing (stations : List (Station α)) (kept : List (String × Subscription)) :
    Writes kind hub { hub with stations, kept } :=
  ⟨rfl, [], (List.append_nil _).symm, by simp⟩

theorem writes_record {occurrence : Occurrence α} (isKind : kind occurrence) :
    Writes kind hub (hub.record occurrence) :=
  ⟨rfl, [occurrence], rfl, by simpa using isKind⟩

theorem writes_tell {notes : List Note} (areQuiet : ∀ note ∈ notes, note.IsQuiet) :
    Writes Occurrence.IsCalm hub (hub.tell notes) := by
  refine ⟨rfl, notes.map .note, rfl, fun occurrence isTold => ?_⟩
  obtain ⟨note, isNote, rfl⟩ := List.mem_map.mp isTold
  exact areQuiet note isNote

theorem writes_setBusy (place : Nat) (busy : Bool) : Writes kind hub (hub.setBusy place busy) :=
  hub.writes_nothing _ hub.kept

theorem writes_seat (responder : Responder α) :
    Writes Occurrence.IsCalm hub (hub.seat responder).1 :=
  ⟨rfl, [.note responder.builtNote], rfl,
    by simp [Responder.builtNote, Occurrence.IsCalm, Note.IsQuiet]⟩

/-- Changing a responder writes what it tells. -/
theorem writes_update {place : Nat} {change : Responder α → Responder α × List Note}
    (areQuiet : ∀ {responder}, hub.responder? place = some responder →
      ∀ note ∈ (change responder).2, note.IsQuiet) :
    Writes Occurrence.IsCalm hub (hub.update place change) := by
  rw [update]
  split
  · next responder found => exact writes_tell { hub with stations := _ } (areQuiet found)
  · exact hub.writes_nothing hub.stations hub.kept

/-! ## Arranging -/

/-- One hub comes from another without a delivery or a poll. -/
inductive Arranges : Hub α → Hub α → Prop where
  | writes {hub next : Hub α} : Writes Occurrence.IsCalm hub next → Arranges hub next
  | listen (hub : Hub α) (place : Nat) (kind : EventKind) : Arranges hub (hub.listen place kind).1
  | remove (hub : Hub α) (number : Nat) : Arranges hub (hub.remove number)
  | trans {hub middle last : Hub α} : Arranges hub middle → Arranges middle last → Arranges hub last

theorem arranges_drop (subscription : Subscription) : Arranges hub (hub.drop subscription) := by
  let recorded := hub.record (.dropped subscription)
  let detached := recorded.update subscription.place fun responder =>
    ({ responder with detached := true }, [])
  have first : Arranges hub recorded := .writes (hub.writes_record trivial)
  have second : Arranges recorded detached := .writes (recorded.writes_update (by simp))
  have removed := (first.trans second).trans (.remove detached subscription.listener)
  rw [drop]
  split
  · exact removed
  · refine removed.trans (.writes (writes_update _ ?_))
    exact fun _ note isTold => Agenda.isQuiet_of_mem_abandonNotes isTold

theorem arranges_unsubscribe (name : String) : Arranges hub (hub.unsubscribe name) := by
  rw [unsubscribe]
  split
  · exact Arranges.trans (.writes (hub.writes_nothing hub.stations _)) (arranges_drop _ _)
  · exact .writes (hub.writes_nothing hub.stations hub.kept)

theorem arranges_subscribe (name : String) (layout : Layout α) (settings : Settings) :
    Arranges hub (hub.subscribe name layout settings).1 := by
  have seated : Arranges hub _ :=
    .writes (hub.writes_seat (Responder.ofLayout layout settings))
  have listening := seated.trans (.listen _ hub.stations.length settings.event)
  have cleared := listening.trans (arranges_unsubscribe _ name)
  exact cleared.trans (.writes (writes_nothing _ _ _))

/-! ## Serving -/

/-- What is done with the responder at a place, whose callbacks have an effect. -/
inductive Serves (effect : Effect α) (place : Nat) : Hub α → Hub α → Prop where
  | writes {hub next : Hub α} : Writes Occurrence.IsCalm hub next → Serves effect place hub next
  | fired {hub next : Hub α} (firing : Firing α) :
      effect firing.callback (hub.record (.fired place firing)) = .ok next →
      Serves effect place hub next
  | trans {hub middle last : Hub α} : Serves effect place hub middle →
      Serves effect place middle last → Serves effect place hub last

variable {effect : Effect α} {place now : Nat} {next : Hub α}

theorem Serves.refl : Serves effect place hub hub :=
  .writes (hub.writes_nothing hub.stations hub.kept)

variable {hub}

theorem serves_fire {call : Call} (ran : fire effect place hub call = .ok next) :
    Serves effect place hub next := by
  rw [fire] at ran
  split at ran
  · next entry _ =>
      have isQuiet : ∀ note ∈ [Note.firing entry.label], note.IsQuiet := by simp [Note.IsQuiet]
      exact .trans (.writes (hub.writes_tell isQuiet))
        (.fired ⟨call.shortcut, entry.callback, call.event⟩ ran)
  · obtain rfl := Except.ok.inj ran
    exact .refl hub

/-- Running calls one after the other, between two changes of the responder. -/
theorem serves_of_fires {fired : Hub α} {calls : List Call}
    {begin finish : Responder α → Responder α × List Note}
    (beginQuiet : ∀ {responder}, hub.responder? place = some responder →
      ∀ note ∈ (begin responder).2, note.IsQuiet)
    (finishQuiet : ∀ {responder note}, note ∈ (finish responder).2 → note.IsQuiet)
    (ran : calls.foldlM (fire effect place) (hub.update place begin) = .ok fired) :
    Serves effect place hub (fired.update place finish) := by
  have begun : Serves effect place hub (hub.update place begin) :=
    .writes (hub.writes_update beginQuiet)
  have running : Serves effect place (hub.update place begin) fired :=
    related_of_foldlM (fun hub => .refl hub) .trans serves_fire ran
  exact (begun.trans running).trans (.writes (fired.writes_update fun _ _ => finishQuiet))

theorem serves_pollResponder (ran : pollResponder effect now place hub = .ok next) :
    Serves effect place hub next := by
  rw [pollResponder] at ran
  cases found : hub.responder? place with
  | none =>
      rw [found] at ran
      obtain rfl := Except.ok.inj ran
      exact .refl hub
  | some responder =>
      rw [found] at ran
      obtain ⟨fired, ranCalls, concluded⟩ := bind_eq_ok_iff.mp ran
      obtain rfl := Except.ok.inj concluded
      exact serves_of_fires (by simp) Responder.isQuiet_of_mem_concludePoll ranCalls

theorem serves_takeAt {event : KeyEvent} (ran : takeAt effect now place event hub = .ok next) :
    Serves effect place hub next := by
  rw [takeAt] at ran
  cases found : hub.responder? place with
  | none =>
      rw [found] at ran
      obtain rfl := Except.ok.inj ran
      exact .refl hub
  | some responder =>
      rw [found] at ran
      obtain ⟨fired, ranCalls, concluded⟩ := bind_eq_ok_iff.mp ran
      obtain rfl := Except.ok.inj concluded
      exact serves_of_fires (fun _ _ => Responder.isQuiet_of_mem_take)
        Responder.isQuiet_of_mem_abandonIfDetached ranCalls

theorem serves_handleAt {signal : Signal} (ran : handleAt effect now place signal hub = .ok next) :
    Serves effect place hub next := by
  rw [handleAt] at ran
  cases found : hub.responder? place with
  | none =>
      rw [found] at ran
      obtain rfl := Except.ok.inj ran
      exact .refl hub
  | some responder =>
      simp only [found] at ran
      cases screened : responder.screen signal with
      | error reason =>
          rw [screened] at ran
          obtain rfl := Except.ok.inj ran
          refine .writes (hub.writes_tell ?_)
          simpa using Responder.isQuiet_of_screen screened
      | ok event =>
          rw [screened] at ran
          obtain ⟨polled, ranPoll, ranTake⟩ := bind_eq_ok_iff.mp ran
          have first := serves_pollResponder ranPoll
          split at ranTake
          · obtain rfl := Except.ok.inj ranTake
            exact first
          · exact first.trans (serves_takeAt ranTake)

theorem serves_occupy {work : Hub α → Except Stall (Hub α)}
    (serves : ∀ {hub next}, work hub = .ok next → Serves effect place hub next)
    (ran : occupy place work hub = .ok next) : Serves effect place hub next := by
  rw [occupy] at ran
  split at ran
  · exact absurd ran (by simp)
  · obtain ⟨worked, ranWork, ended⟩ := bind_eq_ok_iff.mp ran
    obtain rfl := Except.ok.inj ended
    have entered : Serves effect place hub (hub.setBusy place true) :=
      .writes (hub.writes_setBusy place true)
    exact (entered.trans (serves ranWork)).trans (.writes (worked.writes_setBusy place false))

/-- A visit to a listener is written down, and its responder is served. -/
def Visits (effect : Effect α) (hub : Hub α) (listener : Listener) (next : Hub α) : Prop :=
  ∃ occurrence : Occurrence α, occurrence.listener? = some listener ∧
    Serves effect listener.place (hub.record occurrence) next

/-- **An action is an arrangement, or it goes through registered listeners one after the
other.** -/
theorem arranges_or_goes_through {action : Action α} {reply : Reply}
    (performed : hub.perform effect now action = .ok (next, reply)) :
    Arranges hub next ∨
      ∃ (listeners : List Listener) (visit : Hub α → Listener → Except Stall (Hub α)),
        listeners.Sublist hub.registry.listeners ∧ listeners.foldlM visit hub = .ok next ∧
          ∀ {hub listener next}, visit hub listener = .ok next →
            Visits effect hub listener next := by
  cases action with
  | subscribe name layout settings =>
      obtain ⟨rfl, -⟩ := Prod.mk.inj (Except.ok.inj performed)
      exact .inl (hub.arranges_subscribe name layout settings)
  | unsubscribe name =>
      obtain ⟨rfl, -⟩ := Prod.mk.inj (Except.ok.inj performed)
      exact .inl (hub.arranges_unsubscribe name)
  | listen place kind =>
      obtain ⟨rfl, -⟩ := Prod.mk.inj (Except.ok.inj performed)
      exact .inl (.listen hub place kind)
  | remove number =>
      obtain ⟨rfl, -⟩ := Prod.mk.inj (Except.ok.inj performed)
      exact .inl (.remove hub number)
  | deliver signal =>
      obtain ⟨delivered, ran, done⟩ := bind_eq_ok_iff.mp performed
      obtain ⟨rfl, -⟩ := Prod.mk.inj (Except.ok.inj done)
      refine .inr ⟨_, hand effect now signal, List.filter_sublist, ran, fun handed => ?_⟩
      exact ⟨.delivered _ signal, rfl, serves_occupy serves_handleAt handed⟩
  | poll =>
      obtain ⟨polled, ran, done⟩ := bind_eq_ok_iff.mp performed
      obtain ⟨rfl, -⟩ := Prod.mk.inj (Except.ok.inj done)
      refine .inr ⟨_, ask effect now, List.Sublist.refl _, ran, fun asked => ?_⟩
      exact ⟨.polled _, rfl, serves_occupy serves_pollResponder asked⟩

end

end Hub

end Keystrokes
