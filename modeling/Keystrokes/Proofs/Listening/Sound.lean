import Keystrokes.Listening.Delivery

/-!
# Sound hubs

A hub is sound when no callback of a dropped subscription has run and its responder is
detached.  A responder that is dropped in the middle of something keeps what it has to
do for a while, so the rest of the invariant speaks of the others: a responder that is
not in the middle of something has been released if it is detached (`Sound`).

Subscribing, dropping a subscription, and registering and removing listeners keep a hub
sound (`sustains_subscribe`, `sustains_unsubscribe`, `sustains_listen`,
`sustains_remove`).
-/

set_option autoImplicit false

namespace Keystrokes

/-! ## Released responders -/

@[simp] theorem Matcher.trail_restart (matcher : Matcher) : matcher.restart.trail = Trail.empty := by
  cases matcher <;> rfl

namespace Responder

variable {α : Type} (responder : Responder α)

/-- A responder that is detached has nothing to do, and nothing has been typed. -/
def IsReleased : Prop :=
  responder.detached = true → responder.agenda = Agenda.empty ∧ responder.typed = []

variable {responder} in
theorem isReleased_of_attached (isAttached : responder.detached = false) :
    responder.IsReleased := by
  intro isDetached
  exact absurd isDetached (by simp [isAttached])

theorem isReleased_abandon : responder.abandon.1.IsReleased := by
  intro _
  exact ⟨rfl, by simp [abandon, typed, Trail.empty]⟩

@[simp] theorem detached_take (event : KeyEvent) (now : Nat) :
    (responder.take event now).responder.detached = responder.detached := by
  simp only [Responder.take]
  split <;> rfl

@[simp] theorem detached_abandonIfDetached :
    responder.abandonIfDetached.1.detached = responder.detached := by
  rw [abandonIfDetached]
  split <;> rfl

theorem isReleased_abandonIfDetached : responder.abandonIfDetached.1.IsReleased := by
  rw [abandonIfDetached]
  split
  · exact responder.isReleased_abandon
  · next isAttached => exact isReleased_of_attached (by simpa using isAttached)

theorem detached_concludePoll (pauseOver : Bool) :
    (responder.concludePoll pauseOver).1.detached = responder.detached := by
  cases pauseOver with
  | false => exact responder.detached_abandonIfDetached
  | true => exact detached_abandonIfDetached { responder with matcher := responder.matcher.restart }

/-- **A poll ends with a released responder.** -/
theorem isReleased_concludePoll (pauseOver : Bool) :
    (responder.concludePoll pauseOver).1.IsReleased := by
  cases pauseOver with
  | false => exact responder.isReleased_abandonIfDetached
  | true => exact isReleased_abandonIfDetached { responder with matcher := responder.matcher.restart }

theorem detached_ofLayout (layout : Layout α) (settings : Settings) :
    (ofLayout layout settings).detached = false := by
  cases layout <;> rfl

end Responder

namespace Hub

variable {α : Type}

/-! ## Stations -/

section Stations

variable (hub : Hub α)

/-- The hub with the station at a place changed. -/
def alter (place : Nat) (change : Station α → Station α) : Hub α :=
  { hub with stations := hub.stations.modify place change }

theorem getElem?_alter (place other : Nat) (change : Station α → Station α) :
    (hub.alter place change).stations[other]? =
      hub.stations[other]?.map fun station => if place = other then change station else station :=
  List.getElem?_modify ..

theorem isDetached_iff (place : Nat) :
    hub.isDetached place = true ↔
      ∃ station, hub.stations[place]? = some station ∧ station.responder.detached = true := by
  rw [isDetached, responder?]
  cases hub.stations[place]? <;> simp

theorem isSome_responder? (place : Nat) :
    (hub.responder? place).isSome = hub.stations[place]?.isSome :=
  Option.isSome_map

variable {hub} in
theorem isBusy_eq {place : Nat} {station : Station α} (found : hub.stations[place]? = some station) :
    hub.isBusy place = station.busy := by
  rw [isBusy, found, Option.any_some]

/-- Changing the responder at a place alters its station, and is told. -/
theorem update_eq (place : Nat) (change : Responder α → Responder α × List Note) :
    ∃ notes, hub.update place change =
      (hub.alter place fun station =>
        { station with responder := (change station.responder).1 }).tell notes := by
  cases found : hub.stations[place]? with
  | none =>
      have outside : hub.stations.length ≤ place := List.getElem?_eq_none_iff.mp found
      exact ⟨[], by simp [update, responder?, found, alter, tell, List.modify_eq_self outside]⟩
  | some station =>
      refine ⟨(change station.responder).2, ?_⟩
      have same : hub.stations.modify place (fun other =>
            { other with responder := (change station.responder).1 }) =
          hub.stations.modify place fun other =>
            { other with responder := (change other.responder).1 } := by
        refine List.ext_getElem? fun other => ?_
        rw [List.getElem?_modify, List.getElem?_modify]
        by_cases isPlace : place = other
        · simp [← isPlace, found]
        · simp [isPlace]
      simp only [update, responder?, found, Option.map_some, same, alter]

/-- Removing a listener changes the registry, and is told. -/
theorem remove_eq (number : Nat) :
    ∃ registry notes, hub.remove number = tell { hub with registry } notes := by
  rw [remove]
  split
  · exact ⟨_, _, rfl⟩
  · exact ⟨hub.registry, [], by simp [tell]⟩

@[simp] theorem isBusy_tell (notes : List Note) (place : Nat) :
    (hub.tell notes).isBusy place = hub.isBusy place :=
  rfl

theorem isBusy_alter (place : Nat) (change : Station α → Station α)
    (keeps : ∀ station, (change station).busy = station.busy) (other : Nat) :
    (hub.alter place change).isBusy other = hub.isBusy other := by
  rw [isBusy, isBusy, getElem?_alter]
  cases hub.stations[other]? with
  | none => rfl
  | some station =>
      simp only [Option.map_some, Option.any_some]
      split
      · exact keeps station
      · rfl

theorem isBusy_update (place other : Nat) (change : Responder α → Responder α × List Note) :
    (hub.update place change).isBusy other = hub.isBusy other := by
  obtain ⟨notes, same⟩ := hub.update_eq place change
  rw [same, isBusy_tell]
  exact hub.isBusy_alter place _ (by intro _; rfl) other

end Stations

/-! ## The invariant -/

/-- No callback of a dropped subscription has run, and its responder is detached.  A
responder that is not in the middle of something has been released if it is
detached. -/
structure Sound (hub : Hub α) : Prop where
  seated : ∀ entry ∈ hub.kept, hub.stations[entry.2.place]?.isSome
  released : ∀ (place : Nat) (station : Station α), hub.stations[place]? = some station →
    station.busy = false → station.responder.IsReleased
  detached : ∀ subscription, .dropped subscription ∈ hub.journal →
    hub.isDetached subscription.place = true
  silent : hub.journal.Pairwise fun earlier later => ∀ subscription firing,
    earlier = .dropped subscription → later ≠ .fired subscription.place firing

theorem sound_empty : Sound ({} : Hub α) where
  seated := by simp
  released := by simp
  detached := by simp
  silent := .nil

namespace Sound

variable {hub : Hub α}

/-- The journal may go on with callbacks of responders that are not detached, and with
the ends of subscriptions whose responders are. -/
theorem write (sound : hub.Sound) {occurrences : List (Occurrence α)}
    (mayRun : ∀ place firing, .fired place firing ∈ occurrences → hub.isDetached place = false)
    (isOver : ∀ subscription, .dropped subscription ∈ occurrences →
      hub.isDetached subscription.place = true) :
    Sound { hub with journal := hub.journal ++ occurrences } := by
  have detached : ∀ subscription, .dropped subscription ∈ hub.journal ++ occurrences →
      hub.isDetached subscription.place = true := by
    intro subscription isDropped
    rcases List.mem_append.mp isDropped with isEarlier | isLater
    · exact sound.detached subscription isEarlier
    · exact isOver subscription isLater
  have apart : ∀ earlier ∈ hub.journal ++ occurrences, ∀ later ∈ occurrences,
      ∀ subscription firing, earlier = .dropped subscription →
        later ≠ .fired subscription.place firing := by
    -- The responder of the one would be detached, and that of the other not.
    rintro earlier isEarlier later isLater subscription firing rfl rfl
    exact absurd (detached subscription isEarlier) (by simp [mayRun _ _ isLater])
  refine ⟨sound.seated, sound.released, detached, ?_⟩
  apply List.pairwise_append.mpr
  refine ⟨sound.silent, List.pairwise_of_forall_mem_list fun earlier isEarlier => ?_,
    fun earlier isEarlier => ?_⟩
  · exact apart earlier (List.mem_append_right _ isEarlier)
  · exact apart earlier (List.mem_append_left _ isEarlier)

theorem tell (sound : hub.Sound) (notes : List Note) : (hub.tell notes).Sound := by
  apply sound.write
  · intro place firing isNote
    simp at isNote
  · intro subscription isNote
    simp at isNote

/-- A callback of a responder that is not detached may run. -/
theorem record_fired (sound : hub.Sound) {place : Nat} (isAttached : hub.isDetached place = false)
    (firing : Firing α) : (hub.record (.fired place firing)).Sound := by
  apply sound.write
  · intro other firing isFired
    obtain ⟨rfl, -⟩ := Occurrence.fired.inj (List.mem_singleton.mp isFired)
    exact isAttached
  · intro subscription isDropped
    simp at isDropped

/-- A subscription whose responder is detached may be dropped. -/
theorem record_dropped (sound : hub.Sound) {subscription : Subscription}
    (isDetached : hub.isDetached subscription.place = true) :
    (hub.record (.dropped subscription)).Sound := by
  apply sound.write
  · intro place firing isFired
    simp at isFired
  · intro other isDropped
    obtain rfl := Occurrence.dropped.inj (List.mem_singleton.mp isDropped)
    exact isDetached

/-- A station may be altered when a detached responder stays detached, and is released
unless it is in the middle of something. -/
theorem alter (sound : hub.Sound) {place : Nat} {change : Station α → Station α}
    (allowed : ∀ station, hub.stations[place]? = some station →
      (station.responder.detached = true → (change station).responder.detached = true) ∧
        ((change station).busy = false → (change station).responder.IsReleased)) :
    (hub.alter place change).Sound where
  seated := by
    intro entry isKept
    rw [getElem?_alter, Option.isSome_map]
    exact sound.seated entry isKept
  released := by
    intro other station found isFree
    rw [getElem?_alter, Option.map_eq_some_iff] at found
    obtain ⟨before, foundBefore, rfl⟩ := found
    split at isFree
    · next same =>
        rw [if_pos same]
        exact (allowed before (same ▸ foundBefore)).2 isFree
    · next differ =>
        rw [if_neg differ]
        exact sound.released other before foundBefore isFree
  detached := by
    intro subscription isDropped
    obtain ⟨station, found, isDetached⟩ :=
      (hub.isDetached_iff _).mp (sound.detached subscription isDropped)
    refine (isDetached_iff ..).mpr ⟨_, by rw [getElem?_alter, found]; rfl, ?_⟩
    split
    · next same => exact (allowed station (same ▸ found)).1 isDetached
    · exact isDetached
  silent := sound.silent

/-- A responder may be changed when it stays detached if it was, and is released unless
it is in the middle of something. -/
theorem update (sound : hub.Sound) {place : Nat}
    {change : Responder α → Responder α × List Note}
    (allowed : ∀ station, hub.stations[place]? = some station →
      (change station.responder).1.detached = station.responder.detached ∧
        (station.busy = false → (change station.responder).1.IsReleased)) :
    (hub.update place change).Sound := by
  obtain ⟨notes, same⟩ := hub.update_eq place change
  rw [same]
  refine (sound.alter fun station found => ?_).tell notes
  exact ⟨fun isDetached => (allowed station found).1.trans isDetached, (allowed station found).2⟩

/-- The registry does not matter. -/
theorem enroll (sound : hub.Sound) (registry : Registry) : Sound { hub with registry } where
  seated := sound.seated
  released := sound.released
  detached := sound.detached
  silent := sound.silent

end Sound

/-! ## Subscriptions -/

/-- One hub is another with the station at a place altered and some listeners removed,
of which it is told. -/
def Alters (place : Nat) (change : Station α → Station α) (hub next : Hub α) : Prop :=
  ∃ registry notes, next = tell { hub.alter place change with registry } notes

theorem Alters.trans {place : Nat} {first second : Station α → Station α}
    {hub middle last : Hub α} (before : Alters place first hub middle)
    (after : Alters place second middle last) : Alters place (second ∘ first) hub last := by
  obtain ⟨_, notes, rfl⟩ := before
  obtain ⟨registry, more, rfl⟩ := after
  exact ⟨registry, notes ++ more, by simp [alter, tell, List.modify_modify_eq]⟩

theorem Alters.isBusy_eq {place : Nat} {change : Station α → Station α} {hub next : Hub α}
    (alters : Alters place change hub next)
    (keeps : ∀ station, (change station).busy = station.busy) (other : Nat) :
    next.isBusy other = hub.isBusy other := by
  obtain ⟨registry, notes, rfl⟩ := alters
  exact hub.isBusy_alter place change keeps other

theorem alters_update (hub : Hub α) (place : Nat)
    (change : Responder α → Responder α × List Note) :
    Alters place (fun station => { station with responder := (change station.responder).1 }) hub
      (hub.update place change) := by
  obtain ⟨notes, same⟩ := hub.update_eq place change
  exact ⟨hub.registry, notes, same⟩

theorem alters_remove (hub : Hub α) (place number : Nat) :
    Alters place id hub (hub.remove number) := by
  obtain ⟨registry, notes, same⟩ := hub.remove_eq number
  exact ⟨registry, notes, by rw [same, alter, List.modify_id]⟩

/-- Dropping a subscription alters the station of its responder.  The responder is
detached, and released unless it is in the middle of something. -/
theorem alters_drop (hub : Hub α) (subscription : Subscription) :
    ∃ change, Alters subscription.place change (hub.record (.dropped subscription))
        (hub.drop subscription) ∧
      (∀ station, (change station).busy = station.busy) ∧
      ∀ station, hub.stations[subscription.place]? = some station →
        (change station).responder.detached = true ∧
          ((change station).busy = false → (change station).responder.IsReleased) := by
  let recorded := hub.record (.dropped subscription)
  have detached := recorded.alters_update subscription.place fun responder =>
    ({ responder with detached := true }, [])
  have removed := detached.trans (alters_remove _ subscription.place subscription.listener)
  have sameBusy : _ = hub.isBusy subscription.place := removed.isBusy_eq (fun _ => rfl) _
  rw [drop, sameBusy]
  -- A responder in the middle of something does not give up anything yet.
  split
  · next isBusy =>
      refine ⟨_, removed, fun _ => rfl, fun station found => ⟨rfl, fun isFree => ?_⟩⟩
      exact absurd ((isBusy_eq found).symm.trans isBusy) (by simpa using isFree)
  · refine ⟨_, removed.trans (alters_update ..), fun _ => rfl, fun station _ => ⟨rfl, fun _ => ?_⟩⟩
    exact Responder.isReleased_abandon _

/-- What an action does to a sound hub: it stays sound, and the same responders are in
the middle of something. -/
def Sustains (hub next : Hub α) : Prop :=
  hub.Sound → next.Sound ∧ ∀ place, next.isBusy place = hub.isBusy place

theorem Sustains.refl (hub : Hub α) : Sustains hub hub :=
  fun sound => ⟨sound, fun _ => rfl⟩

theorem Sustains.trans {hub middle last : Hub α} (first : Sustains hub middle)
    (second : Sustains middle last) : Sustains hub last := by
  intro sound
  obtain ⟨middleSound, middleBusy⟩ := first sound
  obtain ⟨lastSound, lastBusy⟩ := second middleSound
  exact ⟨lastSound, fun place => (lastBusy place).trans (middleBusy place)⟩

section Subscriptions

variable (hub : Hub α)

theorem isSome_drop {subscription : Subscription} {place : Nat} :
    (hub.drop subscription).stations[place]?.isSome = hub.stations[place]?.isSome := by
  obtain ⟨change, ⟨registry, notes, same⟩, -⟩ := hub.alters_drop subscription
  rw [same]
  exact (congrArg Option.isSome (hub.getElem?_alter ..)).trans (Option.isSome_map ..)

/-- **Dropping a subscription detaches its responder and keeps the hub sound.** -/
theorem sustains_drop {subscription : Subscription}
    (seated : hub.stations[subscription.place]?.isSome) :
    Sustains hub (hub.drop subscription) := by
  intro sound
  obtain ⟨change, ⟨registry, notes, same⟩, keeps, allowed⟩ := hub.alters_drop subscription
  obtain ⟨station, found⟩ := Option.isSome_iff_exists.mp seated
  have altered : (hub.alter subscription.place change).Sound :=
    sound.alter fun station found => ⟨fun _ => (allowed station found).1, (allowed station found).2⟩
  have isDetached : (hub.alter subscription.place change).isDetached subscription.place = true := by
    refine (isDetached_iff ..).mpr ⟨change station, ?_, (allowed station found).1⟩
    rw [getElem?_alter, found, Option.map_some, if_pos rfl]
  rw [same]
  exact ⟨((altered.record_dropped isDetached).enroll registry).tell notes,
    hub.isBusy_alter subscription.place change keeps⟩

theorem sustains_keep {kept : List (String × Subscription)}
    (seated : ∀ entry ∈ kept, hub.stations[entry.2.place]?.isSome) :
    Sustains hub { hub with kept } :=
  fun sound => ⟨⟨seated, sound.released, sound.detached, sound.silent⟩, fun _ => rfl⟩

theorem isSome_unsubscribe {name : String} {place : Nat} :
    (hub.unsubscribe name).stations[place]?.isSome = hub.stations[place]?.isSome := by
  rw [unsubscribe]
  split
  · exact isSome_drop ..
  · rfl

theorem sustains_unsubscribe (name : String) : Sustains hub (hub.unsubscribe name) := by
  intro sound
  rw [unsubscribe]
  split
  · next subscription found =>
      have isKept : (name, subscription) ∈ hub.kept := by
        obtain ⟨before, after, isSplit, -⟩ := List.lookup_eq_some_iff.mp found
        exact isSplit ▸ List.mem_append_right _ List.mem_cons_self
      refine Sustains.trans (hub.sustains_keep ?_) (sustains_drop _ ?_) sound
      · exact fun entry isRest => sound.seated entry (List.mem_filter.mp isRest).1
      · exact sound.seated _ isKept
  · exact Sustains.refl hub sound

theorem getElem?_seat (responder : Responder α) (place : Nat) :
    (hub.seat responder).1.stations[place]? =
      if place = hub.stations.length then some ⟨responder, false⟩ else hub.stations[place]? := by
  have same : (hub.seat responder).1.stations = hub.stations ++ [⟨responder, false⟩] := rfl
  rw [same, List.getElem?_append]
  split
  · next inRange => rw [if_neg (Nat.ne_of_lt inRange)]
  · next outOfRange =>
      split
      · next isLast => simp [isLast]
      · next notLast =>
          rw [List.getElem?_eq_none (by simp; omega), List.getElem?_eq_none (by omega)]

theorem sustains_seat {responder : Responder α} (isAttached : responder.detached = false) :
    Sustains hub (hub.seat responder).1 := by
  intro sound
  have isFree : hub.stations[hub.stations.length]? = none := List.getElem?_eq_none (Nat.le_refl _)
  have stays : ∀ {place : Nat} {station : Station α}, hub.stations[place]? = some station →
      (hub.seat responder).1.stations[place]? = some station := by
    intro place station found
    obtain ⟨inRange, -⟩ := List.getElem?_eq_some_iff.mp found
    rw [getElem?_seat, if_neg (Nat.ne_of_lt inRange), found]
  have seated : Sound { hub with stations := (hub.seat responder).1.stations } := by
    refine ⟨fun entry isKept => ?_, fun place station found isIdle => ?_,
      fun subscription isDropped => ?_, sound.silent⟩
    · obtain ⟨station, found⟩ := Option.isSome_iff_exists.mp (sound.seated entry isKept)
      exact Option.isSome_iff_exists.mpr ⟨station, stays found⟩
    · rw [getElem?_seat] at found
      split at found
      · obtain rfl : ⟨responder, false⟩ = station := Option.some.inj found
        exact Responder.isReleased_of_attached isAttached
      · exact sound.released place station found isIdle
    · obtain ⟨station, found, isDetached⟩ :=
        (hub.isDetached_iff _).mp (sound.detached subscription isDropped)
      exact (isDetached_iff ..).mpr ⟨station, stays found, isDetached⟩
  refine ⟨seated.tell _, fun place => ?_⟩
  rw [isBusy, isBusy, getElem?_seat]
  split
  · next isNew => rw [isNew, isFree, Option.any_some, Option.any_none]
  · rfl

theorem sustains_listen (place : Nat) (kind : EventKind) :
    Sustains hub (hub.listen place kind).1 :=
  fun sound => ⟨(sound.enroll _).tell _, fun _ => rfl⟩

theorem sustains_remove (number : Nat) : Sustains hub (hub.remove number) := by
  intro sound
  obtain ⟨registry, notes, same⟩ := hub.remove_eq number
  rw [same]
  exact ⟨(sound.enroll registry).tell notes, fun _ => rfl⟩

theorem sustains_subscribe (name : String) (layout : Layout α) (settings : Settings) :
    Sustains hub (hub.subscribe name layout settings).1 := by
  have isAttached := Responder.detached_ofLayout layout settings
  let seated := (hub.seat (Responder.ofLayout layout settings)).1
  let listening := (seated.listen hub.stations.length settings.event).1
  have isSeated : listening.stations[hub.stations.length]?.isSome = true := by
    have same : listening.stations = seated.stations := rfl
    rw [same, getElem?_seat, if_pos rfl, Option.isSome_some]
  have cleared : Sustains hub (listening.unsubscribe name) :=
    ((hub.sustains_seat isAttached).trans (sustains_listen _ _ _)).trans (sustains_unsubscribe _ _)
  intro sound
  refine cleared.trans (sustains_keep _ fun entry isKept => ?_) sound
  rcases List.mem_append.mp isKept with isOld | isNew
  · exact (cleared sound).1.seated entry isOld
  · rw [List.mem_singleton.mp isNew, isSome_unsubscribe]
    exact isSeated

end Subscriptions

end Hub

end Keystrokes
