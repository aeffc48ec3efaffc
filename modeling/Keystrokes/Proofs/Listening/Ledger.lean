import Keystrokes.Proofs.Listening.Order
import Mathlib.Data.List.Range

/-!
# The ledger of a hub

The journal tells which numbers have been given to listeners and which listeners have been
removed.  With the registry this is the ledger of a hub.  A listener is entered or struck out,
and nothing else ever happens to a ledger: that is what registering, removing, subscribing and
dropping a subscription do to it (`Hub.ledger_subscribe`, `Hub.ledger_unsubscribe`).

A ledger is balanced when the numbers have been given in their order and the listeners that are
registered are those that have got a number and have not been removed (`Ledger.IsBalanced`).
Entering and striking out keep a ledger balanced, so the ledger of every hub that arises is
balanced (`Hub.Arises.isBalanced`).
-/

set_option autoImplicit false

namespace Keystrokes

/-! ## Ledgers -/

/-- A registry, with the numbers that it has given and those whose listeners it has removed,
the earliest first. -/
structure Ledger where
  registry : Registry := {}
  given : List Nat := []
  removed : List Nat := []

namespace Registry

variable {registry : Registry} {number other : Nat}

theorem contains_iff :
    registry.contains number = true ↔ ∃ listener ∈ registry.listeners, listener.number = number := by
  simp [contains]

theorem contains_add {kind : EventKind} {place : Nat} :
    (registry.add kind place).contains number = true ↔
      registry.contains number = true ∨ registry.nextNumber = number := by
  simp [contains, add]

theorem contains_remove :
    (registry.remove number).contains other = true ↔
      registry.contains other = true ∧ other ≠ number := by
  simp only [contains_iff, remove, List.mem_filter, bne_iff_ne]
  constructor
  · rintro ⟨listener, ⟨isListener, isOther⟩, rfl⟩
    exact ⟨⟨listener, isListener, rfl⟩, isOther⟩
  · rintro ⟨⟨listener, isListener, rfl⟩, isOther⟩
    exact ⟨listener, ⟨isListener, isOther⟩, rfl⟩

/-- **To remove a listener takes it alone out of the list.** -/
theorem InOrder.exists_removed (inOrder : registry.InOrder)
    (isRegistered : registry.contains number = true) :
    ∃ before listener after, listener.number = number ∧
      registry.listeners = before ++ listener :: after ∧
      (registry.remove number).listeners = before ++ after := by
  obtain ⟨listener, isListener, rfl⟩ := contains_iff.mp isRegistered
  obtain ⟨before, after, isSplit⟩ := List.append_of_mem isListener
  have ascending := inOrder.ascending
  rw [isSplit, List.pairwise_append, List.pairwise_cons] at ascending
  obtain ⟨-, ⟨isLess, -⟩, areLess⟩ := ascending
  have keepsBefore : before.filter (fun other => other.number != listener.number) = before := by
    refine List.filter_eq_self.mpr fun other isBefore => bne_iff_ne.mpr ?_
    exact Nat.ne_of_lt (areLess other isBefore listener List.mem_cons_self)
  have keepsAfter : after.filter (fun other => other.number != listener.number) = after := by
    refine List.filter_eq_self.mpr fun other isAfter => bne_iff_ne.mpr ?_
    exact Nat.ne_of_gt (isLess other isAfter)
  refine ⟨before, listener, after, rfl, isSplit, ?_⟩
  rw [Registry.remove, isSplit, List.filter_append, List.filter_cons_of_neg (by simp), keepsBefore,
    keepsAfter]

end Registry

namespace Ledger

variable {ledger : Ledger}

/-- The ledger with one more listener, which gets the next number. -/
def enter (ledger : Ledger) (kind : EventKind) (place : Nat) : Ledger where
  registry := ledger.registry.add kind place
  given := ledger.given ++ [ledger.registry.nextNumber]
  removed := ledger.removed

/-- The ledger without the listener of a number, if it is registered. -/
def strike (ledger : Ledger) (number : Nat) : Ledger :=
  if ledger.registry.contains number then
    { ledger with
      registry := ledger.registry.remove number
      removed := ledger.removed ++ [number] }
  else ledger

/-- The ledger without the listener of a subscription, if there is a subscription. -/
def release (ledger : Ledger) : Option Subscription → Ledger
  | some subscription => ledger.strike subscription.listener
  | none => ledger

/-- The numbers have been given in their order, none of them twice, and the listeners that are
registered, in the same order, are those that have got a number and have not been removed. -/
structure IsBalanced (ledger : Ledger) : Prop where
  inOrder : ledger.registry.InOrder
  given : ledger.given = List.range ledger.registry.nextNumber
  contains_iff : ∀ number, ledger.registry.contains number = true ↔
    number ∈ ledger.given ∧ number ∉ ledger.removed
  subset : ledger.removed ⊆ ledger.given
  once : ledger.removed.Nodup

theorem isBalanced_empty : IsBalanced {} where
  inOrder := ⟨.nil, by simp⟩
  given := rfl
  contains_iff := by simp [Registry.contains]
  subset := List.Subset.refl []
  once := .nil

namespace IsBalanced

theorem lt_of_mem_given (balanced : ledger.IsBalanced) {number : Nat}
    (isGiven : number ∈ ledger.given) : number < ledger.registry.nextNumber := by
  rwa [balanced.given, List.mem_range] at isGiven

/-- **A listener may be entered**, since the next number has not been given. -/
theorem enter (balanced : ledger.IsBalanced) (kind : EventKind) (place : Nat) :
    (ledger.enter kind place).IsBalanced where
  inOrder := balanced.inOrder.add kind place
  given := by
    rw [Ledger.enter, balanced.given]
    exact List.range_succ.symm
  contains_iff := by
    intro number
    have fresh : ledger.registry.nextNumber ∉ ledger.removed := fun isRemoved =>
      Nat.lt_irrefl _ (balanced.lt_of_mem_given (balanced.subset isRemoved))
    rw [Ledger.enter, Registry.contains_add, balanced.contains_iff, List.mem_append,
      List.mem_singleton]
    constructor
    · rintro (⟨isGiven, notRemoved⟩ | rfl)
      · exact ⟨.inl isGiven, notRemoved⟩
      · exact ⟨.inr rfl, fresh⟩
    · rintro ⟨isGiven | isNew, notRemoved⟩
      · exact .inl ⟨isGiven, notRemoved⟩
      · exact .inr isNew.symm
  subset := fun _ isRemoved => List.mem_append_left _ (balanced.subset isRemoved)
  once := balanced.once

/-- **A listener may be struck out**, since it has not been removed before. -/
theorem strike (balanced : ledger.IsBalanced) (number : Nat) :
    (ledger.strike number).IsBalanced := by
  rw [Ledger.strike]
  split
  · next isRegistered =>
      obtain ⟨isGiven, notRemoved⟩ := (balanced.contains_iff number).mp isRegistered
      refine ⟨balanced.inOrder.remove number, balanced.given, fun other => ?_, ?_, ?_⟩
      · rw [Registry.contains_remove, balanced.contains_iff]
        simp [and_assoc]
      · simpa using ⟨balanced.subset, isGiven⟩
      · refine List.nodup_append.mpr ⟨balanced.once, by simp, ?_⟩
        rintro other isRemoved last isLast rfl
        exact notRemoved (List.mem_singleton.mp isLast ▸ isRemoved)
  · exact balanced

end IsBalanced

end Ledger

/-! ## What the journal tells of numbers -/

section

variable {α : Type}

/-- The number that is given to a listener, if one is registered. -/
def Occurrence.given? : Occurrence α → Option Nat
  | .note (.listenerAdded _ number) => some number
  | _ => none

/-- The number of the listener that is removed, if one is. -/
def Occurrence.removed? : Occurrence α → Option Nat
  | .note (.listenerRemoved number) => some number
  | _ => none

theorem Occurrence.IsQuiet.tellsNothing {occurrence : Occurrence α} (isQuiet : occurrence.IsQuiet) :
    occurrence.given? = none ∧ occurrence.removed? = none := by
  cases occurrence with
  | note told => cases told <;> first | exact ⟨rfl, rfl⟩ | exact absurd isQuiet id
  | delivered | polled | fired | dropped => exact ⟨rfl, rfl⟩

namespace Hub

variable {hub next : Hub α}

/-- The ledger of a hub: its registry, and the numbers that its journal tells of. -/
def ledger (hub : Hub α) : Ledger where
  registry := hub.registry
  given := hub.journal.filterMap Occurrence.given?
  removed := hub.journal.filterMap Occurrence.removed?

/-! ## What happens to the ledger of a hub -/

/-- Quiet writing leaves the ledger as it is. -/
theorem ledger_of_writes (writes : Writes Occurrence.IsQuiet hub next) : next.ledger = hub.ledger := by
  obtain ⟨sameRegistry, written, grows, areQuiet⟩ := writes
  have givesNone : written.filterMap Occurrence.given? = [] :=
    List.filterMap_eq_nil_iff.mpr fun _ isWritten => (areQuiet _ isWritten).tellsNothing.1
  have removesNone : written.filterMap Occurrence.removed? = [] :=
    List.filterMap_eq_nil_iff.mpr fun _ isWritten => (areQuiet _ isWritten).tellsNothing.2
  simp only [ledger, sameRegistry, grows, List.filterMap_append, givesNone, removesNone,
    List.append_nil]

theorem ledger_of_calm (writes : Writes Occurrence.IsCalm hub next) : next.ledger = hub.ledger :=
  ledger_of_writes (writes.mono Occurrence.IsCalm.isQuiet)

variable (hub)

theorem ledger_listen (place : Nat) (kind : EventKind) :
    (hub.listen place kind).1.ledger = hub.ledger.enter kind place := by
  simp [ledger, listen, tell, Ledger.enter, List.filterMap_append, Occurrence.given?,
    Occurrence.removed?]

theorem ledger_remove (number : Nat) : (hub.remove number).ledger = hub.ledger.strike number := by
  have sameContains : hub.ledger.registry.contains number = hub.registry.contains number := rfl
  rw [remove, Ledger.strike, sameContains]
  split
  · simp [ledger, tell, List.filterMap_append, Occurrence.given?, Occurrence.removed?]
  · rfl

/-- Dropping a subscription strikes out its listener. -/
theorem ledger_drop (subscription : Subscription) :
    (hub.drop subscription).ledger = hub.ledger.strike subscription.listener := by
  let recorded := hub.record (.dropped subscription)
  have sameRecorded : recorded.ledger = hub.ledger := ledger_of_calm (hub.writes_record trivial)
  have sameDetached : (recorded.update subscription.place fun responder =>
      ({ responder with detached := true }, [])).ledger = recorded.ledger :=
    ledger_of_calm (recorded.writes_update (by simp))
  rw [drop]
  split
  · rw [ledger_remove, sameDetached, sameRecorded]
  · rw [abandon, ledger_of_calm, ledger_remove, sameDetached, sameRecorded]
    exact writes_update _ fun _ _ => Agenda.isQuiet_of_mem_abandonNotes

theorem ledger_unsubscribe (name : String) :
    (hub.unsubscribe name).ledger = hub.ledger.release (hub.subscription? name) := by
  rw [unsubscribe]
  cases hub.subscription? name with
  | none => rfl
  | some subscription => exact ledger_drop _ subscription

/-- Subscribing enters a listener, and strikes out that of the subscription which was kept under
the same name. -/
theorem ledger_subscribe (name : String) (layout : Layout α) (settings : Settings) :
    (hub.subscribe name layout settings).1.ledger =
      (hub.ledger.enter settings.event hub.stations.length).release (hub.subscription? name) := by
  have seated := ledger_of_calm (hub.writes_seat (Responder.ofLayout layout settings))
  rw [← seated, ← ledger_listen]
  exact ledger_unsubscribe _ name

/-! ## Balance -/

/-- **Balance lasts.** -/
theorem lasting_isBalanced : Lasting fun hub : Hub α => hub.ledger.IsBalanced where
  writes := fun writes balanced => ledger_of_writes writes ▸ balanced
  listen := fun place kind balanced => ledger_listen _ place kind ▸ balanced.enter kind place
  remove := fun number balanced => ledger_remove _ number ▸ balanced.strike number

variable {hub}

/-- The ledger of every hub that arises is balanced. -/
theorem Arises.isBalanced (arises : hub.Arises) : hub.ledger.IsBalanced :=
  lasting_isBalanced.of_arises Ledger.isBalanced_empty arises

/-- **The number of a listener is not given again.** -/
theorem Arises.not_given_again (arises : hub.Arises) (arisesLater : next.Arises)
    {more : List (Occurrence α)} (grows : next.journal = hub.journal ++ more) {listener : Listener}
    (isListener : listener ∈ hub.registry.listeners) :
    listener.number ∉ more.filterMap Occurrence.given? := by
  intro isGivenAgain
  have isGiven : listener.number ∈ hub.ledger.given := by
    rw [arises.isBalanced.given, List.mem_range]
    exact arises.isBalanced.inOrder.numbered listener isListener
  -- The number would stand twice among those that have been given later on.
  have givenLater : next.ledger.given = hub.ledger.given ++ more.filterMap Occurrence.given? := by
    rw [ledger, grows]
    exact List.filterMap_append
  have once : next.ledger.given.Nodup := by
    rw [arisesLater.isBalanced.given]
    exact List.nodup_range
  rw [givenLater] at once
  exact (List.nodup_append.mp once).2.2 _ isGiven _ isGivenAgain rfl

end Hub

end

end Keystrokes
