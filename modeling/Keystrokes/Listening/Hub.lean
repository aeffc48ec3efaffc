import Keystrokes.Listening.Registry
import Keystrokes.Responding.Responder

/-!
# Hubs

A hub delivers signals to responders.  This module gives its state and everything
that happens to it without a callback being run: responders get a place, listeners
are registered and removed, subscriptions are made and dropped.

Dropping a subscription detaches its responder.  No callback of a detached
responder runs, and what it has to do is given up at once, or, if it is in the
middle of something, when it has come to the end of it.

The journal of a hub lists all that happens in the order in which it happens.
-/

set_option autoImplicit false

namespace Keystrokes

/-! ## The state of a hub -/

/-- A subscription: a listener and the place of the responder made for it. -/
structure Subscription where
  listener : Nat
  place : Nat
  deriving DecidableEq

/-- A responder in its place at a hub. -/
structure Station (α : Type) where
  responder : Responder α
  /-- Whether the responder is in the middle of a signal or a poll. -/
  busy : Bool := false

/-- Something that happens at a hub. -/
inductive Occurrence (α : Type) where
  | note (note : Note)
  /-- A signal is handed to the responder of a listener. -/
  | delivered (listener : Listener) (signal : Signal)
  /-- The responder of a listener is asked to run what is due. -/
  | polled (listener : Listener)
  /-- A callback of the responder at a place runs. -/
  | fired (place : Nat) (firing : Firing α)
  /-- A subscription is dropped. -/
  | dropped (subscription : Subscription)

/-- A hub with its responders. -/
structure Hub (α : Type) where
  registry : Registry := {}
  /-- The responders made for this hub; none is ever taken away. -/
  stations : List (Station α) := []
  /-- The subscriptions that are kept, by name. -/
  kept : List (String × Subscription) := []
  /-- All that has happened. -/
  journal : List (Occurrence α) := []

namespace Hub

variable {α : Type}

/-! ## Looking at a hub -/

/-- The responder at a place. -/
def responder? (hub : Hub α) (place : Nat) : Option (Responder α) :=
  hub.stations[place]?.map Station.responder

/-- Whether the responder at a place is in the middle of something. -/
def isBusy (hub : Hub α) (place : Nat) : Bool :=
  hub.stations[place]?.any Station.busy

/-- Whether the responder at a place is detached. -/
def isDetached (hub : Hub α) (place : Nat) : Bool :=
  (hub.responder? place).any Responder.detached

/-- Whether callbacks of a subscription may still run. -/
def isActive (hub : Hub α) (subscription : Subscription) : Bool :=
  !hub.isDetached subscription.place

/-- The earliest deadline of the registered responders. -/
def deadline (hub : Hub α) : Option Nat :=
  (hub.registry.listeners.filterMap fun listener =>
    (hub.responder? listener.place).bind Responder.deadline).min?

/-- The subscription kept under a name. -/
def subscription? (hub : Hub α) (name : String) : Option Subscription :=
  hub.kept.lookup name

/-! ## Changing a hub -/

/-- Write an occurrence into the journal. -/
def record (hub : Hub α) (occurrence : Occurrence α) : Hub α :=
  { hub with journal := hub.journal ++ [occurrence] }

/-- Write notes into the journal. -/
def tell (hub : Hub α) (notes : List Note) : Hub α :=
  { hub with journal := hub.journal ++ notes.map .note }

/-- Change the responder at a place, and tell what is to be told about it. -/
def update (hub : Hub α) (place : Nat) (change : Responder α → Responder α × List Note) :
    Hub α :=
  match hub.responder? place with
  | some responder =>
      let (changed, notes) := change responder
      let updated : Hub α := { hub with
        stations := hub.stations.modify place fun station =>
          { station with responder := changed } }
      updated.tell notes
  | none => hub

/-- Say whether the responder at a place is in the middle of something. -/
def setBusy (hub : Hub α) (place : Nat) (busy : Bool) : Hub α :=
  { hub with stations := hub.stations.modify place fun station => { station with busy } }

/-- Give a responder a place, without registering it for anything. -/
def seat (hub : Hub α) (responder : Responder α) : Hub α × Nat :=
  let seated : Hub α := { hub with stations := hub.stations ++ [{ responder }] }
  (seated.tell [responder.builtNote], hub.stations.length)

/-- Register the responder at a place. -/
def listen (hub : Hub α) (place : Nat) (kind : EventKind) : Hub α × Nat :=
  let number := hub.registry.nextNumber
  let listening : Hub α := { hub with registry := hub.registry.add kind place }
  (listening.tell [.listenerAdded kind number], number)

/-- Remove a listener, if it is registered.  Its responder stays as it is. -/
def remove (hub : Hub α) (number : Nat) : Hub α :=
  if hub.registry.contains number then
    let removed : Hub α := { hub with registry := hub.registry.remove number }
    removed.tell [.listenerRemoved number]
  else hub

/-- Let the responder at a place give up everything. -/
def abandon (hub : Hub α) (place : Nat) : Hub α :=
  hub.update place Responder.abandon

/-- Detach the responder at a place, and let it give up everything. -/
def detach (hub : Hub α) (place : Nat) : Hub α :=
  hub.update place Responder.detach

/-! ## Subscriptions -/

/-- Drop a subscription: detach its responder, remove its listener, and let the
responder give up everything, unless it is in the middle of something and will do
so itself. -/
def drop (hub : Hub α) (subscription : Subscription) : Hub α :=
  let recorded := hub.record (.dropped subscription)
  let detached := recorded.update subscription.place fun responder =>
    ({ responder with detached := true }, [])
  let removed := detached.remove subscription.listener
  if removed.isBusy subscription.place then removed else removed.abandon subscription.place

/-- Drop the subscription kept under a name, if there is one. -/
def unsubscribe (hub : Hub α) (name : String) : Hub α :=
  match hub.subscription? name with
  | some subscription =>
      let released : Hub α := { hub with kept := hub.kept.filter fun entry => entry.1 != name }
      released.drop subscription
  | none => hub

/-- Drop every subscription that is kept, in ascending order of their names. -/
def unsubscribeAll (hub : Hub α) : Hub α :=
  ((hub.kept.map Prod.fst).mergeSort fun left right => left ≤ right).foldl unsubscribe hub

/-- Make a responder, register it for the event its settings name, and keep the
subscription under a name.  A subscription that was kept under that name is
dropped when the new one has been made. -/
def subscribe (hub : Hub α) (name : String) (layout : Layout α) (settings : Settings) :
    Hub α × Subscription :=
  let (seated, place) := hub.seat (Responder.ofLayout layout settings)
  let (listening, listener) := seated.listen place settings.event
  let subscription : Subscription := ⟨listener, place⟩
  let cleared := listening.unsubscribe name
  ({ cleared with kept := cleared.kept ++ [(name, subscription)] }, subscription)

end Hub

end Keystrokes
