import Keystrokes.Listening.Hub

/-!
# Delivery

A hub delivers signals to its responders and polls them, and callbacks run on the
way.  A callback may act on the hub: subscribe, drop a subscription, register and
remove listeners, deliver further signals.  What each callback does is given by a
script.  Two rules keep such callbacks in order.

* A signal goes to the listeners that were registered when its delivery began.
* A responder does one thing at a time.  Giving more to a responder that is in the
  middle of something never ends, so it has no outcome.
-/

set_option autoImplicit false

namespace Keystrokes

/-! ## Actions -/

/-- What may be done to a hub. -/
inductive Action (α : Type) where
  /-- Subscribe, and keep the subscription under a name. -/
  | subscribe (name : String) (layout : Layout α) (settings : Settings)
  /-- Drop the subscription kept under a name. -/
  | unsubscribe (name : String)
  /-- Register the responder at a place. -/
  | listen (place : Nat) (kind : EventKind)
  /-- Remove a listener. -/
  | remove (listener : Nat)
  /-- Deliver a signal. -/
  | deliver (signal : Signal)
  /-- Run what is due. -/
  | poll

/-- What an action answers. -/
inductive Reply where
  | subscribed (subscription : Subscription)
  | listening (listener : Nat)
  /-- Whether there was something to drop or to remove. -/
  | found (answer : Bool)
  | done
  deriving DecidableEq

/-- Why an action has no outcome. -/
inductive Stall where
  /-- The responder at a place was given more in the middle of something. -/
  | busy (place : Nat)
  /-- Callbacks ran within callbacks more deeply than allowed. -/
  | tooDeep
  deriving DecidableEq

/-- What running a callback does to a hub. -/
abbrev Effect (α : Type) := α → Hub α → Except Stall (Hub α)

namespace Hub

variable {α : Type}

/-! ## One responder

Everything is given the effect of running a callback, so that it holds for
callbacks of any kind. -/

/-- Run one call of the responder at a place, unless the responder is detached. -/
def fire (effect : Effect α) (place : Nat) (hub : Hub α) (call : Call) :
    Except Stall (Hub α) :=
  match (hub.responder? place).bind fun responder => responder.callback? call with
  | some entry =>
      effect entry.callback
        ((hub.tell [.firing entry.label]).record
          (.fired place ⟨call.shortcut, entry.callback, call.event⟩))
  | none => .ok hub

/-- Let the responder at a place run what is due. -/
def pollResponder (effect : Effect α) (now place : Nat) (hub : Hub α) :
    Except Stall (Hub α) :=
  match hub.responder? place with
  | some responder => do
      let (due, _) := responder.collect now
      let collected := hub.update place fun responder => ((responder.collect now).2, [])
      let fired ← (due.calls.map PostponedCall.call).foldlM (fire effect place) collected
      return fired.update place fun responder => responder.concludePoll due.pauseOver
  | none => .ok hub

/-- Let the responder at a place take a keystroke. -/
def takeAt (effect : Effect α) (now place : Nat) (event : KeyEvent) (hub : Hub α) :
    Except Stall (Hub α) :=
  match hub.responder? place with
  | some responder => do
      let response := responder.take event now
      let taken := hub.update place fun _ => (response.responder, response.notes)
      let calls := response.firing.map fun shortcut => (⟨shortcut, event⟩ : Call)
      let fired ← calls.foldlM (fire effect place) taken
      return fired.update place Responder.abandonIfDetached
  | none => .ok hub

/-- Let the responder at a place handle a signal. -/
def handleAt (effect : Effect α) (now place : Nat) (signal : Signal) (hub : Hub α) :
    Except Stall (Hub α) :=
  match hub.responder? place with
  | some responder =>
      match responder.screen signal with
      | .error reason => .ok (hub.tell [reason])
      | .ok event => do
          let polled ← pollResponder effect now place hub
          if polled.isDetached place then return polled
          else takeAt effect now place event polled
  | none => .ok hub

/-- Do something with the responder at a place, which is busy meanwhile. -/
def occupy (place : Nat) (work : Hub α → Except Stall (Hub α)) (hub : Hub α) :
    Except Stall (Hub α) :=
  if hub.isBusy place then .error (.busy place)
  else do
    let worked ← work (hub.setBusy place true)
    return worked.setBusy place false

/-! ## Every responder -/

/-- Hand a signal to the responder of a listener. -/
def hand (effect : Effect α) (now : Nat) (signal : Signal) (hub : Hub α) (listener : Listener) :
    Except Stall (Hub α) :=
  occupy listener.place (handleAt effect now listener.place signal)
    (hub.record (.delivered listener signal))

/-- Ask the responder of a listener to run what is due. -/
def ask (effect : Effect α) (now : Nat) (hub : Hub α) (listener : Listener) :
    Except Stall (Hub α) :=
  occupy listener.place (pollResponder effect now listener.place)
    (hub.record (.polled listener))

/-- Deliver a signal to the listeners that wait for its kind when delivery begins,
in the order of their numbers. -/
def deliver (effect : Effect α) (now : Nat) (signal : Signal) (hub : Hub α) :
    Except Stall (Hub α) :=
  (hub.registry.waitingFor signal.kind).foldlM (hand effect now signal) hub

/-- Ask every listener that is registered when polling begins, in the order of
their numbers. -/
def poll (effect : Effect α) (now : Nat) (hub : Hub α) : Except Stall (Hub α) :=
  hub.registry.listeners.foldlM (ask effect now) hub

/-- Perform one action at a moment. -/
def perform (effect : Effect α) (now : Nat) (hub : Hub α) :
    Action α → Except Stall (Hub α × Reply)
  | .subscribe name layout settings =>
      let (next, subscription) := hub.subscribe name layout settings
      .ok (next, .subscribed subscription)
  | .unsubscribe name => .ok (hub.unsubscribe name, .found (hub.subscription? name).isSome)
  | .listen place kind =>
      let (next, listener) := hub.listen place kind
      .ok (next, .listening listener)
  | .remove listener => .ok (hub.remove listener, .found (hub.registry.contains listener))
  | .deliver signal => do
      return (← hub.deliver effect now signal, .done)
  | .poll => do
      return (← hub.poll effect now, .done)

/-! ## Callbacks with a script -/

/-- Perform the actions of a callback's script one after the other, at the moment
of the action that made the callback run.  `depth` bounds how many callbacks may
run within one another. -/
def runScript (script : α → List (Action α)) (now : Nat) : Nat → Effect α
  | 0, callback, hub => if (script callback).isEmpty then .ok hub else .error .tooDeep
  | depth + 1, callback, hub =>
      (script callback).foldlM
        (fun hub action => Prod.fst <$> hub.perform (runScript script now depth) now action) hub

/-- Perform one action, callbacks acting by their script. -/
def act (script : α → List (Action α)) (depth now : Nat) (hub : Hub α) (action : Action α) :
    Except Stall (Hub α × Reply) :=
  hub.perform (runScript script now depth) now action

end Hub

end Keystrokes
