import Keystrokes.Keyboard.Signal

/-!
# The registry of listeners

Listeners are numbered in the order of their registration, and no number is given
twice.  The list of listeners is in ascending order of their numbers.
-/

set_option autoImplicit false

namespace Keystrokes

/-- A responder that waits for one kind of event.  One responder may be registered
several times. -/
structure Listener where
  number : Nat
  kind : EventKind
  /-- The place of the responder. -/
  place : Nat
  deriving DecidableEq

/-- The listeners that are registered. -/
structure Registry where
  listeners : List Listener := []
  /-- The number of the next listener. -/
  nextNumber : Nat := 0
  deriving DecidableEq

namespace Registry

/-- Register the responder at a place. -/
def add (registry : Registry) (kind : EventKind) (place : Nat) : Registry where
  listeners := registry.listeners ++ [⟨registry.nextNumber, kind, place⟩]
  nextNumber := registry.nextNumber + 1

/-- Whether a listener is registered. -/
def contains (registry : Registry) (number : Nat) : Bool :=
  registry.listeners.any fun listener => listener.number == number

/-- Remove a listener. -/
def remove (registry : Registry) (number : Nat) : Registry :=
  { registry with listeners := registry.listeners.filter fun listener => listener.number != number }

/-- The listeners that wait for a kind of event. -/
def waitingFor (registry : Registry) (kind : EventKind) : List Listener :=
  registry.listeners.filter fun listener => listener.kind == kind

/-- The number of listeners. -/
def size (registry : Registry) : Nat :=
  registry.listeners.length

end Registry

end Keystrokes
