import Keystrokes.Keyboard.Keystroke

/-!
# Signals

What a host delivers to a listener: key events, and signals of another sort that
go by the name of a key event and are never matched.  A key event is turned into a
keystroke by asking it which of the tracked modifiers are held.
-/

set_option autoImplicit false

namespace Keystrokes

/-! ## Kinds of event -/

/-- The event that a listener waits for. -/
inductive EventKind where
  | keyDown
  | keyUp
  deriving DecidableEq

namespace EventKind

/-- The name used by hosts and in keymap files. -/
def name : EventKind → String
  | .keyDown => "keydown"
  | .keyUp => "keyup"

/-- The kind of a name.  Case matters. -/
def ofName? (text : String) : Option EventKind :=
  [keyDown, keyUp].find? fun kind => kind.name == text

end EventKind

/-- The sort of element that an event was delivered to. -/
inductive Recipient where
  | document
  /-- A text input or another control whose text can be edited. -/
  | editable
  | element
  deriving DecidableEq

/-! ## Key events -/

/-- A key event. -/
structure KeyEvent where
  kind : EventKind := .keyDown
  key : String
  code : String
  /-- The modifiers held, if the host can tell. -/
  modifiers : Option Modifiers := some Modifiers.none
  /-- Whether the event comes from a key that is held down. -/
  isRepeat : Bool := false
  recipient : Recipient := .document
  deriving DecidableEq

namespace KeyEvent

/-- The tracked modifiers that are held.  A host that cannot tell holds none. -/
def heldAmong (event : KeyEvent) (tracked : Modifiers) : Modifiers :=
  tracked.inter (event.modifiers.getD Modifiers.none)

/-- The keystroke of an event. -/
def stroke (event : KeyEvent) (tracked : Modifiers) : Keystroke :=
  { held := event.heldAmong tracked, key := event.key, code := event.code }

end KeyEvent

/-! ## Signals -/

/-- What is delivered to a listener. -/
inductive Signal where
  | key (event : KeyEvent)
  /-- A signal of another sort under the name of a key event. -/
  | foreign (kind : EventKind)
  deriving DecidableEq

namespace Signal

/-- The name under which a signal was delivered. -/
def kind : Signal → EventKind
  | .key event => event.kind
  | .foreign kind => kind

/-- The key event, if it is one. -/
def keyEvent? : Signal → Option KeyEvent
  | .key event => some event
  | .foreign _ => none

end Signal

/-! ## Filters -/

/-- A filter tells which key events a listener accepts. -/
abbrev KeyFilter := KeyEvent → Bool

namespace KeyFilter

/-- Refuses what is typed into editable text. -/
def outsideText : KeyFilter := fun event => event.recipient != .editable

/-- Refuses the events of a key that is held down. -/
def firstPressOnly : KeyFilter := fun event => !event.isRepeat

end KeyFilter

end Keystrokes
