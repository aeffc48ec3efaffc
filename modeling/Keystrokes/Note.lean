import Keystrokes.Keyboard.Signal
import Keystrokes.Text.Decimal
import Keystrokes.Text.Quoted

/-!
# Notes

The library tells what it does in notes, which a host may write to its log.  A
note is a value; its wording and its severity are fixed here and nowhere else.
-/

set_option autoImplicit false

namespace Keystrokes

/-- How much a note matters. -/
inductive Severity where
  | trace
  | debug
  | warning
  deriving DecidableEq

/-- The word for a severity in a log. -/
def Severity.name : Severity → String
  | .trace => "TRACE"
  | .debug => "DEBUG"
  | .warning => "WARN"

/-- The two ways in which matchers look at their shortcuts. -/
inductive MatcherKind where
  /-- One shortcut after the other. -/
  | list
  /-- As a tree of chords. -/
  | tree
  deriving DecidableEq

/-- Something worth telling. -/
inductive Note where
  /-- A matcher is given a keystroke. -/
  | struck (matcher : MatcherKind) (stroke : Keystroke)
  /-- A modifier that was let go leaves the trail. -/
  | dropped (stroke : Keystroke)
  /-- Nothing is left to be typed, so a matcher starts again. -/
  | restarted (matcher : MatcherKind) (strokes : Nat)
  /-- Postponed calls are given up, and so is the end of the pause. -/
  | abandoned (calls : Nat)
  /-- A signal is not a key event. -/
  | foreign (kind : EventKind)
  /-- A filter refuses a key event. -/
  | filtered (key : String)
  /-- A responder is built. -/
  | built (shortcuts timeout : Nat)
  /-- A call is postponed. -/
  | postponed (label : String)
  /-- A callback is about to run. -/
  | firing (label : String)
  /-- The pause has come to its end, and the trail is given up. -/
  | timedOut (strokes : Nat)
  | listenerAdded (kind : EventKind) (listener : Nat)
  | listenerRemoved (listener : Nat)
  /-- An entry of a keymap file says nothing. -/
  | entrySkipped (shortcut action : String)
  /-- A keymap file is accepted. -/
  | keymapRead (shortcuts timeout : Nat)
  deriving DecidableEq

namespace Note

/-- How much a note matters. -/
def severity : Note → Severity
  | .struck .. | .dropped .. | .restarted .. | .abandoned .. | .foreign .. | .filtered .. => .trace
  | .entrySkipped .. => .warning
  | _ => .debug

/-- The wording of a note. -/
def message : Note → String
  | .struck .list stroke => s!"Sequence matcher press: {stroke.text}"
  | .struck .tree stroke => s!"Scoped matcher press: {stroke.text}"
  | .dropped stroke => s!"Dropping released modifier {stroke.text}"
  | .restarted .list strokes => s!"No binding possible after {strokes} presses, resetting"
  | .restarted .tree strokes => s!"No scope continues after {strokes} presses, resetting"
  | .abandoned calls => s!"Cancelling {calls} deferred calls and the reset timer"
  | .foreign kind => s!"Ignoring non-keyboard {kind.name} event"
  | .filtered key => s!"Event filtered out: {key}"
  | .built shortcuts timeout =>
      s!"Created keybindings handler: {shortcuts} bindings, timeout {Text.duration timeout}"
  | .postponed label => s!"Deferring {label} until longer sequences are ruled out"
  | .firing label => s!"Firing {label}"
  | .timedOut strokes => s!"Sequence timed out after {strokes} presses"
  | .listenerAdded kind listener => s!"Added {kind.name} listener {listener}"
  | .listenerRemoved listener => s!"Removed listener {listener}"
  | .entrySkipped shortcut action =>
      "Skipping keymap entry with empty binding or action: " ++ Text.quoted shortcut ++ " = "
        ++ Text.quoted action
  | .keymapRead shortcuts timeout =>
      s!"Parsed keymap config: {shortcuts} bindings, timeout {Text.duration timeout}"

/-- A note as a line of a log. -/
def line (note : Note) : String :=
  note.severity.name ++ " " ++ note.message

end Note

end Keystrokes
