import Keystrokes.Keyboard.Platform
import Keystrokes.Keyboard.Signal

/-!
# Settings of a listener
-/

set_option autoImplicit false

namespace Keystrokes

/-- How a listener treats signals.

| field      | default                 |
|------------|-------------------------|
| `timeout`  | one second              |
| `event`    | key down                |
| `platform` | the host                |
| `tracked`  | all four modifiers      |
| `filter`   | none: accept everything | -/
structure Settings where
  /-- The longest pause between the keystrokes of a shortcut, and the time for
  which a call is postponed when its shortcut could still grow, in milliseconds. -/
  timeout : Nat := 1000
  /-- The event that the listener waits for. -/
  event : EventKind := .keyDown
  /-- The platform whose own modifier `$mod` stands for. -/
  platform : Platform := .host
  /-- The modifiers that key events are asked about. -/
  tracked : Modifiers := Modifiers.all
  /-- Which key events are accepted. -/
  filter : Option KeyFilter := none

end Keystrokes
