import Keystrokes.Keymap

/-!
# The report on a keymap

What is written about a keymap that has been accepted: how it listens, and how
each of its shortcuts is read.
-/

set_option autoImplicit false

namespace Keystrokes

/-- A text with spaces after it, up to a number of characters. -/
def padded (width : Nat) (text : String) : String :=
  text ++ String.ofList (List.replicate (width - text.length) ' ')

namespace Keymap

/-- The line about one shortcut: how it is read, whether it has several chords, and
its action. -/
def reportLine (entry : Shortcut × String) : String :=
  let kind := if entry.1.hasSeveral then "sequence" else "chord"
  "  " ++ padded 24 entry.1.text ++ " " ++ padded 8 kind ++ " -> " ++ entry.2

/-- The line about the settings. -/
def settingsLine (settings : Settings) : String :=
  s!"timeout: {settings.timeout}ms, event: {settings.event.name}, "
    ++ s!"platform: {settings.platform.name}"

/-- The report on a keymap that has been accepted. -/
def report (keymap : Keymap) : List String :=
  "Configuration is valid" :: settingsLine keymap.settings :: keymap.shortcuts.map reportLine

end Keymap

end Keystrokes
