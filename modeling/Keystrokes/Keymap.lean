import Keystrokes.Keymap.Document
import Keystrokes.Note
import Keystrokes.Responding.Layout
import Keystrokes.Responding.Settings
import Keystrokes.Text.Blank

/-!
# Keymaps

A keymap says how to listen and gives an action to each written shortcut.  A text
that is no keymap document is refused as malformed.  In a keymap document the
timeout is checked first and the platform second; entries that say nothing are
skipped with a warning.
-/

set_option autoImplicit false

namespace Keystrokes

/-! ## Timeouts that may be asked for -/

/-- The shortest timeout that may be asked for, in milliseconds. -/
def leastTimeout : Nat := 50

/-- The longest timeout that may be asked for, in milliseconds. -/
def greatestTimeout : Nat := 60000

/-- Whether a timeout may be asked for. -/
def timeoutInRange (timeout : Nat) : Bool :=
  leastTimeout ≤ timeout && timeout ≤ greatestTimeout

/-- How a timeout out of range is described. -/
def timeoutRangeText (timeout : Nat) : String :=
  s!"must be {leastTimeout}-{greatestTimeout}ms, got {timeout}"

/-! ## Keymaps and their faults -/

/-- What a keymap file says. -/
structure Keymap where
  timeout : Nat := ({} : Settings).timeout
  event : EventKind := ({} : Settings).event
  /-- The platform, if the file names one. -/
  platform : Option Platform := none
  /-- Written shortcuts, each with its action, in the order of the file. -/
  entries : List (String × String) := []
  deriving DecidableEq

/-- Why a keymap file is refused. -/
inductive KeymapError where
  /-- The text is not TOML, or not of the shape of a keymap document. -/
  | malformed
  | timeoutOutOfRange (timeout : Nat)
  | unknownPlatform (name : String)
  deriving DecidableEq

/-- The wording of a refusal. -/
def KeymapError.message : KeymapError → String
  | .malformed => "TOML parse error"
  | .timeoutOutOfRange timeout =>
      "Timeout value out of range: timeout " ++ timeoutRangeText timeout
  | .unknownPlatform name => "Unknown platform: " ++ name

/-! ## Reading -/

/-- Whether an entry says something: neither its shortcut nor its action is blank. -/
def saysSomething (entry : String × String) : Bool :=
  !Text.allBlank entry.1 && !Text.allBlank entry.2

namespace Keymap

/-- The timeout of a document, if it may be asked for; the usual one when the
document names none. -/
def checkedTimeout : Option Nat → Except KeymapError Nat
  | some timeout =>
      if timeoutInRange timeout then .ok timeout else .error (.timeoutOutOfRange timeout)
  | none => .ok ({} : Settings).timeout

/-- The platform of a document, if it has one and its name is known. -/
def checkedPlatform : Option String → Except KeymapError (Option Platform)
  | some name =>
      match Platform.ofName? name with
      | some platform => .ok (some platform)
      | none => .error (.unknownPlatform name)
  | none => .ok none

/-- The warnings about the entries that are skipped, then the sizes of the keymap. -/
def notes (document : KeymapDocument) (keymap : Keymap) : List Note :=
  (document.entries.filter fun entry => !saysSomething entry).map
      (fun entry => .entrySkipped entry.1 entry.2)
    ++ [.keymapRead keymap.entries.length keymap.timeout]

/-- The keymap of a document, with what is told about it. -/
def ofDocument (document : KeymapDocument) : Except KeymapError (Keymap × List Note) := do
  let timeout ← checkedTimeout document.timeout
  let platform ← checkedPlatform document.platform
  let keymap : Keymap :=
    { timeout
      event := document.event.getD ({} : Settings).event
      platform
      entries := document.entries.filter saysSomething }
  return (keymap, notes document keymap)

/-- Read a keymap file. -/
def read (text : String) : Except KeymapError (Keymap × List Note) :=
  match KeymapDocument.ofText? text with
  | some document => ofDocument document
  | none => .error .malformed

/-! ## What a keymap gives -/

/-- The settings to listen with. -/
def settings (keymap : Keymap) : Settings :=
  { timeout := keymap.timeout
    event := keymap.event
    platform := keymap.platform.getD Platform.host }

/-- The shortcuts, read for the platform of the settings, with their actions. -/
def shortcuts (keymap : Keymap) : List (Shortcut × String) :=
  let reader : ShortcutReader := { platform := keymap.settings.platform }
  (FlatLayout.readEntries reader keymap.entries).1.map fun bound => (bound.shortcut, bound.callback)

/-- The layout that gives each shortcut the callback made from its action. -/
def layout {α : Type} (keymap : Keymap) (callback : String → α) : FlatLayout α :=
  keymap.entries.foldl (fun layout entry => layout.bind entry.1 (callback entry.2)) {}

end Keymap

end Keystrokes
