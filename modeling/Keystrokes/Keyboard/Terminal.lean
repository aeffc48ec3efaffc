import Keystrokes.Keyboard.Signal

/-!
# What terminals report

A terminal reports keys by the characters they type and by names of its own.
This module turns such a report into a key event.  The physical key behind a
printable character is that of the US layout; a character that this layout does
not type has no physical key.
-/

set_option autoImplicit false

namespace Keystrokes.Terminal

/-! ## What a terminal reports -/

/-- What happened to a key. -/
inductive Motion where
  | press
  | hold
  | release
  deriving DecidableEq

/-- A modifier that a terminal reports with a key. -/
inductive Flag where
  | shift
  | control
  | alt
  | super
  | hyper
  | metaKey
  deriving DecidableEq

/-- The side of the keyboard. -/
inductive Side where
  | left
  | right
  deriving DecidableEq

/-- A modifier key that is reported for itself. -/
inductive ModifierKey where
  | shift (side : Side)
  | control (side : Side)
  | alt (side : Side)
  | super (side : Side)
  | hyper (side : Side)
  | metaKey (side : Side)
  | isoLevel3Shift
  | isoLevel5Shift
  deriving DecidableEq

/-- A key with a name. -/
inductive NamedKey where
  | backspace | enter | left | right | up | down | home | endKey | pageUp | pageDown
  | tab | backTab | delete | insert | escape
  | capsLock | scrollLock | numLock | printScreen | pause | menu
  | keypadBegin | null
  deriving DecidableEq

/-- A key, as a terminal tells it. -/
inductive Key where
  | character (character : Char)
  | function (number : Nat)
  | named (key : NamedKey)
  | modifier (key : ModifierKey)
  /-- A key that plays, pauses or changes the volume. -/
  | media
  deriving DecidableEq

/-- A key event, as a terminal tells it. -/
structure KeyReport where
  key : Key
  flags : List Flag := []
  motion : Motion := .press
  deriving DecidableEq

/-! ## Names of keys -/

/-- The physical keys that type characters other than letters and digits, each
with those characters, on the US layout. -/
def punctuation : List (String × List Char) :=
  [("Space", [' ']), ("Minus", ['-', '_']), ("Equal", ['=', '+']),
    ("BracketLeft", ['[', '\x7b']), ("BracketRight", [']', '\x7d']),
    ("Backslash", ['\\', '|']), ("Semicolon", [';', ':']), ("Quote", ['\'', '"']),
    ("Comma", [',', '<']), ("Period", ['.', '>']), ("Slash", ['/', '?']),
    ("Backquote", ['\x60', '~'])]

/-- The physical key that types a character, or the empty text. -/
def characterCode (character : Char) : String :=
  if character.isAlpha then "Key" ++ String.singleton character.toUpper
  else if character.isDigit then "Digit" ++ String.singleton character
  else
    match punctuation.find? fun entry => entry.2.contains character with
    | some entry => entry.1
    | none => ""

/-- The name of a key, which is both its logical and its physical name. -/
def NamedKey.name? : NamedKey → Option String
  | .backspace => some "Backspace"
  | .enter => some "Enter"
  | .left => some "ArrowLeft"
  | .right => some "ArrowRight"
  | .up => some "ArrowUp"
  | .down => some "ArrowDown"
  | .home => some "Home"
  | .endKey => some "End"
  | .pageUp => some "PageUp"
  | .pageDown => some "PageDown"
  | .tab | .backTab => some "Tab"
  | .delete => some "Delete"
  | .insert => some "Insert"
  | .escape => some "Escape"
  | .capsLock => some "CapsLock"
  | .scrollLock => some "ScrollLock"
  | .numLock => some "NumLock"
  | .printScreen => some "PrintScreen"
  | .pause => some "Pause"
  | .menu => some "ContextMenu"
  | .keypadBegin | .null => none

/-- The word for a side in the name of a physical key. -/
def Side.name : Side → String
  | .left => "Left"
  | .right => "Right"

/-- The logical and the physical name of a modifier key. -/
def ModifierKey.names? : ModifierKey → Option (String × String)
  | .shift side => some ("Shift", "Shift" ++ side.name)
  | .control side => some ("Control", "Control" ++ side.name)
  | .alt side => some ("Alt", "Alt" ++ side.name)
  | .super side | .metaKey side => some ("Meta", "Meta" ++ side.name)
  | .isoLevel3Shift => some ("AltGraph", "AltRight")
  | .hyper _ | .isoLevel5Shift => none

/-- The logical and the physical name of a key, if keyboards have it. -/
def Key.names? : Key → Option (String × String)
  | .character typed => some (String.singleton typed, characterCode typed)
  | .function number => some (s!"F{number}", s!"F{number}")
  | .named key => key.name?.map fun name => (name, name)
  | .modifier key => key.names?
  | .media => none

/-! ## Key events -/

/-- The modifiers that the flags tell.  The logo key comes under two flags. -/
def heldModifiers (flags : List Flag) : Modifiers where
  shift := flags.contains .shift
  metaKey := flags.contains .super || flags.contains .metaKey
  alt := flags.contains .alt
  control := flags.contains .control

/-- The modifiers held with a key.  The back tab is the tab key with Shift. -/
def KeyReport.held (report : KeyReport) : Modifiers :=
  if report.key = .named .backTab then (heldModifiers report.flags).insert .shift
  else heldModifiers report.flags

/-- The key event that a terminal reports, if keyboards have its key. -/
def KeyReport.event? (report : KeyReport) : Option KeyEvent :=
  report.key.names?.map fun names =>
    { kind := if report.motion = .release then .keyUp else .keyDown
      key := names.1
      code := names.2
      modifiers := some report.held
      isRepeat := report.motion == .hold }

end Keystrokes.Terminal
