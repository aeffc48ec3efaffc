import Keystrokes.Keyboard.Modifiers

/-!
# Keystrokes

A keystroke is what is left of a key event for the purpose of matching: the
modifiers held, the logical key and the physical key.
-/

set_option autoImplicit false

namespace Keystrokes

/-- One press of a key. -/
structure Keystroke where
  /-- The modifiers held when the key went down. -/
  held : Modifiers
  /-- The logical key, such as `d`, `D` or `Enter`. -/
  key : String
  /-- The physical key, such as `KeyD`. -/
  code : String
  deriving DecidableEq

/-- The text of a key with its modifiers: `+` stands between them, and there is
none when the key is bare. -/
def joinKey (bare : Bool) (modifiers key : String) : String :=
  if bare then key else modifiers ++ "+" ++ key

/-- A keystroke in words: its modifiers and its logical key. -/
def Keystroke.text (stroke : Keystroke) : String :=
  joinKey stroke.held.isEmpty stroke.held.text stroke.key

/-- Whether a keystroke is a tracked modifier that the next keystroke still
holds. -/
def Keystroke.foldsInto (tracked : Modifiers) (stroke next : Keystroke) : Bool :=
  tracked.tracksKey stroke.key && stroke.held.isWithin next.held

end Keystrokes
