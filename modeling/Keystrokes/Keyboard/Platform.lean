import Keystrokes.Keyboard.Modifiers

/-!
# Host platforms

The platform family decides which modifier `$mod` stands for in a written
shortcut.
-/

set_option autoImplicit false

namespace Keystrokes

/-- A family of host platforms. -/
inductive Platform where
  | apple
  | other
  deriving DecidableEq

namespace Platform

/-- The name used in keymap files and on the command line. -/
def name : Platform → String
  | .apple => "apple"
  | .other => "other"

/-- The platform that is meant when none is named. -/
def host : Platform := .other

/-- The platform of a name; the case of ASCII letters does not matter. -/
def ofName? (text : String) : Option Platform :=
  [apple, other].find? fun platform => platform.name.toList == text.toList.map Char.toLower

/-- The modifier that `$mod` stands for. -/
def ownModifier : Platform → Modifier
  | .apple => .metaKey
  | .other => .control

/-! ## What hosts say of themselves -/

/-- Whether a word stands somewhere in a text. -/
def mentions (word : List Char) : List Char → Bool
  | [] => word.isEmpty
  | character :: rest => word.isPrefixOf (character :: rest) || mentions word rest

/-- The words by which a host shows that it is Apple's. -/
def appleMarks : List String := ["Mac", "iPod", "iPhone", "iPad"]

/-- The platform of a host that calls itself, say, `MacIntel` or `Linux x86_64`. -/
def ofHostText (text : String) : Platform :=
  if appleMarks.any fun mark => mentions mark.toList text.toList then .apple else .other

end Platform

end Keystrokes
