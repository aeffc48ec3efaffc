import Keystrokes.Keyboard.Keystroke
import Keystrokes.Shortcut.WordSet

/-!
# Chords

A chord is what one slot of a shortcut asks for: a set of modifiers and the name
of one key.  Shortcuts are written by people, so a chord may ask for a modifier
that no keyboard has; such a chord is met by no keystroke.
-/

set_option autoImplicit false

namespace Keystrokes

/-! ## The modifiers a chord asks for -/

/-- The modifiers that a chord asks for.  Names that belong to no modifier are
kept, so that chords which ask for different things stay different. -/
structure RequiredModifiers where
  known : Modifiers := Modifiers.none
  unknown : WordSet := WordSet.empty
  deriving DecidableEq

namespace RequiredModifiers

/-- One more modifier, by the name it was written with. -/
def add (required : RequiredModifiers) (name : String) : RequiredModifiers :=
  match Modifier.ofName? name with
  | some modifier => { required with known := required.known.insert modifier }
  | none => { required with unknown := required.unknown.insert name }

/-- The modifiers of a list of names.  Order and repetition do not matter. -/
def ofNames (names : List String) : RequiredModifiers :=
  names.foldl add {}

/-- Exactly the modifiers of a set. -/
def ofHeld (held : Modifiers) : RequiredModifiers :=
  { known := held }

/-- Whether nothing is asked for. -/
def isEmpty (required : RequiredModifiers) : Bool :=
  required.known.isEmpty && required.unknown.isEmpty

/-- Whether exactly the modifiers asked for are held. -/
def metBy (required : RequiredModifiers) (held : Modifiers) : Bool :=
  required.unknown.isEmpty && required.known == held

/-- Whether the modifiers asked for may be reached from those held by holding
more of them. -/
def withinReachOf (required : RequiredModifiers) (held : Modifiers) : Bool :=
  required.unknown.isEmpty && held.isWithin required.known

/-- The names asked for: the modifiers in their usual order, then the unknown
names in ascending order. -/
def names (required : RequiredModifiers) : List String :=
  required.known.toList.map Modifier.name ++ required.unknown.toList

/-- The names asked for, joined by `+`. -/
def text (required : RequiredModifiers) : String :=
  "+".intercalate required.names

end RequiredModifiers

/-! ## Chords -/

/-- One slot of a shortcut. -/
structure Chord where
  required : RequiredModifiers
  /-- The name of a logical or of a physical key. -/
  key : String
  deriving DecidableEq

namespace Chord

/-- Whether a keystroke meets the chord: exactly its modifiers are held, and its
key names the logical or the physical key. -/
def metBy (chord : Chord) (stroke : Keystroke) : Bool :=
  chord.required.metBy stroke.held && (chord.key == stroke.key || chord.key == stroke.code)

/-- Whether further keys going down may turn a keystroke of a modifier into one
that meets the chord. -/
def awaits (chord : Chord) (stroke : Keystroke) : Bool :=
  chord.required.withinReachOf stroke.held

/-- A chord in words. -/
def text (chord : Chord) : String :=
  joinKey chord.required.isEmpty chord.required.text chord.key

end Chord

end Keystrokes
