/-!
# Modifier keys

Four keys change the meaning of the keys pressed with them.  This module names
them, in the order in which they are always listed, and gives the sets of them
that are held at one moment.
-/

set_option autoImplicit false

namespace Keystrokes

/-! ## The four modifiers -/

/-- A key that changes the meaning of the keys pressed with it. -/
inductive Modifier where
  | shift
  /-- The key with the logo: Command on Apple keyboards, Windows on others. -/
  | metaKey
  | alt
  | control
  deriving DecidableEq

namespace Modifier

/-- Every modifier, in the order in which modifiers are listed. -/
def all : List Modifier := [.shift, .metaKey, .alt, .control]

/-- The name that keyboards and written shortcuts use. -/
def name : Modifier → String
  | .shift => "Shift"
  | .metaKey => "Meta"
  | .alt => "Alt"
  | .control => "Control"

/-- The modifier of a name.  Case matters, and no other spelling is known. -/
def ofName? (text : String) : Option Modifier :=
  all.find? fun modifier => modifier.name == text

@[simp] theorem ofName?_name (modifier : Modifier) : ofName? modifier.name = some modifier := by
  cases modifier <;> decide

end Modifier

/-! ## Sets of modifiers -/

/-- A set of modifiers, such as those held at one moment. -/
structure Modifiers where
  shift : Bool := false
  metaKey : Bool := false
  alt : Bool := false
  control : Bool := false
  deriving DecidableEq

namespace Modifiers

/-- The set without a member. -/
def none : Modifiers := {}

/-- The set of all four. -/
def all : Modifiers := ⟨true, true, true, true⟩

/-- Membership. -/
def contains (held : Modifiers) : Modifier → Bool
  | .shift => held.shift
  | .metaKey => held.metaKey
  | .alt => held.alt
  | .control => held.control

/-- Two sets with the same members are equal. -/
theorem ext_contains {left right : Modifiers}
    (same : ∀ modifier, left.contains modifier = right.contains modifier) : left = right := by
  obtain ⟨_, _, _, _⟩ := left
  obtain ⟨_, _, _, _⟩ := right
  have shift := same .shift
  have metaKey := same .metaKey
  have alt := same .alt
  have control := same .control
  simp only [contains] at shift metaKey alt control
  simp [shift, metaKey, alt, control]

/-- The set with one more member. -/
def insert (held : Modifiers) : Modifier → Modifiers
  | .shift => { held with shift := true }
  | .metaKey => { held with metaKey := true }
  | .alt => { held with alt := true }
  | .control => { held with control := true }

@[simp] theorem contains_insert (held : Modifiers) (added modifier : Modifier) :
    (held.insert added).contains modifier = (modifier == added || held.contains modifier) := by
  cases added <;> cases modifier <;> rfl

/-- The set of the listed modifiers. -/
def ofList (modifiers : List Modifier) : Modifiers :=
  modifiers.foldl insert none

/-- The members, in the order in which modifiers are listed. -/
def toList (held : Modifiers) : List Modifier :=
  Modifier.all.filter held.contains

/-- The number of members. -/
def size (held : Modifiers) : Nat :=
  held.toList.length

/-- Whether the set has no member. -/
def isEmpty (held : Modifiers) : Bool :=
  held == none

/-- The members of either set. -/
def union (left right : Modifiers) : Modifiers :=
  ⟨left.shift || right.shift, left.metaKey || right.metaKey, left.alt || right.alt,
    left.control || right.control⟩

/-- The members of both sets. -/
def inter (left right : Modifiers) : Modifiers :=
  ⟨left.shift && right.shift, left.metaKey && right.metaKey, left.alt && right.alt,
    left.control && right.control⟩

@[simp] theorem contains_union (left right : Modifiers) (modifier : Modifier) :
    (left.union right).contains modifier = (left.contains modifier || right.contains modifier) := by
  cases modifier <;> rfl

@[simp] theorem contains_inter (left right : Modifiers) (modifier : Modifier) :
    (left.inter right).contains modifier = (left.contains modifier && right.contains modifier) := by
  cases modifier <;> rfl

/-- Whether every member of the first set is in the second. -/
def isWithin (left right : Modifiers) : Bool :=
  left.inter right == left

theorem isWithin_iff {left right : Modifiers} :
    left.isWithin right = true ↔
      ∀ modifier, left.contains modifier = true → right.contains modifier = true := by
  rw [isWithin, beq_iff_eq]
  constructor
  · intro same modifier isMember
    rw [← same, contains_inter, Bool.and_eq_true] at isMember
    exact isMember.2
  · intro isPart
    refine ext_contains fun modifier => ?_
    rw [contains_inter]
    cases isMember : left.contains modifier with
    | false => rfl
    | true => exact isPart modifier isMember

@[simp] theorem isWithin_refl (held : Modifiers) : held.isWithin held = true :=
  isWithin_iff.mpr fun _ isMember => isMember

theorem isWithin_trans {left middle right : Modifiers} (first : left.isWithin middle = true)
    (second : middle.isWithin right = true) : left.isWithin right = true :=
  isWithin_iff.mpr fun modifier isMember =>
    isWithin_iff.mp second modifier (isWithin_iff.mp first modifier isMember)

/-- Whether a logical key is one of the modifiers of the set, so that pressing
it alone types nothing. -/
def tracksKey (tracked : Modifiers) (key : String) : Bool :=
  match Modifier.ofName? key with
  | some modifier => tracked.contains modifier
  | Option.none => false

/-- The names of the members, joined by `+`. -/
def text (held : Modifiers) : String :=
  "+".intercalate (held.toList.map Modifier.name)

/-- The set as a number, one binary digit for each modifier. -/
def bits (held : Modifiers) : Nat :=
  held.shift.toNat + 2 * held.metaKey.toNat + 4 * held.alt.toNat + 8 * held.control.toNat

end Modifiers

end Keystrokes
