import Keystrokes.Keyboard.Terminal

/-!
# The names of the keys that terminals report

A key that keyboards have always has a logical name.  It has no physical name if it is a
character that the US layout does not type, and only then (`KeyReport.code_eq_empty_iff`).
-/

set_option autoImplicit false

namespace Keystrokes.Terminal

/-- A character is off the layout when it is neither a letter nor a digit of ASCII, and no key
for other characters types it. -/
def IsOffLayout (character : Char) : Prop :=
  character.isAlphanum = false ∧ ∀ entry ∈ punctuation, character ∉ entry.2

instance (character : Char) : Decidable (IsOffLayout character) :=
  inferInstanceAs (Decidable (_ ∧ _))

/-- **The characters without a physical key are those off the layout.** -/
theorem characterCode_eq_empty_iff {character : Char} :
    characterCode character = "" ↔ IsOffLayout character := by
  rw [characterCode, IsOffLayout, Char.isAlphanum]
  by_cases isLetter : character.isAlpha
  · simp [isLetter]
  · by_cases isDigit : character.isDigit
    · simp [isLetter, isDigit]
    · simp only [isLetter, isDigit, Bool.false_eq_true, if_false, Bool.or_self, true_and]
      cases found : punctuation.find? fun entry => entry.2.contains character with
      | none => simpa using found
      | some entry =>
          have isMember := List.mem_of_find?_eq_some found
          have isTyped : character ∈ entry.2 := by simpa using List.find?_some found
          have allNamed : ∀ entry ∈ punctuation, entry.1 ≠ "" := by decide
          exact iff_of_false (allNamed entry isMember) fun untyped => untyped entry isMember isTyped

theorem NamedKey.name?_ne_empty (key : NamedKey) : key.name? ≠ some "" := by
  cases key <;> decide

theorem ModifierKey.ne_empty_of_names? {key : ModifierKey} {names : String × String}
    (isNamed : key.names? = some names) : names.1 ≠ "" ∧ names.2 ≠ "" := by
  cases key <;> simp only [ModifierKey.names?, Option.some.injEq, reduceCtorEq] at isNamed <;>
    subst isNamed <;> simp

/-- Every key has a logical name, and a physical one unless it is a character off the
layout. -/
theorem Key.ne_empty_of_names? {key : Key} {names : String × String}
    (isNamed : key.names? = some names) :
    names.1 ≠ "" ∧
      (names.2 = "" ↔ ∃ character, key = .character character ∧ IsOffLayout character) := by
  cases key with
  | character typed =>
      obtain rfl := Option.some.inj isNamed
      simp [characterCode_eq_empty_iff]
  | function number =>
      obtain rfl := Option.some.inj isNamed
      simp
  | named key =>
      obtain ⟨name, isName, rfl⟩ := Option.map_eq_some_iff.mp isNamed
      have named : name ≠ "" := fun isEmpty => key.name?_ne_empty (isEmpty ▸ isName)
      simp [named]
  | modifier key => simp [ModifierKey.ne_empty_of_names? isNamed]
  | media => exact absurd isNamed (by simp [Key.names?])

/-- **The key event that a terminal reports has a logical key, and it has a physical one unless
the key is a character off the layout.** -/
theorem KeyReport.code_eq_empty_iff {report : KeyReport} {event : KeyEvent}
    (isReported : report.event? = some event) :
    event.key ≠ "" ∧
      (event.code = "" ↔
        ∃ character, report.key = .character character ∧ IsOffLayout character) := by
  obtain ⟨names, isNamed, rfl⟩ := Option.map_eq_some_iff.mp isReported
  exact Key.ne_empty_of_names? isNamed

end Keystrokes.Terminal
