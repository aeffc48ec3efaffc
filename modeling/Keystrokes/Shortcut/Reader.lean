import Keystrokes.Shortcut.Written

/-!
# A reader that remembers

A reader keeps the shortcuts it has read, so that a text is taken apart only once.
What it keeps is what reading again would give: memory changes nothing that is
read (`read_fst`).
-/

set_option autoImplicit false

namespace Keystrokes

/-- A reader for one platform that keeps the shortcuts it has read. -/
structure ShortcutReader where
  platform : Platform
  /-- The texts read so far, each with its shortcut. -/
  known : List (String × Shortcut) := []
  /-- What is kept is what reading again would give. -/
  faithful : ∀ entry ∈ known, entry.2 = Shortcut.ofText platform entry.1 := by simp

namespace ShortcutReader

/-- The number of different texts read so far. -/
def size (reader : ShortcutReader) : Nat :=
  reader.known.length

/-- The reader after it has taken one more text apart. -/
def learn (reader : ShortcutReader) (text : String) : ShortcutReader where
  platform := reader.platform
  known := reader.known ++ [(text, Shortcut.ofText reader.platform text)]
  faithful := by
    intro entry isMember
    rcases List.mem_append.mp isMember with isKnown | isNew
    · exact reader.faithful entry isKnown
    · rw [List.mem_singleton.mp isNew]

/-- Read a text: from memory if it has been read before. -/
def read (reader : ShortcutReader) (text : String) : Shortcut × ShortcutReader :=
  match reader.known.find? fun entry => entry.1 == text with
  | some entry => (entry.2, reader)
  | none => (Shortcut.ofText reader.platform text, reader.learn text)

/-- **Memory does not change what is read.** -/
theorem read_fst (reader : ShortcutReader) (text : String) :
    (reader.read text).1 = Shortcut.ofText reader.platform text := by
  unfold read
  split
  · rename_i entry found
    have same : entry.1 = text := by simpa using List.find?_some found
    rw [← same]
    exact reader.faithful entry (List.mem_of_find?_eq_some found)
  · rfl

@[simp] theorem read_platform (reader : ShortcutReader) (text : String) :
    (reader.read text).2.platform = reader.platform := by
  unfold read
  split <;> rfl

end ShortcutReader

end Keystrokes
