import Keystrokes.Shortcut.Reader

/-!
# Layouts

A layout gives callbacks to shortcuts as people write them.  The keys are the
written texts: two spellings of one shortcut are two entries, and a text that is
bound again gets a new callback and keeps its place.  A nested layout also holds
layouts under a prefix, whose shortcuts begin with the prefix.
-/

set_option autoImplicit false

namespace Keystrokes

/-- A shortcut that has been read, with its label and its callback. -/
structure Bound (α : Type) where
  shortcut : Shortcut
  /-- The text by which the shortcut is mentioned. -/
  label : String
  callback : α

/-! ## Flat layouts -/

/-- Callbacks by the text of their shortcut, in the order in which the texts were
first bound. -/
structure FlatLayout (α : Type) where
  entries : List (String × α) := []

namespace FlatLayout

variable {α : Type}

/-- Entries with one text bound anew. -/
def bindIn (text : String) (callback : α) : List (String × α) → List (String × α)
  | [] => [(text, callback)]
  | entry :: rest =>
      if entry.1 = text then (text, callback) :: rest else entry :: bindIn text callback rest

/-- Bind a text, in place of an earlier callback for it. -/
def bind (layout : FlatLayout α) (text : String) (callback : α) : FlatLayout α :=
  ⟨bindIn text callback layout.entries⟩

/-- The number of texts bound. -/
def size (layout : FlatLayout α) : Nat :=
  layout.entries.length

/-- The texts bound. -/
def texts (layout : FlatLayout α) : List String :=
  layout.entries.map Prod.fst

/-- Read entries one after the other; the label of an entry is its text. -/
def readEntries (reader : ShortcutReader) : List (String × α) → List (Bound α) × ShortcutReader
  | [] => ([], reader)
  | (text, callback) :: rest =>
      let (shortcut, reader) := reader.read text
      let (bound, reader) := readEntries reader rest
      (⟨shortcut, text, callback⟩ :: bound, reader)

/-- Read the whole layout. -/
def read (layout : FlatLayout α) (reader : ShortcutReader) : List (Bound α) × ShortcutReader :=
  readEntries reader layout.entries

end FlatLayout

/-! ## Nested layouts -/

/-- Callbacks and inner layouts by their text, in the order in which the texts were
first bound. -/
inductive NestedLayout (α : Type) where
  | empty
  /-- A callback, before the rest of the layout. -/
  | callback (text : String) (value : α) (rest : NestedLayout α)
  /-- An inner layout under a prefix, before the rest of the layout. -/
  | inner (text : String) (layout rest : NestedLayout α)

namespace NestedLayout

variable {α : Type}

/-- Bind a text to a callback, in place of what it was bound to. -/
def bind (layout : NestedLayout α) (text : String) (value : α) : NestedLayout α :=
  match layout with
  | .empty => .callback text value .empty
  | .callback other old rest =>
      if other = text then .callback text value rest
      else .callback other old (rest.bind text value)
  | .inner other old rest =>
      if other = text then .callback text value rest
      else .inner other old (rest.bind text value)

/-- Put a layout under a prefix, in place of what the text was bound to. -/
def nest (layout : NestedLayout α) (text : String) (nested : NestedLayout α) : NestedLayout α :=
  match layout with
  | .empty => .inner text nested .empty
  | .callback other old rest =>
      if other = text then .inner text nested rest
      else .callback other old (rest.nest text nested)
  | .inner other old rest =>
      if other = text then .inner text nested rest
      else .inner other old (rest.nest text nested)

/-- The number of callbacks at every depth. -/
def size : NestedLayout α → Nat
  | .empty => 0
  | .callback _ _ rest => rest.size + 1
  | .inner _ layout rest => layout.size + rest.size

/-- A shortcut under a prefix, if there is one. -/
def under (outer : Option Shortcut) (shortcut : Shortcut) : Shortcut :=
  match outer with
  | some outer => outer.append shortcut
  | none => shortcut

/-- Read the whole layout under a prefix, inner layouts in their place.  The label
of an entry is the text of its full shortcut. -/
def readUnder (outer : Option Shortcut) (reader : ShortcutReader) :
    NestedLayout α → List (Bound α) × ShortcutReader
  | .empty => ([], reader)
  | .callback text value rest =>
      let (shortcut, reader) := reader.read text
      let full := under outer shortcut
      let (bound, reader) := readUnder outer reader rest
      (⟨full, full.text, value⟩ :: bound, reader)
  | .inner text layout rest =>
      let (shortcut, reader) := reader.read text
      let (innerBound, reader) := readUnder (some (under outer shortcut)) reader layout
      let (bound, reader) := readUnder outer reader rest
      (innerBound ++ bound, reader)

/-- Read the whole layout. -/
def read (layout : NestedLayout α) (reader : ShortcutReader) :
    List (Bound α) × ShortcutReader :=
  readUnder none reader layout

end NestedLayout

/-! ## Layouts of either kind -/

/-- A layout of either kind. -/
inductive Layout (α : Type) where
  | flat (layout : FlatLayout α)
  | nested (layout : NestedLayout α)

end Keystrokes
