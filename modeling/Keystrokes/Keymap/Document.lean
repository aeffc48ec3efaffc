import Keystrokes.Keyboard.Signal
import Keystrokes.Toml.Document

/-!
# The shape of a keymap document

A keymap document is a TOML document with two tables: `options` says how to listen,
and `bindings` gives an action to each shortcut.  There is no other table, and no
entry in them but those read here.
-/

set_option autoImplicit false

namespace Keystrokes

/-- What the tables of a keymap document say, before it is checked. -/
structure KeymapDocument where
  timeout : Option Nat := none
  event : Option EventKind := none
  platform : Option String := none
  /-- Written shortcuts, each with its action, in the order of the document. -/
  entries : List (String × String) := []

namespace KeymapDocument

open Toml

/-- A timeout is an integer that is not negative. -/
def timeout? : Value → Option Nat
  | .integer (.ofNat timeout) => some timeout
  | _ => none

/-- Whether a value is an empty array or an empty table. -/
def isHollow : Value → Bool
  | .array elements => elements.isEmpty
  | .table _ entries => entries.isEmpty
  | _ => false

/-- An event is named by a text, or by the one key of a table in which nothing is
said about it. -/
def event? : Value → Option EventKind
  | .text name => EventKind.ofName? name
  | .table _ [(name, about)] => if isHollow about then EventKind.ofName? name else none
  | _ => none

/-- A text. -/
def text? : Value → Option String
  | .text text => some text
  | _ => none

/-- One entry of the table `options`. -/
def option? (document : KeymapDocument) (key : String) (value : Value) : Option KeymapDocument :=
  match key with
  | "timeout" => (timeout? value).map fun timeout => { document with timeout := some timeout }
  | "event" => (event? value).map fun event => { document with event := some event }
  | "platform" => (text? value).map fun platform => { document with platform := some platform }
  | _ => none

/-- The table `options`, or an array of its values in the order timeout, event,
platform, after which anything may follow. -/
def options? (document : KeymapDocument) : Value → Option KeymapDocument
  | .table _ entries =>
      entries.foldlM (fun document (key, value) => document.option? key value) document
  | .array (timeout :: event :: platform :: _) => do
      return { document with
        timeout := some (← timeout? timeout)
        event := some (← event? event)
        platform := some (← text? platform) }
  | _ => none

/-- The key of the one entry by which a moment is told where a table is asked for. -/
def momentKey : String := "$__toml_private_datetime"

/-- The table `bindings`, in which every value is a text.  A moment in its place is a
table of one entry, which holds the text of the moment. -/
def bindings? (document : KeymapDocument) : Value → Option KeymapDocument
  | .table _ entries => do
      let entries ← entries.mapM fun (shortcut, action) => do
        return (shortcut, ← text? action)
      return { document with entries }
  | .moment moment => some { document with entries := [(momentKey, moment.text)] }
  | _ => none

/-- The keymap document in a TOML document. -/
def ofToml? (tables : Entries) : Option KeymapDocument :=
  tables.foldlM
    (fun document (key, value) =>
      match key with
      | "options" => document.options? value
      | "bindings" => document.bindings? value
      | _ => none)
    {}

/-- The keymap document that a text is, if it is one. -/
def ofText? (text : String) : Option KeymapDocument :=
  (document? text).bind ofToml?

end KeymapDocument

end Keystrokes
