import Keystrokes.Toml.Value

/-!
# TOML documents

A document is a list of lines: headers, which open tables, and entries, which go
into the table opened last.  Reading gives the entries of the root table, or
nothing when the document is malformed in any way.
-/

set_option autoImplicit false

namespace Keystrokes.Toml

/-! ## Values -/

/-- The elements of an array, read after its opening bracket.  `budget` is at least
the number of characters left. -/
def elements? (element? : Reader Value) : Nat → Reader (List Value)
  | 0, _ => none
  | budget + 1, input =>
      match skipLines false input with
      | ']' :: rest => some ([], rest)
      | input => do
          let (element, rest) ← element? input
          match skipLines false rest with
          | ',' :: rest => do
              let (elements, rest) ← elements? element? budget rest
              return (element :: elements, rest)
          | ']' :: rest => return ([element], rest)
          | _ => none

/-- The entries of an inline table, read after its opening brace or a comma.
`budget` is at least the number of characters left. -/
def inlineEntries? (value? : Reader Value) : Nat → Entries → Reader Entries
  | 0, _, _ => none
  | budget + 1, entries, input => do
      let ((path, key), rest) ← key? input
      let (value, rest) ← value? (skipSpaces (← expect? '=' rest))
      let entries ← entries.assign? path key value
      match skipSpaces rest with
      | ',' :: rest => inlineEntries? value? budget entries rest
      | '\x7d' :: rest => return (entries, rest)
      | _ => none

/-- A value in brackets or braces, given a reader for the values inside it. -/
def compound? (value? : Reader Value) : Reader Value
  | '[' :: rest => do
      let (elements, rest) ← elements? value? (rest.length + 1) rest
      return (.array elements, rest)
  | '\x7b' :: rest =>
      match skipSpaces rest with
      | '\x7d' :: rest => some (.table .inline [], rest)
      | rest => do
          let (entries, rest) ← inlineEntries? value? (rest.length + 1) [] rest
          return (.table .inline entries, rest)
  | _ => none

/-- A number or a moment: what can be read as a moment is one, then what can be
read as a float. -/
def numeric? : Reader Value := fun input =>
  match moment? input with
  | some (moment, rest) => some (.moment moment, rest)
  | none =>
      match float? input with
      | some (_, rest) => some (.float, rest)
      | none => (integer? input).map fun (value, rest) => (.integer value, rest)

/-- A value with at most so many arrays and inline tables within one another. -/
def value? : Nat → Reader Value
  | nesting, input =>
      match input with
      | '"' :: _ | '\'' :: _ => (text? input).map fun (text, rest) => (.text text, rest)
      | 't' :: 'r' :: 'u' :: 'e' :: rest => some (.boolean true, rest)
      | 'f' :: 'a' :: 'l' :: 's' :: 'e' :: rest => some (.boolean false, rest)
      | '[' :: _ | '\x7b' :: _ =>
          match nesting with
          | 0 => none
          | nesting + 1 => compound? (value? nesting) input
      | _ => numeric? input

/-! ## Lines -/

/-- A document that has been read up to some line. -/
structure Draft where
  root : Entries := []
  /-- The table opened last; the root before any header. -/
  header : List String := []

/-- The draft after an entry: a key, its value, and the end of the line. -/
def Draft.entry? (draft : Draft) : Reader Draft := fun input => do
  let ((path, key), rest) ← key? input
  let (value, rest) ← value? nestingLimit (skipSpaces (← expect? '=' rest))
  let rest ← lineEnd? rest
  let root ← draft.root.within? draft.header fun entries => entries.assign? path key value
  return ({ draft with root }, rest)

/-- The draft after a header, read after its opening bracket.  A second bracket
opens an array of tables, for which a keymap has no use. -/
def Draft.header? (draft : Draft) : Reader Draft := fun input => do
  let ((path, key), rest) ← key? input
  let rest ← lineEnd? (← expect? ']' rest)
  let header := path ++ [key]
  let root ← draft.root.openTable? header
  return ({ root, header }, rest)

/-- The draft after every line.  `budget` is at least the number of characters
left. -/
def Draft.finish? (draft : Draft) : Nat → List Char → Option Draft
  | 0, _ => none
  | budget + 1, input =>
      match skipLines false input with
      | [] => some draft
      | '[' :: rest => do
          let (next, rest) ← draft.header? rest
          next.finish? budget rest
      | rest => do
          let (next, rest) ← draft.entry? rest
          next.finish? budget rest

/-- The entries of the root table of a document.  A byte order mark in front is
passed over. -/
def document? (text : String) : Option Entries :=
  let input := match text.toList with
    | '\ufeff' :: rest => rest
    | input => input
  (Draft.finish? {} (input.length + 1) input).map Draft.root

end Keystrokes.Toml
