import Keystrokes.Toml.Moment

/-!
# TOML values

The values of a TOML document.  No use is made of the contents of floats, so a float
is kept without them.
A table keeps its entries in the order of their first mention, together with the
way in which it came about, on which it depends who may still add to it.
-/

set_option autoImplicit false

namespace Keystrokes.Toml

/-- How a table came about. -/
inductive Origin where
  /-- By a header of its own, such as `[a]`. -/
  | header
  /-- As a step towards the table of a longer header: `a` in `[a.b]`. -/
  | implied
  /-- As a step of a dotted key: `a` in `a.b = 1`. -/
  | dotted
  /-- By braces. -/
  | inline
  deriving DecidableEq

/-- A TOML value. -/
inductive Value where
  | text (value : String)
  | integer (value : Int)
  | float
  | boolean (value : Bool)
  | moment (value : Moment)
  | array (elements : List Value)
  | table (origin : Origin) (entries : List (String × Value))

/-- The entries of a table, in the order of their first mention. -/
abbrev Entries := List (String × Value)

namespace Entries

/-! ## Adding to tables -/

/-- Put a value at a key that has none yet. -/
def add? (entries : Entries) (key : String) (value : Value) : Option Entries :=
  if (entries.lookup key).isSome then none else some (entries ++ [(key, value)])

/-- Put a value in place of the one at a key. -/
def replace (entries : Entries) (key : String) (value : Value) : Entries :=
  entries.map fun entry => if entry.1 = key then (key, value) else entry

/-- Give a value to a dotted key: the tables on the way are made if they are not
there.  A key has one value; a table that came about by a header or by braces is
not added to from outside, and the last table on the way has to be one that
dotted keys have made. -/
def assign? (entries : Entries) (path : List String) (key : String) (value : Value) :
    Option Entries :=
  match path with
  | [] => entries.add? key value
  | step :: later =>
      match entries.lookup step with
      | none => do
          let inner ← assign? [] later key value
          return entries ++ [(step, .table .dotted inner)]
      | some (.table .dotted inner) => do
          let changed ← assign? inner later key value
          return entries.replace step (.table .dotted changed)
      | some (.table .implied inner) =>
          if later.isEmpty then none
          else do
            let changed ← assign? inner later key value
            return entries.replace step (.table .implied changed)
      | some _ => none

/-- Open the table of a header: the tables on the way are made if they are not
there.  A table is opened by one header only, and not at all if dotted keys or
braces have made it. -/
def openTable? (entries : Entries) : List String → Option Entries
  | [] => none
  | [key] =>
      match entries.lookup key with
      | none => some (entries ++ [(key, .table .header [])])
      | some (.table .implied inner) => some (entries.replace key (.table .header inner))
      | some _ => none
  | step :: next :: later =>
      match entries.lookup step with
      | none => do
          let inner ← openTable? [] (next :: later)
          return entries ++ [(step, .table .implied inner)]
      | some (.table .inline _) => none
      | some (.table origin inner) => do
          let changed ← openTable? inner (next :: later)
          return entries.replace step (.table origin changed)
      | some _ => none

/-- Change the entries of the table that a header has opened. -/
def within? (entries : Entries) (header : List String) (change : Entries → Option Entries) :
    Option Entries :=
  match header with
  | [] => change entries
  | step :: later =>
      match entries.lookup step with
      | some (.table origin inner) => do
          let changed ← within? inner later change
          return entries.replace step (.table origin changed)
      | _ => none

end Entries

end Keystrokes.Toml
