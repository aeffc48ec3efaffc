import Keystrokes.Listening.Hub

/-!
# Values shown to a person

The texts in which layouts, settings and responders are shown to a person who
debugs them: records with named fields, lists in brackets, texts in quotes.
-/

set_option autoImplicit false

namespace Keystrokes

open Text

/-- Something or nothing, as it is shown. -/
def inspectOption (shown : Option String) : String :=
  match shown with
  | some text => "Some(" ++ text ++ ")"
  | none => "None"

/-- Numbers, as they are shown. -/
def inspectNumbers (numbers : List Nat) : String :=
  bracketed (numbers.map toString)

/-! ## Keyboards -/

/-- A set of modifiers is shown by its number. -/
def Modifiers.inspect (held : Modifiers) : String :=
  "Modifiers(" ++ toString held.bits ++ ")"

def EventKind.inspect : EventKind → String
  | .keyDown => "KeyDown"
  | .keyUp => "KeyUp"

def Platform.inspect : Platform → String
  | .apple => "Apple"
  | .other => "Other"

def Keystroke.inspect (stroke : Keystroke) : String :=
  recorded "KeyPress"
    [("mods", stroke.held.inspect), ("key", quoted stroke.key), ("code", quoted stroke.code)]

/-! ## Shortcuts -/

def RequiredModifiers.inspect (required : RequiredModifiers) : String :=
  recorded "ModifierSet"
    [("known", required.known.inspect),
      ("unknown", bracketed (required.unknown.toList.map quoted))]

def Chord.inspect (chord : Chord) : String :=
  recorded "Chord" [("mods", chord.required.inspect), ("key", quoted chord.key)]

def Shortcut.inspect (shortcut : Shortcut) : String :=
  recorded "Binding" [("chords", bracketed (shortcut.chords.map Chord.inspect))]

/-! ## Matchers -/

def Trail.inspect (trail : Trail) : String :=
  recorded "History"
    [("presses", bracketed (trail.strokes.map Keystroke.inspect)),
      ("provisional", truth trail.provisional)]

def TreeNode.inspect (node : TreeNode) : String :=
  recorded "Node"
    [("chord", inspectOption (node.chord.map Chord.inspect)),
      ("children", inspectNumbers node.children), ("bindings", inspectNumbers node.shortcuts)]

def ShortcutTree.inspect (tree : ShortcutTree) : String :=
  recorded "BindingTree"
    [("nodes", bracketed (tree.nodes.map TreeNode.inspect)),
      ("binding_count", toString tree.size)]

def Matcher.inspect : Matcher → String
  | .list matcher =>
      recorded "SequenceMatcher"
        [("bindings", bracketed (matcher.shortcuts.map Shortcut.inspect)),
          ("history", matcher.trail.inspect), ("tracked", matcher.tracked.inspect)]
  | .tree matcher =>
      recorded "ScopedMatcher"
        [("tree", matcher.tree.inspect), ("history", matcher.trail.inspect),
          ("frontiers", bracketed (matcher.frontiers.map inspectNumbers)),
          ("tracked", matcher.tracked.inspect)]

/-! ## Settings, layouts and responders -/

/-- Settings are shown with the presence of a filter, not with the filter. -/
def Settings.inspect (settings : Settings) : String :=
  recorded "KeyBindingOptions"
    [("timeout", duration settings.timeout), ("event", settings.event.inspect),
      ("platform", settings.platform.inspect), ("tracked_modifiers", settings.tracked.inspect),
      ("filter", truth settings.filter.isSome)]

/-- A flat layout is shown by its texts. -/
def FlatLayout.inspect {α : Type} (layout : FlatLayout α) : String :=
  bracketed (layout.texts.map quoted)

/-- The entries of a nested layout: a callback is shown by a word, an inner layout
by its own entries. -/
def NestedLayout.inspectEntries {α : Type} : NestedLayout α → List (String × String)
  | .empty => []
  | .callback text _ rest => (text, quoted "<callback>") :: rest.inspectEntries
  | .inner text layout rest => (text, braced layout.inspectEntries) :: rest.inspectEntries

def NestedLayout.inspect {α : Type} (layout : NestedLayout α) : String :=
  braced layout.inspectEntries

/-- An empty agenda.  The deadlines of another are moments of the host's clock,
which have no text. -/
def inspectEmptyAgenda : String :=
  recorded "PendingTimers" [("deferred", bracketed []), ("reset_at", inspectOption none)]

/-- A responder with nothing on its agenda. -/
def Responder.inspectAtRest {α : Type} (responder : Responder α) : String :=
  recorded "KeybindingsHandler"
    [("matcher", responder.matcher.inspect),
      ("bindings", bracketed (responder.callbacks.map fun entry => quoted entry.label)),
      ("timers", inspectEmptyAgenda), ("timeout", duration responder.timeout),
      ("detached", truth responder.detached)]

/-! ## Hubs -/

/-- A subscription, and whether its callbacks may still run. -/
def Subscription.inspect (subscription : Subscription) (active : Bool) : String :=
  recorded "Subscription" [("id", toString subscription.listener), ("active", truth active)]

/-- A hub is shown by the number of its listeners. -/
def Hub.inspect {α : Type} (hub : Hub α) : String :=
  recorded "EventTarget" [("listeners", toString hub.registry.size)]

end Keystrokes
