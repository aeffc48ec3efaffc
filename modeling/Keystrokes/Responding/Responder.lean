import Keystrokes.Matching.Matcher
import Keystrokes.Responding.Agenda
import Keystrokes.Responding.Layout
import Keystrokes.Responding.Settings

/-!
# Responders

A responder joins a matcher to callbacks.  A shortcut that has been typed in full
runs its callback at once, unless a further keystroke could still complete a
shortcut: then the call is postponed to the end of the pause after which the trail
is given up.

Callbacks are values of a type of the host's choosing.  A responder says which of
them are to run and with which event.  Its steps are given one by one, since a host
whose callbacks act on the responder has to run them in between; `handle` and
`poll` join the steps for callbacks that do not.
-/

set_option autoImplicit false

namespace Keystrokes

/-- A callback with the text by which its shortcut is mentioned. -/
structure LabelledCallback (α : Type) where
  label : String
  callback : α

/-- A callback that runs. -/
structure Firing (α : Type) where
  shortcut : Nat
  callback : α
  event : KeyEvent

/-- What a responder does, in the order in which it happens. -/
inductive Report (α : Type) where
  | note (note : Note)
  | fired (firing : Firing α)

/-- A matcher joined to callbacks.  The callback of a shortcut stands at the number
of the shortcut. -/
structure Responder (α : Type) where
  matcher : Matcher
  callbacks : List (LabelledCallback α)
  agenda : Agenda := Agenda.empty
  timeout : Nat
  tracked : Modifiers
  filter : Option KeyFilter := none
  /-- A detached responder runs no callback. -/
  detached : Bool := false

namespace Responder

variable {α : Type}

/-! ## Building a responder -/

/-- The responder of shortcuts that have been read. -/
def ofMatcher (matcher : Matcher) (bound : List (Bound α)) (settings : Settings) :
    Responder α where
  matcher := matcher
  callbacks := bound.map fun entry => ⟨entry.label, entry.callback⟩
  timeout := settings.timeout
  tracked := settings.tracked
  filter := settings.filter

/-- The responder of a flat layout matches by a list. -/
def ofFlat (layout : FlatLayout α) (settings : Settings) : Responder α :=
  let bound := (layout.read { platform := settings.platform }).1
  let shortcuts := bound.map Bound.shortcut
  ofMatcher (.list { shortcuts, tracked := settings.tracked }) bound settings

/-- The responder of a nested layout matches by a tree. -/
def ofNested (layout : NestedLayout α) (settings : Settings) : Responder α :=
  let bound := (layout.read { platform := settings.platform }).1
  let shortcuts := bound.map Bound.shortcut
  ofMatcher (.tree (.ofShortcuts shortcuts settings.tracked)) bound settings

/-- The responder of a layout of either kind. -/
def ofLayout (layout : Layout α) (settings : Settings) : Responder α :=
  match layout with
  | .flat layout => ofFlat layout settings
  | .nested layout => ofNested layout settings

/-- What is told when a responder has been built. -/
def builtNote (responder : Responder α) : Note :=
  .built responder.callbacks.length responder.timeout

/-! ## Looking at a responder -/

/-- The keystrokes typed so far. -/
def typed (responder : Responder α) : List Keystroke :=
  responder.matcher.trail.strokes

/-- The earliest deadline. -/
def deadline (responder : Responder α) : Option Nat :=
  responder.agenda.earliest

/-- Whether nothing has been typed and nothing is to be done. -/
def isAtRest (responder : Responder α) : Bool :=
  responder.typed.isEmpty && responder.agenda.isEmpty

/-- The text by which a shortcut is mentioned. -/
def label (responder : Responder α) (shortcut : Nat) : String :=
  match responder.callbacks[shortcut]? with
  | some entry => entry.label
  | none => "<unknown>"

/-! ## The steps -/

/-- Give up the trail and everything that is to be done. -/
def abandon (responder : Responder α) : Responder α × List Note :=
  ({ responder with agenda := Agenda.empty, matcher := responder.matcher.restart },
    responder.agenda.abandonNotes)

/-- Give up everything if the responder is detached. -/
def abandonIfDetached (responder : Responder α) : Responder α × List Note :=
  if responder.detached then responder.abandon else (responder, [])

/-- The key event to be handled, or the reason why there is none. -/
def screen (responder : Responder α) (signal : Signal) : Except Note KeyEvent :=
  match signal with
  | .foreign kind => .error (.foreign kind)
  | .key event =>
      if responder.filter.all fun accepts => accepts event then .ok event
      else .error (.filtered event.key)

/-- Take out of the agenda what is due. -/
def collect (responder : Responder α) (now : Nat) : Due × Responder α :=
  let (due, agenda) := responder.agenda.collect now
  (due, { responder with agenda })

/-- End a poll: give up the trail if the pause is over, and everything if the
responder is detached. -/
def concludePoll (responder : Responder α) (pauseOver : Bool) : Responder α × List Note :=
  if pauseOver then
    let (next, notes) := { responder with matcher := responder.matcher.restart }.abandonIfDetached
    (next, .timedOut responder.matcher.trail.size :: notes)
  else responder.abandonIfDetached

/-- What one keystroke leads to: the responder after it, the shortcuts whose
callbacks are to run now, and what is told. -/
structure Response (α : Type) where
  responder : Responder α
  firing : List Nat
  notes : List Note

/-- Take one keystroke.  Everything that is to be done is given up.  If a further
keystroke could complete a shortcut, the calls of the shortcuts typed in full are
postponed. -/
def take (responder : Responder α) (event : KeyEvent) (now : Nat) : Response α :=
  let stroke := event.stroke responder.tracked
  let (matcher, verdict) := responder.matcher.step stroke
  let told := responder.agenda.abandonNotes ++ responder.matcher.notes stroke
  if verdict.possible then
    let deadline := now + responder.timeout
    let agenda := verdict.matched.foldl
      (fun agenda shortcut => agenda.postpone ⟨shortcut, event⟩ deadline) Agenda.empty
    { responder := { responder with matcher, agenda := agenda.endPauseAt deadline }
      firing := []
      notes := told ++ verdict.matched.map fun shortcut => .postponed (responder.label shortcut) }
  else
    { responder := { responder with matcher, agenda := Agenda.empty }
      firing := verdict.matched
      notes := told }

/-- The callback that a call runs.  A detached responder runs none. -/
def callback? (responder : Responder α) (call : Call) : Option (LabelledCallback α) :=
  if responder.detached then none else responder.callbacks[call.shortcut]?

/-! ## Callbacks that leave the responder alone -/

/-- What running a call does. -/
def fire (responder : Responder α) (call : Call) : List (Report α) :=
  match responder.callback? call with
  | some entry => [.note (.firing entry.label), .fired ⟨call.shortcut, entry.callback, call.event⟩]
  | none => []

/-- Run what is due. -/
def poll (responder : Responder α) (now : Nat) : Responder α × List (Report α) :=
  let (due, collected) := responder.collect now
  let fired := due.calls.flatMap fun postponed => collected.fire postponed.call
  let (next, notes) := collected.concludePoll due.pauseOver
  (next, fired ++ notes.map .note)

/-- Handle a signal: run what is due, then take the keystroke. -/
def handle (responder : Responder α) (signal : Signal) (now : Nat) :
    Responder α × List (Report α) :=
  match responder.screen signal with
  | .error reason => (responder, [.note reason])
  | .ok event =>
      let (polled, before) := responder.poll now
      if polled.detached then (polled, before)
      else
        let response := polled.take event now
        let fired := response.firing.flatMap fun shortcut =>
          response.responder.fire ⟨shortcut, event⟩
        let (next, notes) := response.responder.abandonIfDetached
        (next, before ++ response.notes.map .note ++ fired ++ notes.map .note)

/-- Run no callback any more, and give up everything. -/
def detach (responder : Responder α) : Responder α × List Note :=
  { responder with detached := true }.abandon

end Responder

end Keystrokes
