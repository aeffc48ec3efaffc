import Keystrokes.Note

/-!
# Agendas

A call whose shortcut could still grow into a longer one is postponed to a
deadline, and a trail that is not continued is given up at a deadline.  The agenda
holds both.  Times are milliseconds on the host's clock, which may run backwards.
-/

set_option autoImplicit false

namespace Keystrokes

/-- A callback to be run: the number of its shortcut, and the event to run it
with. -/
structure Call where
  shortcut : Nat
  event : KeyEvent
  deriving DecidableEq

/-- A call that waits for its deadline. -/
structure PostponedCall where
  call : Call
  deadline : Nat
  deriving DecidableEq

/-- What a moment brings. -/
structure Due where
  /-- The calls whose deadline has come, in the order in which they were
  postponed. -/
  calls : List PostponedCall := []
  /-- Whether the trail is to be given up. -/
  pauseOver : Bool := false
  deriving DecidableEq

/-- Whether a moment brings nothing. -/
def Due.isEmpty (due : Due) : Bool :=
  due.calls.isEmpty && !due.pauseOver

/-- What is still to be done. -/
structure Agenda where
  /-- The calls that have been postponed, the oldest first. -/
  postponed : List PostponedCall := []
  /-- When the trail is to be given up. -/
  pauseEnd : Option Nat := none
  deriving DecidableEq

namespace Agenda

/-- Nothing to be done. -/
def empty : Agenda := {}

/-- Whether nothing is to be done. -/
def isEmpty (agenda : Agenda) : Bool :=
  agenda.postponed.isEmpty && agenda.pauseEnd.isNone

/-- Postpone a call. -/
def postpone (agenda : Agenda) (call : Call) (deadline : Nat) : Agenda :=
  { agenda with postponed := agenda.postponed ++ [⟨call, deadline⟩] }

/-- Let the pause end at a deadline, in place of any earlier one. -/
def endPauseAt (agenda : Agenda) (deadline : Nat) : Agenda :=
  { agenda with pauseEnd := some deadline }

/-- What is told when everything is given up. -/
def abandonNotes (agenda : Agenda) : List Note :=
  if agenda.isEmpty then [] else [.abandoned agenda.postponed.length]

/-- Whether the pause has come to its end. -/
def pauseOver (agenda : Agenda) (now : Nat) : Bool :=
  agenda.pauseEnd.any fun deadline => deadline ≤ now

/-- Take out what is due: a deadline has come when it is not after `now`. -/
def collect (agenda : Agenda) (now : Nat) : Due × Agenda :=
  ({ calls := agenda.postponed.filter fun call => call.deadline ≤ now
     pauseOver := agenda.pauseOver now },
    { postponed := agenda.postponed.filter fun call => !(call.deadline ≤ now)
      pauseEnd := if agenda.pauseOver now then none else agenda.pauseEnd })

/-- The earliest deadline. -/
def earliest (agenda : Agenda) : Option Nat :=
  (agenda.postponed.map PostponedCall.deadline ++ agenda.pauseEnd.toList).min?

end Agenda

end Keystrokes
