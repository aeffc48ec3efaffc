import Keystrokes.Responding.Responder

/-!
# Runs of a responder

A host gives a responder signals and polls it, at moments of its choosing; the moments
need not be in order.  This module records what happens in the course of that: for
each input the key event that was heard, with the verdict on it, and the callbacks
that ran.  A host may also let a responder give up everything, or detach it.
-/

set_option autoImplicit false

namespace Keystrokes

variable {α : Type}

/-- The callback that ran, if the report is of one. -/
def Report.firing? : Report α → Option (Firing α)
  | .note _ => none
  | .fired firing => some firing

namespace Responder

/-! ## Inputs -/

/-- What a host gives to a responder at a moment. -/
inductive Input where
  | signal (signal : Signal) (now : Nat)
  | poll (now : Nat)

/-- The moment of an input. -/
def Input.now : Input → Nat
  | .signal _ now => now
  | .poll now => now

/-- The callbacks that ran, in their order. -/
def firings (reports : List (Report α)) : List (Firing α) :=
  reports.filterMap Report.firing?

/-- What a responder does with an input. -/
def respond (responder : Responder α) : Input → Responder α × List (Report α)
  | .signal signal now => responder.handle signal now
  | .poll now => responder.poll now

/-- The responder after some inputs. -/
def after (responder : Responder α) (inputs : List Input) : Responder α :=
  inputs.foldl (fun responder input => (responder.respond input).1) responder

/-! ## What is heard -/

/-- A responder handles the key events that its filter, if it has one, passes, and no other
signals. -/
theorem screen_eq_ok_iff {responder : Responder α} {signal : Signal} {event : KeyEvent} :
    responder.screen signal = .ok event ↔
      signal = .key event ∧ ∀ passes ∈ responder.filter, passes event = true := by
  simp only [Option.mem_def, ← Option.all_eq_true]
  cases signal with
  | foreign kind => simp [screen]
  | key other =>
      rw [screen]
      split
      · next isPassed =>
          constructor
          · rintro ⟨⟩
            exact ⟨rfl, isPassed⟩
          · rintro ⟨⟨⟩, -⟩
            rfl
      · next isRefused =>
          constructor
          · rintro ⟨⟩
          · rintro ⟨⟨⟩, isPassed⟩
            exact absurd isPassed isRefused

/-- A key event that a responder accepts, with its moment and the verdict on it. -/
structure Hearing where
  event : KeyEvent
  time : Nat
  verdict : Verdict

/-- What a responder hears in an input: the key event that it accepts.  What is due
runs before the event is judged.  A detached responder hears nothing. -/
def hears? (responder : Responder α) : Input → Option Hearing
  | .poll _ => none
  | .signal signal now =>
      match responder.screen signal with
      | .error _ => none
      | .ok event =>
          let polled := (responder.poll now).1
          if polled.detached then none
          else some ⟨event, now, (polled.matcher.step (event.stroke polled.tracked)).2⟩

/-- One input, with what is heard in it and the callbacks that run. -/
structure Turn (α : Type) where
  input : Input
  heard : Option Hearing
  fired : List (Firing α)

/-- The turn in which a responder is given an input. -/
def turn (responder : Responder α) (input : Input) : Turn α :=
  ⟨input, responder.hears? input, firings (responder.respond input).2⟩

/-- The turns of a run. -/
def turns (responder : Responder α) : List Input → List (Turn α)
  | [] => []
  | input :: later => responder.turn input :: (responder.respond input).1.turns later

/-! ## What a host sees -/

/-- What a host does with a responder. -/
inductive Command where
  | give (input : Input)
  | abandon
  | detach

/-- What a responder does on a command. -/
def obey (responder : Responder α) : Command → Responder α × List (Report α)
  | .give input => responder.respond input
  | .abandon => responder.abandon.map id fun notes => notes.map .note
  | .detach => responder.detach.map id fun notes => notes.map .note

/-- The responder after some commands. -/
def led (responder : Responder α) (commands : List Command) : Responder α :=
  commands.foldl (fun responder command => (responder.obey command).1) responder

/-- What a host sees of a responder after a command: the callbacks that have run, the
keystrokes typed so far, the earliest deadline, and whether it is at rest. -/
structure Showing (α : Type) where
  fired : List (Firing α)
  typed : List Keystroke
  deadline : Option Nat
  atRest : Bool

/-- What a host sees of a responder in the course of some commands. -/
def showings (responder : Responder α) : List Command → List (Showing α)
  | [] => []
  | command :: later =>
      let (next, reports) := responder.obey command
      ⟨firings reports, next.typed, next.deadline, next.isAtRest⟩ :: next.showings later

/-! ## Runs in parts -/

variable (responder : Responder α)

@[simp] theorem after_nil : responder.after [] = responder :=
  rfl

@[simp] theorem after_cons (input : Input) (later : List Input) :
    responder.after (input :: later) = (responder.respond input).1.after later :=
  rfl

theorem turns_append (inputs later : List Input) :
    responder.turns (inputs ++ later) =
      responder.turns inputs ++ (responder.after inputs).turns later := by
  induction inputs generalizing responder with
  | nil => rfl
  | cons input inputs hypothesis => simp [turns, hypothesis]

end Responder

end Keystrokes
