import Keystrokes.Proofs.Responding.Phase

/-!
# Nobody can tell the list from the tree

A matcher that looks at its shortcuts as a list and one that looks at them as a tree
answer alike, whatever they are asked.  So do responders made from them: the same
callbacks run with the same events on the same commands, and the same keystrokes, the
same deadline and the same rest are seen in between (`list_and_tree_agree`).

Both facts come from the same place.  The state of a matcher is its trail and the
state of a responder is its phase, whatever the kind of the matcher.
-/

set_option autoImplicit false

namespace Keystrokes

/-! ## Matchers -/

namespace Matcher

/-- What a matcher may be asked to do. -/
inductive Demand where
  | step (stroke : Keystroke)
  | restart

/-- What is seen of a matcher after a demand: the verdict, if there is one, and the
trail, with its mark. -/
structure Answer where
  verdict : Option Verdict
  trail : Trail

/-- What a matcher does on a demand. -/
def comply (matcher : Matcher) : Demand → Matcher × Option Verdict
  | .step stroke => (matcher.step stroke).map id some
  | .restart => (matcher.restart, none)

/-- What is seen of a matcher in the course of some demands. -/
def answers (matcher : Matcher) : List Demand → List Answer
  | [] => []
  | demand :: later =>
      let (next, verdict) := matcher.comply demand
      ⟨verdict, next.trail⟩ :: next.answers later

/-- The kind of a matcher does not show in its answers. -/
theorem answers_holding (kind other : MatcherKind) (shortcuts : List Shortcut)
    (tracked : Modifiers) (trail : Trail) (demands : List Demand) :
    (holding kind shortcuts tracked trail).answers demands =
      (holding other shortcuts tracked trail).answers demands := by
  induction demands generalizing trail with
  | nil => rfl
  | cons demand later hypothesis =>
      cases demand with
      | step stroke =>
          simp only [answers, comply, step_holding, Prod.map, id, trail_holding]
          rw [hypothesis]
      | restart =>
          simp only [answers, comply, restart_holding, trail_holding]
          rw [hypothesis]

end Matcher

/-! ## Responders -/

namespace Responder

namespace Design

variable {α : Type} (design : Design α)

/-- The phase after a command. -/
def phaseOn (phase : Phase) : Command → Phase
  | .give input => design.phaseAfter phase input
  | .abandon => phase.abandon
  | .detach => .detached

/-- The calls that run on a command. -/
def callsOn (phase : Phase) : Command → List Call
  | .give input => design.callsIn phase input
  | _ => []

/-- What is seen of a responder in a phase. -/
def showing (phase : Phase) (fired : List (Firing α)) : Showing α where
  fired := fired
  typed := phase.trail.strokes
  deadline := (phase.agenda design.settings.timeout).earliest
  atRest := phase.trail.strokes.isEmpty && (phase.agenda design.settings.timeout).isEmpty

/-- The showings of a run, told by its phases. -/
def showingsFrom (phase : Phase) : List Command → List (Showing α)
  | [] => []
  | command :: later =>
      design.showing (design.phaseOn phase command)
          ((design.callsOn phase command).flatMap design.run) ::
        showingsFrom (design.phaseOn phase command) later

variable {design}

theorem obey_during (phase : Phase) (command : Command) :
    ((design.during phase).obey command).1 = design.during (design.phaseOn phase command) ∧
      firings ((design.during phase).obey command).2 =
        (design.callsOn phase command).flatMap design.run := by
  cases command with
  | give input => exact design.respond_during phase input
  | abandon => exact ⟨design.abandon_during phase, firings_notes _⟩
  | detach => exact ⟨design.detach_during phase, firings_notes _⟩

variable (design) in
/-- The phase that a new responder reaches by some commands. -/
def phaseLed (commands : List Command) : Phase :=
  commands.foldl design.phaseOn .resting

theorem phaseLed_concat (commands : List Command) (command : Command) :
    design.phaseLed (commands ++ [command]) = design.phaseOn (design.phaseLed commands) command := by
  simp only [phaseLed, List.foldl_append, List.foldl_cons, List.foldl_nil]

/-- **What a new responder is led to by commands, told by its phases.** -/
theorem led_fresh (commands : List Command) :
    design.fresh.led commands = design.during (design.phaseLed commands) := by
  induction commands using List.reverseRecOn with
  | nil => exact design.fresh_eq_during
  | append_singleton commands command hypothesis =>
      have obeyed := (design.obey_during (design.phaseLed commands) command).1
      rw [phaseLed_concat, ← obeyed, ← hypothesis, led, led, List.foldl_append, List.foldl_cons,
        List.foldl_nil]

theorem showings_during (phase : Phase) (commands : List Command) :
    (design.during phase).showings commands = design.showingsFrom phase commands := by
  induction commands generalizing phase with
  | nil => rfl
  | cons command later hypothesis =>
      obtain ⟨next, fired⟩ := design.obey_during phase command
      simp only [showings, next, fired, hypothesis, showingsFrom, showing, isAtRest, deadline,
        typed_during, agenda_during]

variable (design) in
/-- The kind of a matcher does not show in the run of its responder. -/
theorem showingsFrom_kind (kind : MatcherKind) (phase : Phase) (commands : List Command) :
    { design with kind }.showingsFrom phase commands = design.showingsFrom phase commands := by
  induction commands generalizing phase with
  | nil => rfl
  | cons command later hypothesis =>
      rw [showingsFrom, showingsFrom, ← hypothesis]
      rfl

end Design

end Responder

/-! ## The agreement -/

open Responder in
/-- **List and tree agree.**  For every list of shortcuts and every set of tracked
modifiers, the two matchers give the same verdicts and keep the same trails under every
sequence of demands, and the two responders made from them with the same callbacks and
the same settings show the same under every sequence of commands. -/
theorem list_and_tree_agree :
    (∀ (shortcuts : List Shortcut) (tracked : Modifiers) (demands : List Matcher.Demand),
      (Matcher.list { shortcuts, tracked }).answers demands =
        (Matcher.tree (.ofShortcuts shortcuts tracked)).answers demands) ∧
    ∀ (α : Type) (bound : List (Bound α)) (tracked : Modifiers) (settings : Settings)
      (commands : List Command),
      let shortcuts := bound.map Bound.shortcut
      (ofMatcher (.list { shortcuts, tracked }) bound settings).showings commands =
        (ofMatcher (.tree (.ofShortcuts shortcuts tracked)) bound settings).showings commands := by
  constructor
  · intro shortcuts tracked demands
    exact Matcher.answers_holding .list .tree shortcuts tracked Trail.empty demands
  · intro α bound tracked settings commands shortcuts
    have told : ∀ kind, (Design.fresh ⟨kind, tracked, bound, settings⟩).showings commands =
        Design.showingsFrom ⟨.list, tracked, bound, settings⟩ .resting commands := by
      intro kind
      rw [Design.fresh_eq_during, Design.showings_during]
      exact Design.showingsFrom_kind ⟨.list, tracked, bound, settings⟩ kind .resting commands
    exact (told .list).trans (told .tree).symm

end Keystrokes
