import Keystrokes.Proofs.Responding.InStep
import Keystrokes.Proofs.Shortcut.Unmeetable

/-!
# Shortcuts that never run

A shortcut with a chord that cannot be met is read and registered like any other.  It is
never postponed and its callback never runs, whatever key events report
(`unmeetable_never_runs`).

The reason is that calls are earned: whatever is postponed and whatever runs belongs to a
shortcut whose chords have been met one by one by key events that were accepted
(`Earned`).  Here this is carried through commands of every kind, and an earned call is
shown not to be that of a chord that cannot be met (`Earned.ne_of_isUnmeetable`).
-/

set_option autoImplicit false

namespace Keystrokes

namespace Responder

variable {α : Type} {design : Design α} {accepted : List (KeyEvent × Nat)}

/-! ## What is postponed and what runs is earned -/

/-- The calls that are postponed in a phase are earned. -/
theorem Phase.Follows.earned_of_postponed {phase : Phase}
    (follows : phase.Follows design accepted) {postponed : PostponedCall}
    (isPostponed : postponed ∈ (phase.agenda design.settings.timeout).postponed) :
    Earned design accepted postponed.call := by
  cases phase with
  | resting => exact absurd isPostponed List.not_mem_nil
  | detached => exact absurd isPostponed List.not_mem_nil
  | waiting wait =>
      obtain ⟨call, isCall, rfl⟩ := List.mem_map.mp isPostponed
      -- A poll at the end of the pause would run the call.
      have isDue : call ∈ Phase.due design.settings.timeout
          (wait.deadline design.settings.timeout) (.waiting wait) := by
        rw [Phase.due, if_pos (Nat.le_refl _)]
        exact isCall
      exact follows.earned_of_due isDue

/-- No input runs a call of a detached responder. -/
theorem Design.callsIn_detached (input : Input) : design.callsIn .detached input = [] := by
  cases input with
  | poll now => rfl
  | signal signal now =>
      rw [callsIn]
      cases design.fresh.screen signal <;> rfl

/-- The calls that run on a command are earned. -/
theorem Phase.Follows.earned_of_callsOn {phase : Phase} (follows : phase.Follows design accepted)
    {command : Command} {call : Call} (isCall : call ∈ design.callsOn phase command) :
    Earned design (accepted ++ (design.acceptedOn? command).toList) call := by
  cases command with
  | give input =>
      cases phase with
      | resting => exact follows.earned_of_callsIn rfl isCall
      | waiting wait => exact follows.earned_of_callsIn rfl isCall
      | detached =>
          rw [Design.callsOn, design.callsIn_detached] at isCall
          exact absurd isCall List.not_mem_nil
  | abandon => exact absurd isCall List.not_mem_nil
  | detach => exact absurd isCall List.not_mem_nil

/-- **The callbacks that run in the course of commands are those of earned calls.** -/
theorem Phase.Follows.earned_of_showing {phase : Phase} (follows : phase.Follows design accepted)
    {commands : List Command} {showing : Showing α}
    (isShown : showing ∈ design.showingsFrom phase commands) {firing : Firing α}
    (hasRun : firing ∈ showing.fired) :
    ∃ accepted, Earned design accepted ⟨firing.shortcut, firing.event⟩ := by
  induction commands generalizing phase accepted with
  | nil => exact absurd isShown List.not_mem_nil
  | cons command later hypothesis =>
      rcases List.mem_cons.mp isShown with rfl | isLater
      · obtain ⟨call, isCall, isRun⟩ := List.mem_flatMap.mp hasRun
        obtain ⟨entry, -, rfl⟩ := List.mem_map.mp isRun
        exact ⟨_, follows.earned_of_callsOn isCall⟩
      · exact hypothesis (follows.phaseOn command) isLater

/-! ## Chords that cannot be met -/

/-- **An earned call is not that of a shortcut with a chord that cannot be met.** -/
theorem Earned.ne_of_isUnmeetable {call : Call} (earned : Earned design accepted call)
    {number : Nat} {shortcut : Shortcut} (isShortcut : design.shortcuts[number]? = some shortcut)
    {chord : Chord} (isMember : chord ∈ shortcut.chords)
    (unmeetable : chord.IsUnmeetable design.settings.tracked) : call.shortcut ≠ number := by
  rintro rfl
  obtain ⟨same, places, last, time, isSame, -, -, meets⟩ := earned
  obtain rfl : shortcut = same := Option.some.inj (isShortcut.symm.trans isSame)
  obtain ⟨place, -, event, time, -, isMet⟩ := exists_related_of_mem meets isMember
  exact absurd isMet (by simp [unmeetable.metBy_stroke])

/-- **A shortcut with a chord that cannot be met never runs.**  Some chord of it asks for a
modifier that is unknown, or for one that key events are not asked about.  Then nothing is
ever postponed for it, and its callback never runs, in the course of any commands. -/
theorem unmeetable_never_runs (design : Design α) (commands : List Command) {number : Nat}
    {entry : Bound α} (isEntry : design.bound[number]? = some entry)
    (unmeetable : ∃ chord ∈ entry.shortcut.chords, chord.IsUnmeetable design.settings.tracked) :
    (∀ postponed ∈ (design.fresh.led commands).agenda.postponed,
        postponed.call.shortcut ≠ number) ∧
      ∀ showing ∈ design.fresh.showings commands, ∀ firing ∈ showing.fired,
        firing.shortcut ≠ number := by
  obtain ⟨chord, isMember, unmeetable⟩ := unmeetable
  have isShortcut : design.shortcuts[number]? = some entry.shortcut := by
    simp [Design.shortcuts, isEntry]
  constructor
  · intro postponed isPostponed
    rw [design.led_fresh] at isPostponed
    have earned := (follows_phaseLed design commands).earned_of_postponed isPostponed
    exact earned.ne_of_isUnmeetable isShortcut isMember unmeetable
  · intro showing isShown firing hasRun
    have begins : Phase.Follows design [] .resting := trivial
    rw [design.fresh_eq_during, design.showings_during] at isShown
    obtain ⟨accepted, earned⟩ := begins.earned_of_showing isShown hasRun
    exact earned.ne_of_isUnmeetable isShortcut isMember unmeetable

/-- A shortcut with a beginning of another one, whose second chord asks for a modifier that
key events are not asked about. -/
def halfTracked : Design Unit where
  kind := .tree
  tracked := .ofList [.control]
  bound :=
    [⟨⟨⟨{}, "g"⟩, []⟩, "g", ()⟩,
      ⟨⟨⟨{}, "g"⟩, [⟨.ofHeld (.ofList [.shift]), "K"⟩]⟩, "g Shift+K", ()⟩]
  settings := { tracked := .ofList [.control] }

/-- The longer of two shortcuts is begun, and then its key is pressed as it asks.  It does
not run, since nobody asks for the modifier. -/
theorem halfTracked_never_runs :
    let held := Modifiers.ofList [.shift]
    let commands : List Command :=
      [.give (.signal (.key { key := "g", code := "KeyG" }) 0),
        .give (.signal (.key { key := "K", code := "KeyK", modifiers := some held }) 10),
        .give (.poll 5000)]
    let entry : Bound Unit :=
      ⟨⟨⟨{}, "g"⟩, [⟨.ofHeld (.ofList [.shift]), "K"⟩]⟩, "g Shift+K", ()⟩
    halfTracked.bound[1]? = some entry ∧
      (∃ chord ∈ entry.shortcut.chords, chord.IsUnmeetable halfTracked.settings.tracked) ∧
      (∀ postponed ∈ (halfTracked.fresh.led commands).agenda.postponed,
        postponed.call.shortcut ≠ 1) ∧
      ∀ showing ∈ halfTracked.fresh.showings commands, ∀ firing ∈ showing.fired,
        firing.shortcut ≠ 1 := by
  intro held commands entry
  have isEntry : halfTracked.bound[1]? = some entry := rfl
  have unmeetable : ∃ chord ∈ entry.shortcut.chords,
      chord.IsUnmeetable halfTracked.settings.tracked :=
    ⟨⟨.ofHeld (.ofList [.shift]), "K"⟩, by decide, .inr ⟨.shift, by decide, by decide⟩⟩
  exact ⟨isEntry, unmeetable, unmeetable_never_runs halfTracked commands isEntry unmeetable⟩

end Responder

end Keystrokes
