import Keystrokes.Proofs.Keyboard.Terminal
import Keystrokes.Proofs.Matching.Typing
import Keystrokes.Proofs.Responding.Phase
import Keystrokes.Proofs.Shortcut.RoundTrip
import Keystrokes.Proofs.Text.Words

/-!
# A blank text as the only shortcut

A text without words is read nevertheless, as one chord that asks for no modifier and for a
key without a name.  Nothing ought to meet it.  But a chord is also met by the physical key,
and a terminal reports characters whose physical key it does not know.  So the callback of a
blank text runs whenever such a character is typed bare, and on nothing else that a terminal
reports (`blank_text_runs_off_layout`).

Of the chord only this is used, that there is no other.  A keystroke that meets it completes
it at once.  A modifier may be remembered for it, but the next keystroke takes its place.  So
the responder is as good as new before every input (`Phase.IsVacant`).
-/

set_option autoImplicit false

namespace Keystrokes

/-! ## One chord alone -/

section Lone

variable (chord : Chord) (tracked : Modifiers) (stroke : Keystroke)

/-- The verdict on one keystroke when there is one chord. -/
theorem verdictOn_lone :
    verdictOn [⟨chord, []⟩] tracked [stroke] =
      { matched := if chord.metBy stroke then [0] else []
        possible :=
          !chord.metBy stroke && (tracked.tracksKey stroke.key && chord.awaits stroke) } := by
  have judged : verdictOn [⟨chord, []⟩] tracked [stroke] =
      ListMatcher.verdict [chord.standing tracked [] stroke] := rfl
  rw [judged, Chord.standing]
  cases chord.metBy stroke with
  | true => rfl
  | false => cases tracked.tracksKey stroke.key && chord.awaits stroke <;> rfl

/-- A keystroke that only makes one chord possible is provisional. -/
theorem leavesProvisional_lone (possible : (verdictOn [⟨chord, []⟩] tracked [stroke]).possible) :
    ListMatcher.leavesProvisional (standings [⟨chord, []⟩] tracked [stroke]) = true := by
  have judged : standings [⟨chord, []⟩] tracked [stroke] = [chord.standing tracked [] stroke] := rfl
  rw [verdictOn_lone, Bool.and_eq_true, Bool.not_eq_true'] at possible
  rw [judged, Chord.standing, possible.1, possible.2]
  rfl

end Lone

namespace Responder

variable {α : Type} {design : Design α} {chord : Chord}

/-- A phase is vacant when nothing that has been typed stays with the next keystroke, and
nothing is due at any time. -/
structure Phase.IsVacant (tracked : Modifiers) (phase : Phase) : Prop where
  keepsNothing : ∀ stroke, phase.trail.kept tracked stroke = []
  owesNothing : ∀ timeout now, phase.due timeout now = []

theorem Phase.isVacant_resting (tracked : Modifiers) : Phase.resting.IsVacant tracked :=
  ⟨fun _ => rfl, fun _ _ => rfl⟩

namespace Phase.IsVacant

variable {phase : Phase}

theorem settle {tracked : Modifiers} (vacant : phase.IsVacant tracked) (timeout now : Nat) :
    (phase.settle timeout now).IsVacant tracked := by
  cases phase with
  | resting => exact vacant
  | detached => exact vacant
  | waiting wait =>
      rw [Phase.settle]
      split
      · exact isVacant_resting tracked
      · exact vacant

theorem verdict (vacant : phase.IsVacant design.tracked) (isLone : design.shortcuts = [⟨chord, []⟩])
    (event : KeyEvent) :
    design.verdict phase event =
      verdictOn [⟨chord, []⟩] design.tracked [event.stroke design.settings.tracked] := by
  rw [Design.verdict, Trail.strokes_extend, vacant.keepsNothing, List.nil_append, isLone]

/-- **A key event leaves a vacant phase vacant when there is one chord.** -/
theorem take (vacant : phase.IsVacant design.tracked) (isLone : design.shortcuts = [⟨chord, []⟩])
    (event : KeyEvent) (now : Nat) : (design.take phase event now).IsVacant design.tracked := by
  rw [Design.take, vacant.verdict isLone]
  split
  · next possible =>
      -- The keystroke is a modifier that the chord waits for.
      have noneMatched : (verdictOn [⟨chord, []⟩] design.tracked
          [event.stroke design.settings.tracked]).matched = [] := by
        rw [verdictOn_lone, Bool.and_eq_true, Bool.not_eq_true'] at possible
        simp [verdictOn_lone, possible.1]
      refine ⟨fun stroke => ?_, fun timeout now => ?_⟩
      · rw [Phase.trail, isLone, Trail.next, Trail.strokes_extend, vacant.keepsNothing,
          List.nil_append, if_pos possible, Trail.mark_extend, vacant.keepsNothing]
        exact Trail.kept_of_replaced rfl (.inl (leavesProvisional_lone _ _ _ possible))
      · simp [Phase.due, Wait.calls, noneMatched]
  · exact isVacant_resting design.tracked

end Phase.IsVacant

namespace Design

/-- **The phase of a responder with one chord is always vacant.** -/
theorem isVacant_reached (isLone : design.shortcuts = [⟨chord, []⟩]) (inputs : List Input) :
    (design.reached inputs).IsVacant design.tracked := by
  induction inputs using List.reverseRecOn with
  | nil => exact Phase.isVacant_resting design.tracked
  | append_singleton inputs input hypothesis =>
      rw [reached_concat]
      rcases design.input_cases (design.isDetached_reached inputs) input with
        ⟨now, -, -, next, -⟩ | ⟨signal, now, -, -, next, -⟩ | ⟨signal, now, event, -, -, next, -⟩
      · rw [next]
        exact hypothesis.settle _ now
      · rwa [next]
      · rw [next]
        exact (hypothesis.settle _ now).take isLone event now

variable (design chord) in
/-- The key event that an input brings, if it is accepted and meets a chord. -/
def meeting? (input : Input) : Option KeyEvent :=
  ((design.accepted? input).map Prod.fst).filter fun event =>
    chord.metBy (event.stroke design.settings.tracked)

/-- **A responder with one chord runs its callback on the key events that meet the chord**, at
once and on nothing else, whatever came before. -/
theorem fired_lone {label : String} {callback : α}
    (isLone : design.bound = [⟨⟨chord, []⟩, label, callback⟩]) (earlier : List Input)
    (input : Input) :
    (design.turnAfter earlier input).fired =
      (design.meeting? chord input).toList.map fun event => ⟨0, callback, event⟩ := by
  have shortcuts : design.shortcuts = [⟨chord, []⟩] := by rw [Design.shortcuts, isLone]; rfl
  have vacant := isVacant_reached shortcuts earlier
  rw [turnAfter_eq]
  rcases design.input_cases (design.isDetached_reached earlier) input with
    ⟨now, -, accepted, -, calls⟩ | ⟨signal, now, -, accepted, -, calls⟩ |
      ⟨signal, now, event, -, accepted, -, calls⟩
  · simp [calls, vacant.owesNothing, meeting?, accepted]
  · simp [calls, meeting?, accepted]
  · rw [calls, vacant.owesNothing, List.nil_append, atOnce,
      (vacant.settle design.settings.timeout now).verdict shortcuts, verdictOn_lone]
    cases meets : chord.metBy (event.stroke design.settings.tracked) <;>
      simp [run, isLone, meeting?, accepted, Option.filter, meets]

/-- A key event is brought when it is accepted and meets the chord. -/
theorem meeting?_key (event : KeyEvent) (now : Nat) :
    design.meeting? chord (.signal (.key event) now) =
      if (design.settings.filter.all fun accepts => accepts event) = true ∧
          chord.metBy (event.stroke design.settings.tracked) = true then some event else none := by
  rw [meeting?, accepted?, ite_and]
  split <;> simp [Option.filter]

end Design

end Responder

/-! ## The chord of a blank text -/

/-- The chord that asks for no modifier, and for a key without a name. -/
def Chord.nameless : Chord where
  required := {}
  key := ""

/-- A blank text is read as the chord without a name, on every platform. -/
theorem Shortcut.ofText_of_allBlank {text : String} (isBlank : Text.allBlank text = true)
    (platform : Platform) : ofText platform text = ⟨.nameless, []⟩ :=
  ofText_blank (Text.words_eq_nil_iff.mpr isBlank)

/-- The chord without a name is met by bare keystrokes that lack one of their own. -/
theorem Chord.metBy_nameless_iff {stroke : Keystroke} :
    nameless.metBy stroke = true ↔
      stroke.held = Modifiers.none ∧ (stroke.key = "" ∨ stroke.code = "") := by
  have asksNothing : nameless.required.metBy stroke.held = (Modifiers.none == stroke.held) := rfl
  rw [metBy, asksNothing, Bool.and_eq_true, Bool.or_eq_true, beq_iff_eq, beq_iff_eq, beq_iff_eq]
  exact and_congr eq_comm (or_congr eq_comm eq_comm)

open Terminal

/-- A key event that a terminal reports is a bare character off the layout, and the settings
accept it. -/
structure IsBareOffLayout (settings : Settings) (report : KeyReport) (event : KeyEvent) :
    Prop where
  accepted : (settings.filter.all fun accepts => accepts event) = true
  bare : event.heldAmong settings.tracked = Modifiers.none
  offLayout : ∃ character, report.key = .character character ∧ IsOffLayout character

theorem isBareOffLayout_iff {settings : Settings} {report : KeyReport} {event : KeyEvent}
    (isReported : report.event? = some event) :
    IsBareOffLayout settings report event ↔
      (settings.filter.all fun accepts => accepts event) = true ∧
        Chord.nameless.metBy (event.stroke settings.tracked) = true := by
  obtain ⟨hasKey, noCode⟩ := KeyReport.code_eq_empty_iff isReported
  have unnamed : event.key = "" ∨ event.code = "" ↔
      ∃ character, report.key = .character character ∧ IsOffLayout character := by
    rw [← noCode, or_iff_right hasKey]
  rw [Chord.metBy_nameless_iff, KeyEvent.stroke, unnamed]
  exact ⟨fun ⟨accepted, bare, offLayout⟩ => ⟨accepted, bare, offLayout⟩,
    fun ⟨accepted, bare, offLayout⟩ => ⟨accepted, bare, offLayout⟩⟩

/-! ## A blank text alone -/

namespace Responder

variable {α : Type}

/-- A layout with one text, for a matcher of either kind. -/
def soleLayout (kind : MatcherKind) (text : String) (callback : α) : Layout α :=
  match kind with
  | .list => .flat ⟨[(text, callback)]⟩
  | .tree => .nested (.callback text callback .empty)

theorem exists_ofLayout_soleLayout (kind : MatcherKind) (text : String) (callback : α)
    (settings : Settings) : ∃ label,
      ofLayout (soleLayout kind text callback) settings =
        Design.fresh ⟨kind, settings.tracked,
          [⟨Shortcut.ofText settings.platform text, label, callback⟩], settings⟩ := by
  cases kind <;> exact ⟨_, rfl⟩

/-- **A blank text runs on bare characters off the layout.**  The callback of a blank text
that stands alone, in a layout of either kind and under whatever settings, runs at once when a
terminal reports a bare character off the layout, if the settings accept it.  It runs on
nothing else that a terminal reports, and in no poll, whatever came before. -/
theorem blank_text_runs_off_layout (kind : MatcherKind) {text : String}
    (isBlank : Text.allBlank text = true) (callback : α) (settings : Settings)
    (earlier : List Input) (now : Nat) :
    let responder := (ofLayout (soleLayout kind text callback) settings).after earlier
    (responder.turn (.poll now)).fired = [] ∧
      ∀ report event, report.event? = some event →
        (IsBareOffLayout settings report event →
          (responder.turn (.signal (.key event) now)).fired = [⟨0, callback, event⟩]) ∧
        (¬ IsBareOffLayout settings report event →
          (responder.turn (.signal (.key event) now)).fired = []) := by
  intro responder
  obtain ⟨label, isMade⟩ := exists_ofLayout_soleLayout kind text callback settings
  rw [Shortcut.ofText_of_allBlank isBlank] at isMade
  let design : Design α :=
    ⟨kind, settings.tracked, [⟨⟨.nameless, []⟩, label, callback⟩], settings⟩
  have isAfter : responder = design.fresh.after earlier :=
    congrArg (fun made => made.after earlier) isMade
  have fired : ∀ input, (responder.turn input).fired =
      (design.meeting? .nameless input).toList.map fun event => ⟨0, callback, event⟩ := by
    intro input
    rw [isAfter]
    exact Design.fired_lone rfl earlier input
  constructor
  · rw [fired]
    rfl
  · intro report event isReported
    rw [fired, Design.meeting?_key, isBareOffLayout_iff isReported]
    exact ⟨fun isMet => by rw [if_pos isMet]; rfl, fun isUnmet => by rw [if_neg isUnmet]; rfl⟩

/-- A modifier is pressed and remembered.  Then `é` runs the callback of a blank text, and `e`
would not run it. -/
theorem blank_text_runs_on_accented_letter :
    let accented : KeyReport := { key := .character 'é' }
    let plain : KeyReport := { key := .character 'e' }
    let pressed : KeyEvent := { key := "Shift", code := "ShiftLeft" }
    let typed : KeyEvent := { key := "é", code := "" }
    let other : KeyEvent := { key := "e", code := "KeyE" }
    let responder := (ofLayout (soleLayout .tree " \t" "run") {}).after [.signal (.key pressed) 0]
    Text.allBlank " \t" = true ∧
      accented.event? = some typed ∧ IsBareOffLayout {} accented typed ∧
      plain.event? = some other ∧ ¬ IsBareOffLayout {} plain other ∧
      (responder.turn (.signal (.key typed) 10)).fired = [⟨0, "run", typed⟩] ∧
      (responder.turn (.signal (.key other) 10)).fired = [] := by
  intro accented plain pressed typed other responder
  have isBlank : Text.allBlank " \t" = true := by decide
  have offLayout : IsBareOffLayout {} accented typed := ⟨rfl, rfl, 'é', rfl, by decide⟩
  have onLayout : ¬ IsBareOffLayout {} plain other := by
    rintro ⟨-, -, character, isTyped, offLayout⟩
    obtain rfl : 'e' = character := Key.character.inj isTyped
    exact absurd offLayout (by decide)
  obtain ⟨-, runs⟩ :=
    blank_text_runs_off_layout .tree isBlank "run" {} [.signal (.key pressed) 0] 10
  exact ⟨isBlank, rfl, offLayout, rfl, onLayout, (runs accented typed rfl).1 offLayout,
    (runs plain other rfl).2 onLayout⟩

/-- A blank text runs on what a terminal reports, though nothing ought to meet it. -/
theorem blank_text_is_met : ¬ ∀ (kind : MatcherKind) (text : String) (settings : Settings)
    (typed : List (KeyReport × Nat)), Text.allBlank text = true →
      ∀ turn ∈ (ofLayout (soleLayout kind text ()) settings).turns (typed.filterMap
        fun (report, now) => report.event?.map fun event => .signal (.key event) now),
        turn.fired = [] := by
  intro neverRuns
  have notRun := neverRuns .list "   " {} [({ key := .character 'é' }, 0)] (by decide) _
    List.mem_cons_self
  exact absurd notRun (List.cons_ne_nil _ _)

end Responder

end Keystrokes
