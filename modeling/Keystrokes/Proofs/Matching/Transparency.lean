import Keystrokes.Proofs.Matching.Typing

/-!
# Modifiers that come and go

A modifier goes down before the key it belongs to, and it may be let go again before the
next key.  Neither leaves a mark on what is typed.  A keystroke is answered as it would be
without the modifiers before it, and the matcher is the same after it, if each of them
folds into what comes next or is only waited for (`modifiers_are_transparent`).

The reason is that a trail whose last keystroke is not a modifier's, or is provisional,
leaves the same keystrokes whatever comes next (`Trail.IsOpen.exists_kept`), and modifiers
that pass leave the same keystrokes again (`Trail.kept_of_passing`).
-/

set_option autoImplicit false

namespace Keystrokes

variable {shortcuts : List Shortcut} {tracked : Modifiers} {trail : Trail}

/-! ## Open trails -/

namespace Trail

/-- A trail is open when it is empty, or provisional, or ends in a keystroke that is not of
a tracked modifier. -/
def IsOpen (tracked : Modifiers) (trail : Trail) : Prop :=
  trail.strokes = [] ∨ trail.provisional = true ∨
    ∃ last, trail.strokes.getLast? = some last ∧ tracked.tracksKey last.key = false

/-- **An open trail leaves the same keystrokes whatever comes next.** -/
theorem IsOpen.exists_kept (isOpen : trail.IsOpen tracked) :
    ∃ base, (trail.strokes = [] → base = []) ∧ ∀ stroke, trail.kept tracked stroke = base := by
  rcases List.eq_nil_or_concat' trail.strokes with isEmpty | ⟨earlier, last, isTyped⟩
  · refine ⟨[], fun _ => rfl, fun stroke => ?_⟩
    simpa [isEmpty] using trail.length_kept_le tracked stroke
  · have notEmpty : trail.strokes ≠ [] := by simp [isTyped]
    cases provisional : trail.provisional with
    | true =>
        exact ⟨earlier, fun isEmpty => absurd isEmpty notEmpty,
          fun stroke => kept_of_replaced isTyped (.inl provisional)⟩
    | false =>
        obtain ⟨other, isLast, untracked⟩ :=
          (isOpen.resolve_left notEmpty).resolve_left (by simp [provisional])
        refine ⟨trail.strokes, id, fun stroke => kept_of_apart provisional fun last isOther => ?_⟩
        obtain rfl : other = last := Option.some.inj (isLast.symm.trans isOther)
        rw [Keystroke.foldsInto, untracked, Bool.false_and]

/-- What one more keystroke makes of a trail depends on the keystrokes it leaves. -/
theorem next_congr {other : Trail} {stroke : Keystroke}
    (same : trail.kept tracked stroke = other.kept tracked stroke) :
    trail.next shortcuts tracked stroke = other.next shortcuts tracked stroke := by
  simp only [next, mark_extend, strokes_extend, same]

end Trail

/-! ## Modifiers that pass -/

/-- Modifiers pass before a keystroke when each of them that is still the last of the trail
when the next of them comes, or the keystroke, is then provisional or folds into it. -/
def Matcher.LetsPass (matcher : Matcher) (tracked : Modifiers) (modifiers : List Keystroke)
    (stroke : Keystroke) : Prop :=
  ∀ before modifier next later, modifiers ++ [stroke] = before ++ modifier :: next :: later →
    let trail := (matcher.led ((before ++ [modifier]).map .step)).trail
    trail.strokes.getLast? = some modifier →
      trail.provisional = true ∨ modifier.foldsInto tracked next = true

/-- **Modifiers that pass leave the keystrokes that were there before them.** -/
theorem Trail.kept_of_passing (kind : MatcherKind) {base modifiers : List Keystroke}
    {stroke : Keystroke} (isBase : trail.strokes = [] → base = [])
    (isKept : ∀ next, trail.kept tracked next = base)
    (possible : trail.strokes ≠ [] →
      ∀ verdict ∈ (Matcher.holding kind shortcuts tracked trail).verdicts modifiers,
        verdict.possible = true)
    (pass : (Matcher.holding kind shortcuts tracked trail).LetsPass tracked modifiers stroke) :
    (trail.after shortcuts tracked modifiers).kept tracked stroke = base := by
  induction modifiers using List.reverseRecOn generalizing stroke with
  | nil => exact isKept stroke
  | append_singleton modifiers modifier hypothesis =>
      rw [Matcher.verdicts_concat] at possible
      have isKeptBefore : (trail.after shortcuts tracked modifiers).kept tracked modifier = base := by
        refine hypothesis (fun notEmpty verdict isEarlier => ?_) fun before other next later split => ?_
        · exact possible notEmpty verdict (List.mem_append_left _ isEarlier)
        · exact pass before other next (later ++ [stroke]) (by simp [split])
      have passes := pass modifiers modifier stroke [] (by simp)
      rw [Matcher.led_strokes, Matcher.trail_holding, after_concat] at passes
      rw [after_concat]
      have typed : ((trail.after shortcuts tracked modifiers).next shortcuts tracked
          modifier).strokes = _ := strokes_next _ modifier
      rw [isKeptBefore] at possible typed
      split at typed
      · exact kept_of_replaced typed (passes (by rw [typed, List.getLast?_concat]))
      · next impossible =>
          -- Nothing could be completed, which is allowed only if nothing had been typed.
          have isEmpty : trail.strokes = [] := by
            by_contra notEmpty
            exact impossible (possible notEmpty _ (by simp))
          rw [isBase isEmpty]
          have := length_kept_le ((trail.after shortcuts tracked modifiers).next shortcuts tracked
            modifier) tracked stroke
          simpa [typed] using this

/-! ## A modifier before its key -/

theorem Chord.standing_ne_dead_iff {chord : Chord} {later : List Chord} {stroke : Keystroke} :
    chord.standing tracked later stroke ≠ .dead ↔
      chord.metBy stroke = true ∨ tracked.tracksKey stroke.key = true ∧ chord.awaits stroke = true := by
  unfold Chord.standing
  by_cases meets : chord.metBy stroke
  · cases later <;> simp [meets]
  · simp [meets]

/-- A chord that a keystroke does not leave dead awaits the modifiers held before it. -/
theorem Chord.awaits_of_folds {chord : Chord} {later : List Chord} {modifier stroke : Keystroke}
    (folds : modifier.foldsInto tracked stroke = true)
    (alive : chord.standing tracked later stroke ≠ .dead) : chord.awaits modifier = true := by
  have isWithin := (Bool.and_eq_true_iff.mp folds).2
  simp only [awaits, RequiredModifiers.withinReachOf, Bool.and_eq_true]
  rcases standing_ne_dead_iff.mp alive with meets | ⟨-, isAwaited⟩
  · simp only [metBy, RequiredModifiers.metBy, Bool.and_eq_true, beq_iff_eq] at meets
    exact ⟨meets.1.1, meets.1.2 ▸ isWithin⟩
  · simp only [awaits, RequiredModifiers.withinReachOf, Bool.and_eq_true] at isAwaited
    exact ⟨isAwaited.1, Modifiers.isWithin_trans isWithin isAwaited.2⟩

/-- **A modifier leads on if what it folds into does.** -/
theorem standing_ne_dead_of_folds {chords : List Chord} {earlier : List Keystroke}
    {modifier stroke : Keystroke} (folds : modifier.foldsInto tracked stroke = true)
    (alive : standing tracked chords (earlier ++ [stroke]) ≠ .dead) :
    standing tracked chords (earlier ++ [modifier]) ≠ .dead := by
  obtain ⟨begun, chord, later, rfl, met⟩ := exists_of_standing_ne_dead alive
  rw [standing_append met] at alive ⊢
  have isTracked := (Bool.and_eq_true_iff.mp folds).1
  exact Chord.standing_ne_dead_iff.mpr (.inr ⟨isTracked, Chord.awaits_of_folds folds alive⟩)

theorem isDead_eq_false_iff {strokes : List Keystroke} :
    (verdictOn shortcuts tracked strokes).isDead = false ↔
      ∃ shortcut ∈ shortcuts, shortcut.standing tracked strokes ≠ .dead := by
  rw [Verdict.isDead, Bool.and_eq_false_iff, List.isEmpty_eq_false_iff, Bool.not_eq_false',
    possible_iff]
  constructor
  · rintro (someMatched | ⟨shortcut, isMember, onItsWay⟩ | ⟨shortcut, isMember, isAwaited⟩)
    · obtain ⟨number, isMatched⟩ := List.exists_mem_of_ne_nil _ someMatched
      obtain ⟨shortcut, found, stands⟩ := mem_matched.mp isMatched
      exact ⟨shortcut, List.mem_of_getElem? found, by simp [stands]⟩
    · exact ⟨shortcut, isMember, by simp [onItsWay]⟩
    · exact ⟨shortcut, isMember, by simp [isAwaited]⟩
  · rintro ⟨shortcut, isMember, alive⟩
    cases stands : shortcut.standing tracked strokes with
    | matched =>
        obtain ⟨number, found⟩ := List.mem_iff_getElem?.mp isMember
        exact .inl (List.ne_nil_of_mem (mem_matched.mpr ⟨shortcut, found, stands⟩))
    | possible => exact .inr (.inl ⟨shortcut, isMember, stands⟩)
    | awaiting => exact .inr (.inr ⟨shortcut, isMember, stands⟩)
    | dead => exact absurd stands alive

/-! ## The law -/

/-- **Modifiers that come and go are transparent.**  After any demands, let the trail of a
matcher of either kind be open.  Let modifiers pass before a keystroke, and let each of
them leave something that could be completed, unless nothing has been typed.  Then the
keystroke is answered as it would be without them, and leaves the matcher as it would be
without them.  And a modifier that folds into a keystroke is not dead if the keystroke, in
its place, is not. -/
theorem modifiers_are_transparent (kind : MatcherKind) (shortcuts : List Shortcut)
    (tracked : Modifiers) (demands : List Matcher.Demand) :
    let matcher := (Matcher.ofKind kind shortcuts tracked).led demands
    matcher.trail.IsOpen tracked →
      (∀ modifiers stroke,
        (matcher.trail.strokes ≠ [] →
          ∀ verdict ∈ matcher.verdicts modifiers, verdict.possible = true) →
        matcher.LetsPass tracked modifiers stroke →
        (matcher.led (modifiers.map .step)).step stroke = matcher.step stroke) ∧
      ∀ modifier stroke, modifier.foldsInto tracked stroke = true →
        (matcher.step stroke).2.isDead = false → (matcher.step modifier).2.isDead = false := by
  intro matcher isOpen
  obtain ⟨trail, -, isLed⟩ := Matcher.exists_led kind shortcuts tracked demands
  have held : matcher = Matcher.holding kind shortcuts tracked trail := isLed
  rw [held] at isOpen ⊢
  rw [Matcher.trail_holding] at isOpen ⊢
  obtain ⟨base, isBase, isKept⟩ := isOpen.exists_kept
  constructor
  · intro modifiers stroke possible pass
    have isKeptOn := Trail.kept_of_passing kind isBase isKept possible pass
    rw [Matcher.led_strokes, Matcher.step_holding, Matcher.step_holding, Trail.strokes_extend,
      Trail.strokes_extend, Trail.next_congr (isKeptOn.trans (isKept stroke).symm), isKeptOn, isKept]
  · intro modifier stroke folds alive
    rw [Matcher.step_holding, Trail.strokes_extend, isKept, isDead_eq_false_iff] at alive ⊢
    obtain ⟨shortcut, isMember, alive⟩ := alive
    exact ⟨shortcut, isMember, standing_ne_dead_of_folds folds alive⟩

/-- Within a sequence two modifiers go down one after the other.  They are let go before a
key that another shortcut asks for, or held when the key goes down that they belong to. -/
theorem modifiers_are_transparent_in_sequence :
    let control := Modifiers.ofList [.control]
    let both := Modifiers.ofList [.control, .shift]
    let shortcuts : List Shortcut :=
      [⟨⟨{}, "g"⟩, [⟨.ofHeld both, "K"⟩]⟩, ⟨⟨{}, "g"⟩, [⟨{}, "x"⟩]⟩]
    let matcher := (Matcher.ofKind .tree shortcuts .all).led [.step ⟨.none, "g", "KeyG"⟩]
    let modifiers : List Keystroke :=
      [⟨control, "Control", "ControlLeft"⟩, ⟨both, "Shift", "ShiftLeft"⟩]
    let released : Keystroke := ⟨.none, "x", "KeyX"⟩
    let held : Keystroke := ⟨both, "K", "KeyK"⟩
    matcher.trail.IsOpen .all ∧
      (∀ verdict ∈ matcher.verdicts modifiers, verdict.possible = true) ∧
      matcher.LetsPass .all modifiers released ∧
      (matcher.led (modifiers.map .step)).step released = matcher.step released ∧
      (matcher.step held).2.isDead = false ∧
      ∀ modifier ∈ modifiers, modifier.foldsInto .all held = true ∧
        (matcher.step modifier).2.isDead = false := by
  intro control both shortcuts matcher modifiers released held
  have isOpen : matcher.trail.IsOpen .all := .inr (.inr ⟨_, rfl, by decide⟩)
  have possible : ∀ verdict ∈ matcher.verdicts modifiers, verdict.possible = true := by decide
  have pass : matcher.LetsPass .all modifiers released := by
    intro before modifier next later split
    rcases before with _ | ⟨first, _ | ⟨second, before⟩⟩
    · obtain ⟨rfl, rfl, rfl⟩ : _ ∧ _ ∧ _ := by simpa [modifiers] using split
      decide
    · obtain ⟨rfl, rfl, rfl, rfl⟩ : _ ∧ _ ∧ _ ∧ _ := by simpa [modifiers] using split
      decide
    · have tooMany := congrArg List.length split
      simp [modifiers] at tooMany
      omega
  have alive : (matcher.step held).2.isDead = false := by decide +kernel
  have folds : ∀ modifier ∈ modifiers, modifier.foldsInto .all held = true := by decide
  obtain ⟨same, leads⟩ := modifiers_are_transparent .tree shortcuts .all _ isOpen
  exact ⟨isOpen, possible, pass, same modifiers released (fun _ => possible) pass, alive,
    fun modifier isMember => ⟨folds modifier isMember, leads modifier held (folds modifier isMember) alive⟩⟩

end Keystrokes
