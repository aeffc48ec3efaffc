import Keystrokes.Proofs.Shortcut.Cutting

/-!
# One text on two platforms

A text is read without a look at the platform, except that the modifier `$mod` means
another key on each.  So what it writes is read once and for all: its key, and what its
other modifiers ask for.  A platform's own modifier is asked for besides when `$mod` is a
modifier of the text, and only then (`Chord.exists_reading`).

Shortcuts are compared chord by chord, along the texts of their slots
(`reads_alike_but_for_own_modifier`).
-/

set_option autoImplicit false

namespace Keystrokes

/-! ## The modifiers of a text -/

/-- Whether a token is among those of a text that are not its last one. -/
def HasModifier (text token : String) : Prop :=
  ∃ modifiers key, CutsInto text (modifiers ++ [key]) ∧ token ∈ modifiers

theorem CutsInto.unique {text : String} {first second : List String}
    (cutsFirst : CutsInto text first) (cutsSecond : CutsInto text second) : first = second :=
  List.map_injective_iff.mpr (fun _ _ => String.toList_injective)
    ((cutsInto_iff.mp cutsFirst).trans (cutsInto_iff.mp cutsSecond).symm)

theorem CutsInto.hasModifier_iff {text : String} {modifiers : List String} {key : String}
    (cuts : CutsInto text (modifiers ++ [key])) {token : String} :
    HasModifier text token ↔ token ∈ modifiers := by
  constructor
  · rintro ⟨others, last, cutsOthers, isOther⟩
    obtain ⟨rfl, -⟩ := List.append_inj' (cuts.unique cutsOthers) rfl
    exact isOther
  · intro isModifier
    exact ⟨modifiers, key, cuts, isModifier⟩

/-- **A chord is read off the cut of its text.** -/
theorem Chord.exists_cut (text : String) : ∃ modifiers key, CutsInto text (modifiers ++ [key]) ∧
    ∀ platform, Chord.ofText platform text =
      { required := .ofNames (modifiers.map platform.resolve), key := key } := by
  obtain ⟨tokens, last, isSplit⟩ := Chord.exists_tokens text.toList
  refine ⟨tokens.map String.ofList, String.ofList last, cutsInto_iff.mpr ?_, fun platform => ?_⟩
  · rw [isSplit]
    simp [Function.comp_def]
  · rw [Chord.ofText, Chord.ofWord_of_tokens isSplit, List.map_map]
    rfl

/-! ## What is read on every platform -/

namespace RequiredModifiers

/-- Asking for one more modifier that is known leaves the unknown names alone. -/
theorem add_name (required : RequiredModifiers) (modifier : Modifier) :
    required.add modifier.name = { required with known := required.known.insert modifier } := by
  rw [add, Modifier.ofName?_name]

/-- **A platform adds its own modifier to what is asked for elsewhere, if `$mod` is written.** -/
theorem ofNames_map_resolve (platform : Platform) (modifiers : List String) :
    ofNames (modifiers.map platform.resolve) =
      if "$mod" ∈ modifiers then
        (ofNames (modifiers.filter (· ≠ "$mod"))).add platform.ownModifier.name
      else ofNames (modifiers.filter (· ≠ "$mod")) := by
  split
  · next isAlias =>
      rw [← ofNames_concat]
      refine ofNames_congr fun name => ?_
      rw [mem_map_resolve_iff, and_iff_right isAlias, List.mem_append, List.mem_singleton,
        List.mem_filter, decide_eq_true_eq, eq_comm]
  · next notAlias =>
      refine ofNames_congr fun name => ?_
      rw [mem_map_resolve_iff, List.mem_filter, decide_eq_true_eq]
      exact or_iff_left fun isAlias => notAlias isAlias.1

end RequiredModifiers

/-- **A text is read alike on every platform, but for the modifier that `$mod` means.**  The
modifiers that are shared are those which the text writes by name. -/
theorem Chord.exists_reading (text : String) :
    ∃ (shared : RequiredModifiers) (key : String) (mentioned : Bool),
      (mentioned = true ↔ HasModifier text "$mod") ∧
      (∀ modifier, shared.known.contains modifier = true ↔ HasModifier text modifier.name) ∧
      "$mod" ∉ shared.unknown.toList ∧
      ∀ platform, Chord.ofText platform text =
        { required := if mentioned then
            { shared with known := shared.known.insert platform.ownModifier } else shared
          key } := by
  obtain ⟨modifiers, key, cuts, isChord⟩ := Chord.exists_cut text
  refine ⟨.ofNames (modifiers.filter (· ≠ "$mod")), key, decide ("$mod" ∈ modifiers),
    ?_, fun modifier => ?_, ?_, fun platform => ?_⟩
  · rw [decide_eq_true_eq, cuts.hasModifier_iff]
  · rw [RequiredModifiers.contains_ofNames, List.mem_filter, decide_eq_true_eq,
      and_iff_left modifier.name_ne_alias, cuts.hasModifier_iff]
  · simp [RequiredModifiers.mem_unknown_ofNames]
  · rw [isChord, RequiredModifiers.ofNames_map_resolve, RequiredModifiers.add_name]
    simp only [decide_eq_true_eq]

/-! ## Two platforms -/

/-- How the chord of a text on an Apple platform may differ from that on another one: they
ask for the same key, the same unknown names and the same modifiers, and if `$mod` is a
modifier of the text, each asks for its platform's own one besides. -/
structure DiffersInOwn (text : String) (apple other : Chord) : Prop where
  key : apple.key = other.key
  unknown : apple.required.unknown = other.required.unknown
  literal : "$mod" ∉ apple.required.unknown.toList
  known : ∃ (shared : Modifiers) (mentioned : Bool),
    (mentioned = true ↔ HasModifier text "$mod") ∧
    apple.required.known = (if mentioned then shared.insert .metaKey else shared) ∧
    other.required.known = (if mentioned then shared.insert .control else shared)

theorem Chord.differsInOwn (text : String) :
    DiffersInOwn text (Chord.ofText .apple text) (Chord.ofText .other text) := by
  obtain ⟨shared, key, mentioned, isMentioned, -, literal, isChord⟩ := Chord.exists_reading text
  rw [isChord, isChord]
  cases mentioned with
  | false => exact ⟨rfl, rfl, literal, shared.known, false, isMentioned, rfl, rfl⟩
  | true => exact ⟨rfl, rfl, literal, shared.known, true, isMentioned, rfl, rfl⟩

/-- A set is the same with one modifier and with another if it has both. -/
theorem Modifiers.insert_eq_insert_iff {held : Modifiers} {first second : Modifier}
    (different : first ≠ second) : held.insert first = held.insert second ↔
      held.contains first = true ∧ held.contains second = true := by
  constructor
  · intro same
    constructor
    · have := contains_insert held second first
      rw [← same, contains_insert] at this
      simpa [different] using this.symm
    · have := contains_insert held first second
      rw [same, contains_insert] at this
      simpa [different.symm] using this.symm
  · rintro ⟨hasFirst, hasSecond⟩
    refine ext_contains fun modifier => ?_
    rw [contains_insert, contains_insert]
    by_cases isFirst : modifier = first
    · simp [isFirst, hasFirst]
    · by_cases isSecond : modifier = second
      · simp [isSecond, hasSecond]
      · rw [beq_false_of_ne isFirst, beq_false_of_ne isSecond]

/-- A text writes one chord on both platforms when `$mod` adds to it on neither. -/
theorem Chord.ofText_apple_eq_other_iff (text : String) :
    Chord.ofText .apple text = Chord.ofText .other text ↔
      (HasModifier text "$mod" → HasModifier text "Meta" ∧ HasModifier text "Control") := by
  obtain ⟨shared, key, mentioned, isMentioned, named, -, isChord⟩ := Chord.exists_reading text
  rw [isChord, isChord, ← isMentioned]
  cases mentioned with
  | false => simp
  | true =>
      have isSame : shared.known.insert .metaKey = shared.known.insert .control ↔
          HasModifier text "Meta" ∧ HasModifier text "Control" := by
        rw [Modifiers.insert_eq_insert_iff (by decide), named, named]
        rfl
      rw [← isSame]
      simp [Platform.ownModifier]

/-! ## The slots of a shortcut -/

/-- The texts of which a shortcut has one chord each: the words of its text, or an empty one
when there is no word. -/
def slotTexts (text : String) : List String :=
  if Text.words text.toList = [] then [""] else (Text.words text.toList).map String.ofList

theorem Shortcut.chords_ofText_eq_map (platform : Platform) (text : String) :
    (Shortcut.ofText platform text).chords = (slotTexts text).map (Chord.ofText platform) := by
  rw [slotTexts]
  split
  · next isBlank =>
      rw [Shortcut.ofText_blank isBlank]
      rfl
  · next hasWord =>
      rw [Shortcut.chords_ofText hasWord, List.map_map]
      exact List.map_congr_left fun word _ => by
        rw [Function.comp_apply, Chord.ofText, String.toList_ofList]

/-- **The platform enters the reading of a text through `$mod` alone.**  On an Apple platform
and on another one a text has the same slots.  In each, both ask for the same key, the same
unknown names, of which `$mod` is none, and the same modifiers, to which the one adds Meta
and the other Control when `$mod` is a modifier of the slot, and not otherwise.  The two
shortcuts are the same exactly when Meta and Control are both written wherever `$mod` is;
so they are if `$mod` is a modifier of no slot. -/
theorem reads_alike_but_for_own_modifier (text : String) :
    (Shortcut.ofText .apple text).size = (Shortcut.ofText .other text).size ∧
    (Shortcut.ofText .apple text).chords = (slotTexts text).map (Chord.ofText .apple) ∧
    (Shortcut.ofText .other text).chords = (slotTexts text).map (Chord.ofText .other) ∧
    (∀ slot ∈ slotTexts text,
      DiffersInOwn slot (Chord.ofText .apple slot) (Chord.ofText .other slot)) ∧
    (Shortcut.ofText .apple text = Shortcut.ofText .other text ↔
      ∀ slot ∈ slotTexts text, HasModifier slot "$mod" →
        HasModifier slot "Meta" ∧ HasModifier slot "Control") ∧
    ((∀ slot ∈ slotTexts text, ¬ HasModifier slot "$mod") →
      Shortcut.ofText .apple text = Shortcut.ofText .other text) := by
  have isSame : Shortcut.ofText .apple text = Shortcut.ofText .other text ↔
      ∀ slot ∈ slotTexts text, HasModifier slot "$mod" →
        HasModifier slot "Meta" ∧ HasModifier slot "Control" := by
    have sameChords : Shortcut.ofText .apple text = Shortcut.ofText .other text ↔
        (Shortcut.ofText .apple text).chords = (Shortcut.ofText .other text).chords :=
      ⟨congrArg Shortcut.chords, Shortcut.eq_of_chords⟩
    rw [sameChords, Shortcut.chords_ofText_eq_map, Shortcut.chords_ofText_eq_map, List.map_inj_left]
    exact forall₂_congr fun slot _ => Chord.ofText_apple_eq_other_iff slot
  refine ⟨?_, Shortcut.chords_ofText_eq_map .apple text, Shortcut.chords_ofText_eq_map .other text,
    fun slot _ => Chord.differsInOwn slot, isSame, fun notWritten => isSame.mpr ?_⟩
  · rw [Shortcut.size, Shortcut.size, Shortcut.chords_ofText_eq_map, Shortcut.chords_ofText_eq_map,
      List.length_map, List.length_map]
  · intro slot isSlot isWritten
    exact absurd isWritten (notWritten slot isSlot)

/-- `$mod` as the key, as a part of a longer token, and beside the modifiers it may mean. -/
example : Shortcut.ofText .apple "$mod $mod-x+a $mod+Meta+Control+b" =
    Shortcut.ofText .other "$mod $mod-x+a $mod+Meta+Control+b" := by
  decide +kernel

end Keystrokes
