import Keystrokes.CommandLine.Start
import Keystrokes.Proofs.CommandLine.Report
import Keystrokes.Proofs.Responding.Flat
import Mathlib.Data.List.Forall2

/-!
# What the command starts with

The command takes a keymap document and its arguments together to a keymap
(`Arguments.launch`), or fails: a timeout in either of them has to be one that may be asked
for, and a platform has to be known by its name.

The keymap that the command starts with is read twice, once to report on it and once to
listen, each time from its texts and by a reader that remembers.  Both read the same:
`report_shows_what_runs`.
-/

set_option autoImplicit false

namespace Keystrokes

/-! ## Names of platforms -/

/-- **A platform is known by its name, and the case of ASCII letters does not matter.** -/
theorem Platform.ofName?_eq_some_iff {text : String} {platform : Platform} :
    ofName? text = some platform ↔ text.toLower = platform.name := by
  have isLower : text.toLower = text.map Char.toLower := rfl
  have isFound : ofName? text =
      [apple, other].find? fun platform => decide (text.toLower = platform.name) := by
    rw [ofName?]
    congr 1
    funext platform
    rw [Bool.eq_iff_iff, beq_iff_eq, decide_eq_true_eq, ← String.toList_inj, isLower,
      String.toList_map, eq_comm]
  rw [isFound]
  constructor
  · intro found
    simpa using List.find?_some found
  · intro isName
    rw [isName]
    cases platform <;> decide

theorem Platform.exists_ofName?_iff {text : String} :
    (∃ platform, ofName? text = some platform) ↔
      text.toLower = "apple" ∨ text.toLower = "other" := by
  constructor
  · rintro ⟨platform, isNamed⟩
    have isName := ofName?_eq_some_iff.mp isNamed
    cases platform with
    | apple => exact .inl isName
    | other => exact .inr isName
  · rintro (isApple | isOther)
    · exact ⟨.apple, ofName?_eq_some_iff.mpr isApple⟩
    · exact ⟨.other, ofName?_eq_some_iff.mpr isOther⟩

/-! ## The keymap of a document -/

/-- A timeout that may be asked for. -/
theorem timeoutInRange_iff {timeout : Nat} :
    timeoutInRange timeout = true ↔ 50 ≤ timeout ∧ timeout ≤ 60000 := by
  rw [timeoutInRange, Bool.and_eq_true, decide_eq_true_eq, decide_eq_true_eq]
  rfl

/-- An entry says something when there is a word in its shortcut and one in its action. -/
theorem saysSomething_iff {entry : String × String} :
    saysSomething entry = true ↔
      Text.words entry.1.toList ≠ [] ∧ Text.words entry.2.toList ≠ [] := by
  rw [saysSomething, Bool.and_eq_true, Bool.not_eq_true', Bool.not_eq_true', Text.allBlank,
    Text.allBlank, ne_eq, ne_eq, Text.words_eq_nil_iff, Text.words_eq_nil_iff,
    Bool.not_eq_true, Bool.not_eq_true]

namespace Keymap

theorem checkedTimeout_eq_ok_iff {named : Option Nat} {timeout : Nat} :
    checkedTimeout named = .ok timeout ↔
      (∀ other ∈ named, 50 ≤ other ∧ other ≤ 60000) ∧ timeout = named.getD 1000 := by
  cases named with
  | none =>
      rw [checkedTimeout]
      simp [eq_comm]
  | some other =>
      rw [checkedTimeout]
      split
      · next inRange =>
          simpa [timeoutInRange_iff.mp inRange] using eq_comm
      · next outOfRange =>
          rw [timeoutInRange_iff] at outOfRange
          simp [outOfRange]

theorem checkedPlatform_eq_ok_iff {named : Option String} {platform : Option Platform} :
    checkedPlatform named = .ok platform ↔
      (∀ name ∈ named, name.toLower = "apple" ∨ name.toLower = "other") ∧
        platform = named.bind Platform.ofName? := by
  cases named with
  | none =>
      rw [checkedPlatform]
      simp [eq_comm]
  | some name =>
      rw [checkedPlatform]
      simp only [Option.mem_some_iff, forall_eq', ← Platform.exists_ofName?_iff, Option.bind_some]
      cases Platform.ofName? name with
      | none => simp
      | some found => simp [eq_comm]

/-- **When a document is taken for a keymap, and for which.** -/
theorem ofDocument_eq_ok_iff {document : KeymapDocument} {keymap : Keymap} :
    (∃ notes, ofDocument document = .ok (keymap, notes)) ↔
      (∀ timeout ∈ document.timeout, 50 ≤ timeout ∧ timeout ≤ 60000) ∧
      (∀ name ∈ document.platform, name.toLower = "apple" ∨ name.toLower = "other") ∧
      keymap =
        { timeout := document.timeout.getD 1000
          event := document.event.getD .keyDown
          platform := document.platform.bind Platform.ofName?
          entries := document.entries.filter saysSomething } := by
  constructor
  · rintro ⟨notes, isRead⟩
    rw [ofDocument] at isRead
    cases timeoutRead : checkedTimeout document.timeout with
    | error error => simp [timeoutRead, bind, Except.bind] at isRead
    | ok timeout =>
        cases platformRead : checkedPlatform document.platform with
        | error error => simp [timeoutRead, platformRead, bind, Except.bind] at isRead
        | ok platform =>
            obtain ⟨inRange, rfl⟩ := checkedTimeout_eq_ok_iff.mp timeoutRead
            obtain ⟨isKnown, rfl⟩ := checkedPlatform_eq_ok_iff.mp platformRead
            simp only [timeoutRead, platformRead, bind, Except.bind, pure, Except.pure,
              Except.ok.injEq, Prod.mk.injEq] at isRead
            exact ⟨inRange, isKnown, isRead.1.symm⟩
  · rintro ⟨inRange, isKnown, rfl⟩
    have timeoutRead := checkedTimeout_eq_ok_iff.mpr ⟨inRange, rfl⟩
    have platformRead := checkedPlatform_eq_ok_iff.mpr ⟨isKnown, rfl⟩
    rw [ofDocument, timeoutRead, platformRead]
    exact ⟨_, rfl⟩

end Keymap

/-! ## The keymap to run with -/

namespace Arguments

/-- The keymap to run with when the keymap file is a document. -/
def launch (arguments : Arguments) (document : KeymapDocument) : Except StartFailure Keymap :=
  match Keymap.ofDocument document with
  | .ok (keymap, _) => arguments.override keymap
  | .error error => .error (.refused arguments.config error)

/-- The command starts from the document of its keymap file. -/
theorem start_eq_launch (arguments : Arguments) {text : String} {document : KeymapDocument}
    (isDocument : KeymapDocument.ofText? text = some document) :
    (arguments.start (some (.ok text))).1 = arguments.launch document := by
  have isRead : Keymap.read text = Keymap.ofDocument document := by rw [Keymap.read, isDocument]
  simp only [start, loadKeymap, isRead, launch]
  cases Keymap.ofDocument document with
  | ok read => rfl
  | error error => rfl

theorem override_eq_ok_iff {arguments : Arguments} {keymap merged : Keymap} :
    arguments.override keymap = .ok merged ↔
      (∀ timeout ∈ arguments.timeout, 50 ≤ timeout ∧ timeout ≤ 60000) ∧
      merged =
        { keymap with
          timeout := arguments.timeout.getD keymap.timeout
          platform := arguments.platform.or keymap.platform } := by
  cases named : arguments.timeout with
  | none => simp [override, named, eq_comm]
  | some timeout =>
      by_cases inRange : timeoutInRange timeout = true
      · simp [override, named, inRange, timeoutInRange_iff.mp inRange, eq_comm]
      · have outOfRange := mt timeoutInRange_iff.mpr inRange
        simp [override, named, inRange, outOfRange]

/-- **When the command has a keymap to run with, and which.**  What the arguments name takes
the place of what the document names. -/
theorem launch_eq_ok_iff {arguments : Arguments} {document : KeymapDocument} {keymap : Keymap} :
    arguments.launch document = .ok keymap ↔
      (∀ timeout ∈ document.timeout, 50 ≤ timeout ∧ timeout ≤ 60000) ∧
      (∀ timeout ∈ arguments.timeout, 50 ≤ timeout ∧ timeout ≤ 60000) ∧
      (∀ name ∈ document.platform, name.toLower = "apple" ∨ name.toLower = "other") ∧
      keymap =
        { timeout := (arguments.timeout.or document.timeout).getD 1000
          event := document.event.getD .keyDown
          platform := arguments.platform.or (document.platform.bind Platform.ofName?)
          entries := document.entries.filter saysSomething } := by
  have isLaunched : arguments.launch document = .ok keymap ↔ ∃ read,
      (∃ notes, Keymap.ofDocument document = .ok (read, notes)) ∧
        arguments.override read = .ok keymap := by
    rw [launch]
    cases Keymap.ofDocument document with
    | ok read => simp [Prod.ext_iff]
    | error error => simp
  simp only [isLaunched, Keymap.ofDocument_eq_ok_iff, override_eq_ok_iff]
  have sameTimeout : (arguments.timeout.or document.timeout).getD 1000 =
      arguments.timeout.getD (document.timeout.getD 1000) := by
    cases arguments.timeout <;> rfl
  rw [sameTimeout]
  constructor
  · rintro ⟨read, ⟨inRange, isKnown, rfl⟩, overrideInRange, rfl⟩
    exact ⟨inRange, overrideInRange, isKnown, rfl⟩
  · rintro ⟨inRange, overrideInRange, isKnown, rfl⟩
    exact ⟨_, ⟨inRange, isKnown, rfl⟩, overrideInRange, rfl⟩

/-- The timeout that takes effect may be asked for, if those that are named may. -/
theorem inRange_timeout {argument named : Option Nat}
    (argumentInRange : ∀ timeout ∈ argument, 50 ≤ timeout ∧ timeout ≤ 60000)
    (namedInRange : ∀ timeout ∈ named, 50 ≤ timeout ∧ timeout ≤ 60000) :
    50 ≤ (argument.or named).getD 1000 ∧ (argument.or named).getD 1000 ≤ 60000 := by
  cases argument with
  | some timeout => exact argumentInRange timeout rfl
  | none =>
      cases named with
      | some timeout => exact namedInRange timeout rfl
      | none => decide

/-- The platform that is meant: the one of the arguments, else the one that the document
names, whatever the case of its letters, else the host. -/
inductive Means (arguments : Arguments) (document : KeymapDocument) : Platform → Prop where
  | argument {platform : Platform} (isNamed : arguments.platform = some platform) :
      Means arguments document platform
  | document {platform : Platform} {name : String} (noArgument : arguments.platform = none)
      (isNamed : document.platform = some name) (isName : name.toLower = platform.name) :
      Means arguments document platform
  | host (noArgument : arguments.platform = none) (noName : document.platform = none) :
      Means arguments document Platform.host

theorem means_platform {arguments : Arguments} {document : KeymapDocument}
    (isKnown : ∀ name ∈ document.platform, name.toLower = "apple" ∨ name.toLower = "other") :
    arguments.Means document
      ((arguments.platform.or (document.platform.bind Platform.ofName?)).getD Platform.host) := by
  cases argument : arguments.platform with
  | some platform => exact .argument argument
  | none =>
      cases named : document.platform with
      | none => exact .host argument named
      | some name =>
          obtain ⟨platform, isNamed⟩ := Platform.exists_ofName?_iff.mpr (isKnown name named)
          rw [Option.none_or, Option.bind_some, isNamed]
          exact .document argument named (Platform.ofName?_eq_some_iff.mp isNamed)

end Arguments

/-! ## What is reported and what runs -/

namespace Keymap

variable {α : Type}

theorem shortcuts_eq_map (keymap : Keymap) : keymap.shortcuts = keymap.entries.map
    fun entry => (Shortcut.ofText keymap.settings.platform entry.1, entry.2) := by
  rw [shortcuts, FlatLayout.readEntries_fst, List.map_map]
  rfl

theorem entries_layout {keymap : Keymap} (distinct : (keymap.entries.map Prod.fst).Nodup)
    (callback : String → α) : (keymap.layout callback).entries =
      keymap.entries.map fun entry => (entry.1, callback entry.2) := by
  have stillDistinct : ((keymap.entries.map fun entry => (entry.1, callback entry.2)).map
      Prod.fst).Nodup := by
    rwa [List.map_map]
  rw [layout, ← FlatLayout.entries_bindAll stillDistinct, List.foldl_map]

end Keymap

/-- A chord of a text that has words asks for something. -/
theorem Shortcut.asks_of_words {platform : Platform} {text : String}
    (hasWord : Text.words text.toList ≠ []) {chord : Chord}
    (isChord : chord ∈ (ofText platform text).chords) :
    ¬ (chord.required.isEmpty = true ∧ chord.key = "") := by
  rintro ⟨noModifier, noKey⟩
  rw [chords_ofText hasWord] at isChord
  obtain ⟨word, isWord, rfl⟩ := List.mem_map.mp isChord
  have notEmpty : (Chord.ofWord platform word).text.toList ≠ [] :=
    Chord.text_ne_nil (Text.mem_words isWord).1
  rw [Chord.text, joinKey, if_pos noModifier, noKey] at notEmpty
  exact notEmpty rfl

/-- How the keymap of a document runs: the responder of its layout has the shortcuts that are
reported, in their order and with the callbacks of their actions, and these are the entries of
the document in which something is said, read for the platform that is meant. -/
structure Arguments.RunsAsReported {α : Type} (arguments : Arguments) (document : KeymapDocument)
    (callback : String → α) (keymap : Keymap) : Prop where
  report : keymap.report = "Configuration is valid" :: Keymap.settingsLine keymap.settings ::
    keymap.shortcuts.map Keymap.reportLine
  /-- After its first two lines the report has a line for each shortcut, in their order. -/
  lines : List.Forall₂ Keymap.Shows (keymap.report.drop 2) keymap.shortcuts
  matcher : (Responder.ofFlat (keymap.layout callback) keymap.settings).matcher =
    .list { shortcuts := keymap.shortcuts.map Prod.fst, tracked := .all }
  callbacks : (Responder.ofFlat (keymap.layout callback) keymap.settings).callbacks.map
    LabelledCallback.callback = keymap.shortcuts.map fun entry => callback entry.2
  read : ∃ platform, arguments.Means document platform ∧ keymap.settings.platform = platform ∧
    keymap.shortcuts = (document.entries.filter fun entry =>
        Text.words entry.1.toList ≠ [] ∧ Text.words entry.2.toList ≠ []).map
      fun entry => (Shortcut.ofText platform entry.1, entry.2)
  asks : ∀ entry ∈ keymap.shortcuts, ∀ chord ∈ entry.1.chords,
    ¬ (chord.required.isEmpty = true ∧ chord.key = "")
  timeout : (Responder.ofFlat (keymap.layout callback) keymap.settings).timeout =
    keymap.settings.timeout
  inRange : 50 ≤ keymap.settings.timeout ∧ keymap.settings.timeout ≤ 60000

/-- **The report on a keymap shows what runs.**  The command has a keymap to run with exactly
when the timeouts of the document and of the arguments are in range and the platform of the
document is known by its name.  The shortcuts that are then reported, each in a line that
shows its text, whether it has several chords, and its action, are those that a responder
listens for, in the same order, with the callbacks made from the reported actions. -/
theorem report_shows_what_runs {α : Type} (arguments : Arguments) (document : KeymapDocument)
    (callback : String → α) (distinct : (document.entries.map Prod.fst).Nodup) :
    (∀ text, KeymapDocument.ofText? text = some document →
      (arguments.start (some (.ok text))).1 = arguments.launch document) ∧
    ((∃ keymap, arguments.launch document = .ok keymap) ↔
      (∀ timeout ∈ document.timeout, 50 ≤ timeout ∧ timeout ≤ 60000) ∧
      (∀ timeout ∈ arguments.timeout, 50 ≤ timeout ∧ timeout ≤ 60000) ∧
      ∀ name ∈ document.platform, name.toLower = "apple" ∨ name.toLower = "other") ∧
    ∀ keymap, arguments.launch document = .ok keymap →
      arguments.RunsAsReported document callback keymap := by
  refine ⟨fun text isDocument => arguments.start_eq_launch isDocument, ?_, ?_⟩
  · simp only [Arguments.launch_eq_ok_iff]
    constructor
    · rintro ⟨keymap, documentInRange, argumentInRange, isKnown, -⟩
      exact ⟨documentInRange, argumentInRange, isKnown⟩
    · rintro ⟨documentInRange, argumentInRange, isKnown⟩
      exact ⟨_, documentInRange, argumentInRange, isKnown, rfl⟩
  · intro keymap isLaunched
    obtain ⟨documentInRange, argumentInRange, isKnown, isKeymap⟩ :=
      Arguments.launch_eq_ok_iff.mp isLaunched
    have areEntries : keymap.entries = document.entries.filter saysSomething := by rw [isKeymap]
    have stillDistinct : (keymap.entries.map Prod.fst).Nodup := by
      rw [areEntries]
      exact distinct.sublist (List.filter_sublist.map _)
    have isLayout := Keymap.entries_layout stillDistinct callback
    have areRead : ∀ entry ∈ keymap.shortcuts, ∃ text action, Text.words text.toList ≠ [] ∧
        entry = (Shortcut.ofText keymap.settings.platform text, action) := by
      intro entry isEntry
      rw [Keymap.shortcuts_eq_map, areEntries] at isEntry
      obtain ⟨⟨text, action⟩, isSaid, rfl⟩ := List.mem_map.mp isEntry
      exact ⟨text, action, (saysSomething_iff.mp (List.mem_filter.mp isSaid).2).1, rfl⟩
    refine ⟨rfl, ?_, ?_, ?_, ⟨_, Arguments.means_platform isKnown, ?_, ?_⟩, ?_, rfl, ?_⟩
    · refine List.forall₂_map_left_iff.mpr (List.forall₂_same.mpr fun entry isEntry => ?_)
      obtain ⟨text, action, hasWord, rfl⟩ := areRead entry isEntry
      exact Keymap.shows_reportLine hasWord action
    · rw [Responder.matcher_ofFlat, isLayout, Keymap.shortcuts_eq_map, List.map_map, List.map_map]
      rfl
    · rw [Responder.callbacks_ofFlat, isLayout, Keymap.shortcuts_eq_map, List.map_map,
        List.map_map, List.map_map]
      rfl
    · rw [isKeymap]
      rfl
    · rw [Keymap.shortcuts_eq_map, areEntries, isKeymap]
      congr 2
      funext entry
      rw [Bool.eq_iff_iff, saysSomething_iff, decide_eq_true_eq]
    · intro entry isEntry chord isChord
      obtain ⟨text, action, hasWord, rfl⟩ := areRead entry isEntry
      exact Shortcut.asks_of_words hasWord isChord
    · rw [isKeymap]
      exact Arguments.inRange_timeout argumentInRange documentInRange

/-- The arguments take the place of a document that names the other platform, and a blank
entry is left out. -/
theorem report_shows_what_runs_on_apple :
    (([("$mod+s", "save"), (" ", "nothing")] : List (String × String)).map Prod.fst).Nodup ∧
    ∃ keymap,
      Arguments.launch { timeout := some 300, platform := some .apple }
        { platform := some "Other", entries := [("$mod+s", "save"), (" ", "nothing")] } =
          .ok keymap ∧
      keymap.shortcuts = [(Shortcut.ofText .apple "$mod+s", "save")] ∧
      (Responder.ofFlat (keymap.layout String.length) keymap.settings).callbacks.map
        LabelledCallback.callback = [4] := by
  have distinct :
      (([("$mod+s", "save"), (" ", "nothing")] : List (String × String)).map Prod.fst).Nodup := by
    decide
  obtain ⟨-, isAccepted, runs⟩ :=
    report_shows_what_runs { timeout := some 300, platform := some .apple }
      { platform := some "Other", entries := [("$mod+s", "save"), (" ", "nothing")] }
      String.length distinct
  obtain ⟨keymap, isLaunched⟩ := isAccepted.mpr
    ⟨by simp, by simp, by rintro name ⟨⟩; decide +kernel⟩
  have isKeymap := (Arguments.launch_eq_ok_iff.mp isLaunched).2.2.2
  have runsAsReported := runs keymap isLaunched
  have shortcuts : keymap.shortcuts = [(Shortcut.ofText .apple "$mod+s", "save")] := by
    rw [isKeymap]
    decide +kernel
  refine ⟨distinct, keymap, isLaunched, shortcuts, ?_⟩
  rw [runsAsReported.callbacks, shortcuts]
  decide +kernel

end Keystrokes
