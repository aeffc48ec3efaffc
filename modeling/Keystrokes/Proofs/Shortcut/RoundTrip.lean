import Keystrokes.Proofs.Shortcut.Required
import Keystrokes.Proofs.Shortcut.Tokens
import Keystrokes.Proofs.Text.Words

/-!
# Reading what has been written

The text of a shortcut that has been read is another spelling of it: the modifiers come
in their usual order and the unknown names in ascending order, none of them twice, and
`$mod` is spelled out.  Reading this text gives the same shortcut again, on whatever
platform (`text_determines_shortcut`).

Two things could go wrong.  A `+` could begin or cease to separate when the names are put
in another order.  It does not, since every name that stands before a `+` ends in a word
character (`Chord.IsWritten`).  And a chord could turn into no word or into two.  It does
not, since its text has no blank and is not empty, unless the whole text was blank.
-/

set_option autoImplicit false

namespace Keystrokes

/-! ## Tokens of a chord -/

namespace Chord

/-- The text of a chord joins its names and its key. -/
theorem text_eq_intercalate (chord : Chord) :
    chord.text = "+".intercalate (chord.required.names ++ [chord.key]) := by
  rw [text, joinKey]
  split
  · next isBare =>
      rw [RequiredModifiers.isEmpty_iff.mp isBare, List.nil_append, String.intercalate_singleton]
  · next notBare =>
      have someName : chord.required.names ≠ [] :=
        fun noName => notBare (RequiredModifiers.isEmpty_iff.mpr noName)
      rw [String.intercalate_append_of_ne_nil someName (by simp), String.intercalate_singleton,
        RequiredModifiers.text]

theorem toList_text (chord : Chord) :
    chord.text.toList =
      ['+'].intercalate (chord.required.names.map String.toList ++ [chord.key.toList]) := by
  rw [text_eq_intercalate, String.toList_intercalate, List.map_append]
  rfl

/-- The names and the key of a chord are read off the tokens of its word. -/
theorem ofWord_of_tokens {platform : Platform} {word : List Char} {modifiers : List (List Char)}
    {key : List Char} (isSplit : tokens word = modifiers ++ [key]) :
    ofWord platform word =
      { required := .ofNames (modifiers.map fun token => platform.resolve (String.ofList token))
        key := String.ofList key } := by
  rw [ofWord, isSplit]
  simp [Function.comp_def]

/-- A chord as a word may write it: its names do not run into one another when they are
joined, and none of them is read as another name. -/
structure IsWritten (chord : Chord) : Prop where
  named : RequiredModifiers.ofNames chord.required.names = chord.required
  joinable : Joinable false (chord.required.names.map String.toList ++ [chord.key.toList])
  literal : ∀ name ∈ chord.required.names, name ≠ ownModifierAlias

/-- **A chord that may be written is read from its text**, on whatever platform. -/
theorem IsWritten.ofText_text {chord : Chord} (isWritten : chord.IsWritten)
    (platform : Platform) : ofText platform chord.text = chord := by
  have isSplit : tokens chord.text.toList =
      chord.required.names.map String.toList ++ [chord.key.toList] := by
    rw [toList_text]
    exact tokensFrom_intercalate isWritten.joinable
  have sameNames : ((chord.required.names.map String.toList).map fun token =>
      platform.resolve (String.ofList token)) = chord.required.names := by
    rw [List.map_map]
    refine (List.map_congr_left fun name isName => ?_).trans (List.map_id _)
    have notAlias := isWritten.literal name isName
    simp [Platform.resolve, notAlias]
  rw [ofText, ofWord_of_tokens isSplit, sameNames, isWritten.named, String.ofList_toList]

end Chord

/-! ## What words write -/

/-- What a modifier token means is another name or the token itself, and never the
alias. -/
theorem Platform.resolve_cases (platform : Platform) (token : List Char) :
    let name := platform.resolve (String.ofList token)
    (name = platform.ownModifier.name ∨ name = String.ofList token) ∧ name ≠ ownModifierAlias := by
  intro name
  have isName : name = if String.ofList token == ownModifierAlias then platform.ownModifier.name
      else String.ofList token := rfl
  rw [isName]
  split
  · refine ⟨.inl rfl, ?_⟩
    cases platform <;> decide
  · next notAlias => exact ⟨.inr rfl, by simpa using notAlias⟩

namespace Chord

theorem exists_tokens (word : List Char) : ∃ modifiers key, tokens word = modifiers ++ [key] :=
  (List.eq_nil_or_concat' (tokens word)).resolve_left (tokensFrom_ne_nil false word)

variable {platform : Platform} {word : List Char} {modifiers : List (List Char)} {key : List Char}

/-- A name that is asked for is what a modifier token means. -/
theorem mem_names_ofWord (isSplit : tokens word = modifiers ++ [key]) {name : String} :
    name ∈ (ofWord platform word).required.names ↔
      ∃ token ∈ modifiers, platform.resolve (String.ofList token) = name := by
  rw [ofWord_of_tokens isSplit, RequiredModifiers.mem_names_ofNames, List.mem_map]

theorem toList_key_ofWord (isSplit : tokens word = modifiers ++ [key]) :
    (ofWord platform word).key.toList = key := by
  rw [ofWord_of_tokens isSplit, String.toList_ofList]

variable (platform word) in
/-- **Every word writes a chord that may be written.** -/
theorem isWritten_ofWord : (ofWord platform word).IsWritten := by
  obtain ⟨modifiers, key, isSplit⟩ := exists_tokens word
  have joinable : Joinable false (modifiers ++ [key]) := isSplit ▸ joinable_tokensFrom false word
  obtain ⟨modifiersJoin, keyIsToken⟩ := joinable_concat_iff.mp joinable
  refine ⟨?_, joinable_concat_iff.mpr ⟨fun part isPart => ?_, ?_⟩, fun name isName => ?_⟩
  · rw [ofWord_of_tokens isSplit]
    exact RequiredModifiers.ofNames_names _
  · obtain ⟨name, isName, isPart⟩ := List.mem_map.mp isPart
    obtain ⟨token, isToken, isMeant⟩ := (mem_names_ofWord isSplit).mp isName
    rw [← isPart, ← isMeant]
    rcases (platform.resolve_cases token).1 with isOwn | isSame
    · rw [isOwn]
      cases platform <;> exact ⟨by unfold IsToken; decide, by decide⟩
    · rw [isSame, String.toList_ofList]
      exact modifiersJoin token isToken
  · rw [toList_key_ofWord isSplit]
    exact keyIsToken
  · obtain ⟨token, -, rfl⟩ := (mem_names_ofWord isSplit).mp isName
    exact (platform.resolve_cases token).2

/-! ## No blank and not empty -/

/-- No blank comes into the text of a chord. -/
theorem noBlank_text (noBlank : ∀ character ∈ word, Text.isBlank character = false) :
    ∀ character ∈ (ofWord platform word).text.toList, Text.isBlank character = false := by
  obtain ⟨modifiers, key, isSplit⟩ := exists_tokens word
  have noBlankInToken : ∀ token ∈ modifiers ++ [key], ∀ character ∈ token,
      Text.isBlank character = false := by
    intro token isToken character inToken
    exact noBlank character (subset_of_mem_tokens (isSplit ▸ isToken) inToken)
  have noBlankInName : platform.ownModifier.name.toList.any Text.isBlank = false := by
    cases platform <;> decide
  intro character isMember
  rw [toList_text, toList_key_ofWord isSplit] at isMember
  rcases mem_of_mem_intercalate isMember with rfl | ⟨part, isPart, inPart⟩
  · decide
  · rcases List.mem_append.mp isPart with isName | isLast
    · obtain ⟨name, isName, isPart⟩ := List.mem_map.mp isName
      obtain ⟨token, isToken, isMeant⟩ := (mem_names_ofWord isSplit).mp isName
      rw [← isPart, ← isMeant] at inPart
      rcases (platform.resolve_cases token).1 with isOwn | isSame
      · rw [isOwn] at inPart
        exact Bool.eq_false_iff.mpr (List.any_eq_false.mp noBlankInName character inPart)
      · rw [isSame, String.toList_ofList] at inPart
        exact noBlankInToken token (List.mem_append_left _ isToken) character inPart
    · obtain rfl := List.mem_singleton.mp isLast
      exact noBlankInToken part (by simp) character inPart

/-- The text of a chord is empty only if its word is. -/
theorem text_ne_nil (notEmpty : word ≠ []) : (ofWord platform word).text.toList ≠ [] := by
  obtain ⟨modifiers, key, isSplit⟩ := exists_tokens word
  intro isEmpty
  have textTokens : tokensFrom false (ofWord platform word).text.toList = _ :=
    toList_text (ofWord platform word) ▸
      tokensFrom_intercalate (isWritten_ofWord platform word).joinable
  rw [isEmpty, toList_key_ofWord isSplit] at textTokens
  -- The empty text has one token, so no name is asked for, and the key is empty.
  have isAlone : tokensFrom false [] = [] ++ [[]] := rfl
  obtain ⟨noName, emptyKey⟩ := List.append_inj' (textTokens.symm.trans isAlone) rfl
  have noModifier : modifiers = [] := by
    rw [List.eq_nil_iff_forall_not_mem]
    intro token isToken
    have isName : platform.resolve (String.ofList token) ∈ (ofWord platform word).required.names :=
      (mem_names_ofWord isSplit).mpr ⟨token, isToken, rfl⟩
    rw [List.map_eq_nil_iff.mp noName] at isName
    exact absurd isName List.not_mem_nil
  obtain rfl : key = [] := List.singleton_inj.mp emptyKey
  have rejoined : ['+'].intercalate (tokens word) = word := intercalate_tokensFrom false word
  rw [isSplit, noModifier] at rejoined
  exact notEmpty rejoined.symm

end Chord

/-! ## Shortcuts -/

namespace Shortcut

/-- The chords of a text are those of its words, unless it has none. -/
theorem chords_ofText {platform : Platform} {text : String}
    (notBlank : Text.words text.toList ≠ []) :
    (ofText platform text).chords =
      (Text.words text.toList).map (Chord.ofWord platform) := by
  rw [ofText]
  cases isSplit : (Text.words text.toList).map (Chord.ofWord platform) with
  | nil => exact absurd (List.map_eq_nil_iff.mp isSplit) notBlank
  | cons first later => rfl

/-- A text without words is one chord without modifiers, whose key is empty. -/
theorem ofText_blank {platform : Platform} {text : String} (isBlank : Text.words text.toList = []) :
    ofText platform text = ⟨{ required := {}, key := "" }, []⟩ := by
  rw [ofText, isBlank]
  rfl

theorem eq_of_chords {first second : Shortcut} (same : first.chords = second.chords) :
    first = second := by
  cases first
  cases second
  obtain ⟨rfl, rfl⟩ := List.cons.inj same
  rfl

/-- The words of the text of a shortcut are the texts of its chords. -/
theorem words_text (platform : Platform) {text : String}
    (notBlank : Text.words text.toList ≠ []) :
    Text.words (ofText platform text).text.toList =
      (ofText platform text).chords.map fun chord => chord.text.toList := by
  rw [Shortcut.text, String.toList_intercalate, List.map_map]
  refine Text.words_intercalate (by decide) fun part isPart => ?_
  obtain ⟨chord, isChord, rfl⟩ := List.mem_map.mp isPart
  rw [chords_ofText notBlank] at isChord
  obtain ⟨word, isWord, rfl⟩ := List.mem_map.mp isChord
  obtain ⟨notEmpty, noBlank⟩ := Text.mem_words isWord
  exact ⟨Chord.text_ne_nil notEmpty, Chord.noBlank_text noBlank⟩

/-- **A shortcut that has been read is read from its own text**, on whatever platform. -/
theorem ofText_text (platform elsewhere : Platform) (text : String) :
    ofText elsewhere (ofText platform text).text = ofText platform text := by
  by_cases isBlank : Text.words text.toList = []
  · rw [ofText_blank isBlank]
    exact ofText_blank rfl
  · have sameWords := words_text platform isBlank
    have stillWords : Text.words (ofText platform text).text.toList ≠ [] := by
      rw [sameWords]
      simp
    apply eq_of_chords
    rw [chords_ofText stillWords, sameWords, List.map_map]
    refine (List.map_congr_left fun chord isChord => ?_).trans (List.map_id _)
    rw [chords_ofText isBlank] at isChord
    obtain ⟨word, -, rfl⟩ := List.mem_map.mp isChord
    exact (Chord.isWritten_ofWord platform word).ofText_text elsewhere

end Shortcut

/-- **A shortcut is determined by its text.**  Whatever text a shortcut has been read
from, and on whatever platform, it is read from its own text on every platform.  So two
shortcuts that have been read have the same text only if they are the same, and the text
of a shortcut is told again unchanged when it is read. -/
theorem text_determines_shortcut :
    (∀ (text : String) (platform elsewhere : Platform),
      Shortcut.ofText elsewhere (Shortcut.ofText platform text).text =
        Shortcut.ofText platform text) ∧
    (∀ (first second : String) (platform elsewhere : Platform),
      (Shortcut.ofText platform first).text = (Shortcut.ofText elsewhere second).text ↔
        Shortcut.ofText platform first = Shortcut.ofText elsewhere second) ∧
    ∀ (text : String) (platform elsewhere : Platform),
      (Shortcut.ofText elsewhere (Shortcut.ofText platform text).text).text =
        (Shortcut.ofText platform text).text := by
  refine ⟨fun text platform elsewhere => Shortcut.ofText_text platform elsewhere text, ?_, ?_⟩
  · intro first second platform elsewhere
    constructor
    · intro sameText
      calc Shortcut.ofText platform first
          = Shortcut.ofText platform (Shortcut.ofText platform first).text :=
            (Shortcut.ofText_text platform platform first).symm
        _ = Shortcut.ofText platform (Shortcut.ofText elsewhere second).text := by rw [sameText]
        _ = Shortcut.ofText elsewhere second := Shortcut.ofText_text elsewhere platform second
    · intro same
      rw [same]
  · intro text platform elsewhere
    rw [Shortcut.ofText_text]

/-- Names in any order, some of them twice and one beginning with `+`, before the plus
key. -/
example : (Shortcut.ofText .apple "Hyper+$mod++x+Alt+Hyper++  $mod").text =
    "Meta+Alt++x+Hyper++ $mod" := by
  decide +kernel

end Keystrokes
