import Keystrokes.Proofs.Shortcut.RoundTrip
import Mathlib.Data.List.Chain

/-!
# How a text is cut into tokens

The tokens of a text can be told without a scanner.  They make up the text again when they
are joined by `+`, every one but the last ends in a word character, and in none of them does
a `+` come right after a word character (`CutsInto`).  Every text is cut in one way and no
other (`cutsInto_iff`), and the chord that it writes is read off the cut: the last token is
the key, and the others are the modifiers (`reads_unique_cut`).

A scanner remembers one character, so what it does is told by neighbours: a text is one token
when no two neighbours in it are a word character and a `+` (`isToken_iff_isChain`).
-/

set_option autoImplicit false

namespace Keystrokes

/-! ## Word characters -/

/-- One of the characters `0` to `9`, `A` to `Z`, `a` to `z` and `_`. -/
def IsAsciiWord (character : Char) : Prop :=
  ('0' ≤ character ∧ character ≤ '9') ∨ ('A' ≤ character ∧ character ≤ 'Z') ∨
    ('a' ≤ character ∧ character ≤ 'z') ∨ character = '_'

theorem isWordCharacter_iff {character : Char} :
    isWordCharacter character = true ↔ IsAsciiWord character := by
  have told : isWordCharacter character =
      (((decide ('A' ≤ character ∧ character ≤ 'Z') ||
        (decide ('a' ≤ character) && decide (character ≤ 'z'))) ||
        (decide ('0' ≤ character) && decide (character ≤ '9'))) || character == '_') := rfl
  simp only [told, IsAsciiWord, Bool.or_eq_true, Bool.and_eq_true, decide_eq_true_eq, beq_iff_eq]
  constructor
  · rintro (((isUpper | isLower) | isDigit) | isLine)
    · exact .inr (.inl isUpper)
    · exact .inr (.inr (.inl isLower))
    · exact .inl isDigit
    · exact .inr (.inr (.inr isLine))
  · rintro (isDigit | isUpper | isLower | isLine)
    · exact .inl (.inr isDigit)
    · exact .inl (.inl (.inl isUpper))
    · exact .inl (.inl (.inr isLower))
    · exact .inr isLine

/-! ## One token -/

/-- Two neighbours between which a text is cut when a `+` separates. -/
def Separates (first second : Char) : Prop :=
  isWordCharacter first = true ∧ second = '+'

theorem endsInWord_concat (afterWord : Bool) (start : List Char) (last : Char) :
    endsInWord afterWord (start ++ [last]) = isWordCharacter last := by
  induction start generalizing afterWord with
  | nil => rfl
  | cons first rest hypothesis => exact hypothesis (isWordCharacter first)

/-- A token that is not the last one ends in a word character. -/
theorem endsInWord_iff {token : List Char} :
    endsInWord false token = true ↔ ∃ start last, token = start ++ [last] ∧ IsAsciiWord last := by
  rcases List.eq_nil_or_concat' token with rfl | ⟨start, last, rfl⟩
  · simp [endsInWord]
  · rw [endsInWord_concat, isWordCharacter_iff]
    constructor
    · intro isWord
      exact ⟨start, last, rfl, isWord⟩
    · rintro ⟨other, final, same, isWord⟩
      obtain ⟨-, sameLast⟩ := List.append_inj' same rfl
      exact List.singleton_inj.mp sameLast ▸ isWord

theorem isToken_cons {afterWord : Bool} {character : Char} {rest : List Char} :
    IsToken afterWord (character :: rest) ↔
      ¬ (afterWord = true ∧ character = '+') ∧ IsToken (isWordCharacter character) rest := by
  rw [IsToken, tokensFrom]
  split
  · next separates =>
      have isCut : afterWord = true ∧ character = '+' := by simpa using separates
      simp [isCut]
  · next notSeparator =>
      rw [IsToken, and_iff_right (by simpa using notSeparator)]
      -- One more character in front of the first token is one more in the text.
      cases isSplit : tokensFrom (isWordCharacter character) rest with
      | nil => exact absurd isSplit (tokensFrom_ne_nil _ rest)
      | cons first later => simp

/-- A text is one token when a `+` separates nowhere in it. -/
theorem isToken_iff_isChain {afterWord : Bool} {token : List Char} :
    IsToken afterWord token ↔
      (afterWord = true → token.head? ≠ some '+') ∧
        token.IsChain fun first second => ¬ Separates first second := by
  induction token generalizing afterWord with
  | nil => simp [isToken_nil]
  | cons character rest hypothesis =>
      rw [isToken_cons, hypothesis, List.isChain_cons]
      have sameHead : (isWordCharacter character = true → rest.head? ≠ some '+') ↔
          ∀ next ∈ rest.head?, ¬ Separates character next := by
        cases rest <;> simp [Separates]
      rw [sameHead, List.head?_cons, ne_eq, Option.some.injEq, not_and]

/-- A text is one token when no word character in it is followed by a `+`. -/
theorem isToken_iff {token : List Char} :
    IsToken false token ↔
      ∀ start last rest, token = start ++ last :: '+' :: rest → ¬ IsAsciiWord last := by
  rw [isToken_iff_isChain, and_iff_right (by simp),
    List.isChain_iff_forall_rel_of_append_cons_cons]
  constructor
  · intro inseparable start last rest isSplit isWord
    exact inseparable isSplit ⟨isWordCharacter_iff.mpr isWord, rfl⟩
  · rintro noPlus last plus start rest isSplit ⟨isWord, rfl⟩
    exact noPlus start last rest isSplit (isWordCharacter_iff.mp isWord)

/-! ## All tokens of a text -/

/-- Texts into which a text is cut: there is at least one, they make up the text again when
they are joined by `+`, all but the last end in a word character, and in none of them does
a `+` come right after one. -/
structure CutsInto (text : String) (tokens : List String) : Prop where
  notEmpty : tokens ≠ []
  joined : "+".intercalate tokens = text
  ends : ∀ token ∈ tokens.dropLast,
    ∃ start last, token.toList = start ++ [last] ∧ IsAsciiWord last
  inseparable : ∀ token ∈ tokens, ∀ start last rest,
    token.toList = start ++ last :: '+' :: rest → ¬ IsAsciiWord last

/-- Texts that stay apart when they are joined are those which a text may be cut into. -/
theorem joinable_iff_cutsInto {modifiers : List String} {key : String} :
    Joinable false ((modifiers ++ [key]).map String.toList) ↔
      CutsInto ("+".intercalate (modifiers ++ [key])) (modifiers ++ [key]) := by
  rw [List.map_append, List.map_singleton, joinable_concat_iff, List.forall_mem_map]
  simp only [isToken_iff, endsInWord_iff]
  constructor
  · rintro ⟨modifiersJoin, keyIsToken⟩
    refine ⟨by simp, rfl, fun token isToken => ?_, fun token isToken => ?_⟩
    · rw [List.dropLast_concat] at isToken
      exact (modifiersJoin token isToken).2
    · rcases List.mem_append.mp isToken with isModifier | isKey
      · exact (modifiersJoin token isModifier).1
      · exact List.mem_singleton.mp isKey ▸ keyIsToken
  · intro cuts
    refine ⟨fun token isModifier => ⟨?_, ?_⟩, ?_⟩
    · exact cuts.inseparable token (List.mem_append_left _ isModifier)
    · exact cuts.ends token (List.dropLast_concat ▸ isModifier)
    · exact cuts.inseparable key (by simp)

/-- **A text is cut into its tokens, and into nothing else.** -/
theorem cutsInto_iff {text : String} {parts : List String} :
    CutsInto text parts ↔ parts.map String.toList = tokens text.toList := by
  constructor
  · intro cuts
    obtain ⟨modifiers, key, rfl⟩ := (List.eq_nil_or_concat' parts).resolve_left cuts.notEmpty
    obtain rfl := cuts.joined
    rw [String.toList_intercalate]
    exact (tokensFrom_intercalate (joinable_iff_cutsInto.mpr cuts)).symm
  · intro areTokens
    obtain ⟨modifiers, key, isSplit⟩ := Chord.exists_tokens text.toList
    have notEmpty : parts ≠ [] := by
      rintro rfl
      exact absurd (areTokens.trans isSplit) (by simp)
    obtain ⟨names, last, rfl⟩ := (List.eq_nil_or_concat' parts).resolve_left notEmpty
    have rejoined : "+".intercalate (names ++ [last]) = text := by
      rw [← String.toList_inj, String.toList_intercalate, areTokens]
      exact intercalate_tokensFrom false text.toList
    rw [← rejoined]
    exact joinable_iff_cutsInto.mp (areTokens ▸ joinable_tokensFrom false text.toList)

/-! ## The chord of a text -/

/-- What modifiers ask for, where `$mod` means the platform's own one. -/
theorem mem_map_resolve_iff {platform : Platform} {modifiers : List String} {name : String} :
    name ∈ modifiers.map platform.resolve ↔
      (name ∈ modifiers ∧ name ≠ "$mod") ∨
        "$mod" ∈ modifiers ∧ platform.ownModifier.name = name := by
  rw [List.mem_map]
  constructor
  · rintro ⟨token, isToken, rfl⟩
    rw [Platform.resolve, ownModifierAlias]
    by_cases isAlias : token = "$mod"
    · subst isAlias
      exact .inr ⟨isToken, by simp⟩
    · rw [beq_false_of_ne isAlias]
      exact .inl ⟨isToken, isAlias⟩
  · rintro (⟨isToken, notAlias⟩ | ⟨isAlias, rfl⟩)
    · exact ⟨name, isToken, by simp [Platform.resolve, ownModifierAlias, notAlias]⟩
    · exact ⟨"$mod", isAlias, by simp [Platform.resolve, ownModifierAlias]⟩

theorem Modifier.name_inj {first second : Modifier} :
    first.name = second.name ↔ first = second := by
  constructor
  · intro same
    exact Option.some.inj (by rw [← ofName?_name first, same, ofName?_name])
  · rintro rfl
    rfl

theorem Modifier.ofName?_eq_none_iff {text : String} :
    ofName? text = none ↔ ∀ modifier : Modifier, modifier.name ≠ text := by
  rw [Option.eq_none_iff_forall_ne_some]
  exact forall_congr' fun modifier => not_congr ofName?_eq_some_iff

theorem Modifier.name_ne_alias (modifier : Modifier) : modifier.name ≠ "$mod" := by
  cases modifier <;> decide

/-- **A text is cut into tokens in one way, and they are the names and the key of its
chord.**  The last token is the key as it stands.  The others are the modifiers, where `$mod`
means the platform's own one: those with the name of a modifier are known, and all the
others are unknown. -/
theorem reads_unique_cut (platform : Platform) (text : String) :
    ∃ modifiers key, CutsInto text (modifiers ++ [key]) ∧
      (∀ parts, CutsInto text parts → parts = modifiers ++ [key]) ∧
      (Chord.ofText platform text).key = key ∧
      (∀ modifier, (Chord.ofText platform text).required.known.contains modifier = true ↔
        modifier.name ∈ modifiers ∨ "$mod" ∈ modifiers ∧ platform.ownModifier = modifier) ∧
      ∀ name, name ∈ (Chord.ofText platform text).required.unknown.toList ↔
        name ∈ modifiers ∧ name ≠ "$mod" ∧ ∀ modifier : Modifier, modifier.name ≠ name := by
  obtain ⟨tokens, last, isSplit⟩ := Chord.exists_tokens text.toList
  let modifiers := tokens.map String.ofList
  have isCut : ∀ parts, CutsInto text parts ↔ parts = modifiers ++ [String.ofList last] := by
    intro parts
    have sameTokens : (modifiers ++ [String.ofList last]).map String.toList = tokens ++ [last] := by
      simp [modifiers, Function.comp_def]
    rw [cutsInto_iff, isSplit, ← sameTokens]
    exact (List.map_injective_iff.mpr fun _ _ => String.toList_injective).eq_iff
  have isChord : Chord.ofText platform text =
      { required := .ofNames (modifiers.map platform.resolve), key := String.ofList last } := by
    rw [Chord.ofText, Chord.ofWord_of_tokens isSplit, List.map_map]
    rfl
  refine ⟨modifiers, String.ofList last, (isCut _).mpr rfl, fun parts => (isCut parts).mp, ?_⟩
  rw [isChord]
  refine ⟨rfl, fun modifier => ?_, fun name => ?_⟩
  · rw [RequiredModifiers.contains_ofNames, mem_map_resolve_iff, Modifier.name_inj,
      and_iff_left modifier.name_ne_alias]
  · rw [RequiredModifiers.mem_unknown_ofNames, mem_map_resolve_iff, Modifier.ofName?_eq_none_iff]
    constructor
    · rintro ⟨⟨isToken, notAlias⟩ | ⟨-, isOwn⟩, isUnknown⟩
      · exact ⟨isToken, notAlias, isUnknown⟩
      · exact absurd isOwn (isUnknown _)
    · rintro ⟨isToken, notAlias, isUnknown⟩
      exact ⟨.inl ⟨isToken, notAlias⟩, isUnknown⟩

/-- A `+` at the beginning, two in a row, and one after a letter that is not ASCII. -/
example : (tokens "+a++é+b+".toList).map String.ofList = ["+a", "+é+b", ""] := by
  decide +kernel

end Keystrokes
