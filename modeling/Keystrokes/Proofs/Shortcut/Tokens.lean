import Keystrokes.Shortcut.Written
import Mathlib.Data.List.Basic

/-!
# Words and their tokens

A word is cut into tokens at each `+` that follows a word character.  So a token that is
not the last one ends in a word character, and in no token does a `+` follow one.  Texts
of this kind (`Joinable`) are the tokens of the word that they make when they are joined
by `+` (`tokensFrom_intercalate`), and the tokens of a word are such texts
(`joinable_tokensFrom`) and make it up again (`intercalate_tokensFrom`).

The character before a text decides whether a `+` at its beginning separates.  The
inductions are on the text, for either answer.
-/

set_option autoImplicit false

namespace Keystrokes

/-! ## Texts that may be joined -/

/-- Whether a text ends in a word character, where `afterWord` tells whether the character
before it is one. -/
def endsInWord (afterWord : Bool) : List Char → Bool
  | [] => afterWord
  | character :: rest => endsInWord (isWordCharacter character) rest

/-- A text in which no `+` separates. -/
def IsToken (afterWord : Bool) (token : List Char) : Prop :=
  tokensFrom afterWord token = [token]

/-- Texts that stay apart when they are joined by `+`. -/
def Joinable (afterWord : Bool) : List (List Char) → Prop
  | [] => False
  | [last] => IsToken afterWord last
  | token :: next :: later =>
      IsToken afterWord token ∧ endsInWord afterWord token = true ∧ Joinable false (next :: later)

theorem isToken_nil (afterWord : Bool) : IsToken afterWord [] :=
  rfl

theorem tokensFrom_ne_nil (afterWord : Bool) (text : List Char) : tokensFrom afterWord text ≠ [] := by
  induction text generalizing afterWord with
  | nil => simp [tokensFrom]
  | cons character rest hypothesis =>
      rw [tokensFrom]
      split
      · simp
      · simpa using hypothesis (isWordCharacter character)

/-- One more character in front of a text that may be joined. -/
theorem Joinable.modifyHead {afterWord : Bool} {character : Char} {parts : List (List Char)}
    (notSeparator : ¬ (afterWord && character == '+') = true)
    (joinable : Joinable (isWordCharacter character) parts) :
    Joinable afterWord (parts.modifyHead (character :: ·)) := by
  have isToken : ∀ token, IsToken (isWordCharacter character) token →
      IsToken afterWord (character :: token) := by
    intro token isToken
    rw [IsToken, tokensFrom, if_neg notSeparator, isToken]
    rfl
  cases parts with
  | nil => exact joinable
  | cons token later =>
      cases later with
      | nil => exact isToken token joinable
      | cons next later => exact ⟨isToken token joinable.1, joinable.2⟩

/-- **The tokens of a word may be joined.** -/
theorem joinable_tokensFrom (afterWord : Bool) (text : List Char) :
    Joinable afterWord (tokensFrom afterWord text) := by
  induction text generalizing afterWord with
  | nil => exact isToken_nil afterWord
  | cons character rest hypothesis =>
      rw [tokensFrom]
      split
      · next separates =>
          have isAfterWord : afterWord = true := (Bool.and_eq_true_iff.mp separates).1
          obtain ⟨token, later, isSplit⟩ := List.exists_cons_of_ne_nil (tokensFrom_ne_nil false rest)
          have laterJoinable := hypothesis false
          rw [isSplit] at laterJoinable ⊢
          exact ⟨isToken_nil afterWord, isAfterWord, laterJoinable⟩
      · next notSeparator => exact (hypothesis _).modifyHead notSeparator

/-- **A text that ends in a word character is cut before a `+`.** -/
theorem tokensFrom_append_plus {afterWord : Bool} {text : List Char}
    (endsInWord : endsInWord afterWord text = true) (rest : List Char) :
    tokensFrom afterWord (text ++ '+' :: rest) = tokensFrom afterWord text ++ tokensFrom false rest := by
  induction text generalizing afterWord with
  | nil =>
      obtain rfl : afterWord = true := endsInWord
      rfl
  | cons character later hypothesis =>
      rw [List.cons_append, tokensFrom, tokensFrom]
      split
      · next separates =>
          -- The last character is not this `+`, so the text goes on.
          obtain ⟨-, isPlus⟩ := Bool.and_eq_true_iff.mp separates
          obtain rfl : character = '+' := by simpa using isPlus
          have laterCut : tokensFrom false (later ++ '+' :: rest) = _ := hypothesis endsInWord
          rw [laterCut, List.cons_append]
      · obtain ⟨token, more, isSplit⟩ :=
          List.exists_cons_of_ne_nil (tokensFrom_ne_nil (isWordCharacter character) later)
        rw [hypothesis endsInWord, isSplit]
        rfl

/-- **Texts that may be joined are the tokens of the word that they make.** -/
theorem tokensFrom_intercalate {afterWord : Bool} {parts : List (List Char)}
    (joinable : Joinable afterWord parts) :
    tokensFrom afterWord (['+'].intercalate parts) = parts := by
  induction parts generalizing afterWord with
  | nil => exact joinable.elim
  | cons token later hypothesis =>
      cases later with
      | nil => rwa [List.intercalate_singleton]
      | cons next later =>
          obtain ⟨isToken, ends, joinableLater⟩ := joinable
          rw [List.intercalate_cons_cons, List.append_assoc, List.singleton_append,
            tokensFrom_append_plus ends, isToken, hypothesis joinableLater, List.singleton_append]

/-- **The tokens of a word make it up again.** -/
theorem intercalate_tokensFrom (afterWord : Bool) (text : List Char) :
    ['+'].intercalate (tokensFrom afterWord text) = text := by
  induction text generalizing afterWord with
  | nil => rfl
  | cons character rest hypothesis =>
      rw [tokensFrom]
      split
      · next separates =>
          obtain ⟨-, isPlus⟩ := Bool.and_eq_true_iff.mp separates
          obtain rfl : character = '+' := by simpa using isPlus
          rw [List.intercalate_cons_of_ne_nil (tokensFrom_ne_nil false rest), hypothesis]
          rfl
      · have rejoined := hypothesis (isWordCharacter character)
        obtain ⟨token, later, isSplit⟩ :=
          List.exists_cons_of_ne_nil (tokensFrom_ne_nil (isWordCharacter character) rest)
        rw [isSplit] at rejoined ⊢
        rw [List.modifyHead_cons, ← rejoined]
        cases later with
        | nil => simp [List.intercalate_singleton]
        | cons next later => simp [List.intercalate_cons_cons]

/-! ## Tokens of a whole word -/

/-- Modifier tokens with a key may be joined when each of them ends in a word character,
and a `+` separates in none of them. -/
theorem joinable_concat_iff {modifiers : List (List Char)} {key : List Char} :
    Joinable false (modifiers ++ [key]) ↔
      (∀ token ∈ modifiers, IsToken false token ∧ endsInWord false token = true) ∧
        IsToken false key := by
  induction modifiers with
  | nil => simp [Joinable]
  | cons token later hypothesis =>
      obtain ⟨next, rest, isSplit⟩ : ∃ next rest, later ++ [key] = next :: rest :=
        List.exists_cons_of_ne_nil (by simp)
      have unfolded : Joinable false (token :: (later ++ [key])) ↔
          IsToken false token ∧ endsInWord false token = true ∧ Joinable false (later ++ [key]) := by
        rw [isSplit]
        exact Iff.rfl
      rw [List.cons_append, unfolded, hypothesis, List.forall_mem_cons]
      simp only [and_assoc]

/-- The characters of a text are among those of what it is joined to. -/
theorem subset_intercalate {part : List Char} {parts : List (List Char)} (isPart : part ∈ parts) :
    part ⊆ ['+'].intercalate parts := by
  induction parts with
  | nil => exact absurd isPart List.not_mem_nil
  | cons first later hypothesis =>
      cases later with
      | nil =>
          obtain rfl := List.mem_singleton.mp isPart
          rw [List.intercalate_singleton]
          exact List.Subset.refl part
      | cons next later =>
          rw [List.intercalate_cons_cons, List.append_assoc]
          rcases List.mem_cons.mp isPart with rfl | isLater
          · exact List.subset_append_left ..
          · exact List.subset_append_of_subset_right _
              (List.subset_append_of_subset_right _ (hypothesis isLater))

/-- A character of texts that are joined stands in one of them, or is a `+`. -/
theorem mem_of_mem_intercalate {parts : List (List Char)} {character : Char}
    (isMember : character ∈ ['+'].intercalate parts) :
    character = '+' ∨ ∃ part ∈ parts, character ∈ part := by
  induction parts with
  | nil => exact absurd isMember List.not_mem_nil
  | cons part later hypothesis =>
      cases later with
      | nil =>
          rw [List.intercalate_singleton] at isMember
          exact .inr ⟨part, List.mem_singleton_self part, isMember⟩
      | cons next later =>
          rw [List.intercalate_cons_cons, List.append_assoc, List.mem_append, List.mem_append] at isMember
          rcases isMember with inPart | isPlus | isLater
          · exact .inr ⟨part, List.mem_cons_self, inPart⟩
          · exact .inl (List.mem_singleton.mp isPlus)
          · rcases hypothesis isLater with isPlus | ⟨other, isOther, inOther⟩
            · exact .inl isPlus
            · exact .inr ⟨other, List.mem_cons_of_mem _ isOther, inOther⟩

/-- The characters of a token are among those of its word. -/
theorem subset_of_mem_tokens {word token : List Char} (isToken : token ∈ tokens word) :
    token ⊆ word := by
  have rejoined := intercalate_tokensFrom false word
  exact rejoined ▸ subset_intercalate isToken

end Keystrokes
