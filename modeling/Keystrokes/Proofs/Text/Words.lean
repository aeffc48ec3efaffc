import Keystrokes.Text.Blank
import Mathlib.Data.List.Basic

/-!
# Words and the blanks between them

A text is cut at its blanks, so whatever stands before a blank and whatever stands after
it are cut on their own (`words_append_blank`).  The words of a text are not empty and
have no blank in them (`mem_words`), and words joined by a blank are the words again
(`words_intercalate`).  A text has no word only if it is blank (`words_eq_nil_iff`), and
texts may be joined by any blanks (`JoinedByBlanks.words_eq`).
-/

set_option autoImplicit false

namespace Keystrokes.Text

/-- The stretches are the pieces of the text between its blanks. -/
theorem stretches_eq_splitOnP (text : List Char) : stretches text = text.splitOnP isBlank := by
  induction text with
  | nil => rfl
  | cons character rest hypothesis =>
      rw [stretches, hypothesis, List.splitOnP_cons_eq_if_modifyHead]

/-- **The text before a blank and the text after it are cut on their own.** -/
theorem words_append_blank {blank : Char} (cuts : isBlank blank = true)
    (before after : List Char) :
    words (before ++ blank :: after) = words before ++ words after := by
  simp only [words, stretches_eq_splitOnP, List.splitOnP_append_cons before after cuts,
    List.filter_append]

/-- A text without blanks is one word, unless it is empty. -/
theorem words_eq_singleton {word : List Char} (notEmpty : word ≠ [])
    (noBlank : ∀ character ∈ word, isBlank character = false) : words word = [word] := by
  rw [words, stretches_eq_splitOnP, List.splitOnP_eq_singleton noBlank]
  simp [notEmpty]

/-- No blank is in a stretch. -/
theorem isBlank_of_mem_stretches {text stretch : List Char} (isStretch : stretch ∈ stretches text) :
    ∀ character ∈ stretch, isBlank character = false := by
  induction text generalizing stretch with
  | nil =>
      obtain rfl : stretch = [] := by simpa [stretches] using isStretch
      simp
  | cons first rest hypothesis =>
      rw [stretches] at isStretch
      by_cases isFirst : isBlank first
      · rw [if_pos isFirst] at isStretch
        rcases List.mem_cons.mp isStretch with rfl | isLater
        · simp
        · exact hypothesis isLater
      · rw [if_neg isFirst] at isStretch
        obtain ⟨head, tail, isSplit⟩ : ∃ head tail, stretches rest = head :: tail := by
          rw [stretches_eq_splitOnP]
          exact List.exists_cons_of_ne_nil (List.splitOnP_ne_nil isBlank rest)
        rw [isSplit, List.modifyHead_cons] at isStretch
        rcases List.mem_cons.mp isStretch with rfl | isLater
        · intro character isMember
          rcases List.mem_cons.mp isMember with rfl | inHead
          · simpa using isFirst
          · exact hypothesis (isSplit ▸ List.mem_cons_self) character inHead
        · exact hypothesis (isSplit ▸ List.mem_cons_of_mem _ isLater)

/-- **A word is not empty, and no blank is in it.** -/
theorem mem_words {text word : List Char} (isWord : word ∈ words text) :
    word ≠ [] ∧ ∀ character ∈ word, isBlank character = false := by
  obtain ⟨isStretch, notEmpty⟩ := List.mem_filter.mp isWord
  exact ⟨by simpa using notEmpty, isBlank_of_mem_stretches isStretch⟩

/-- **A text without words is blank throughout.** -/
theorem words_eq_nil_iff {text : List Char} : words text = [] ↔ text.all isBlank = true := by
  induction text with
  | nil => exact iff_of_true rfl rfl
  | cons first rest hypothesis =>
      rw [List.all_cons, Bool.and_eq_true, ← hypothesis]
      cases isFirst : isBlank first with
      | true =>
          have cut : words (first :: rest) = words rest := words_append_blank isFirst [] rest
          rw [cut, and_iff_right rfl]
      | false =>
          -- The first stretch is not empty.
          obtain ⟨head, tail, isSplit⟩ : ∃ head tail, stretches rest = head :: tail := by
            rw [stretches_eq_splitOnP]
            exact List.exists_cons_of_ne_nil (List.splitOnP_ne_nil isBlank rest)
          simp [words, stretches, isFirst, isSplit]

/-- Any number of blanks cut a text as one does. -/
theorem words_append_blanks {blanks : List Char} (someBlank : blanks ≠ [])
    (areBlank : blanks.all isBlank = true) (before after : List Char) :
    words (before ++ blanks ++ after) = words before ++ words after := by
  obtain ⟨first, rest, rfl⟩ := List.exists_cons_of_ne_nil someBlank
  rw [List.all_cons, Bool.and_eq_true] at areBlank
  rw [List.append_assoc, List.cons_append, words_append_blank areBlank.1]
  congr 1
  have restBlank := areBlank.2
  clear areBlank someBlank
  induction rest with
  | nil => rfl
  | cons blank rest hypothesis =>
      rw [List.all_cons, Bool.and_eq_true] at restBlank
      exact (words_append_blank restBlank.1 [] _).trans (hypothesis restBlank.2)

/-- Some texts, at least one, are joined by blanks: between any two there is at least one. -/
inductive JoinedByBlanks : List String → String → Prop where
  | single (text : String) : JoinedByBlanks [text] text
  | cons {text blanks joined : String} {texts : List String} : blanks ≠ "" →
      allBlank blanks = true → JoinedByBlanks texts joined →
      JoinedByBlanks (text :: texts) (text ++ blanks ++ joined)

/-- **The words of texts that are joined by blanks are those of the texts.** -/
theorem JoinedByBlanks.words_eq {texts : List String} {joined : String}
    (isJoined : JoinedByBlanks texts joined) :
    words joined.toList = texts.flatMap fun text => words text.toList := by
  induction isJoined with
  | single text => simp
  | @cons text blanks joined texts someBlank areBlank _ hypothesis =>
      rw [String.toList_append, String.toList_append,
        words_append_blanks (by simpa using someBlank) areBlank, hypothesis, List.flatMap_cons]

/-- Texts may be joined by the same blanks throughout. -/
theorem joinedByBlanks_intercalate {blanks : String} (someBlank : blanks ≠ "")
    (areBlank : allBlank blanks = true) {texts : List String} (someText : texts ≠ []) :
    JoinedByBlanks texts (blanks.intercalate texts) := by
  induction texts with
  | nil => exact absurd rfl someText
  | cons text later hypothesis =>
      cases later with
      | nil =>
          rw [String.intercalate_singleton]
          exact .single text
      | cons next later =>
          rw [String.intercalate_cons_of_ne_nil (by simp)]
          exact .cons someBlank areBlank (hypothesis (by simp))

/-- **Words that are joined by a blank are the words of the text.** -/
theorem words_intercalate {blank : Char} (cuts : isBlank blank = true)
    {parts : List (List Char)}
    (areWords : ∀ part ∈ parts, part ≠ [] ∧ ∀ character ∈ part, isBlank character = false) :
    words ([blank].intercalate parts) = parts := by
  induction parts with
  | nil => rfl
  | cons part later hypothesis =>
      obtain ⟨notEmpty, noBlank⟩ := areWords part List.mem_cons_self
      cases later with
      | nil => rw [List.intercalate_singleton, words_eq_singleton notEmpty noBlank]
      | cons next later =>
          have laterWords := hypothesis fun part isLater =>
            areWords part (List.mem_cons_of_mem _ isLater)
          rw [List.intercalate_cons_cons, List.append_assoc, List.singleton_append,
            words_append_blank cuts, laterWords, words_eq_singleton notEmpty noBlank,
            List.singleton_append]

end Keystrokes.Text
