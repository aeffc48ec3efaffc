import Keystrokes.CommandLine.Report
import Keystrokes.Proofs.Shortcut.RoundTrip

/-!
# What a line of the report shows

A line of the report has the text of a shortcut, a word for the number of its chords, an
arrow, and the action, word for word and with nothing but blanks in between.  The columns
are as wide as they are asked to be or as what stands in them (`length_padded`), so the
actions stand under one another unless a text is too long for its column.

A shortcut that has been read from a text with a word in it is known from its line: the
words of the line are the texts of its chords, and its text is read as the same shortcut
again (`Keymap.shows_reportLine`).
-/

set_option autoImplicit false

namespace Keystrokes

/-! ## Columns -/

theorem length_padded (width : Nat) (text : String) :
    (padded width text).length = max width text.length := by
  rw [padded, String.length_append, String.length_ofList, List.length_replicate]
  omega

/-- A column stands before what follows as a text that is joined to it by blanks. -/
theorem Text.JoinedByBlanks.after_padded {texts : List String} {joined : String}
    (isJoined : JoinedByBlanks texts joined) (width : Nat) (text : String) :
    JoinedByBlanks (text :: texts) (padded width text ++ (" " ++ joined)) := by
  have areBlank : allBlank (String.ofList (List.replicate (width - text.length) ' ') ++ " ") =
      true := by
    have spaceIsBlank : isBlank ' ' = true := by decide
    rw [allBlank, String.toList_append, String.toList_ofList, List.all_append, List.all_replicate]
    simp [spaceIsBlank]
  have split : padded width text ++ (" " ++ joined) =
      text ++ (String.ofList (List.replicate (width - text.length) ' ') ++ " ") ++ joined := by
    simp only [padded, String.append_assoc]
  rw [split]
  exact .cons (by simp) areBlank isJoined

/-! ## Lines -/

namespace Keymap

/-- The word that tells in a line whether a shortcut has several chords. -/
def kindWord (shortcut : Shortcut) : String :=
  if 1 < shortcut.chords.length then "sequence" else "chord"

/-- What a line shows of a shortcut and its action. -/
structure Shows (line : String) (entry : Shortcut × String) : Prop where
  /-- The text of the shortcut comes first and the action last, with only blanks around what
  stands between them. -/
  columns : ∃ joined, line = "  " ++ joined ∧
    Text.JoinedByBlanks [entry.1.text, kindWord entry.1, "->", entry.2] joined
  /-- The action begins at the same place in all lines, unless the text is too long. -/
  aligned : line.length = 15 + max 24 entry.1.text.length + entry.2.length
  /-- Each chord of the shortcut is one word. -/
  words : Text.words line.toList = (entry.1.chords.map fun chord => chord.text.toList) ++
    (kindWord entry.1).toList :: "->".toList :: Text.words entry.2.toList
  /-- The text is read as the shortcut, on whatever platform. -/
  readable : ∀ platform, Shortcut.ofText platform entry.1.text = entry.1

theorem words_kindWord (shortcut : Shortcut) :
    Text.words (kindWord shortcut).toList = [(kindWord shortcut).toList] := by
  rw [kindWord]
  split <;> decide

theorem length_kindWord_le (shortcut : Shortcut) : (kindWord shortcut).length ≤ 8 := by
  rw [kindWord]
  split <;> decide

/-- A line has its columns one after the other. -/
theorem reportLine_eq (entry : Shortcut × String) :
    reportLine entry = "  " ++ (padded 24 entry.1.text ++ (" " ++
      (padded 8 (kindWord entry.1) ++ (" " ++ ("->" ++ " " ++ entry.2))))) := by
  have sameKind : (if entry.1.hasSeveral then "sequence" else "chord") = kindWord entry.1 :=
    if_congr decide_eq_true_iff rfl rfl
  have arrow : " -> " = " " ++ ("->" ++ " ") := by decide
  simp only [reportLine, sameKind, arrow, String.append_assoc]

theorem exists_columns (entry : Shortcut × String) : ∃ joined, reportLine entry = "  " ++ joined ∧
    Text.JoinedByBlanks [entry.1.text, kindWord entry.1, "->", entry.2] joined := by
  have afterKind : Text.JoinedByBlanks ["->", entry.2] ("->" ++ " " ++ entry.2) :=
    .cons (by decide) (by decide) (.single entry.2)
  exact ⟨_, reportLine_eq entry, (afterKind.after_padded 8 _).after_padded 24 _⟩

theorem length_reportLine (entry : Shortcut × String) :
    (reportLine entry).length = 15 + max 24 entry.1.text.length + entry.2.length := by
  have kindFits : max 8 (kindWord entry.1).length = 8 :=
    Nat.max_eq_left (length_kindWord_le entry.1)
  have lengths : "  ".length = 2 ∧ " ".length = 1 ∧ "->".length = 2 := by decide
  rw [reportLine_eq]
  simp only [String.length_append, length_padded, lengths, kindFits]
  omega

theorem words_reportLine (entry : Shortcut × String) :
    Text.words (reportLine entry).toList = Text.words entry.1.text.toList ++
      (kindWord entry.1).toList :: "->".toList :: Text.words entry.2.toList := by
  obtain ⟨joined, isLine, isJoined⟩ := exists_columns entry
  have indented : Text.words ("  " ++ joined).toList = Text.words joined.toList := by
    rw [String.toList_append]
    exact Text.words_append_blanks (by decide : "  ".toList ≠ []) (by decide) [] joined.toList
  have arrow : Text.words "->".toList = ["->".toList] := by decide
  rw [isLine, indented, isJoined.words_eq]
  simp only [List.flatMap_cons, List.flatMap_nil, words_kindWord, arrow, List.append_nil,
    List.singleton_append]

/-- **A line of the report shows its shortcut and its action.** -/
theorem shows_reportLine {platform : Platform} {text : String}
    (hasWord : Text.words text.toList ≠ []) (action : String) :
    Shows (reportLine (.ofText platform text, action)) (.ofText platform text, action) where
  columns := exists_columns _
  aligned := length_reportLine _
  words := by rw [words_reportLine, Shortcut.words_text platform hasWord]
  readable := fun elsewhere => Shortcut.ofText_text platform elsewhere text

/-- The lines of a chord and of a sequence. -/
example : ["$mod+s", "g g"].map (fun text => reportLine (.ofText .apple text, "run it")) =
    ["  Meta+s                   chord    -> run it",
      "  g g                      sequence -> run it"] := by
  decide +kernel

end Keymap

end Keystrokes
