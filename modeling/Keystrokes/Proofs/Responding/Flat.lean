import Keystrokes.Responding.Responder
import Mathlib.Data.List.Induction

/-!
# What a flat layout gives a responder

Texts that are bound one after the other stand in the order in which they were first bound
(`entries_bindAll`), and each is read by itself, whatever the reader remembers of those
before it (`readEntries_fst`).  So a responder of a flat layout has one shortcut and one
callback for each text, both at its place (`Responder.matcher_ofFlat` and
`Responder.callbacks_ofFlat`).
-/

set_option autoImplicit false

namespace Keystrokes

namespace FlatLayout

variable {α : Type}

/-! ## Binding -/

/-- A text that is bound for the first time is bound at the end. -/
theorem bindIn_of_notMem {text : String} (callback : α) {entries : List (String × α)}
    (isNew : text ∉ entries.map Prod.fst) :
    bindIn text callback entries = entries ++ [(text, callback)] := by
  induction entries with
  | nil => rfl
  | cons entry rest hypothesis =>
      obtain ⟨notFirst, notLater⟩ := not_or.mp (mt List.mem_cons.mpr isNew)
      rw [bindIn, if_neg (Ne.symm notFirst), hypothesis notLater]
      rfl

/-- **Different texts stand in the order in which they are bound.** -/
theorem entries_bindAll {entries : List (String × α)} (distinct : (entries.map Prod.fst).Nodup) :
    (entries.foldl (fun layout entry => layout.bind entry.1 entry.2) ({} : FlatLayout α)).entries =
      entries := by
  induction entries using List.reverseRecOn with
  | nil => rfl
  | append_singleton entries entry hypothesis =>
      rw [List.map_append, List.map_singleton, List.nodup_append] at distinct
      obtain ⟨distinctBefore, -, apart⟩ := distinct
      have isNew : entry.1 ∉ entries.map Prod.fst := fun isOld =>
        apart entry.1 isOld entry.1 (List.mem_singleton_self _) rfl
      rw [List.foldl_append, List.foldl_cons, List.foldl_nil, bind, hypothesis distinctBefore,
        bindIn_of_notMem _ isNew]

/-! ## Reading -/

/-- **Each entry is read by itself.** -/
theorem readEntries_fst (reader : ShortcutReader) (entries : List (String × α)) :
    (readEntries reader entries).1 = entries.map fun entry =>
      ⟨Shortcut.ofText reader.platform entry.1, entry.1, entry.2⟩ := by
  induction entries generalizing reader with
  | nil => rfl
  | cons entry rest hypothesis =>
      rw [List.map_cons, ← reader.read_fst entry.1, ← reader.read_platform entry.1,
        ← hypothesis (reader.read entry.1).2]
      rfl

end FlatLayout

/-! ## The responder -/

namespace Responder

variable {α : Type} (layout : FlatLayout α) (settings : Settings)

theorem matcher_ofFlat : (ofFlat layout settings).matcher =
    .list { shortcuts := layout.entries.map fun entry => Shortcut.ofText settings.platform entry.1
            tracked := settings.tracked } := by
  rw [ofFlat, ofMatcher, FlatLayout.read, FlatLayout.readEntries_fst, List.map_map]
  rfl

theorem callbacks_ofFlat : (ofFlat layout settings).callbacks =
    layout.entries.map fun entry => ⟨entry.1, entry.2⟩ := by
  have areLabelled : (ofFlat layout settings).callbacks =
      (layout.read { platform := settings.platform }).1.map
        fun entry => ⟨entry.label, entry.callback⟩ := rfl
  rw [areLabelled, FlatLayout.read, FlatLayout.readEntries_fst, List.map_map]
  rfl

end Responder

end Keystrokes
