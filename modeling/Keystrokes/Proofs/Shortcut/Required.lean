import Keystrokes.Shortcut.Chord
import Mathlib.Data.List.Induction

/-!
# Required modifiers as sets of names

What a chord asks for is a set of names: each name is either that of a modifier or
unknown (`mem_names_ofNames`).  Lists with the same names ask for the same modifiers
(`ofNames_congr`), whatever their order and however often they repeat a name.
-/

set_option autoImplicit false

namespace Keystrokes

theorem Modifier.ofName?_eq_some_iff {text : String} {modifier : Modifier} :
    Modifier.ofName? text = some modifier ↔ modifier.name = text := by
  constructor
  · intro found
    simpa [Modifier.ofName?] using List.find?_some found
  · rintro rfl
    exact Modifier.ofName?_name modifier

theorem Modifiers.mem_toList {held : Modifiers} {modifier : Modifier} :
    modifier ∈ held.toList ↔ held.contains modifier = true := by
  have isListed : modifier ∈ Modifier.all := by cases modifier <;> decide
  rw [Modifiers.toList, List.mem_filter]
  exact and_iff_right isListed

namespace RequiredModifiers

/-- Modifiers are the same when the same names are asked for. -/
theorem ext_mem {left right : RequiredModifiers}
    (sameKnown : ∀ modifier, left.known.contains modifier = right.known.contains modifier)
    (sameUnknown : ∀ word, word ∈ left.unknown.toList ↔ word ∈ right.unknown.toList) :
    left = right := by
  have known : left.known = right.known := Modifiers.ext_contains sameKnown
  have unknown : left.unknown = right.unknown := WordSet.ext_mem sameUnknown
  cases left
  cases right
  simp only at known unknown
  rw [known, unknown]

/-! ## Names that are asked for -/

theorem ofNames_concat (names : List String) (name : String) :
    ofNames (names ++ [name]) = (ofNames names).add name := by
  rw [ofNames, ofNames, List.foldl_append, List.foldl_cons, List.foldl_nil]

theorem contains_ofNames {names : List String} {modifier : Modifier} :
    (ofNames names).known.contains modifier = true ↔ modifier.name ∈ names := by
  induction names using List.reverseRecOn with
  | nil => cases modifier <;> simp [ofNames, Modifiers.contains, Modifiers.none]
  | append_singleton names name hypothesis =>
      rw [ofNames_concat, add, List.mem_append, List.mem_singleton, ← hypothesis]
      cases found : Modifier.ofName? name with
      | some added =>
          obtain rfl := Modifier.ofName?_eq_some_iff.mp found
          have sameName : modifier.name = added.name ↔ modifier = added := by
            constructor
            · intro same
              simpa [same] using (Modifier.ofName?_name modifier).symm
            · rintro rfl
              rfl
          simp only [Modifiers.contains_insert, Bool.or_eq_true, beq_iff_eq, sameName]
          exact or_comm
      | none =>
          have notName : modifier.name ≠ name := by
            rintro rfl
            simp at found
          simp only [notName, or_false]

theorem mem_unknown_ofNames {names : List String} {word : String} :
    word ∈ (ofNames names).unknown.toList ↔ word ∈ names ∧ Modifier.ofName? word = none := by
  induction names using List.reverseRecOn with
  | nil => simp [ofNames, WordSet.empty]
  | append_singleton names name hypothesis =>
      rw [ofNames_concat, add, List.mem_append, List.mem_singleton]
      cases found : Modifier.ofName? name with
      | some added =>
          have notName : Modifier.ofName? word = none → word ≠ name := by
            rintro isUnknown rfl
            rw [found] at isUnknown
            exact absurd isUnknown (by simp)
          simp only [hypothesis]
          constructor
          · rintro ⟨isMember, isUnknown⟩
            exact ⟨.inl isMember, isUnknown⟩
          · rintro ⟨isMember | isName, isUnknown⟩
            · exact ⟨isMember, isUnknown⟩
            · exact absurd isName (notName isUnknown)
      | none =>
          simp only [WordSet.mem_insert, hypothesis]
          constructor
          · rintro (rfl | ⟨isMember, isUnknown⟩)
            · exact ⟨.inr rfl, found⟩
            · exact ⟨.inl isMember, isUnknown⟩
          · rintro ⟨isMember | isName, isUnknown⟩
            · exact .inr ⟨isMember, isUnknown⟩
            · exact .inl isName

/-- **The names asked for are those of the list.** -/
theorem mem_names_ofNames {names : List String} {name : String} :
    name ∈ (ofNames names).names ↔ name ∈ names := by
  rw [RequiredModifiers.names, List.mem_append, mem_unknown_ofNames, List.mem_map]
  simp only [Modifiers.mem_toList, contains_ofNames]
  constructor
  · rintro (⟨modifier, isMember, rfl⟩ | ⟨isMember, -⟩)
    · exact isMember
    · exact isMember
  · intro isMember
    cases found : Modifier.ofName? name with
    | some modifier =>
        obtain rfl := Modifier.ofName?_eq_some_iff.mp found
        exact .inl ⟨modifier, isMember, rfl⟩
    | none => exact .inr ⟨isMember, rfl⟩

/-- **Order and repetition of names do not matter.** -/
theorem ofNames_congr {left right : List String} (same : ∀ name, name ∈ left ↔ name ∈ right) :
    ofNames left = ofNames right := by
  apply ext_mem
  · intro modifier
    rw [Bool.eq_iff_iff, contains_ofNames, contains_ofNames, same]
  · intro word
    rw [mem_unknown_ofNames, mem_unknown_ofNames, same]

/-- **Lists ask for the same modifiers when they have the same names.** -/
theorem ofNames_eq_iff {left right : List String} :
    ofNames left = ofNames right ↔ ∀ name, name ∈ left ↔ name ∈ right := by
  refine ⟨fun same name => ?_, ofNames_congr⟩
  rw [← mem_names_ofNames, same, mem_names_ofNames]

/-- Asking for the names that a list asks for is asking for the list. -/
theorem ofNames_names (names : List String) : ofNames (ofNames names).names = ofNames names :=
  ofNames_congr fun _ => mem_names_ofNames

/-- Nothing is asked for when there is no name. -/
theorem isEmpty_iff {required : RequiredModifiers} :
    required.isEmpty = true ↔ required.names = [] := by
  have noneKnown : required.known.isEmpty = true ↔ required.known.toList = [] := by
    rw [Modifiers.isEmpty, beq_iff_eq, List.eq_nil_iff_forall_not_mem]
    constructor
    · intro isNone modifier
      rw [isNone, Modifiers.mem_toList]
      cases modifier <;> decide
    · intro noMember
      refine Modifiers.ext_contains fun modifier => ?_
      have notHeld := noMember modifier
      rw [Modifiers.mem_toList, Bool.not_eq_true] at notHeld
      rw [notHeld]
      cases modifier <;> rfl
  have noneUnknown : required.unknown.isEmpty = true ↔ required.unknown.toList = [] := by
    rw [WordSet.isEmpty, List.isEmpty_iff]
  rw [isEmpty, Bool.and_eq_true, noneKnown, noneUnknown, RequiredModifiers.names,
    List.append_eq_nil_iff, List.map_eq_nil_iff]

end RequiredModifiers

end Keystrokes
