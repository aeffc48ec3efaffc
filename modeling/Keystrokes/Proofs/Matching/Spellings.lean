import Keystrokes.Proofs.Matching.Sharing
import Keystrokes.Proofs.Shortcut.Platforms

/-!
# Spellings of a chord

A chord may be spelled in many ways: its modifiers may come in any order, some of them more
than once, and the platform's own one by its name or as `$mod`.  Two spellings are of one
chord when they have the same key and the same set of names, and only then
(`same_chord_iff`).  So everything that looks at chords treats such spellings alike: the
hash of a chord, the nodes of a tree, and what keystrokes meet.

A chord keeps its modifiers as a set of those that are known and an ascending list of
unknown names.  There is one such pair for each set of names
(`RequiredModifiers.ofNames_eq_iff`), since no name is both known and unknown.
-/

set_option autoImplicit false

namespace Keystrokes

/-! ## Spellings -/

/-- Modifiers and a key that stay apart when they are joined by `+`. -/
structure Spelling where
  modifiers : List String
  key : String
  /-- Every modifier ends in a word character. -/
  ends : ∀ token ∈ modifiers, ∃ start last, token.toList = start ++ [last] ∧ IsAsciiWord last
  /-- Nowhere in them does a `+` come right after a word character. -/
  inseparable : ∀ token ∈ modifiers ++ [key], ∀ start last rest,
    token.toList = start ++ last :: '+' :: rest → ¬ IsAsciiWord last

namespace Spelling

/-- The text that a spelling writes. -/
def text (spelling : Spelling) : String :=
  "+".intercalate (spelling.modifiers ++ [spelling.key])

/-- The names that the modifiers mean on a platform. -/
def names (platform : Platform) (spelling : Spelling) : List String :=
  spelling.modifiers.map platform.resolve

/-- Two spellings ask for the same key and the same set of names. -/
def AsksAlike (platform : Platform) (one other : Spelling) : Prop :=
  one.key = other.key ∧ ∀ name, name ∈ one.names platform ↔ name ∈ other.names platform

theorem cutsInto (spelling : Spelling) :
    CutsInto spelling.text (spelling.modifiers ++ [spelling.key]) where
  notEmpty := by simp
  joined := rfl
  ends := by
    rw [List.dropLast_concat]
    exact spelling.ends
  inseparable := spelling.inseparable

/-- The tokens of a text are a spelling of it. -/
def ofCut (text : String) (modifiers : List String) (key : String)
    (isCut : (modifiers ++ [key]).map String.toList = tokens text.toList) : Spelling where
  modifiers := modifiers
  key := key
  ends token isModifier := (cutsInto_iff.mpr isCut).ends token (List.dropLast_concat ▸ isModifier)
  inseparable := (cutsInto_iff.mpr isCut).inseparable

/-- **A spelling is read as it is written.** -/
theorem ofText_text (platform : Platform) (spelling : Spelling) :
    Chord.ofText platform spelling.text =
      { required := .ofNames (spelling.names platform), key := spelling.key } := by
  obtain ⟨modifiers, key, cuts, isRead⟩ := Chord.exists_cut spelling.text
  obtain ⟨rfl, same⟩ := List.append_inj' (cuts.unique spelling.cutsInto) rfl
  obtain rfl := List.singleton_inj.mp same
  exact isRead platform

end Spelling

/-! ## What looks at a chord -/

namespace RequiredModifiers

/-- **Exactly the modifiers of some names are held** when the names are those of the
modifiers held. -/
theorem metBy_ofNames_iff {names : List String} {held : Modifiers} :
    (ofNames names).metBy held = true ↔
      ∀ name, name ∈ names ↔ ∃ modifier, held.contains modifier = true ∧ modifier.name = name := by
  rw [metBy, Bool.and_eq_true, WordSet.isEmpty, List.isEmpty_iff, beq_iff_eq]
  constructor
  · rintro ⟨noneUnknown, rfl⟩ name
    rw [← mem_names_ofNames, RequiredModifiers.names, noneUnknown, List.append_nil, List.mem_map]
    simp only [Modifiers.mem_toList]
  · intro same
    refine ⟨List.eq_nil_iff_forall_not_mem.mpr fun word isUnknown => ?_,
      Modifiers.ext_contains fun modifier => ?_⟩
    · -- A name that is asked for is that of a modifier held, so it is known.
      obtain ⟨isAsked, noModifier⟩ := mem_unknown_ofNames.mp isUnknown
      obtain ⟨modifier, -, isName⟩ := (same word).mp isAsked
      exact Modifier.ofName?_eq_none_iff.mp noModifier modifier isName
    · rw [Bool.eq_iff_iff, contains_ofNames, same]
      constructor
      · rintro ⟨other, isHeld, sameName⟩
        exact Modifier.name_inj.mp sameName ▸ isHeld
      · intro isHeld
        exact ⟨modifier, isHeld, rfl⟩

end RequiredModifiers

/-- The number of a set of modifiers tells the set. -/
theorem Modifiers.bits_inj {left right : Modifiers} : left.bits = right.bits ↔ left = right := by
  refine ⟨fun same => ?_, congrArg bits⟩
  obtain ⟨shift, metaKey, alt, control⟩ := left
  obtain ⟨shift', metaKey', alt', control'⟩ := right
  simp only [bits] at same
  have digit : ∀ first second : Bool, first.toNat = second.toNat ↔ first = second := by decide
  have bound := Bool.toNat_le
  have := bound shift; have := bound metaKey; have := bound alt; have := bound control
  have := bound shift'; have := bound metaKey'; have := bound alt'; have := bound control'
  rw [Modifiers.mk.injEq, ← digit, ← digit, ← digit, ← digit]
  omega

namespace Chord

/-- What of a chord goes into its hash: its modifiers as a number, its unknown names one
after the other, and its key. -/
def hashInput (chord : Chord) : Nat × List String × String :=
  (chord.required.known.bits, chord.required.unknown.toList, chord.key)

/-- The same goes into the hashes of two chords when they are the same. -/
theorem hashInput_inj {one other : Chord} : one.hashInput = other.hashInput ↔ one = other := by
  refine ⟨fun same => ?_, congrArg hashInput⟩
  rw [hashInput, hashInput, Prod.mk.injEq, Prod.mk.injEq] at same
  obtain ⟨sameBits, sameUnknown, sameKey⟩ := same
  obtain ⟨⟨known, unknown⟩, key⟩ := one
  obtain ⟨⟨known', unknown'⟩, key'⟩ := other
  obtain rfl := Modifiers.bits_inj.mp sameBits
  obtain rfl : unknown = unknown' := WordSet.ext_mem fun word => by rw [sameUnknown]
  obtain rfl : key = key' := sameKey
  rfl

end Chord

/-- Two shortcuts that begin alike share the node of the next chord when that is the same
in both. -/
theorem ShortcutTree.Represents.exists_nodes {tree : ShortcutTree} {shortcuts : List Shortcut}
    (holds : tree.Represents shortcuts) {path : List Chord} {left right : Chord}
    {first second : Shortcut} (isFirst : first ∈ shortcuts) (isSecond : second ∈ shortcuts)
    (beginsFirst : path ++ [left] <+: first.chords)
    (beginsSecond : path ++ [right] <+: second.chords) :
    ∃ one other, tree.Spells (path ++ [left]) one ∧ tree.Spells (path ++ [right]) other ∧
      (one = other ↔ left = right) := by
  obtain ⟨one, leadsToOne⟩ := (holds.spells_iff _).mpr (.inr ⟨first, isFirst, beginsFirst⟩)
  obtain ⟨other, leadsToOther⟩ := (holds.spells_iff _).mpr (.inr ⟨second, isSecond, beginsSecond⟩)
  refine ⟨one, other, leadsToOne, leadsToOther, ?_⟩
  rw [leadsToOne.node_eq_iff holds.isTree leadsToOther, List.append_right_inj, List.singleton_inj]

/-! ## One chord -/

namespace Spelling

variable (platform : Platform) (one other : Spelling)

theorem ofText_eq_iff :
    Chord.ofText platform one.text = Chord.ofText platform other.text ↔
      one.AsksAlike platform other := by
  rw [ofText_text, ofText_text, Chord.mk.injEq, RequiredModifiers.ofNames_eq_iff, and_comm]
  exact Iff.rfl

/-- **Spellings are of one chord when they have the same key and the same names**, and only
then: order and repetition do not matter.  So it is for what goes into the hash of the chord,
and for the node to which the chord leads after others.  And the modifiers of a spelling are
those held when the names are exactly those of the modifiers held. -/
theorem same_chord_iff :
    (Chord.ofText platform one.text = Chord.ofText platform other.text ↔
      one.AsksAlike platform other) ∧
    ((Chord.ofText platform one.text).hashInput = (Chord.ofText platform other.text).hashInput ↔
      one.AsksAlike platform other) ∧
    (∀ (shortcuts : List Shortcut) (path : List Chord), ∀ first ∈ shortcuts,
      ∀ second ∈ shortcuts,
      path ++ [Chord.ofText platform one.text] <+: first.chords →
      path ++ [Chord.ofText platform other.text] <+: second.chords →
      ∃ left right,
        (ShortcutTree.ofShortcuts shortcuts).Spells
          (path ++ [Chord.ofText platform one.text]) left ∧
        (ShortcutTree.ofShortcuts shortcuts).Spells
          (path ++ [Chord.ofText platform other.text]) right ∧
        (left = right ↔ one.AsksAlike platform other)) ∧
    ∀ held, (Chord.ofText platform one.text).required.metBy held = true ↔
      ∀ name, name ∈ one.names platform ↔
        ∃ modifier, held.contains modifier = true ∧ modifier.name = name := by
  refine ⟨ofText_eq_iff platform one other, ?_, ?_, fun held => ?_⟩
  · rw [Chord.hashInput_inj, ofText_eq_iff]
  · intro shortcuts path first isFirst second isSecond beginsFirst beginsSecond
    rw [← ofText_eq_iff]
    exact (ShortcutTree.represents_ofShortcuts shortcuts).exists_nodes isFirst isSecond beginsFirst
      beginsSecond
  · rw [ofText_text]
    exact RequiredModifiers.metBy_ofNames_iff

/-- On one platform `$mod` is a second way to ask for Control, on the other it is not. -/
theorem same_chord_iff_own_modifier :
    ∃ one other : Spelling, one.text = "Shift+$mod+Shift+k" ∧ other.text = "Control+Shift+k" ∧
      one.AsksAlike .other other ∧
      Chord.ofText .other one.text = Chord.ofText .other other.text ∧
      Chord.ofText .apple one.text ≠ Chord.ofText .apple other.text := by
  let one := ofCut "Shift+$mod+Shift+k" ["Shift", "$mod", "Shift"] "k" (by decide +kernel)
  let other := ofCut "Control+Shift+k" ["Control", "Shift"] "k" (by decide +kernel)
  have namesOther : one.names .other = ["Shift", "Control", "Shift"] := by decide +kernel
  have namesApple : one.names .apple = ["Shift", "Meta", "Shift"] := by decide +kernel
  have names : ∀ platform, other.names platform = ["Control", "Shift"] := by
    intro platform
    cases platform <;> decide +kernel
  have alike : one.AsksAlike .other other := by
    refine ⟨rfl, fun name => ?_⟩
    rw [namesOther, names]
    simp only [List.mem_cons, List.not_mem_nil, or_false]
    tauto
  refine ⟨one, other, by decide +kernel, by decide +kernel, alike,
    (same_chord_iff .other one other).1.mpr alike, fun same => ?_⟩
  have sameNames := ((same_chord_iff .apple one other).1.mp same).2 "Control"
  rw [namesApple, names] at sameNames
  exact absurd (sameNames.mpr (by decide)) (by decide)

end Spelling

end Keystrokes
