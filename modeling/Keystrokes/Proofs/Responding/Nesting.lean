import Keystrokes.Proofs.Matching.Sharing
import Keystrokes.Proofs.Shortcut.RoundTrip
import Keystrokes.Responding.Responder
import Mathlib.Data.List.Forall2

/-!
# Nested layouts

A nested layout is another way to write a list of shortcuts.  On the way to each of its
callbacks stand some texts, the outermost first (`routes`).  The layout is read depth first,
with one entry for each callback, and the shortcut of an entry has the chords of the texts on
the way, in their order (`readUnder_follows`).  So it is the shortcut of these texts joined by
blanks, unless one of them is blank: such a text has no word and is nevertheless read as a
chord (`reads_routes_in_order`).

What the reader remembers does not matter, whatever it has read before.
-/

set_option autoImplicit false

namespace Keystrokes

variable {α : Type}

namespace NestedLayout

/-! ## The ways to the callbacks -/

/-- The callbacks of a layout, depth first, each with the texts on the way to it. -/
def routes : NestedLayout α → List (List String × α)
  | .empty => []
  | .callback text value rest => ([text], value) :: rest.routes
  | .inner text layout rest =>
      layout.routes.map (fun route => (text :: route.1, route.2)) ++ rest.routes

theorem length_routes (layout : NestedLayout α) : layout.routes.length = layout.size := by
  induction layout with
  | empty => rfl
  | callback text value rest hypothesis => simp [routes, size, hypothesis]
  | inner text layout rest first second => simp [routes, size, first, second]

/-- On the way to a callback there is at least one text. -/
theorem ne_nil_of_mem_routes {layout : NestedLayout α} {route : List String × α}
    (isRoute : route ∈ layout.routes) : route.1 ≠ [] := by
  induction layout with
  | empty => exact absurd isRoute List.not_mem_nil
  | callback text value rest hypothesis =>
      rcases List.mem_cons.mp isRoute with rfl | isLater
      · simp
      · exact hypothesis isLater
  | inner text layout rest first second =>
      rcases List.mem_append.mp isRoute with isInner | isLater
      · obtain ⟨inner, -, rfl⟩ := List.mem_map.mp isInner
        simp
      · exact second isLater

/-! ## Reading -/

/-- The chords of a prefix, if there is one. -/
def prefixChords : Option Shortcut → List Chord
  | some outer => outer.chords
  | none => []

theorem chords_under (outer : Option Shortcut) (shortcut : Shortcut) :
    (under outer shortcut).chords = prefixChords outer ++ shortcut.chords := by
  cases outer <;> rfl

/-- The chords of some texts, one text after the other. -/
def chordsAlong (platform : Platform) (texts : List String) : List Chord :=
  texts.flatMap fun text => (Shortcut.ofText platform text).chords

/-- An entry follows a route under some chords: it has the callback of the route, its label is
the text of its shortcut, and its chords are those of the texts of the route. -/
structure Follows (platform : Platform) (outer : List Chord) (route : List String × α)
    (entry : Bound α) : Prop where
  callback : entry.callback = route.2
  label : entry.label = entry.shortcut.text
  chords : entry.shortcut.chords = outer ++ chordsAlong platform route.1

section Reading

variable (outer : Option Shortcut) (reader : ShortcutReader) (text : String) (value : α)
  (layout rest : NestedLayout α)

/-- What a text stands for under a prefix, whatever the reader remembers. -/
def fullShortcut : Shortcut :=
  under outer (Shortcut.ofText reader.platform text)

theorem chords_fullShortcut :
    (fullShortcut outer reader text).chords =
      prefixChords outer ++ (Shortcut.ofText reader.platform text).chords :=
  chords_under ..

theorem readUnder_callback :
    (readUnder outer reader (.callback text value rest)).1 =
      ⟨fullShortcut outer reader text, (fullShortcut outer reader text).text, value⟩ ::
        (readUnder outer (reader.read text).2 rest).1 := by
  rw [fullShortcut, ← reader.read_fst text]
  rfl

theorem readUnder_inner :
    (readUnder outer reader (.inner text layout rest)).1 =
      (readUnder (some (fullShortcut outer reader text)) (reader.read text).2 layout).1 ++
        (readUnder outer
          (readUnder (some (fullShortcut outer reader text)) (reader.read text).2 layout).2
          rest).1 := by
  rw [fullShortcut, ← reader.read_fst text]
  rfl

@[simp] theorem platform_readUnder :
    (readUnder outer reader layout).2.platform = reader.platform := by
  induction layout generalizing outer reader with
  | empty => rfl
  | callback text value rest hypothesis =>
      exact (hypothesis outer _).trans (reader.read_platform text)
  | inner text layout rest first second =>
      exact ((second outer _).trans (first _ _)).trans (reader.read_platform text)

end Reading

/-- An entry that follows a route under the chords of a text follows the longer route. -/
theorem Follows.outward {platform : Platform} {outer : List Chord} {text : String}
    {route : List String × α} {entry : Bound α}
    (follows : Follows platform (outer ++ (Shortcut.ofText platform text).chords) route entry) :
    Follows platform outer (text :: route.1, route.2) entry where
  callback := follows.callback
  label := follows.label
  chords := by rw [follows.chords, chordsAlong, chordsAlong, List.flatMap_cons, List.append_assoc]

/-- **The entries of a layout follow its routes, one by one.** -/
theorem readUnder_follows (outer : Option Shortcut) (reader : ShortcutReader)
    (layout : NestedLayout α) :
    List.Forall₂ (Follows reader.platform (prefixChords outer)) layout.routes
      (readUnder outer reader layout).1 := by
  induction layout generalizing outer reader with
  | empty => exact .nil
  | callback text value rest hypothesis =>
      rw [readUnder_callback]
      refine .cons ⟨rfl, rfl, ?_⟩ ?_
      · rw [chords_fullShortcut, chordsAlong, List.flatMap_singleton]
      · exact reader.read_platform text ▸ hypothesis outer (reader.read text).2
  | inner text layout rest first second =>
      rw [readUnder_inner, routes]
      refine List.rel_append ?_ ?_
      · have inner := first (some (fullShortcut outer reader text)) (reader.read text).2
        rw [reader.read_platform, prefixChords, chords_fullShortcut] at inner
        exact List.forall₂_map_left_iff.mpr (inner.imp fun _ _ follows => follows.outward)
      · have later := second outer
          (readUnder (some (fullShortcut outer reader text)) (reader.read text).2 layout).2
        rwa [platform_readUnder, reader.read_platform] at later

/-! ## Routes without blank texts -/

/-- Nothing on the way to a callback is blank. -/
def IsPlain (route : List String × α) : Prop :=
  ∀ text ∈ route.1, Text.allBlank text = false

/-- **The chords along a plain route are those of its texts joined by blanks.** -/
theorem chordsAlong_eq {platform : Platform} {texts : List String} {joined : String}
    (someText : texts ≠ []) (plain : ∀ text ∈ texts, Text.allBlank text = false)
    (isJoined : Text.JoinedByBlanks texts joined) :
    chordsAlong platform texts = (Shortcut.ofText platform joined).chords := by
  have hasWords : ∀ text ∈ texts, Text.words text.toList ≠ [] := by
    intro text isText noWords
    exact absurd (Text.words_eq_nil_iff.mp noWords) (by simpa [Text.allBlank] using plain text isText)
  have joinedHasWords : Text.words joined.toList ≠ [] := by
    obtain ⟨first, later, rfl⟩ := List.exists_cons_of_ne_nil someText
    rw [isJoined.words_eq, List.flatMap_cons]
    exact List.append_ne_nil_of_left_ne_nil (hasWords first List.mem_cons_self) _
  rw [Shortcut.chords_ofText joinedHasWords, isJoined.words_eq, List.map_flatMap, chordsAlong]
  exact List.flatMap_congr fun text isText => Shortcut.chords_ofText (hasWords text isText)

/-- An entry is read from a route: it has the callback of the route, and its label is the text
of its shortcut.  If nothing on the way is blank, its shortcut is that of the texts on the way
joined by any blanks, and it is read again from its label on whatever platform. -/
structure IsReadFrom (platform : Platform) (route : List String × α) (entry : Bound α) :
    Prop where
  callback : entry.callback = route.2
  label : entry.label = entry.shortcut.text
  joined : IsPlain route → ∀ joined, Text.JoinedByBlanks route.1 joined →
    entry.shortcut = Shortcut.ofText platform joined
  readAgain : IsPlain route → ∀ elsewhere,
    Shortcut.ofText elsewhere entry.label = entry.shortcut

/-- An entry that follows a whole route is read from it. -/
theorem Follows.isReadFrom {platform : Platform} {route : List String × α} {entry : Bound α}
    (someText : route.1 ≠ []) (follows : Follows platform [] route entry) :
    IsReadFrom platform route entry := by
  have joined : IsPlain route → ∀ joined, Text.JoinedByBlanks route.1 joined →
      entry.shortcut = Shortcut.ofText platform joined := by
    intro plain joined isJoined
    apply Shortcut.eq_of_chords
    rw [follows.chords, List.nil_append, chordsAlong_eq someText plain isJoined]
  refine ⟨follows.callback, follows.label, joined, fun plain elsewhere => ?_⟩
  have isJoined : Text.JoinedByBlanks route.1 (" ".intercalate route.1) :=
    Text.joinedByBlanks_intercalate (by decide) (by decide) someText
  rw [follows.label, joined plain _ isJoined, Shortcut.ofText_text]

/-- The entries of a layout are read from its routes, one by one. -/
theorem read_isReadFrom (layout : NestedLayout α) (reader : ShortcutReader) :
    List.Forall₂ (IsReadFrom reader.platform) layout.routes (layout.read reader).1 := by
  have follow := readUnder_follows none reader layout
  rw [List.forall₂_iff_get] at follow ⊢
  refine ⟨follow.1, fun number isRoute isEntry => ?_⟩
  exact (follow.2 number isRoute isEntry).isReadFrom (ne_nil_of_mem_routes (List.get_mem ..))

/-! ## The responder of a layout -/

/-- A number means an entry to a responder: the tree of its matcher has the number at the
node to which the chords of the entry lead, and nowhere else, and to run the call of the
number is to run the callback of the entry. -/
structure Means (responder : Responder α) (number : Nat) (entry : Bound α) : Prop where
  endsThere : ∃ matcher position, responder.matcher = .tree matcher ∧
    matcher.tree.Spells entry.shortcut.chords position ∧
    ∀ other, number ∈ matcher.tree.endingAt other ↔ other = position
  runs : ∀ event, responder.fire ⟨number, event⟩ =
    [.note (.firing entry.label), .fired ⟨number, entry.callback, event⟩]

theorem means_ofNested {layout : NestedLayout α} {settings : Settings} {number : Nat}
    {entry : Bound α}
    (isEntry : (layout.read { platform := settings.platform }).1[number]? = some entry) :
    Means (.ofNested layout settings) number entry := by
  let shortcuts := (layout.read { platform := settings.platform }).1.map Bound.shortcut
  have holds := ShortcutTree.represents_ofShortcuts shortcuts
  have isShortcut : shortcuts[number]? = some entry.shortcut := by
    rw [List.getElem?_map, isEntry, Option.map_some]
  constructor
  · obtain ⟨position, spelled⟩ := (holds.spells_iff entry.shortcut.chords).mpr
      (.inr ⟨entry.shortcut, List.mem_of_getElem? isShortcut, List.prefix_refl _⟩)
    refine ⟨_, position, rfl, spelled, fun other => ?_⟩
    rw [TreeMatcher.ofShortcuts, holds.mem_endingAt]
    constructor
    · rintro ⟨same, isSame, spelledThere⟩
      obtain rfl : entry.shortcut = same := Option.some.inj (isShortcut.symm.trans isSame)
      exact spelledThere.node_unique holds.isTree spelled
    · rintro rfl
      exact ⟨entry.shortcut, isShortcut, spelled⟩
  · intro event
    have isCallback : (Responder.ofNested layout settings).callback? ⟨number, event⟩ =
        some ⟨entry.label, entry.callback⟩ := by
      simp [Responder.ofNested, Responder.ofMatcher, Responder.callback?, isEntry]
    rw [Responder.fire, isCallback]

/-- **A nested layout is read along its routes.**  Whatever the reader remembers, there is one
entry for each callback, depth first and in the order of registration, and it is read from the
texts on the way to the callback.  In the responder of the layout each number means the entry
in its place. -/
theorem reads_routes_in_order (layout : NestedLayout α) (reader : ShortcutReader)
    (settings : Settings) :
    (layout.read reader).1.length = layout.size ∧
      List.Forall₂ (IsReadFrom reader.platform) layout.routes (layout.read reader).1 ∧
      (Responder.ofNested layout settings).matcher.size = layout.size ∧
      ∀ number route, layout.routes[number]? = some route →
        ∃ entry, IsReadFrom settings.platform route entry ∧
          Means (.ofNested layout settings) number entry := by
  have areRead := layout.read_isReadFrom reader
  have ownRead := layout.read_isReadFrom { platform := settings.platform }
  refine ⟨areRead.length_eq.symm.trans layout.length_routes, areRead, ?_, fun number route isRoute => ?_⟩
  · have holds := ShortcutTree.represents_ofShortcuts
      ((layout.read { platform := settings.platform }).1.map Bound.shortcut)
    have sameSize := holds.size_eq
    rw [List.length_map, ← ownRead.length_eq, length_routes] at sameSize
    exact sameSize
  · obtain ⟨inRange, rfl⟩ := List.getElem?_eq_some_iff.mp isRoute
    have isEntry := List.getElem?_eq_getElem (ownRead.length_eq ▸ inRange)
    exact ⟨_, (List.forall₂_iff_get.mp ownRead).2 number inRange _, means_ofNested isEntry⟩

/-- A layout in a layout in a layout, the empty one among them. -/
def twoDeep : NestedLayout Nat :=
  .inner "$mod+k" (.inner " g" (.callback "h i" 7 .empty) .empty)
    (.inner "z" .empty (.callback "x" 8 .empty))

/-- The first callback of it is read from three texts, the first of which the reader has
already read. -/
theorem reads_routes_two_deep :
    let reader := (ShortcutReader.read { platform := .apple } "$mod+k").2
    let route : List String × Nat := (["$mod+k", " g", "h i"], 7)
    let joined := "$mod+k" ++ "\t\n" ++ (" g" ++ " " ++ "h i")
    reader.size = 1 ∧ twoDeep.routes[0]? = some route ∧ IsPlain route ∧
      Text.JoinedByBlanks route.1 joined ∧
      ∃ entry later, (twoDeep.read reader).1 = entry :: later ∧ entry.callback = 7 ∧
        entry.shortcut = Shortcut.ofText .apple joined ∧
        Shortcut.ofText .other entry.label = entry.shortcut := by
  intro reader route joined
  have plain : IsPlain route := by
    unfold IsPlain
    decide +kernel
  have isJoined : Text.JoinedByBlanks route.1 joined :=
    .cons (by decide) (by decide) (.cons (by decide) (by decide) (.single "h i"))
  obtain ⟨-, areRead, -, -⟩ := reads_routes_in_order twoDeep reader {}
  have routes : twoDeep.routes = [route, (["x"], 8)] := rfl
  rw [routes] at areRead
  obtain ⟨entry, later, isRead, -, isSplit⟩ := List.forall₂_cons_left_iff.mp areRead
  have isApple : reader.platform = .apple := rfl
  rw [isApple] at isRead
  exact ⟨rfl, rfl, plain, isJoined, entry, later, isSplit, isRead.callback,
    isRead.joined plain joined isJoined, isRead.readAgain plain .other⟩

end NestedLayout

end Keystrokes
