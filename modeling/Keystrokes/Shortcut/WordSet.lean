/-!
# Finite sets of words

A set of words is kept as the list of its members in strictly ascending order of
code points.  The order leaves one list for each set, so equality of these values
is equality of sets: `WordSet.ext_mem`.
-/

set_option autoImplicit false

namespace Keystrokes

/-- A finite set of words. -/
structure WordSet where
  /-- The members, in ascending order. -/
  toList : List String
  /-- The order is strict, so no member is listed twice. -/
  sorted : toList.Pairwise (· < ·)
  deriving DecidableEq

namespace WordSet

/-! ## Ordered lists -/

/-- An ordered list with one more word, at its place; a word already there is
not added again. -/
def place (added : String) : List String → List String
  | [] => [added]
  | member :: rest =>
      if added < member then added :: member :: rest
      else if added = member then member :: rest
      else member :: place added rest

theorem mem_place (added word : String) (members : List String) :
    word ∈ place added members ↔ word = added ∨ word ∈ members := by
  induction members with
  | nil => simp [place]
  | cons member rest hypothesis =>
      unfold place
      split
      · simp
      · split
        · rename_i same
          simp [same]
        · simp only [List.mem_cons, hypothesis, or_left_comm]

theorem sorted_place (added : String) {members : List String}
    (sorted : members.Pairwise (· < ·)) : (place added members).Pairwise (· < ·) := by
  induction members with
  | nil => simp [place]
  | cons member rest hypothesis =>
      obtain ⟨least, restSorted⟩ := List.pairwise_cons.mp sorted
      unfold place
      split
      · rename_i before
        refine List.pairwise_cons.mpr ⟨?_, sorted⟩
        intro word isMember
        rcases List.mem_cons.mp isMember with rfl | inRest
        · exact before
        · exact String.lt_trans before (least word inRest)
      · rename_i notBefore
        split
        · exact sorted
        · rename_i different
          refine List.pairwise_cons.mpr ⟨?_, hypothesis restSorted⟩
          intro word isMember
          rcases (mem_place added word rest).mp isMember with rfl | inRest
          · exact Std.lt_of_le_of_ne notBefore (Ne.symm different)
          · exact least word inRest

/-- A list in strict order lists no member twice. -/
theorem nodup_of_sorted {members : List String} (sorted : members.Pairwise (· < ·)) :
    members.Nodup :=
  sorted.imp fun before => String.ne_of_lt before

/-- Lists in strict order with the same members are equal. -/
theorem eq_of_sorted {left right : List String} (leftSorted : left.Pairwise (· < ·))
    (rightSorted : right.Pairwise (· < ·)) (same : ∀ word, word ∈ left ↔ word ∈ right) :
    left = right := by
  have permutation : left.Perm right :=
    (List.perm_ext_iff_of_nodup (nodup_of_sorted leftSorted) (nodup_of_sorted rightSorted)).mpr
      same
  refine List.Perm.eq_of_pairwise ?_ leftSorted rightSorted permutation
  intro first second _ _ before after
  exact absurd (String.lt_trans before after) (String.lt_irrefl first)

/-! ## The operations -/

/-- The set without a member. -/
def empty : WordSet := ⟨[], List.Pairwise.nil⟩

/-- Whether the set has no member. -/
def isEmpty (words : WordSet) : Bool := words.toList.isEmpty

/-- The set with one more member. -/
def insert (words : WordSet) (added : String) : WordSet :=
  ⟨place added words.toList, sorted_place added words.sorted⟩

@[simp] theorem mem_insert (words : WordSet) (added word : String) :
    word ∈ (words.insert added).toList ↔ word = added ∨ word ∈ words.toList :=
  mem_place added word words.toList

/-- **Sets with the same members are equal.** -/
theorem ext_mem {left right : WordSet}
    (same : ∀ word, word ∈ left.toList ↔ word ∈ right.toList) : left = right := by
  have equal := eq_of_sorted left.sorted right.sorted same
  cases left
  cases right
  subst equal
  rfl

end WordSet

end Keystrokes
