import Keystrokes.Matching.ListMatcher
import Keystrokes.Matching.TreeMatcher

/-!
# Numbers in ascending order

Both matchers answer with numbers in strictly ascending order: the list matcher
because it looks at its shortcuts in their order, the tree matcher because it sorts
what it finds and drops repetitions.  There is one such list for each set of numbers
(`eq_of_ascending`), so the two answers are equal when they have the same members.
-/

set_option autoImplicit false

namespace Keystrokes

/-- Lists in strictly ascending order with the same members are equal. -/
theorem eq_of_ascending {left right : List Nat} (leftAscending : left.Pairwise (· < ·))
    (rightAscending : right.Pairwise (· < ·)) (same : ∀ number, number ∈ left ↔ number ∈ right) :
    left = right := by
  have leftNodup : left.Nodup := leftAscending.imp Nat.ne_of_lt
  have rightNodup : right.Nodup := rightAscending.imp Nat.ne_of_lt
  refine List.Perm.eq_of_pairwise ?_ leftAscending rightAscending
    ((List.perm_ext_iff_of_nodup leftNodup rightNodup).mpr same)
  intro first second _ _ before after
  exact absurd (Nat.lt_trans before after) (Nat.lt_irrefl first)

/-! ## Dropping repetitions -/

/-- Dropping repetitions from a list in weakly ascending order, given what has been
kept so far, the last of it first. -/
theorem ascending_loop {number : Nat} {rest kept : List Nat}
    (weakly : (number :: rest).Pairwise (· ≤ ·)) (descending : (number :: kept).Pairwise (· > ·)) :
    (List.eraseRepsBy.loop (· == ·) number rest kept).Pairwise (· < ·) := by
  induction rest generalizing number kept with
  | nil => exact List.pairwise_reverse.mpr descending
  | cons next rest hypothesis =>
      obtain ⟨least, weaklyRest⟩ := List.pairwise_cons.mp weakly
      rw [List.eraseRepsBy.loop]
      split
      · exact hypothesis (List.pairwise_cons.mpr
          ⟨fun later isMember => least later (List.mem_cons_of_mem _ isMember),
            (List.pairwise_cons.mp weaklyRest).2⟩) descending
      · rename_i different
        have after : number < next :=
          Nat.lt_of_le_of_ne (least next (List.mem_cons_self ..)) (by simpa using different)
        refine hypothesis weaklyRest (List.pairwise_cons.mpr ⟨?_, descending⟩)
        intro earlier isKept
        rcases List.mem_cons.mp isKept with rfl | isKept
        · exact after
        · exact Nat.lt_trans ((List.pairwise_cons.mp descending).1 earlier isKept) after

theorem mem_loop {number : Nat} {rest kept : List Nat} {candidate : Nat} :
    candidate ∈ List.eraseRepsBy.loop (· == ·) number rest kept ↔
      candidate = number ∨ candidate ∈ rest ∨ candidate ∈ kept := by
  induction rest generalizing number kept with
  | nil => simp [List.eraseRepsBy.loop, or_comm]
  | cons next rest hypothesis =>
      rw [List.eraseRepsBy.loop]
      split
      · rename_i same
        obtain rfl : number = next := by simpa using same
        rw [hypothesis, List.mem_cons]
        simp only [or_assoc, or_self_left]
      · rw [hypothesis, List.mem_cons, List.mem_cons]
        simp only [or_assoc, or_left_comm]

namespace TreeMatcher

@[simp] theorem mem_ascending {numbers : List Nat} {number : Nat} :
    number ∈ ascending numbers ↔ number ∈ numbers := by
  have sameMembers : number ∈ numbers.mergeSort (fun left right => decide (left ≤ right)) ↔
      number ∈ numbers := List.mem_mergeSort
  rw [ascending, ← sameMembers]
  cases numbers.mergeSort (fun left right => decide (left ≤ right)) with
  | nil => rfl
  | cons least rest =>
      rw [List.eraseReps, List.eraseRepsBy, mem_loop]
      simp

theorem pairwise_ascending (numbers : List Nat) : (ascending numbers).Pairwise (· < ·) := by
  have weakly : (numbers.mergeSort fun left right => decide (left ≤ right)).Pairwise (· ≤ ·) := by
    have sorted : (numbers.mergeSort fun left right => decide (left ≤ right)).Pairwise
        fun left right => decide (left ≤ right) = true :=
      List.pairwise_mergeSort (by simp; omega) (by simp; omega) numbers
    simpa using sorted
  rw [ascending]
  generalize numbers.mergeSort (fun left right => decide (left ≤ right)) = sorted at weakly
  cases sorted with
  | nil => exact List.Pairwise.nil
  | cons least rest => exact ascending_loop weakly (List.pairwise_singleton ..)

end TreeMatcher

/-! ## Positions -/

namespace ListMatcher

@[simp] theorem mem_positions {wanted : Standing} {standings : List Standing} {number : Nat} :
    number ∈ positions wanted standings ↔ standings[number]? = some wanted := by
  simp only [positions, List.mem_map, List.mem_filter, List.mem_zipIdx_iff_getElem?]
  constructor
  · rintro ⟨⟨standing, found⟩, ⟨at_found, same⟩, rfl⟩
    rw [at_found, eq_of_beq same]
  · intro at_number
    exact ⟨(wanted, number), ⟨at_number, by simp⟩, rfl⟩

theorem pairwise_positions (wanted : Standing) (standings : List Standing) :
    (positions wanted standings).Pairwise (· < ·) := by
  refine List.pairwise_map.mpr (List.Pairwise.filter _ (List.pairwise_map.mp ?_))
  rw [List.zipIdx_map_snd]
  exact List.pairwise_lt_range'

end ListMatcher

end Keystrokes
