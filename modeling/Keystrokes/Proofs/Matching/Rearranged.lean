import Keystrokes.Proofs.Matching.Agreement
import Mathlib.Data.Fintype.EquivFin
import Mathlib.Logic.Equiv.Fin.Basic

/-!
# Shortcuts in another order

Shortcuts may be registered in another order.  Each of them gets a new number then
(`newNumber`), and this is all that changes.  The trail does not see the order, since it
depends on which shortcuts there are (`Trail.next_of_same_members`).  The shortcuts typed in
full are the same ones, in ascending order of their new numbers (`rearranges_verdictOn`).

The tree of the shortcuts may well have another shape.  It does not come in here, because
what a matcher answers is told by its list of shortcuts, whatever its kind.
-/

set_option autoImplicit false

namespace Keystrokes

/-! ## Lists in another order -/

/-- A list in another order: what stood at a place stands at the place that the order gives
to it. -/
def rearranged {β : Type} (list : List β) (order : Equiv.Perm (Fin list.length)) : List β :=
  List.ofFn fun place => list.get (order.symm place)

/-- The number that an order gives to what had a number.  A number that nothing had stays. -/
def newNumber {size : Nat} (order : Equiv.Perm (Fin size)) : Equiv.Perm Nat :=
  order.extendDomain Fin.equivSubtype

theorem newNumber_of_lt {size number : Nat} (order : Equiv.Perm (Fin size))
    (inRange : number < size) : newNumber order number = order ⟨number, inRange⟩ :=
  order.extendDomain_apply_image Fin.equivSubtype ⟨number, inRange⟩

theorem newNumber_of_le {size number : Nat} (order : Equiv.Perm (Fin size))
    (outOfRange : size ≤ number) : newNumber order number = number :=
  order.extendDomain_apply_not_subtype Fin.equivSubtype (Nat.not_lt.mpr outOfRange)

/-- One list is another one in another order: what had a number has a new one. -/
def IsRearranged {β : Type} (number : Equiv.Perm Nat) (list arranged : List β) : Prop :=
  ∀ old, arranged[number old]? = list[old]?

theorem isRearranged_rearranged {β : Type} (list : List β) (order : Equiv.Perm (Fin list.length)) :
    IsRearranged (newNumber order) list (rearranged list order) := by
  intro old
  rcases Nat.lt_or_ge old list.length with inRange | outOfRange
  · simp [newNumber_of_lt order inRange, rearranged, inRange]
  · rw [newNumber_of_le order outOfRange, List.getElem?_eq_none outOfRange]
    exact List.getElem?_eq_none (by simpa [rearranged] using outOfRange)

namespace IsRearranged

variable {β : Type} {number : Equiv.Perm Nat} {list arranged : List β}

theorem map {γ : Type} (isRearranged : IsRearranged number list arranged) (change : β → γ) :
    IsRearranged number (list.map change) (arranged.map change) := by
  intro old
  rw [List.getElem?_map, List.getElem?_map, isRearranged old]

/-- A list has the same members in every order. -/
theorem mem_iff (isRearranged : IsRearranged number list arranged) {element : β} :
    element ∈ arranged ↔ element ∈ list := by
  rw [List.mem_iff_getElem?, List.mem_iff_getElem?, number.surjective.exists]
  exact exists_congr fun old => by rw [isRearranged old]

end IsRearranged

/-! ## The answer to shortcuts in another order -/

variable {tracked : Modifiers} {strokes : List Keystroke} {shortcuts arranged : List Shortcut}

section SameMembers

variable (same : ∀ shortcut, shortcut ∈ arranged ↔ shortcut ∈ shortcuts)

include same

theorem possible_of_same_members :
    (verdictOn arranged tracked strokes).possible =
      (verdictOn shortcuts tracked strokes).possible := by
  rw [Bool.eq_iff_iff, possible_iff, possible_iff]
  simp only [same]

theorem leavesProvisional_of_same_members :
    ListMatcher.leavesProvisional (standings arranged tracked strokes) =
      ListMatcher.leavesProvisional (standings shortcuts tracked strokes) := by
  rw [Bool.eq_iff_iff, leavesProvisional_iff, leavesProvisional_iff]
  simp only [same]

/-- **The trail depends on which shortcuts there are**, and not on their order. -/
theorem Trail.next_of_same_members (trail : Trail) (stroke : Keystroke) :
    trail.next arranged tracked stroke = trail.next shortcuts tracked stroke := by
  rw [Trail.next, Trail.next, possible_of_same_members same,
    leavesProvisional_of_same_members same]

end SameMembers

/-- A verdict is told of shortcuts in another order: the same ones are typed in full, in
ascending order of their new numbers. -/
structure Verdict.Rearranges (number : Equiv.Perm Nat) (verdict arranged : Verdict) : Prop where
  matched : arranged.matched.Perm (verdict.matched.map number)
  ascending : arranged.matched.Pairwise (· < ·)
  possible : arranged.possible = verdict.possible

/-- **The answer to some keystrokes is the same in every order**, but for the numbers. -/
theorem rearranges_verdictOn {number : Equiv.Perm Nat}
    (isRearranged : IsRearranged number shortcuts arranged) (strokes : List Keystroke) :
    Verdict.Rearranges number (verdictOn shortcuts tracked strokes)
      (verdictOn arranged tracked strokes) where
  matched := by
    have nodup : ((verdictOn shortcuts tracked strokes).matched.map number).Nodup :=
      List.Nodup.map number.injective ((pairwise_matched ..).imp Nat.ne_of_lt)
    have arrangedNodup : (verdictOn arranged tracked strokes).matched.Nodup :=
      (pairwise_matched ..).imp Nat.ne_of_lt
    refine (List.perm_ext_iff_of_nodup arrangedNodup nodup).mpr fun new => ?_
    -- Every number is the new number of something.
    obtain ⟨old, rfl⟩ := number.surjective new
    rw [List.mem_map_of_injective number.injective, mem_matched, mem_matched, isRearranged old]
  ascending := pairwise_matched ..
  possible := possible_of_same_members fun _ => isRearranged.mem_iff

end Keystrokes
