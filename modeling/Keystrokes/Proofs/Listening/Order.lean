import Keystrokes.Proofs.Listening.Moments

/-!
# The order of listeners

A registry holds its listeners in ascending order of their numbers, and it has given all of
these numbers (`InOrder`).  No number is given twice, so the number of a listener that is not
registered any more is spent (`IsSpent`), and it remains so whatever comes later
(`Precedes.isSpent`).

Hence every hub that arises is orderly: its registry is in order, and the numbers of the
listeners that have been removed are spent (`Arises.isOrderly`).
-/

set_option autoImplicit false

namespace Keystrokes

/-! ## Registries -/

namespace Registry

variable {registry earlier middle later : Registry}

/-- The listeners have different numbers, in ascending order, and all of them have been
given. -/
structure InOrder (registry : Registry) : Prop where
  ascending : registry.listeners.Pairwise fun first second => first.number < second.number
  numbered : ∀ listener ∈ registry.listeners, listener.number < registry.nextNumber

/-- No number is given to two listeners. -/
theorem InOrder.countP_le_one (inOrder : registry.InOrder) {listeners : List Listener}
    (areRegistered : listeners.Sublist registry.listeners) (number : Nat) :
    (listeners.countP fun listener => listener.number == number) ≤ 1 := by
  have distinct : (listeners.map Listener.number).Nodup :=
    List.pairwise_map.mpr ((inOrder.ascending.sublist areRegistered).imp Nat.ne_of_lt)
  have atMostOnce := List.nodup_iff_count.mp distinct number
  rwa [List.count, List.countP_map] at atMostOnce

theorem InOrder.add (inOrder : registry.InOrder) (kind : EventKind) (place : Nat) :
    (registry.add kind place).InOrder := by
  constructor
  · refine List.pairwise_append.mpr ⟨inOrder.ascending, List.pairwise_singleton .., ?_⟩
    intro listener isListener new isNew
    rw [List.mem_singleton.mp isNew]
    exact inOrder.numbered listener isListener
  · intro listener isListener
    rcases List.mem_append.mp isListener with isOld | isNew
    · exact Nat.lt_succ_of_lt (inOrder.numbered listener isOld)
    · rw [List.mem_singleton.mp isNew]
      exact Nat.lt_succ_self _

theorem InOrder.remove (inOrder : registry.InOrder) (number : Nat) :
    (registry.remove number).InOrder where
  ascending := inOrder.ascending.filter _
  numbered := fun listener isLeft => inOrder.numbered listener (List.mem_filter.mp isLeft).1

/-- A number has been given, and its listener is not registered any more. -/
def IsSpent (registry : Registry) (number : Nat) : Prop :=
  number < registry.nextNumber ∧ ∀ listener ∈ registry.listeners, listener.number ≠ number

/-- A listener has got its number, and it is not registered any more. -/
def IsPast (registry : Registry) (listener : Listener) : Prop :=
  listener.number < registry.nextNumber ∧ listener ∉ registry.listeners

theorem IsSpent.isPast {number : Nat} (isSpent : registry.IsSpent number) {listener : Listener}
    (isNumber : listener.number = number) : registry.IsPast listener :=
  ⟨isNumber ▸ isSpent.1, fun isListener => isSpent.2 listener isListener isNumber⟩

theorem InOrder.isSpent_remove (inOrder : registry.InOrder) {number : Nat}
    (isRegistered : registry.contains number = true) : (registry.remove number).IsSpent number := by
  obtain ⟨listener, isListener, isNumber⟩ := List.any_eq_true.mp isRegistered
  refine ⟨eq_of_beq isNumber ▸ inOrder.numbered listener isListener, fun other isLeft => ?_⟩
  simpa using (List.mem_filter.mp isLeft).2

/-- One registry comes before another: the numbers go on, and the listeners of the other are
listeners of the one or have got their numbers since. -/
structure Precedes (earlier later : Registry) : Prop where
  nextNumber_le : earlier.nextNumber ≤ later.nextNumber
  of_mem : ∀ listener ∈ later.listeners,
    listener ∈ earlier.listeners ∨ earlier.nextNumber ≤ listener.number

theorem Precedes.refl (registry : Registry) : registry.Precedes registry :=
  ⟨Nat.le_refl _, fun _ => .inl⟩

theorem Precedes.trans (first : earlier.Precedes middle) (second : middle.Precedes later) :
    earlier.Precedes later := by
  refine ⟨Nat.le_trans first.nextNumber_le second.nextNumber_le, fun listener isListener => ?_⟩
  rcases second.of_mem listener isListener with isMiddle | isNew
  · exact first.of_mem listener isMiddle
  · exact .inr (Nat.le_trans first.nextNumber_le isNew)

theorem precedes_add (registry : Registry) (kind : EventKind) (place : Nat) :
    registry.Precedes (registry.add kind place) := by
  refine ⟨Nat.le_succ _, fun listener isListener => ?_⟩
  rcases List.mem_append.mp isListener with isOld | isNew
  · exact .inl isOld
  · rw [List.mem_singleton.mp isNew]
    exact .inr (Nat.le_refl _)

theorem precedes_remove (registry : Registry) (number : Nat) :
    registry.Precedes (registry.remove number) :=
  ⟨Nat.le_refl _, fun _ isLeft => .inl (List.mem_filter.mp isLeft).1⟩

theorem Precedes.isPast (precedes : earlier.Precedes later) {listener : Listener}
    (isPast : earlier.IsPast listener) : later.IsPast listener := by
  refine ⟨Nat.lt_of_lt_of_le isPast.1 precedes.nextNumber_le, fun isListener => ?_⟩
  rcases precedes.of_mem listener isListener with isOld | isNew
  · exact isPast.2 isOld
  · exact Nat.not_le_of_lt isPast.1 isNew

theorem Precedes.isSpent (precedes : earlier.Precedes later) {number : Nat}
    (isSpent : earlier.IsSpent number) : later.IsSpent number := by
  refine ⟨Nat.lt_of_lt_of_le isSpent.1 precedes.nextNumber_le, ?_⟩
  intro listener isListener isNumber
  exact (precedes.isPast (isSpent.isPast isNumber)).2 isListener

end Registry

namespace Hub

variable {α : Type}

/-! ## Orderly hubs -/

/-- The registry is in order, and the numbers of removed listeners are spent. -/
structure IsOrderly (hub : Hub α) : Prop where
  inOrder : hub.registry.InOrder
  spent : ∀ number, .note (.listenerRemoved number) ∈ hub.journal → hub.registry.IsSpent number

theorem isOrderly_empty : IsOrderly ({} : Hub α) where
  inOrder := ⟨.nil, by simp⟩
  spent := by simp

theorem precedes_remove (hub : Hub α) (number : Nat) :
    hub.registry.Precedes (hub.remove number).registry := by
  rw [remove]
  split
  · exact hub.registry.precedes_remove number
  · exact .refl _

/-- **Order lasts.** -/
theorem lasting_isOrderly : Lasting (IsOrderly : Hub α → Prop) where
  writes := by
    rintro hub next ⟨sameRegistry, written, grows, areQuiet⟩ isOrderly
    refine ⟨sameRegistry ▸ isOrderly.inOrder, fun number isRemoved => ?_⟩
    rw [grows, List.mem_append] at isRemoved
    rw [sameRegistry]
    rcases isRemoved with isEarlier | isWritten
    · exact isOrderly.spent number isEarlier
    · exact absurd (areQuiet _ isWritten) id
  listen := by
    intro hub place kind isOrderly
    refine ⟨isOrderly.inOrder.add kind place, fun number isRemoved => ?_⟩
    have isEarlier : .note (.listenerRemoved number) ∈ hub.journal := by
      simpa [listen, tell] using isRemoved
    exact (hub.registry.precedes_add kind place).isSpent (isOrderly.spent number isEarlier)
  remove := by
    intro hub number isOrderly
    have precedes := hub.precedes_remove number
    rw [remove] at precedes ⊢
    split at precedes
    · next isRegistered =>
        rw [if_pos isRegistered]
        refine ⟨isOrderly.inOrder.remove number, fun other isRemoved => ?_⟩
        rcases List.mem_append.mp isRemoved with isEarlier | isNow
        · exact precedes.isSpent (isOrderly.spent other isEarlier)
        · obtain rfl : other = number := by simpa using isNow
          exact isOrderly.inOrder.isSpent_remove isRegistered
    · next notRegistered =>
        rw [if_neg notRegistered]
        exact isOrderly

/-- Every hub that arises is orderly. -/
theorem Arises.isOrderly {hub : Hub α} (arises : hub.Arises) : hub.IsOrderly :=
  lasting_isOrderly.of_arises isOrderly_empty arises

end Hub

end Keystrokes
