import Keystrokes.Proofs.Listening.Order

/-!
# Removed listeners

A delivery goes to the listeners that were registered when it began, and so does a poll.  If
one of them is removed meanwhile, its responder may still be reached, once by each delivery
and each poll that is going on (`reached_after_removal_by_callback`).  Nothing that is begun
later reaches it (`not_reached_once_removed`).

What is done from one hub to another reaches only listeners that are registered there or get
their numbers later, except for those that it owes a visit: the rest of the list that a
delivery or a poll goes through (`Grows`).
-/

set_option autoImplicit false

namespace Keystrokes

namespace Hub

variable {α : Type}

/-! ## Stretches of work -/

/-- What a stretch of work writes into the journal.  Callbacks run `within` the responder at a
place, and of responders that are reached.  Listeners of the past are reached only if they are
owed a visit, and a listener that is removed meanwhile is reached at most `bound` times more
often than it is owed a visit. -/
structure Grows (within : Option Nat) (bound : Nat) (owed : List Listener) (hub next : Hub α)
    (more : List (Occurrence α)) : Prop where
  journal : next.journal = hub.journal ++ more
  precedes : hub.registry.Precedes next.registry
  fired : ∀ place firing, .fired place firing ∈ more →
    within = some place ∨ ∃ listener ∈ reached more, listener.place = place
  past : ∀ picks : Listener → Bool,
    (∀ listener, picks listener = true → hub.registry.IsPast listener) →
      (reached more).countP picks ≤ owed.countP picks
  removed : ∀ number before after, more = before ++ .note (.listenerRemoved number) :: after →
    timesReached number after ≤ bound + owed.countP fun listener => listener.number == number

/-- A stretch of work leads from an orderly hub to an orderly hub. -/
def Goes (within : Option Nat) (bound : Nat) (owed : List Listener) (hub next : Hub α) : Prop :=
  hub.IsOrderly → next.IsOrderly ∧ ∃ more, Grows within bound owed hub next more

section

variable {within : Option Nat} {bound : Nat} {owed later : List Listener}
  {hub middle next last : Hub α} {more further : List (Occurrence α)}

/-- Work that reaches nothing. -/
theorem grows_of_unreached (journal : next.journal = hub.journal ++ more)
    (precedes : hub.registry.Precedes next.registry)
    (unreached : ∀ occurrence ∈ more, occurrence.listener? = none)
    (allowed : ∀ place firing, .fired place firing ∈ more → within = some place) :
    Grows within bound [] hub next more where
  journal := journal
  precedes := precedes
  fired := fun place firing isFired => .inl (allowed place firing isFired)
  past := by
    intro picks _
    have isNone : reached more = [] := List.filterMap_eq_nil_iff.mpr unreached
    simp [isNone]
  removed := by
    rintro number before after rfl
    have isNone : timesReached number after = 0 := by
      rw [timesReached, reached, List.filterMap_eq_nil_iff.mpr, List.countP_nil]
      intro occurrence isLater
      exact unreached occurrence (List.mem_append_right _ (List.mem_cons_of_mem _ isLater))
    exact isNone ▸ Nat.zero_le _

theorem Grows.trans (isOrderly : middle.IsOrderly) (first : Grows within bound owed hub middle more)
    (second : Grows within bound later middle last further) :
    Grows within bound (owed ++ later) hub last (more ++ further) where
  journal := by rw [second.journal, first.journal, List.append_assoc]
  precedes := first.precedes.trans second.precedes
  fired := by
    intro place firing isFired
    rw [reached_append]
    rcases List.mem_append.mp isFired with isEarlier | isLater
    · refine (first.fired place firing isEarlier).imp_right ?_
      rintro ⟨listener, isReached, isPlace⟩
      exact ⟨listener, List.mem_append_left _ isReached, isPlace⟩
    · refine (second.fired place firing isLater).imp_right ?_
      rintro ⟨listener, isReached, isPlace⟩
      exact ⟨listener, List.mem_append_right _ isReached, isPlace⟩
  past := by
    intro picks arePast
    rw [reached_append, List.countP_append, List.countP_append]
    refine Nat.add_le_add (first.past picks arePast) (second.past picks ?_)
    exact fun listener isPicked => first.precedes.isPast (arePast listener isPicked)
  removed := by
    intro number before after isSplit
    rw [List.countP_append]
    rcases List.append_eq_append_iff.mp isSplit with ⟨rest, -, isLater⟩ | ⟨rest, isEarlier, isRest⟩
    · have inSecond := second.removed number rest after isLater
      omega
    · cases rest with
      | nil =>
          have inSecond := second.removed number [] after isRest.symm
          omega
      | cons occurrence rest =>
          obtain ⟨rfl, isAfter⟩ := List.cons.inj isRest
          -- What comes after the first stretch finds the number spent.
          have inFirst := first.removed number before rest isEarlier
          have isRemoved : .note (.listenerRemoved number) ∈ middle.journal := by
            simp [first.journal, isEarlier]
          have isSpent := isOrderly.spent number isRemoved
          have owedOnly := second.past (fun listener => listener.number == number)
            fun listener isNumber => isSpent.isPast (eq_of_beq isNumber)
          rw [isAfter, List.append_eq, timesReached_append]
          rw [← timesReached] at owedOnly
          omega

theorem Goes.trans (first : Goes within bound owed hub middle)
    (second : Goes within bound later middle last) :
    Goes within bound (owed ++ later) hub last := by
  intro isOrderly
  obtain ⟨middleOrderly, more, grows⟩ := first isOrderly
  obtain ⟨lastOrderly, further, growsOn⟩ := second middleOrderly
  exact ⟨lastOrderly, more ++ further, grows.trans middleOrderly growsOn⟩

theorem Goes.andThen (first : Goes within bound owed hub middle)
    (second : Goes within bound [] middle last) : Goes within bound owed hub last := by
  simpa using first.trans second

/-- What is done to no responder is done to any. -/
theorem Goes.mono (goes : Goes none bound owed hub next) : Goes within bound owed hub next := by
  intro isOrderly
  obtain ⟨nextOrderly, more, grows⟩ := goes isOrderly
  refine ⟨nextOrderly, more, grows.journal, grows.precedes, ?_, grows.past, grows.removed⟩
  intro place firing isFired
  exact (grows.fired place firing isFired).imp_left fun isNone => absurd isNone (by simp)

theorem goes_of_writes (writes : Writes Occurrence.IsCalm hub next) :
    Goes within bound [] hub next := by
  intro isOrderly
  refine ⟨lasting_isOrderly.calm writes isOrderly, ?_⟩
  obtain ⟨sameRegistry, written, grows, areCalm⟩ := writes
  refine ⟨written, grows_of_unreached grows (sameRegistry ▸ .refl _) ?_ ?_⟩
  · intro occurrence isWritten
    have isCalm := areCalm occurrence isWritten
    cases occurrence with
    | note | dropped | fired => rfl
    | delivered | polled => exact absurd isCalm id
  · intro place firing isWritten
    exact absurd (areCalm _ isWritten) id

theorem goes_of_arranges (arranges : Arranges hub next) : Goes within bound [] hub next := by
  induction arranges with
  | writes writes => exact goes_of_writes writes
  | listen hub place kind =>
      intro isOrderly
      refine ⟨lasting_isOrderly.listen place kind isOrderly, _,
        grows_of_unreached rfl (hub.registry.precedes_add kind place) ?_ (by simp)⟩
      simp [Occurrence.listener?]
  | remove hub number =>
      intro isOrderly
      refine ⟨lasting_isOrderly.remove number isOrderly, ?_⟩
      have precedes := hub.precedes_remove number
      rw [remove] at precedes ⊢
      split at precedes
      · next isRegistered =>
          rw [if_pos isRegistered]
          exact ⟨_, grows_of_unreached rfl precedes (by simp [Occurrence.listener?]) (by simp)⟩
      · next notRegistered =>
          rw [if_neg notRegistered]
          exact ⟨[], grows_of_unreached (List.append_nil _).symm precedes (by simp) (by simp)⟩
  | trans _ _ first second => exact first.trans second

/-! ## Visits -/

variable {effect : Effect α}

theorem Goes.refl (hub : Hub α) : Goes within bound [] hub hub :=
  goes_of_writes (hub.writes_nothing hub.stations hub.kept)

/-- Whoever serves a responder runs callbacks of no other responder, unless it is reached. -/
theorem goes_of_serves (keeps : Keeps (Goes none bound []) effect) {place : Nat}
    (serves : Serves effect place hub next) : Goes (some place) bound [] hub next := by
  induction serves with
  | writes writes => exact goes_of_writes writes
  | trans _ _ first second => exact first.andThen second
  | @fired hub next firing ran =>
      have recording : Goes (some place) bound [] hub (hub.record (.fired place firing)) := by
        intro isOrderly
        refine ⟨lasting_isOrderly.writes (hub.writes_record trivial) isOrderly, _,
          grows_of_unreached rfl (.refl _) (by simp [Occurrence.listener?]) ?_⟩
        intro other firing isFired
        obtain ⟨rfl, -⟩ := Occurrence.fired.inj (List.mem_singleton.mp isFired)
        rfl
      exact recording.andThen (keeps ran).mono

/-- A visit reaches its listener, and so callbacks of its responder run. -/
theorem goes_of_visits (keeps : Keeps (Goes none bound []) effect) {listener : Listener}
    (visits : Visits effect hub listener next) : Goes none bound [listener] hub next := by
  intro isOrderly
  obtain ⟨occurrence, isReached, serves⟩ := visits
  have notRemoval : occurrence.IsQuiet := by
    cases occurrence with
    | note | dropped => simp [Occurrence.listener?] at isReached
    | fired | delivered | polled => trivial
  have recorded : (hub.record occurrence).IsOrderly :=
    lasting_isOrderly.writes (hub.writes_record notRemoval) isOrderly
  obtain ⟨nextOrderly, more, grows⟩ := goes_of_serves keeps serves recorded
  have reachedFirst : reached (occurrence :: more) = listener :: reached more := by
    simp [reached, isReached]
  refine ⟨nextOrderly, occurrence :: more, by simp [grows.journal, record], grows.precedes,
    fun place firing isFired => ?_, fun picks arePast => ?_, fun number before after isSplit => ?_⟩
  · rw [reachedFirst]
    rcases List.mem_cons.mp isFired with rfl | isLater
    · simp [Occurrence.listener?] at isReached
    · right
      rcases grows.fired place firing isLater with isPlace | ⟨other, isOther, isPlace⟩
      · exact ⟨listener, List.mem_cons_self, Option.some.inj isPlace⟩
      · exact ⟨other, List.mem_cons_of_mem _ isOther, isPlace⟩
  · have later := grows.past picks arePast
    rw [reachedFirst, List.countP_cons, List.countP_singleton]
    simp only [List.countP_nil] at later
    omega
  · cases before with
    | nil =>
        obtain ⟨rfl, -⟩ := List.cons.inj isSplit
        simp [Occurrence.listener?] at isReached
    | cons first before =>
        obtain ⟨-, isLater⟩ := List.cons.inj isSplit
        have later := grows.removed number before after isLater
        simp only [List.countP_nil] at later
        omega

/-- Whoever goes through a list of listeners owes each of them a visit. -/
theorem goes_through {step : Hub α → Listener → Except Stall (Hub α)}
    (goes : ∀ {hub listener next}, step hub listener = .ok next →
      Goes none bound [listener] hub next)
    {listeners : List Listener} (ran : listeners.foldlM step hub = .ok last) :
    Goes none bound listeners hub last := by
  induction listeners generalizing hub with
  | nil =>
      obtain rfl : hub = last := by simpa [pure, Except.pure] using ran
      exact Goes.refl hub
  | cons listener listeners hypothesis =>
      rw [List.foldlM_cons] at ran
      obtain ⟨middle, visited, ranLater⟩ := bind_eq_ok_iff.mp ran
      exact (goes visited).trans (hypothesis ranLater)

/-- **Whoever goes through listeners that are registered at first reaches each of them at most
once after its removal**, and callbacks on the way do so up to their own bound. -/
theorem Goes.settle {listeners : List Listener} (goes : Goes none bound listeners hub last)
    (areRegistered : listeners.Sublist hub.registry.listeners) :
    Goes none (bound + 1) [] hub last := by
  intro isOrderly
  obtain ⟨lastOrderly, more, grows⟩ := goes isOrderly
  refine ⟨lastOrderly, more, grows.journal, grows.precedes, grows.fired, fun picks arePast => ?_,
    fun number before after isSplit => ?_⟩
  · refine Nat.le_trans (grows.past picks arePast) (Nat.le_of_eq ?_)
    rw [List.countP_nil, List.countP_eq_zero]
    intro listener isListed isPicked
    exact (arePast listener isPicked).2 (areRegistered.subset isListed)
  · have later := grows.removed number before after isSplit
    have once := isOrderly.inOrder.countP_le_one areRegistered number
    simp only [List.countP_nil]
    omega

/-! ## Whatever is begun -/

/-- What owes no visit reaches only listeners that are registered or get their numbers later. -/
theorem Grows.registered_or_new (grows : Grows within bound [] hub next more) {listener : Listener}
    (isReached : listener ∈ reached more) :
    listener ∈ hub.registry.listeners ∨ hub.registry.nextNumber ≤ listener.number := by
  refine Classical.byContradiction fun isNeither => ?_
  obtain ⟨notRegistered, isOld⟩ := not_or.mp isNeither
  have isPast : ∀ other, (other == listener) = true → hub.registry.IsPast other := by
    intro other isListener
    exact eq_of_beq isListener ▸ ⟨Nat.lt_of_not_le isOld, notRegistered⟩
  have notReached := List.countP_eq_zero.mp (Nat.le_zero.mp (grows.past (· == listener) isPast))
  exact notReached listener isReached (beq_self_eq_true listener)

theorem Grows.ne_of_isSpent (grows : Grows within bound [] hub next more) {number : Nat}
    (isSpent : hub.registry.IsSpent number) {listener : Listener}
    (isReached : listener ∈ reached more) : listener.number ≠ number := by
  rcases grows.registered_or_new isReached with isRegistered | isNew
  · exact isSpent.2 listener isRegistered
  · exact Nat.ne_of_gt (Nat.lt_of_lt_of_le isSpent.1 isNew)

theorem goes_perform (keeps : Keeps (Goes none bound []) effect) {now : Nat} {action : Action α}
    {reply : Reply} (performed : hub.perform effect now action = .ok (next, reply)) :
    Goes none (bound + 1) [] hub next := by
  rcases arranges_or_goes_through performed with
    arranges | ⟨listeners, visit, areRegistered, ran, visits⟩
  · exact goes_of_arranges arranges
  · have through : Goes none bound listeners hub next :=
      goes_through (fun visited => goes_of_visits keeps (visits visited)) ran
    exact through.settle areRegistered

theorem goes_of_kind {kind : Effect α → Prop}
    (keeps : ∀ {effect}, kind effect → Keeps (Goes none bound []) effect)
    (leads : Leads kind hub last) : Goes none (bound + 1) [] hub last := by
  induction leads with
  | refl hub => exact Goes.refl hub
  | act isKind performed _ hypothesis =>
      exact (goes_perform (keeps isKind) performed).andThen hypothesis

/-- Callbacks that run within one another to some depth go through as many lists at a time. -/
theorem keeps_goes {depth : Nat} (acts : Acts depth effect) :
    Keeps (Goes none depth []) effect := by
  induction depth generalizing effect with
  | zero =>
      intro callback hub next ran
      rw [acts callback hub next ran]
      exact Goes.refl hub
  | succ depth hypothesis =>
      intro callback hub next ran
      exact goes_of_kind hypothesis (acts callback hub next ran)

end

/-! ## A listener that is removed by a callback -/

/-- The script of two callbacks, the first of which removes a listener. -/
def removingScript : Bool → List (Action Bool)
  | true => [.remove 1]
  | false => []

/-- A hub with two subscriptions to one key.  The callback of the first one removes the listener
of the second one. -/
def removingHub : Hub Bool :=
  let first : Layout Bool := .flat ⟨[("g", true)]⟩
  let second : Layout Bool := .flat ⟨[("g", false)]⟩
  ((subscribe {} "first" first {}).1.subscribe "second" second {}).1

/-- The event of the key. -/
def keyG : KeyEvent :=
  { key := "g", code := "KeyG" }

/-- What is written when the event is handed to one of the two: its callback runs. -/
def handedG (listener : Listener) (callback : Bool) : List (Occurrence Bool) :=
  [.delivered listener (.key keyG), .note (.struck .list (keyG.stroke Modifiers.all)),
    .note (.restarted .list 1), .note (.firing "g"), .fired listener.place ⟨0, callback, keyG⟩]

theorem reachable_removingHub : removingHub.Reachable := by
  let first : Layout Bool := .flat ⟨[("g", true)]⟩
  let second : Layout Bool := .flat ⟨[("g", false)]⟩
  let subscribed := subscribe {} "first" first {}
  have acts : Acts 1 (runScript removingScript 0 1) := acts_runScript removingScript 0 1
  have firstMade : perform (runScript removingScript 0 1) 0 {} (.subscribe "first" first {}) =
      .ok (subscribed.1, .subscribed subscribed.2) := rfl
  have secondMade : subscribed.1.perform (runScript removingScript 0 1) 0
      (.subscribe "second" second {}) = .ok (removingHub, .subscribed ⟨1, 1⟩) := rfl
  exact ⟨1, .act acts firstMade (.act acts secondMade (.refl _))⟩

/-- The event is delivered twice.  The first delivery goes on to the listener that has just been
removed, and the second one does not. -/
theorem removing_runs :
    ∃ first second : Hub Bool,
      removingHub.act removingScript 1 0 (.deliver (.key keyG)) = .ok (first, .done) ∧
      first.act removingScript 1 0 (.deliver (.key keyG)) = .ok (second, .done) ∧
      first.journal = (removingHub.journal ++ handedG ⟨0, .keyDown, 0⟩ true) ++
        .note (.listenerRemoved 1) :: handedG ⟨1, .keyDown, 1⟩ false ∧
      second.journal = first.journal ++ handedG ⟨0, .keyDown, 0⟩ true := by
  let deliver (hub : Hub Bool) := hub.act removingScript 1 0 (.deliver (.key keyG))
  have runs : ((deliver removingHub).toOption.bind fun first => (deliver first.1).toOption.map
      fun second => decide (first.2 = .done ∧ second.2 = .done ∧
        first.1.journal = (removingHub.journal ++ handedG ⟨0, .keyDown, 0⟩ true) ++
          .note (.listenerRemoved 1) :: handedG ⟨1, .keyDown, 1⟩ false ∧
        second.1.journal = first.1.journal ++ handedG ⟨0, .keyDown, 0⟩ true)) = some true := by
    decide +kernel
  obtain ⟨⟨first, firstReply⟩, isFirst, runsAgain⟩ := Option.bind_eq_some_iff.mp runs
  obtain ⟨⟨second, secondReply⟩, isSecond, isDone⟩ := Option.map_eq_some_iff.mp runsAgain
  obtain ⟨rfl, rfl, firstJournal, secondJournal⟩ := of_decide_eq_true isDone
  have eq_ok : ∀ {outcome : Except Stall (Hub Bool × Reply)} {value},
      outcome.toOption = some value → outcome = .ok value := by
    rintro (stall | outcome) value isSome
    · exact absurd isSome (by simp [Except.toOption])
    · exact congrArg Except.ok (Option.some.inj isSome)
  exact ⟨first, second, eq_ok isFirst, eq_ok isSecond, firstJournal, secondJournal⟩

/-! ## The end of a listener -/

/-- **Nothing that is begun after the removal of a listener reaches it.**  What is begun at a hub
that arises reaches only listeners that are registered there or get their numbers later, and a
callback runs only of a responder that is reached through one of them.  A delivery or a poll that
is going on when a listener is removed may still reach it, but all of them together do so at most
once for each level at which they are within one another. -/
theorem not_reached_once_removed {hub last : Hub α} {depth : Nat} (arises : hub.Arises)
    (leads : Leads (Acts depth) hub last) :
    (∀ (effect : Effect α) (now number : Nat) (next : Hub α),
      hub.perform effect now (.remove number) = .ok (next, .found true) →
        .note (.listenerRemoved number) ∈ next.journal) ∧
      ∃ more, last.journal = hub.journal ++ more ∧
        (∀ listener ∈ reached more,
          listener ∈ hub.registry.listeners ∨ hub.registry.nextNumber ≤ listener.number) ∧
        (∀ number, .note (.listenerRemoved number) ∈ hub.journal →
          timesReached number more = 0 ∧ ∀ place firing, .fired place firing ∈ more →
            ∃ listener ∈ reached more, listener.place = place ∧ listener.number ≠ number) ∧
        ∀ number before after, more = before ++ .note (.listenerRemoved number) :: after →
          timesReached number after ≤ depth + 1 := by
  refine ⟨fun effect now number next performed => ?_, ?_⟩
  · obtain ⟨rfl, isFound⟩ := Prod.mk.inj (Except.ok.inj performed)
    rw [remove, if_pos (Reply.found.inj isFound)]
    exact List.mem_append_right _ (List.mem_singleton_self _)
  · have isOrderly := arises.isOrderly
    obtain ⟨-, more, grows⟩ := goes_of_kind keeps_goes leads isOrderly
    refine ⟨more, grows.journal, fun _ => grows.registered_or_new, fun number isRemoved => ?_, ?_⟩
    · have isSpent := isOrderly.spent number isRemoved
      refine ⟨timesReached_eq_zero_iff.mpr fun _ => grows.ne_of_isSpent isSpent, ?_⟩
      intro place firing isFired
      obtain isNone | ⟨listener, isReached, isPlace⟩ := grows.fired place firing isFired
      · exact absurd isNone (by simp)
      · exact ⟨listener, isReached, isPlace, grows.ne_of_isSpent isSpent isReached⟩
    · intro number before after isSplit
      exact grows.removed number before after isSplit

/-- The delivery that is going on when a callback removes a listener reaches the listener once
more, and a callback of its responder runs. -/
theorem reached_after_removal_by_callback :
    ∃ (hub : Hub Bool) (before after : List (Occurrence Bool)) (firing : Firing Bool),
      removingHub.Reachable ∧
      removingHub.act removingScript 1 0 (.deliver (.key keyG)) = .ok (hub, .done) ∧
      hub.journal = before ++ .note (.listenerRemoved 1) :: after ∧
      timesReached 1 after = 1 ∧ .fired 1 firing ∈ after := by
  obtain ⟨hub, -, delivered, -, isSplit, -⟩ := removing_runs
  refine ⟨hub, _, _, ⟨0, false, keyG⟩, reachable_removingHub, delivered, isSplit, by decide, ?_⟩
  simp [handedG]

/-- The next delivery does not reach it. -/
theorem not_reached_once_removed_by_callback :
    ∃ hub last : Hub Bool, hub.Arises ∧ Leads (Acts 1) hub last ∧
      .note (.listenerRemoved 1) ∈ hub.journal ∧
      ∃ more, last.journal = hub.journal ++ more ∧ timesReached 0 more = 1 ∧
        timesReached 1 more = 0 := by
  obtain ⟨hub, last, delivered, deliveredAgain, isSplit, isMore⟩ := removing_runs
  have acts : Acts 1 (runScript removingScript 0 1) := acts_runScript removingScript 0 1
  have arises : hub.Arises := reachable_removingHub.arises.act acts delivered
  have leads : Leads (Acts 1) hub last := .act acts deliveredAgain (.refl _)
  have isRemoved : .note (.listenerRemoved 1) ∈ hub.journal := by simp [isSplit]
  obtain ⟨-, more, journal, -, unreached, -⟩ := not_reached_once_removed arises leads
  refine ⟨hub, last, arises, leads, isRemoved, more, journal, ?_, (unreached 1 isRemoved).1⟩
  obtain rfl : handedG ⟨0, .keyDown, 0⟩ true = more :=
    List.append_cancel_left (isMore.symm.trans journal)
  decide

end Hub

end Keystrokes
