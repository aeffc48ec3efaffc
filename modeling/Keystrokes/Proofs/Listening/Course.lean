import Keystrokes.Proofs.Listening.Ledger
import Keystrokes.Proofs.Listening.Removal

/-!
# The course of a delivery

While a delivery goes on, callbacks may register and remove listeners and deliver further
signals, and what they do is written into the same journal.  So what a delivery does itself has
to be told apart from what its callbacks do (`Course`).  It hands its signal to the listeners
that waited for its kind when it began, to each of them once and in the order of their numbers
(`course_of_deliver`).  It does so even to one that has been removed meanwhile
(`handed_though_removed`).

With the ledger this is all there is to say of registering, removing and delivering at a hub that
arises (`keeps_ledger`).  A hub also arises when a callback begins in the middle of a delivery,
so the law holds of what callbacks do, and of what their callbacks do in turn.
-/

set_option autoImplicit false

namespace Keystrokes

variable {α : Type}

/-- The listener to whose responder a signal is handed, with the signal. -/
def Occurrence.handed? : Occurrence α → Option (Listener × Signal)
  | .delivered listener signal => some (listener, signal)
  | _ => none

/-- What is handed to whom, the earliest first. -/
def handed (occurrences : List (Occurrence α)) : List (Listener × Signal) :=
  occurrences.filterMap Occurrence.handed?

@[simp] theorem handed_append (earlier later : List (Occurrence α)) :
    handed (earlier ++ later) = handed earlier ++ handed later :=
  List.filterMap_append

/-- Neither does a callback run, nor is a listener registered or removed. -/
def Occurrence.IsPlain : Occurrence α → Prop
  | .note told => told.IsQuiet
  | .fired .. => False
  | _ => True

theorem Occurrence.IsCalm.isPlain {occurrence : Occurrence α} (isCalm : occurrence.IsCalm) :
    occurrence.IsPlain ∧ occurrence.handed? = none := by
  cases occurrence with
  | note told => exact ⟨isCalm, rfl⟩
  | dropped subscription => exact ⟨trivial, rfl⟩
  | delivered | polled | fired => exact absurd isCalm id

namespace Hub

/-! ## What work does itself -/

/-- The course of some work from one hub to another: what it writes itself, in the order in
which it does so.  In between it runs callbacks, each of them after it has written so. -/
inductive Course (effect : Effect α) : Hub α → List (Occurrence α) → Hub α → Prop where
  | writes {hub next : Hub α} {own : List (Occurrence α)} :
      next.registry = hub.registry → next.journal = hub.journal ++ own →
      (∀ occurrence ∈ own, occurrence.IsPlain) → Course effect hub own next
  | runs {hub next : Hub α} (place : Nat) (firing : Firing α) :
      effect firing.callback (hub.record (.fired place firing)) = .ok next →
      Course effect hub [.fired place firing] next
  | trans {hub middle last : Hub α} {own later : List (Occurrence α)} :
      Course effect hub own middle → Course effect middle later last →
      Course effect hub (own ++ later) last

variable {effect : Effect α} {place now : Nat} {signal : Signal} {hub next last : Hub α}

/-- Whoever serves a responder hands nothing to anybody. -/
theorem course_of_serves (serves : Serves effect place hub next) :
    ∃ own, Course effect hub own next ∧ handed own = [] := by
  induction serves with
  | writes writes =>
      obtain ⟨sameRegistry, written, grows, areCalm⟩ := writes
      refine ⟨written, .writes sameRegistry grows fun occurrence isWritten => ?_,
        List.filterMap_eq_nil_iff.mpr fun occurrence isWritten => ?_⟩
      · exact (areCalm occurrence isWritten).isPlain.1
      · exact (areCalm occurrence isWritten).isPlain.2
  | fired firing ran => exact ⟨_, .runs _ firing ran, rfl⟩
  | trans _ _ first second =>
      obtain ⟨own, course, handsNothing⟩ := first
      obtain ⟨later, courseOn, handsNothingLater⟩ := second
      exact ⟨own ++ later, course.trans courseOn, by rw [handed_append, handsNothing,
        handsNothingLater, List.append_nil]⟩

/-- To hand a signal to a listener is to do so once. -/
theorem course_of_hand {listener : Listener}
    (ran : hand effect now signal hub listener = .ok next) :
    ∃ own, Course effect hub own next ∧ handed own = [(listener, signal)] := by
  obtain ⟨own, course, handsNothing⟩ := course_of_serves (serves_occupy serves_handleAt ran)
  have recorded : Course effect hub [.delivered listener signal]
      (hub.record (.delivered listener signal)) :=
    .writes rfl rfl fun _ isFirst => List.mem_singleton.mp isFirst ▸ trivial
  exact ⟨_, recorded.trans course, by rw [handed_append, handsNothing]; rfl⟩

/-- **A delivery hands its signal to every listener that waits for its kind when it begins**,
once and in their order. -/
theorem course_of_deliver (ran : hub.deliver effect now signal = .ok last) :
    ∃ own, Course effect hub own last ∧
      handed own = (hub.registry.waitingFor signal.kind).map fun listener => (listener, signal) := by
  rw [deliver] at ran
  -- The list stays the same while the hub changes.
  generalize hub.registry.waitingFor signal.kind = listeners at ran ⊢
  induction listeners generalizing hub with
  | nil =>
      obtain rfl : hub = last := by simpa [pure, Except.pure] using ran
      exact ⟨[], .writes rfl (List.append_nil _).symm (by simp), rfl⟩
  | cons listener listeners hypothesis =>
      rw [List.foldlM_cons] at ran
      obtain ⟨middle, ranFirst, ranLater⟩ := bind_eq_ok_iff.mp ran
      obtain ⟨own, course, handsFirst⟩ := course_of_hand ranFirst
      obtain ⟨later, courseOn, handsLater⟩ := hypothesis ranLater
      exact ⟨own ++ later, course.trans courseOn, by rw [handed_append, handsFirst, handsLater]; rfl⟩

/-! ## The law -/

/-- What registering, removing and delivering at a hub do to its ledger. -/
structure KeepsLedger (hub : Hub α) : Prop where
  /-- Numbers are given in ascending order, none of them twice, and the listeners are in
  ascending order.  Those are registered that have got a number and have not been removed. -/
  balanced : hub.ledger.IsBalanced
  listen : ∀ effect now place kind, ∃ next,
    hub.perform effect now (.listen place kind) =
        .ok (next, .listening hub.registry.nextNumber) ∧
      next.ledger = hub.ledger.enter kind place
  subscribe : ∀ effect now name layout settings, ∃ next place,
    hub.perform effect now (.subscribe name layout settings) =
        .ok (next, .subscribed ⟨hub.registry.nextNumber, place⟩) ∧
      next.ledger =
        (hub.ledger.enter settings.event place).release (hub.subscription? name)
  unsubscribe : ∀ effect now name, ∃ next,
    hub.perform effect now (.unsubscribe name) =
        .ok (next, .found (hub.subscription? name).isSome) ∧
      next.ledger = hub.ledger.release (hub.subscription? name)
  /-- Whatever has got a number and has not been removed can be removed, and it alone is. -/
  remove : ∀ effect now number, number ∈ hub.ledger.given → number ∉ hub.ledger.removed →
    ∃ next, hub.perform effect now (.remove number) = .ok (next, .found true) ∧
      next.ledger = hub.ledger.strike number ∧
      ∃ before listener after, listener.number = number ∧
        hub.registry.listeners = before ++ listener :: after ∧
        next.registry.listeners = before ++ after
  removeNothing : ∀ effect now number,
    ¬ (number ∈ hub.ledger.given ∧ number ∉ hub.ledger.removed) →
      hub.perform effect now (.remove number) = .ok (hub, .found false)
  /-- A delivery itself hands its signal to the listeners that wait for its kind when it begins,
  to each of them once and in ascending order.  None of them has got its number meanwhile. -/
  deliver : ∀ effect depth now signal next reply, Acts depth effect →
    hub.perform effect now (.deliver signal) = .ok (next, reply) →
      ∃ own more, Course effect hub own next ∧ next.journal = hub.journal ++ more ∧
        handed own =
          (hub.registry.waitingFor signal.kind).map (fun listener => (listener, signal)) ∧
        (handed own).Pairwise (fun first second => first.1.number < second.1.number) ∧
        ∀ listener ∈ hub.registry.waitingFor signal.kind,
          listener.number ∉ more.filterMap Occurrence.given?

/-- **Every hub that arises keeps its ledger.** -/
theorem keeps_ledger (arises : hub.Arises) : hub.KeepsLedger where
  balanced := arises.isBalanced
  listen := fun _ _ place kind => ⟨_, rfl, hub.ledger_listen place kind⟩
  subscribe := fun _ _ name layout settings => ⟨_, _, rfl, hub.ledger_subscribe name layout settings⟩
  unsubscribe := fun _ _ name => ⟨_, rfl, hub.ledger_unsubscribe name⟩
  remove := by
    intro effect now number isGiven notRemoved
    have isRegistered : hub.registry.contains number = true :=
      (arises.isBalanced.contains_iff number).mpr ⟨isGiven, notRemoved⟩
    obtain ⟨before, listener, after, isNumber, isSplit, isLeft⟩ :=
      arises.isOrderly.inOrder.exists_removed isRegistered
    refine ⟨hub.remove number, ?_, hub.ledger_remove number, before, listener, after, isNumber,
      isSplit, ?_⟩
    · rw [perform, isRegistered]
    · rw [Hub.remove, if_pos isRegistered]
      exact isLeft
  removeNothing := by
    intro effect now number notHeld
    have notRegistered : hub.registry.contains number = false :=
      Bool.eq_false_iff.mpr fun isRegistered =>
        notHeld ((arises.isBalanced.contains_iff number).mp isRegistered)
    rw [perform, Hub.remove, notRegistered]
    rfl
  deliver := by
    intro effect depth now signal next reply acts performed
    obtain ⟨-, more, grows⟩ := goes_perform (keeps_goes acts) performed arises.isOrderly
    obtain ⟨delivered, ran, isDone⟩ := bind_eq_ok_iff.mp performed
    obtain ⟨rfl, -⟩ := Prod.mk.inj (Except.ok.inj isDone)
    obtain ⟨own, course, handsAll⟩ := course_of_deliver ran
    refine ⟨own, more, course, grows.journal, handsAll, ?_, fun listener isWaiting => ?_⟩
    · rw [handsAll]
      exact List.pairwise_map.mpr (arises.isOrderly.inOrder.ascending.filter _)
    · have isListener := (List.mem_filter.mp isWaiting).1
      exact arises.not_given_again (arises.act acts performed) grows.journal isListener

/-- In the course of a delivery a listener is removed, and the signal is handed to it all the
same. -/
theorem keeps_ledger_removing :
    ∃ (hub : Hub Bool) (own : List (Occurrence Bool)), removingHub.Arises ∧
      Acts 1 (runScript removingScript 0 1) ∧
      removingHub.perform (runScript removingScript 0 1) 0 (.deliver (.key keyG)) =
        .ok (hub, .done) ∧
      Course (runScript removingScript 0 1) removingHub own hub ∧
      handed own = [(⟨0, .keyDown, 0⟩, .key keyG), (⟨1, .keyDown, 1⟩, .key keyG)] ∧
      hub.ledger.removed = [1] := by
  obtain ⟨hub, -, delivered, -, isJournal, -⟩ := removing_runs
  have arises : removingHub.Arises := reachable_removingHub.arises
  have acts : Acts 1 (runScript removingScript 0 1) := acts_runScript removingScript 0 1
  obtain ⟨own, -, course, -, handsBoth, -, -⟩ :=
    (keeps_ledger arises).deliver _ 1 0 (.key keyG) hub .done acts delivered
  refine ⟨hub, own, arises, acts, delivered, course, handsBoth, ?_⟩
  rw [ledger, isJournal]
  rfl

/-- **A signal is handed to a listener that has been removed**, by the delivery that was going
on when it was removed. -/
theorem handed_though_removed :
    ∃ (hub : Hub Bool) (before after : List (Occurrence Bool)), removingHub.Reachable ∧
      removingHub.act removingScript 1 0 (.deliver (.key keyG)) = .ok (hub, .done) ∧
      hub.journal = before ++ .delivered ⟨1, .keyDown, 1⟩ (.key keyG) :: after ∧
      1 ∈ before.filterMap Occurrence.removed? := by
  obtain ⟨hub, -, delivered, -, isJournal, -⟩ := removing_runs
  obtain ⟨after, isHanded⟩ : ∃ after, handedG ⟨1, .keyDown, 1⟩ false =
      .delivered ⟨1, .keyDown, 1⟩ (.key keyG) :: after := ⟨_, rfl⟩
  let before := removingHub.journal ++ handedG ⟨0, .keyDown, 0⟩ true
  refine ⟨hub, before ++ [.note (.listenerRemoved 1)], after, reachable_removingHub, delivered, ?_,
    by decide⟩
  rw [isJournal, isHanded, List.append_assoc before]
  rfl

end Hub

end Keystrokes
