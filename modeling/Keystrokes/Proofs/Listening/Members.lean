import Keystrokes.Proofs.Listening.LeaveAlone
import Keystrokes.Proofs.Responding.Run

/-!
# The members of a hub

A subscription makes a member of the hub: a responder that is registered for one kind of
event as long as the subscription is kept.  When every responder has been made by a
subscription, the number of its listener is its place, and the hub is nothing but the list
of its members (`hosting`).

When callbacks leave the hub alone, an input goes to each member that listens to it, in
the order of the members, and each does with it what its responder does by itself
(`give_hosting`).
-/

set_option autoImplicit false

namespace Keystrokes

variable {α : Type}

/-- Whether an input is for those who wait for a kind of event.  A poll is for all. -/
def Responder.Input.concerns (kind : EventKind) : Responder.Input → Bool
  | .signal given _ => kind == given.kind
  | .poll _ => true

/-- The callback that ran, with the place of its responder, if it is that which happened. -/
def Occurrence.firing? : Occurrence α → Option (Nat × Firing α)
  | .fired place firing => some (place, firing)
  | _ => none

namespace Hub

/-! ## Members -/

/-- A subscription that was made at a hub, with its responder. -/
structure Member (α : Type) where
  name : String
  kind : EventKind
  responder : Responder α
  kept : Bool := true

namespace Member

/-- The end of a subscription. -/
def close (member : Member α) : Member α :=
  { member with responder := member.responder.detach.1, kept := false }

/-- What becomes of a member when the subscription under a name is dropped. -/
def leave (name : String) (member : Member α) : Member α :=
  if member.kept && member.name == name then member.close else member

/-- Whether a member gets an input. -/
def listens (member : Member α) (input : Responder.Input) : Bool :=
  member.kept && input.concerns member.kind

/-- What becomes of a member when an input is given to the hub. -/
def hear (input : Responder.Input) (member : Member α) : Member α :=
  if member.listens input then
    { member with responder := (member.responder.respond input).1 }
  else member

/-- The callbacks of a member that run when an input is given to the hub. -/
def runs (input : Responder.Input) (member : Member α) : List (Firing α) :=
  if member.listens input then Responder.firings (member.responder.respond input).2 else []

/-- The station of a member between two steps. -/
def station (member : Member α) : Station α :=
  ⟨member.responder, false⟩

/-- The listener of a member with its number, as long as the subscription is kept. -/
def listener? : Member α × Nat → Option Listener
  | (member, number) => if member.kept then some ⟨number, member.kind, number⟩ else none

/-- The entry under which a subscription is kept, as long as it is. -/
def entry? : Member α × Nat → Option (String × Subscription)
  | (member, number) => if member.kept then some (member.name, ⟨number, number⟩) else none

theorem leave_of_kept {member : Member α} (isKept : member.kept = true) :
    member.leave member.name = member.close := by
  simp [leave, isKept]

theorem leave_of_ne {name : String} {member : Member α}
    (notNamed : member.kept = true → member.name ≠ name) : member.leave name = member := by
  cases isKept : member.kept with
  | false => simp [leave, isKept]
  | true => simp [leave, notNamed isKept]

/-- Nobody leaves when no member is kept under the name. -/
theorem map_leave_of_ne {name : String} {members : List (Member α)}
    (notNamed : ∀ member ∈ members, member.kept = true → member.name ≠ name) :
    members.map (leave name) = members :=
  (List.map_congr_left fun member isMember => leave_of_ne (notNamed member isMember)).trans
    (List.map_id members)

theorem kept_of_leave {name : String} {member : Member α}
    (isKept : (member.leave name).kept = true) : member.kept = true ∧ member.name ≠ name := by
  rw [leave] at isKept
  split at isKept
  · exact absurd isKept (by simp [close])
  · next notLeaving => exact ⟨isKept, fun isNamed => notLeaving (by simp [isKept, isNamed])⟩

theorem name_leave (name : String) (member : Member α) :
    (member.leave name).name = member.name := by
  rw [leave]
  split <;> rfl

theorem name_hear (input : Responder.Input) (member : Member α) :
    (member.hear input).name = member.name := by
  rw [hear]
  split <;> rfl

theorem kind_hear (input : Responder.Input) (member : Member α) :
    (member.hear input).kind = member.kind := by
  rw [hear]
  split <;> rfl

theorem kept_hear (input : Responder.Input) (member : Member α) :
    (member.hear input).kept = member.kept := by
  rw [hear]
  split <;> rfl

end Member

/-- No two members are kept under one name. -/
def Apart (members : List (Member α)) : Prop :=
  members.Pairwise fun first second =>
    first.kept = true → second.kept = true → first.name ≠ second.name

theorem Apart.leave {members : List (Member α)} (apart : Apart members) (name : String) :
    Apart (members.map (Member.leave name)) := by
  refine List.pairwise_map.mpr (apart.imp fun distinct firstKept secondKept => ?_)
  rw [Member.name_leave, Member.name_leave]
  exact distinct (Member.kept_of_leave firstKept).1 (Member.kept_of_leave secondKept).1

theorem Apart.hear {members : List (Member α)} (apart : Apart members)
    (input : Responder.Input) : Apart (members.map (Member.hear input)) := by
  refine List.pairwise_map.mpr (apart.imp fun distinct firstKept secondKept => ?_)
  rw [Member.kept_hear] at firstKept secondKept
  rw [Member.name_hear, Member.name_hear]
  exact distinct firstKept secondKept

/-- The members when one more joins them, who takes over its name. -/
def joined (members : List (Member α)) (newcomer : Member α) : List (Member α) :=
  members.map (Member.leave newcomer.name) ++ [newcomer]

theorem Apart.join {members : List (Member α)} (apart : Apart members) (newcomer : Member α) :
    Apart (joined members newcomer) := by
  refine List.pairwise_append.mpr ⟨apart.leave newcomer.name, List.pairwise_singleton _ _, ?_⟩
  intro left isMember right isNewcomer leftKept _
  obtain ⟨member, -, rfl⟩ := List.mem_map.mp isMember
  obtain rfl := List.mem_singleton.mp isNewcomer
  rw [Member.name_leave]
  exact (Member.kept_of_leave leftKept).2

/-! ## The hub of some members -/

/-- The listeners of members whose numbers start somewhere. -/
def listenersFrom (start : Nat) (members : List (Member α)) : List Listener :=
  (members.zipIdx start).filterMap Member.listener?

/-- The entries of the subscriptions of members whose numbers start somewhere. -/
def entriesFrom (start : Nat) (members : List (Member α)) : List (String × Subscription) :=
  (members.zipIdx start).filterMap Member.entry?

/-- The hub of some members, of which some are kept by name, with its journal. -/
def hosting (members named : List (Member α)) (journal : List (Occurrence α)) : Hub α where
  registry := ⟨listenersFrom 0 members, members.length⟩
  stations := members.map Member.station
  kept := entriesFrom 0 named
  journal := journal

theorem listenersFrom_append (start : Nat) (members more : List (Member α)) :
    listenersFrom start (members ++ more) =
      listenersFrom start members ++ listenersFrom (start + members.length) more := by
  rw [listenersFrom, List.zipIdx_append, List.filterMap_append]
  rfl

theorem listenersFrom_cons (start : Nat) (member : Member α) (members : List (Member α)) :
    listenersFrom start (member :: members) =
      (Member.listener? (member, start)).toList ++ listenersFrom (start + 1) members := by
  rw [listenersFrom, List.zipIdx_cons, List.filterMap_cons]
  cases Member.listener? (member, start) <;> rfl

theorem entriesFrom_cons (start : Nat) (member : Member α) (members : List (Member α)) :
    entriesFrom start (member :: members) =
      (Member.entry? (member, start)).toList ++ entriesFrom (start + 1) members := by
  rw [entriesFrom, List.zipIdx_cons, List.filterMap_cons]
  cases Member.entry? (member, start) <;> rfl

theorem entriesFrom_append (start : Nat) (members more : List (Member α)) :
    entriesFrom start (members ++ more) =
      entriesFrom start members ++ entriesFrom (start + members.length) more := by
  rw [entriesFrom, List.zipIdx_append, List.filterMap_append]
  rfl

theorem number_of_mem_listenersFrom {start : Nat} {members : List (Member α)}
    {listener : Listener} (isMember : listener ∈ listenersFrom start members) :
    start ≤ listener.number ∧ listener.number < start + members.length := by
  obtain ⟨⟨member, number⟩, isNumbered, isListener⟩ := List.mem_filterMap.mp isMember
  obtain ⟨-, rfl⟩ : member.kept = true ∧ (⟨number, member.kind, number⟩ : Listener) = listener := by
    simpa [Member.listener?] using isListener
  obtain ⟨low, high, -⟩ := List.mem_zipIdx isNumbered
  exact ⟨low, high⟩

theorem mem_entriesFrom {start : Nat} {members : List (Member α)}
    {entry : String × Subscription} (isEntry : entry ∈ entriesFrom start members) :
    ∃ member ∈ members, member.kept = true ∧ member.name = entry.1 := by
  obtain ⟨⟨member, number⟩, isNumbered, isTheirs⟩ := List.mem_filterMap.mp isEntry
  obtain ⟨isKept, rfl⟩ :
      member.kept = true ∧ (member.name, (⟨number, number⟩ : Subscription)) = entry := by
    simpa [Member.entry?] using isTheirs
  exact ⟨member, List.fst_mem_of_mem_zipIdx isNumbered, isKept, rfl⟩

/-- Changing what stands between two parts of a list. -/
theorem modify_between {β : Type} (before after : List β) (middle : β) (change : β → β) :
    (before ++ middle :: after).modify before.length change = before ++ change middle :: after := by
  rw [List.modify_eq_take_cons_drop (by simp)]
  simp

theorem station_between (before after : List (Member α)) (member : Member α) :
    ((before ++ member :: after).map Member.station)[before.length]? = some member.station := by
  simp

/-! ## Giving an input -/

/-- Give an input to the responder of a listener. -/
def visit (input : Responder.Input) (hub : Hub α) (listener : Listener) :
    Except Stall (Hub α) :=
  match input with
  | .signal signal now => hand leaveAlone now signal hub listener
  | .poll now => ask leaveAlone now hub listener

/-- What is written when an input is given to the responder of a listener. -/
def visitNote (input : Responder.Input) (listener : Listener) : Occurrence α :=
  match input with
  | .signal signal _ => .delivered listener signal
  | .poll _ => .polled listener

/-- All that happens when a member gets an input. -/
def heardBy (input : Responder.Input) : Member α × Nat → List (Occurrence α)
  | (member, number) =>
      if member.listens input then
        visitNote input ⟨number, member.kind, number⟩ ::
          (member.responder.respond input).2.map (Report.occurrence number)
      else []

theorem visit_eq (input : Responder.Input) (hub : Hub α) (listener : Listener)
    {responder : Responder α} (found : hub.stations[listener.place]? = some ⟨responder, false⟩) :
    visit input hub listener =
      .ok ((hub.record (visitNote input listener)).become listener.place
        (responder.respond input).1 (responder.respond input).2) := by
  cases input with
  | signal signal now =>
      exact occupy_eq (fun _ isThere => handleAt_leaveAlone isThere signal now) found
  | poll now =>
      exact occupy_eq (fun _ isThere => pollResponder_leaveAlone isThere now) found

/-- A member that listens to an input is visited once, and one that does not never is. -/
theorem visit_member (input : Responder.Input) (registry : Registry)
    (kept : List (String × Subscription)) (done todo : List (Member α)) (member : Member α)
    (journal : List (Occurrence α)) :
    ((Member.listener? (member, done.length)).toList.filter fun listener =>
        input.concerns listener.kind).foldlM (visit input)
        ⟨registry, (done ++ member :: todo).map Member.station, kept, journal⟩ =
      .ok ⟨registry, (done ++ member.hear input :: todo).map Member.station, kept,
        journal ++ heardBy input (member, done.length)⟩ := by
  cases isListening : member.listens input with
  | true =>
      obtain ⟨isKept, isConcerned⟩ : member.kept = true ∧ input.concerns member.kind = true := by
        simpa [Member.listens] using isListening
      have listed : (Member.listener? (member, done.length)).toList.filter
          (fun listener => input.concerns listener.kind) =
            [⟨done.length, member.kind, done.length⟩] := by
        simp [Member.listener?, isKept, isConcerned]
      have visited := visit_eq input
        ⟨registry, (done ++ member :: todo).map Member.station, kept, journal⟩
        ⟨done.length, member.kind, done.length⟩ (station_between done todo member)
      have changed := modify_between (done.map Member.station) (todo.map Member.station)
        member.station fun station =>
          { station with responder := (member.responder.respond input).1 }
      rw [List.length_map] at changed
      rw [listed, List.foldlM_cons, visited]
      refine congrArg Except.ok ?_
      simp only [become, record, List.map_append, List.map_cons, changed, Member.hear, heardBy,
        isListening, if_true, List.append_assoc, List.singleton_append]
      rfl
  | false =>
      have listed : (Member.listener? (member, done.length)).toList.filter
          (fun listener => input.concerns listener.kind) = [] := by
        cases isKept : member.kept with
        | false => simp [Member.listener?, isKept]
        | true =>
            have notConcerned : input.concerns member.kind = false := by
              simpa [Member.listens, isKept] using isListening
            simp [Member.listener?, isKept, notConcerned]
      have unchanged : member.hear input = member := by simp [Member.hear, isListening]
      have unheard : heardBy input (member, done.length) = [] := by simp [heardBy, isListening]
      rw [listed, unchanged, unheard, List.append_nil]
      rfl

/-- **Every member gets its share of an input.**  The members that come first have had
theirs already. -/
theorem visits_members (input : Responder.Input) (registry : Registry)
    (kept : List (String × Subscription)) (done todo : List (Member α))
    (journal : List (Occurrence α)) :
    ((listenersFrom done.length todo).filter fun listener =>
        input.concerns listener.kind).foldlM (visit input)
        ⟨registry, (done ++ todo).map Member.station, kept, journal⟩ =
      .ok ⟨registry, (done ++ todo.map (Member.hear input)).map Member.station, kept,
        journal ++ (todo.zipIdx done.length).flatMap (heardBy input)⟩ := by
  induction todo generalizing done journal with
  | nil =>
      refine congrArg Except.ok ?_
      simp
  | cons member todo hypothesis =>
      have visited := visit_member input registry kept done todo member journal
      have later := hypothesis (done ++ [member.hear input])
        (journal ++ heardBy input (member, done.length))
      have placed : (done ++ [member.hear input]).length = done.length + 1 := by simp
      rw [placed, List.append_assoc, List.append_assoc, List.append_assoc] at later
      rw [listenersFrom_cons, List.filter_append, List.foldlM_append, visited]
      exact later

/-- Give an input to a hub. -/
def give (input : Responder.Input) (hub : Hub α) : Except Stall (Hub α) :=
  match input with
  | .signal signal now => hub.deliver leaveAlone now signal
  | .poll now => hub.poll leaveAlone now

theorem give_eq_visits (input : Responder.Input) (hub : Hub α) :
    hub.give input =
      (hub.registry.listeners.filter fun listener =>
        input.concerns listener.kind).foldlM (visit input) hub := by
  cases input with
  | signal signal now => rfl
  | poll now =>
      have allVisited : (hub.registry.listeners.filter fun listener =>
          (Responder.Input.poll now).concerns listener.kind) = hub.registry.listeners :=
        List.filter_eq_self.mpr fun _ _ => rfl
      rw [allVisited]
      rfl

/-- An input changes neither who is registered nor who is kept by name. -/
theorem listenersFrom_hear (start : Nat) (members : List (Member α)) (input : Responder.Input) :
    listenersFrom start (members.map (Member.hear input)) = listenersFrom start members := by
  rw [listenersFrom, List.zipIdx_map, List.filterMap_map]
  refine congrArg (List.filterMap · _) (funext fun entry => ?_)
  simp only [Function.comp_apply, Prod.map, id, Member.listener?, Member.kept_hear,
    Member.kind_hear]

theorem entriesFrom_hear (start : Nat) (members : List (Member α)) (input : Responder.Input) :
    entriesFrom start (members.map (Member.hear input)) = entriesFrom start members := by
  rw [entriesFrom, List.zipIdx_map, List.filterMap_map]
  refine congrArg (List.filterMap · _) (funext fun entry => ?_)
  simp only [Function.comp_apply, Prod.map, id, Member.entry?, Member.kept_hear,
    Member.name_hear]

/-- **Giving an input to a hub is giving it to its members.** -/
theorem give_hosting (input : Responder.Input) (members : List (Member α))
    (journal : List (Occurrence α)) :
    (hosting members members journal).give input =
      .ok (hosting (members.map (Member.hear input)) (members.map (Member.hear input))
        (journal ++ members.zipIdx.flatMap (heardBy input))) := by
  rw [give_eq_visits]
  refine (visits_members input _ _ [] members journal).trans ?_
  rw [hosting, listenersFrom_hear, entriesFrom_hear, List.length_map]
  rfl

end Hub

end Keystrokes
