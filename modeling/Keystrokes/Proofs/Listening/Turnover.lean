import Keystrokes.Proofs.Listening.Members

/-!
# Members that come and go

Dropping the subscription under a name closes the member that is kept under it, and no
other (`unsubscribe_hosting`).  A subscription adds a member at the end, which takes over
its name (`subscribe_hosting`).  No callback runs meanwhile.
-/

set_option autoImplicit false

namespace Keystrokes

namespace Hub

variable {α : Type}

/-! ## Dropping a subscription -/

/-- Dropping a subscription whose responder is not in the middle of something. -/
theorem drop_eq {hub : Hub α} {number : Nat} {responder : Responder α}
    (found : hub.stations[number]? = some ⟨responder, false⟩)
    (isRegistered : hub.registry.contains number = true) :
    hub.drop ⟨number, number⟩ =
      { hub with
        registry := hub.registry.remove number
        stations := hub.stations.modify number fun station =>
          { station with responder := responder.detach.1 }
        journal := hub.journal ++ .dropped ⟨number, number⟩ ::
          .note (.listenerRemoved number) :: responder.detach.2.map .note } := by
  let deaf : Responder α := { responder with detached := true }
  let recorded := hub.record (.dropped ⟨number, number⟩)
  let removed : Hub α := (recorded.become number deaf []).remove number
  have isThere : recorded.responder? number = some responder :=
    responder?_eq_some_iff.mpr ⟨false, found⟩
  have deafened : recorded.update number (fun responder =>
      ({ responder with detached := true }, [])) = recorded.become number deaf [] :=
    update_eq_become isThere _
  have removedEq : removed =
      { hub with
        registry := hub.registry.remove number
        stations := hub.stations.modify number fun station => { station with responder := deaf }
        journal := hub.journal ++ [.dropped ⟨number, number⟩, .note (.listenerRemoved number)] } := by
    simp only [removed, recorded, become, record, remove, isRegistered, if_true, tell,
      List.map_nil, List.append_nil, List.map_cons, List.append_assoc, List.singleton_append]
  have stillFound : removed.stations[number]? = some ⟨deaf, false⟩ := by
    simp [removedEq, found]
  have notBusy : removed.isBusy number = false := isBusy_eq stillFound
  have abandoned := update_eq_become (responder?_eq_some_iff.mpr ⟨false, stillFound⟩)
    Responder.abandon
  have dropped : hub.drop ⟨number, number⟩ =
      if removed.isBusy number then removed else removed.abandon number := by
    rw [drop, deafened]
  rw [dropped, notBusy, if_neg Bool.false_ne_true, abandon, abandoned, removedEq]
  simp only [become, List.modify_modify_eq, List.append_assoc, List.map_map]
  rfl

/-- Taking away the entries of a name, when its members leave. -/
theorem entriesFrom_leave (start : Nat) (members : List (Member α)) (name : String) :
    entriesFrom start (members.map (Member.leave name)) =
      (entriesFrom start members).filter fun entry => entry.1 != name := by
  rw [entriesFrom, entriesFrom, List.zipIdx_map, List.filterMap_map, List.filter_filterMap]
  refine congrArg (List.filterMap · _) (funext fun entry => ?_)
  obtain ⟨member, number⟩ := entry
  cases isKept : member.kept with
  | false => simp [Prod.map, Member.entry?, Member.leave, isKept]
  | true =>
      by_cases isNamed : member.name = name
      · simp [Prod.map, Member.entry?, Member.leave, Member.close, isKept, isNamed, Option.filter]
      · simp [Prod.map, Member.entry?, Member.leave, isKept, isNamed, Option.filter]

/-- Removing a listener, when its member is closed. -/
theorem listenersFrom_close (before after : List (Member α)) (member : Member α) :
    listenersFrom 0 (before ++ member.close :: after) =
      (listenersFrom 0 (before ++ member :: after)).filter fun listener =>
        listener.number != before.length := by
  have stay (start : Nat) (others : List (Member α))
      (isElsewhere : before.length < start ∨ start + others.length ≤ before.length) :
      (listenersFrom start others).filter (fun listener => listener.number != before.length) =
        listenersFrom start others := by
    refine List.filter_eq_self.mpr ?_
    intro listener isMember
    have bounds := number_of_mem_listenersFrom isMember
    apply bne_iff_ne.mpr
    omega
  have goes : (Member.listener? (member, before.length)).toList.filter
      (fun listener => listener.number != before.length) = [] := by
    cases isKept : member.kept <;> simp [Member.listener?, isKept]
  rw [listenersFrom_append, listenersFrom_append, listenersFrom_cons, listenersFrom_cons,
    List.filter_append, List.filter_append, Nat.zero_add, goes, stay 0 before (.inr (by omega)),
    stay _ after (.inl (by omega))]
  rfl

/-- Dropping the subscription of a member closes the member. -/
theorem drop_hosting (before after named : List (Member α)) {member : Member α}
    (isKept : member.kept = true) (journal : List (Occurrence α)) :
    ∃ told : List (Occurrence α), told.filterMap Occurrence.firing? = [] ∧
      (hosting (before ++ member :: after) named journal).drop ⟨before.length, before.length⟩ =
        hosting (before ++ member.close :: after) named (journal ++ told) := by
  have isRegistered : (hosting (before ++ member :: after) named journal).registry.contains
      before.length = true := by
    simp [hosting, Registry.contains, listenersFrom_append, listenersFrom_cons,
      Member.listener?, isKept]
  have changed := modify_between (before.map Member.station) (after.map Member.station)
    member.station fun station => { station with responder := member.responder.detach.1 }
  rw [List.length_map] at changed
  have dropped := drop_eq (station_between before after member) isRegistered
  refine ⟨.dropped ⟨before.length, before.length⟩ :: .note (.listenerRemoved before.length) ::
    member.responder.detach.2.map .note, ?_, ?_⟩
  · simp [Occurrence.firing?]
  · refine dropped.trans ?_
    simp only [hosting, Registry.remove, listenersFrom_close, List.map_append, List.map_cons,
      changed, List.length_append, List.length_cons]
    rfl

/-- **Dropping the subscription under a name closes the member that is kept under it**,
and no other.  Members may have been added that are not kept under a name yet. -/
theorem unsubscribe_hosting {members : List (Member α)} (apart : Apart members)
    (more : List (Member α)) (name : String) (journal : List (Occurrence α)) :
    ∃ told : List (Occurrence α), told.filterMap Occurrence.firing? = [] ∧
      (hosting (members ++ more) members journal).unsubscribe name =
        hosting (members.map (Member.leave name) ++ more) (members.map (Member.leave name))
          (journal ++ told) := by
  by_cases isNamed : ∃ member ∈ members, member.kept = true ∧ member.name = name
  · obtain ⟨member, isMember, isKept, rfl⟩ := isNamed
    obtain ⟨before, after, rfl⟩ := List.append_of_mem isMember
    obtain ⟨-, apartAfter, apartBefore⟩ := List.pairwise_append.mp apart
    have stayBefore : ∀ left ∈ before, left.kept = true → left.name ≠ member.name :=
      fun left isLeft leftKept => apartBefore left isLeft member (by simp) leftKept isKept
    have stayAfter : ∀ right ∈ after, right.kept = true → right.name ≠ member.name :=
      fun right isRight rightKept =>
        ((List.pairwise_cons.mp apartAfter).1 right isRight isKept rightKept).symm
    have left : (before ++ member :: after).map (Member.leave member.name) =
        before ++ member.close :: after := by
      rw [List.map_append, List.map_cons, Member.map_leave_of_ne stayBefore,
        Member.map_leave_of_ne stayAfter, Member.leave_of_kept isKept]
    have found : (entriesFrom 0 (before ++ member :: after)).lookup member.name =
        some ⟨before.length, before.length⟩ := by
      refine List.lookup_eq_some_iff.mpr
        ⟨entriesFrom 0 before, entriesFrom (before.length + 1) after, ?_, ?_⟩
      · rw [entriesFrom_append, entriesFrom_cons, Nat.zero_add]
        simp [Member.entry?, isKept]
      · intro entry isEntry
        obtain ⟨other, isOther, otherKept, sameName⟩ := mem_entriesFrom isEntry
        exact bne_iff_ne.mpr fun isName =>
          stayBefore other isOther otherKept (sameName.trans isName.symm)
    obtain ⟨told, isSilent, dropped⟩ := drop_hosting before (after ++ more)
      (before ++ member.close :: after) isKept journal
    refine ⟨told, isSilent, ?_⟩
    have released : (entriesFrom 0 (before ++ member :: after)).filter
        (fun entry => entry.1 != member.name) = entriesFrom 0 (before ++ member.close :: after) := by
      rw [← entriesFrom_leave, left]
    rw [left, List.append_assoc, List.cons_append, List.append_assoc, List.cons_append, ← dropped]
    simp only [unsubscribe, subscription?, hosting, found, released]
  · have stay : members.map (Member.leave name) = members :=
      Member.map_leave_of_ne fun member isMember isKept isName =>
        isNamed ⟨member, isMember, isKept, isName⟩
    have notFound : (entriesFrom 0 members).lookup name = none := by
      refine List.lookup_eq_none_iff.mpr fun entry isEntry => ?_
      obtain ⟨member, isMember, isKept, sameName⟩ := mem_entriesFrom isEntry
      exact bne_iff_ne.mpr fun isName =>
        isNamed ⟨member, isMember, isKept, sameName.trans isName.symm⟩
    refine ⟨[], rfl, ?_⟩
    rw [stay, List.append_nil, unsubscribe, subscription?, hosting, notFound]

/-! ## Making a subscription -/

/-- The member that a subscription makes. -/
def Member.of (name : String) (layout : Layout α) (settings : Settings) : Member α where
  name := name
  kind := settings.event
  responder := Responder.ofLayout layout settings

/-- **A subscription adds a member at the end.** -/
theorem subscribe_hosting {members : List (Member α)} (apart : Apart members) (name : String)
    (layout : Layout α) (settings : Settings) (journal : List (Occurrence α)) :
    let newcomer := Member.of name layout settings
    ∃ told : List (Occurrence α), told.filterMap Occurrence.firing? = [] ∧
      (hosting members members journal).subscribe name layout settings =
        (hosting (joined members newcomer) (joined members newcomer) (journal ++ told),
          ⟨members.length, members.length⟩) := by
  intro newcomer
  let built : List (Occurrence α) :=
    [.note newcomer.responder.builtNote, .note (.listenerAdded newcomer.kind members.length)]
  obtain ⟨told, isSilent, cleared⟩ :=
    unsubscribe_hosting apart [newcomer] name (journal ++ built)
  refine ⟨built ++ told, ?_, ?_⟩
  · rw [List.filterMap_append, isSilent]
    rfl
  · have listed : listenersFrom 0 (members ++ [newcomer]) =
        listenersFrom 0 members ++ [⟨members.length, newcomer.kind, members.length⟩] := by
      rw [listenersFrom_append, Nat.zero_add]
      rfl
    have seated : (hosting members members journal).seat (Responder.ofLayout layout settings) =
        ({ hosting members members journal with
            stations := members.map Member.station ++ [newcomer.station]
            journal := journal ++ [.note newcomer.responder.builtNote] }, members.length) := by
      simp only [seat, hosting, List.length_map]
      rfl
    have listening : listen
        { hosting members members journal with
          stations := members.map Member.station ++ [newcomer.station]
          journal := journal ++ [.note newcomer.responder.builtNote] } members.length settings.event =
        (hosting (members ++ [newcomer]) members (journal ++ built), members.length) := by
      simp only [listen, tell, hosting, listed, Registry.add, built, List.map_append,
        List.append_assoc, List.length_append]
      rfl
    have named : entriesFrom 0 (joined members newcomer) =
        entriesFrom 0 (members.map (Member.leave name)) ++
          [(name, ⟨members.length, members.length⟩)] := by
      rw [joined, entriesFrom_append, List.length_map, Nat.zero_add]
      rfl
    rw [List.append_assoc] at cleared
    simp only [subscribe, seated, listening, cleared]
    simp only [hosting, named]
    rfl

end Hub

end Keystrokes
