import Keystrokes.Proofs.Listening.Turnover

/-!
# Independent subscriptions

A host subscribes, drops subscriptions, delivers signals and polls, and the callbacks do
nothing to the hub.  Every step then leads from the hub of some members to the hub of some
members (`proceed_hosting`), and so a run never stalls (`run_hosting`).

What becomes of a member depends on nothing but the steps: its responder gets the inputs
that are for it until its subscription is dropped, and is detached then
(`Member.foldl_after`).  So a subscription does what its responder does by itself,
whatever other subscriptions there are (`subscriptions_are_independent`).
-/

set_option autoImplicit false

namespace Keystrokes

namespace Hub

variable {α : Type}

/-! ## Runs of a hub -/

/-- What a host does with a hub. -/
inductive Step (α : Type) where
  | subscribe (name : String) (layout : Layout α) (settings : Settings)
  | unsubscribe (name : String)
  | give (input : Responder.Input)

/-- The action of a step. -/
def Step.action : Step α → Action α
  | .subscribe name layout settings => .subscribe name layout settings
  | .unsubscribe name => .unsubscribe name
  | .give (.signal signal _) => .deliver signal
  | .give (.poll _) => .poll

/-- The moment of a step. -/
def Step.now : Step α → Nat
  | .give input => input.now
  | _ => 0

/-- One step, with callbacks that do nothing to the hub. -/
def proceed (hub : Hub α) (step : Step α) : Except Stall (Hub α) :=
  Prod.fst <$> hub.act (fun _ => []) 0 step.now step.action

/-- Steps one after the other. -/
def run (hub : Hub α) (steps : List (Step α)) : Except Stall (Hub α) :=
  steps.foldlM proceed hub

/-- Whether a step ends a subscription that is kept under a name. -/
def Step.ends (name : String) : Step α → Bool
  | .subscribe taken _ _ => taken == name
  | .unsubscribe dropped => dropped == name
  | .give _ => false

/-- What a step gives to a responder that waits for a kind of event. -/
def Step.input? (kind : EventKind) : Step α → Option Responder.Input
  | .give input => if input.concerns kind then some input else none
  | _ => none

/-- What a subscription is given in the course of some steps: the signals of its kind and
all polls until it is dropped. -/
def share (name : String) (kind : EventKind) (steps : List (Step α)) : List Responder.Input :=
  (steps.takeWhile fun step => !step.ends name).filterMap (Step.input? kind)

/-- The callbacks of the responder at a place that have run, in their order. -/
def ranAt (place : Nat) (told : List (Occurrence α)) : List (Firing α) :=
  (told.filterMap Occurrence.firing?).filterMap fun ran =>
    if ran.1 = place then some ran.2 else none

theorem share_cons_of_not_ends {name : String} {step : Step α} (notEnd : step.ends name = false)
    (kind : EventKind) (steps : List (Step α)) :
    share name kind (step :: steps) = (step.input? kind).toList ++ share name kind steps := by
  simp only [share, List.takeWhile_cons, notEnd, Bool.not_false, if_true, List.filterMap_cons]
  cases step.input? kind <;> rfl

/-- Nothing is lost with an answer that is not looked at. -/
theorem fst_map_bind (outcome : Except Stall (Hub α)) (reply : Reply) :
    Prod.fst <$> (outcome >>= fun next => pure (next, reply)) = outcome := by
  cases outcome <;> rfl

theorem proceed_give (hub : Hub α) (input : Responder.Input) :
    hub.proceed (.give input) = hub.give input := by
  cases input with
  | signal signal now =>
      rw [proceed, act, runScript_nil]
      exact fst_map_bind _ .done
  | poll now =>
      rw [proceed, act, runScript_nil]
      exact fst_map_bind _ .done

/-! ## One member -/

namespace Member

/-- What becomes of a member in a step. -/
def after (member : Member α) : Step α → Member α
  | .subscribe name _ _ => member.leave name
  | .unsubscribe name => member.leave name
  | .give input => member.hear input

/-- The callbacks of a member that run in a step. -/
def runsIn (member : Member α) : Step α → List (Firing α)
  | .give input => member.runs input
  | _ => []

theorem after_of_ends {member : Member α} {step : Step α} (isKept : member.kept = true)
    (isEnd : step.ends member.name = true) : member.after step = member.close := by
  cases step with
  | subscribe taken layout settings =>
      obtain rfl : taken = member.name := eq_of_beq isEnd
      exact leave_of_kept isKept
  | unsubscribe dropped =>
      obtain rfl : dropped = member.name := eq_of_beq isEnd
      exact leave_of_kept isKept
  | give input => exact absurd isEnd (by simp [Step.ends])

theorem after_of_not_ends {member : Member α} {step : Step α} (isKept : member.kept = true)
    (notEnd : step.ends member.name = false) :
    member.after step =
      { member with responder := member.responder.after (step.input? member.kind).toList } := by
  cases step with
  | subscribe taken layout settings =>
      exact leave_of_ne fun _ isName => absurd isName.symm (ne_of_beq_false notEnd)
  | unsubscribe dropped =>
      exact leave_of_ne fun _ isName => absurd isName.symm (ne_of_beq_false notEnd)
  | give input =>
      cases isConcerned : input.concerns member.kind with
      | true => simp [after, hear, listens, Step.input?, isKept, isConcerned]
      | false => simp [after, hear, listens, Step.input?, isConcerned]

/-- A member that has left stays as it is. -/
theorem after_of_not_kept {member : Member α} (notKept : member.kept = false) (step : Step α) :
    member.after step = member := by
  cases step <;> simp [after, leave, hear, listens, notKept]

theorem foldl_after_of_not_kept {member : Member α} (notKept : member.kept = false)
    (steps : List (Step α)) : steps.foldl after member = member := by
  induction steps with
  | nil => rfl
  | cons step steps hypothesis => rw [List.foldl_cons, after_of_not_kept notKept, hypothesis]

/-- **What becomes of a member**: its responder gets its share until the subscription is
dropped, and is detached then. -/
theorem foldl_after {member : Member α} (isKept : member.kept = true) (steps : List (Step α)) :
    steps.foldl after member =
      let last := { member with
        responder := member.responder.after (share member.name member.kind steps) }
      if steps.any (Step.ends member.name) then last.close else last := by
  induction steps generalizing member with
  | nil => rfl
  | cons step steps hypothesis =>
      cases isEnd : step.ends member.name with
      | true =>
          -- The share ends here, and a closed member stays as it is.
          rw [List.foldl_cons, after_of_ends isKept isEnd, foldl_after_of_not_kept rfl]
          simp [share, isEnd]
      | false =>
          let next : Member α := { member with
            responder := member.responder.after (step.input? member.kind).toList }
          have nextKept : next.kept = true := isKept
          rw [List.foldl_cons, after_of_not_ends isKept isEnd]
          refine (hypothesis nextKept).trans ?_
          simp only [next, share_cons_of_not_ends isEnd, List.any_cons, isEnd, Bool.false_or,
            Responder.after, List.foldl_append]

theorem runsIn_eq (member : Member α) (step : Step α) :
    member.runsIn step =
      if member.kept then
        (step.input? member.kind).elim [] fun input =>
          Responder.firings (member.responder.respond input).2
      else [] := by
  cases step with
  | subscribe taken layout settings => simp [runsIn, Step.input?]
  | unsubscribe dropped => simp [runsIn, Step.input?]
  | give input =>
      cases isKept : member.kept <;> cases isConcerned : input.concerns member.kind <;>
        simp [runsIn, runs, listens, Step.input?, isKept, isConcerned]

end Member

/-! ## The hub of some members -/

/-- The members after a step. -/
def membersAfter (members : List (Member α)) : Step α → List (Member α)
  | .subscribe name layout settings => joined members (Member.of name layout settings)
  | .unsubscribe name => members.map (Member.leave name)
  | .give input => members.map (Member.hear input)

theorem Apart.after {members : List (Member α)} (apart : Apart members) (step : Step α) :
    Apart (membersAfter members step) := by
  cases step with
  | subscribe name layout settings => exact apart.join _
  | unsubscribe name => exact apart.leave name
  | give input => exact apart.hear input

/-- A step does to every member what it does to that member, and may add one at the end. -/
theorem getElem?_membersAfter {members : List (Member α)} {number : Nat} {member : Member α}
    (found : members[number]? = some member) (step : Step α) :
    (membersAfter members step)[number]? = some (member.after step) := by
  obtain ⟨isPlace, -⟩ := List.getElem?_eq_some_iff.mp found
  cases step with
  | subscribe name layout settings =>
      rw [membersAfter, joined, List.getElem?_append_left (by simpa using isPlace),
        List.getElem?_map, found]
      rfl
  | unsubscribe name =>
      rw [membersAfter, List.getElem?_map, found]
      rfl
  | give input =>
      rw [membersAfter, List.getElem?_map, found]
      rfl

theorem getElem?_foldl_membersAfter {members : List (Member α)} {number : Nat}
    {member : Member α} (found : members[number]? = some member) (steps : List (Step α)) :
    (steps.foldl membersAfter members)[number]? = some (steps.foldl Member.after member) := by
  induction steps generalizing members member with
  | nil => exact found
  | cons step steps hypothesis => exact hypothesis (getElem?_membersAfter found step)

/-- The callbacks that run in a step, with the numbers of their members. -/
def ranIn (members : List (Member α)) (step : Step α) : List (Nat × Firing α) :=
  members.zipIdx.flatMap fun entry => (entry.1.runsIn step).map fun firing => (entry.2, firing)

/-- The callbacks run in the order of the numbers of their members. -/
theorem pairwise_ranIn (members : List (Member α)) (step : Step α) :
    (ranIn members step).Pairwise fun first second => first.1 ≤ second.1 := by
  have ascending : members.zipIdx.Pairwise fun first second => first.2 < second.2 := by
    refine List.pairwise_map.mp ?_
    rw [List.zipIdx_map_snd]
    exact List.pairwise_lt_range'
  refine List.pairwise_flatMap.mpr ⟨fun entry _ => ?_, ascending.imp fun before => ?_⟩
  · exact List.pairwise_map.mpr (List.pairwise_of_forall fun _ _ => Nat.le_refl _)
  · intro first isFirst second isSecond
    obtain ⟨-, -, rfl⟩ := List.mem_map.mp isFirst
    obtain ⟨-, -, rfl⟩ := List.mem_map.mp isSecond
    exact Nat.le_of_lt before

/-- The callbacks that run at the number of a member are those of the member. -/
theorem ranIn_at {members : List (Member α)} {number : Nat} {member : Member α}
    (found : members[number]? = some member) (step : Step α) :
    ((ranIn members step).filterMap fun ran => if ran.1 = number then some ran.2 else none) =
      member.runsIn step := by
  let own (entry : Member α × Nat) : List (Firing α) :=
    if entry.2 = number then entry.1.runsIn step else []
  have theirs (entry : Member α × Nat) :
      (((entry.1.runsIn step).map fun firing => (entry.2, firing)).filterMap fun ran =>
        if ran.1 = number then some ran.2 else none) = own entry := by
    rw [List.filterMap_map]
    by_cases isNumber : entry.2 = number
    · rw [show own entry = entry.1.runsIn step from if_pos isNumber]
      refine Eq.trans (congrArg (List.filterMap · _) (funext fun firing => ?_)) List.filterMap_some
      exact if_pos isNumber
    · rw [show own entry = [] from if_neg isNumber]
      exact List.filterMap_eq_nil_iff.mpr fun firing _ => if_neg isNumber
  have nobodyElse (start : Nat) (others : List (Member α))
      (isElsewhere : number < start ∨ start + others.length ≤ number) :
      (others.zipIdx start).flatMap own = [] := by
    refine List.flatMap_eq_nil_iff.mpr fun entry isEntry => ?_
    have bounds := List.mem_zipIdx isEntry
    exact if_neg (by omega)
  obtain ⟨before, after, rfl, rfl⟩ : ∃ before after : List (Member α),
      members = before ++ member :: after ∧ before.length = number := by
    obtain ⟨isPlace, rfl⟩ := List.getElem?_eq_some_iff.mp found
    refine ⟨members.take number, members.drop (number + 1), ?_, ?_⟩
    · rw [← List.drop_eq_getElem_cons, List.take_append_drop]
    · exact List.length_take_of_le (Nat.le_of_lt isPlace)
  rw [ranIn, List.filterMap_flatMap, funext theirs, List.zipIdx_append, List.zipIdx_cons,
    List.flatMap_append, List.flatMap_cons, nobodyElse _ before (.inr (by omega)),
    nobodyElse _ after (.inl (by omega)), List.nil_append, List.append_nil, Nat.zero_add]
  exact if_pos rfl

theorem firings_heardBy (input : Responder.Input) (entry : Member α × Nat) :
    (heardBy input entry).filterMap Occurrence.firing? =
      (entry.1.runs input).map fun firing => (entry.2, firing) := by
  have reported (reports : List (Report α)) :
      (reports.map (Report.occurrence entry.2)).filterMap Occurrence.firing? =
        (Responder.firings reports).map fun firing => (entry.2, firing) := by
    rw [List.filterMap_map, Responder.firings, List.map_filterMap]
    refine congrArg (List.filterMap · _) (funext fun report => ?_)
    cases report <;> rfl
  cases isListening : entry.1.listens input with
  | false => simp [heardBy, Member.runs, isListening]
  | true =>
      simp only [heardBy, Member.runs, isListening, if_true]
      rw [List.filterMap_cons, reported]
      cases input <;> rfl

/-- **Every step leads from the hub of some members to the hub of their successors.** -/
theorem proceed_hosting {members : List (Member α)} (apart : Apart members)
    (journal : List (Occurrence α)) (step : Step α) :
    ∃ told : List (Occurrence α), told.filterMap Occurrence.firing? = ranIn members step ∧
      (hosting members members journal).proceed step =
        .ok (hosting (membersAfter members step) (membersAfter members step)
          (journal ++ told)) := by
  cases step with
  | subscribe name layout settings =>
      obtain ⟨told, isSilent, subscribed⟩ :=
        subscribe_hosting apart name layout settings journal
      refine ⟨told, ?_, congrArg (Except.ok ∘ Prod.fst) subscribed⟩
      rw [isSilent]
      simp [ranIn, Member.runsIn]
  | unsubscribe name =>
      obtain ⟨told, isSilent, dropped⟩ := unsubscribe_hosting apart [] name journal
      rw [List.append_nil, List.append_nil] at dropped
      refine ⟨told, ?_, congrArg Except.ok dropped⟩
      rw [isSilent]
      simp [ranIn, Member.runsIn]
  | give input =>
      refine ⟨_, ?_, (proceed_give _ input).trans (give_hosting input members journal)⟩
      rw [List.filterMap_flatMap]
      exact congrArg (List.flatMap · _) (funext (firings_heardBy input))

/-- **A run does not stall.** -/
theorem run_hosting {members : List (Member α)} (apart : Apart members)
    (journal : List (Occurrence α)) (steps : List (Step α)) :
    Apart (steps.foldl membersAfter members) ∧
      ∃ told : List (Occurrence α), (hosting members members journal).run steps =
        .ok (hosting (steps.foldl membersAfter members) (steps.foldl membersAfter members)
          (journal ++ told)) := by
  induction steps generalizing members journal with
  | nil =>
      refine ⟨apart, [], ?_⟩
      rw [List.append_nil]
      rfl
  | cons step steps hypothesis =>
      obtain ⟨told, -, proceeded⟩ := proceed_hosting apart journal step
      obtain ⟨stillApart, toldLater, ran⟩ := hypothesis (apart.after step) (journal ++ told)
      refine ⟨stillApart, told ++ toldLater, ?_⟩
      rw [run, List.foldlM_cons, proceeded, ← List.append_assoc]
      exact ran

/-- **Subscriptions are independent.**  At every point of a run, the responder of a
subscription is the one that has been made from its layout and was given the signals of
its kind and the polls since, whatever else the host did; and it is detached if the
subscription has been dropped.  So what has been typed and the deadline are the same, and
in the next step the same callbacks run.  The callbacks of a step run in the order of the
numbers of their listeners. -/
theorem subscriptions_are_independent (earlier later : List (Step α)) (name : String)
    (layout : Layout α) (settings : Settings) (step : Step α) :
    let bare := (Responder.ofLayout layout settings).after (share name settings.event later)
    let isOver := later.any (Step.ends name)
    ∃ (hub subscribed current next : Hub α) (number : Nat) (told : List (Occurrence α)),
      run {} earlier = .ok hub ∧
      hub.act (fun _ => []) 0 0 (.subscribe name layout settings) =
        .ok (subscribed, .subscribed ⟨number, number⟩) ∧
      run subscribed later = .ok current ∧
      current.responder? number = some (if isOver then bare.detach.1 else bare) ∧
      current.proceed step = .ok next ∧
      next.journal = current.journal ++ told ∧
      ranAt number told =
        (if isOver then []
        else (step.input? settings.event).elim [] fun input =>
          Responder.firings (bare.respond input).2) ∧
      (told.filterMap Occurrence.firing?).Pairwise fun first second => first.1 ≤ second.1 := by
  intro bare isOver
  let newcomer := Member.of name layout settings
  let members : List (Member α) := earlier.foldl membersAfter []
  let current := later.foldl membersAfter (joined members newcomer)
  obtain ⟨apart, before, ranEarlier⟩ := run_hosting List.Pairwise.nil [] earlier
  obtain ⟨built, -, subscribed⟩ := subscribe_hosting apart name layout settings before
  obtain ⟨stillApart, between, ranLater⟩ :=
    run_hosting (apart.join newcomer) (before ++ built) later
  obtain ⟨told, firings, proceeded⟩ := proceed_hosting stillApart (before ++ built ++ between) step
  -- The other members come and go in `members` and `current`; this one is the newcomer's own.
  have found : current[members.length]? = some (later.foldl Member.after newcomer) := by
    refine getElem?_foldl_membersAfter ?_ later
    simp [joined]
  have become : later.foldl Member.after newcomer =
      if isOver then ({ newcomer with responder := bare } : Member α).close
      else { newcomer with responder := bare } := Member.foldl_after rfl later
  refine ⟨_, _, _, _, members.length, told, ranEarlier, ?_, ranLater, ?_, proceeded, rfl, ?_, ?_⟩
  · exact congrArg (fun made => Except.ok (made.1, Reply.subscribed made.2)) subscribed
  · have isThere : (hosting current current (before ++ built ++ between)).responder?
        members.length = some (later.foldl Member.after newcomer).responder := by
      simp only [responder?, hosting, List.getElem?_map, found]
      rfl
    rw [isThere, become]
    cases isOver <;> rfl
  · rw [ranAt, firings, ranIn_at found, Member.runsIn_eq, become]
    cases isOver <;> rfl
  · rw [firings]
    exact pairwise_ranIn _ step

end Hub

end Keystrokes
