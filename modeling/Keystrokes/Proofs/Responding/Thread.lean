import Keystrokes.Proofs.Responding.Phase

/-!
# Only what was typed

When a callback runs, its shortcut has been typed.  Among the key events that were
accepted there is a thread: one event for each chord, in the order of the chords,
ending in the event that the callback runs with.  What lies between the events of the
thread are modifiers going down, and no pause within it is as long as the timeout
(`fires_only_what_was_typed`).

The trail of a responder is not what was typed.  It is edited: keystrokes are folded
into the next one, taken back, and given up.  The invariant is that the trail is
spelled by a thread that ends in the last key event (`Wait.Follows`).
-/

set_option autoImplicit false

namespace Keystrokes

namespace Responder

variable {α : Type} {design : Design α}

/-! ## Threads -/

/-- Some places in a list of accepted key events, with their moments, that may spell a
shortcut. -/
structure Thread (design : Design α) (accepted : List (KeyEvent × Nat)) (places : List Nat)
    (last : Nat) : Prop where
  ascending : places.Pairwise (· < ·)
  ends : places.getLast? = some last
  /-- What lies between are modifiers going down. -/
  between : ∀ first ∈ places.head?, ∀ place, first < place → place < last → place ∉ places →
    ∃ event time, accepted[place]? = some (event, time) ∧ design.tracked.tracksKey event.key
  /-- No pause is as long as the timeout. -/
  close : ∀ first ∈ places.head?, ∀ place, first ≤ place → place < last →
    ∃ event time next now, accepted[place]? = some (event, time) ∧
      accepted[place + 1]? = some (next, now) ∧ now < time + design.settings.timeout

/-- The keystrokes of the key events at some places. -/
def Spelled (design : Design α) (accepted : List (KeyEvent × Nat)) (places : List Nat)
    (strokes : List Keystroke) : Prop :=
  List.Forall₂ (fun place stroke => ∃ event time, accepted[place]? = some (event, time) ∧
    event.stroke design.settings.tracked = stroke) places strokes

/-- A place of a list is the same place of a longer list. -/
theorem getElem?_append_of_eq_some {β : Type} {list : List β} {place : Nat} {value : β}
    (found : list[place]? = some value) (more : List β) : (list ++ more)[place]? = some value := by
  obtain ⟨inRange, -⟩ := List.getElem?_eq_some_iff.mp found
  rw [List.getElem?_append_left inRange, found]

variable {accepted : List (KeyEvent × Nat)} {places : List Nat} {last : Nat}
  {strokes : List Keystroke}

theorem Spelled.grow (spelled : Spelled design accepted places strokes)
    (more : List (KeyEvent × Nat)) : Spelled design (accepted ++ more) places strokes := by
  refine spelled.imp ?_
  rintro place stroke ⟨event, time, found, isStroke⟩
  exact ⟨event, time, getElem?_append_of_eq_some found more, isStroke⟩

namespace Thread

theorem grow (thread : Thread design accepted places last) (more : List (KeyEvent × Nat)) :
    Thread design (accepted ++ more) places last where
  ascending := thread.ascending
  ends := thread.ends
  between := by
    intro first isFirst place after before notMember
    obtain ⟨event, time, found, isTracked⟩ := thread.between first isFirst place after before notMember
    exact ⟨event, time, getElem?_append_of_eq_some found more, isTracked⟩
  close := by
    intro first isFirst place after before
    obtain ⟨event, time, next, now, found, foundNext, inTime⟩ :=
      thread.close first isFirst place after before
    exact ⟨event, time, next, now, getElem?_append_of_eq_some found more,
      getElem?_append_of_eq_some foundNext more, inTime⟩

/-- A key event alone is a thread. -/
theorem single (design : Design α) (accepted : List (KeyEvent × Nat)) (last : Nat) :
    Thread design accepted [last] last where
  ascending := List.pairwise_singleton ..
  ends := rfl
  between := by
    rintro first ⟨⟩ place after before
    exact absurd before (Nat.lt_asymm after)
  close := by
    rintro first ⟨⟩ place after before
    exact absurd before (Nat.not_lt.mpr after)

theorem last_mem (thread : Thread design accepted places last) : last ∈ places :=
  List.mem_of_getLast? thread.ends

theorem le_last (thread : Thread design accepted places last) {place : Nat}
    (isMember : place ∈ places) : place ≤ last := by
  obtain ⟨earlier, rfl⟩ := List.getLast?_eq_some_iff.mp thread.ends
  rcases List.mem_append.mp isMember with isEarlier | isLast
  · exact Nat.le_of_lt ((List.pairwise_append.mp thread.ascending).2.2 place isEarlier last (by simp))
  · exact Nat.le_of_eq (List.mem_singleton.mp isLast)

/-- The first place after some have been let go at the end, and one has been added. -/
theorem head?_extend {kept : List Nat} {first next : Nat} (isKept : kept <+: places)
    (isFirst : first ∈ (kept ++ [next]).head?) : first = next ∨ first ∈ places.head? := by
  obtain ⟨letGo, rfl⟩ := isKept
  cases kept with
  | nil => exact .inl (by simpa using isFirst.symm)
  | cons _ _ => exact .inr isFirst

/-- **A thread goes on with the next key event.**  It may let go of places at its end
where modifiers went down. -/
theorem extend {kept : List Nat} {event next : KeyEvent} {time now : Nat}
    (thread : Thread design accepted places last) (isLast : accepted.length = last + 1)
    (found : accepted[last]? = some (event, time)) (inTime : now < time + design.settings.timeout)
    (isKept : kept <+: places)
    (letGo : ∀ place ∈ places, place ∉ kept →
      ∃ event time, accepted[place]? = some (event, time) ∧ design.tracked.tracksKey event.key) :
    Thread design (accepted ++ [(next, now)]) (kept ++ [last + 1]) (last + 1) where
  ascending := by
    refine List.pairwise_append.mpr ⟨thread.ascending.sublist isKept.sublist, by simp, ?_⟩
    intro place isMember new isNew
    rw [List.mem_singleton.mp isNew]
    exact Nat.lt_succ_of_le (thread.le_last (isKept.subset isMember))
  ends := List.getLast?_concat
  between := by
    intro first isFirst place after before notMember
    rcases head?_extend isKept isFirst with rfl | isFirst
    · exact absurd before (Nat.lt_asymm after)
    · -- The last place belongs to the thread, so it has been let go if it is not kept.
      have isTracked : ∃ event time, accepted[place]? = some (event, time) ∧
          design.tracked.tracksKey event.key := by
        by_cases isMember : place ∈ places
        · exact letGo place isMember fun isKept => notMember (List.mem_append_left _ isKept)
        · have notLast : place ≠ last := fun same => isMember (same ▸ thread.last_mem)
          exact thread.between first isFirst place after (by omega) isMember
      obtain ⟨event, time, found, isTracked⟩ := isTracked
      exact ⟨event, time, getElem?_append_of_eq_some found _, isTracked⟩
  close := by
    intro first isFirst place after before
    rcases head?_extend isKept isFirst with rfl | isFirst
    · exact absurd before (Nat.not_lt.mpr after)
    · rcases Nat.lt_or_eq_of_le (Nat.le_of_lt_succ before) with before | rfl
      · obtain ⟨event, time, next, now, found, foundNext, inTime⟩ :=
          thread.close first isFirst place after before
        exact ⟨event, time, next, now, getElem?_append_of_eq_some found _,
          getElem?_append_of_eq_some foundNext _, inTime⟩
      · refine ⟨event, time, next, now, getElem?_append_of_eq_some found _, ?_, inTime⟩
        rw [← isLast, List.getElem?_concat_length]

end Thread

/-! ## The trail is spelled by a thread -/

/-- A wait remembers the last key event that was accepted, and the shortcuts that its
trail completes.  The trail is spelled by a thread that ends in that key event. -/
structure Wait.Follows (design : Design α) (wait : Wait) (accepted : List (KeyEvent × Nat))
    (places : List Nat) (last : Nat) : Prop where
  thread : Thread design accepted places last
  spelled : Spelled design accepted places wait.trail.strokes
  isLast : accepted.length = last + 1
  found : accepted[last]? = some (wait.event, wait.since)
  matched : wait.matched = (verdictOn design.shortcuts design.tracked wait.trail.strokes).matched
  /-- What the trail may take back is a modifier going down. -/
  provisional : wait.trail.provisional = true → design.tracked.tracksKey wait.event.key

/-- What is remembered in a phase was typed. -/
def Phase.Follows (design : Design α) (accepted : List (KeyEvent × Nat)) : Phase → Prop
  | .waiting wait => ∃ places last, wait.Follows design accepted places last
  | _ => True

/-- The last key event of a thread spells the last keystroke. -/
theorem Wait.Follows.exists_concat {wait : Wait}
    (follows : wait.Follows design accepted places last) :
    ∃ earlier strokes, places = earlier ++ [last] ∧
      wait.trail.strokes = strokes ++ [wait.event.stroke design.settings.tracked] ∧
      Spelled design accepted earlier strokes := by
  obtain ⟨earlier, rfl⟩ := List.getLast?_eq_some_iff.mp follows.thread.ends
  have spelled := follows.spelled
  rcases List.eq_nil_or_concat' wait.trail.strokes with isEmpty | ⟨strokes, stroke, isConcat⟩
  · rw [isEmpty] at spelled
    exact absurd spelled.length_eq (by simp)
  · rw [isConcat] at spelled
    obtain ⟨before, event, time, found, isStroke⟩ := forall₂_concat_iff.mp spelled
    have same : (event, time) = (wait.event, wait.since) :=
      Option.some.inj (found.symm.trans follows.found)
    obtain ⟨rfl, rfl⟩ := Prod.mk.inj same
    exact ⟨earlier, strokes, rfl, by rw [isConcat, isStroke], before⟩

/-- The next keystroke takes the place of the last one only if that was a tracked
modifier. -/
theorem Wait.Follows.tracks_of_replaced {wait : Wait}
    (follows : wait.Follows design accepted places last) {next : Keystroke}
    (replaced : (wait.trail.replaced? design.tracked next).isSome) :
    design.tracked.tracksKey wait.event.key := by
  obtain ⟨earlier, strokes, -, isConcat, -⟩ := follows.exists_concat
  rw [Trail.replaced?, isConcat, List.getLast?_concat] at replaced
  have folded : (wait.event.stroke design.settings.tracked).foldsInto design.tracked next = true ∨
      wait.trail.provisional = true := by
    simpa [Option.filter] using replaced
  rcases folded with folds | provisional
  · exact (Bool.and_eq_true_iff.mp folds).1
  · exact follows.provisional provisional

/-- **The trail with one more keystroke is spelled by a thread.** -/
theorem Phase.Follows.exists_thread {phase : Phase} (follows : phase.Follows design accepted)
    (event : KeyEvent) {now : Nat}
    (inTime : ∀ wait, phase = .waiting wait → now < wait.since + design.settings.timeout) :
    ∃ places, Thread design (accepted ++ [(event, now)]) places accepted.length ∧
      Spelled design (accepted ++ [(event, now)]) places
        (phase.trail.extend design.tracked (event.stroke design.settings.tracked)).strokes := by
  generalize isStroke : event.stroke design.settings.tracked = stroke
  have spelledNext : ∃ next time, (accepted ++ [(event, now)])[accepted.length]? = some (next, time) ∧
      next.stroke design.settings.tracked = stroke :=
    ⟨event, now, List.getElem?_concat_length, isStroke⟩
  have alone : ∃ places, Thread design (accepted ++ [(event, now)]) places accepted.length ∧
      Spelled design (accepted ++ [(event, now)]) places
        (Trail.empty.extend design.tracked stroke).strokes :=
    ⟨[accepted.length], Thread.single .., .cons spelledNext .nil⟩
  cases phase with
  | resting => exact alone
  | detached => exact alone
  | waiting wait =>
      obtain ⟨places, last, follows⟩ := follows
      obtain ⟨earlier, strokes, isSplit, isConcat, spelled⟩ := follows.exists_concat
      rw [follows.isLast] at spelledNext ⊢
      rw [Phase.trail, Trail.strokes_extend, Trail.kept]
      -- A keystroke that is replaced in the trail is let go from the end of the thread.
      by_cases replaced : (wait.trail.replaced? design.tracked stroke).isSome
      · refine ⟨earlier ++ [last + 1], ?_, ?_⟩
        · refine follows.thread.extend follows.isLast follows.found (inTime wait rfl)
            ⟨[last], isSplit.symm⟩ fun place isMember notKept => ?_
          obtain rfl : place = last := by simpa [isSplit, notKept] using isMember
          exact ⟨_, _, follows.found, follows.tracks_of_replaced replaced⟩
        · rw [if_pos replaced, isConcat, List.dropLast_concat]
          exact forall₂_concat_iff.mpr ⟨spelled.grow _, spelledNext⟩
      · refine ⟨places ++ [last + 1], ?_, ?_⟩
        · exact follows.thread.extend follows.isLast follows.found (inTime wait rfl)
            List.prefix_rfl fun place isMember notKept => absurd isMember notKept
        · rw [if_neg replaced]
          exact forall₂_concat_iff.mpr ⟨follows.spelled.grow _, spelledNext⟩

/-! ## Runs -/

/-- A poll leaves what was typed. -/
theorem Phase.Follows.settle {phase : Phase} (follows : phase.Follows design accepted) (now : Nat) :
    (phase.settle design.settings.timeout now).Follows design accepted := by
  cases phase with
  | resting => exact follows
  | detached => exact follows
  | waiting wait =>
      rw [Phase.settle]
      split
      · trivial
      · exact follows

/-- A wait that a poll leaves is not over. -/
theorem Phase.lt_of_settle_eq_waiting {timeout now : Nat} {phase : Phase} {wait : Wait}
    (isWaiting : phase.settle timeout now = .waiting wait) : now < wait.since + timeout := by
  cases phase with
  | resting => exact absurd isWaiting (by simp [Phase.settle])
  | detached => exact absurd isWaiting (by simp [Phase.settle])
  | waiting before =>
      rw [Phase.settle] at isWaiting
      split at isWaiting
      · exact absurd isWaiting (by simp)
      · next notOver =>
          obtain rfl : before = wait := by simpa using isWaiting
          exact Nat.not_le.mp notOver

/-- What the trail is marked as provisional for is a modifier going down. -/
theorem tracks_of_leavesProvisional {earlier : List Keystroke} {stroke : Keystroke}
    (provisional : ListMatcher.leavesProvisional
      (standings design.shortcuts design.tracked (earlier ++ [stroke])) = true) :
    design.tracked.tracksKey stroke.key := by
  obtain ⟨⟨shortcut, -, isAwaited⟩, -⟩ := leavesProvisional_iff.mp provisional
  obtain ⟨begun, chord, later, -, -, -, isTracked, -⟩ := standing_eq_awaiting_iff.mp isAwaited
  exact isTracked

/-- **Taking a key event keeps the trail spelled by a thread.** -/
theorem Phase.Follows.take {phase : Phase} (follows : phase.Follows design accepted)
    (event : KeyEvent) {now : Nat}
    (inTime : ∀ wait, phase = .waiting wait → now < wait.since + design.settings.timeout) :
    (design.take phase event now).Follows design (accepted ++ [(event, now)]) := by
  obtain ⟨places, thread, spelled⟩ := follows.exists_thread event inTime
  rw [Design.take]
  split
  · next possible =>
      have marked : phase.trail.next design.shortcuts design.tracked
          (event.stroke design.settings.tracked) = Trail.mark _ _ := if_pos possible
      rw [marked]
      refine ⟨places, accepted.length, thread, spelled, by simp, by simp, rfl, ?_⟩
      intro isMarked
      have provisional := (Bool.and_eq_true_iff.mp isMarked).1
      rw [Trail.strokes_extend] at provisional
      exact tracks_of_leavesProvisional provisional
  · trivial

/-- **What is remembered after an input was typed.** -/
theorem Phase.Follows.phaseAfter {phase : Phase} (follows : phase.Follows design accepted)
    (isAttached : phase.isDetached = false) (input : Input) :
    (design.phaseAfter phase input).Follows design
      (accepted ++ (design.accepted? input).toList) := by
  rcases design.input_cases isAttached input with
    ⟨now, -, notHeard, next, -⟩ | ⟨signal, now, -, notHeard, next, -⟩ |
      ⟨signal, now, event, -, isHeard, next, -⟩
  · rw [next, notHeard, Option.toList_none, List.append_nil]
    exact follows.settle now
  · rw [next, notHeard, Option.toList_none, List.append_nil]
    exact follows
  · rw [next, isHeard, Option.toList_some]
    exact (follows.settle now).take event fun _ => lt_of_settle_eq_waiting

/-- **What is remembered in the course of a run was typed.** -/
theorem follows_reached (design : Design α) (inputs : List Input) :
    (design.reached inputs).Follows design (design.accepted inputs) := by
  induction inputs using List.reverseRecOn with
  | nil => trivial
  | append_singleton inputs input hypothesis =>
      rw [Design.reached_concat, Design.accepted_concat]
      exact hypothesis.phaseAfter (design.isDetached_reached inputs) input

/-! ## Callbacks -/

/-- A call is earned by some key events when they spell its shortcut, ending in its
event. -/
def Earned (design : Design α) (accepted : List (KeyEvent × Nat)) (call : Call) : Prop :=
  ∃ shortcut places last time, design.shortcuts[call.shortcut]? = some shortcut ∧
    accepted[last]? = some (call.event, time) ∧ Thread design accepted places last ∧
    List.Forall₂ (fun chord place => ∃ event time, accepted[place]? = some (event, time) ∧
      chord.metBy (event.stroke design.settings.tracked)) shortcut.chords places

theorem Earned.grow {call : Call} (earned : Earned design accepted call)
    (more : List (KeyEvent × Nat)) : Earned design (accepted ++ more) call := by
  obtain ⟨shortcut, places, last, time, isShortcut, found, thread, meets⟩ := earned
  refine ⟨shortcut, places, last, time, isShortcut, getElem?_append_of_eq_some found more,
    thread.grow more, meets.imp ?_⟩
  rintro chord place ⟨event, time, found, isMet⟩
  exact ⟨event, time, getElem?_append_of_eq_some found more, isMet⟩

/-- The key events that spell keystrokes meet the chords that the keystrokes meet. -/
theorem Spelled.meets {chords : List Chord} (spelled : Spelled design accepted places strokes)
    (meets : Meets chords strokes) :
    List.Forall₂ (fun chord place => ∃ event time, accepted[place]? = some (event, time) ∧
      chord.metBy (event.stroke design.settings.tracked)) chords places := by
  induction meets generalizing places with
  | nil =>
      obtain rfl : places = [] := List.forall₂_nil_right_iff.mp spelled
      exact .nil
  | cons isMet _ hypothesis =>
      obtain ⟨place, later, ⟨event, time, found, rfl⟩, spelledLater, rfl⟩ :=
        List.forall₂_cons_right_iff.mp spelled
      exact .cons ⟨event, time, found, isMet⟩ (hypothesis spelledLater)

/-- **What a thread completes is earned.** -/
theorem Thread.earned (thread : Thread design accepted places last)
    (spelled : Spelled design accepted places strokes) {event : KeyEvent} {time : Nat}
    (found : accepted[last]? = some (event, time)) {number : Nat}
    (isMatched : number ∈ (verdictOn design.shortcuts design.tracked strokes).matched) :
    Earned design accepted ⟨number, event⟩ := by
  obtain ⟨shortcut, isShortcut, isMatched⟩ := mem_matched.mp isMatched
  rcases List.eq_nil_or_concat' strokes with rfl | ⟨earlier, stroke, rfl⟩
  · obtain rfl : places = [] := List.forall₂_nil_right_iff.mp spelled
    exact absurd thread.last_mem (by simp)
  · have meets : Meets shortcut.chords (earlier ++ [stroke]) := standing_eq_matched_iff.mp isMatched
    exact ⟨shortcut, places, last, time, isShortcut, found, thread, spelled.meets meets⟩

/-- The calls that a poll runs are earned. -/
theorem Phase.Follows.earned_of_due {phase : Phase} (follows : phase.Follows design accepted)
    {now : Nat} {call : Call} (isDue : call ∈ phase.due design.settings.timeout now) :
    Earned design accepted call := by
  cases phase with
  | resting => exact absurd isDue (by simp [Phase.due])
  | detached => exact absurd isDue (by simp [Phase.due])
  | waiting wait =>
      obtain ⟨places, last, follows⟩ := follows
      have isCall : call ∈ wait.calls := by
        rw [Phase.due] at isDue
        split at isDue
        · exact isDue
        · exact absurd isDue (by simp)
      obtain ⟨number, isMatched, rfl⟩ := List.mem_map.mp isCall
      rw [follows.matched] at isMatched
      exact follows.thread.earned follows.spelled follows.found isMatched

/-- The calls that a key event runs at once are earned. -/
theorem Phase.Follows.earned_of_atOnce {phase : Phase} (follows : phase.Follows design accepted)
    {event : KeyEvent} {now : Nat}
    (inTime : ∀ wait, phase = .waiting wait → now < wait.since + design.settings.timeout)
    {call : Call} (isCall : call ∈ design.atOnce phase event) :
    Earned design (accepted ++ [(event, now)]) call := by
  rw [Design.atOnce] at isCall
  split at isCall
  · exact absurd isCall (by simp)
  · obtain ⟨number, isMatched, rfl⟩ := List.mem_map.mp isCall
    obtain ⟨places, thread, spelled⟩ := follows.exists_thread event inTime
    exact thread.earned spelled List.getElem?_concat_length isMatched

/-- **The calls that run in an input are earned.** -/
theorem Phase.Follows.earned_of_callsIn {phase : Phase} (follows : phase.Follows design accepted)
    (isAttached : phase.isDetached = false) {input : Input} {call : Call}
    (isCall : call ∈ design.callsIn phase input) :
    Earned design (accepted ++ (design.accepted? input).toList) call := by
  rcases design.input_cases isAttached input with
    ⟨now, -, -, -, calls⟩ | ⟨signal, now, -, -, -, calls⟩ |
      ⟨signal, now, event, -, isHeard, -, calls⟩
  · rw [calls] at isCall
    exact (follows.earned_of_due isCall).grow _
  · rw [calls] at isCall
    exact absurd isCall List.not_mem_nil
  · rw [calls] at isCall
    rcases List.mem_append.mp isCall with isDue | isAtOnce
    · exact (follows.earned_of_due isDue).grow _
    · rw [isHeard, Option.toList_some]
      exact (follows.settle now).earned_of_atOnce (fun _ => lt_of_settle_eq_waiting) isAtOnce

/-- **Only what was typed runs.**  When a callback runs in some turn of a run, it is the
callback of a shortcut, and there is a thread among the key events accepted so far that
meets the chords of that shortcut one by one and ends in the event of the callback. -/
theorem fires_only_what_was_typed (design : Design α) (earlier : List Input) (input : Input)
    (firing : Firing α)
    (hasRun : firing ∈ (design.turnAfter earlier input).fired) :
    let accepted := design.accepted (earlier ++ [input])
    ∃ entry places last time, design.bound[firing.shortcut]? = some entry ∧
      firing.callback = entry.callback ∧
      accepted[last]? = some (firing.event, time) ∧ Thread design accepted places last ∧
      List.Forall₂ (fun chord place => ∃ event time, accepted[place]? = some (event, time) ∧
        chord.metBy (event.stroke design.settings.tracked)) entry.shortcut.chords places := by
  intro accepted
  rw [design.turnAfter_eq] at hasRun
  obtain ⟨call, isCall, isRun⟩ := List.mem_flatMap.mp hasRun
  obtain ⟨entry, isEntry, rfl⟩ := List.mem_map.mp isRun
  have isBound : design.bound[call.shortcut]? = some entry := by simpa using isEntry
  obtain ⟨shortcut, places, last, time, isShortcut, found, thread, meets⟩ :=
    (follows_reached design earlier).earned_of_callsIn (design.isDetached_reached earlier) isCall
  rw [← design.accepted_concat] at found thread meets
  obtain rfl : entry.shortcut = shortcut := by
    simpa [Design.shortcuts, isBound] using isShortcut
  exact ⟨entry, places, last, time, isBound, rfl, found, thread, meets⟩

/-- Two shortcuts of which one goes on where the other ends. -/
def twoShortcuts : Design Unit where
  kind := .tree
  tracked := Modifiers.all
  bound :=
    let control : RequiredModifiers := .ofHeld (.ofList [.control])
    [⟨⟨⟨{}, "g"⟩, [⟨control, "k"⟩]⟩, "g Control+k", ()⟩,
      ⟨⟨⟨{}, "g"⟩, [⟨control, "k"⟩, ⟨{}, "x"⟩]⟩, "g Control+k x", ()⟩]
  settings := {}

/-- The shorter of two shortcuts runs when the pause is over.  Its thread leaves out the
modifier that went down for its second chord. -/
theorem fires_shorter_shortcut :
    let control := Modifiers.ofList [.control]
    let chord : KeyEvent := { key := "k", code := "KeyK", modifiers := some control }
    let earlier : List Input :=
      [.signal (.key { key := "g", code := "KeyG" }) 0,
        .signal (.key { key := "Control", code := "ControlLeft", modifiers := some control }) 10,
        .signal (.key chord) 20]
    let firing : Firing Unit := ⟨0, (), chord⟩
    firing ∈ (twoShortcuts.turnAfter earlier (.poll 1020)).fired ∧
      ∃ entry places last time, twoShortcuts.bound[firing.shortcut]? = some entry ∧
        firing.callback = entry.callback ∧
        (twoShortcuts.accepted (earlier ++ [.poll 1020]))[last]? = some (firing.event, time) ∧
        Thread twoShortcuts (twoShortcuts.accepted (earlier ++ [.poll 1020])) places last ∧
        List.Forall₂ (fun chord place => ∃ event time,
          (twoShortcuts.accepted (earlier ++ [.poll 1020]))[place]? = some (event, time) ∧
            chord.metBy (event.stroke twoShortcuts.settings.tracked))
          entry.shortcut.chords places := by
  intro control chord earlier firing
  have ran : ((twoShortcuts.turnAfter earlier (.poll 1020)).fired.map
      fun firing => (firing.shortcut, firing.event)) = [(0, chord)] := by decide +kernel
  have isListed : (0, chord) ∈ (twoShortcuts.turnAfter earlier (.poll 1020)).fired.map
      fun firing => (firing.shortcut, firing.event) := by simp [ran]
  obtain ⟨⟨number, _, event⟩, hasRun, same⟩ := List.mem_map.mp isListed
  obtain ⟨rfl, rfl⟩ := Prod.mk.inj same
  exact ⟨hasRun, fires_only_what_was_typed twoShortcuts earlier (.poll 1020) firing hasRun⟩

end Responder

end Keystrokes
