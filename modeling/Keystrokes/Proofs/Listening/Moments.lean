import Keystrokes.Proofs.Listening.Journal

/-!
# The moments of a run

Something can be begun at a hub when nothing is going on there, and also in the middle of a
delivery or a poll, when a callback begins to act.  A callback begins at a moment in the
course of something if the outcome depends on what the callback does at that moment
(`Calls`); so running a call begins its callback and no other (`calls_fire_iff`).  A hub
arises if it is met in either way (`Arises`).

If two effects agree at all hubs with a property, and neither they nor the registry and the
journal can break the property, then no action tells the effects apart
(`Lasting.agree_perform`).  So such a property holds whenever a callback begins, and it holds
of every hub that arises (`Lasting.of_arises`).
-/

set_option autoImplicit false

namespace Keystrokes

namespace Hub

variable {α : Type}

/-! ## Moments -/

/-- A callback begins at a moment in the course of some work: the outcome depends on what the
callback does at that moment. -/
def Calls {β : Type} (work : Effect α → β) (effect : Effect α) (callback : α) (moment : Hub α) :
    Prop :=
  ∃ other : Effect α, work other ≠ work effect ∧
    ∀ ran hub, ran ≠ callback ∨ hub ≠ moment → other ran hub = effect ran hub

/-- A hub arises from an empty one by actions and by making responders that are registered
for nothing yet, or it is met when a callback begins in the course of an action. -/
inductive Arises : Hub α → Prop where
  | empty : Arises {}
  | seat {hub : Hub α} (responder : Responder α) : Arises hub → Arises (hub.seat responder).1
  | act {hub next : Hub α} {depth now : Nat} {effect : Effect α} {action : Action α}
      {reply : Reply} : Arises hub → Acts depth effect →
      hub.perform effect now action = .ok (next, reply) → Arises next
  | call {hub moment : Hub α} {depth now : Nat} {effect : Effect α} {action : Action α}
      {callback : α} : Arises hub → Acts depth effect →
      Calls (fun effect => hub.perform effect now action) effect callback moment → Arises moment

theorem Arises.of_leads {hub last : Hub α} {depth : Nat} (arises : hub.Arises)
    (leads : Leads (Acts depth) hub last) : last.Arises := by
  induction leads with
  | refl => exact arises
  | act acts performed _ hypothesis => exact hypothesis (arises.act acts performed)

theorem Reachable.arises {hub : Hub α} (reachable : hub.Reachable) : hub.Arises := by
  obtain ⟨depth, leads⟩ := reachable
  exact Arises.empty.of_leads leads

/-- Running a call calls its callback, when all has been written down, and nothing else. -/
theorem calls_fire_iff {hub moment : Hub α} {place : Nat} {call : Call} {effect : Effect α}
    {callback : α} :
    Calls (fun effect => fire effect place hub call) effect callback moment ↔
      ∃ entry,
        (hub.responder? place).bind (fun responder => responder.callback? call) = some entry ∧
        callback = entry.callback ∧ moment = (hub.tell [.firing entry.label]).record
          (.fired place ⟨call.shortcut, entry.callback, call.event⟩) := by
  cases found : (hub.responder? place).bind fun responder => responder.callback? call with
  | none => simp [Calls, fire, found]
  | some entry =>
      simp only [Calls, fire, found, Option.some.injEq, exists_eq_left']
      constructor
      · rintro ⟨other, differs, agrees⟩
        refine Classical.byContradiction fun apart => differs (agrees _ _ ?_)
        by_cases same : entry.callback = callback
        · exact .inr fun isMoment => apart ⟨same.symm, isMoment.symm⟩
        · exact .inl same
      · rintro ⟨rfl, rfl⟩
        generalize (hub.tell [.firing entry.label]).record _ = moment
        -- The other effect stalls at the moment, in a way in which the effect does not.
        obtain ⟨stall, differs⟩ : ∃ stall, .error stall ≠ effect entry.callback moment := by
          by_cases isDeep : effect entry.callback moment = .error .tooDeep
          · exact ⟨.busy 0, by simp [isDeep]⟩
          · exact ⟨.tooDeep, Ne.symm isDeep⟩
        classical
        refine ⟨fun ran hub => if ran = entry.callback ∧ hub = moment then .error stall
          else effect ran hub, by simpa using differs, fun ran hub apart => if_neg ?_⟩
        rintro ⟨isCallback, isMoment⟩
        exact apart.elim (· isCallback) (· isMoment)

/-! ## Outcomes that agree -/

section

variable {property : Hub α → Prop}

/-- Two outcomes are the same, and the hub that comes out has a property. -/
def Agree (property : Hub α → Prop) (first second : Except Stall (Hub α)) : Prop :=
  first = second ∧ ∀ next, first = .ok next → property next

theorem agree_ok {hub : Hub α} (holds : property hub) : Agree property (.ok hub) (.ok hub) := by
  refine ⟨rfl, fun next same => ?_⟩
  obtain rfl := Except.ok.inj same
  exact holds

theorem agree_error (stall : Stall) : Agree property (.error stall) (.error stall) :=
  ⟨rfl, fun _ isOk => absurd isOk (by simp)⟩

theorem Agree.bind {first second : Except Stall (Hub α)}
    {rest other : Hub α → Except Stall (Hub α)} (agree : Agree property first second)
    (later : ∀ {middle}, property middle → Agree property (rest middle) (other middle)) :
    Agree property (first >>= rest) (second >>= other) := by
  obtain ⟨rfl, holds⟩ := agree
  cases first with
  | error stall => exact agree_error stall
  | ok middle => exact later (holds middle rfl)

theorem agree_foldlM {β : Type} {step other : Hub α → β → Except Stall (Hub α)}
    (agree : ∀ {hub item}, property hub → Agree property (step hub item) (other hub item))
    (items : List β) {hub : Hub α} (holds : property hub) :
    Agree property (items.foldlM step hub) (items.foldlM other hub) := by
  induction items generalizing hub with
  | nil => exact agree_ok holds
  | cons item items hypothesis =>
      rw [List.foldlM_cons, List.foldlM_cons]
      exact (agree holds).bind hypothesis

end

/-! ## Properties that last -/

/-- A property that neither writing nor the registry breaks. -/
structure Lasting (property : Hub α → Prop) : Prop where
  writes : ∀ {hub next : Hub α}, Writes Occurrence.IsQuiet hub next → property hub → property next
  listen : ∀ {hub : Hub α} (place : Nat) (kind : EventKind), property hub →
    property (hub.listen place kind).1
  remove : ∀ {hub : Hub α} (number : Nat), property hub → property (hub.remove number)

namespace Lasting

variable {property : Hub α → Prop} (lasting : Lasting property)

include lasting

theorem calm {hub next : Hub α} (writes : Writes Occurrence.IsCalm hub next)
    (holds : property hub) : property next :=
  lasting.writes (writes.mono Occurrence.IsCalm.isQuiet) holds

theorem arranges {hub next : Hub α} (arranges : Arranges hub next) (holds : property hub) :
    property next := by
  induction arranges with
  | writes writes => exact lasting.calm writes holds
  | listen hub place kind => exact lasting.listen place kind holds
  | remove hub number => exact lasting.remove number holds
  | trans _ _ first second => exact second (first holds)

theorem agree_occupy {hub : Hub α} {place : Nat} {work other : Hub α → Except Stall (Hub α)}
    (works : ∀ {hub}, property hub → Agree property (work hub) (other hub))
    (holds : property hub) :
    Agree property (occupy place work hub) (occupy place other hub) := by
  rw [occupy, occupy]
  split
  · exact agree_error _
  · refine (works (lasting.calm (hub.writes_setBusy place true) holds)).bind fun worked => ?_
    exact agree_ok (lasting.calm (writes_setBusy _ place false) worked)

section

variable {first second : Effect α} {hub : Hub α}
  (agree : ∀ {callback hub}, property hub →
    Agree property (first callback hub) (second callback hub))

include agree

theorem agree_fire {place : Nat} {call : Call} (holds : property hub) :
    Agree property (fire first place hub call) (fire second place hub call) := by
  cases found : (hub.responder? place).bind fun responder => responder.callback? call with
  | none =>
      simp only [fire, found]
      exact agree_ok holds
  | some entry =>
      simp only [fire, found]
      have isQuiet : ∀ note ∈ [Note.firing entry.label], note.IsQuiet := by simp [Note.IsQuiet]
      have told := lasting.calm (hub.writes_tell isQuiet) holds
      exact agree (lasting.writes (writes_record _ trivial) told)

theorem agree_pollResponder {now place : Nat} (holds : property hub) :
    Agree property (pollResponder first now place hub) (pollResponder second now place hub) := by
  cases found : hub.responder? place with
  | none =>
      simp only [pollResponder, found]
      exact agree_ok holds
  | some responder =>
      simp only [pollResponder, found]
      refine (agree_foldlM (lasting.agree_fire agree) _ ?_).bind fun fired => agree_ok ?_
      · exact lasting.calm (hub.writes_update (by simp)) holds
      · exact lasting.calm (writes_update _ fun _ _ => Responder.isQuiet_of_mem_concludePoll) fired

theorem agree_takeAt {now place : Nat} {event : KeyEvent} (holds : property hub) :
    Agree property (takeAt first now place event hub) (takeAt second now place event hub) := by
  cases found : hub.responder? place with
  | none =>
      simp only [takeAt, found]
      exact agree_ok holds
  | some responder =>
      simp only [takeAt, found]
      refine (agree_foldlM (lasting.agree_fire agree) _ ?_).bind fun fired => agree_ok ?_
      · exact lasting.calm (hub.writes_update fun _ _ => Responder.isQuiet_of_mem_take) holds
      · exact lasting.calm (writes_update _ fun _ _ => Responder.isQuiet_of_mem_abandonIfDetached)
          fired

theorem agree_handleAt {now place : Nat} {signal : Signal} (holds : property hub) :
    Agree property (handleAt first now place signal hub)
      (handleAt second now place signal hub) := by
  cases found : hub.responder? place with
  | none =>
      simp only [handleAt, found]
      exact agree_ok holds
  | some responder =>
      simp only [handleAt, found]
      cases screened : responder.screen signal with
      | error reason =>
          refine agree_ok (lasting.calm (hub.writes_tell ?_) holds)
          simpa using Responder.isQuiet_of_screen screened
      | ok event =>
          refine (lasting.agree_pollResponder agree holds).bind fun polled => ?_
          split
          · exact agree_ok polled
          · exact lasting.agree_takeAt agree polled

theorem agree_deliver (now : Nat) (signal : Signal) (holds : property hub) :
    Agree property (hub.deliver first now signal) (hub.deliver second now signal) := by
  refine agree_foldlM (fun holds => ?_) _ holds
  exact lasting.agree_occupy (lasting.agree_handleAt agree)
    (lasting.writes (writes_record _ trivial) holds)

theorem agree_poll (now : Nat) (holds : property hub) :
    Agree property (hub.poll first now) (hub.poll second now) := by
  refine agree_foldlM (fun holds => ?_) _ holds
  exact lasting.agree_occupy (lasting.agree_pollResponder agree)
    (lasting.writes (writes_record _ trivial) holds)

/-- **Effects that agree wherever a lasting property holds make no difference.** -/
theorem agree_perform {now : Nat} {action : Action α} (holds : property hub) :
    hub.perform first now action = hub.perform second now action ∧
      ∀ next reply, hub.perform first now action = .ok (next, reply) → property next := by
  cases action with
  | subscribe name layout settings =>
      refine ⟨rfl, fun next reply performed => ?_⟩
      obtain ⟨rfl, -⟩ := Prod.mk.inj (Except.ok.inj performed)
      exact lasting.arranges (hub.arranges_subscribe name layout settings) holds
  | unsubscribe name =>
      refine ⟨rfl, fun next reply performed => ?_⟩
      obtain ⟨rfl, -⟩ := Prod.mk.inj (Except.ok.inj performed)
      exact lasting.arranges (hub.arranges_unsubscribe name) holds
  | listen place kind =>
      refine ⟨rfl, fun next reply performed => ?_⟩
      obtain ⟨rfl, -⟩ := Prod.mk.inj (Except.ok.inj performed)
      exact lasting.listen place kind holds
  | remove number =>
      refine ⟨rfl, fun next reply performed => ?_⟩
      obtain ⟨rfl, -⟩ := Prod.mk.inj (Except.ok.inj performed)
      exact lasting.remove number holds
  | deliver signal =>
      obtain ⟨same, keeps⟩ := lasting.agree_deliver agree now signal holds
      refine ⟨by rw [perform, perform, same], fun next reply performed => ?_⟩
      obtain ⟨delivered, ran, done⟩ := bind_eq_ok_iff.mp performed
      obtain ⟨rfl, -⟩ := Prod.mk.inj (Except.ok.inj done)
      exact keeps _ ran
  | poll =>
      obtain ⟨same, keeps⟩ := lasting.agree_poll agree now holds
      refine ⟨by rw [perform, perform, same], fun next reply performed => ?_⟩
      obtain ⟨polled, ran, done⟩ := bind_eq_ok_iff.mp performed
      obtain ⟨rfl, -⟩ := Prod.mk.inj (Except.ok.inj done)
      exact keeps _ ran

end

/-- No action breaks a lasting property. -/
theorem unbroken : Unbroken fun hub next : Hub α => property hub → property next where
  refl := fun _ => id
  trans := fun first second => second ∘ first
  perform := by
    intro effect now action hub next reply keeps performed holds
    have agree : ∀ {callback hub}, property hub →
        Agree property (effect callback hub) (effect callback hub) :=
      fun holds => ⟨rfl, fun _ ran => keeps ran holds⟩
    exact (lasting.agree_perform agree holds).2 next reply performed

/-- A lasting property holds when a callback begins. -/
theorem of_calls {depth now : Nat} {effect : Effect α} {action : Action α} {hub moment : Hub α}
    {callback : α} (acts : Acts depth effect) (holds : property hub)
    (calls : Calls (fun effect => hub.perform effect now action) effect callback moment) :
    property moment := by
  obtain ⟨other, differs, agrees⟩ := calls
  -- Otherwise the two effects would agree at all hubs that have the property.
  refine Classical.byContradiction fun isBroken =>
    differs (lasting.agree_perform (fun {ran hub} holds => ?_) holds).1.symm
  have same : other ran hub = effect ran hub := by
    apply agrees
    right
    rintro rfl
    exact isBroken holds
  exact ⟨same.symm, fun _ ranTo => lasting.unbroken.keeps_of_acts acts ranTo holds⟩

/-- **A lasting property holds of every hub that arises.** -/
theorem of_arises (isEmpty : property {}) {hub : Hub α} (arises : hub.Arises) : property hub := by
  induction arises with
  | empty => exact isEmpty
  | seat responder _ holds => exact lasting.calm (writes_seat _ responder) holds
  | act _ acts performed holds =>
      exact lasting.unbroken.perform (lasting.unbroken.keeps_of_acts acts) performed holds
  | call _ acts calls holds => exact lasting.of_calls acts holds calls

end Lasting

end Hub

end Keystrokes
