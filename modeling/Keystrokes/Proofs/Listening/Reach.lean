import Keystrokes.Listening.Delivery

/-!
# What hubs lead to

A host acts on a hub, and so do the callbacks that run meanwhile.  What a callback does
is not known, but it can only act on the hub: it leads from one hub to another by
actions, and the callbacks of these actions do the same one level deeper
(`Acts`).  Callbacks that follow a script are of this kind (`acts_runScript`).

A relation between hubs that no action breaks is not broken by what callbacks do, and
so it holds between a hub and whatever it leads to (`Unbroken.related_of_leads`).
-/

set_option autoImplicit false

namespace Keystrokes

namespace Hub

variable {α : Type}

/-! ## Outcomes -/

theorem bind_eq_ok_iff {β γ : Type} {first : Except Stall β} {second : β → Except Stall γ}
    {outcome : γ} :
    (first >>= second) = .ok outcome ↔ ∃ middle, first = .ok middle ∧ second middle = .ok outcome := by
  cases first with
  | error stall => simp [bind, Except.bind]
  | ok middle => simp [bind, Except.bind]

theorem map_eq_ok_iff {β γ : Type} {first : Except Stall β} {change : β → γ} {outcome : γ} :
    change <$> first = .ok outcome ↔ ∃ middle, first = .ok middle ∧ change middle = outcome := by
  cases first with
  | error stall => simp [Functor.map, Except.map]
  | ok middle => simp [Functor.map, Except.map]

/-! ## Actions -/

/-- A hub leads to another by actions one after the other, whose callbacks have effects
of some kind. -/
inductive Leads (kind : Effect α → Prop) : Hub α → Hub α → Prop where
  | refl (hub : Hub α) : Leads kind hub hub
  | act {hub middle last : Hub α} {effect : Effect α} {now : Nat} {action : Action α}
      {reply : Reply} : kind effect → hub.perform effect now action = .ok (middle, reply) →
      Leads kind middle last → Leads kind hub last

/-- The effects of callbacks that act on the hub, and whose actions run callbacks that
do so at most some levels deeper. -/
def Acts : Nat → Effect α → Prop
  | 0, effect => ∀ callback hub next, effect callback hub = .ok next → next = hub
  | depth + 1, effect =>
      ∀ callback hub next, effect callback hub = .ok next → Leads (Acts depth) hub next

/-- A hub is reachable when nothing but actions lead to it from an empty one. -/
def Reachable (hub : Hub α) : Prop :=
  ∃ depth, Leads (Acts depth) {} hub

theorem Leads.trans {kind : Effect α → Prop} {hub middle last : Hub α}
    (first : Leads kind hub middle) (second : Leads kind middle last) : Leads kind hub last := by
  induction first with
  | refl => exact second
  | act isKind performed _ hypothesis => exact .act isKind performed (hypothesis second)

/-! ## Relations that nothing breaks -/

/-- An effect keeps a relation when it leads to related hubs. -/
def Keeps (related : Hub α → Hub α → Prop) (effect : Effect α) : Prop :=
  ∀ {callback hub next}, effect callback hub = .ok next → related hub next

/-- No action breaks a relation unless a callback does. -/
structure Unbroken (related : Hub α → Hub α → Prop) : Prop where
  refl : ∀ hub, related hub hub
  trans : ∀ {hub middle last}, related hub middle → related middle last → related hub last
  perform : ∀ {effect : Effect α} {now : Nat} {action : Action α} {hub next : Hub α}
    {reply : Reply}, Keeps related effect →
    hub.perform effect now action = .ok (next, reply) → related hub next

variable {related : Hub α → Hub α → Prop}

/-- A relation that the steps of a list keep is kept by all of them. -/
theorem related_of_foldlM {β : Type} (refl : ∀ hub, related hub hub)
    (trans : ∀ {hub middle last}, related hub middle → related middle last → related hub last)
    {step : Hub α → β → Except Stall (Hub α)}
    (keeps : ∀ {hub item next}, step hub item = .ok next → related hub next)
    {items : List β} {hub last : Hub α} (ran : items.foldlM step hub = .ok last) :
    related hub last := by
  induction items generalizing hub with
  | nil =>
      obtain rfl : hub = last := by simpa [pure, Except.pure] using ran
      exact refl hub
  | cons item items hypothesis =>
      rw [List.foldlM_cons] at ran
      obtain ⟨middle, stepped, ranLater⟩ := bind_eq_ok_iff.mp ran
      exact trans (keeps stepped) (hypothesis ranLater)

namespace Unbroken

theorem related_of_kind (unbroken : Unbroken related) {kind : Effect α → Prop}
    (keeps : ∀ {effect}, kind effect → Keeps related effect) {hub last : Hub α}
    (leads : Leads kind hub last) : related hub last := by
  induction leads with
  | refl hub => exact unbroken.refl hub
  | act isKind performed _ hypothesis =>
      exact unbroken.trans (unbroken.perform (keeps isKind) performed) hypothesis

theorem keeps_of_acts (unbroken : Unbroken related) {depth : Nat} {effect : Effect α}
    (acts : Acts depth effect) : Keeps related effect := by
  -- The actions of a callback run callbacks that act at most one level less deep.
  induction depth generalizing effect with
  | zero =>
      intro callback hub next ran
      rw [acts callback hub next ran]
      exact unbroken.refl hub
  | succ depth hypothesis =>
      intro callback hub next ran
      exact unbroken.related_of_kind hypothesis (acts callback hub next ran)

/-- **What no action breaks holds between a hub and whatever it leads to.** -/
theorem related_of_leads (unbroken : Unbroken related) {depth : Nat} {hub last : Hub α}
    (leads : Leads (Acts depth) hub last) : related hub last :=
  unbroken.related_of_kind unbroken.keeps_of_acts leads

end Unbroken

/-! ## Scripts -/

/-- **A callback that follows a script acts on the hub.** -/
theorem acts_runScript (script : α → List (Action α)) (now depth : Nat) :
    Acts depth (runScript script now depth) := by
  induction depth with
  | zero =>
      intro callback hub next ran
      rw [runScript] at ran
      split at ran
      · exact (Except.ok.inj ran).symm
      · exact absurd ran (by simp)
  | succ depth hypothesis =>
      intro callback hub next ran
      rw [runScript] at ran
      refine related_of_foldlM Leads.refl Leads.trans ?_ ran
      intro hub action next stepped
      obtain ⟨⟨middle, reply⟩, performed, rfl⟩ := map_eq_ok_iff.mp stepped
      exact .act hypothesis performed (.refl _)

end Hub

end Keystrokes
