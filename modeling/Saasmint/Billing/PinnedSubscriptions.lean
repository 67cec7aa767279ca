import Saasmint.Billing.Payloads
import Saasmint.Billing.PlanChanges
import Saasmint.Billing.Subscriptions

/-!
# Changing a subscription that a schedule pins

A deferred downgrade is a Stripe schedule, and Stripe rejects a change of a subscription
whose lifecycle a schedule owns.  A request that changes one should release the schedule
first.  The requests find out in four ways: a plan change from the `schedule` field of the
subscription it has retrieved, a cancellation from the local row, and a resumption or a
change of the seats not at all.

`AttachesNone` is what the others may do in the meantime: anything at Stripe but attaching a
schedule.
-/

namespace Saasmint

open Atomic Handler

variable {σ : Type}

/-! ## Schedules at Stripe -/

/-- The subscription that the call changes. -/
def StripeCall.changes? : StripeCall → Option String
  | subscriptionModify id _ | subscriptionCancel id => some id
  | _ => none

/-- How Stripe treats schedules.  `pinnedBy` is the schedule, not started or active, that is
attached to a subscription. -/
structure Schedules (stripe : Stripe σ) (pinnedBy : σ → String → Option String) : Prop where
  /-- A schedule has an id that is not empty. -/
  named : ∀ s id scheduleId, pinnedBy s id = some scheduleId → scheduleId ≠ ""
  /-- Retrieving changes nothing. -/
  retrieveSubscription : ∀ id s, pinnedBy (stripe.call (.subscriptionRetrieve id) s).2 = pinnedBy s
  retrieveSchedule : ∀ id s, pinnedBy (stripe.call (.scheduleRetrieve id) s).2 = pinnedBy s
  /-- The field `schedule` of a subscription is the schedule that is attached to it. -/
  shown : ∀ s id scheduleId sub, pinnedBy s id = some scheduleId →
    (stripe.call (.subscriptionRetrieve id) s).1 = .ok sub →
      ∃ fields, sub = .obj fields ∧ fields.lookup "schedule" = some (.str scheduleId)
  /-- A schedule that is attached is not started or active. -/
  attached : ∀ s id scheduleId schedule, pinnedBy s id = some scheduleId →
    (stripe.call (.scheduleRetrieve scheduleId) s).1 = .ok schedule →
      ∃ fields, schedule = .obj fields ∧ fields.lookup "id" = some (.str scheduleId) ∧
        (fields.lookup "status" = some (.str "not_started") ∨
          fields.lookup "status" = some (.str "active"))
  /-- A release attaches nothing. -/
  release : ∀ s scheduleId id other,
    pinnedBy (stripe.call (.scheduleRelease scheduleId) s).2 id = some other → pinnedBy s id = some other
  /-- A schedule that has been released is attached to nothing. -/
  released : ∀ s scheduleId answer id, (stripe.call (.scheduleRelease scheduleId) s).1 = .ok answer →
    pinnedBy (stripe.call (.scheduleRelease scheduleId) s).2 id ≠ some scheduleId

/-- What others do in between attaches no schedule; they leave the active rows alone. -/
structure AttachesNone (pinnedBy : σ → String → Option String) (w w' : World σ) : Prop where
  pins : ∀ id scheduleId, pinnedBy w'.stripe id = some scheduleId →
    pinnedBy w.stripe id = some scheduleId
  active : ∀ customerId, w'.db.activeForCustomer customerId = w.db.activeForCustomer customerId

namespace AttachesNone

variable {pinnedBy : σ → String → Option String} {w w' w'' : World σ}

theorem refl (pinnedBy : σ → String → Option String) (w : World σ) : AttachesNone pinnedBy w w :=
  ⟨fun _ _ h => h, fun _ => rfl⟩

theorem trans (h : AttachesNone pinnedBy w w') (h' : AttachesNone pinnedBy w' w'') :
    AttachesNone pinnedBy w w'' :=
  ⟨fun id scheduleId hpin => h.pins id scheduleId (h'.pins id scheduleId hpin),
    fun customerId => (h'.active customerId).trans (h.active customerId)⟩

/-- A subscription that is free stays free. -/
theorem free (h : AttachesNone pinnedBy w w') {id : String} (hfree : pinnedBy w.stripe id = none) :
    pinnedBy w'.stripe id = none := by
  cases hpin : pinnedBy w'.stripe id with
  | none => rfl
  | some scheduleId =>
      rw [h.pins id scheduleId hpin] at hfree
      cases hfree

/-- It is pinned by the schedule that has pinned it, or free. -/
theorem pinned (h : AttachesNone pinnedBy w w') {id scheduleId : String}
    (hpin : pinnedBy w.stripe id = some scheduleId) :
    pinnedBy w'.stripe id = none ∨ pinnedBy w'.stripe id = some scheduleId := by
  cases hpin' : pinnedBy w'.stripe id with
  | none => exact Or.inl rfl
  | some scheduleId' =>
      rw [h.pins id scheduleId' hpin'] at hpin
      exact Or.inr hpin

end AttachesNone

/-! ## Requests that change a subscription -/

/-- A cancellation, at once or at the end of the period, a resumption, a change of the
seats or a change of the plan. -/
inductive SubscriptionRequest
  | cancel (customerId : UUID) (atPeriodEnd : Bool)
  | resume (customerId : UUID)
  | seats (active : Subscription) (quantity : Int)
  | plan (stripeSubscriptionId newStripePriceId : String) (newPriceAmount : Option Int)
      (prorate : Bool) (quantity : Option Int)

def SubscriptionRequest.serve (rt : Runtime σ) : SubscriptionRequest → Handler σ Unit
  | cancel customerId atPeriodEnd => cancelSubscription rt customerId atPeriodEnd
  | resume customerId => resumeSubscription rt customerId
  | seats active quantity => updateSeatCount rt active quantity
  | plan stripeSubscriptionId newStripePriceId newPriceAmount prorate quantity =>
      changePlan rt stripeSubscriptionId newStripePriceId newPriceAmount prorate quantity

/-- A call that changes a subscription finds it free. -/
def FindsFree (pinnedBy : σ → String → Option String) : Action → World σ → Prop
  | .stripe call, w => ∀ id ∈ call.changes?, pinnedBy w.stripe id = none
  | _, _ => True

/-- Whatever the others do at Stripe short of attaching a schedule, whenever the request
changes a subscription, no schedule is attached to it. -/
def SubscriptionRequest.NeverPinned (rt : Runtime σ) (pinnedBy : σ → String → Option String)
    (request : SubscriptionRequest) (w : World σ) : Prop :=
  (request.serve rt).Checks (AttachesNone pinnedBy) (FindsFree pinnedBy) (fun _ _ => True) w

/-- The item and its quantity, as a change of the seats needs them. -/
def SeatsReadable (quantity : Int) (sub : Json) : Prop :=
  ∃ firstItem, subscriptionItem sub = .ok firstItem ∧ (∃ itemId, firstItem.item "id" = .ok itemId) ∧
    ∃ current more, firstItem.item "quantity" = .ok current ∧ current.ltInt quantity = .ok more

/-- No schedule is attached to the subscription, or the request looks for one: a plan
change does, and a cancellation when the local row has a scheduled plan.  A request that
ends before it changes anything need not. -/
def SubscriptionRequest.Unobstructed (rt : Runtime σ) (pinnedBy : σ → String → Option String)
    (w : World σ) : SubscriptionRequest → Prop
  | cancel customerId _ => ∀ active ∈ w.db.latestActive customerId, ∀ id ∈ active.stripeId,
      active.scheduledPlanId = none → pinnedBy w.stripe id = none
  | resume customerId => ∀ active ∈ w.db.latestActive customerId, ∀ id ∈ active.stripeId,
      pinnedBy w.stripe id = none
  | seats active quantity => 1 ≤ quantity → ∀ id ∈ active.stripeId,
      ∀ sub, (rt.stripe.call (.subscriptionRetrieve id) w.stripe).1 = .ok sub →
        SeatsReadable quantity sub → pinnedBy w.stripe id = none
  | plan _ _ _ _ _ => True

/-! ## Actions -/

section Checks

variable {α β : Type} {pinnedBy : σ → String → Option String} {w : World σ} {rt : Runtime σ}

theorem checks_lift {post : Py α → World σ → Prop} {result : Py α} :
    (lift result : Handler σ α).Checks (AttachesNone pinnedBy) (FindsFree pinnedBy) post w ↔ post result w := Iff.rfl

theorem checks_callStripe {post : Py Json → World σ → Prop} {call : StripeCall} :
    (callStripe rt call).Checks (AttachesNone pinnedBy) (FindsFree pinnedBy) post w ↔
      (∀ id ∈ call.changes?, pinnedBy w.stripe id = none) ∧
        ∀ t, AttachesNone pinnedBy { w with stripe := (rt.stripe.call call w.stripe).2 } t →
          post (rt.stripe.call call w.stripe).1 t := Iff.rfl

theorem checks_readSubscription {post : Py α → World σ → Prop} {f : Db → α} :
    (readSubscription f : Handler σ α).Checks (AttachesNone pinnedBy) (FindsFree pinnedBy) post w ↔
      ∀ t, AttachesNone pinnedBy w t → post (.ok (f w.db)) t :=
  ⟨fun h => h.2, fun h => ⟨trivial, h⟩⟩

/-- The lookup finds the latest of the active rows, and what is free then stays so. -/
theorem checks_getActiveForCustomer {post : Py (Option Subscription) → World σ → Prop}
    {customerId : UUID}
    (h : ∀ t, AttachesNone pinnedBy w t → post (.ok (w.db.latestActive customerId)) t) :
    (getActiveForCustomer customerId : Handler σ _).Checks (AttachesNone pinnedBy) (FindsFree pinnedBy)
      post w := by
  unfold getActiveForCustomer
  rw [Fallible.checks_bind, checks_readSubscription]
  intro t ht
  rw [Fallible.followChecks_ok]
  unfold Db.latestActive at h
  rcases hrows : w.db.activeForCustomer customerId with _ | ⟨active, _ | ⟨next, rest⟩⟩
  · rw [hrows] at h
    exact h t ht
  · rw [hrows] at h
    exact h t ht
  · dsimp only
    rw [checks_readSubscription]
    intro t' ht'
    have hsame : t.db.latestActive customerId = Db.latest? (w.db.activeForCustomer customerId) := by
      unfold Db.latestActive
      rw [ht.active]
    rw [hsame]
    exact h t' (ht.trans ht')

/-- If nobody else does anything, what follows the lookup is served in the world it has
found. -/
theorem of_checks_getActiveForCustomer {post : Py (Option Subscription) → World σ → Prop}
    {customerId : UUID} (h : (getActiveForCustomer customerId : Handler σ _).Checks
      (AttachesNone pinnedBy) (FindsFree pinnedBy) post w) :
    post (.ok (w.db.latestActive customerId)) w := by
  unfold getActiveForCustomer at h
  rw [Fallible.checks_bind, checks_readSubscription] at h
  have hrest := h w (.refl pinnedBy w)
  rw [Fallible.followChecks_ok] at hrest
  rcases hrows : w.db.activeForCustomer customerId with _ | ⟨active, _ | ⟨next, rest⟩⟩
  · rw [hrows] at hrest
    unfold Db.latestActive
    rw [hrows]
    exact hrest
  · rw [hrows] at hrest
    unfold Db.latestActive
    rw [hrows]
    exact hrest
  · rw [hrows] at hrest
    dsimp only at hrest
    rw [checks_readSubscription] at hrest
    exact hrest w (.refl pinnedBy w)

/-! ## Requests without a change -/

/-- The handler changes no subscription, whatever it finds. -/
def Harmless (pinnedBy : σ → String → Option String) (p : Handler σ α) : Prop :=
  ∀ w, p.Checks (AttachesNone pinnedBy) (FindsFree pinnedBy) (fun _ _ => True) w

theorem harmless_bind {p : Handler σ α} {rest : α → Handler σ β} (hp : Harmless pinnedBy p)
    (hrest : ∀ a, Harmless pinnedBy (rest a)) : Harmless pinnedBy (p >>= rest) := by
  refine fun w => Fallible.checks_bind.mpr ((hp w).mono fun result t _ => ?_)
  cases result with
  | error e => trivial
  | ok a => exact hrest a t

theorem harmless_pure (a : α) : Harmless pinnedBy (pure a : Handler σ α) := fun _ => trivial

theorem harmless_throw (e : PyError) : Harmless pinnedBy (throw e : Handler σ α) := fun _ => trivial

theorem harmless_lift (result : Py α) : Harmless pinnedBy (lift result : Handler σ α) :=
  fun _ => trivial

theorem harmless_callStripe {call : StripeCall} (h : call.changes? = none) :
    Harmless pinnedBy (callStripe rt call) := by
  refine fun w => checks_callStripe.mpr ⟨fun id hid => ?_, fun _ _ => trivial⟩
  rw [h] at hid
  cases hid

theorem harmless_saveSubscription (now : Datetime) (row : Subscription) :
    Harmless pinnedBy (saveSubscription now row : Handler σ Unit) :=
  fun _ => ⟨trivial, fun _ _ => trivial⟩

theorem harmless_mirrorCancelStateFromStripe (active : Subscription) (stripeSub : Json) :
    Harmless pinnedBy (mirrorCancelStateFromStripe rt active stripeSub) :=
  harmless_bind (harmless_lift _) fun _ => harmless_saveSubscription _ _

/-- A downgrade goes to the schedule. -/
theorem harmless_scheduleDowngradeAtPeriodEnd (sub : Json) (newStripePriceId : String)
    (quantity : Int) :
    Harmless pinnedBy (scheduleDowngradeAtPeriodEnd rt sub newStripePriceId quantity) := by
  have hschedule : Harmless pinnedBy (pinningSchedule rt sub) := by
    unfold pinningSchedule
    refine harmless_bind (harmless_lift _) fun existing => ?_
    split
    · exact harmless_pure _
    · refine harmless_bind (harmless_lift _) fun id => ?_
      refine harmless_bind (harmless_callStripe rfl) fun schedule => ?_
      exact harmless_bind (harmless_lift _) fun _ => harmless_pure _
  have hphases : ∀ current : CurrentTerms, Harmless pinnedBy (do
      let scheduleId ← pinningSchedule rt sub
      let _ ← callStripe rt (.scheduleModify scheduleId
        [⟨current.priceId, quantity, current.periodStart, some current.periodEnd⟩,
          ⟨newStripePriceId, quantity, current.periodEnd, none⟩])) := by
    refine fun current => harmless_bind hschedule fun scheduleId => ?_
    exact harmless_bind (harmless_callStripe rfl) fun _ => harmless_pure _
  unfold scheduleDowngradeAtPeriodEnd
  refine harmless_bind (harmless_lift _) fun firstItem => ?_
  refine harmless_bind (harmless_lift _) fun current => ?_
  refine harmless_bind (harmless_callStripe rfl) fun newPrice => ?_
  refine harmless_bind (harmless_lift _) fun currency => ?_
  dsimp only
  split
  · exact harmless_bind (harmless_throw _) fun _ => hphases current
  · exact hphases current

/-- A change that nothing else follows finds the subscription free just when it is. -/
theorem checks_change {call : StripeCall} {id : String} {rest : Json → Handler σ β}
    (hcall : call.changes? = some id) (hrest : ∀ answer, Harmless pinnedBy (rest answer)) :
    (callStripe rt call >>= rest).Checks (AttachesNone pinnedBy) (FindsFree pinnedBy)
      (fun _ _ => True) w ↔ pinnedBy w.stripe id = none := by
  rw [Fallible.checks_bind, checks_callStripe, hcall]
  constructor
  · exact fun h => h.1 id rfl
  · refine fun hfree => ⟨fun id' hid' => Option.some.inj hid' ▸ hfree, fun t _ => ?_⟩
    cases (rt.stripe.call call w.stripe).1 with
    | error e => trivial
    | ok answer => exact hrest answer t

/-! ## Looking for a schedule -/

variable (hstripe : Schedules rt.stripe pinnedBy)
include hstripe

theorem checks_subscriptionRetrieve {post : Py Json → World σ → Prop} {id : String}
    (h : ∀ t, AttachesNone pinnedBy w t → post (rt.stripe.call (.subscriptionRetrieve id) w.stripe).1 t) :
    (callStripe rt (.subscriptionRetrieve id)).Checks (AttachesNone pinnedBy) (FindsFree pinnedBy)
      post w := by
  refine checks_callStripe.mpr ⟨nofun, fun t ht => h t ⟨?_, ht.active⟩⟩
  simpa only [hstripe.retrieveSubscription] using ht.pins

theorem checks_scheduleRetrieve {post : Py Json → World σ → Prop} {id : String}
    (h : ∀ t, AttachesNone pinnedBy w t → post (rt.stripe.call (.scheduleRetrieve id) w.stripe).1 t) :
    (callStripe rt (.scheduleRetrieve id)).Checks (AttachesNone pinnedBy) (FindsFree pinnedBy)
      post w := by
  refine checks_callStripe.mpr ⟨nofun, fun t ht => h t ⟨?_, ht.active⟩⟩
  simpa only [hstripe.retrieveSchedule] using ht.pins

/-- A schedule that has been released pins nothing from then on. -/
theorem checks_scheduleRelease {post : Py Json → World σ → Prop} {scheduleId : String}
    (h : ∀ t, AttachesNone pinnedBy w t → (∀ answer,
      (rt.stripe.call (.scheduleRelease scheduleId) w.stripe).1 = .ok answer →
        ∀ id, pinnedBy t.stripe id ≠ some scheduleId) →
      post (rt.stripe.call (.scheduleRelease scheduleId) w.stripe).1 t) :
    (callStripe rt (.scheduleRelease scheduleId)).Checks (AttachesNone pinnedBy)
      (FindsFree pinnedBy) post w := by
  refine checks_callStripe.mpr ⟨nofun, fun t ht => h t ⟨fun id other hpin => ?_, ht.active⟩ ?_⟩
  · exact hstripe.release _ _ _ _ (ht.pins id other hpin)
  · intro answer hanswer id hpin
    exact hstripe.released _ _ answer id hanswer (ht.pins id scheduleId hpin)

/-- After a release the subscription is free: what pins it then has pinned it before, was
shown, and has been released. -/
theorem checks_releasePendingSchedule (stripeId : String) :
    (releasePendingSchedule rt stripeId).Checks (AttachesNone pinnedBy) (FindsFree pinnedBy)
      (fun result t => AttachesNone pinnedBy w t ∧
        (result = .ok () → pinnedBy t.stripe stripeId = none)) w := by
  unfold releasePendingSchedule
  rw [Fallible.checks_bind]
  refine checks_subscriptionRetrieve hstripe fun t ht => ?_
  cases hsub : (rt.stripe.call (.subscriptionRetrieve stripeId) w.stripe).1 with
  | error e => exact ⟨ht, nofun⟩
  | ok sub =>
  rw [Fallible.followChecks_ok, Fallible.checks_bind, checks_lift]
  cases hschedule : sub.attr "schedule" with
  | error e => exact ⟨ht, nofun⟩
  | ok scheduleId =>
  rw [Fallible.followChecks_ok]
  have hshown : ∀ pin, pinnedBy t.stripe stripeId = some pin → scheduleId = .str pin := by
    intro pin hpin
    obtain ⟨fields, rfl, hfield⟩ := hstripe.shown _ _ _ _ (ht.pins _ _ hpin) hsub
    rw [Json.attr, hfield] at hschedule
    exact (Except.ok.inj hschedule).symm
  split
  next htruthy =>
      rw [Fallible.checks_bind]
      refine checks_scheduleRetrieve hstripe fun t' ht' => ?_
      cases hretrieved : (rt.stripe.call (.scheduleRetrieve scheduleId.toStr) t.stripe).1 with
      | error e => exact ⟨ht.trans ht', nofun⟩
      | ok schedule =>
      rw [Fallible.followChecks_ok, Fallible.checks_bind, checks_lift]
      cases hstatus : schedule.attr "status" with
      | error e => exact ⟨ht.trans ht', nofun⟩
      | ok status =>
      rw [Fallible.followChecks_ok]
      have hattached : ∀ pin, pinnedBy t'.stripe stripeId = some pin →
          schedule.attr "id" = .ok (.str pin) ∧
            (status.toStr = "not_started" ∨ status.toStr = "active") := by
        intro pin hpin
        have hpin : pinnedBy t.stripe stripeId = some pin := ht'.pins _ _ hpin
        rw [hshown pin hpin] at hretrieved
        obtain ⟨fields, rfl, hid, hreleasable⟩ := hstripe.attached _ _ _ _ hpin hretrieved
        rw [Json.attr] at hstatus
        refine ⟨by rw [Json.attr, hid], ?_⟩
        rcases hreleasable with hfield | hfield
        · rw [hfield] at hstatus
          exact Or.inl (Except.ok.inj hstatus ▸ rfl)
        · rw [hfield] at hstatus
          exact Or.inr (Except.ok.inj hstatus ▸ rfl)
      split
      next =>
          rw [Fallible.checks_bind, checks_lift]
          cases hid : schedule.attr "id" with
          | error e => exact ⟨ht.trans ht', nofun⟩
          | ok id =>
          rw [Fallible.followChecks_ok, Fallible.checks_bind]
          refine checks_scheduleRelease hstripe fun t'' ht'' hreleased => ?_
          have hcalm : AttachesNone pinnedBy w t'' := ht.trans (ht'.trans ht'')
          cases hanswer : (rt.stripe.call (.scheduleRelease id.toStr) t'.stripe).1 with
          | error e => exact ⟨hcalm, nofun⟩
          | ok answer =>
          refine ⟨hcalm, fun _ => Option.eq_none_iff_forall_ne_some.mpr fun pin hpin => ?_⟩
          have hsame : schedule.attr "id" = .ok (.str pin) := (hattached pin (ht''.pins _ _ hpin)).1
          rw [hid] at hsame
          rw [Except.ok.inj hsame] at hreleased hanswer
          exact hreleased answer hanswer stripeId hpin
      next hterminal =>
          refine ⟨ht.trans ht', fun _ => Option.eq_none_iff_forall_ne_some.mpr fun pin hpin => ?_⟩
          exact hterminal (hattached pin hpin).2
  next hfalsy =>
      refine ⟨ht, fun _ => Option.eq_none_iff_forall_ne_some.mpr fun pin hpin => hfalsy ?_⟩
      rw [hshown pin hpin]
      exact decide_eq_true (hstripe.named _ _ _ hpin)

/-- The item is read after the schedule that is shown has been released. -/
theorem checks_releasedItem {sub : Json} {stripeId itemId : String}
    (hshown : ∀ pin, pinnedBy w.stripe stripeId = some pin →
      ∃ fields, sub = .obj fields ∧ fields.lookup "schedule" = some (.str pin)) :
    (releasedItem rt sub stripeId itemId).Checks (AttachesNone pinnedBy) (FindsFree pinnedBy)
      (fun result t => ∀ itemId, result = .ok itemId → pinnedBy t.stripe stripeId = none) w := by
  unfold releasedItem
  rw [Fallible.checks_bind, checks_lift]
  cases hexisting : safeGet sub "schedule" with
  | error e => exact nofun
  | ok existing =>
  rw [Fallible.followChecks_ok]
  have hpinning : ∀ pin, pinnedBy w.stripe stripeId = some pin → existing = .str pin := by
    intro pin hpin
    obtain ⟨fields, rfl, hfield⟩ := hshown pin hpin
    rw [safeGet, if_neg (by simp [Json.isNull]), Json.item, hfield] at hexisting
    exact (Except.ok.inj hexisting).symm
  split
  next htruthy =>
      rw [Fallible.checks_bind]
      refine checks_scheduleRelease hstripe fun t ht hreleased => ?_
      cases hanswer : (rt.stripe.call (.scheduleRelease existing.toStr) w.stripe).1 with
      | error e => exact nofun
      | ok answer =>
      have hfree : pinnedBy t.stripe stripeId = none := by
        refine Option.eq_none_iff_forall_ne_some.mpr fun pin hpin => ?_
        rw [hpinning pin (ht.pins _ _ hpin)] at hreleased hanswer
        exact hreleased answer hanswer stripeId hpin
      rw [Fallible.followChecks_ok, Fallible.checks_bind]
      refine checks_subscriptionRetrieve hstripe fun t' ht' => ?_
      have hfree' : pinnedBy t'.stripe stripeId = none := ht'.free hfree
      cases (rt.stripe.call (.subscriptionRetrieve stripeId) t.stripe).1 with
      | error e => exact nofun
      | ok sub =>
      -- what is left of the request calls nobody
      rw [Fallible.followChecks_ok, Fallible.checks_bind, checks_lift]
      cases subscriptionItem sub with
      | error e => exact nofun
      | ok firstItem =>
      rw [Fallible.followChecks_ok, Fallible.checks_bind, checks_lift]
      cases firstItem.item "id" with
      | error e => exact nofun
      | ok id => exact fun _ _ => hfree'
  next hfalsy =>
      refine fun _ _ => Option.eq_none_iff_forall_ne_some.mpr fun pin hpin => hfalsy ?_
      rw [hpinning pin hpin]
      exact decide_eq_true (hstripe.named _ _ _ hpin)

end Checks

/-! ## The requests -/

section Requests

variable {pinnedBy : σ → String → Option String} {w : World σ} {rt : Runtime σ}

theorem neverPinned_resume_iff (customerId : UUID) :
    (SubscriptionRequest.resume customerId).NeverPinned rt pinnedBy w ↔
      (SubscriptionRequest.resume customerId).Unobstructed rt pinnedBy w := by
  unfold SubscriptionRequest.NeverPinned SubscriptionRequest.Unobstructed SubscriptionRequest.serve
    resumeSubscription
  dsimp only
  rw [Fallible.checks_bind]
  constructor
  · intro h active hactive id hid
    have hrest := of_checks_getActiveForCustomer h
    rw [Option.mem_def.mp hactive, Fallible.followChecks_ok] at hrest
    dsimp only at hrest
    rw [Option.mem_def.mp hid] at hrest
    exact (checks_change rfl fun _ => harmless_mirrorCancelStateFromStripe _ _).mp hrest
  · intro h
    refine checks_getActiveForCustomer fun t ht => ?_
    rw [Fallible.followChecks_ok]
    split
    next active hactive =>
        split
        next id hid =>
            refine (checks_change rfl fun _ => harmless_mirrorCancelStateFromStripe _ _).mpr ?_
            exact ht.free (h active hactive id hid)
        next => trivial
    next => trivial

theorem neverPinned_cancel_iff (hstripe : Schedules rt.stripe pinnedBy) (customerId : UUID)
    (atPeriodEnd : Bool) : (SubscriptionRequest.cancel customerId atPeriodEnd).NeverPinned rt pinnedBy w ↔
      (SubscriptionRequest.cancel customerId atPeriodEnd).Unobstructed rt pinnedBy w := by
  have hcall : ∀ id, (if atPeriodEnd then StripeCall.subscriptionModify id (.cancelAt "min_period_end")
      else .subscriptionCancel id).changes? = some id := by
    intro id
    cases atPeriodEnd <;> rfl
  unfold SubscriptionRequest.NeverPinned SubscriptionRequest.Unobstructed SubscriptionRequest.serve
    cancelSubscription
  dsimp only
  rw [Fallible.checks_bind]
  constructor
  · intro h active hactive id hid hunscheduled
    have hrest := of_checks_getActiveForCustomer h
    rw [Option.mem_def.mp hactive, Fallible.followChecks_ok] at hrest
    dsimp only at hrest
    rw [Option.mem_def.mp hid] at hrest
    dsimp only at hrest
    rw [if_neg (not_not.mpr hunscheduled)] at hrest
    exact (checks_change (hcall id) fun _ => harmless_mirrorCancelStateFromStripe _ _).mp hrest
  · intro h
    refine checks_getActiveForCustomer fun t ht => ?_
    rw [Fallible.followChecks_ok]
    split
    next active hactive =>
        split
        next id hid =>
            split
            next =>
                rw [Fallible.checks_bind]
                refine (checks_releasePendingSchedule hstripe id).mono fun result t' hreleased => ?_
                cases result with
                | error e => trivial
                | ok _ =>
                refine (checks_change (hcall id) fun _ =>
                  harmless_mirrorCancelStateFromStripe _ _).mpr ?_
                exact hreleased.2 rfl
            next hunscheduled =>
                refine (checks_change (hcall id) fun _ =>
                  harmless_mirrorCancelStateFromStripe _ _).mpr ?_
                exact ht.free (h active hactive id hid (not_not.mp hunscheduled))
        next => trivial
    next => trivial

/-- What is left of a change of the seats once the subscription has been retrieved. -/
theorem checks_resize {id : String} {sub : Json} {quantity : Int} {rest : Handler σ Unit}
    (hrest : Harmless pinnedBy rest) :
    Fallible.Checks (AttachesNone pinnedBy) (FindsFree pinnedBy) (fun _ _ => True) (do
      let firstItem ← lift do (← (← sub.item "items").item "data").nth 0
      let itemId := (← lift (firstItem.item "id")).toStr
      let currentQuantity ← lift (firstItem.item "quantity")
      let proration := if ← lift (currentQuantity.ltInt quantity) then "create_prorations" else "none"
      let _ ← callStripe rt (.subscriptionModify id (.item itemId none quantity proration))
      rest) w ↔ (SeatsReadable quantity sub → pinnedBy w.stripe id = none) := by
  unfold SeatsReadable
  rw [Fallible.checks_bind, checks_lift]
  show Fallible.FollowChecks _ _ _ _ (subscriptionItem sub) w ↔ _
  cases subscriptionItem sub with
  | error e => simp
  | ok firstItem =>
  rw [Fallible.followChecks_ok, Fallible.checks_bind, checks_lift]
  cases hitem : firstItem.item "id" with
  | error e => simp [hitem]
  | ok itemId =>
  rw [Fallible.followChecks_ok, Fallible.checks_bind, checks_lift]
  cases hcurrent : firstItem.item "quantity" with
  | error e => simp [hcurrent]
  | ok current =>
  rw [Fallible.followChecks_ok, Fallible.checks_bind, checks_lift]
  cases hmore : current.ltInt quantity with
  | error e => simp [hcurrent, hmore]
  | ok more =>
  rw [Fallible.followChecks_ok, checks_change rfl fun _ => hrest]
  exact ⟨fun hfree _ => hfree,
    fun h => h ⟨firstItem, rfl, ⟨itemId, hitem⟩, current, more, hcurrent, hmore⟩⟩

theorem neverPinned_seats_iff (hstripe : Schedules rt.stripe pinnedBy) (active : Subscription)
    (quantity : Int) : (SubscriptionRequest.seats active quantity).NeverPinned rt pinnedBy w ↔
      (SubscriptionRequest.seats active quantity).Unobstructed rt pinnedBy w := by
  unfold SubscriptionRequest.NeverPinned SubscriptionRequest.Unobstructed SubscriptionRequest.serve
    updateSeatCount
  dsimp only
  by_cases hquantity : quantity < 1
  · rw [if_pos hquantity]
    exact ⟨fun _ hpos => absurd hquantity (by omega), fun _ => trivial⟩
  rw [if_neg hquantity]
  cases hid : active.stripeId with
  | none => exact ⟨fun _ _ _ => nofun, fun _ => trivial⟩
  | some id =>
  have hsave : ∀ row, Harmless pinnedBy (if active.seatLimit ≠ quantity then
      saveSubscription rt.now row else pure () : Handler σ Unit) := by
    intro row
    split
    · exact harmless_saveSubscription _ _
    · exact harmless_pure _
  dsimp only
  rw [Fallible.checks_bind]
  constructor
  · intro h hpos id' hid' sub hsub hreadable
    obtain rfl : id = id' := Option.some.inj hid'
    rw [checks_callStripe, hsub] at h
    -- nobody else does anything, and retrieving changes nothing
    have hrest := h.2 _ (.refl pinnedBy _)
    rw [Fallible.followChecks_ok] at hrest
    have hfree := (checks_resize (hsave _)).mp hrest hreadable
    rwa [hstripe.retrieveSubscription] at hfree
  · intro h
    refine checks_subscriptionRetrieve hstripe fun t ht => ?_
    cases hsub : (rt.stripe.call (.subscriptionRetrieve id) w.stripe).1 with
    | error e => trivial
    | ok sub =>
    rw [Fallible.followChecks_ok]
    refine (checks_resize (hsave _)).mpr fun hreadable => ?_
    exact ht.free (h (by omega) id rfl sub hsub hreadable)

/-- A plan change looks for a schedule at Stripe. -/
theorem neverPinned_plan (hstripe : Schedules rt.stripe pinnedBy)
    (stripeSubscriptionId newStripePriceId : String) (newPriceAmount : Option Int) (prorate : Bool)
    (quantity : Option Int) : (SubscriptionRequest.plan stripeSubscriptionId newStripePriceId
      newPriceAmount prorate quantity).NeverPinned rt pinnedBy w := by
  unfold SubscriptionRequest.NeverPinned SubscriptionRequest.serve changePlan
  dsimp only
  rw [Fallible.checks_bind]
  refine checks_subscriptionRetrieve hstripe fun t ht => ?_
  cases hsub : (rt.stripe.call (.subscriptionRetrieve stripeSubscriptionId) w.stripe).1 with
  | error e => trivial
  | ok sub =>
  rw [Fallible.followChecks_ok, Fallible.checks_bind, checks_lift]
  cases subscriptionItem sub with
  | error e => trivial
  | ok firstItem =>
  rw [Fallible.followChecks_ok, Fallible.checks_bind, checks_lift]
  cases firstItem.item "id" with
  | error e => trivial
  | ok itemId =>
  rw [Fallible.followChecks_ok, Fallible.checks_bind, checks_lift]
  cases itemQuantity firstItem with
  | error e => trivial
  | ok currentQuantity =>
  rw [Fallible.followChecks_ok, Fallible.checks_bind, checks_lift]
  cases isDowngrade firstItem newPriceAmount with
  | error e => trivial
  | ok downgrade =>
  rw [Fallible.followChecks_ok]
  split
  · exact harmless_scheduleDowngradeAtPeriodEnd _ _ _ _
  · unfold applyImmediatePlanChange
    rw [Fallible.checks_bind]
    have hshown : ∀ pin, pinnedBy t.stripe stripeSubscriptionId = some pin →
        ∃ fields, sub = .obj fields ∧ fields.lookup "schedule" = some (.str pin) :=
      fun pin hpin => hstripe.shown _ _ _ _ (ht.pins _ _ hpin) hsub
    refine (checks_releasedItem hstripe hshown).mono fun result t' hfree => ?_
    cases result with
    | error e => trivial
    | ok itemId => exact (checks_change rfl fun _ => harmless_pure _).mpr (hfree itemId rfl)

end Requests

/-- **Changing a subscription under a schedule.**  A request changes a subscription only
while no schedule is attached to it, whatever others do at Stripe short of attaching one,
if and only if none is attached when it starts or it looks for one. -/
theorem neverPinned_iff_unobstructed {rt : Runtime σ} {pinnedBy : σ → String → Option String}
    (hstripe : Schedules rt.stripe pinnedBy) (request : SubscriptionRequest) (w : World σ) :
    request.NeverPinned rt pinnedBy w ↔ request.Unobstructed rt pinnedBy w := by
  cases request with
  | cancel customerId atPeriodEnd => exact neverPinned_cancel_iff hstripe customerId atPeriodEnd
  | resume customerId => exact neverPinned_resume_iff customerId
  | seats active quantity => exact neverPinned_seats_iff hstripe active quantity
  | plan => exact iff_of_true (neverPinned_plan hstripe _ _ _ _ _) trivial

/-! ## A pinned subscription -/

/-- A subscription with three seats, as long as a schedule is attached to it or not. -/
def scheduledObject (pinned : Bool) : Json :=
  .obj [("id", .str "sub_1"), ("status", .str "active"),
    ("schedule", if pinned then .str "sub_sched_1" else .null),
    ("cancel_at", .null), ("canceled_at", .null),
    ("items", .obj [("data", .arr [.obj [("id", .str "si_1"), ("quantity", .int 3)]])])]

/-- One subscription, which a schedule may pin; it rejects changes while one does. -/
def scheduledStripe : Stripe Bool where
  call
    | .subscriptionRetrieve _, pinned => (.ok (scheduledObject pinned), pinned)
    | .scheduleRetrieve id, pinned =>
        (.ok (.obj [("id", .str id), ("status", .str (if pinned then "active" else "released"))]), pinned)
    | .scheduleRelease id, true => (.ok (.obj [("id", .str id), ("status", .str "released")]), false)
    | .subscriptionModify _ _, false | .subscriptionCancel _, false =>
        (.ok (scheduledObject false), false)
    | _, pinned => (.error (.stripe none "The subscription is managed by the subscription schedule"),
        pinned)

def pinnedBySchedule (pinned : Bool) (_ : String) : Option String :=
  if pinned then some "sub_sched_1" else none

theorem schedules_scheduledStripe : Schedules scheduledStripe pinnedBySchedule where
  named pinned _ scheduleId h := by
    cases pinned with
    | false => cases h
    | true =>
        rw [← Option.some.inj h]
        decide
  retrieveSubscription _ _ := rfl
  retrieveSchedule _ _ := rfl
  shown pinned _ scheduleId sub hpin hsub := by
    cases pinned with
    | false => cases hpin
    | true =>
        cases hpin
        cases hsub
        exact ⟨_, rfl, rfl⟩
  attached pinned _ scheduleId schedule hpin hschedule := by
    cases pinned with
    | false => cases hpin
    | true =>
        cases hpin
        cases hschedule
        exact ⟨_, rfl, rfl, Or.inr rfl⟩
  release pinned scheduleId _ other h := by
    cases pinned with
    | false => cases h
    | true => cases h
  released pinned scheduleId answer _ h := by
    cases pinned with
    | false => cases h
    | true => exact nofun

def scheduledRuntime : Runtime Bool where
  stripe := scheduledStripe
  slugify := lower
  now := 0
  brokerUp := true
  subscriptionId := 1000#128
  orgId := 1001#128
  memberId := 1002#128
  customerId := 1003#128
  transactionId := 1004#128
  balanceId := 1005#128
  userId := 1006#128
  invitationId := 1007#128
  token := "token-0"

/-- The buyer's subscription, which will move to the basic plan. -/
def scheduledSubscription : Subscription :=
  { buyerSubscription with
    planId := proPlan.id
    scheduledPlanId := some basicPlan.id
    scheduledChangeAt := some 100000000 }

/-- The downgrade is scheduled, and so does the local row say. -/
def mirroredWorld : World Bool where
  db :=
    { toTables := { sampleDb.toTables with subscriptions := ⟨[scheduledSubscription], by decide⟩ }
      integral := by decide +kernel }
  stripe := true
  queue := []

/-- The downgrade is scheduled, and its event has not been processed yet. -/
def laggingWorld : World Bool := ⟨subscribedDb, true, []⟩

/-- A cancellation releases the schedule that the local row knows of. -/
theorem neverPinned_iff_unobstructed_mirrored :
    (SubscriptionRequest.cancel buyerCustomer.id true).NeverPinned scheduledRuntime pinnedBySchedule
        mirroredWorld ↔
      (SubscriptionRequest.cancel buyerCustomer.id true).Unobstructed scheduledRuntime
        pinnedBySchedule mirroredWorld :=
  neverPinned_iff_unobstructed schedules_scheduledStripe _ _

/-- A resumption and a change of the seats find the subscription pinned, although the local
row knows of the schedule; a cancellation does while it does not. -/
theorem not_neverPinned :
    (¬ (SubscriptionRequest.resume buyerCustomer.id).NeverPinned scheduledRuntime pinnedBySchedule
        mirroredWorld) ∧
      (¬ (SubscriptionRequest.seats scheduledSubscription 4).NeverPinned scheduledRuntime
        pinnedBySchedule mirroredWorld) ∧
      ¬ (SubscriptionRequest.cancel buyerCustomer.id true).NeverPinned scheduledRuntime
        pinnedBySchedule laggingWorld := by
  refine ⟨fun h => ?_, fun h => ?_, fun h => ?_⟩
  · have hfree := (neverPinned_resume_iff _).mp h scheduledSubscription rfl "sub_1" rfl
    cases hfree
  · have hreadable : SeatsReadable 4 (scheduledObject true) :=
      ⟨_, rfl, ⟨_, rfl⟩, _, true, rfl, rfl⟩
    have hfree := (neverPinned_seats_iff schedules_scheduledStripe _ _).mp h (by decide) "sub_1" rfl
      (scheduledObject true) rfl hreadable
    cases hfree
  · have hfree := (neverPinned_cancel_iff schedules_scheduledStripe _ _).mp h buyerSubscription rfl
      "sub_1" rfl rfl
    cases hfree

end Saasmint
