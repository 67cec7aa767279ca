import Saasmint.Billing.Payloads
import Saasmint.Library.Runs

/-!
# Cancellation

The created, updated and deleted events of one Stripe subscription, processed one
after the other in any order and any number of times each.  A `Course` remembers
beside the world whether a deleted event has been processed.

`terminal_iff_notRevived`: after a deletion the row stays without an active
status exactly as long as no created or updated event that can be mirrored
carries one.  The handlers compare nothing with the stored row, so a late event
of a live subscription revives it.
-/

namespace Saasmint

open Atomic Handler

variable {σ : Type}

/-! ## Deliveries -/

/-- The processing of a stored event of the Stripe subscription `stripeId`. -/
structure SubscriptionDelivery (σ : Type) (stripeId : String) where
  rt : Runtime σ
  eventId : String
  event : Json
  type : EventType
  subData : Json
  type_eq : event.item "type" = .ok (.str type.name)
  object_eq : eventObject event = .ok subData
  handled : type = .subscriptionCreated ∨ type = .subscriptionUpdated ∨
    type = .subscriptionDeleted
  about : Json.toStr <$> subData.item "id" = .ok stripeId

namespace SubscriptionDelivery

variable {stripeId : String} (delivery : SubscriptionDelivery σ stripeId)

/-- `process_stored_event` on the delivered event. -/
def process (w : World σ) : Py Unit × World σ :=
  Fallible.exec (processStoredEvent delivery.rt delivery.event delivery.eventId) w

/-- What the handler does is what the processing does to the subscriptions. -/
theorem process_eq (w : World σ) :
    let handled := Fallible.exec (delivery.type.handler delivery.rt delivery.subData) w
    (delivery.process w).1 = handled.1 ∧
      (delivery.process w).2.db.subscriptions = handled.2.db.subscriptions := by
  intro handled
  obtain ⟨events, hresult, hdb⟩ := exec_processStoredEvent_tables delivery.rt delivery.event
    delivery.eventId w
  rw [dispatch_eq delivery.rt delivery.type_eq delivery.object_eq] at hresult hdb
  exact ⟨hresult, by rw [process, hdb]; rfl⟩

/-- A created or updated event that can be mirrored and whose status is active. -/
def Revives (w : World σ) : Prop :=
  delivery.type ≠ .subscriptionDeleted ∧ ∃ d fields customer planPrice,
    Resolves w.db delivery.subData d fields customer planPrice ∧ fields.status.isActive = true

end SubscriptionDelivery

/-! ## Courses -/

/-- A world, and whether a deleted event has been processed in it. -/
structure Course (σ : Type) where
  world : World σ
  ended : Bool

namespace Course

variable {stripeId : String}

def step (c : Course σ) (delivery : SubscriptionDelivery σ stripeId) : Course σ where
  world := (delivery.process c.world).2
  ended := c.ended || (delivery.type = .subscriptionDeleted ∧ (delivery.process c.world).1 = .ok ())

/-- No row of the subscription has an active status. -/
def Inactive (stripeId : String) (db : Db) : Prop :=
  ∀ s ∈ db.subscriptions.rows, s.stripeId = some stripeId → s.status.isActive = false

/-- Once the deletion has been processed, the subscription is not active. -/
def Terminal (stripeId : String) (c : Course σ) : Prop :=
  c.ended = true → Inactive stripeId c.world.db

/-- No event revives the subscription after its deletion. -/
def NotRevived (c : Course σ) (delivery : SubscriptionDelivery σ stripeId) : Prop :=
  c.ended = true → ¬ delivery.Revives c.world

end Course

/-! ## One delivery -/

/-- After a save, the row of a Stripe id is the saved one. -/
theorem eq_of_saved {db db' : Db} {now : Datetime} {row s : Subscription}
    (hsave : db.saveSubscription now row = .ok db') (hnamed : row.stripeId.isSome)
    (hs : s ∈ db'.subscriptions.rows) (hstripe : s.stripeId = row.stripeId) :
    ∃ createdAt, s = { row with createdAt := createdAt } := by
  obtain ⟨createdAt, hsaved⟩ := Db.exists_saved hsave
  refine ⟨createdAt, db'.subscriptions.eq_of_clash hs hsaved (Or.inr ⟨?_, hstripe⟩)⟩
  rw [hstripe]
  exact hnamed

namespace Course

variable {stripeId : String} {c : Course σ} {delivery : SubscriptionDelivery σ stripeId}

/-- A deleted event leaves the subscription inactive when it is processed, and as it
was when its processing fails early. -/
theorem step_deleted (hdeleted : delivery.type = .subscriptionDeleted)
    (hterminal : Terminal stripeId c) : Terminal stripeId (c.step delivery) := by
  intro hended
  obtain ⟨hresult, hrows⟩ := delivery.process_eq c.world
  rw [hdeleted] at hresult hrows
  show Inactive stripeId (delivery.process c.world).2.db
  unfold Inactive
  rw [hrows]
  rcases exec_deleted_cases delivery.about delivery.rt c.world with
    ⟨result, hexec, hnone⟩ | ⟨existing, db', queue, result, hfound, hsave, hexec⟩
  · rw [EventType.handler, hexec] at hresult ⊢
    cases result with
    | ok _ =>
        intro s hs hstripe
        exact absurd hstripe (Db.subscriptionByStripeId_eq_none.mp (hnone rfl) s hs)
    | error e =>
        have hbefore : c.ended = true := by
          simpa [Course.step, hdeleted, hresult] using hended
        exact hterminal hbefore
  · rw [EventType.handler, hexec]
    intro s hs hstripe
    obtain ⟨hmem, hexisting⟩ := Db.subscriptionByStripeId_eq_some.mp hfound
    obtain ⟨createdAt, rfl⟩ := eq_of_saved hsave (by rw [hexisting]; rfl) hs
      (hstripe.trans hexisting.symm)
    rfl

/-- A created or updated event keeps an inactive subscription so exactly when it
does not revive it. -/
theorem step_synced (hsynced : delivery.type ≠ .subscriptionDeleted)
    (hterminal : Terminal stripeId c) :
    Terminal stripeId (c.step delivery) ↔ c.NotRevived delivery := by
  obtain ⟨hresult, hrows⟩ := delivery.process_eq c.world
  have hhandler : delivery.type.handler delivery.rt delivery.subData =
      syncSubscriptionFromData delivery.rt delivery.subData := by
    rcases delivery.handled with h | h | h
    · rw [h]; rfl
    · rw [h]; rfl
    · exact absurd h hsynced
  have hended : (c.step delivery).ended = c.ended := by simp [Course.step, hsynced]
  have hstep : Terminal stripeId (c.step delivery) ↔ (c.ended = true →
      ∀ s ∈ (Fallible.exec (syncSubscriptionFromData delivery.rt delivery.subData)
        c.world).2.db.subscriptions.rows, s.stripeId = some stripeId →
          s.status.isActive = false) := by
    unfold Terminal
    rw [hended, ← hhandler, ← hrows]
    rfl
  rw [hstep]
  refine forall_congr' fun hover => ?_
  rcases exec_sync_cases delivery.rt delivery.subData c.world with
    ⟨d, fields, customer, planPrice, db', hresolves, hsave, hexec⟩ | ⟨⟨e, hexec⟩, hnone⟩
  · have hid : d.stripeId = stripeId := by
      have hread := readSubscriptionData_stripeId hresolves.read
      rw [delivery.about] at hread
      exact (Except.ok.inj hread).symm
    rw [hexec]
    constructor
    · rintro hinactive ⟨-, d', fields', customer', planPrice', hresolves', hactive⟩
      obtain ⟨createdAt, hsaved⟩ := Db.exists_saved hsave
      have hfields : fields.status.isActive = false := hinactive _ hsaved (congrArg some hid)
      rw [← (hresolves.toDecodes.unique hresolves'.toDecodes).2, hfields] at hactive
      cases hactive
    · intro hnot s hs hstripe
      obtain ⟨createdAt, rfl⟩ := eq_of_saved hsave rfl hs (hstripe.trans (congrArg some hid.symm))
      cases hactive : fields.status.isActive with
      | false => exact hactive
      | true => exact absurd ⟨hsynced, d, fields, customer, planPrice, hresolves, hactive⟩ hnot
  · rw [hexec]
    refine iff_of_true (hterminal hover) ?_
    rintro ⟨-, d, fields, customer, planPrice, hresolves, -⟩
    exact hnone d fields customer planPrice hresolves

theorem terminal_step (hterminal : Terminal stripeId c) :
    Terminal stripeId (c.step delivery) ↔ c.NotRevived delivery := by
  by_cases hdeleted : delivery.type = .subscriptionDeleted
  · exact iff_of_true (step_deleted hdeleted hterminal) fun _ hrevives => hrevives.1 hdeleted
  · exact step_synced hdeleted hterminal

/-! ## Every order -/

/-- Cancellation is terminal all along a course if and only if, after a deletion, no
created or updated event is processed that can be mirrored and is active. -/
theorem terminal_iff_notRevived (w : World σ)
    (deliveries : List (SubscriptionDelivery σ stripeId)) :
    Runs.Always step (Terminal stripeId) ⟨w, false⟩ deliveries ↔
      Runs.Steps step NotRevived ⟨w, false⟩ deliveries :=
  Runs.always_iff_steps (fun _ => True) (fun _ _ h => h) (fun _ _ _ h => terminal_step h)
    trivial nofun

/-- An event of the buyer's subscription to the basic plan. -/
def basicEvent (eventId : String) (type : EventType)
    (handled : type = .subscriptionCreated ∨ type = .subscriptionUpdated ∨
      type = .subscriptionDeleted) (status : SubscriptionStatus) :
    SubscriptionDelivery Unit "sub_1" where
  rt := sampleRuntime noStripe 0 0
  eventId := eventId
  event := eventObjectOf type.name (subscriptionObject "sub_1" "cus_1" "price_basic" status 1 100)
  type := type
  subData := subscriptionObject "sub_1" "cus_1" "price_basic" status 1 100
  type_eq := eventObjectOf_item_type _ _
  object_eq := eventObject_eventObjectOf _ _
  handled := handled
  about := subscriptionObject_item_id _ _ _ _ _ _

/-- An update is delivered after the deletion that it preceded on Stripe. -/
def lateUpdate : List (SubscriptionDelivery Unit "sub_1") :=
  [basicEvent "evt_2" .subscriptionDeleted (by decide) .canceled,
    basicEvent "evt_1" .subscriptionUpdated (by decide) .active]

theorem lateUpdate_revives :
    ¬ Terminal "sub_1" (Runs.run step ⟨subscribedWorld, false⟩ lateUpdate) := by
  unfold Terminal Inactive
  decide +kernel

/-- Not every order of the events keeps a canceled subscription inactive. -/
theorem not_always_terminal : ¬ ∀ deliveries : List (SubscriptionDelivery Unit "sub_1"),
    Runs.Always step (Terminal "sub_1") ⟨subscribedWorld, false⟩ deliveries :=
  fun h => lateUpdate_revives (h lateUpdate).final

end Course

end Saasmint
