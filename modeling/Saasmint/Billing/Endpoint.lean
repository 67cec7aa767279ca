import Saasmint.Billing.Payloads
import Saasmint.Library.Runs

/-!
# The webhook endpoint

`stripe_webhook` stores a verified event and, once that is committed, enqueues
the task that processes it.  Both may fail: the transaction, after which nothing
has happened, and the enqueue, after which the row stays without a task.

`notLost_iff_covered`: an event that was acknowledged has had a task enqueued for
it all along a sequence of deliveries exactly as long as every delivery that
finds the stored row finds it with a task.  A redelivery is taken for a
duplicate by the row alone, so it acknowledges an event whose enqueue has failed.
-/

namespace Saasmint

open Atomic Handler Relational

variable {σ : Type}

/-! ## The endpoint -/

/-- What `stripe.Webhook.construct_event` makes of a body and its signature. -/
inductive Construction
  | verified
  | badSignature
  | badPayload
deriving DecidableEq

/-- A `POST` request. -/
structure WebhookRequest where
  contentLength : Option String
  bodyLength : ℕ
  construction : Construction
  /-- `json.loads` of the body. -/
  body : Py Json

/-- `_MAX_WEBHOOK_BODY`. -/
def maxWebhookBody : Int := 256 * 1024

/-- `int(request.META.get("CONTENT_LENGTH") or 0)`, or 0 when that is no number. -/
def WebhookRequest.declaredLength (request : WebhookRequest) : Int :=
  match request.contentLength with
  | none => 0
  | some text =>
      if text = "" then 0
      else match parseInt text with
        | .ok length => length
        | .error _ => 0

/-- The fields of an event the endpoint reads. -/
structure EventHeader where
  stripeId : String
  type : String
  livemode : Bool
deriving DecidableEq

def readEventHeader (event : Json) : Py EventHeader := do
  let stripeId := (← event.item "id").toStr
  let type := (← event.item "type").toStr
  let livemode := (← event.item "livemode").truthy
  return { stripeId, type, livemode }

/-- The key of the deployment is a live one. -/
def keyIsLive (secretKey : String) : Bool :=
  "sk_live_".toList.isPrefixOf secretKey.toList || "rk_live_".toList.isPrefixOf secretKey.toList

/-- `StripeEventModel.objects.get_or_create(stripe_id=..., defaults=...)`. -/
def getOrCreateEvent (db : Db) (row : StripeEvent) : Py ((StripeEvent × Bool) × Db) :=
  match db.events.find? (·.stripeId == row.stripeId) with
  | some stored => .ok ((stored, false), db)
  | none =>
      if row.fits then
        (fun events => ((row, true), db.withEvents events)) <$> insertRow db.events row
      else .error (.data "value too long for type character varying(255)")

def newEvent (rt : Runtime σ) (eventRowId : UUID) (header : EventHeader) (event : Json) :
    StripeEvent where
  id := eventRowId
  stripeId := header.stripeId
  type := header.type
  livemode := header.livemode
  payload := event
  processedAt := none
  error := none
  createdAt := rt.now

/-- The part of `stripe_webhook` after the livemode check: the transaction, which
commits if `commits`, and the hook that runs on its commit. -/
def storeAndEnqueue (rt : Runtime σ) (eventRowId : UUID) (commits : Bool) (header : EventHeader)
    (event : Json) : Handler σ ℕ := do
  let (row, created) ← transaction fun db =>
    if commits then getOrCreateEvent db (newEvent rt eventRowId header event)
    else .error (.operational "the connection is closed")
  if !created then return 202
  enqueue rt (.processStripeWebhook row.id)
  return 202

/-- `stripe_webhook`: the status code, or the exception Django answers with a 500. -/
def stripeWebhook (rt : Runtime σ) (secretKey : String) (eventRowId : UUID) (commits : Bool)
    (request : WebhookRequest) : Handler σ ℕ := do
  if maxWebhookBody < request.declaredLength then return 413
  if maxWebhookBody < request.bodyLength then return 413
  match request.construction with
  | .badSignature => return 400
  | .badPayload => return 400
  | .verified =>
      match request.body >>= fun event => (event, ·) <$> readEventHeader event with
      | .error (.valueError _) | .error (.keyError _) | .error (.typeError _) => return 400
      | .error e => throw e
      | .ok (event, header) =>
          -- the mismatch is permanent: acknowledged and dropped
          if header.livemode ≠ keyIsLive secretKey then return 202
          storeAndEnqueue rt eventRowId commits header event

/-! ## Deliveries of one event -/

/-- A delivery of the event `stripeId`: a request within the size limit whose
signature verifies and whose livemode is the deployment's. -/
structure EventDelivery (σ : Type) (secretKey stripeId : String) where
  rt : Runtime σ
  eventRowId : UUID
  commits : Bool
  request : WebhookRequest
  declaredLength_le : request.declaredLength ≤ maxWebhookBody
  bodyLength_le : (request.bodyLength : Int) ≤ maxWebhookBody
  verified : request.construction = .verified
  event : Json
  header : EventHeader
  body_eq : request.body = .ok event
  header_eq : readEventHeader event = .ok header
  about : header.stripeId = stripeId
  livemode : header.livemode = keyIsLive secretKey

namespace EventDelivery

variable {secretKey stripeId : String} (delivery : EventDelivery σ secretKey stripeId)

/-- The answer to the delivery, and the world after it. -/
def answer (w : World σ) : Py ℕ × World σ :=
  Fallible.exec (stripeWebhook delivery.rt secretKey delivery.eventRowId delivery.commits
    delivery.request) w

def row : StripeEvent :=
  newEvent delivery.rt delivery.eventRowId delivery.header delivery.event

theorem answer_eq (w : World σ) : delivery.answer w =
    Fallible.exec (storeAndEnqueue delivery.rt delivery.eventRowId delivery.commits
      delivery.header delivery.event) w := by
  unfold answer stripeWebhook
  rw [if_neg (not_lt.mpr delivery.declaredLength_le), if_neg (not_lt.mpr delivery.bodyLength_le)]
  simp only [delivery.verified, delivery.body_eq, ok_bind, delivery.header_eq, map_ok,
    delivery.livemode, ne_eq, not_true_eq_false, if_false]

/-- What a delivery does: nothing when the transaction fails; nothing but the answer
when the row is there; else the row is stored, and answered for if the task could
be enqueued. -/
theorem answer_cases (w : World σ) :
    ((∃ e, delivery.answer w = (.error e, w)) ∧ (delivery.commits = true →
      ∀ row ∈ w.db.events.rows, row.stripeId ≠ stripeId)) ∨
    (delivery.commits = true ∧ (∃ row ∈ w.db.events.rows, row.stripeId = stripeId) ∧
      delivery.answer w = (.ok 202, w)) ∨
    ((∀ row ∈ w.db.events.rows, row.stripeId ≠ stripeId) ∧
      ∃ db', db'.events.rows = w.db.events.rows ++ [delivery.row] ∧
        ((∃ e, delivery.answer w = (.error e, { w with db := db' })) ∨
          delivery.answer w = (.ok 202, { w with
            db := db', queue := w.queue ++ [.processStripeWebhook delivery.eventRowId] }))) := by
  have hnew : newEvent delivery.rt delivery.eventRowId delivery.header delivery.event =
      delivery.row := rfl
  have hid : delivery.row.stripeId = stripeId := delivery.about
  rw [answer_eq]
  unfold storeAndEnqueue
  rw [Fallible.exec_bind, exec_transaction, hnew]
  cases hcommits : delivery.commits with
  | false => exact Or.inl ⟨⟨_, rfl⟩, nofun⟩
  | true =>
      simp only [if_true, getOrCreateEvent, hid]
      cases hfound : w.db.events.find? (·.stripeId == stripeId) with
      | some stored =>
          obtain ⟨hmem, hstored⟩ := Table.mem_of_find? hfound
          exact Or.inr (Or.inl ⟨trivial, ⟨stored, hmem, beq_iff_eq.mp hstored⟩, rfl⟩)
      | none =>
          have hnone : ∀ row ∈ w.db.events.rows, row.stripeId ≠ stripeId := by
            intro row hrow hsame
            exact Table.find?_eq_none.mp hfound row hrow (beq_iff_eq.mpr hsame)
          dsimp only
          split
          next =>
              cases hinsert : insertRow w.db.events delivery.row with
              | error e => exact Or.inl ⟨⟨e, rfl⟩, fun _ => hnone⟩
              | ok events =>
                  have hrows := insertRow_eq_ok hinsert
                  refine Or.inr (Or.inr ⟨hnone, w.db.withEvents events, hrows, ?_⟩)
                  simp only [map_ok, settle_ok, Fallible.resume_ok, Bool.not_true,
                    Bool.false_eq_true, if_false, Fallible.exec_bind, exec_enqueue]
                  split
                  · exact Or.inr rfl
                  · exact Or.inl ⟨_, rfl⟩
          next => exact Or.inl ⟨⟨_, rfl⟩, fun _ => hnone⟩

end EventDelivery

/-! ## Every sequence of deliveries -/

/-- A world, and whether the event has been acknowledged in it. -/
structure Inbox (σ : Type) where
  world : World σ
  acknowledged : Bool

namespace Inbox

variable {secretKey stripeId : String}

def step (inbox : Inbox σ) (delivery : EventDelivery σ secretKey stripeId) : Inbox σ where
  world := (delivery.answer inbox.world).2
  acknowledged := inbox.acknowledged || (delivery.answer inbox.world).1 = .ok 202

/-- The event is stored, and a task for it has been enqueued. -/
def Enqueued (stripeId : String) (w : World σ) : Prop :=
  ∃ row ∈ w.db.events.rows, row.stripeId = stripeId ∧ .processStripeWebhook row.id ∈ w.queue

/-- An acknowledged event is not lost. -/
def NotLost (stripeId : String) (inbox : Inbox σ) : Prop :=
  inbox.acknowledged = true → Enqueued stripeId inbox.world

/-- If the delivery is taken for a duplicate, a task has been enqueued for the row. -/
def Covered (inbox : Inbox σ) (delivery : EventDelivery σ secretKey stripeId) : Prop :=
  delivery.commits = true → (∃ row ∈ inbox.world.db.events.rows, row.stripeId = stripeId) →
    Enqueued stripeId inbox.world

theorem notLost_step {inbox : Inbox σ} {delivery : EventDelivery σ secretKey stripeId}
    (hnotLost : NotLost stripeId inbox) :
    NotLost stripeId (inbox.step delivery) ↔ inbox.Covered delivery := by
  unfold NotLost step
  rcases delivery.answer_cases inbox.world with
    ⟨⟨e, hanswer⟩, hnone⟩ | ⟨hcommits, hstored, hanswer⟩ |
      ⟨hnone, db', hrows, ⟨e, hanswer⟩ | hanswer⟩
  · rw [hanswer]
    refine iff_of_true (by simpa [NotLost] using hnotLost) fun hcommits hstored => ?_
    obtain ⟨row, hrow, hsame⟩ := hstored
    exact absurd hsame (hnone hcommits row hrow)
  · -- a duplicate is acknowledged whether or not there is a task
    rw [hanswer]
    constructor
    · intro h _ _
      exact h (by simp)
    · intro hcovered _
      exact hcovered hcommits hstored
  · rw [hanswer]
    refine iff_of_true (fun hacknowledged => ?_) fun _ hstored => ?_
    · obtain ⟨row, hrow, hsame, -⟩ := hnotLost (by simpa using hacknowledged)
      exact absurd hsame (hnone row hrow)
    · obtain ⟨row, hrow, hsame⟩ := hstored
      exact absurd hsame (hnone row hrow)
  · rw [hanswer]
    refine iff_of_true (fun _ => ⟨delivery.row, ?_, delivery.about, ?_⟩) fun _ hstored => ?_
    · show delivery.row ∈ db'.events.rows
      rw [hrows]
      exact List.mem_append_right _ List.mem_cons_self
    · exact List.mem_append_right _ List.mem_cons_self
    · obtain ⟨row, hrow, hsame⟩ := hstored
      exact absurd hsame (hnone row hrow)

/-- No acknowledged event is lost, all along a sequence of deliveries, if and only if
every delivery that is taken for a duplicate finds a task enqueued for the row. -/
theorem notLost_iff_covered (w : World σ)
    (deliveries : List (EventDelivery σ secretKey stripeId)) :
    Runs.Always step (NotLost stripeId) ⟨w, false⟩ deliveries ↔
      Runs.Steps step Covered ⟨w, false⟩ deliveries :=
  Runs.always_iff_steps (fun _ => True) (fun _ _ h => h) (fun _ _ _ h => notLost_step h)
    trivial nofun

/-- A delivery of the deletion of the buyer's subscription, with the broker up or
down. -/
def deletionDelivery (brokerUp : Bool) : EventDelivery Unit "sk_test_1" "evt_1" where
  rt := { sampleRuntime noStripe 0 0 with brokerUp := brokerUp }
  eventRowId := 50#128
  commits := true
  request := ⟨none, 300, .verified, .ok (eventObjectOf "customer.subscription.deleted"
    (subscriptionObject "sub_1" "cus_1" "price_basic" .canceled 1 100))⟩
  declaredLength_le := by decide
  bodyLength_le := by decide
  verified := rfl
  event := eventObjectOf "customer.subscription.deleted"
    (subscriptionObject "sub_1" "cus_1" "price_basic" .canceled 1 100)
  header := ⟨"evt_1", "customer.subscription.deleted", false⟩
  body_eq := rfl
  header_eq := by decide +kernel
  about := rfl
  livemode := by decide +kernel

/-- The broker is down when the row is committed, and up at the redelivery. -/
def redelivered : List (EventDelivery Unit "sk_test_1" "evt_1") :=
  [deletionDelivery false, deletionDelivery true]

theorem redelivered_lost :
    ¬ NotLost "evt_1" (Runs.run step ⟨subscribedWorld, false⟩ redelivered) := by
  unfold NotLost Enqueued
  decide +kernel

/-- Not every sequence of deliveries keeps what it acknowledges. -/
theorem not_always_notLost : ¬ ∀ deliveries : List (EventDelivery Unit "sk_test_1" "evt_1"),
    Runs.Always step (NotLost "evt_1") ⟨subscribedWorld, false⟩ deliveries :=
  fun h => redelivered_lost (h redelivered).final

end Inbox

end Saasmint
