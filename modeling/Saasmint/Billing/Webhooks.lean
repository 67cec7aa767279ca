import Saasmint.Billing.Credits
import Saasmint.Orgs.Deletion

/-!
# Webhook dispatch

`process_stored_event` routes a stored event to its handler and records the
outcome on the event's row; `process_stripe_webhook` is the task around it.
-/

namespace Saasmint

open Atomic Handler

variable {σ : Type}

/-- `UUID(ref)`. -/
def uuidOf : Json → Py UUID
  | .str text => parseUuid text
  | ref => .error (.attributeError ("'" ++ ref.typeName ++ "' object has no attribute 'replace'"))

/-- `UUID(ref)`, with `None` for the `ValueError` of a malformed text. -/
def uuidOrMalformed (ref : Json) : Py (Option UUID) :=
  match uuidOf ref with
  | .ok id => .ok (some id)
  | .error (.valueError _) => .ok none
  | .error e => .error e

/-- `_on_product_checkout_completed`: the session of a one-time purchase. -/
def productCheckoutCompleted (rt : Runtime σ) (sessionData : Json) : Handler σ Unit := do
  let sessionId ← lift (sessionData.get "id")
  if !sessionId.truthy then return
  let metadata := (← lift (sessionData.get "metadata")).orElse (.obj [])
  let productRef ← lift (metadata.get "product_id")
  if !productRef.truthy then return
  let clientRef ← lift (sessionData.get "client_reference_id")
  if !clientRef.truthy then return
  let some productId ← lift (uuidOrMalformed productRef) | return
  let some userId ← lift (uuidOrMalformed clientRef) | return
  let orgRef ← lift (metadata.get "org_id")
  if orgRef.truthy then
    let some orgId ← lift (uuidOrMalformed orgRef) | return
    onProductCheckoutCompleted rt sessionId.toStr productId userId (some orgId)
  else onProductCheckoutCompleted rt sessionId.toStr productId userId none

/-- `_on_checkout_completed`. -/
def onCheckoutCompleted (rt : Runtime σ) (sessionData : Json) : Handler σ Unit := do
  let mode ← lift (sessionData.get "mode")
  if mode.isStr "payment" then
    productCheckoutCompleted rt sessionData
  else
    let metadata := (← lift (sessionData.get "metadata")).orElse (.obj [])
    let orgName ← lift (metadata.get "org_name")
    if !orgName.truthy then return
    let clientRef ← lift (sessionData.get "client_reference_id")
    if !clientRef.truthy then return
    let userId ← lift (uuidOf clientRef)
    let stripeCustomerId ← lift (sessionData.get "customer")
    if !stripeCustomerId.truthy then return
    let subscriptionId ← lift (sessionData.get "subscription")
    let livemode ← lift (sessionData.getD "livemode" (.bool false))
    let keepPersonalSubscription :=
      (← lift (metadata.get "keep_personal_subscription")).isStr "true"
    onTeamCheckoutCompleted rt userId orgName.toStr stripeCustomerId.toStr livemode.truthy
      (if subscriptionId.isNull then none else some subscriptionId.toStr)
      keepPersonalSubscription

/-- The object an event is about. -/
def eventObject (event : Json) : Py Json := do (← event.item "data").item "object"

/-- `_dispatch`. -/
def dispatch (rt : Runtime σ) (event : Json) : Handler σ Unit := do
  let type ← lift (event.item "type")
  if type.isStr "checkout.session.completed" then
    onCheckoutCompleted rt (← lift (eventObject event))
  else if type.isStr "customer.subscription.created" ||
      type.isStr "customer.subscription.updated" then
    syncSubscriptionFromData rt (← lift (eventObject event))
  else if type.isStr "customer.subscription.deleted" then
    onSubscriptionDeleted rt (← lift (eventObject event))
  else if type.isStr "subscription_schedule.created" ||
      type.isStr "subscription_schedule.updated" then
    onSubscriptionScheduleUpserted rt (← lift (eventObject event))
  else if type.isStr "subscription_schedule.released" ||
      type.isStr "subscription_schedule.canceled" ||
      type.isStr "subscription_schedule.aborted" then
    onSubscriptionScheduleCleared rt (← lift (eventObject event))
  else if type.isStr "invoice.payment_succeeded" || type.isStr "invoice.payment_failed" then
    -- only logged, with the invoice's id
    let _ ← lift ((← lift (eventObject event)).get "id")
  else return

/-- The event types `_dispatch` routes. -/
inductive EventType
  | checkoutCompleted
  | subscriptionCreated | subscriptionUpdated | subscriptionDeleted
  | scheduleCreated | scheduleUpdated | scheduleReleased | scheduleCanceled | scheduleAborted
  | invoicePaymentSucceeded | invoicePaymentFailed
deriving DecidableEq

namespace EventType

def name : EventType → String
  | checkoutCompleted => "checkout.session.completed"
  | subscriptionCreated => "customer.subscription.created"
  | subscriptionUpdated => "customer.subscription.updated"
  | subscriptionDeleted => "customer.subscription.deleted"
  | scheduleCreated => "subscription_schedule.created"
  | scheduleUpdated => "subscription_schedule.updated"
  | scheduleReleased => "subscription_schedule.released"
  | scheduleCanceled => "subscription_schedule.canceled"
  | scheduleAborted => "subscription_schedule.aborted"
  | invoicePaymentSucceeded => "invoice.payment_succeeded"
  | invoicePaymentFailed => "invoice.payment_failed"

def handler (rt : Runtime σ) (object : Json) : EventType → Handler σ Unit
  | checkoutCompleted => onCheckoutCompleted rt object
  | subscriptionCreated | subscriptionUpdated => syncSubscriptionFromData rt object
  | subscriptionDeleted => onSubscriptionDeleted rt object
  | scheduleCreated | scheduleUpdated => onSubscriptionScheduleUpserted rt object
  | scheduleReleased | scheduleCanceled | scheduleAborted =>
      onSubscriptionScheduleCleared rt object
  | invoicePaymentSucceeded | invoicePaymentFailed => do
      let _ ← lift (object.get "id")

end EventType

/-- An event of a handled type goes to its handler. -/
theorem dispatch_eq {event object : Json} {type : EventType} (rt : Runtime σ)
    (htype : event.item "type" = .ok (.str type.name)) (hobject : eventObject event = .ok object) :
    dispatch rt event = type.handler rt object := by
  unfold dispatch
  rw [htype, lift_ok_bind, hobject]
  cases type <;> simp [EventType.name, EventType.handler, Json.isStr]

/-- An event of any other type is only logged. -/
theorem dispatch_unhandled {event type : Json} (rt : Runtime σ)
    (htype : event.item "type" = .ok type)
    (hother : ∀ handled : EventType, type.isStr handled.name = false) :
    dispatch rt event = pure () := by
  have h₁ : type.isStr "checkout.session.completed" = false := hother .checkoutCompleted
  have h₂ : type.isStr "customer.subscription.created" = false := hother .subscriptionCreated
  have h₃ : type.isStr "customer.subscription.updated" = false := hother .subscriptionUpdated
  have h₄ : type.isStr "customer.subscription.deleted" = false := hother .subscriptionDeleted
  have h₅ : type.isStr "subscription_schedule.created" = false := hother .scheduleCreated
  have h₆ : type.isStr "subscription_schedule.updated" = false := hother .scheduleUpdated
  have h₇ : type.isStr "subscription_schedule.released" = false := hother .scheduleReleased
  have h₈ : type.isStr "subscription_schedule.canceled" = false := hother .scheduleCanceled
  have h₉ : type.isStr "subscription_schedule.aborted" = false := hother .scheduleAborted
  have h₁₀ : type.isStr "invoice.payment_succeeded" = false := hother .invoicePaymentSucceeded
  have h₁₁ : type.isStr "invoice.payment_failed" = false := hother .invoicePaymentFailed
  unfold dispatch
  rw [htype, lift_ok_bind]
  simp only [h₁, h₂, h₃, h₄, h₅, h₆, h₇, h₈, h₉, h₁₀, h₁₁, Bool.or_false, Bool.false_eq_true,
    if_false]

/-- The error text `process_stored_event` stores. -/
def failureText : PyError → String
  | .webhookData message => message
  | .stripe _ message => message
  | .connection message => message
  | e => e.typeName ++ ": " ++ e.text

def markProcessed (rt : Runtime σ) (stripeId : String) : Handler σ Unit :=
  transaction fun db => .ok ((), db.markProcessed rt.now stripeId)

def markFailed (stripeId error : String) : Handler σ Unit :=
  transaction fun db => .ok ((), db.markFailed stripeId error)

def processStoredEvent (rt : Runtime σ) (event : Json) (stripeId : String) : Handler σ Unit :=
  tryCatch (do dispatch rt event; markProcessed rt stripeId) fun e => do
    markFailed stripeId (failureText e)
    throw e

/-- Alone, an event is dispatched, and the outcome is recorded on its row. -/
theorem exec_processStoredEvent (rt : Runtime σ) (event : Json) (stripeId : String)
    (w : World σ) : Fallible.exec (processStoredEvent rt event stripeId) w =
      match Fallible.exec (dispatch rt event) w with
      | (.ok (), t) => (.ok (), { t with db := t.db.markProcessed rt.now stripeId })
      | (.error e, t) => (.error e, { t with db := t.db.markFailed stripeId (failureText e) }) := by
  unfold processStoredEvent markProcessed markFailed
  rw [Fallible.exec_tryCatch, Fallible.exec_bind]
  rcases Fallible.exec (dispatch rt event) w with ⟨_ | _, t⟩ <;> rfl

/-- The processing does what the dispatch does, but for the event's own row. -/
theorem exec_processStoredEvent_tables (rt : Runtime σ) (event : Json) (stripeId : String)
    (w : World σ) : ∃ events : Relational.Table StripeEvent,
      (Fallible.exec (processStoredEvent rt event stripeId) w).1 =
        (Fallible.exec (dispatch rt event) w).1 ∧
      (Fallible.exec (processStoredEvent rt event stripeId) w).2.db =
        (Fallible.exec (dispatch rt event) w).2.db.withEvents events := by
  rw [exec_processStoredEvent]
  rcases Fallible.exec (dispatch rt event) w with ⟨_ | _, t⟩
  · exact ⟨_, rfl, rfl⟩
  · exact ⟨_, rfl, rfl⟩

/-- `process_stripe_webhook`. -/
def processStripeWebhook (rt : Runtime σ) (stripeEventId : UUID) : Handler σ Unit := do
  let some event ← query fun db => db.events.find? (·.id == stripeEventId)
    | throw (.doesNotExist "StripeEvent matching query does not exist.")
  processStoredEvent rt event.payload event.stripeId

/-- What a worker runs for a task. -/
def runTask (rt : Runtime σ) : Task → Handler σ Unit
  | .processStripeWebhook stripeEventId => processStripeWebhook rt stripeEventId
  | .deleteOrgOnSubscriptionCancel orgId => deleteOrgOnSubscriptionCancelTask orgId
  | .cancelStripeSubs stripeSubIds _ => cancelStripeSubsTask rt stripeSubIds

end Saasmint
