import Saasmint.Data.Repositories
import Saasmint.Library.Rely

/-!
# What handlers act on

A `World` is the database, the Stripe account and the task queue.  A `Handler`
is a program over worlds whose atomic actions are single queries, single writes
or transactions, Stripe calls and task enqueues; it can be stopped or
interleaved with others between any two of them.

Stripe is a parameter: `Stripe.call` is how it answers a call and how its
account changes.  `Runtime` holds what a run takes from outside: Stripe, the
clock, the broker and fresh UUIDs.
-/

namespace Saasmint

open Atomic

/-! ## Stripe -/

/-- The parameters of `Subscription.modify`. -/
inductive SubscriptionUpdate
  | cancelAt (value : String)
  | item (id : String) (price : Option String) (quantity : Int) (proration : String)
deriving DecidableEq

/-- A phase of `SubscriptionSchedule.modify`: one item, from a date on. -/
structure SchedulePhase where
  price : String
  quantity : Int
  startDate : Int
  endDate : Option Int
deriving DecidableEq

/-- The parameters of `Price.create`. -/
structure PriceParams where
  product : String
  unitAmount : Int
  currency : String
  lookupKey : String
  metadata : List (String × String)
  recurring : Option PlanInterval
deriving DecidableEq

/-- The fields of `Product.create` and `Product.modify` that are sent. -/
structure ProductParams where
  name : Option String
  description : Option String
  metadata : Option (List (String × String))
deriving DecidableEq

/-- Whom a new Stripe customer is for, as its metadata says. -/
inductive CustomerScope
  | user (id : UUID)
  | org (id : UUID)
  | teamCheckout (userId : UUID)
deriving DecidableEq

/-- The parameters of `checkout.Session.create` that come back with the event of the
completed session or say what is bought. -/
structure SessionParams where
  customer : String
  clientReferenceId : String
  mode : String
  price : String
  quantity : Int
  trialPeriodDays : Option Int
  metadata : Option (List (String × String))
deriving DecidableEq

inductive StripeCall
  | checkoutSessionCreate (params : SessionParams)
  | subscriptionRetrieve (id : String)
  | subscriptionModify (id : String) (update : SubscriptionUpdate)
  | subscriptionCancel (id : String)
  | scheduleRetrieve (id : String)
  | scheduleRelease (id : String)
  | scheduleCreate (fromSubscription : String)
  | scheduleModify (id : String) (phases : List SchedulePhase)
  | priceRetrieve (id : String)
  | priceList (lookupKeys : List String)
  | priceModify (id : String) (active : Bool)
  | priceCreate (params : PriceParams)
  | productCreate (params : ProductParams)
  | productModify (id : String) (params : ProductParams)
  | customerCreate (scope : CustomerScope)
  | customerDelete (id : String)
deriving DecidableEq

/-- How Stripe answers a call, over account states `σ`. -/
structure Stripe (σ : Type) where
  call : StripeCall → σ → Py Json × σ

/-! ## Worlds -/

/-- The Celery tasks handlers enqueue. -/
inductive Task
  | processStripeWebhook (stripeEventId : UUID)
  | deleteOrgOnSubscriptionCancel (orgId : UUID)
  | cancelStripeSubs (stripeSubIds : List String) (orgId : String)
deriving DecidableEq

structure World (σ : Type) where
  db : Db
  stripe : σ
  queue : List Task

/-- What a run takes from outside. -/
structure Runtime (σ : Type) where
  stripe : Stripe σ
  /-- `django.utils.text.slugify`. -/
  slugify : String → String
  now : Datetime
  brokerUp : Bool
  subscriptionId : UUID
  orgId : UUID
  memberId : UUID
  customerId : UUID
  transactionId : UUID
  balanceId : UUID
  userId : UUID
  invitationId : UUID
  /-- `secrets.token_urlsafe(32)`. -/
  token : String

/-! ## Actions -/

inductive Action
  | query
  | readSubscription
  | saveSubscription (now : Datetime) (row : Subscription)
  | transaction
  | stripe (call : StripeCall)
  | enqueue (task : Task)

abbrev Handler (σ α : Type) := Fallible PyError Action (World σ) α

namespace Handler

variable {σ α : Type}

/-- A step that performs no action. -/
def lift (result : Py α) : Handler σ α := Fallible.ofExcept result

def query (f : Db → α) : Handler σ α := Fallible.observe .query fun w => f w.db

/-- A query that reads subscription rows. -/
def readSubscription (f : Db → α) : Handler σ α :=
  Fallible.observe .readSubscription fun w => f w.db

/-- What a world is after a statement that may fail; a failed one changes nothing. -/
def settle (w : World σ) : Py (α × Db) → Py α × World σ
  | .ok (a, db) => (.ok a, { w with db := db })
  | .error e => (.error e, w)

@[simp] theorem settle_ok (w : World σ) (a : α) (db : Db) :
    settle w (.ok (a, db)) = (.ok a, { w with db := db }) := rfl

@[simp] theorem settle_error (w : World σ) (e : PyError) :
    settle w (.error e : Py (α × Db)) = (.error e, w) := rfl

/-- A write, or a transaction that commits or rolls back as a whole. -/
def transaction (f : Db → Py (α × Db)) : Handler σ α :=
  Fallible.atomic .transaction fun w => settle w (f w.db)

/-- `DjangoSubscriptionRepository.save`. -/
def saveSubscription (now : Datetime) (row : Subscription) : Handler σ Unit :=
  Fallible.atomic (.saveSubscription now row) fun w =>
    settle w ((fun db => ((), db)) <$> w.db.saveSubscription now row)

def callStripe (rt : Runtime σ) (call : StripeCall) : Handler σ Json :=
  Fallible.atomic (.stripe call) fun w =>
    ((rt.stripe.call call w.stripe).1, { w with stripe := (rt.stripe.call call w.stripe).2 })

/-- `task.delay(...)`. -/
def enqueue (rt : Runtime σ) (task : Task) : Handler σ Unit :=
  Fallible.atomic (.enqueue task) fun w =>
    if rt.brokerUp then (.ok (), { w with queue := w.queue ++ [task] })
    else (.error (.broker "broker connection refused"), w)

/-- `DjangoSubscriptionRepository.get_active_for_customer`: several active rows
are an error to the log, and the latest is returned. -/
def getActiveForCustomer (customerId : UUID) : Handler σ (Option Subscription) := do
  match ← readSubscription fun db => db.activeForCustomer customerId with
  | [] => pure none
  | [active] => pure (some active)
  | _ => readSubscription fun db => db.latestActive customerId

@[simp] theorem lift_ok_bind {β : Type} (a : α) (rest : α → Handler σ β) :
    (lift (.ok a) >>= rest : Handler σ β) = rest a := rfl

/-! ## Running alone -/

variable (w : World σ)

@[simp] theorem exec_lift (result : Py α) :
    Fallible.exec (lift result : Handler σ α) w = (result, w) := rfl

@[simp] theorem exec_query (f : Db → α) :
    Fallible.exec (query f : Handler σ α) w = (.ok (f w.db), w) := rfl

@[simp] theorem exec_readSubscription (f : Db → α) :
    Fallible.exec (readSubscription f : Handler σ α) w = (.ok (f w.db), w) := rfl

@[simp] theorem exec_transaction (f : Db → Py (α × Db)) :
    Fallible.exec (transaction f : Handler σ α) w = settle w (f w.db) := rfl

@[simp] theorem exec_saveSubscription (now : Datetime) (row : Subscription) :
    Fallible.exec (saveSubscription now row : Handler σ Unit) w =
      settle w ((fun db => ((), db)) <$> w.db.saveSubscription now row) := rfl

@[simp] theorem exec_callStripe (rt : Runtime σ) (call : StripeCall) :
    Fallible.exec (callStripe rt call) w =
      ((rt.stripe.call call w.stripe).1,
        { w with stripe := (rt.stripe.call call w.stripe).2 }) := rfl

@[simp] theorem exec_enqueue (rt : Runtime σ) (task : Task) :
    Fallible.exec (enqueue rt task) w =
      if rt.brokerUp then (.ok (), { w with queue := w.queue ++ [task] })
      else (.error (.broker "broker connection refused"), w) := rfl

/-- Alone, the lookup returns the latest of the active rows. -/
theorem exec_getActiveForCustomer (customerId : UUID) :
    Fallible.exec (getActiveForCustomer customerId) w = (.ok (w.db.latestActive customerId), w) := by
  unfold getActiveForCustomer Db.latestActive
  simp only [Fallible.exec_bind, exec_readSubscription, Fallible.resume_ok]
  rcases hrows : w.db.activeForCustomer customerId with _ | ⟨active, _ | ⟨next, rest⟩⟩
  · rfl
  · rfl
  · simp only [exec_readSubscription, hrows]

/-! ## Among others -/

section Meets

variable {inv : World σ → Prop} {contract : Contract Action (World σ)} {w : World σ}

@[simp] theorem meets_lift {post : World σ → Py α → Prop} {result : Py α} :
    (lift result : Handler σ α).Meets inv contract post w ↔ post w result := Iff.rfl

@[simp] theorem meets_query {post : World σ → Py α → Prop} {f : Db → α} :
    (query f : Handler σ α).Meets inv contract post w ↔
      ∀ t, contract.rely w t → inv t → contract.assume .query t → post t (.ok (f t.db)) :=
  Fallible.meets_observe

@[simp] theorem meets_readSubscription {post : World σ → Py α → Prop} {f : Db → α} :
    (readSubscription f : Handler σ α).Meets inv contract post w ↔
      ∀ t, contract.rely w t → inv t → contract.assume .readSubscription t →
        post t (.ok (f t.db)) :=
  Fallible.meets_observe

@[simp] theorem meets_transaction {post : World σ → Py α → Prop} {f : Db → Py (α × Db)} :
    (transaction f : Handler σ α).Meets inv contract post w ↔
      ∀ t, contract.rely w t → inv t → contract.assume .transaction t →
        inv (settle t (f t.db)).2 ∧ contract.guarantee t (settle t (f t.db)).2 ∧
          post (settle t (f t.db)).2 (settle t (f t.db)).1 := Iff.rfl

@[simp] theorem meets_saveSubscription {post : World σ → Py Unit → Prop} {now : Datetime}
    {row : Subscription} : (saveSubscription now row : Handler σ Unit).Meets inv contract post w ↔
      ∀ t, contract.rely w t → inv t → contract.assume (.saveSubscription now row) t →
        let outcome := settle t ((fun db => ((), db)) <$> t.db.saveSubscription now row)
        inv outcome.2 ∧ contract.guarantee t outcome.2 ∧ post outcome.2 outcome.1 := Iff.rfl

@[simp] theorem meets_callStripe {post : World σ → Py Json → Prop} {rt : Runtime σ}
    {call : StripeCall} : (callStripe rt call).Meets inv contract post w ↔
      ∀ t, contract.rely w t → inv t → contract.assume (.stripe call) t →
        let t' := { t with stripe := (rt.stripe.call call t.stripe).2 }
        inv t' ∧ contract.guarantee t t' ∧ post t' (rt.stripe.call call t.stripe).1 := Iff.rfl

end Meets

end Handler

end Saasmint
