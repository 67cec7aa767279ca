import Saasmint.Billing.Webhooks

/-!
# Stripe objects and a small account

Subscriptions, schedules and events as Stripe sends them, reduced to the fields
the handlers read, with what they decode to; and a small catalog with one
customer, on which the behaviour of the handlers can be computed.
-/

namespace Saasmint

open Relational

/-! ## Stripe objects -/

def priceObject (id currency : String) : Json :=
  .obj [("id", .str id), ("currency", .str currency)]

def itemObject (price currency : String) (quantity periodStart periodEnd : Int) : Json :=
  .obj [("id", .str "si_1"), ("quantity", .int quantity),
    ("current_period_start", .int periodStart), ("current_period_end", .int periodEnd),
    ("price", priceObject price currency)]

/-- A subscription with one item, in USD, for the period from second 0 to
`periodEnd`. -/
def subscriptionObject (id customer price : String) (status : SubscriptionStatus)
    (quantity periodEnd : Int) : Json :=
  .obj [("id", .str id), ("customer", .str customer), ("status", .str status.value),
    ("currency", .str "usd"), ("trial_end", .null), ("canceled_at", .null), ("cancel_at", .null),
    ("schedule", .null),
    ("items", .obj [("data", .arr [itemObject price "usd" quantity 0 periodEnd])])]

def phaseObject (price : String) (startDate endDate : Int) : Json :=
  .obj [("items", .arr [.obj [("price", .str price), ("quantity", .int 1)]]),
    ("start_date", .int startDate), ("end_date", .int endDate)]

/-- A two-phase schedule that switches from price `current` to price `next` at
second `changeAt`. -/
def scheduleObject (id subscription current next : String) (changeAt : Int) : Json :=
  .obj [("id", .str id), ("subscription", .str subscription),
    ("phases", .arr [phaseObject current 0 changeAt,
      phaseObject next changeAt (changeAt + changeAt)])]

def eventObjectOf (type : String) (object : Json) : Json :=
  .obj [("id", .str "evt_1"), ("type", .str type), ("livemode", .bool false),
    ("data", .obj [("object", object)])]

/-! ## What they decode to -/

theorem SubscriptionStatus.parse_value (status : SubscriptionStatus) :
    SubscriptionStatus.parse status.value = .ok status := by
  cases status <;> rfl

theorem readSubscriptionData_subscriptionObject (id customer price : String)
    (status : SubscriptionStatus) (quantity periodEnd : Int) :
    readSubscriptionData (subscriptionObject id customer price status quantity periodEnd) =
      .ok { customer, firstItem := itemObject price "usd" quantity 0 periodEnd, priceId := price,
            stripeId := id, periodStart := 0, periodEnd } := by
  simp [readSubscriptionData, warnSeveralItems, subscriptionObject, itemObject, priceObject, extractPeriodWindow,
    Json.item, Json.get, Json.getD, Json.nth, Json.len, List.lookup_cons, Json.isNull, Json.asInt?]

theorem subscriptionObject_item_id (id customer price : String) (status : SubscriptionStatus)
    (quantity periodEnd : Int) :
    Json.toStr <$> (subscriptionObject id customer price status quantity periodEnd).item "id" =
      .ok id := by
  simp [subscriptionObject, Json.item]

theorem eventObjectOf_item_type (type : String) (object : Json) :
    (eventObjectOf type object).item "type" = .ok (.str type) := by
  simp [eventObjectOf, Json.item, List.lookup_cons]

theorem eventObject_eventObjectOf (type : String) (object : Json) :
    eventObject (eventObjectOf type object) = .ok object := by
  simp [eventObject, eventObjectOf, Json.item, List.lookup_cons]

theorem scheduleObject_get_subscription (id subscription current next : String) (changeAt : Int) :
    (scheduleObject id subscription current next changeAt).get "subscription" =
      .ok (.str subscription) := by
  simp [scheduleObject, Json.get, Json.getD, List.lookup_cons]

/-- The columns a subscription object mirrors. -/
def objectFields (status : SubscriptionStatus) (quantity periodEnd : Int) : MirroredFields where
  status := status
  seatLimit := quantity
  trialEndsAt := none
  currentPeriodStart := 0
  currentPeriodEnd := periodEnd * 1000000
  canceledAt := none
  cancelAt := none
  currency := "usd"

/-- A subscription object with a seat and a period end in range can be mirrored. -/
theorem subscriptionObject_decodes {id customer price : String} {status : SubscriptionStatus}
    {quantity periodEnd : Int} (hid : fitsVarchar 255 id = true)
    (hquantity : fitsInteger quantity = true) (hseat : quantity ≠ 0)
    (hend : 0 ≤ periodEnd ∧ periodEnd ≤ 253402300799) :
    Decodes (subscriptionObject id customer price status quantity periodEnd)
      { customer, firstItem := itemObject price "usd" quantity 0 periodEnd, priceId := price,
        stripeId := id, periodStart := 0, periodEnd }
      (objectFields status quantity periodEnd) := by
  refine ⟨readSubscriptionData_subscriptionObject _ _ _ _ _ _, ?_, ?_⟩
  · have hstatus := SubscriptionStatus.parse_value status
    have hstart : fromTimestamp 0 = .ok 0 := rfl
    have hstop : fromTimestamp periodEnd = .ok (periodEnd * 1000000) := by
      rw [fromTimestamp, if_pos ⟨by omega, hend.2⟩]
    have hlower : lower "usd" = "usd" := by decide
    simp [readMirroredFields, subscriptionObject, itemObject, priceObject, objectFields, Json.item,
      Json.get, Json.getD, List.lookup_cons, hstatus, Json.orElse, Json.truthy, hseat, Json.toInt,
      tsToDt, hstart, hstop, hlower]
  · have hcurrency : fitsVarchar 3 "usd" = true := by decide
    simp only [objectFields, hid, hquantity, hcurrency, Bool.and_self]

/-! ## A small account -/

/-- A Stripe account whose answers never change. -/
def Stripe.scripted (answer : StripeCall → Py Json) : Stripe Unit where
  call c s := (answer c, s)

def basicPlan : Plan where
  id := 10#128
  name := "Basic"
  description := ""
  context := .personal
  tier := .basic
  interval := .month
  isActive := true

def proPlan : Plan := { basicPlan with id := 11#128, name := "Pro", tier := .pro }

def teamPlan : Plan := { basicPlan with id := 12#128, name := "Team", context := .team }

def buyer : User where
  id := 1#128
  email := "buyer@example.com"
  fullName := "Buyer"
  preferredCurrency := none

def buyerCustomer : StripeCustomer where
  id := 30#128
  stripeId := "cus_1"
  userId := some buyer.id
  orgId := none
  livemode := false
  createdAt := 0

/-- Three plans with their USD prices, and one customer. -/
def sampleDb : Db where
  users := ⟨[buyer], by decide⟩
  orgs := Table.empty
  members := Table.empty
  invitations := Table.empty
  plans := ⟨[basicPlan, proPlan, teamPlan], by decide⟩
  planPrices := ⟨[⟨20#128, basicPlan.id, "price_basic", 999⟩, ⟨21#128, proPlan.id, "price_pro", 1999⟩,
    ⟨22#128, teamPlan.id, "price_team", 2999⟩], by decide⟩
  products := Table.empty
  productPrices := Table.empty
  localizedPrices := Table.empty
  customers := ⟨[buyerCustomer], by decide⟩
  subscriptions := Table.empty
  events := Table.empty
  creditBalances := Table.empty
  creditTransactions := Table.empty
  integral := by decide +kernel

/-- The buyer's subscription to the basic plan. -/
def buyerSubscription : Subscription where
  id := 40#128
  stripeId := some "sub_1"
  stripeCustomerId := some buyerCustomer.id
  userId := some buyer.id
  status := .active
  planId := basicPlan.id
  seatLimit := 1
  trialEndsAt := none
  currentPeriodStart := 0
  currentPeriodEnd := 100000000
  canceledAt := none
  cancelAt := none
  scheduledPlanId := none
  scheduledChangeAt := none
  currency := "usd"
  createdAt := 0

def subscribedDb : Db where
  toTables := { sampleDb.toTables with subscriptions := ⟨[buyerSubscription], by decide⟩ }
  integral := by decide +kernel

def sampleWorld : World Unit := ⟨sampleDb, (), []⟩

def subscribedWorld : World Unit := ⟨subscribedDb, (), []⟩

/-- A run at time `now` whose fresh ids are derived from `n`. -/
def sampleRuntime (answer : StripeCall → Py Json) (n now : ℕ) : Runtime Unit where
  stripe := Stripe.scripted answer
  slugify := lower
  now := now
  brokerUp := true
  subscriptionId := BitVec.ofNat 128 (1000 + 8 * n)
  orgId := BitVec.ofNat 128 (1001 + 8 * n)
  memberId := BitVec.ofNat 128 (1002 + 8 * n)
  customerId := BitVec.ofNat 128 (1003 + 8 * n)
  transactionId := BitVec.ofNat 128 (1004 + 8 * n)
  balanceId := BitVec.ofNat 128 (1005 + 8 * n)
  userId := BitVec.ofNat 128 (1006 + 8 * n)
  invitationId := BitVec.ofNat 128 (1007 + 8 * n)
  token := "token-" ++ toString n

/-- Stripe accepts every change of a subscription, and cancels at second 100. -/
def modifiable : StripeCall → Py Json
  | .subscriptionModify id _ => .ok (.obj [("id", .str id), ("status", .str "active"),
      ("cancel_at", .int 100), ("canceled_at", .null)])
  | _ => .error (.connection "connection refused")

/-- Stripe is unreachable. -/
def noStripe (_ : StripeCall) : Py Json := .error (.connection "connection refused")

end Saasmint
