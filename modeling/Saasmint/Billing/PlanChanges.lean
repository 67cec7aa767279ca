import Saasmint.Billing.CheckoutViews
import Saasmint.Billing.SubscriptionSync

/-!
# Changing plans and seats

`PATCH /subscriptions/me/`: a change of the plan, of the seats, or of both.  A plan
change goes to Stripe alone, at once or by a schedule that switches at the end of the
period, and reaches the database with the events that follow.  A change of the seats
is also mirrored by the request.

The services are handlers; the view is a session around them.
-/

namespace Saasmint

open Atomic Handler

variable {σ : Type}

/-! ## Reading Stripe objects -/

/-- `str.upper` on ASCII text. -/
def upper (s : String) : String := String.ofList (s.toList.map Char.toUpper)

/-- `_safe_get`: a missing key is `None`. -/
def safeGet (value : Json) (key : String) : Py Json :=
  if value.isNull then .ok .null
  else
    match value.item key with
    | .error (.keyError _) => .ok .null
    | result => result

/-- `sub["items"]["data"][0]`. -/
def subscriptionItem (sub : Json) : Py Json := do (← (← sub.item "items").item "data").nth 0

/-- The seats of an item, `1` if it does not say. -/
def itemQuantity (firstItem : Json) : Py Int := do
  return (← safeGet firstItem "quantity").asInt?.getD 1

/-- Whether the new price is below the one of the item. -/
def isDowngrade (firstItem : Json) : Option Int → Py Bool
  | none => .ok false
  | some newPriceAmount => do
      let price ← safeGet firstItem "price"
      let currentAmount ← safeGet price "unit_amount"
      return currentAmount.asInt?.any (newPriceAmount < ·)

/-- `_read_period_field`. -/
def readPeriodField (sub firstItem : Json) (field : String) : Py Int := do
  let value ← safeGet firstItem field
  let value ← if value.isNull then safeGet sub field else pure value
  match value.asInt? with
  | some timestamp => return timestamp
  | none => throw (.valueError ("Subscription " ++ (← sub.item "id").toStr ++ " missing integer " ++
      field ++ "; cannot schedule a deferred downgrade"))

/-- A currency as Stripe writes it, or nothing. -/
def currencyOf (value : Json) : String := lower (value.orElse (.str "")).toStr

/-! ## Changing the plan -/

/-- The schedule that manages the subscription, or a new one. -/
def pinningSchedule (rt : Runtime σ) (sub : Json) : Handler σ String := do
  let existing ← lift (safeGet sub "schedule")
  if existing.truthy then
    return existing.toStr
  let id ← lift (sub.item "id")
  let schedule ← callStripe rt (.scheduleCreate id.toStr)
  return (← lift (schedule.item "id")).toStr

/-- What the phases of a downgrade are made of. -/
structure CurrentTerms where
  priceId : String
  currency : String
  periodStart : Int
  periodEnd : Int

def readCurrentTerms (sub firstItem : Json) : Py CurrentTerms := do
  let periodEnd ← readPeriodField sub firstItem "current_period_end"
  let periodStart ← readPeriodField sub firstItem "current_period_start"
  let price ← firstItem.item "price"
  let priceId := (← price.item "id").toStr
  let currency := currencyOf (← (← firstItem.item "price").get "currency")
  return { priceId, currency, periodStart, periodEnd }

/-- `_schedule_downgrade_at_period_end`. -/
def scheduleDowngradeAtPeriodEnd (rt : Runtime σ) (sub : Json) (newStripePriceId : String)
    (quantity : Int) : Handler σ Unit := do
  let firstItem ← lift (subscriptionItem sub)
  let current ← lift (readCurrentTerms sub firstItem)
  let newPrice ← callStripe rt (.priceRetrieve newStripePriceId)
  let newCurrency := currencyOf (← lift (newPrice.attr "currency"))
  if current.currency ≠ "" ∧ newCurrency ≠ "" ∧ current.currency ≠ newCurrency then
    throw (.valueError ("Cannot schedule downgrade: subscription is in " ++ upper current.currency ++
      " but new price is in " ++ upper newCurrency ++
      ". Stripe pins subscription currency for life."))
  let scheduleId ← pinningSchedule rt sub
  let _ ← callStripe rt (.scheduleModify scheduleId
    [⟨current.priceId, quantity, current.periodStart, some current.periodEnd⟩,
      ⟨newStripePriceId, quantity, current.periodEnd, none⟩])

/-- The item to change: a subscription that a schedule manages is released first, and
read again. -/
def releasedItem (rt : Runtime σ) (sub : Json) (stripeSubscriptionId itemId : String) :
    Handler σ String := do
  let existing ← lift (safeGet sub "schedule")
  if existing.truthy then
    let _ ← callStripe rt (.scheduleRelease existing.toStr)
    let sub ← callStripe rt (.subscriptionRetrieve stripeSubscriptionId)
    let firstItem ← lift (subscriptionItem sub)
    return (← lift (firstItem.item "id")).toStr
  return itemId

/-- `_apply_immediate_plan_change`. -/
def applyImmediatePlanChange (rt : Runtime σ) (sub : Json)
    (stripeSubscriptionId itemId newStripePriceId : String) (prorate : Bool) (quantity : Int) :
    Handler σ Unit := do
  let itemId ← releasedItem rt sub stripeSubscriptionId itemId
  let proration := if prorate then "create_prorations" else "none"
  let _ ← callStripe rt (.subscriptionModify stripeSubscriptionId
    (.item itemId (some newStripePriceId) quantity proration))

def changePlan (rt : Runtime σ) (stripeSubscriptionId newStripePriceId : String)
    (newPriceAmount : Option Int) (prorate : Bool) (quantity : Option Int) : Handler σ Unit := do
  let sub ← callStripe rt (.subscriptionRetrieve stripeSubscriptionId)
  let firstItem ← lift (subscriptionItem sub)
  let itemId := (← lift (firstItem.item "id")).toStr
  let currentQuantity ← lift (itemQuantity firstItem)
  let downgrade ← lift (isDowngrade firstItem newPriceAmount)
  let quantity := quantity.getD currentQuantity
  if downgrade then
    scheduleDowngradeAtPeriodEnd rt sub newStripePriceId quantity
  else
    applyImmediatePlanChange rt sub stripeSubscriptionId itemId newStripePriceId prorate quantity

/-! ## Whose subscription -/

/-- The first membership with billing authority. -/
def Db.billingMembership (db : Db) (userId : UUID) : Option OrgMember :=
  Db.first? OrgMember.id (db.members.filter fun m => m.userId == userId && m.isBilling)

namespace Session

/-- `_require_billing_authority`. -/
def requireBillingAuthority (userId : UUID) : PlanContext → Session σ (Option UUID)
  | .personal => return none
  | .team => do
      let some member ← select fun db => db.billingMembership userId
        | throw (.permissionDenied "Only billing members can modify the team subscription.")
      return some member.orgId

/-- `_resolve_mutation_context`: the org of the team context, or none in the personal
one. -/
def resolveMutationContext (userId : UUID) (context : Option String) :
    Session σ (Option UUID) := do
  match ← lift (validateSubscriptionContext context) with
  | some explicit => requireBillingAuthority userId explicit
  | none =>
      let some membership ← select fun db => db.firstMembership userId | return none
      if !membership.isBilling then
        throw (.permissionDenied "Only billing members can modify the team subscription.")
      return some membership.orgId

/-- `_resolve_billing_customer` of a resolved context. -/
def resolveBillingCustomer (userId : UUID) : Option UUID → Session σ (Option StripeCustomer)
  | some orgId => select fun db => db.customerByOrgId orgId
  | none => select fun db => db.customerByUserId userId

/-- `_get_customer_and_paid_subscription`. -/
def getCustomerAndPaidSubscription (userId : UUID) (orgId : Option UUID) :
    Session σ (StripeCustomer × Subscription × String) := do
  let some customer ← resolveBillingCustomer userId orgId
    | throw (.notFound "No Stripe customer found.")
  let some sub ← ofHandler [] (getActiveForCustomer customer.id)
    | throw (.notFound "No active subscription found.")
  let some stripeId := sub.stripeId
    | throw (.notFound "No active subscription found.")
  return (customer, sub, stripeId)

end Session

/-! ## The view -/

/-- A change of the plan or of the seats, as `UpdateSubscriptionSerializer` lets it
through. -/
structure SubscriptionChange where
  planPriceId : Option UUID
  seatLimit : Option Int
  prorate : Bool
  seatLimit_range : ∀ seats ∈ seatLimit, 1 ≤ seats ∧ seats ≤ 10000
  requested : planPriceId.isSome ∨ seatLimit.isSome

namespace Session

/-- `_reject_seat_limit_below_member_count`, with the count that was read. -/
def rejectSeatLimitBelowMemberCount (orgId : UUID) (seatLimit : Int) : Session σ ℕ := do
  let memberCount ← select fun db => (db.members.filter fun m => m.orgId == orgId).length
  if seatLimit < memberCount then
    throw (.seatsBelowMemberCount ("Cannot reduce seats to " ++ toString seatLimit ++
      ": org has " ++ toString memberCount ++ " members. Remove " ++
      toString (memberCount - seatLimit) ++ " member(s) first."))
  return memberCount

/-- What the change of the seats of an org is based on. -/
def checkMemberCount (seatLimit : Int) : Option UUID → Session σ (List Basis)
  | some orgId => do
      return [.memberCount orgId (← rejectSeatLimitBelowMemberCount orgId seatLimit)]
  | none => return []

/-- `_apply_plan_change`. -/
def applyPlanChange (rt : Runtime σ) (sub : Subscription) (stripeSubId : String)
    (planPrice : LoadedPrice) (change : SubscriptionChange) (orgId : Option UUID) :
    Session σ Unit := do
  let found ← select fun db => resolvePlanChangePrice db planPrice sub.currency
  let (newPriceId, newPriceAmount) ← lift found
  let basis ← match change.seatLimit with
    | some seatLimit => checkMemberCount seatLimit orgId
    | none => pure []
  ofHandler basis
    (changePlan rt stripeSubId newPriceId (some newPriceAmount) change.prorate change.seatLimit)

/-- `_apply_seat_only`. -/
def applySeatOnly (rt : Runtime σ) (sub : Subscription) (seatLimit : Int) (orgId : Option UUID) :
    Session σ Unit := do
  let some plan ← select fun db => db.planById sub.planId
    | throw (.doesNotExist "Plan matching query does not exist.")
  lift (validateQuantityForContext plan.context seatLimit)
  let basis ← checkMemberCount seatLimit orgId
  ofHandler basis (updateSeatCount rt sub seatLimit)

/-- The price that is asked for, with its plan. -/
def requestedPrice : Option UUID → Session σ (Option (LoadedPrice × Plan))
  | none => return none
  | some planPriceId => do
      let found ← select fun db => activePlanPrice db planPriceId none
      return some (← lift found)

/-- The seats that are asked for fit the plan that is. -/
def validateQuantityForPlan (planPrice : Option (LoadedPrice × Plan)) (seatLimit : Option Int) :
    Py Unit :=
  match planPrice, seatLimit with
  | some (_, plan), some seatLimit => validateQuantityForContext plan.context seatLimit
  | _, _ => .ok ()

/-- `SubscriptionView.patch` of a change. -/
def changeSubscription (rt : Runtime σ) (userId : UUID) (context : Option String)
    (change : SubscriptionChange) : Session σ Unit := do
  let orgId ← resolveMutationContext userId context
  let planPrice ← requestedPrice change.planPriceId
  lift (validateQuantityForPlan planPrice change.seatLimit)
  let (_, sub, stripeSubId) ← getCustomerAndPaidSubscription userId orgId
  match planPrice, change.seatLimit with
  | some (price, _), _ => applyPlanChange rt sub stripeSubId price change orgId
  | none, some seatLimit => applySeatOnly rt sub seatLimit orgId
  | none, none => return

end Session

end Saasmint
