import Saasmint.Data.World

/-!
# Cancelling, resuming and resizing subscriptions

The billing services behind the subscription endpoints.  Each reads the active
local row, calls Stripe, and saves a copy of the row it read, so that the next
`GET` does not have to wait for the webhook.
-/

namespace Saasmint

open Handler

variable {σ : Type}

/-! ## Schedules -/

/-- `_release_pending_schedule`. -/
def releasePendingSchedule (rt : Runtime σ) (stripeSubscriptionId : String) : Handler σ Unit := do
  let sub ← callStripe rt (.subscriptionRetrieve stripeSubscriptionId)
  let scheduleId ← lift (sub.attr "schedule")
  if scheduleId.truthy then
    let schedule ← callStripe rt (.scheduleRetrieve scheduleId.toStr)
    let status ← lift (schedule.attr "status")
    if status.toStr = "not_started" ∨ status.toStr = "active" then
      let id ← lift (schedule.attr "id")
      let _ ← callStripe rt (.scheduleRelease id.toStr)

/-- `release_pending_schedule_for_customer`. -/
def releasePendingScheduleForCustomer (rt : Runtime σ) (stripeCustomerId : UUID) :
    Handler σ Unit := do
  let some active ← getActiveForCustomer stripeCustomerId
    | throw (.subscriptionNotFound "No active subscription found.")
  let some stripeId := active.stripeId
    | throw (.subscriptionNotFound "No active subscription found.")
  releasePendingSchedule rt stripeId
  if active.scheduledPlanId ≠ none ∨ active.scheduledChangeAt ≠ none then
    saveSubscription rt.now { active with scheduledPlanId := none, scheduledChangeAt := none }

/-! ## Cancelling and resuming -/

/-- The row `_mirror_cancel_state_from_stripe` saves; an unknown status leaves
the one that was read. -/
def mirrorCancelState (active : Subscription) (stripeSub : Json) : Py Subscription := do
  let cancelAtTs ← stripeSub.attr "cancel_at"
  let canceledAtTs ← stripeSub.attr "canceled_at"
  let status ← stripeSub.attr "status"
  let cancelAt ← tsToDt cancelAtTs
  let canceledAt ← tsToDt canceledAtTs
  return { active with
    cancelAt := cancelAt
    canceledAt := canceledAt
    status := match status with
      | .str text => (SubscriptionStatus.ofValue? text).getD active.status
      | _ => active.status }

/-- `_mirror_cancel_state_from_stripe`. -/
def mirrorCancelStateFromStripe (rt : Runtime σ) (active : Subscription) (stripeSub : Json) :
    Handler σ Unit := do
  let row ← lift (mirrorCancelState active stripeSub)
  saveSubscription rt.now row

def cancelSubscription (rt : Runtime σ) (stripeCustomerId : UUID) (atPeriodEnd : Bool) :
    Handler σ Unit := do
  let some active ← getActiveForCustomer stripeCustomerId
    | throw (.subscriptionNotFound "No active subscription found to cancel.")
  let some stripeId := active.stripeId
    | throw (.subscriptionNotFound "No active subscription found to cancel.")
  if active.scheduledPlanId ≠ none then
    releasePendingSchedule rt stripeId
  let stripeSub ← callStripe rt <| if atPeriodEnd
    then .subscriptionModify stripeId (.cancelAt "min_period_end")
    else .subscriptionCancel stripeId
  mirrorCancelStateFromStripe rt active stripeSub

def resumeSubscription (rt : Runtime σ) (stripeCustomerId : UUID) : Handler σ Unit := do
  let some active ← getActiveForCustomer stripeCustomerId
    | throw (.subscriptionNotFound "No active subscription found to resume.")
  let some stripeId := active.stripeId
    | throw (.subscriptionNotFound "No active subscription found to resume.")
  let stripeSub ← callStripe rt (.subscriptionModify stripeId (.cancelAt ""))
  mirrorCancelStateFromStripe rt active stripeSub

/-! ## Seats -/

/-- `_validate_quantity_for_context`. -/
def validateQuantityForContext (context : PlanContext) (quantity : Int) : Py Unit :=
  match context with
  | .personal =>
      if quantity = 1 then .ok ()
      else .error (.validation "" "Personal plans do not support multiple seats.")
  | .team =>
      if quantity < 1 then .error (.validation "" "Team plans require at least 1 seats.")
      else .ok ()

/-- `_reject_seat_limit_below_member_count`. -/
def rejectSeatLimitBelowMemberCount (orgId : UUID) (seatLimit : Int) : Handler σ Unit := do
  let memberCount : Int ← query fun db =>
    ((db.members.filter fun m => m.orgId == orgId).length : Int)
  if seatLimit < memberCount then
    throw (.seatsBelowMemberCount ("Cannot reduce seats to " ++ toString seatLimit ++
      ": org has " ++ toString memberCount ++ " members. Remove " ++
      toString (memberCount - seatLimit) ++ " member(s) first."))

def updateSeatCount (rt : Runtime σ) (active : Subscription) (quantity : Int) :
    Handler σ Unit := do
  if quantity < 1 then
    throw (.valueError "Seat count must be at least 1")
  let some stripeId := active.stripeId
    | throw (.valueError "Subscription has no stripe_id; cannot update seat count")
  let sub ← callStripe rt (.subscriptionRetrieve stripeId)
  let firstItem ← lift do (← (← sub.item "items").item "data").nth 0
  let itemId := (← lift (firstItem.item "id")).toStr
  let currentQuantity ← lift (firstItem.item "quantity")
  let proration := if ← lift (currentQuantity.ltInt quantity) then "create_prorations" else "none"
  let _ ← callStripe rt (.subscriptionModify stripeId (.item itemId none quantity proration))
  if active.seatLimit ≠ quantity then
    saveSubscription rt.now { active with seatLimit := quantity }

/-- A seat-only `PATCH` of the active subscription of a customer: the lookup of
`_get_customer_and_paid_subscription`, then `_apply_seat_only`. -/
def applySeatOnly (rt : Runtime σ) (stripeCustomerId : UUID) (orgId : Option UUID)
    (seatLimit : Int) : Handler σ Unit := do
  let some sub ← getActiveForCustomer stripeCustomerId
    | throw (.notFound "No active subscription found.")
  if sub.stripeId = none then
    throw (.notFound "No active subscription found.")
  let some plan ← query fun db => db.planById sub.planId
    | throw (.doesNotExist "Plan matching query does not exist.")
  lift (validateQuantityForContext plan.context seatLimit)
  if let some orgId := orgId then
    rejectSeatLimitBelowMemberCount orgId seatLimit
  updateSeatCount rt sub seatLimit

end Saasmint
