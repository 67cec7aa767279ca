import Saasmint.Library.Histories
import Saasmint.Billing.SubscriptionView

/-!
# Requests about billing

The views that act at Stripe for the caller: a plan or a product is bought, the subscription
is changed, cancelled or kept from changing, and the customer portal is opened.  They share
`_resolve_mutation_context` or a variant of it, and `_get_customer_and_paid_subscription`.

`BillingRequest` gathers them.  Mails are left out, but not who is to get them.
-/

namespace Saasmint

open Relational

variable {σ : Type}

/-- The addresses of the members who can bill. -/
def Db.billingEmails (db : Db) (orgId : UUID) : List String :=
  (db.members.filter fun m => m.orgId == orgId && m.isBilling).filterMap fun m =>
    User.email <$> db.userById m.userId

namespace Session

/-- `_billing_notice_recipients`. -/
def billingNoticeRecipients (user : User) : Option UUID → Session σ (List String)
  | none => return [user.email]
  | some orgId => select fun db => db.billingEmails orgId

/-- `SubscriptionView.delete`: who is told of the cancellation.  With nobody to tell, nothing
is looked up for the notice. -/
def deleteSubscription (rt : Runtime σ) (currencies : Currencies) (user : User)
    (context currency : Option String) : Session σ (List String) := do
  let orgId ← resolveMutationContext user.id context
  let (customer, _, _) ← getCustomerAndPaidSubscription user.id orgId
  ofHandler [] (cancelSubscription rt customer.id true)
  let recipients ← billingNoticeRecipients user orgId
  if recipients ≠ [] then
    let _ ← lift (resolveBillingCurrency currencies currency user)
    let _ ← refetchSubscriptionAfterMutation user.id orgId.isSome
  return recipients

/-- `ScheduledChangeView.delete`. -/
def deleteScheduledChange (rt : Runtime σ) (user : User) (context : Option String) :
    Session σ Unit := do
  let orgId ← resolveMutationContext user.id context
  let (customer, _, _) ← getCustomerAndPaidSubscription user.id orgId
  ofHandler [] (releasePendingScheduleForCustomer rt customer.id)

/-- `_default_subscription_context_async`. -/
def defaultSubscriptionContext (userId : UUID) : Session σ PlanContext := do
  let isMember ← select fun db => db.members.rows.any fun m => m.userId == userId
  return if isMember then .team else .personal

/-- The customer whose portal is opened in a context. -/
def portalCustomer (rt : Runtime σ) (user : User) : PlanContext → Session σ String
  | .team => do
      let orgId ← requireBillingAuthority user.id .team
      let some customer ← resolveBillingCustomer user.id orgId
        | throw (.notFound "No team Stripe customer found.")
      return customer.stripeId
  | .personal => getOrCreateCustomer rt (.user user.id) (some user.id) none

/-- `PortalSessionView.post`: the `customer` of the portal session. -/
def openPortal (rt : Runtime σ) (user : User) (context : Option String) : Session σ String := do
  match ← lift (validateSubscriptionContext context) with
  | some explicit => portalCustomer rt user explicit
  | none => portalCustomer rt user (← defaultSubscriptionContext user.id)

end Session

/-! ## Requests -/

inductive BillingRequest
  | checkout (currencies : Currencies) (checkout : Checkout)
  | patch (currencies : Currencies) (context currency : Option String) (patch : SubscriptionPatch)
  | cancel (currencies : Currencies) (context currency : Option String)
  | releaseChange (context : Option String)
  | portal (context : Option String)

/-- What comes of a request: the URL of a checkout, the subscription as it is shown, the
addresses that are told, or the customer of a portal. -/
inductive BillingAnswer
  | checkout (url : String)
  | shown (sub : Subscription)
  | cancelled (recipients : List String)
  | released
  | portal (stripeCustomerId : String)

def BillingRequest.session (rt : Runtime σ) (user : User) :
    BillingRequest → Session σ BillingAnswer
  | checkout currencies request => BillingAnswer.checkout <$> request.post rt currencies user
  | patch currencies context currency change =>
      BillingAnswer.shown <$> Session.patchSubscription rt currencies ⟨user, context, currency, change⟩
  | cancel currencies context currency =>
      BillingAnswer.cancelled <$> Session.deleteSubscription rt currencies user context currency
  | releaseChange context =>
      (fun _ => BillingAnswer.released) <$> Session.deleteScheduledChange rt user context
  | portal context => BillingAnswer.portal <$> Session.openPortal rt user context

end Saasmint
