import Saasmint.Billing.SubscriptionSync
import Saasmint.Billing.Subscriptions

/-!
# Team checkouts

What `checkout.session.completed` leads to for a team plan: the org with its
owner and its Stripe customer, the mirror of the bought subscription, and the
cancellation of the buyer's personal one.

`_create_org_with_owner` runs in a transaction.  Its lookups see what others
have committed, so they are actions of their own; its inserts become visible
together or not at all, so they are one action with the commit.
-/

namespace Saasmint

open Relational Handler

variable {σ : Type}

/-! ## Slugs -/

def isSlugChar (c : Char) : Bool :=
  ('a' ≤ c && c ≤ 'z') || ('0' ≤ c && c ≤ '9') || c == '-'

/-- The slug before a suffix is added. -/
def baseSlug (slugify : String → String) (name : String) : String :=
  let base := strip ['-'] ((slugify name).toList.filter isSlugChar)
  if base.length < 2 then "org" else String.ofList base

/-- `slug` is `base`, or `base` with a numeric suffix. -/
def isVariant (base slug : String) : Bool :=
  slug == base || ((base ++ "-").toList.isPrefixOf slug.toList &&
    let digits := slug.toList.drop (base ++ "-").toList.length
    !digits.isEmpty && digits.all fun c => '0' ≤ c && c ≤ '9')

/-- The first free suffix from `suffix` on, of `fuel` that are tried. -/
def freeSuffix (existing : List String) (base : String) : ℕ → ℕ → ℕ
  | 0, suffix => suffix
  | fuel + 1, suffix =>
      if existing.contains (base ++ "-" ++ toString suffix) then
        freeSuffix existing base fuel (suffix + 1)
      else suffix

def generateUniqueSlug (slugify : String → String) (name : String) (slugs : List String) :
    String :=
  let base := baseSlug slugify name
  let existing := slugs.filter (isVariant base)
  if existing.contains base then
    -- of more candidates than there are slugs, one is free
    base ++ "-" ++ toString (freeSuffix existing base existing.length 2)
  else base

/-! ## Creating the org -/

/-- `StripeCustomer.objects.create`, when there is a customer to create. -/
def insertOrgCustomer (customers : Table StripeCustomer) :
    Option StripeCustomer → Py (Table StripeCustomer)
  | none => .ok customers
  | some customer =>
      if customer.fits then insertRow customers customer
      else .error (.data "value too long for column type")

/-- The inserts of `_create_org_with_owner`, up to the commit. -/
def insertOrgWithOwner (db : Db) (org : Org) (member : OrgMember)
    (customer : Option StripeCustomer) : Py Db :=
  if org.fits then do
    let orgs ← insertRow db.orgs org
    let members ← insertRow db.members member
    let customers ← insertOrgCustomer db.customers customer
    Db.commit { db.toTables with orgs := orgs, members := members, customers := customers }
  else .error (.data "value too long for column type")

/-- The org-and-member pair an earlier delivery for this customer has created. -/
def alreadyCreated (user : User) (stripeCustomerId : String) :
    Handler σ (Option (Org × OrgMember)) := do
  let some existing ← query fun db => db.customerByStripeId stripeCustomerId | return none
  let some orgId := existing.orgId | return none
  let some alreadyOrg ← query fun db => db.orgById orgId | return none
  let some member ← query fun db => db.memberOf alreadyOrg.id user.id | return none
  return some (alreadyOrg, member)

def newOrg (rt : Runtime σ) (user : User) (name slug : String) : Org where
  id := rt.orgId
  name := name
  slug := slug
  createdById := some user.id
  createdAt := rt.now

def ownerMembership (rt : Runtime σ) (user : User) : OrgMember where
  id := rt.memberId
  orgId := rt.orgId
  userId := user.id
  role := .owner
  isBilling := true
  joinedAt := rt.now

def orgCustomer (rt : Runtime σ) (stripeId : String) (livemode : Bool) : StripeCustomer where
  id := rt.customerId
  stripeId := stripeId
  userId := none
  orgId := some rt.orgId
  livemode := livemode
  createdAt := rt.now

/-- `_create_org_with_owner`. -/
def createOrgWithOwner (rt : Runtime σ) (user : User) (orgName : String)
    (stripeCustomerId : Option String) (livemode : Bool) : Handler σ (Org × OrgMember) := do
  if let some stripeCustomerId := stripeCustomerId then
    if let some already ← alreadyCreated user stripeCustomerId then
      return already
  let slug ← query fun db => generateUniqueSlug rt.slugify orgName (db.orgs.rows.map Org.slug)
  let org := newOrg rt user orgName slug
  let member := ownerMembership rt user
  let customer := stripeCustomerId.map fun stripeId => orgCustomer rt stripeId livemode
  transaction fun db => (fun db => ((), db)) <$> insertOrgWithOwner db org member customer
  return (org, member)

/-! ## The callback -/

/-- `_persist_team_subscription`. -/
def persistTeamSubscription (rt : Runtime σ) (stripeSubscriptionId : String) :
    Handler σ Unit := do
  let sub ← callStripe rt (.subscriptionRetrieve stripeSubscriptionId)
  syncSubscriptionFromData rt sub

/-- `_schedule_personal_cancel_at_period_end`. -/
def schedulePersonalCancelAtPeriodEnd (rt : Runtime σ) (userId : UUID) : Handler σ Unit := do
  let some personalCustomer ← query fun db => db.customerByUserId userId | return
  tryCatch (cancelSubscription rt personalCustomer.id true) fun
    | .subscriptionNotFound _ => return
    | e => throw e

def onTeamCheckoutCompleted (rt : Runtime σ) (userId : UUID) (orgName : String)
    (stripeCustomerId : String) (livemode : Bool) (stripeSubscriptionId : Option String)
    (keepPersonalSubscription : Bool) : Handler σ Unit := do
  let some user ← query fun db => db.userById userId
    | throw (.doesNotExist "User matching query does not exist.")
  let _ ← createOrgWithOwner rt user orgName (some stripeCustomerId) livemode
  if let some stripeSubscriptionId := stripeSubscriptionId then
    persistTeamSubscription rt stripeSubscriptionId
  if !keepPersonalSubscription then
    schedulePersonalCancelAtPeriodEnd rt userId

end Saasmint
