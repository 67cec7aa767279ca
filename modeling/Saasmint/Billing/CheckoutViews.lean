import Saasmint.Catalog.Prices
import Saasmint.Data.Sessions
import Saasmint.Python.Uuid

/-!
# Starting a checkout

`CheckoutSessionView` and `ProductCheckoutSessionView` validate a request, resolve
its price and its customer, and create a Stripe Checkout Session.  What is bought
and for whom travels through Stripe as text: the client reference, and metadata
for team plans and products.

`Checkout.callback` says what the completed session is to lead to, in terms of the
request and the database the view has seen.  `checkout_decodes` is that the
webhook handler reads exactly this off the event of the session.
-/

namespace Saasmint

open Atomic Relational

variable {σ : Type}

/-! ## Currencies and prices -/

/-- `SUPPORTED_CURRENCIES` and `settings.BILLING_CURRENCIES`. -/
structure Currencies where
  supported : List String
  billable : List String

/-- `_resolve_billing_currency`: the currency Stripe charges. -/
def resolveBillingCurrency (currencies : Currencies) (queryCurrency : Option String)
    (user : User) : Py String := do
  let requested := (queryCurrency.filter (· ≠ "")).map lower
  if requested.any fun r => !currencies.supported.contains r then
    throw (.validation "currency"
      ("Unsupported currency: " ++ Json.quote (queryCurrency.getD "") ++ "."))
  let preferred := (user.preferredCurrency.filter (· ≠ "")).map lower
  let userPref := preferred.filter currencies.supported.contains
  let target := (requested.or userPref).getD "usd"
  return if currencies.billable.contains target then target else "usd"

/-- `_get_active_plan_price`, with the plan it has selected too. -/
def activePlanPrice (db : Db) (planPriceId : UUID) (currency : Option String) :
    Py (LoadedPrice × Plan) := do
  let loaded ← getActivePlanPrice db planPriceId currency
  match loaded.price with
  | .plan price =>
      match db.planById price.planId with
      | some plan => return (loaded, plan)
      | none => throw (.doesNotExist "Plan matching query does not exist.")
  | .product _ => throw (.notFound "Invalid plan price.")

/-- `_get_active_product_price`. -/
def activeProductPrice (db : Db) (productPriceId : UUID) (currency : Option String) :
    Py (LoadedPrice × ProductPrice) :=
  let found := db.productPrices.find? fun p => p.id == productPriceId &&
    db.products.rows.any fun product => product.id == p.productId && product.isActive
  match found with
  | none => .error (.notFound "Invalid product price.")
  | some p => .ok (⟨.product p, prefetched db (.product p) currency⟩, p)

/-- `OrgMember.objects.filter(user_id=userId).first()`. -/
def Db.firstMembership (db : Db) (userId : UUID) : Option OrgMember :=
  Db.first? OrgMember.id (db.members.filter fun m => m.userId == userId)

/-! ## Validation -/

/-- `validated_data` of `CheckoutRequestSerializer`. -/
structure CheckoutData where
  planPriceId : UUID
  seatLimit : Int
  trialPeriodDays : Option Int
  orgName : Option String
  keepPersonalSubscription : Bool
  seatLimit_range : 1 ≤ seatLimit ∧ seatLimit ≤ 10000
  trial_range : ∀ days ∈ trialPeriodDays, 1 ≤ days ∧ days ≤ 90
  orgName_valid : ∀ name ∈ orgName, name ≠ "" ∧ fitsVarchar 255 name = true

theorem CheckoutData.no_trial : ∀ days ∈ (none : Option Int), 1 ≤ days ∧ days ≤ 90 := nofun

/-- `_validate_subscription_context`. -/
def validateSubscriptionContext : Option String → Py (Option PlanContext)
  | none | some "" => .ok none
  | some "personal" => .ok (some .personal)
  | some "team" => .ok (some .team)
  | some _ => .error (.validation "context" "Must be 'personal' or 'team'.")

/-- `_resolve_product_purchase_context`, of the user's first membership. -/
def resolveProductPurchaseContext (membership : Option OrgMember) (context : Option PlanContext) :
    Py (Option UUID) :=
  match context.getD (if membership.isSome then .team else .personal), membership with
  | .personal, _ => .ok none
  | .team, none => .error (.validation "context" "Only org members can purchase team credits.")
  | .team, some m =>
      if m.role ≠ .owner then
        .error (.permissionDenied "Only the org owner can purchase credits for the team.")
      else .ok (some m.orgId)

/-- `_build_checkout_metadata`. -/
def buildCheckoutMetadata (isTeam : Bool) (data : CheckoutData) :
    Py (Option (List (String × String))) :=
  if isTeam then
    match data.orgName with
    | none => .error (.keyError "org_name")
    | some orgName => .ok (some [("org_name", orgName),
        ("keep_personal_subscription", if data.keepPersonalSubscription then "true" else "false")])
  else .ok none

def productMetadata (productId : UUID) (orgId : Option UUID) : List (String × String) :=
  ("product_id", uuidText productId) :: (orgId.map fun id => ("org_id", uuidText id)).toList

/-! ## The views -/

namespace Db

/-- `DjangoStripeCustomerRepository.save` of a customer with an owner. -/
def saveCustomer (db : Db) (customer : StripeCustomer) : Py Db :=
  if customer.fits then
    match db.customers.upsert?
        (fun c => if customer.userId.isSome then c.userId == customer.userId
          else c.orgId == customer.orgId)
        (fun c => { customer with id := c.id, createdAt := c.createdAt }) customer with
    | some rows => commit { db.toTables with customers := rows }
    | none => .error (.integrity "duplicate key value violates unique constraint")
  else .error (.data "value too long for column type")

end Db

namespace Session

/-- `get_or_create_customer`: the id of the Stripe customer. -/
def getOrCreateCustomer (rt : Runtime σ) (scope : CustomerScope) (userId orgId : Option UUID) :
    Session σ String := do
  let existing ← select fun db => match userId, orgId with
    | some userId, _ => db.customerByUserId userId
    | none, some orgId => db.customerByOrgId orgId
    | none, none => none
  match existing with
  | some customer => return customer.stripeId
  | none =>
      let created ← callStripe rt (.customerCreate scope)
      let stripeId ← lift (created.attr "id")
      let livemode ← lift (created.attr "livemode")
      execute [] (fun _ => []) fun db => (fun db => ((), db)) <$> db.saveCustomer
        { id := rt.customerId, stripeId := stripeId.toStr, userId := userId, orgId := orgId,
          livemode := livemode.truthy, createdAt := rt.now }
      return stripeId.toStr

/-- `create_team_stripe_customer`. -/
def createTeamStripeCustomer (rt : Runtime σ) (userId : UUID) : Session σ String := do
  let created ← callStripe rt (.customerCreate (.teamCheckout userId))
  return (← lift (created.attr "id")).toStr

/-- `_validate_team_checkout`. -/
def validateTeamCheckout (user : User) (data : CheckoutData) : Session σ Unit := do
  let alreadyOwnsOrg ← select fun db =>
    db.members.rows.any fun m => m.userId == user.id && m.role == .owner
  if alreadyOwnsOrg then throw .orgAlreadyOwned
  if data.orgName.isNone then throw (.validation "org_name" "Required for team plans.")

def validateContext (isTeam : Bool) (user : User) (data : CheckoutData) : Session σ Unit :=
  if isTeam then validateTeamCheckout user data else pure ()

/-- A new customer for a team, the user's own for a personal plan. -/
def planCustomer (rt : Runtime σ) (isTeam : Bool) (user : User) : Session σ String :=
  if isTeam then createTeamStripeCustomer rt user.id
  else getOrCreateCustomer rt (.user user.id) (some user.id) none

/-- `CheckoutSessionView.post`, up to the creation of the session. -/
def planCheckout (rt : Runtime σ) (currencies : Currencies) (user : User)
    (queryCurrency : Option String) (data : CheckoutData) : Session σ SessionParams := do
  let billingCurrency ← lift (resolveBillingCurrency currencies queryCurrency user)
  let found ← select fun db => activePlanPrice db data.planPriceId (some billingCurrency)
  let (planPrice, plan) ← lift found
  lift (validateQuantityForContext plan.context data.seatLimit)
  let stripePriceId ← select fun db => resolveStripePriceId db planPrice billingCurrency
  let isTeam := plan.context == .team
  validateContext isTeam user data
  let metadata ← lift (buildCheckoutMetadata isTeam data)
  let customer ← planCustomer rt isTeam user
  return {
    customer, clientReferenceId := uuidText user.id, mode := "subscription"
    price := stripePriceId, quantity := data.seatLimit
    trialPeriodDays := if isTeam then none else data.trialPeriodDays, metadata }

/-- The customer of the buyer the purchase is for. -/
def productCustomer (rt : Runtime σ) (orgId : Option UUID) (user : User) : Session σ String :=
  match orgId with
  | some orgId => getOrCreateCustomer rt (.org orgId) none (some orgId)
  | none => getOrCreateCustomer rt (.user user.id) (some user.id) none

/-- `ProductCheckoutSessionView.post`, up to the creation of the session. -/
def productCheckout (rt : Runtime σ) (currencies : Currencies) (user : User)
    (queryCurrency context : Option String) (productPriceId : UUID) :
    Session σ SessionParams := do
  let context ← lift (validateSubscriptionContext context)
  let membership ← select fun db => db.firstMembership user.id
  let orgId ← lift (resolveProductPurchaseContext membership context)
  let billingCurrency ← lift (resolveBillingCurrency currencies queryCurrency user)
  let found ← select fun db => activeProductPrice db productPriceId (some billingCurrency)
  let (loaded, productPrice) ← lift found
  let stripePriceId ← select fun db => resolveStripePriceId db loaded billingCurrency
  let customer ← productCustomer rt orgId user
  return {
    customer, clientReferenceId := uuidText user.id, mode := "payment"
    price := stripePriceId, quantity := 1, trialPeriodDays := none
    metadata := some (productMetadata productPrice.productId orgId) }

end Session

/-- A request to one of the two views, with its query parameters. -/
inductive Checkout
  | plan (queryCurrency : Option String) (data : CheckoutData)
  | product (queryCurrency context : Option String) (productPriceId : UUID)

namespace Checkout

def params (rt : Runtime σ) (currencies : Currencies) (user : User) :
    Checkout → Session σ SessionParams
  | plan queryCurrency data => Session.planCheckout rt currencies user queryCurrency data
  | product queryCurrency context productPriceId =>
      Session.productCheckout rt currencies user queryCurrency context productPriceId

/-- The view: the URL of the session it creates. -/
def post (rt : Runtime σ) (currencies : Currencies) (user : User) (checkout : Checkout) :
    Session σ String := do
  let params ← checkout.params rt currencies user
  let session ← Session.callStripe rt (.checkoutSessionCreate params)
  return (← Session.lift (session.attr "url")).toStr

end Checkout

/-! ## The completed session -/

/-- The object of the `checkout.session.completed` event of a session that was
created with `params`: they come back as they were sent, with Stripe's own values. -/
structure CompletedSession (params : SessionParams) where
  object : Json
  id : String
  livemode : Bool
  subscription : Option String
  metadata : Json
  id_ne : id ≠ ""
  customer_ne : params.customer ≠ ""
  get_id : object.get "id" = .ok (.str id)
  get_mode : object.get "mode" = .ok (.str params.mode)
  get_client : object.get "client_reference_id" = .ok (.str params.clientReferenceId)
  get_customer : object.get "customer" = .ok (.str params.customer)
  get_livemode : object.getD "livemode" (.bool false) = .ok (.bool livemode)
  get_subscription : object.get "subscription" = .ok (subscription.elim .null .str)
  get_metadata : object.get "metadata" = .ok metadata
  /-- Stripe answers no metadata with `{}` or `null`. -/
  metadata_get : ∀ key, (metadata.orElse (.obj [])).get key =
    .ok (((params.metadata.getD []).lookup key).elim .null .str)

/-- What the completed session is to lead to. -/
def Checkout.callback (db : Db) (user : User) {params : SessionParams}
    (session : CompletedSession params) : Checkout → Option Callback
  | .plan _ data => do
      let (_, chosen) ← (activePlanPrice db data.planPriceId none).toOption
      let orgName ← data.orgName
      if chosen.context = .team then
        some (.team {
          userId := user.id, orgName, stripeCustomerId := params.customer
          livemode := session.livemode, stripeSubscriptionId := session.subscription
          keepPersonalSubscription := data.keepPersonalSubscription })
      else none
  | .product _ context productPriceId => do
      let (_, productPrice) ← (activeProductPrice db productPriceId none).toOption
      let context ← (validateSubscriptionContext context).toOption
      let orgId ← (resolveProductPurchaseContext (db.firstMembership user.id) context).toOption
      some (.product {
        stripeSessionId := session.id, productId := productPrice.productId, userId := user.id, orgId })

/-! ### Decoding -/

theorem truthy_str {text : String} (h : text ≠ "") : (Json.str text).truthy = true := by
  simpa [Json.truthy] using h

theorem uuidText_ne (id : UUID) : uuidText id ≠ "" := by
  intro h
  have hparse := parseUuid_uuidText id
  rw [h] at hparse
  have hempty : parseUuid "" = .error (.valueError "badly formed hexadecimal UUID string") := by
    decide
  rw [hempty] at hparse
  cases hparse

theorem uuidOf_uuidText (id : UUID) : uuidOf (.str (uuidText id)) = .ok id :=
  parseUuid_uuidText id

theorem uuidOrMalformed_uuidText (id : UUID) :
    uuidOrMalformed (.str (uuidText id)) = .ok (some id) := by
  rw [uuidOrMalformed, uuidOf_uuidText]

section Reading

variable {params : SessionParams} (session : CompletedSession params)

theorem readTeamCheckout_of_completed {userId : UUID} {orgName : String} {keep : Bool}
    (hmode : params.mode = "subscription") (hclient : params.clientReferenceId = uuidText userId)
    (hname : orgName ≠ "")
    (hmetadata : params.metadata = some [("org_name", orgName),
      ("keep_personal_subscription", if keep then "true" else "false")]) :
    readTeamCheckout session.object = .ok (some {
      userId, orgName, stripeCustomerId := params.customer, livemode := session.livemode
      stripeSubscriptionId := session.subscription, keepPersonalSubscription := keep }) := by
  have hget := session.metadata_get
  rw [hmetadata] at hget
  have horg : (session.metadata.orElse (.obj [])).get "org_name" = .ok (.str orgName) :=
    hget "org_name"
  have hkeep : (session.metadata.orElse (.obj [])).get "keep_personal_subscription" =
      .ok (.str (if keep then "true" else "false")) := hget "keep_personal_subscription"
  have hflag : (Json.str (if keep then "true" else "false")).isStr "true" = keep := by
    cases keep <;> decide
  have hpayment : (Json.str "subscription").isStr "payment" = false := by decide
  have hlive : (Json.bool session.livemode).truthy = session.livemode := rfl
  have hsubscription : (if (session.subscription.elim Json.null .str).isNull then none
      else some (session.subscription.elim Json.null .str).toStr) = session.subscription := by
    cases session.subscription <;> rfl
  unfold readTeamCheckout
  rw [session.get_mode, hmode, session.get_metadata, session.get_client, hclient,
    session.get_customer, session.get_subscription, session.get_livemode]
  simp only [ok_bind, hpayment, Bool.false_eq_true, if_false, horg, hkeep, hflag,
    truthy_str hname, truthy_str (uuidText_ne userId), truthy_str session.customer_ne, Bool.not_true,
    uuidOf_uuidText, hsubscription, Json.toStr_str, hlive]
  rfl

/-- Without metadata there is no callback. -/
theorem readTeamCheckout_of_plain (hmode : params.mode = "subscription")
    (hmetadata : params.metadata = none) : readTeamCheckout session.object = .ok none := by
  have hget := session.metadata_get
  rw [hmetadata] at hget
  have horg : (session.metadata.orElse (.obj [])).get "org_name" = .ok .null := hget "org_name"
  have hpayment : (Json.str "subscription").isStr "payment" = false := by decide
  have hnull : Json.null.truthy = false := rfl
  unfold readTeamCheckout
  rw [session.get_mode, hmode, session.get_metadata]
  simp only [ok_bind, hpayment, Bool.false_eq_true, if_false, horg, hnull, Bool.not_false,
    if_true]
  rfl

theorem readProductCheckout_of_completed {userId productId : UUID} {orgId : Option UUID}
    (hclient : params.clientReferenceId = uuidText userId)
    (hmetadata : params.metadata = some (productMetadata productId orgId)) :
    readProductCheckout session.object = .ok (some {
      stripeSessionId := session.id, productId, userId, orgId }) := by
  have hget := session.metadata_get
  rw [hmetadata] at hget
  have hproduct : (session.metadata.orElse (.obj [])).get "product_id" =
      .ok (.str (uuidText productId)) := hget "product_id"
  have horg : (session.metadata.orElse (.obj [])).get "org_id" =
      .ok ((orgId.map uuidText).elim .null .str) := by
    rw [hget "org_id"]
    cases orgId <;> rfl
  unfold readProductCheckout
  rw [session.get_id, session.get_metadata, session.get_client, hclient]
  simp only [ok_bind, hproduct, horg, truthy_str session.id_ne, truthy_str (uuidText_ne productId),
    truthy_str (uuidText_ne userId), Bool.not_true, Bool.false_eq_true, if_false,
    uuidOrMalformed_uuidText, Json.toStr_str]
  cases orgId with
  | none => rfl
  | some orgId =>
      simp only [Option.map_some, Option.elim_some, truthy_str (uuidText_ne orgId), if_true,
        uuidOrMalformed_uuidText, ok_bind]
      rfl

end Reading

/-! ### What the views send -/

/-- The currency decides what is prefetched, not what is found. -/
theorem activePlanPrice_currency {db : Db} {planPriceId : UUID} {currency : Option String}
    {loaded : LoadedPrice} {plan : Plan}
    (h : activePlanPrice db planPriceId currency = .ok (loaded, plan)) :
    ∃ loaded', activePlanPrice db planPriceId none = .ok (loaded', plan) := by
  obtain ⟨loaded, hloaded, h⟩ := bind_eq_ok.mp h
  unfold getActivePlanPrice at hloaded
  unfold activePlanPrice getActivePlanPrice
  dsimp only at hloaded ⊢
  split at hloaded
  next => cases hloaded
  next p hfound =>
      cases hloaded
      rw [ok_bind]
      dsimp only at h ⊢
      cases hplan : db.planById p.planId with
      | none =>
          rw [hplan] at h
          cases h
      | some found =>
          rw [hplan] at h
          cases h
          exact ⟨_, rfl⟩

theorem activeProductPrice_currency {db : Db} {productPriceId : UUID} {currency : Option String}
    {loaded : LoadedPrice} {price : ProductPrice}
    (h : activeProductPrice db productPriceId currency = .ok (loaded, price)) :
    ∃ loaded', activeProductPrice db productPriceId none = .ok (loaded', price) := by
  unfold activeProductPrice at h ⊢
  dsimp only at h ⊢
  split at h
  next => cases h
  next p hfound =>
      cases h
      exact ⟨_, rfl⟩

section Sending

variable {rt : Runtime σ} {currencies : Currencies} {user : User} {queryCurrency : Option String}
variable {params : SessionParams} {w w' : World σ}

theorem planCheckout_eq_ok {data : CheckoutData}
    (h : Fallible.exec (Session.planCheckout rt currencies user queryCurrency data) w =
      (.ok params, w')) :
    params.mode = "subscription" ∧ params.clientReferenceId = uuidText user.id ∧
      ∃ loaded chosen, activePlanPrice w.db data.planPriceId none = .ok (loaded, chosen) ∧
        buildCheckoutMetadata (chosen.context == .team) data = .ok params.metadata := by
  unfold Session.planCheckout at h
  obtain ⟨currency, _, h⟩ := Session.exec_lift_bind_eq_ok.mp h
  rw [Session.exec_select_bind] at h
  obtain ⟨⟨planPrice, chosen⟩, hfound, h⟩ := Session.exec_lift_bind_eq_ok.mp h
  obtain ⟨loaded, hplan⟩ := activePlanPrice_currency hfound
  dsimp only at h
  obtain ⟨_, _, h⟩ := Session.exec_lift_bind_eq_ok.mp h
  rw [Session.exec_select_bind] at h
  obtain ⟨_, w₁, _, h⟩ := Fallible.exec_bind_eq_ok.mp h
  obtain ⟨metadata, hmetadata, h⟩ := Session.exec_lift_bind_eq_ok.mp h
  obtain ⟨customer, w₂, _, h⟩ := Fallible.exec_bind_eq_ok.mp h
  cases h
  exact ⟨rfl, rfl, loaded, chosen, hplan, hmetadata⟩

theorem productCheckout_eq_ok {context : Option String} {productPriceId : UUID}
    (h : Fallible.exec (Session.productCheckout rt currencies user queryCurrency context
      productPriceId) w = (.ok params, w')) :
    params.mode = "payment" ∧ params.clientReferenceId = uuidText user.id ∧
      ∃ loaded price context' orgId,
        activeProductPrice w.db productPriceId none = .ok (loaded, price) ∧
        validateSubscriptionContext context = .ok context' ∧
        resolveProductPurchaseContext (w.db.firstMembership user.id) context' = .ok orgId ∧
        params.metadata = some (productMetadata price.productId orgId) := by
  unfold Session.productCheckout at h
  obtain ⟨context', hcontext, h⟩ := Session.exec_lift_bind_eq_ok.mp h
  rw [Session.exec_select_bind] at h
  obtain ⟨orgId, horg, h⟩ := Session.exec_lift_bind_eq_ok.mp h
  obtain ⟨currency, _, h⟩ := Session.exec_lift_bind_eq_ok.mp h
  rw [Session.exec_select_bind] at h
  obtain ⟨⟨_, price⟩, hfound, h⟩ := Session.exec_lift_bind_eq_ok.mp h
  obtain ⟨loaded, hprice⟩ := activeProductPrice_currency hfound
  dsimp only at h
  rw [Session.exec_select_bind] at h
  obtain ⟨customer, w₁, _, h⟩ := Fallible.exec_bind_eq_ok.mp h
  cases h
  exact ⟨rfl, rfl, loaded, price, context', orgId, hprice, hcontext, horg, rfl⟩

/-- **Decoding a checkout.**  The handler reads off the completed session of a valid
request what the request was for, and calls the callback for it, or none. -/
theorem checkout_decodes (rt : Runtime σ) (currencies : Currencies) (user : User)
    (checkout : Checkout) {w w' : World σ} {params : SessionParams}
    (hvalid : Fallible.exec (checkout.params rt currencies user) w = (.ok params, w'))
    (session : CompletedSession params) (rt' : Runtime σ) :
    readCheckout session.object = .ok (checkout.callback w.db user session) ∧
      onCheckoutCompleted rt' session.object =
        match checkout.callback w.db user session with
        | none => pure ()
        | some callback => callback.handle rt' := by
  have hread : readCheckout session.object = .ok (checkout.callback w.db user session) := by
    cases checkout with
    | plan queryCurrency data =>
        obtain ⟨hmode, hclient, loaded, chosen, hfound, hmetadata⟩ := planCheckout_eq_ok hvalid
        have hpayment : (Json.str "subscription").isStr "payment" = false := by decide
        unfold readCheckout Checkout.callback
        dsimp only
        rw [session.get_mode, hmode, hfound]
        simp only [ok_bind, hpayment, Bool.false_eq_true, if_false, Option.bind_eq_bind,
          Except.toOption, Option.bind_some]
        cases hcontext : chosen.context with
        | team =>
            rw [hcontext] at hmetadata
            unfold buildCheckoutMetadata at hmetadata
            cases hname : data.orgName with
            | none =>
                rw [hname] at hmetadata
                cases hmetadata
            | some orgName =>
                rw [hname] at hmetadata
                have hsent := (Except.ok.inj hmetadata).symm
                have hne : orgName ≠ "" := (data.orgName_valid orgName hname).1
                rw [readTeamCheckout_of_completed session hmode hclient hne hsent]
                rfl
        | personal =>
            rw [hcontext] at hmetadata
            have hsent := (Except.ok.inj hmetadata).symm
            rw [readTeamCheckout_of_plain session hmode hsent]
            cases data.orgName <;> rfl
    | product queryCurrency context productPriceId =>
        obtain ⟨hmode, hclient, loaded, price, context', orgId, hfound, hcontext, horg, hsent⟩ :=
          productCheckout_eq_ok hvalid
        have hpayment : (Json.str "payment").isStr "payment" = true := by decide
        unfold readCheckout Checkout.callback
        dsimp only
        rw [session.get_mode, hmode, hfound, hcontext]
        simp only [ok_bind, hpayment, if_true, readProductCheckout_of_completed session hclient hsent,
          Option.bind_eq_bind, Option.bind_some, Except.toOption, horg]
        rfl
  refine ⟨hread, ?_⟩
  rw [onCheckoutCompleted_eq, hread]
  cases checkout.callback w.db user session <;> rfl

end Sending

/-! ### A team checkout -/

/-- Three seats for a new org, next to the buyer's personal subscription. -/
def acmeData : CheckoutData where
  planPriceId := 22#128
  seatLimit := 3
  trialPeriodDays := none
  orgName := some "Acme"
  keepPersonalSubscription := true
  seatLimit_range := by decide
  trial_range := CheckoutData.no_trial
  orgName_valid := by decide

def usdOnly : Currencies := ⟨["usd", "eur"], ["usd"]⟩

def acmeParams : SessionParams where
  customer := "cus_2"
  clientReferenceId := uuidText buyer.id
  mode := "subscription"
  price := "price_team"
  quantity := 3
  trialPeriodDays := none
  metadata := some [("org_name", "Acme"), ("keep_personal_subscription", "true")]

def createsCustomer : StripeCall → Py Json
  | .customerCreate _ => .ok (.obj [("id", .str "cus_2"), ("livemode", .bool false)])
  | _ => .error (.connection "connection refused")

/-- Metadata as an object of texts. -/
def metadataObject (metadata : List (String × String)) : Json :=
  .obj (metadata.map fun entry => (entry.1, .str entry.2))

theorem metadataObject_get (metadata : List (String × String)) (key : String) :
    ((metadataObject metadata).orElse (.obj [])).get key =
      .ok ((metadata.lookup key).elim .null .str) := by
  have hlookup : (metadata.map fun entry => (entry.1, Json.str entry.2)).lookup key =
      (metadata.lookup key).map .str := by
    induction metadata with
    | nil => rfl
    | cons entry rest ih =>
        rw [List.map_cons, List.lookup_cons, List.lookup_cons]
        cases key == entry.1 with
        | true => rfl
        | false => exact ih
  have hget : (metadataObject metadata).get key = .ok ((metadata.lookup key).elim .null .str) := by
    show Except.ok _ = _
    rw [hlookup]
    cases metadata.lookup key <;> rfl
  cases metadata with
  | nil => rfl
  | cons entry rest => exact hget

def acmeSession : CompletedSession acmeParams where
  object := .obj [("id", .str "cs_1"), ("mode", .str "subscription"),
    ("metadata", metadataObject (acmeParams.metadata.getD [])),
    ("client_reference_id", .str (uuidText buyer.id)), ("customer", .str "cus_2"),
    ("subscription", .str "sub_2"), ("livemode", .bool false)]
  id := "cs_1"
  livemode := false
  subscription := some "sub_2"
  metadata := metadataObject (acmeParams.metadata.getD [])
  id_ne := by decide
  customer_ne := by decide
  get_id := rfl
  get_mode := rfl
  get_client := rfl
  get_customer := rfl
  get_livemode := rfl
  get_subscription := rfl
  get_metadata := rfl
  metadata_get := metadataObject_get _

theorem checkout_decodes_acme :
    readCheckout acmeSession.object = .ok (some (.team
      ⟨buyer.id, "Acme", "cus_2", false, some "sub_2", true⟩)) := by
  have hvalid : (Fallible.exec ((Checkout.plan none acmeData).params
      (sampleRuntime createsCustomer 0 0) usdOnly buyer) sampleWorld).1 = .ok acmeParams := by
    decide +kernel
  have hcallback : (Checkout.plan none acmeData).callback sampleDb buyer acmeSession =
      some (.team ⟨buyer.id, "Acme", "cus_2", false, some "sub_2", true⟩) := by
    decide +kernel
  rw [← hcallback]
  exact (checkout_decodes (sampleRuntime createsCustomer 0 0) usdOnly buyer (.plan none acmeData)
    (Prod.ext hvalid rfl) acmeSession (sampleRuntime noStripe 1 0)).1

end Saasmint
