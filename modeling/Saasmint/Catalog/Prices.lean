import Saasmint.Billing.Replay

/-!
# Picking a price, and finding its plan again

The views pick the Stripe price a customer is sold; the webhook finds the plan of
the Stripe price an event carries.  The views look at two tables, the webhook at
one of them: a price that was minted for another currency is sold, and is not
found again.

`picks_roundTrip_iff` says for which prices the two sides agree.
-/

namespace Saasmint

open Atomic Handler Relational

variable {σ : Type}

/-! ## Prices of the catalog -/

/-- `PlanPrice | ProductPrice`. -/
inductive CatalogPrice
  | plan (price : PlanPrice)
  | product (price : ProductPrice)
deriving DecidableEq

namespace CatalogPrice

def stripePriceId : CatalogPrice → String
  | plan price => price.stripePriceId
  | product price => price.stripePriceId

/-- In USD cents. -/
def amount : CatalogPrice → Int
  | plan price => price.amount
  | product price => price.amount

/-- The row is one of `price.localized_prices`. -/
def owns (row : LocalizedPrice) : CatalogPrice → Bool
  | plan price => row.planPriceId == some price.id
  | product price => row.productPriceId == some price.id

end CatalogPrice

/-- The price is a stored row. -/
def Db.HasPrice (db : Db) : CatalogPrice → Prop
  | .plan p => p ∈ db.planPrices.rows
  | .product p => p ∈ db.productPrices.rows

/-- `row.stripe_price_id`, unless it is `None` or empty. -/
def LocalizedPrice.minted? (row : LocalizedPrice) : Option String :=
  row.stripePriceId.filter fun id => id != ""

/-- A price, with the prefetched `_resolved_localized` rows if there are any. -/
structure LoadedPrice where
  price : CatalogPrice
  resolvedLocalized : Option (List LocalizedPrice)

/-- `_resolved_localized_prefetch`. -/
def resolvedLocalizedPrefetch (db : Db) (price : CatalogPrice) (currency : String) :
    List LocalizedPrice :=
  db.localizedPrices.filter fun row =>
    price.owns row && row.currency == currency && row.stripePriceId.isSome

/-- What is prefetched when a view asks for a currency. -/
def prefetched (db : Db) (price : CatalogPrice) (currency : Option String) :
    Option (List LocalizedPrice) :=
  match currency with
  | none => none
  | some currency =>
      if currency = "" ∨ currency = "usd" then none
      else some (resolvedLocalizedPrefetch db price currency)

/-- `_get_active_plan_price`. -/
def getActivePlanPrice (db : Db) (planPriceId : UUID) (currency : Option String) :
    Py LoadedPrice :=
  let found := db.planPrices.find? fun p => p.id == planPriceId &&
    db.plans.rows.any fun plan => plan.id == p.planId && plan.isActive
  match found with
  | none => .error (.notFound "Invalid plan price.")
  | some p => .ok ⟨.plan p, prefetched db (.plan p) currency⟩

/-- `_localized_for_currency`. -/
def localizedForCurrency (db : Db) (loaded : LoadedPrice) (currency : String) :
    Option LocalizedPrice :=
  match loaded.resolvedLocalized with
  | some cached => cached.find? fun row => row.currency == currency && row.minted?.isSome
  | none => db.localizedPrices.find? fun row =>
      row.currency == currency && row.stripePriceId.isSome && loaded.price.owns row

/-- `_resolve_stripe_price_id`: without a price of the currency, the USD one. -/
def resolveStripePriceId (db : Db) (loaded : LoadedPrice) (currency : String) : String :=
  if currency = "usd" then loaded.price.stripePriceId
  else
    match (localizedForCurrency db loaded currency).bind LocalizedPrice.minted? with
    | some stripePriceId => stripePriceId
    | none => loaded.price.stripePriceId

/-- `_resolve_plan_change_price`: without a price of the currency, an error. -/
def resolvePlanChangePrice (db : Db) (loaded : LoadedPrice) (currency : String) :
    Py (String × Int) :=
  if currency = "usd" then .ok (loaded.price.stripePriceId, loaded.price.amount)
  else
    match localizedForCurrency db loaded currency with
    | none => unavailable
    | some row =>
        match row.minted? with
        | some stripePriceId => .ok (stripePriceId, row.amountMinor)
        | none => unavailable
where
  unavailable : Py (String × Int) := .error
    (.validation "plan_price_id" "Plan unavailable in your subscription's currency.")

/-- The price a plan checkout sells. -/
def checkoutPriceId (db : Db) (planPriceId : UUID) (billingCurrency : String) : Py String := do
  let planPrice ← getActivePlanPrice db planPriceId (some billingCurrency)
  return resolveStripePriceId db planPrice billingCurrency

/-- The price and the amount a plan change switches to. -/
def planChangePrice (db : Db) (planPriceId : UUID) (currency : String) : Py (String × Int) := do
  let planPrice ← getActivePlanPrice db planPriceId none
  resolvePlanChangePrice db planPrice currency

/-! ## What is picked -/

section Picks

variable {db : Db} {p : PlanPrice}

/-- The price minted for a plan price in a currency. -/
def mintedPriceId (db : Db) (p : PlanPrice) (currency : String) : Option String :=
  (db.localizedPrices.find? fun row =>
    row.planPriceId == some p.id && row.currency == currency).bind LocalizedPrice.minted?

theorem getActivePlanPrice_eq (hp : p ∈ db.planPrices.rows)
    (hactive : ∃ plan ∈ db.plans.rows, plan.id = p.planId ∧ plan.isActive = true)
    (currency : Option String) : getActivePlanPrice db p.id currency =
      .ok ⟨.plan p, prefetched db (.plan p) currency⟩ := by
  have hfound : (db.planPrices.find? fun q => q.id == p.id &&
      db.plans.rows.any fun plan => plan.id == q.planId && plan.isActive) = some p := by
    refine db.planPrices.find?_eq_some hp ?_ fun q _ hq => ?_
    · simpa using hactive
    · simp only [Bool.and_eq_true, beq_iff_eq] at hq
      exact Or.inl hq.1.symm
  unfold getActivePlanPrice
  rw [hfound]

/-- A price has one row a currency. -/
theorem localized_unique (price : CatalogPrice) {a b : LocalizedPrice}
    (ha : a ∈ db.localizedPrices.rows) (hb : b ∈ db.localizedPrices.rows)
    (haOwner : price.owns a = true) (hbOwner : price.owns b = true)
    (hcurrency : a.currency = b.currency) : a = b := by
  apply db.localizedPrices.eq_of_clash ha hb
  cases price with
  | plan p =>
      have ha' : a.planPriceId = some p.id := beq_iff_eq.mp haOwner
      have hb' : b.planPriceId = some p.id := beq_iff_eq.mp hbOwner
      exact .inr (.inl ⟨⟨by rw [ha']; rfl, ha'.trans hb'.symm⟩, hcurrency⟩)
  | product p =>
      have ha' : a.productPriceId = some p.id := beq_iff_eq.mp haOwner
      have hb' : b.productPriceId = some p.id := beq_iff_eq.mp hbOwner
      exact .inr (.inr (.inl ⟨⟨by rw [ha']; rfl, ha'.trans hb'.symm⟩, hcurrency⟩))

theorem LocalizedPrice.minted?_eq_some {row : LocalizedPrice} {minted : String} :
    row.minted? = some minted ↔ row.stripePriceId = some minted ∧ minted ≠ "" := by
  simp [LocalizedPrice.minted?, Option.filter_eq_some_iff]

/-- The price minted on the one row a lookup can select. -/
theorem bind_minted?_eq_some {rows : List LocalizedPrice} {select : LocalizedPrice → Bool}
    (hunique : ∀ a ∈ rows, ∀ b ∈ rows, select a = true → select b = true → a = b)
    {minted : String} : (rows.find? select).bind LocalizedPrice.minted? = some minted ↔
      ∃ row ∈ rows, select row = true ∧ row.minted? = some minted := by
  constructor
  · intro h
    obtain ⟨row, hrow, hminted⟩ := Option.bind_eq_some_iff.mp h
    exact ⟨row, List.mem_of_find?_eq_some hrow, List.find?_some hrow, hminted⟩
  · rintro ⟨row, hmem, hselect, hminted⟩
    cases hfound : rows.find? select with
    | none => exact absurd hselect (List.find?_eq_none.mp hfound row hmem)
    | some other =>
        have hsame : other = row := hunique other (List.mem_of_find?_eq_some hfound) row hmem
          (List.find?_some hfound) hselect
        rw [Option.bind_some, hsame, hminted]

theorem mintedPriceId_eq_some {currency minted : String} :
    mintedPriceId db p currency = some minted ↔ ∃ row ∈ db.localizedPrices.rows,
      row.planPriceId = some p.id ∧ row.currency = currency ∧ row.minted? = some minted := by
  refine (bind_minted?_eq_some fun a ha b hb haSelect hbSelect => ?_).trans ?_
  · obtain ⟨haOwner, haCurrency⟩ := Bool.and_eq_true_iff.mp haSelect
    obtain ⟨hbOwner, hbCurrency⟩ := Bool.and_eq_true_iff.mp hbSelect
    exact localized_unique (.plan p) ha hb haOwner hbOwner
      ((beq_iff_eq.mp haCurrency).trans (beq_iff_eq.mp hbCurrency).symm)
  · simp [and_assoc]

/-- With and without the prefetch, the row minted for the currency is found. -/
theorem localizedForCurrency_eq_some {price : CatalogPrice} {currency minted : String}
    {loadedFor : Option String} (hloaded : loadedFor = none ∨ loadedFor = some currency) :
    (localizedForCurrency db ⟨price, prefetched db price loadedFor⟩ currency).bind
        LocalizedPrice.minted? = some minted ↔
      ∃ row ∈ db.localizedPrices.rows,
        price.owns row = true ∧ row.currency = currency ∧ row.minted? = some minted := by
  have hsome : ∀ row : LocalizedPrice, row.minted? = some minted →
      row.stripePriceId.isSome = true := by
    intro row h
    rw [(LocalizedPrice.minted?_eq_some.mp h).1]
    rfl
  unfold localizedForCurrency
  cases hcached : prefetched db price loadedFor with
  | none =>
      refine (bind_minted?_eq_some fun a ha b hb haSelect hbSelect => ?_).trans ?_
      · simp only [Bool.and_eq_true, beq_iff_eq] at haSelect hbSelect
        exact localized_unique price ha hb haSelect.2 hbSelect.2
          (haSelect.1.1.trans hbSelect.1.1.symm)
      · simp only [Bool.and_eq_true, beq_iff_eq]
        constructor
        · rintro ⟨row, hmem, ⟨⟨hcurrency, -⟩, howner⟩, hminted⟩
          exact ⟨row, hmem, howner, hcurrency, hminted⟩
        · rintro ⟨row, hmem, howner, hcurrency, hminted⟩
          exact ⟨row, hmem, ⟨⟨hcurrency, hsome row hminted⟩, howner⟩, hminted⟩
  | some cached =>
      have hrows : cached = resolvedLocalizedPrefetch db price currency := by
        rcases hloaded with rfl | rfl
        · cases hcached
        · simp only [prefetched] at hcached
          split at hcached
          · cases hcached
          · exact (Option.some.inj hcached).symm
      have hmem : ∀ row, row ∈ cached ↔ row ∈ db.localizedPrices.rows ∧
          price.owns row = true ∧ row.currency = currency ∧ row.stripePriceId.isSome = true := by
        intro row
        simp [hrows, resolvedLocalizedPrefetch, Table.filter, and_assoc]
      refine (bind_minted?_eq_some fun a ha b hb _ _ => ?_).trans ?_
      · obtain ⟨ha, haOwner, haCurrency, -⟩ := (hmem a).mp ha
        obtain ⟨hb, hbOwner, hbCurrency, -⟩ := (hmem b).mp hb
        exact localized_unique price ha hb haOwner hbOwner (haCurrency.trans hbCurrency.symm)
      · constructor
        · rintro ⟨row, hrow, -, hminted⟩
          obtain ⟨hrow, howner, hcurrency, -⟩ := (hmem row).mp hrow
          exact ⟨row, hrow, howner, hcurrency, hminted⟩
        · rintro ⟨row, hrow, howner, hcurrency, hminted⟩
          refine ⟨row, (hmem row).mpr ⟨hrow, howner, hcurrency, hsome row hminted⟩, ?_, hminted⟩
          simp [hcurrency, hminted]

theorem localizedForCurrency_eq {currency : String} (loadedFor : Option String)
    (hloaded : loadedFor = none ∨ loadedFor = some currency) :
    (localizedForCurrency db ⟨.plan p, prefetched db (.plan p) loadedFor⟩ currency).bind
      LocalizedPrice.minted? = mintedPriceId db p currency := by
  refine Option.ext fun minted => ?_
  rw [localizedForCurrency_eq_some hloaded, mintedPriceId_eq_some]
  simp only [CatalogPrice.owns, beq_iff_eq]

variable (hp : p ∈ db.planPrices.rows)
variable (hactive : ∃ plan ∈ db.plans.rows, plan.id = p.planId ∧ plan.isActive = true)

include hp hactive

theorem checkoutPriceId_eq (currency : String) : checkoutPriceId db p.id currency =
    .ok (if currency = "usd" then p.stripePriceId
      else (mintedPriceId db p currency).getD p.stripePriceId) := by
  unfold checkoutPriceId
  rw [getActivePlanPrice_eq hp hactive, ok_bind, pure_eq_ok, resolveStripePriceId]
  rw [localizedForCurrency_eq (some currency) (Or.inr rfl)]
  cases mintedPriceId db p currency <;> rfl

theorem planChangePrice_eq_ok {currency priceId : String} {amount : Int}
    (h : planChangePrice db p.id currency = .ok (priceId, amount)) :
    priceId = if currency = "usd" then p.stripePriceId
      else (mintedPriceId db p currency).getD p.stripePriceId := by
  unfold planChangePrice at h
  rw [getActivePlanPrice_eq hp hactive, ok_bind, resolvePlanChangePrice] at h
  split at h
  next husd =>
      cases h
      rw [if_pos husd]
      rfl
  next husd =>
      have heq : (localizedForCurrency db ⟨.plan p, prefetched db (.plan p) none⟩ currency).bind
          LocalizedPrice.minted? = mintedPriceId db p currency :=
        localizedForCurrency_eq none (Or.inl rfl)
      rw [if_neg husd, ← heq]
      split at h
      next => cases h
      next row hrow =>
          rw [hrow, Option.bind_some]
          split at h
          next minted hminted =>
              cases h
              rw [hminted]
              rfl
          next => cases h

end Picks

/-! ## The round trip -/

/-- What the webhooks make of a Stripe price: a price of the plan, on which
subscription and schedule events that carry it are mirrored. -/
structure RoundTrips (db : Db) (planId : UUID) (stripePriceId : String) : Prop where
  resolved : ∃ p, db.getPriceByStripeId stripePriceId = some p ∧ p.planId = planId
  mirrored : ∀ {σ : Type} (rt : Runtime σ) (w : World σ) (subData : Json) (d : SubscriptionData)
    (fields : MirroredFields) (customer : StripeCustomer), w.db = db → Decodes subData d fields →
    d.priceId = stripePriceId → db.customerByStripeId d.customer = some customer →
    ∃ db', Fallible.exec (syncSubscriptionFromData rt subData) w = (.ok (), { w with db := db' }) ∧
      ∃ row, db'.subscriptionByStripeId d.stripeId = some row ∧ row.planId = planId
  scheduled : ∀ {σ : Type} (rt : Runtime σ) (w : World σ) (scheduleData subscription : Json)
    (changeAt : Datetime) (existing : Subscription), w.db = db →
    scheduleData.get "subscription" = .ok subscription → subscription.truthy = true →
    parseSchedulePendingChange scheduleData = .ok (some (stripePriceId, changeAt)) →
    db.subscriptionByStripeId subscription.toStr = some existing → existing.fits = true →
    ∃ db', Fallible.exec (onSubscriptionScheduleUpserted rt scheduleData) w =
        (.ok (), { w with db := db' }) ∧
      ∃ row, db'.subscriptionByStripeId subscription.toStr = some row ∧
        row.scheduledPlanId = some planId ∧ row.scheduledChangeAt = some changeAt

/-- A price that is found is one whose events are mirrored. -/
theorem roundTrips_of_resolved {db : Db} {p : PlanPrice} {stripePriceId : String}
    (h : db.getPriceByStripeId stripePriceId = some p) : RoundTrips db p.planId stripePriceId where
  resolved := ⟨p, h, rfl⟩
  mirrored := by
    rintro σ rt w subData d fields customer rfl hdecodes rfl hcustomer
    rcases exec_sync_cases rt subData w with
      ⟨d', fields', customer', planPrice, db', hresolves, hsave, hexec⟩ | ⟨-, hnone⟩
    · obtain ⟨rfl, rfl⟩ := hdecodes.unique hresolves.toDecodes
      obtain rfl := Option.some.inj (h.symm.trans hresolves.price)
      obtain ⟨createdAt, hsaved⟩ := Db.exists_saved hsave
      exact ⟨db', hexec, _, Db.subscriptionByStripeId_eq_some.mpr ⟨hsaved, rfl⟩, rfl⟩
    · exact absurd ⟨hdecodes, hcustomer, h⟩ (hnone d fields customer p)
  scheduled := by
    rintro σ rt w scheduleData subscription changeAt existing rfl hget htruthy hparse hfound hfits
    have hpending : upsertedPending scheduleData w.db =
        .ok (some (subscription.toStr, some (p.planId, changeAt))) := by
      unfold upsertedPending
      rw [hget]
      simp [htruthy, hparse, h]
    have hplan : Refers (some p.planId) Plan.id w.db.plans.rows :=
      w.db.integral.planPrices p (Db.getPriceByStripeId_eq_some.mp h).1
    have hstored : ∃ db', Fallible.exec
        (showPending rt (some (subscription.toStr, some (p.planId, changeAt)))) w =
          (.ok (), { w with db := db' }) ∧
        ∃ row, db'.subscriptionByStripeId subscription.toStr = some row :=
      exec_showPending_stored hfound hfits hplan
    obtain ⟨db', hexec, row, hrow⟩ := hstored
    refine ⟨db', ?_, row, hrow, (exec_showPending hexec).2.2 row hrow⟩
    rw [exec_upserted_eq, hpending, lift_ok_bind]
    exact hexec

/-- Both picks come back to the plan exactly if the currency is USD, or the price
minted for the currency, if there is one, is the plan's USD price. -/
theorem picks_roundTrip_iff {db : Db} {p : PlanPrice} (hp : p ∈ db.planPrices.rows)
    (hactive : ∃ plan ∈ db.plans.rows, plan.id = p.planId ∧ plan.isActive = true)
    (currency : String) :
    (∀ stripePriceId, (checkoutPriceId db p.id currency = .ok stripePriceId ∨
        ∃ amount, planChangePrice db p.id currency = .ok (stripePriceId, amount)) →
      RoundTrips db p.planId stripePriceId) ↔
    currency = "usd" ∨ ∀ row ∈ db.localizedPrices.rows, row.planPriceId = some p.id →
      row.currency = currency → ∀ minted, row.minted? = some minted →
        minted = p.stripePriceId := by
  have hself : db.getPriceByStripeId p.stripePriceId = some p :=
    Db.getPriceByStripeId_eq_some.mpr ⟨hp, rfl⟩
  have hpicked : ∀ stripePriceId, (checkoutPriceId db p.id currency = .ok stripePriceId ∨
      ∃ amount, planChangePrice db p.id currency = .ok (stripePriceId, amount)) →
      stripePriceId = if currency = "usd" then p.stripePriceId
        else (mintedPriceId db p currency).getD p.stripePriceId := by
    rintro stripePriceId (hcheckout | ⟨amount, hchange⟩)
    · rw [checkoutPriceId_eq hp hactive] at hcheckout
      exact (Except.ok.inj hcheckout).symm
    · exact planChangePrice_eq_ok hp hactive hchange
  constructor
  · intro htrips
    by_cases husd : currency = "usd"
    · exact Or.inl husd
    · refine Or.inr fun row hrow howner hcurrency minted hminted => ?_
      have hfound := mintedPriceId_eq_some.mpr ⟨row, hrow, howner, hcurrency, hminted⟩
      have hcheckout : checkoutPriceId db p.id currency = .ok minted := by
        rw [checkoutPriceId_eq hp hactive, if_neg husd, hfound]
        rfl
      obtain ⟨q, hq, hplan⟩ := (htrips minted (Or.inl hcheckout)).resolved
      obtain ⟨hmem, hid⟩ := Db.getPriceByStripeId_eq_some.mp hq
      have hsame : q = p := db.planPrices.eq_of_clash hmem hp (Or.inr (Or.inl hplan))
      rw [← hid, hsame]
  · intro hcondition stripePriceId hpick
    rw [hpicked stripePriceId hpick]
    split
    next => exact roundTrips_of_resolved hself
    next husd =>
        have hrows := hcondition.resolve_left husd
        cases hminted : mintedPriceId db p currency with
        | none => exact roundTrips_of_resolved hself
        | some minted =>
            obtain ⟨row, hrow, howner, hcurrency, hid⟩ := mintedPriceId_eq_some.mp hminted
            rw [Option.getD_some, hrows row hrow howner hcurrency minted hid]
            exact roundTrips_of_resolved hself

/-! ## A price in euros -/

def basicPrice : PlanPrice := ⟨20#128, basicPlan.id, "price_basic", 999⟩

def proPrice : PlanPrice := ⟨21#128, proPlan.id, "price_pro", 1999⟩

/-- The basic plan has a Stripe price in euros, the pro plan has none. -/
def localizedDb : Db where
  toTables := { sampleDb.toTables with
    localizedPrices := ⟨[⟨50#128, some basicPrice.id, none, "eur", 949, some "price_basic_eur", 0⟩,
      ⟨51#128, some proPrice.id, none, "eur", 1849, none, 0⟩], by decide⟩ }
  integral := by decide +kernel

/-- What Stripe sends for a subscription that was sold in euros. -/
def euroSubscriptionObject : Json :=
  subscriptionObject "sub_1" "cus_1" "price_basic_eur" .active 1 100

/-- Both picks sell the euro price, and the webhook does not know it. -/
theorem euro_price_unknown :
    checkoutPriceId localizedDb basicPrice.id "eur" = .ok "price_basic_eur" ∧
      planChangePrice localizedDb basicPrice.id "eur" = .ok ("price_basic_eur", 949) ∧
      (Fallible.exec (syncSubscriptionFromData (sampleRuntime noStripe 0 0) euroSubscriptionObject)
        ⟨localizedDb, (), []⟩).1 = .error (.webhookData "Unknown price price_basic_eur") ∧
      ¬ RoundTrips localizedDb basicPrice.planId "price_basic_eur" := by
  refine ⟨by decide +kernel, by decide +kernel, by decide +kernel, fun h => ?_⟩
  obtain ⟨p, hp, -⟩ := h.resolved
  have hnone : localizedDb.getPriceByStripeId "price_basic_eur" = none := by decide +kernel
  cases hnone.symm.trans hp

/-- The pro plan is sold at its USD price, and comes back. -/
theorem pro_price_roundTrips :
    checkoutPriceId localizedDb proPrice.id "eur" = .ok proPrice.stripePriceId ∧
      RoundTrips localizedDb proPrice.planId proPrice.stripePriceId := by
  have hsold : checkoutPriceId localizedDb proPrice.id "eur" = .ok proPrice.stripePriceId := by
    decide +kernel
  have hnone : ∀ row ∈ localizedDb.localizedPrices.rows, row.planPriceId = some proPrice.id →
      row.minted? = none := by decide +kernel
  have hstored : proPrice ∈ localizedDb.planPrices.rows := by decide
  have hactive : ∃ plan ∈ localizedDb.plans.rows, plan.id = proPrice.planId ∧
      plan.isActive = true := by decide +kernel
  have htrips := (picks_roundTrip_iff hstored hactive "eur").mpr
    (Or.inr fun row hrow howner _ minted hminted => by
      cases (hnone row hrow howner).symm.trans hminted)
  exact ⟨hsold, htrips proPrice.stripePriceId (Or.inl hsold)⟩

end Saasmint
