import Saasmint.Billing.CheckoutViews
import Saasmint.Catalog.RateSync

/-!
# Showing the prices

`GET /billing/plans` and `GET /billing/products` show every price in the currency the
caller would be charged in, from the localized rows; a checkout of the same caller looks
for the Stripe price of that currency, from the same rows by another query.

`Db.tag` is the amount and the currency an entry shows, and `Db.picked` the Stripe price
that a checkout of the entry sends.
-/

namespace Saasmint

open Atomic Handler Relational
open RateSync (FloatArithmetic mapM_eq_ok)

variable {σ F : Type}

/-! ## Currencies -/

/-- `_CurrencyContext`. -/
structure CurrencyContext where
  currency : String
  preferredCurrency : Option String

/-- `_resolve_billing_currency`, with both of its results. -/
def currencyContext (currencies : Currencies) (queryCurrency : Option String)
    (user : Option User) : Py CurrencyContext := do
  let requested := (queryCurrency.filter (· ≠ "")).map lower
  if requested.any fun r => !currencies.supported.contains r then
    throw (.validation "currency"
      ("Unsupported currency: " ++ Json.quote (queryCurrency.getD "") ++ "."))
  let preferred := ((user.bind User.preferredCurrency).filter (· ≠ "")).map lower
  let userPref := preferred.filter currencies.supported.contains
  let target := (requested.or userPref).getD "usd"
  let billing := if currencies.billable.contains target then target else "usd"
  return ⟨billing, userPref.filter fun pref => pref ≠ "" && pref ≠ billing⟩

/-- A view that charges resolves the same currency. -/
theorem resolveBillingCurrency_eq (currencies : Currencies) (queryCurrency : Option String)
    (user : User) : resolveBillingCurrency currencies queryCurrency user =
      CurrencyContext.currency <$> currencyContext currencies queryCurrency (some user) := by
  unfold resolveBillingCurrency currencyContext
  dsimp only [Option.bind_some]
  split <;> rfl

theorem currencyContext_billable {currencies : Currencies} {queryCurrency : Option String}
    {user : Option User} {ctx : CurrencyContext}
    (h : currencyContext currencies queryCurrency user = .ok ctx) :
    ctx.currency = "usd" ∨ ctx.currency ∈ currencies.billable := by
  unfold currencyContext at h
  dsimp only at h
  split at h
  next => cases h
  next =>
      cases h
      dsimp only
      split
      next hbillable => exact Or.inr (List.contains_iff_mem.mp hbillable)
      next => exact Or.inl rfl

/-! ## Prefetched rows -/

/-- `wanted` of `_localized_prices_queryset`. -/
def CurrencyContext.wanted (ctx : CurrencyContext) : List String :=
  (ctx.currency :: ctx.preferredCurrency.toList).filter fun c => c ≠ "" && c ≠ "usd"

/-- `price.localized_prices`, as `_localized_prices_prefetch` leaves it. -/
def localizedPricesPrefetch (db : Db) (ctx : CurrencyContext) (price : CatalogPrice) :
    List LocalizedPrice :=
  db.localizedPrices.filter fun row => price.owns row && ctx.wanted.contains row.currency

/-- The prefetched row of a wanted currency is the stored one. -/
theorem find?_localizedPricesPrefetch (db : Db) {ctx : CurrencyContext} (price : CatalogPrice)
    {currency : String} (hwanted : currency ∈ ctx.wanted) :
    (localizedPricesPrefetch db ctx price).find? (·.currency == currency) =
      db.localizedOf price currency := by
  unfold localizedPricesPrefetch Db.localizedOf Table.filter Table.find?
  rw [List.find?_filter]
  congr 1
  funext row
  by_cases hcurrency : row.currency = currency
  · simp [hcurrency, hwanted]
  · simp [hcurrency]

theorem CurrencyContext.currency_wanted {ctx : CurrencyContext} (hempty : ctx.currency ≠ "")
    (husd : ctx.currency ≠ "usd") : ctx.currency ∈ ctx.wanted := by
  refine List.mem_filter.mpr ⟨List.mem_cons_self, ?_⟩
  simp [hempty, husd]

/-! ## Serializers -/

section Serializers

variable (float : FloatArithmetic F)

/-- `_localized_display`. -/
def localizedDisplay (price : CatalogPrice) (localizedPrices : List LocalizedPrice)
    (currency : String) : Py (F × String) :=
  if currency = "usd" then (·, "usd") <$> RateSync.formatAmount float price.amount "usd"
  else
    match localizedPrices.find? (·.currency == currency) with
    | some row => (·, currency) <$> RateSync.formatAmount float row.amountMinor currency
    | none => (·, "usd") <$> RateSync.formatAmount float price.amount "usd"

/-- `_local_display`. -/
def localDisplay (localizedPrices : List LocalizedPrice) (preferredCurrency : Option String) :
    Py (Option (F × String)) :=
  match preferredCurrency with
  | none => .ok none
  | some preferred =>
      match localizedPrices.find? (·.currency == preferred) with
      | some row => (fun amount => some (amount, preferred)) <$>
          RateSync.formatAmount float row.amountMinor preferred
      | none => .ok none

/-- The fields of `_PriceSerializer`. -/
structure PriceData (F : Type) where
  id : UUID
  amount : Int
  displayAmount : F
  currency : String
  localDisplayAmount : Option F
  localCurrency : Option String

/-- `_PriceSerializer.to_representation`. -/
def priceData (db : Db) (ctx : CurrencyContext) (price : CatalogPrice) : Py (PriceData F) := do
  let localizedPrices := localizedPricesPrefetch db ctx price
  let display ← localizedDisplay float price localizedPrices ctx.currency
  let localized ← localDisplay float localizedPrices ctx.preferredCurrency
  return {
    id := price.id, amount := price.amount, displayAmount := display.1, currency := display.2
    localDisplayAmount := localized.map Prod.fst, localCurrency := localized.map Prod.snd }

/-- The label of a tier, lowered. -/
def PlanTier.label : PlanTier → String
  | .free => "free"
  | .basic => "basic"
  | .pro => "pro"

/-- The fields of `PlanSerializer`; `price` is left out of a plan that has none. -/
structure PlanData (F : Type) where
  id : UUID
  name : String
  description : String
  context : PlanContext
  tier : String
  interval : PlanInterval
  isActive : Bool
  price : Option (PriceData F)

/-- The fields of `ProductSerializer`. -/
structure ProductData (F : Type) where
  id : UUID
  name : String
  credits : Int
  isActive : Bool
  price : Option (PriceData F)

def itemPrice (db : Db) (ctx : CurrencyContext) (item : CatalogItem) :
    Py (Option (PriceData F)) :=
  match db.priceOf item with
  | none => .ok none
  | some price => some <$> priceData float db ctx price

def planData (db : Db) (ctx : CurrencyContext) (plan : Plan) : Py (PlanData F) := do
  let price ← itemPrice float db ctx (.plan plan)
  return {
    id := plan.id, name := plan.name, description := plan.description, context := plan.context
    tier := plan.tier.label, interval := plan.interval, isActive := plan.isActive, price }

def productData (db : Db) (ctx : CurrencyContext) (product : Product) : Py (ProductData F) := do
  let price ← itemPrice float db ctx (.product product)
  return {
    id := product.id, name := product.name, credits := product.credits
    isActive := product.isActive, price }

/-- `_catalog_envelope`, without the links to other pages: there are none. -/
structure CatalogEnvelope (α : Type) where
  count : ℕ
  results : List α

def catalogEnvelope {α : Type} (results : List α) : CatalogEnvelope α := ⟨results.length, results⟩

/-- `PlanListView.get`. -/
def planList (currencies : Currencies) (queryCurrency : Option String) (user : Option User)
    (db : Db) : Py (CatalogEnvelope (PlanData F)) := do
  let ctx ← currencyContext currencies queryCurrency user
  catalogEnvelope <$> db.activePlans.mapM (planData float db ctx)

/-- `ProductListView.get`. -/
def productList (currencies : Currencies) (queryCurrency : Option String) (user : Option User)
    (db : Db) : Py (CatalogEnvelope (ProductData F)) := do
  let ctx ← currencyContext currencies queryCurrency user
  catalogEnvelope <$> db.activeProducts.mapM (productData float db ctx)

end Serializers

/-! ## What is shown -/

/-- The amount in minor units, and its currency. -/
def Db.tag (db : Db) (price : CatalogPrice) (currency : String) : Int × String :=
  match db.amountIn price currency with
  | some amount => (amount, currency)
  | none => (price.amount, "usd")

section Shown

variable {float : FloatArithmetic F} {db : Db} {ctx : CurrencyContext} {price : CatalogPrice}
  {currencies : Currencies} {queryCurrency : Option String} {user : Option User}

theorem localizedDisplay_eq (hempty : ctx.currency ≠ "") :
    localizedDisplay float price (localizedPricesPrefetch db ctx price) ctx.currency =
      (·, (db.tag price ctx.currency).2) <$>
        RateSync.formatAmount float (db.tag price ctx.currency).1 (db.tag price ctx.currency).2 := by
  unfold localizedDisplay Db.tag Db.amountIn
  by_cases husd : ctx.currency = "usd"
  · rw [if_pos husd, if_pos husd]
    simp only [husd]
  · rw [if_neg husd, if_neg husd,
      find?_localizedPricesPrefetch db price (ctx.currency_wanted hempty husd)]
    cases db.localizedOf price ctx.currency <;> rfl

theorem priceData_eq_ok {data : PriceData F} (hempty : ctx.currency ≠ "")
    (h : priceData float db ctx price = .ok data) :
    data.id = price.id ∧ data.currency = (db.tag price ctx.currency).2 ∧
      RateSync.formatAmount float (db.tag price ctx.currency).1 data.currency = .ok data.displayAmount := by
  unfold priceData at h
  obtain ⟨display, hdisplay, h⟩ := bind_eq_ok.mp h
  obtain ⟨localized, -, h⟩ := bind_eq_ok.mp h
  cases h
  rw [localizedDisplay_eq hempty] at hdisplay
  obtain ⟨amount, hamount, rfl⟩ := map_eq_ok.mp hdisplay
  exact ⟨rfl, rfl, hamount⟩

theorem itemPrice_eq_ok {item : CatalogItem} {data : PriceData F}
    (h : itemPrice float db ctx item = .ok (some data)) :
    ∃ price, db.priceOf item = some price ∧ priceData float db ctx price = .ok data := by
  unfold itemPrice at h
  split at h
  next => cases h
  next price hprice =>
      obtain ⟨_, hdata, hsome⟩ := map_eq_ok.mp h
      obtain rfl := Option.some.inj hsome
      exact ⟨price, hprice, hdata⟩

theorem exists_of_mem_mapM {α β : Type} {f : α → Py β} {xs : List α} {ys : List β}
    (h : xs.mapM f = .ok ys) {y : β} (hy : y ∈ ys) : ∃ x ∈ xs, f x = .ok y := by
  have hrows := mapM_eq_ok.mp h
  clear h
  induction hrows with
  | nil => cases hy
  | cons hrow _ ih =>
      rcases List.mem_cons.mp hy with rfl | hlater
      · exact ⟨_, List.mem_cons_self, hrow⟩
      · obtain ⟨x, hx, hread⟩ := ih hlater
        exact ⟨x, List.mem_cons_of_mem _ hx, hread⟩

/-- The entries of the plan list that have a price. -/
theorem planList_eq_ok {page : CatalogEnvelope (PlanData F)}
    (h : planList float currencies queryCurrency user db = .ok page) :
    ∃ ctx, currencyContext currencies queryCurrency user = .ok ctx ∧
      ∀ entry ∈ page.results, ∀ data ∈ entry.price, ∃ plan ∈ db.activePlans, ∃ p,
        db.priceOfPlan plan = some p ∧ entry.interval = plan.interval ∧
          priceData float db ctx (.plan p) = .ok data := by
  unfold planList at h
  obtain ⟨ctx, hctx, h⟩ := bind_eq_ok.mp h
  obtain ⟨results, hresults, rfl⟩ := map_eq_ok.mp h
  refine ⟨ctx, hctx, fun entry hentry data hdata => ?_⟩
  obtain ⟨plan, hplan, hread⟩ := exists_of_mem_mapM hresults hentry
  obtain ⟨read, hprice, hread⟩ := bind_eq_ok.mp hread
  cases hread
  obtain rfl : read = some data := hdata
  obtain ⟨price, hfound, hread⟩ := itemPrice_eq_ok hprice
  obtain ⟨p, hp, rfl⟩ := Option.map_eq_some_iff.mp hfound
  exact ⟨plan, hplan, p, hp, rfl, hread⟩

theorem productList_eq_ok {page : CatalogEnvelope (ProductData F)}
    (h : productList float currencies queryCurrency user db = .ok page) :
    ∃ ctx, currencyContext currencies queryCurrency user = .ok ctx ∧
      ∀ entry ∈ page.results, ∀ data ∈ entry.price, ∃ product ∈ db.activeProducts, ∃ p,
        db.priceOfProduct product = some p ∧ priceData float db ctx (.product p) = .ok data := by
  unfold productList at h
  obtain ⟨ctx, hctx, h⟩ := bind_eq_ok.mp h
  obtain ⟨results, hresults, rfl⟩ := map_eq_ok.mp h
  refine ⟨ctx, hctx, fun entry hentry data hdata => ?_⟩
  obtain ⟨product, hproduct, hread⟩ := exists_of_mem_mapM hresults hentry
  obtain ⟨read, hprice, hread⟩ := bind_eq_ok.mp hread
  cases hread
  obtain rfl : read = some data := hdata
  obtain ⟨price, hfound, hread⟩ := itemPrice_eq_ok hprice
  obtain ⟨p, hp, rfl⟩ := Option.map_eq_some_iff.mp hfound
  exact ⟨product, hproduct, p, hp, hread⟩

end Shown

/-! ## What is charged -/

/-- The Stripe price of a row that a view picks, loaded for the currency. -/
def Db.picked (db : Db) (price : CatalogPrice) (currency : String) : String :=
  resolveStripePriceId db ⟨price, prefetched db price (some currency)⟩ currency

section Charged

variable {rt : Runtime σ} {currencies : Currencies} {user : User} {queryCurrency : Option String}
  {params : SessionParams} {w w' : World σ}

theorem planCheckout_price {data : CheckoutData}
    (h : Fallible.exec (Session.planCheckout rt currencies user queryCurrency data) w =
      (.ok params, w')) :
    ∃ ctx p, currencyContext currencies queryCurrency (some user) = .ok ctx ∧
      p ∈ w.db.planPrices.rows ∧ p.id = data.planPriceId ∧
        params.price = w.db.picked (.plan p) ctx.currency := by
  unfold Session.planCheckout at h
  obtain ⟨currency, hcurrency, h⟩ := Session.exec_lift_bind_eq_ok.mp h
  rw [resolveBillingCurrency_eq] at hcurrency
  obtain ⟨ctx, hctx, rfl⟩ := map_eq_ok.mp hcurrency
  rw [Session.exec_select_bind] at h
  obtain ⟨⟨loaded, chosen⟩, hfound, h⟩ := Session.exec_lift_bind_eq_ok.mp h
  dsimp only at h
  obtain ⟨_, _, h⟩ := Session.exec_lift_bind_eq_ok.mp h
  rw [Session.exec_select_bind] at h
  obtain ⟨_, w₁, _, h⟩ := Fallible.exec_bind_eq_ok.mp h
  obtain ⟨metadata, _, h⟩ := Session.exec_lift_bind_eq_ok.mp h
  obtain ⟨customer, w₂, _, h⟩ := Fallible.exec_bind_eq_ok.mp h
  cases h
  unfold activePlanPrice at hfound
  obtain ⟨loaded', hloaded, hfound⟩ := bind_eq_ok.mp hfound
  obtain rfl : loaded' = loaded := by
    split at hfound
    · split at hfound
      · cases hfound
        rfl
      · cases hfound
    · cases hfound
  unfold getActivePlanPrice at hloaded
  dsimp only at hloaded
  split at hloaded
  next => cases hloaded
  next p hp =>
      cases hloaded
      obtain ⟨hmem, hselected⟩ := Table.mem_of_find? hp
      rw [Bool.and_eq_true, beq_iff_eq] at hselected
      exact ⟨ctx, p, hctx, hmem, hselected.1, rfl⟩

theorem productCheckout_price {context : Option String} {productPriceId : UUID}
    (h : Fallible.exec (Session.productCheckout rt currencies user queryCurrency context
      productPriceId) w = (.ok params, w')) :
    ∃ ctx p, currencyContext currencies queryCurrency (some user) = .ok ctx ∧
      p ∈ w.db.productPrices.rows ∧ p.id = productPriceId ∧
        params.price = w.db.picked (.product p) ctx.currency := by
  unfold Session.productCheckout at h
  obtain ⟨context', _, h⟩ := Session.exec_lift_bind_eq_ok.mp h
  rw [Session.exec_select_bind] at h
  obtain ⟨orgId, _, h⟩ := Session.exec_lift_bind_eq_ok.mp h
  obtain ⟨currency, hcurrency, h⟩ := Session.exec_lift_bind_eq_ok.mp h
  rw [resolveBillingCurrency_eq] at hcurrency
  obtain ⟨ctx, hctx, rfl⟩ := map_eq_ok.mp hcurrency
  rw [Session.exec_select_bind] at h
  obtain ⟨⟨loaded, price⟩, hfound, h⟩ := Session.exec_lift_bind_eq_ok.mp h
  dsimp only at h
  rw [Session.exec_select_bind] at h
  obtain ⟨customer, w₁, _, h⟩ := Fallible.exec_bind_eq_ok.mp h
  cases h
  unfold activeProductPrice at hfound
  dsimp only at hfound
  split at hfound
  next => cases hfound
  next p hp =>
      cases hfound
      obtain ⟨hmem, hselected⟩ := Table.mem_of_find? hp
      rw [Bool.and_eq_true, beq_iff_eq] at hselected
      exact ⟨ctx, price, hctx, hmem, hselected.1, rfl⟩

end Charged

/-! ## Both -/

section Stamped

variable {db : Db} {price : CatalogPrice} {currency : String}

/-- The price of a row that has been minted is picked. -/
theorem Db.picked_of_stamp {stamp : String} (hstamp : db.stampIn price currency = some stamp)
    (hne : stamp ≠ "") : db.picked price currency = stamp := by
  unfold Db.picked resolveStripePriceId
  unfold Db.stampIn at hstamp
  by_cases husd : currency = "usd"
  · rw [if_pos husd] at hstamp ⊢
    exact Option.some.inj hstamp
  · rw [if_neg husd] at hstamp ⊢
    obtain ⟨row, hrow, hid⟩ := Option.bind_eq_some_iff.mp hstamp
    obtain ⟨hmem, howns, hcurrency⟩ := Db.localizedOf_eq_some hrow
    have hminted : row.minted? = some stamp :=
      LocalizedPrice.minted?_eq_some.mpr ⟨hid, hne⟩
    have hfound : (localizedForCurrency db ⟨price, prefetched db price (some currency)⟩
        currency).bind LocalizedPrice.minted? = some stamp :=
      (localizedForCurrency_eq_some (Or.inr rfl)).mpr ⟨row, hmem, howns, hcurrency, hminted⟩
    simp only [hfound]

/-- Without a stamp it is the price in dollars. -/
theorem Db.picked_of_unstamped (hstamp : db.stampIn price currency = none) :
    db.picked price currency = price.stripePriceId := by
  unfold Db.picked resolveStripePriceId
  unfold Db.stampIn at hstamp
  by_cases husd : currency = "usd"
  · rw [if_pos husd]
  · rw [if_neg husd] at hstamp ⊢
    have hnone : (localizedForCurrency db ⟨price, prefetched db price (some currency)⟩ currency).bind
        LocalizedPrice.minted? = none := by
      refine Option.eq_none_iff_forall_ne_some.mpr fun minted hminted => ?_
      obtain ⟨row, hmem, howns, hcurrency, hid⟩ :=
        (localizedForCurrency_eq_some (Or.inr rfl)).mp hminted
      have hrow : db.localizedOf price currency = some row :=
        hcurrency ▸ RateSync.localizedOf_of_mem hmem howns
      rw [hrow, Option.bind_some, (LocalizedPrice.minted?_eq_some.mp hid).1] at hstamp
      cases hstamp
    simp only [hnone]

/-- The amount of a row that has been minted is the one a change of plans compares. -/
theorem Db.planChange_of_stamp {stamp : String} {amount : Int}
    (hstamp : db.stampIn price currency = some stamp) (hne : stamp ≠ "")
    (hamount : db.amountIn price currency = some amount) :
    resolvePlanChangePrice db ⟨price, none⟩ currency = .ok (stamp, amount) := by
  unfold resolvePlanChangePrice
  unfold Db.stampIn at hstamp
  unfold Db.amountIn at hamount
  by_cases husd : currency = "usd"
  · rw [if_pos husd] at hstamp hamount ⊢
    rw [Option.some.inj hstamp, Option.some.inj hamount]
  · rw [if_neg husd] at hstamp hamount ⊢
    obtain ⟨row, hrow, hid⟩ := Option.bind_eq_some_iff.mp hstamp
    rw [hrow, Option.map_some, Option.some.injEq] at hamount
    obtain ⟨hmem, howns, hcurrency⟩ := Db.localizedOf_eq_some hrow
    have hminted : row.minted? = some stamp := LocalizedPrice.minted?_eq_some.mpr ⟨hid, hne⟩
    have hfound : localizedForCurrency db ⟨price, none⟩ currency = some row := by
      refine db.localizedPrices.find?_eq_some hmem ?_ fun other _ hother => ?_
      · simp [hcurrency, hid, howns]
      · simp only [Bool.and_eq_true, beq_iff_eq] at hother
        exact RateSync.clash_of_owns howns hother.2 (hcurrency.trans hother.1.1.symm)
    simp only [hfound, hminted, hamount]

end Stamped

end Saasmint
