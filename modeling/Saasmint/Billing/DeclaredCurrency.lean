import Saasmint.Billing.CheckoutViews

/-!
# The currency of a checkout

A checkout view hands two things over that are to agree: the billing currency, which
follows from the request, and the id of a Stripe price, which follows from the catalog.
Each falls back to USD on its own, the first where the currency is not billable, the
second where no price was minted for it.

What Stripe knows of its prices is `stripeCurrency`; the catalog is `Priced` if it refers
to prices of the currencies it says.
-/

namespace Saasmint

open Atomic Relational

variable {σ : Type}

namespace Checkout

/-- The `currency` query parameter. -/
def queryCurrency : Checkout → Option String
  | plan queryCurrency _ => queryCurrency
  | product queryCurrency _ _ => queryCurrency

/-- The row is for the price that is asked for. -/
def owns (row : LocalizedPrice) : Checkout → Prop
  | plan _ data => row.planPriceId = some data.planPriceId
  | product _ _ productPriceId => row.productPriceId = some productPriceId

/-- The price that is asked for has been minted in a currency. -/
def MintedIn (db : Db) (currency : String) (checkout : Checkout) : Prop :=
  ∃ row ∈ db.localizedPrices.rows,
    checkout.owns row ∧ row.currency = currency ∧ row.minted?.isSome = true

end Checkout

/-- What a view hands to `create_checkout_session`, or to its sibling for products. -/
structure SessionArguments where
  params : SessionParams
  billingCurrency : String
deriving DecidableEq

/-- The arguments of the session.  The currency is that of the request, which the price
was resolved for too. -/
def Checkout.arguments (rt : Runtime σ) (currencies : Currencies) (user : User)
    (checkout : Checkout) : Session σ SessionArguments := do
  let params ← checkout.params rt currencies user
  let billingCurrency ←
    Session.lift (resolveBillingCurrency currencies checkout.queryCurrency user)
  return { params, billingCurrency }

/-- The catalog refers to Stripe prices of the currencies it says. -/
structure Priced (stripeCurrency : String → String) (db : Db) : Prop where
  plan : ∀ p ∈ db.planPrices.rows, stripeCurrency p.stripePriceId = "usd"
  product : ∀ p ∈ db.productPrices.rows, stripeCurrency p.stripePriceId = "usd"
  localized : ∀ row ∈ db.localizedPrices.rows, ∀ minted, row.minted? = some minted →
    stripeCurrency minted = row.currency

/-! ## The price that is sold -/

section Sold

variable {rt : Runtime σ} {currencies : Currencies} {user : User} {checkout : Checkout}
  {params : SessionParams} {w w' : World σ} {stripeCurrency : String → String} {db : Db}
  {price : CatalogPrice} {currency : String}

/-- The id a view hands over is that of the price asked for, in the billing currency. -/
def Checkout.Sells (db : Db) (currencies : Currencies) (user : User) (checkout : Checkout)
    (priceId : String) : Prop :=
  ∃ currency price, resolveBillingCurrency currencies checkout.queryCurrency user = .ok currency ∧
    db.HasPrice price ∧ (∀ row, price.owns row = true ↔ checkout.owns row) ∧
    priceId = resolveStripePriceId db ⟨price, prefetched db price (some currency)⟩ currency

theorem activePlanPrice_eq_ok {planPriceId : UUID} {wanted : Option String} {loaded : LoadedPrice}
    {plan : Plan} (h : activePlanPrice db planPriceId wanted = .ok (loaded, plan)) :
    ∃ p ∈ db.planPrices.rows, p.id = planPriceId ∧
      loaded = ⟨.plan p, prefetched db (.plan p) wanted⟩ := by
  obtain ⟨loaded', hloaded, h⟩ := bind_eq_ok.mp h
  unfold getActivePlanPrice at hloaded
  dsimp only at hloaded h
  split at hloaded
  next => cases hloaded
  next p hfound =>
      cases hloaded
      obtain ⟨hmem, hid⟩ := Table.mem_of_find? hfound
      refine ⟨p, hmem, beq_iff_eq.mp (Bool.and_eq_true_iff.mp hid).1, ?_⟩
      dsimp only at h
      split at h <;> cases h
      rfl

theorem activeProductPrice_eq_ok {productPriceId : UUID} {wanted : Option String}
    {loaded : LoadedPrice} {p : ProductPrice}
    (h : activeProductPrice db productPriceId wanted = .ok (loaded, p)) :
    p ∈ db.productPrices.rows ∧ p.id = productPriceId ∧
      loaded = ⟨.product p, prefetched db (.product p) wanted⟩ := by
  unfold activeProductPrice at h
  dsimp only at h
  split at h
  next => cases h
  next q hfound =>
      cases h
      obtain ⟨hmem, hid⟩ := Table.mem_of_find? hfound
      exact ⟨hmem, beq_iff_eq.mp (Bool.and_eq_true_iff.mp hid).1, rfl⟩

theorem planCheckout_sells {queryCurrency : Option String} {data : CheckoutData}
    (h : Fallible.exec (Session.planCheckout rt currencies user queryCurrency data) w =
      (.ok params, w')) :
    (Checkout.plan queryCurrency data).Sells w.db currencies user params.price := by
  unfold Session.planCheckout at h
  obtain ⟨currency, hcurrency, h⟩ := Session.exec_lift_bind_eq_ok.mp h
  rw [Session.exec_select_bind] at h
  obtain ⟨⟨loaded, chosen⟩, hfound, h⟩ := Session.exec_lift_bind_eq_ok.mp h
  obtain ⟨p, hp, hid, rfl⟩ := activePlanPrice_eq_ok hfound
  dsimp only at h
  obtain ⟨_, -, h⟩ := Session.exec_lift_bind_eq_ok.mp h
  rw [Session.exec_select_bind] at h
  obtain ⟨_, w₁, -, h⟩ := Fallible.exec_bind_eq_ok.mp h
  obtain ⟨metadata, -, h⟩ := Session.exec_lift_bind_eq_ok.mp h
  obtain ⟨customer, w₂, -, h⟩ := Fallible.exec_bind_eq_ok.mp h
  cases h
  refine ⟨currency, .plan p, hcurrency, hp, fun row => ?_, rfl⟩
  rw [CatalogPrice.owns, beq_iff_eq, hid]
  rfl

theorem productCheckout_sells {queryCurrency context : Option String} {productPriceId : UUID}
    (h : Fallible.exec (Session.productCheckout rt currencies user queryCurrency context
      productPriceId) w = (.ok params, w')) :
    (Checkout.product queryCurrency context productPriceId).Sells w.db currencies user
      params.price := by
  unfold Session.productCheckout at h
  obtain ⟨_, -, h⟩ := Session.exec_lift_bind_eq_ok.mp h
  rw [Session.exec_select_bind] at h
  obtain ⟨orgId, -, h⟩ := Session.exec_lift_bind_eq_ok.mp h
  obtain ⟨currency, hcurrency, h⟩ := Session.exec_lift_bind_eq_ok.mp h
  rw [Session.exec_select_bind] at h
  obtain ⟨⟨loaded, p⟩, hfound, h⟩ := Session.exec_lift_bind_eq_ok.mp h
  obtain ⟨hp, hid, rfl⟩ := activeProductPrice_eq_ok hfound
  dsimp only at h
  rw [Session.exec_select_bind] at h
  obtain ⟨customer, w₁, -, h⟩ := Fallible.exec_bind_eq_ok.mp h
  cases h
  refine ⟨currency, .product p, hcurrency, hp, fun row => ?_, rfl⟩
  rw [CatalogPrice.owns, beq_iff_eq, hid]
  rfl

theorem Checkout.sells (h : Fallible.exec (checkout.params rt currencies user) w =
    (.ok params, w')) : checkout.Sells w.db currencies user params.price := by
  cases checkout with
  | plan queryCurrency data => exact planCheckout_sells h
  | product queryCurrency context productPriceId => exact productCheckout_sells h

theorem Priced.usd (hpriced : Priced stripeCurrency db) (h : db.HasPrice price) :
    stripeCurrency price.stripePriceId = "usd" := by
  cases price with
  | plan p => exact hpriced.plan p h
  | product p => exact hpriced.product p h

/-- The currency of what is sold: the one that is asked for, if it has been minted. -/
theorem stripeCurrency_resolved (hpriced : Priced stripeCurrency db) (h : db.HasPrice price) :
    stripeCurrency
        (resolveStripePriceId db ⟨price, prefetched db price (some currency)⟩ currency) = currency ↔
      currency = "usd" ∨ ∃ row ∈ db.localizedPrices.rows,
        price.owns row = true ∧ row.currency = currency ∧ row.minted?.isSome = true := by
  unfold resolveStripePriceId
  split
  next husd =>
    rw [hpriced.usd h]
    exact ⟨fun _ => .inl husd, fun _ => husd.symm⟩
  next husd =>
    split
    next minted hminted =>
      obtain ⟨row, hrow, howns, hcurrency, hid⟩ :=
        (localizedForCurrency_eq_some (.inr rfl)).mp hminted
      have hsold : stripeCurrency minted = currency :=
        (hpriced.localized row hrow minted hid).trans hcurrency
      exact ⟨fun _ => .inr ⟨row, hrow, howns, hcurrency, Option.isSome_of_eq_some hid⟩,
        fun _ => hsold⟩
    next hnone =>
      rw [hpriced.usd h]
      refine ⟨fun heq => absurd heq.symm husd, ?_⟩
      rintro (heq | ⟨row, hrow, howns, hcurrency, hminted⟩)
      · exact heq.symm
      · obtain ⟨minted, hid⟩ := Option.isSome_iff_exists.mp hminted
        cases hnone.symm.trans
          ((localizedForCurrency_eq_some (.inr rfl)).mpr ⟨row, hrow, howns, hcurrency, hid⟩)

end Sold

/-- The declared currency is the one of the price that is sold exactly if the currency the
request resolves to is USD, or the price asked for has been minted in it. -/
theorem checkout_currency_iff (rt : Runtime σ) (currencies : Currencies) (user : User)
    (checkout : Checkout) {stripeCurrency : String → String} {w w' : World σ}
    {args : SessionArguments} (hpriced : Priced stripeCurrency w.db)
    (hargs : Fallible.exec (checkout.arguments rt currencies user) w = (.ok args, w')) :
    stripeCurrency args.params.price = args.billingCurrency ↔
      ∀ currency, resolveBillingCurrency currencies checkout.queryCurrency user = .ok currency →
        currency = "usd" ∨ checkout.MintedIn w.db currency := by
  unfold Checkout.arguments at hargs
  obtain ⟨params, w₁, hparams, hargs⟩ := Fallible.exec_bind_eq_ok.mp hargs
  obtain ⟨currency, hcurrency, hargs⟩ := Session.exec_lift_bind_eq_ok.mp hargs
  cases hargs
  obtain ⟨_, price, hsold, hprice, howns, hid⟩ := checkout.sells hparams
  obtain rfl := Except.ok.inj (hcurrency.symm.trans hsold)
  dsimp only
  rw [hid, stripeCurrency_resolved hpriced hprice, hcurrency]
  simp only [howns, Except.ok.injEq, forall_eq']
  rfl

/-! ## A checkout in euros -/

def euroBillable : Currencies := ⟨["usd", "eur"], ["usd", "eur"]⟩

/-- One seat on a personal plan. -/
def soloData (planPriceId : UUID) : CheckoutData where
  planPriceId := planPriceId
  seatLimit := 1
  trialPeriodDays := none
  orgName := none
  keepPersonalSubscription := false
  seatLimit_range := by decide
  trial_range := CheckoutData.no_trial
  orgName_valid := nofun

/-- The basic plan has been minted in euros. -/
def stripePriceCurrency (priceId : String) : String :=
  if priceId = "price_basic_eur" then "eur" else "usd"

theorem priced_localizedDb : Priced stripePriceCurrency localizedDb where
  plan := by decide +kernel
  product := by decide +kernel
  localized := by
    have hrows : ∀ row ∈ localizedDb.localizedPrices.rows,
        ∀ minted ∈ row.minted?, stripePriceCurrency minted = row.currency := by decide +kernel
    exact fun row hrow minted h => hrows row hrow minted h

def euroArguments (priceId : String) : SessionArguments where
  params :=
    { customer := "cus_1", clientReferenceId := uuidText buyer.id, mode := "subscription",
      price := priceId, quantity := 1, trialPeriodDays := none, metadata := none }
  billingCurrency := "eur"

theorem exec_arguments_basic :
    (Fallible.exec ((Checkout.plan (some "EUR") (soloData basicPrice.id)).arguments
      (sampleRuntime noStripe 0 0) euroBillable buyer) ⟨localizedDb, (), []⟩).1 =
        .ok (euroArguments "price_basic_eur") := by
  decide +kernel

theorem exec_arguments_pro :
    (Fallible.exec ((Checkout.plan (some "EUR") (soloData proPrice.id)).arguments
      (sampleRuntime noStripe 0 0) euroBillable buyer) ⟨localizedDb, (), []⟩).1 =
        .ok (euroArguments "price_pro") := by
  decide +kernel

theorem checkout_currency_basic :
    stripePriceCurrency "price_basic_eur" = "eur" ↔
      ∀ currency, resolveBillingCurrency euroBillable (some "EUR") buyer = .ok currency →
        currency = "usd" ∨
          (Checkout.plan (some "EUR") (soloData basicPrice.id)).MintedIn localizedDb currency :=
  checkout_currency_iff (sampleRuntime noStripe 0 0) euroBillable buyer
    (.plan (some "EUR") (soloData basicPrice.id)) (w := ⟨localizedDb, (), []⟩) priced_localizedDb
    (Prod.ext exec_arguments_basic rfl)

/-- The pro plan has an amount in euros, and no Stripe price. -/
theorem not_checkout_currency :
    ¬ ∀ (rt : Runtime Unit) (currencies : Currencies) (user : User) (checkout : Checkout)
      (stripeCurrency : String → String) (w w' : World Unit) (args : SessionArguments),
      Priced stripeCurrency w.db →
      Fallible.exec (checkout.arguments rt currencies user) w = (.ok args, w') →
      stripeCurrency args.params.price = args.billingCurrency := by
  intro h
  have hsame := h (sampleRuntime noStripe 0 0) euroBillable buyer
    (.plan (some "EUR") (soloData proPrice.id)) stripePriceCurrency ⟨localizedDb, (), []⟩ _
    (euroArguments "price_pro") priced_localizedDb (Prod.ext exec_arguments_pro rfl)
  exact absurd hsame (by decide)

end Saasmint
