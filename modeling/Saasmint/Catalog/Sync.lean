import Saasmint.Catalog.LookupKeys
import Saasmint.Catalog.Prices
import Saasmint.Python.Uuid

/-!
# Syncing the catalog to Stripe

The `sync_stripe_catalog` command.  For every active plan and product and every
billable currency it looks for the Stripe price that holds the lookup key, mints a
new one when there is none or its terms have changed, and stamps the id of the price
on the local row.  A localized row that is missing is first made from the exchange
rates, by the same task that renews these rows every day.

The command is a program of single queries, single statements and Stripe calls: it
runs in no transaction, and can be stopped between any two of them.
-/

namespace Saasmint

open Atomic Handler Relational

variable {σ : Type}

/-! ## What Stripe answers -/

/-- The attributes of a `stripe.Product` the command reads. -/
structure StripeProduct where
  id : String
  name : String
  description : Option String
  metadata : List (String × String)
deriving DecidableEq

/-- The attributes of a `stripe.Price` the command reads, with its expanded product. -/
structure ListedPrice where
  id : String
  unitAmount : Option Int
  currency : String
  interval : Option String
  lookupKey : Option String
  product : StripeProduct
deriving DecidableEq

def optionalText : Json → Option String
  | .null => none
  | value => some value.toStr

def readMetadata : Json → List (String × String)
  | .obj fields => fields.map fun field => (field.1, field.2.toStr)
  | _ => []

def readStripeProduct (product : Json) : Py StripeProduct := do
  let id := (← product.attr "id").toStr
  let name := (← product.attr "name").toStr
  let description := optionalText (← product.attr "description")
  let metadata := readMetadata (← product.attr "metadata")
  return { id, name, description, metadata }

/-- `price.recurring.interval`, of a price that recurs. -/
def readInterval (recurring : Json) : Py (Option String) :=
  if recurring.isNull then .ok none
  else (fun interval => some interval.toStr) <$> recurring.attr "interval"

def readListedPrice (price : Json) : Py ListedPrice := do
  let id := (← price.attr "id").toStr
  let unitAmount := (← price.attr "unit_amount").asInt?
  let currency := (← price.attr "currency").toStr
  let interval ← readInterval (← price.attr "recurring")
  let lookupKey := optionalText (← price.attr "lookup_key")
  let product ← readStripeProduct (← price.attr "product")
  return { id, unitAmount, currency, interval, lookupKey, product }

/-- The prices of a page. -/
def readPricePage (page : Json) : Py (List ListedPrice) := do
  match ← page.attr "data" with
  | .arr prices => prices.mapM readListedPrice
  | data => throw (.typeError ("'" ++ data.typeName ++ "' object is not iterable"))

/-! ## Settings -/

/-- What a run of the command takes from outside. -/
structure CatalogRuntime (σ : Type) extends Runtime σ where
  /-- `stripe.api_key`. -/
  apiKey : String
  /-- `settings.BILLING_CURRENCIES`. -/
  currencies : List String
  currencies_supported : ∀ c ∈ currencies, c ∈ supportedCurrencies
  /-- `str.lower`. -/
  strLower : String → String
  /-- The FX feed: for an amount of USD cents and a currency, the rounded amount in
  that currency's minor units.  There may be no rate, or no feed. -/
  rates : σ → Option (Int → String → Option Int)
  /-- `uuid4()`, for the localized row of a price in a currency. -/
  localizedId : UUID → String → UUID

/-! ## Localized prices -/

def CatalogPrice.id : CatalogPrice → UUID
  | plan price => price.id
  | product price => price.id

/-- `LocalizedPrice.objects.filter(owner, currency=currency).first()`. -/
def Db.localizedOf (db : Db) (price : CatalogPrice) (currency : String) : Option LocalizedPrice :=
  db.localizedPrices.find? fun row => price.owns row && row.currency == currency

/-- `_compute_new_amounts`. -/
def computeNewAmounts (rates : Int → String → Option Int) (amount : Int) : List (String × Int) :=
  (supportedCurrencies.filter (· ≠ "usd")).filterMap fun c => (rates amount c).map (c, ·)

/-- The prices of the catalog, of plans first. -/
def Tables.catalogPrices (t : Tables) : List CatalogPrice :=
  t.planPrices.rows.map .plan ++ t.productPrices.rows.map .product

/-- The stored row, with the amount the rates give for it. -/
def relocalized (t : Tables) (rates : Int → String → Option Int) (now : Datetime)
    (row : LocalizedPrice) : LocalizedPrice :=
  match t.catalogPrices.find? (·.owns row) with
  | none => row
  | some price =>
      match (computeNewAmounts rates price.amount).lookup row.currency with
      | none => row
      | some amount => { row with amountMinor := amount, syncedAt := now }

/-- The rows that are missing. -/
def missingLocalized (t : Tables) (rates : Int → String → Option Int) (now : Datetime)
    (localizedId : UUID → String → UUID) : List LocalizedPrice :=
  t.catalogPrices.flatMap fun price => (computeNewAmounts rates price.amount).filterMap fun entry =>
    if t.localizedPrices.rows.any fun row => price.owns row && row.currency == entry.1 then none
    else some {
      id := localizedId price.id entry.1
      planPriceId := match price with | .plan p => some p.id | .product _ => none
      productPriceId := match price with | .plan _ => none | .product p => some p.id
      currency := entry.1, amountMinor := entry.2, stripePriceId := none, syncedAt := now }

/-- The transaction of `sync_localized_prices`. -/
def localizePrices (rates : Int → String → Option Int) (now : Datetime)
    (localizedId : UUID → String → UUID) (db : Db) : Py Db :=
  let rows := db.localizedPrices.rows.map (relocalized db.toTables rates now) ++
    missingLocalized db.toTables rates now localizedId
  if rows.all fun row => fitsInteger row.amountMinor then
    match Table.ofRows? rows with
    | some table => Db.commit { db.toTables with localizedPrices := table }
    | none => .error (.integrity "duplicate key value violates unique constraint")
  else .error (.data "integer out of range")

/-- `sync_localized_prices`; without rates it changes nothing. -/
def syncLocalizedPrices (rt : CatalogRuntime σ) : Handler σ Unit := do
  let some rates ← Fallible.observe .query fun w : World σ => rt.rates w.stripe | return
  transaction fun db => (fun db => ((), db)) <$> localizePrices rates rt.now rt.localizedId db

/-! ## The rows of a run -/

/-- The place of a plan in `Meta.ordering`: by context, tier and interval. -/
def Plan.rank (plan : Plan) : ℕ :=
  let context := match plan.context with | .personal => 0 | .team => 1
  let tier := match plan.tier with | .free => 0 | .basic => 1 | .pro => 2
  let interval := match plan.interval with | .month => 0 | .year => 1
  6 * context + 2 * tier + interval

namespace Db

/-- `Plan.objects.filter(is_active=True)`. -/
def activePlans (db : Db) : List Plan :=
  (db.plans.filter Plan.isActive).insertionSort fun p q => p.rank ≤ q.rank

/-- `Product.objects.filter(is_active=True)`. -/
def activeProducts (db : Db) : List Product := db.products.filter Product.isActive

/-- `getattr(plan, "price", None)`. -/
def priceOfPlan (db : Db) (plan : Plan) : Option PlanPrice :=
  db.planPrices.find? fun price => price.planId == plan.id

def priceOfProduct (db : Db) (product : Product) : Option ProductPrice :=
  db.productPrices.find? fun price => price.productId == product.id

end Db

/-- `_collect_lookup_keys`. -/
def collectLookupKeys (rt : CatalogRuntime σ) (db : Db) : List String :=
  db.activePlans.flatMap (fun plan => rt.currencies.map (planLookupKey plan)) ++
    db.activeProducts.flatMap fun product => rt.currencies.map (productLookupKey rt.strLower product)

/-- What `_upsert_price` is given for a row in a currency, besides the amount. -/
structure PriceTerms where
  lookupKey : String
  currency : String
  recurring : Option PlanInterval
  productName : String
  productDescription : Option String
  productMetadata : List (String × String)
  priceMetadata : List (String × String)

/-- The arguments of `_sync_plans`. -/
def planTerms (plan : Plan) (currency : String) : PriceTerms where
  lookupKey := planLookupKey plan currency
  currency := currency
  recurring := some plan.interval
  productName := plan.name
  productDescription := if plan.description = "" then none else some plan.description
  productMetadata := [("local_plan_id", uuidText plan.id), ("kind", "plan")]
  priceMetadata := [("local_plan_id", uuidText plan.id)]

/-- The arguments of `_sync_products`. -/
def productTerms (strLower : String → String) (product : Product) (currency : String) :
    PriceTerms where
  lookupKey := productLookupKey strLower product currency
  currency := currency
  recurring := none
  productName := product.name
  productDescription := some (toString product.credits ++ " credits")
  productMetadata := [("local_product_id", uuidText product.id), ("kind", "product")]
  priceMetadata := [("local_product_id", uuidText product.id)]

/-! ## One price -/

/-- `_price_matches`. -/
def priceMatches (price : ListedPrice) (unitAmount : Int) (terms : PriceTerms) : Bool :=
  if price.unitAmount ≠ some unitAmount ∨ price.currency ≠ terms.currency then false
  else price.interval == terms.recurring.map PlanInterval.value

/-- `stripe.Product | str`. -/
inductive ProductRef
  | loaded (product : StripeProduct)
  | id (productId : String)

namespace ProductRef

def productId : ProductRef → String
  | loaded product => product.id
  | id productId => productId

def existingName : ProductRef → Option String
  | loaded product => some product.name
  | id _ => none

def existingDescription : ProductRef → Option String
  | loaded product => product.description
  | id _ => none

def existingMetadata : ProductRef → List (String × String)
  | loaded product => product.metadata
  | id _ => []

end ProductRef

/-- `{**existing, **metadata}`; of two entries of a key, a lookup takes the first. -/
def mergeMetadata (existing metadata : List (String × String)) : List (String × String) :=
  metadata ++ existing

/-- `{**existing, **metadata} == existing`. -/
def coversMetadata (existing metadata : List (String × String)) : Bool :=
  metadata.all fun entry => existing.lookup entry.1 == some entry.2

/-- The update of `_sync_stripe_product`. -/
def productUpdate (ref : ProductRef) (terms : PriceTerms) : ProductParams where
  name := if ref.existingName.any (· ≠ terms.productName) then some terms.productName else none
  description := terms.productDescription.filter fun description =>
    description ≠ "" && ref.existingDescription ≠ some description
  metadata := if coversMetadata ref.existingMetadata terms.productMetadata then none
    else some (mergeMetadata ref.existingMetadata terms.productMetadata)

/-- `_sync_stripe_product`. -/
def syncStripeProduct (rt : CatalogRuntime σ) (ref : ProductRef) (terms : PriceTerms) :
    Handler σ Unit := do
  let update := productUpdate ref terms
  if update = ⟨none, none, none⟩ then return
  let _ ← callStripe rt.toRuntime (.productModify ref.productId update)

def createPrice (rt : CatalogRuntime σ) (terms : PriceTerms) (unitAmount : Int)
    (productId : String) : Handler σ String := do
  let created ← callStripe rt.toRuntime (.priceCreate {
    product := productId, unitAmount, currency := terms.currency, lookupKey := terms.lookupKey
    metadata := terms.priceMetadata, recurring := terms.recurring })
  return (← lift (created.attr "id")).toStr

/-- `_upsert_price`: the id of the price that is to be stamped. -/
def upsertPrice (rt : CatalogRuntime σ) (terms : PriceTerms) (unitAmount : Int)
    (existing : List (String × ListedPrice)) : Handler σ String :=
  match existing.lookup terms.lookupKey with
  | some current =>
      if priceMatches current unitAmount terms then do
        syncStripeProduct rt (.loaded current.product) terms
        return current.id
      else do
        -- the product is reused, and is handed on by its id alone
        let _ ← callStripe rt.toRuntime (.priceModify current.id false)
        syncStripeProduct rt (.id current.product.id) terms
        createPrice rt terms unitAmount current.product.id
  | none => do
      let product ← callStripe rt.toRuntime (.productCreate {
        name := some terms.productName, description := terms.productDescription.filter (· ≠ "")
        metadata := some terms.productMetadata })
      let productId ← lift (product.attr "id")
      createPrice rt terms unitAmount productId.toStr

/-- `_unit_amount_for`. -/
def unitAmountFor (rt : CatalogRuntime σ) (price : CatalogPrice) (currency : String) :
    Handler σ (Option Int) :=
  if currency = "usd" then return some price.amount
  else do
    match ← query fun db => db.localizedOf price currency with
    | some row => return some row.amountMinor
    | none =>
        syncLocalizedPrices rt
        let row ← query fun db => db.localizedOf price currency
        return row.map LocalizedPrice.amountMinor

/-! ## Stamping -/

/-- `price_row.save(update_fields=["stripe_price_id"])`. -/
def stampPrice (db : Db) (price : CatalogPrice) (stripePriceId : String) : Py Db :=
  if fitsVarchar 255 stripePriceId then
    match price with
    | .plan p =>
        match db.planPrices.update? (·.id == p.id) ({ · with stripePriceId := stripePriceId }) with
        | some rows => Db.commit { db.toTables with planPrices := rows }
        | none => .error (.integrity "duplicate key value violates unique constraint")
    | .product p =>
        match db.productPrices.update? (·.id == p.id)
            ({ · with stripePriceId := stripePriceId }) with
        | some rows => Db.commit { db.toTables with productPrices := rows }
        | none => .error (.integrity "duplicate key value violates unique constraint")
  else .error (.data "value too long for column type")

/-- `localized.save(update_fields=["stripe_price_id"])`. -/
def stampLocalized (db : Db) (row : LocalizedPrice) (stripePriceId : String) : Py Db :=
  if fitsVarchar 255 stripePriceId then
    match db.localizedPrices.update? (·.id == row.id)
        ({ · with stripePriceId := some stripePriceId }) with
    | some rows => Db.commit { db.toTables with localizedPrices := rows }
    | none => .error (.integrity "duplicate key value violates unique constraint")
  else .error (.data "value too long for column type")

/-- `_write_price_id`. -/
def writePriceId (price : CatalogPrice) (newPriceId currency : String) : Handler σ Unit :=
  if currency = "usd" then
    if newPriceId = price.stripePriceId then return
    else transaction fun db => (fun db => ((), db)) <$> stampPrice db price newPriceId
  else do
    let some localized ← query fun db => db.localizedOf price currency | return
    if localized.stripePriceId = some newPriceId then return
    transaction fun db => (fun db => ((), db)) <$> stampLocalized db localized newPriceId

/-- The body of the loops of `_sync_plans` and `_sync_products`. -/
def syncPrice (rt : CatalogRuntime σ) (price : CatalogPrice) (terms : PriceTerms)
    (existing : List (String × ListedPrice)) : Handler σ Unit := do
  let some unitAmount ← unitAmountFor rt price terms.currency | return
  let newPriceId ← upsertPrice rt terms unitAmount existing
  writePriceId price newPriceId terms.currency

/-! ## The command -/

/-- `result[price.lookup_key] = price`: the last price of a key counts. -/
def keyed (listed : List ListedPrice) : List (String × ListedPrice) :=
  (listed.filterMap fun price =>
    (price.lookupKey.filter (· ≠ "")).map fun key => (key, price)).reverse

/-- `_bulk_fetch_existing`, in at most `fuel` batches. -/
def bulkFetch (rt : CatalogRuntime σ) :
    ℕ → List String → List (String × ListedPrice) → Handler σ (List (String × ListedPrice))
  | _, [], found => return found
  | 0, _ :: _, found => return found
  | fuel + 1, key :: keys, found => do
      let page ← callStripe rt.toRuntime (.priceList ((key :: keys).take 10))
      let listed ← lift (readPricePage page)
      bulkFetch rt fuel ((key :: keys).drop 10) (keyed listed ++ found)

def bulkFetchExisting (rt : CatalogRuntime σ) (lookupKeys : List String) :
    Handler σ (List (String × ListedPrice)) :=
  bulkFetch rt lookupKeys.length lookupKeys []

/-- `_sync_plans`; a plan without a price is skipped. -/
def syncPlans (rt : CatalogRuntime σ) (currency : String)
    (existing : List (String × ListedPrice)) : Handler σ Unit := do
  let plans ← query fun db => db.activePlans.map fun plan => (plan, db.priceOfPlan plan)
  plans.forM fun (plan, price) =>
    match price with
    | none => return
    | some price => syncPrice rt (.plan price) (planTerms plan currency) existing

/-- `_sync_products`. -/
def syncProducts (rt : CatalogRuntime σ) (currency : String)
    (existing : List (String × ListedPrice)) : Handler σ Unit := do
  let products ← query fun db =>
    db.activeProducts.map fun product => (product, db.priceOfProduct product)
  products.forM fun (product, price) =>
    match price with
    | none => return
    | some price => syncPrice rt (.product price) (productTerms rt.strLower product currency) existing

/-- `sync_stripe_catalog`. -/
def syncStripeCatalog (rt : CatalogRuntime σ) : Handler σ Unit := do
  if rt.apiKey = "" then return
  let wantedKeys ← query fun db => collectLookupKeys rt db
  let existing ← bulkFetchExisting rt wantedKeys
  rt.currencies.forM fun currency => do
    syncPlans rt currency existing
    syncProducts rt currency existing

end Saasmint
