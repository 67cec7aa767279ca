import Saasmint.Catalog.StripeCatalog

/-!
# A Stripe account that can be run

`catalogStripe` keeps a catalog and answers the calls of the command about it, with
`serves_catalogStripe` as its specification.  A call that would break the constraints
of the catalog is refused.
-/

namespace Saasmint

open Atomic Handler Relational

/-! ## Answers -/

def optionalJson (value : Option Json) : Json := value.getD .null

def productJson (q : StripeProduct) : Json :=
  .obj [("id", .str q.id), ("name", .str q.name),
    ("description", optionalJson (q.description.map .str)),
    ("metadata", .obj (q.metadata.map fun entry => (entry.1, .str entry.2)))]

def priceJson (l : ListedPrice) : Json :=
  .obj [("id", .str l.id), ("unit_amount", optionalJson (l.unitAmount.map .int)),
    ("currency", .str l.currency),
    ("recurring", optionalJson (l.interval.map fun interval => .obj [("interval", .str interval)])),
    ("lookup_key", optionalJson (l.lookupKey.map .str)), ("product", productJson l.product)]

def pageJson (listed : List ListedPrice) : Json := .obj [("data", .arr (listed.map priceJson))]

theorem readMetadata_pairs (metadata : List (String × String)) :
    readMetadata (.obj (metadata.map fun entry => (entry.1, Json.str entry.2))) = metadata := by
  show (metadata.map _).map _ = metadata
  rw [List.map_map]
  exact List.map_id _

theorem readStripeProduct_productJson (q : StripeProduct) :
    readStripeProduct (productJson q) = .ok q := by
  obtain ⟨id, name, description, metadata⟩ := q
  unfold readStripeProduct productJson
  simp only [Json.attr, List.lookup_cons]
  cases description with
  | none => simp [optionalJson, optionalText, readMetadata_pairs]
  | some text => simp [optionalJson, optionalText, readMetadata_pairs]

theorem readListedPrice_priceJson (l : ListedPrice) : readListedPrice (priceJson l) = .ok l := by
  obtain ⟨id, unitAmount, currency, interval, lookupKey, product⟩ := l
  unfold readListedPrice priceJson
  simp only [Json.attr, List.lookup_cons]
  have hproduct := readStripeProduct_productJson product
  cases unitAmount <;> cases interval <;> cases lookupKey <;>
    simp [optionalJson, optionalText, readInterval, hproduct, Json.asInt?, Json.isNull, Json.attr]

theorem readPricePage_pageJson (listed : List ListedPrice) :
    readPricePage (pageJson listed) = .ok listed := by
  have hprices : (listed.map priceJson).mapM readListedPrice = .ok listed := by
    induction listed with
    | nil => rfl
    | cons l listed ih =>
        rw [List.map_cons, List.mapM_cons, readListedPrice_priceJson, ih]
        rfl
  exact hprices

/-! ## Calls -/

namespace StripeCatalog

/-- The catalog with these rows, if they satisfy its constraints. -/
def ofRows? (prices : List StripePrice) (products : List StripeProduct) : Option StripeCatalog :=
  match Table.ofRows? prices, Table.ofRows? products with
  | some prices, some products =>
      if h : ∀ p ∈ prices.rows, ∃ q ∈ products.rows, q.id = p.product then
        some ⟨prices, products, h⟩
      else none
  | _, _ => none

theorem ofRows?_eq_some {prices : List StripePrice} {products : List StripeProduct}
    {c : StripeCatalog} (h : ofRows? prices products = some c) :
    c.prices.rows = prices ∧ c.products.rows = products := by
  unfold ofRows? at h
  split at h
  next pricesTable productsTable hprices hproducts =>
      split at h
      · cases h
        exact ⟨Table.ofRows?_eq_some.mp hprices, Table.ofRows?_eq_some.mp hproducts⟩
      · cases h
  next => cases h

/-- The prices under these keys, with their products. -/
def listing (c : StripeCatalog) (keys : List String) : List ListedPrice :=
  (c.prices.filter fun p => keys.any fun key => p.lookupKey == some key).flatMap fun p =>
    (c.products.filter fun q => q.id == p.product).map p.listed

theorem mem_listing {c : StripeCatalog} {keys : List String} {l : ListedPrice} :
    l ∈ c.listing keys ↔ c.Lists keys l := by
  simp only [listing, Lists, Table.filter, List.mem_flatMap, List.mem_filter, List.mem_map,
    List.any_eq_true, beq_iff_eq]
  constructor
  · rintro ⟨p, ⟨hp, hkey⟩, q, ⟨hq, hid⟩, rfl⟩
    exact ⟨p, hp, q, hq, hid, hkey, rfl⟩
  · rintro ⟨p, hp, q, hq, hid, hkey, rfl⟩
    exact ⟨p, ⟨hp, hkey⟩, q, ⟨hq, hid⟩, rfl⟩

/-- A write, with its answer. -/
def write (c : StripeCatalog) (answer : Json) (prices : List StripePrice)
    (products : List StripeProduct) : Py Json × StripeCatalog :=
  match ofRows? prices products with
  | some c' => (.ok answer, c')
  | none => (.error (.stripe "idempotency_error" "refused"), c)

theorem write_eq_ok {c : StripeCatalog} {answer answer' : Json} {prices : List StripePrice}
    {products : List StripeProduct} (h : (c.write answer prices products).1 = .ok answer') :
    answer' = answer ∧ (c.write answer prices products).2.prices.rows = prices ∧
      (c.write answer prices products).2.products.rows = products := by
  unfold write at h ⊢
  split at h
  next c' hrows =>
      cases h
      exact ⟨rfl, ofRows?_eq_some hrows⟩
  next => cases h

def newPriceId (c : StripeCatalog) : String := "price_" ++ toString c.prices.rows.length

def newProductId (c : StripeCatalog) : String := "prod_" ++ toString c.products.rows.length

def answer : StripeCall → StripeCatalog → Py Json × StripeCatalog
  | .priceList keys, c => (.ok (pageJson (c.listing keys)), c)
  | .priceModify id active, c =>
      c.write (.obj [("id", .str id)]) (c.prices.rows.map (·.withActive id active)) c.products.rows
  | .priceCreate params, c =>
      c.write (.obj [("id", .str c.newPriceId)])
        (c.prices.rows.map (·.without params.lookupKey) ++ [.ofParams c.newPriceId params])
        c.products.rows
  | .productCreate params, c =>
      c.write (.obj [("id", .str c.newProductId)]) c.prices.rows
        (c.products.rows ++ [.ofParams c.newProductId params])
  | .productModify id params, c =>
      c.write (.obj [("id", .str id)]) c.prices.rows (c.products.rows.map (·.update id params))
  | _, c => (.error (.connection "connection refused"), c)

end StripeCatalog

def catalogStripe : Stripe StripeCatalog := ⟨StripeCatalog.answer⟩

theorem serves_catalogStripe : ServesCatalog catalogStripe id where
  answers call c answer hcall h := by
    show c.Effect call answer (StripeCatalog.answer call c).2
    replace h : (StripeCatalog.answer call c).1 = .ok answer := h
    cases call with
    | priceList keys =>
        cases h
        exact .priceList (readPricePage_pageJson _) (fun _ => StripeCatalog.mem_listing) rfl
    | priceModify id active =>
        obtain ⟨-, hprices, hproducts⟩ := StripeCatalog.write_eq_ok h
        exact .priceModify hprices (Table.ext hproducts)
    | priceCreate params =>
        obtain ⟨rfl, hprices, hproducts⟩ := StripeCatalog.write_eq_ok h
        exact .priceCreate rfl hprices (Table.ext hproducts)
    | productCreate params =>
        obtain ⟨rfl, hprices, hproducts⟩ := StripeCatalog.write_eq_ok h
        exact .productCreate rfl (Table.ext hprices) hproducts
    | productModify id params =>
        obtain ⟨-, hprices, hproducts⟩ := StripeCatalog.write_eq_ok h
        exact .productModify (Table.ext hprices) hproducts
    | _ => cases hcall
  lists keys c := ⟨_, rfl⟩

/-! ## A shop -/

/-- Runs of the command in USD, without a rate feed. -/
def shopRuntime : CatalogRuntime StripeCatalog where
  toRuntime := { sampleRuntime noStripe 0 0 with stripe := catalogStripe }
  apiKey := "sk_test"
  currencies := ["usd"]
  currencies_supported := by decide
  strLower := lower
  rates _ := none
  localizedId id _ := id

/-- A catalog of one plan. -/
def shopDb (name : String) (amount : Int) (stripePriceId : String) : Db where
  users := Table.empty
  orgs := Table.empty
  members := Table.empty
  invitations := Table.empty
  plans := ⟨[{ basicPlan with name := name }],
    ⟨fun _ _ => trivial, List.pairwise_singleton _ _⟩⟩
  planPrices := ⟨[⟨20#128, basicPlan.id, stripePriceId, amount⟩],
    ⟨fun _ _ => trivial, List.pairwise_singleton _ _⟩⟩
  products := Table.empty
  productPrices := Table.empty
  localizedPrices := Table.empty
  customers := Table.empty
  subscriptions := Table.empty
  events := Table.empty
  creditBalances := Table.empty
  creditTransactions := Table.empty
  integral := by
    constructor
    case planPrices =>
      intro p hp
      obtain rfl := List.mem_singleton.mp hp
      exact refers_some.mpr ⟨{ basicPlan with name := name }, List.mem_singleton_self _, rfl⟩
    all_goals exact List.forall_mem_nil _

/-- An account without prices. -/
def emptyAccount : StripeCatalog := ⟨Table.empty, Table.empty, nofun⟩

def shopWorld : World StripeCatalog := ⟨shopDb "Basic" 999 "price_basic", emptyAccount, []⟩

/-- The world after a run. -/
def shopSynced (w : World StripeCatalog) : World StripeCatalog :=
  (Fallible.exec (syncStripeCatalog shopRuntime) w).2

end Saasmint
