import Saasmint.Data.Database

/-!
# Lookup keys

`sync_stripe_catalog` finds the Stripe price of a plan or a product in a currency
by a lookup key.  The key of a plan is made of its context, tier and interval, the
key of a product of a slug of its name; outside of USD the currency is appended.

`lookupKeys_injective_iff`: no two keys coincide exactly as long as the slugs of the
active products differ, and none of them is the slug of a product with a currency
appended.  Plans never take part in a collision.
-/

namespace Saasmint

open Relational

/-! ## Currencies -/

/-- `SUPPORTED_CURRENCIES`. -/
def supportedCurrencies : List String :=
  ["usd", "eur", "gbp", "jpy", "brl", "krw", "sek", "nok", "dkk", "pln", "try", "idr", "rub",
    "cny", "twd", "sar", "aed", "chf", "cad", "aud"]

theorem currency_length : ∀ c ∈ supportedCurrencies, c.toList.length = 3 := by decide

/-! ## The keys -/

/-- Replaces every run of characters that are not `[a-z0-9]` by one underscore. -/
def subRuns (inRun : Bool) : List Char → List Char
  | [] => []
  | c :: rest =>
      if ('a' ≤ c && c ≤ 'z') || ('0' ≤ c && c ≤ '9') then c :: subRuns false rest
      else if inRun then subRuns true rest
      else '_' :: subRuns true rest

/-- A row the command syncs. -/
inductive CatalogItem
  | plan (plan : Plan)
  | product (product : Product)
deriving DecidableEq

section Keys

/- `str.lower`, on all of Unicode. -/
variable (strLower : String → String)

/-- `_slug`. -/
def catalogSlug (value : String) : String :=
  String.ofList (strip ['_'] (subRuns false (strLower value).toList))

def withCurrency (base currency : String) : String :=
  if currency = "usd" then base else base ++ "_" ++ currency

def planKeyBase (context : PlanContext) (tier : PlanTier) (interval : PlanInterval) : String :=
  "plan_" ++ context.value ++ "_" ++ tier.name ++ "_" ++ interval.value

/-- `_plan_lookup_key`. -/
def planLookupKey (plan : Plan) (currency : String) : String :=
  withCurrency (planKeyBase plan.context plan.tier plan.interval) currency

/-- `_product_lookup_key`. -/
def productLookupKey (product : Product) (currency : String) : String :=
  withCurrency ("product_" ++ catalogSlug strLower product.name) currency

namespace CatalogItem

def lookupKey (currency : String) : CatalogItem → String
  | plan p => planLookupKey p currency
  | product p => productLookupKey strLower p currency

/-- The command goes over the active rows. -/
def Listed (db : Db) : CatalogItem → Prop
  | plan p => p ∈ db.plans.rows ∧ p.isActive = true
  | product p => p ∈ db.products.rows ∧ p.isActive = true

end CatalogItem

/-- Different pairs of a row and a currency have different lookup keys. -/
def LookupKeysInjective (db : Db) : Prop :=
  ∀ a b : CatalogItem, a.Listed db → b.Listed db →
    ∀ c ∈ supportedCurrencies, ∀ c' ∈ supportedCurrencies,
      a.lookupKey strLower c = b.lookupKey strLower c' → a = b ∧ c = c'

/-! ## Appended currencies -/

theorem toList_withCurrency {base currency : String} (h : currency ≠ "usd") :
    (withCurrency base currency).toList = base.toList ++ '_' :: currency.toList := by
  rw [withCurrency, if_neg h, String.toList_append, String.toList_append, List.append_assoc]
  rfl

/-- Two keys coincide if their bases and currencies do, or if the base of one is the
other in a currency. -/
theorem withCurrency_inj {base base' c c' : String} (hc : c ∈ supportedCurrencies)
    (hc' : c' ∈ supportedCurrencies) (h : withCurrency base c = withCurrency base' c') :
    (base = base' ∧ c = c') ∨ (c' ≠ "usd" ∧ base = withCurrency base' c') ∨
      (c ≠ "usd" ∧ base' = withCurrency base c) := by
  by_cases husd : c = "usd"
  · rw [withCurrency, if_pos husd] at h
    by_cases husd' : c' = "usd"
    · rw [withCurrency, if_pos husd'] at h
      exact Or.inl ⟨h, husd.trans husd'.symm⟩
    · exact Or.inr (Or.inl ⟨husd', h⟩)
  · by_cases husd' : c' = "usd"
    · rw [withCurrency.eq_def base', if_pos husd'] at h
      exact Or.inr (Or.inr ⟨husd, h.symm⟩)
    · -- both end in a currency of three letters
      have hlists := congrArg String.toList h
      rw [toList_withCurrency husd, toList_withCurrency husd'] at hlists
      have hlengths : ('_' :: c.toList).length = ('_' :: c'.toList).length := by
        rw [List.length_cons, List.length_cons, currency_length c hc, currency_length c' hc']
      obtain ⟨hbase, hcurrency⟩ := List.append_inj' hlists hlengths
      exact Or.inl ⟨String.toList_inj.mp hbase,
        String.toList_inj.mp (List.cons.inj hcurrency).2⟩

/-- The base of a plan's key determines what it is made of, and has no currency at
its end. -/
theorem planKeyBase_inj {context context' : PlanContext} {tier tier' : PlanTier}
    {interval interval' : PlanInterval}
    (h : planKeyBase context tier interval = planKeyBase context' tier' interval') :
    context = context' ∧ tier = tier' ∧ interval = interval' := by
  revert h
  cases context <;> cases context' <;> cases tier <;> cases tier' <;> cases interval <;>
    cases interval' <;> decide

theorem planKeyBase_ne_withCurrency (context : PlanContext) (tier : PlanTier)
    (interval : PlanInterval) (base : String) {c : String} (hc : c ∈ supportedCurrencies)
    (husd : c ≠ "usd") : planKeyBase context tier interval ≠ withCurrency base c := by
  intro h
  -- the fourth character from the end
  have hmark : (withCurrency base c).toList.reverse[3]? = some '_' := by
    have hlength : c.toList.reverse.length = 3 := by
      rw [List.length_reverse, currency_length c hc]
    rw [toList_withCurrency husd, List.reverse_append, List.reverse_cons, List.append_assoc,
      List.getElem?_append_right hlength.le, hlength]
    rfl
  rw [← h] at hmark
  revert hmark
  cases context <;> cases tier <;> cases interval <;> decide

theorem plan_ne_product (context : PlanContext) (tier : PlanTier) (interval : PlanInterval)
    (slug c c' : String) : withCurrency (planKeyBase context tier interval) c ≠
      withCurrency ("product_" ++ slug) c' := by
  intro h
  have hplan : (withCurrency (planKeyBase context tier interval) c).toList[1]? = some 'l' := by
    have hbase : ∀ rest, ((planKeyBase context tier interval).toList ++ rest)[1]? = some 'l' := by
      intro rest
      cases context <;> cases tier <;> cases interval <;> rfl
    by_cases husd : c = "usd"
    · rw [withCurrency, if_pos husd, ← List.append_nil (planKeyBase context tier interval).toList]
      exact hbase []
    · rw [toList_withCurrency husd]
      exact hbase _
  have hproduct : (withCurrency ("product_" ++ slug) c').toList[1]? = some 'r' := by
    by_cases husd : c' = "usd"
    · rw [withCurrency, if_pos husd, String.toList_append]
      rfl
    · rw [toList_withCurrency husd, String.toList_append]
      rfl
  rw [h, hproduct] at hplan
  cases hplan

theorem productBase_withCurrency (slug c : String) :
    withCurrency ("product_" ++ slug) c = "product_" ++ withCurrency slug c := by
  by_cases husd : c = "usd"
  · rw [withCurrency, withCurrency, if_pos husd, if_pos husd]
  · rw [withCurrency, withCurrency, if_neg husd, if_neg husd]
    simp only [String.append_assoc]

theorem productBase_inj {slug slug' : String} :
    "product_" ++ slug = "product_" ++ slug' ↔ slug = slug' := by
  rw [← String.toList_inj, String.toList_append, String.toList_append, List.append_right_inj,
    String.toList_inj]

/-! ## Collisions -/

/-- The slugs of active products differ, also from each other in a currency. -/
def SlugsApart (db : Db) : Prop :=
  ∀ p ∈ db.products.rows, ∀ q ∈ db.products.rows, p.isActive = true → q.isActive = true →
    (p ≠ q → catalogSlug strLower p.name ≠ catalogSlug strLower q.name) ∧
    ∀ c ∈ supportedCurrencies, c ≠ "usd" →
      catalogSlug strLower p.name ≠ withCurrency (catalogSlug strLower q.name) c

variable {strLower}

/-- Active plans have their keys to themselves. -/
theorem plan_eq_of_lookupKey {db : Db} {p q : Plan} (hp : p ∈ db.plans.rows)
    (hq : q ∈ db.plans.rows) (hpActive : p.isActive = true) (hqActive : q.isActive = true)
    {c c' : String} (hc : c ∈ supportedCurrencies) (hc' : c' ∈ supportedCurrencies)
    (h : planLookupKey p c = planLookupKey q c') : p = q ∧ c = c' := by
  rcases withCurrency_inj hc hc' h with ⟨hbase, hcurrency⟩ | ⟨husd, hbase⟩ | ⟨husd, hbase⟩
  · obtain ⟨hcontext, htier, hinterval⟩ := planKeyBase_inj hbase
    have hclash : Row.clash p q :=
      Or.inr ⟨hpActive, hqActive, hcontext, htier, hinterval⟩
    exact ⟨db.plans.eq_of_clash hp hq hclash, hcurrency⟩
  · exact absurd hbase (planKeyBase_ne_withCurrency _ _ _ _ hc' husd)
  · exact absurd hbase (planKeyBase_ne_withCurrency _ _ _ _ hc husd)

theorem product_eq_of_lookupKey {db : Db} (hapart : SlugsApart strLower db) {p q : Product}
    (hp : p ∈ db.products.rows) (hq : q ∈ db.products.rows) (hpActive : p.isActive = true)
    (hqActive : q.isActive = true) {c c' : String} (hc : c ∈ supportedCurrencies)
    (hc' : c' ∈ supportedCurrencies)
    (h : productLookupKey strLower p c = productLookupKey strLower q c') : p = q ∧ c = c' := by
  obtain ⟨hdiffer, hsuffix⟩ := hapart p hp q hq hpActive hqActive
  obtain ⟨-, hsuffix'⟩ := hapart q hq p hp hqActive hpActive
  rcases withCurrency_inj hc hc' h with ⟨hbase, hcurrency⟩ | ⟨husd, hbase⟩ | ⟨husd, hbase⟩
  · have hslug := productBase_inj.mp hbase
    exact ⟨not_imp_not.mp hdiffer hslug, hcurrency⟩
  · rw [productBase_withCurrency, productBase_inj] at hbase
    exact absurd hbase (hsuffix c' hc' husd)
  · rw [productBase_withCurrency, productBase_inj] at hbase
    exact absurd hbase (hsuffix' c hc husd)

/-- The lookup keys of a catalog are injective if and only if the slugs of its active
products differ and none is another with a currency appended. -/
theorem lookupKeys_injective_iff (strLower : String → String) (db : Db) :
    LookupKeysInjective strLower db ↔ SlugsApart strLower db := by
  constructor
  · intro hinjective p hp q hq hpActive hqActive
    have husd : "usd" ∈ supportedCurrencies := by decide
    refine ⟨fun hne hslug => hne ?_, fun c hc hcurrency hslug => hcurrency ?_⟩
    · have hkeys : (CatalogItem.product p).lookupKey strLower "usd" =
          (CatalogItem.product q).lookupKey strLower "usd" := by
        simp only [CatalogItem.lookupKey, productLookupKey, hslug]
      have hsame := (hinjective (.product p) (.product q) ⟨hp, hpActive⟩ ⟨hq, hqActive⟩ "usd" husd
        "usd" husd hkeys).1
      exact CatalogItem.product.inj hsame
    · have hkeys : (CatalogItem.product p).lookupKey strLower "usd" =
          (CatalogItem.product q).lookupKey strLower c := by
        simp only [CatalogItem.lookupKey, productLookupKey, productBase_withCurrency, hslug]
        rw [withCurrency, if_pos rfl]
      exact (hinjective (.product p) (.product q) ⟨hp, hpActive⟩ ⟨hq, hqActive⟩ "usd" husd c hc
        hkeys).2.symm
  · intro hapart a b ha hb c hc c' hc' hkeys
    cases a with
    | plan p =>
        cases b with
        | plan q =>
            obtain ⟨rfl, hcurrency⟩ := plan_eq_of_lookupKey ha.1 hb.1 ha.2 hb.2 hc hc' hkeys
            exact ⟨rfl, hcurrency⟩
        | product q => exact absurd hkeys (plan_ne_product _ _ _ _ _ _)
    | product p =>
        cases b with
        | plan q => exact absurd hkeys.symm (plan_ne_product _ _ _ _ _ _)
        | product q =>
            obtain ⟨rfl, hcurrency⟩ :=
              product_eq_of_lookupKey hapart ha.1 hb.1 ha.2 hb.2 hc hc' hkeys
            exact ⟨rfl, hcurrency⟩

end Keys

/-! ## Two packs of one slug -/

/-- A catalog without plans and with two packs. -/
def packsDb : Db where
  users := Table.empty
  orgs := Table.empty
  members := Table.empty
  invitations := Table.empty
  plans := Table.empty
  planPrices := Table.empty
  products := ⟨[⟨70#128, "50 Credits", 50, true⟩, ⟨71#128, "50 Credits+", 60, true⟩], by decide⟩
  productPrices := Table.empty
  localizedPrices := Table.empty
  customers := Table.empty
  subscriptions := Table.empty
  events := Table.empty
  creditBalances := Table.empty
  creditTransactions := Table.empty
  integral := by decide +kernel

/-- The punctuation by which two names differ is lost in their slugs. -/
theorem not_lookupKeys_injective : ¬ ∀ db : Db, LookupKeysInjective lower db := by
  intro h
  have hkeys : (CatalogItem.product ⟨70#128, "50 Credits", 50, true⟩).lookupKey lower "usd" =
      (CatalogItem.product ⟨71#128, "50 Credits+", 60, true⟩).lookupKey lower "usd" := by
    decide +kernel
  have hsame := (h packsDb (.product ⟨70#128, "50 Credits", 50, true⟩)
    (.product ⟨71#128, "50 Credits+", 60, true⟩) ⟨by decide +kernel, rfl⟩ ⟨by decide +kernel, rfl⟩
    "usd" (by decide) "usd" (by decide) hkeys).1
  exact absurd hsame (by decide)

end Saasmint
