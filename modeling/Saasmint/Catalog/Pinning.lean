import Saasmint.Catalog.Traversal

/-!
# Prices that a run leaves alone

A subscription stays at the Stripe price it was sold at, and is found again by the stamp of
a local row.  `sync_stripe_catalog` writes the stamp over when it mints another price.

Some Stripe price ids are pinned.  `ends_syncStripeCatalog` says that a run, whether it ends
well or not, leaves the rows that are stamped with them, if Stripe has those prices under
the keys of their plans and at the amounts of their rows.  Only then does `_upsert_price`
come back with the id it was given.
-/

namespace Saasmint

open Atomic Handler Relational

variable {σ : Type}

/-! ## Pinned prices -/

/-- The prices with a pinned Stripe id are as they were. -/
structure Spared (pins : String → Prop) (db db' : Db) : Prop where
  plans : db'.plans = db.plans
  customers : db'.customers = db.customers
  prices : ∀ p ∈ db.planPrices.rows, pins p.stripePriceId → p ∈ db'.planPrices.rows

section

variable {rt : CatalogRuntime σ} {view : σ → StripeCatalog} {pins : String → Prop} {db : Db}
  {existing : List (String × ListedPrice)} {w : World σ}

theorem Spared.refl (pins : String → Prop) (db : Db) : Spared pins db db :=
  ⟨rfl, rfl, fun _ hp _ => hp⟩

theorem Spared.congr {db' db'' : Db} (h : Spared pins db db') (hplans : db''.plans = db'.plans)
    (hcustomers : db''.customers = db'.customers) (hprices : db''.planPrices = db'.planPrices) :
    Spared pins db db'' where
  plans := hplans.trans h.plans
  customers := hcustomers.trans h.customers
  prices p hp hpin := by
    rw [hprices]
    exact h.prices p hp hpin

/-- Localizing writes localized rows only, in whatever way it ends. -/
theorem ends_syncLocalizedPrices (h : Spared pins db w.db) :
    (syncLocalizedPrices rt).Ends (fun _ t => Spared pins db t.db) w := by
  unfold syncLocalizedPrices
  rw [Fallible.ends_bind, Fallible.ends_observe, Fallible.follow_ok]
  cases rt.rates w.stripe with
  | none => exact h
  | some rates =>
      unfold Fallible.Ends
      dsimp only
      rw [exec_transaction]
      cases hlocalize : localizePrices rates rt.now rt.localizedId w.db with
      | error e => exact h
      | ok db' =>
          obtain ⟨table, -, htables⟩ := localizePrices_eq_ok hlocalize
          have hdb' : Spared pins db db' :=
            h.congr (by rw [htables]) (by rw [htables]) (by rw [htables])
          exact hdb'

theorem ends_unitAmountFor (h : Spared pins db w.db) (price : CatalogPrice) (currency : String) :
    (unitAmountFor rt price currency).Ends (fun _ t => Spared pins db t.db) w := by
  unfold unitAmountFor
  split
  · exact h
  · rw [Fallible.ends_bind]
    unfold Fallible.Ends
    rw [exec_query, Fallible.follow_ok]
    cases w.db.localizedOf price currency with
    | some row => exact h
    | none =>
        refine Fallible.Ends.keep (P := fun t : World σ => Spared pins db t.db) ?_
        refine (ends_syncLocalizedPrices h).mono fun _ t ht => ⟨ht, fun _ _ => ?_⟩
        exact ht

theorem exec_unitAmountFor_usd (price : CatalogPrice) (w : World σ) :
    Fallible.exec (unitAmountFor rt price "usd") w = (.ok (some price.amount), w) := rfl

/-! ## The price at Stripe -/

/-- Calls to Stripe write nothing here. -/
theorem ends_callStripe_keep {P : Db → Prop} {rt : Runtime σ} {call : StripeCall} {α : Type}
    {rest : Json → Handler σ α} (h : P w.db)
    (hrest : ∀ answer t, P t.db → (rest answer).Ends (fun _ r => P r.db) t) :
    (callStripe rt call >>= rest).Ends (fun _ t => P t.db) w := by
  refine Fallible.Ends.keep (P := fun t : World σ => P t.db) ?_
  exact ⟨h, fun answer _ => hrest answer _ h⟩

theorem ends_syncStripeProduct {P : Db → Prop} (ref : ProductRef) (terms : PriceTerms)
    (h : P w.db) : (syncStripeProduct rt ref terms).Ends (fun _ t => P t.db) w := by
  unfold syncStripeProduct
  dsimp only
  split
  · exact h
  · exact ends_callStripe_keep h fun _ _ ht => ht

theorem ends_createPrice {P : Db → Prop} (terms : PriceTerms) (amount : Int) (productId : String)
    (h : P w.db) : (createPrice rt terms amount productId).Ends (fun _ t => P t.db) w := by
  unfold createPrice
  refine ends_callStripe_keep h fun answer t ht => ?_
  exact Fallible.Ends.keep (P := fun t : World σ => P t.db) ⟨ht, fun id _ => ht⟩

/-- The price that is listed under the key of a row is the one it is stamped with, and has
its amount. -/
def Matched (existing : List (String × ListedPrice)) (terms : PriceTerms) (amount : Int)
    (stripePriceId : String) : Prop :=
  ∃ current, existing.lookup terms.lookupKey = some current ∧ current.id = stripePriceId ∧
    priceMatches current amount terms = true

theorem ends_upsertPrice {P : Db → Prop} (terms : PriceTerms) (amount : Int) (h : P w.db) :
    (upsertPrice rt terms amount existing).Ends (fun _ t => P t.db) w := by
  unfold upsertPrice
  cases existing.lookup terms.lookupKey with
  | none =>
      refine ends_callStripe_keep h fun product t ht => ?_
      refine Fallible.Ends.keep (P := fun t : World σ => P t.db) ⟨ht, fun productId _ => ?_⟩
      exact ends_createPrice terms amount productId.toStr ht
  | some current =>
      dsimp only
      split
      · refine Fallible.Ends.keep (P := fun t : World σ => P t.db) ?_
        refine (ends_syncStripeProduct (.loaded current.product) terms h).mono fun _ t ht => ?_
        exact ⟨ht, fun _ _ => ht⟩
      · refine ends_callStripe_keep h fun _ t ht => ?_
        refine Fallible.Ends.keep (P := fun t : World σ => P t.db) ?_
        refine (ends_syncStripeProduct (.id current.product.id) terms ht).mono fun _ r hr => ?_
        exact ⟨hr, fun _ _ => ends_createPrice terms amount current.product.id hr⟩

/-- A row whose price is listed under its key keeps it. -/
theorem upsertPrice_matched {terms : PriceTerms} {amount : Int} {stripePriceId id : String}
    {w' : World σ} (hmatched : Matched existing terms amount stripePriceId)
    (h : Fallible.exec (upsertPrice rt terms amount existing) w = (.ok id, w')) :
    id = stripePriceId := by
  obtain ⟨current, hlisted, rfl, hmatches⟩ := hmatched
  unfold upsertPrice at h
  rw [hlisted] at h
  dsimp only at h
  rw [if_pos hmatches] at h
  obtain ⟨_, t, -, h⟩ := Fallible.exec_bind_eq_ok.mp h
  cases h
  rfl

/-! ## The stamp -/

/-- What is to be stamped on a row that a loop has read: a pinned row keeps its stamp. -/
def Keeps (pins : String → Prop) (db : Db) (currency stripePriceId : String) :
    CatalogPrice → Prop
  | .plan p => ∀ q ∈ db.planPrices.rows, pins q.stripePriceId → q.id = p.id →
      q = p ∧ (currency = "usd" → stripePriceId = q.stripePriceId)
  | .product _ => True

theorem spared_stampPrice {price : CatalogPrice} {stripePriceId : String} {db' : Db}
    (h : Spared pins db w.db) (hkeeps : Keeps pins db "usd" stripePriceId price)
    (hnew : stripePriceId ≠ price.stripePriceId)
    (hstamp : stampPrice w.db price stripePriceId = .ok db') : Spared pins db db' := by
  unfold stampPrice at hstamp
  split at hstamp
  next =>
      cases price with
      | plan p =>
          dsimp only at hstamp
          split at hstamp
          next rows hrows =>
              have htables := Db.commit_eq_ok.mp hstamp
              refine ⟨(by rw [htables]; exact h.plans), (by rw [htables]; exact h.customers), ?_⟩
              intro q hq hpin
              rw [htables]
              refine (Table.rows_update? hrows) ▸ List.mem_map.mpr ⟨q, h.prices q hq hpin, ?_⟩
              refine if_neg fun hid => ?_
              obtain ⟨rfl, hsame⟩ := hkeeps q hq hpin (beq_iff_eq.mp hid)
              exact hnew (hsame rfl)
          next => cases hstamp
      | product p =>
          dsimp only at hstamp
          split at hstamp
          next rows hrows =>
              have htables := Db.commit_eq_ok.mp hstamp
              exact h.congr (by rw [htables]) (by rw [htables]) (by rw [htables])
          next => cases hstamp
  next => cases hstamp

theorem spared_stampLocalized {row : LocalizedPrice} {stripePriceId : String} {db' : Db}
    (h : Spared pins db w.db) (hstamp : stampLocalized w.db row stripePriceId = .ok db') :
    Spared pins db db' := by
  unfold stampLocalized at hstamp
  split at hstamp
  next =>
      split at hstamp
      next rows hrows =>
          have htables := Db.commit_eq_ok.mp hstamp
          exact h.congr (by rw [htables]) (by rw [htables]) (by rw [htables])
      next => cases hstamp
  next => cases hstamp

theorem ends_transaction_keep {P : Db → Prop} {f : Db → Py Db} (h : P w.db)
    (hf : ∀ db', f w.db = .ok db' → P db') :
    (transaction fun db => (fun db => ((), db)) <$> f db : Handler σ Unit).Ends
      (fun _ t => P t.db) w := by
  unfold Fallible.Ends
  rw [exec_transaction]
  cases hresult : f w.db with
  | error e => exact h
  | ok db' => exact hf db' hresult

theorem ends_writePriceId {price : CatalogPrice} {stripePriceId currency : String}
    (h : Spared pins db w.db) (hkeeps : Keeps pins db currency stripePriceId price) :
    (writePriceId price stripePriceId currency).Ends (fun _ t => Spared pins db t.db) w := by
  unfold writePriceId
  split
  next husd =>
      subst husd
      split
      next => exact h
      next hnew =>
          exact ends_transaction_keep h fun db' hstamp => spared_stampPrice h hkeeps hnew hstamp
  next =>
      rw [Fallible.ends_bind]
      unfold Fallible.Ends
      rw [exec_query, Fallible.follow_ok]
      cases w.db.localizedOf price currency with
      | none => exact h
      | some row =>
          dsimp only
          split
          · exact h
          · exact ends_transaction_keep h fun db' hstamp => spared_stampLocalized h hstamp

/-! ## The loops -/

/-- One turn spares the pinned prices, when the row's own is listed under its key. -/
theorem ends_syncPrice {price : CatalogPrice} {terms : PriceTerms} (h : Spared pins db w.db)
    (hread : ∀ p, price = .plan p → ∀ q ∈ db.planPrices.rows, pins q.stripePriceId →
      q.id = p.id → q = p ∧ (terms.currency = "usd" →
        Matched existing terms p.amount p.stripePriceId)) :
    (syncPrice rt price terms existing).Ends (fun _ t => Spared pins db t.db) w := by
  unfold syncPrice
  refine Fallible.Ends.keep (P := fun t : World σ => Spared pins db t.db) ?_
  have ht : (unitAmountFor rt price terms.currency).Ends (fun _ t => Spared pins db t.db) w :=
    ends_unitAmountFor h price terms.currency
  refine ⟨ht, fun amount hamount => ?_⟩
  cases amount with
  | none => exact ht
  | some amount =>
      refine Fallible.Ends.keep (P := fun t : World σ => Spared pins db t.db) ?_
      refine ⟨ends_upsertPrice terms amount ht, fun id hid => ?_⟩
      refine ends_writePriceId (ends_upsertPrice terms amount ht) ?_
      cases price with
      | product p => trivial
      | plan p =>
          intro q hq hpin hsame
          obtain ⟨rfl, hmatched⟩ := hread p rfl q hq hpin hsame
          refine ⟨rfl, fun husd => ?_⟩
          rw [husd, exec_unitAmountFor_usd] at hamount
          obtain rfl : q.amount = amount := Option.some.inj (Except.ok.inj hamount)
          exact upsertPrice_matched (hmatched husd) (Prod.ext hid rfl)

/-- The pinned prices of active plans are listed under the keys of the plans. -/
def PinsMatched (pins : String → Prop) (existing : List (String × ListedPrice)) (db : Db) : Prop :=
  ∀ plan ∈ db.activePlans, ∀ p ∈ db.priceOfPlan plan, pins p.stripePriceId →
    Matched existing (planTerms plan "usd") p.amount p.stripePriceId

theorem ends_syncPlans {currency : String} (h : Spared pins db w.db)
    (hmatched : currency = "usd" → PinsMatched pins existing db) :
    (syncPlans rt currency existing).Ends (fun _ t => Spared pins db t.db) w := by
  rw [syncPlans_eq, Fallible.ends_bind]
  unfold Fallible.Ends
  rw [exec_query, Fallible.follow_ok]
  refine Fallible.ends_forM (P := fun t : World σ => Spared pins db t.db) ?_ h
  intro row hrow t ht
  obtain ⟨plan, hplan, rfl⟩ := List.mem_map.mp hrow
  dsimp only
  cases hprice : w.db.priceOfPlan plan with
  | none => exact ht
  | some p =>
      refine ends_syncPrice ht fun p' hsame q hq hpin hid => ?_
      obtain rfl := CatalogPrice.plan.inj hsame
      -- the row that was read is the pinned one, which has been stored all along
      obtain ⟨hp, hplanId⟩ := Db.priceOfPlan_eq_some hprice
      obtain rfl := w.db.planPrices.eq_of_clash (h.prices q hq hpin) hp (Or.inl hid)
      refine ⟨rfl, fun husd => ?_⟩
      replace husd : currency = "usd" := husd
      subst husd
      refine hmatched rfl plan ?_ q ?_ hpin
      · unfold Db.activePlans at hplan ⊢
        rwa [← h.plans]
      · refine db.planPrices.find?_eq_some hq (beq_iff_eq.mpr hplanId) fun q' _ hq' => ?_
        exact Or.inr (Or.inl (hplanId.trans (beq_iff_eq.mp hq').symm))

theorem ends_syncProducts {currency : String} (h : Spared pins db w.db) :
    (syncProducts rt currency existing).Ends (fun _ t => Spared pins db t.db) w := by
  rw [syncProducts_eq, Fallible.ends_bind]
  unfold Fallible.Ends
  rw [exec_query, Fallible.follow_ok]
  refine Fallible.ends_forM (P := fun t : World σ => Spared pins db t.db) ?_ h
  intro row hrow t ht
  cases row.2 with
  | none => exact ht
  | some p => exact ends_syncPrice ht fun p' hsame => by cases hsame

/-! ## The command -/

/-- A run leaves the pinned prices where they are: it does nothing, or nothing in USD, or
Stripe has every pinned price of an active plan under the plan's key and at its amount. -/
def SparesPins (rt : CatalogRuntime σ) (view : σ → StripeCatalog) (pins : String → Prop)
    (w : World σ) : Prop :=
  rt.apiKey = "" ∨ "usd" ∉ rt.currencies ∨
    ∀ plan ∈ w.db.activePlans, ∀ p ∈ w.db.priceOfPlan plan, pins p.stripePriceId →
      ∃ q ∈ (view w.stripe).prices.rows, q.id = p.stripePriceId ∧
        q.Holds (planLookupKey plan "usd") ∧ q.Priced (planTerms plan "usd") p.amount

instance (rt : CatalogRuntime σ) (view : σ → StripeCatalog) (pins : String → Prop)
    [DecidablePred pins] (w : World σ) : Decidable (SparesPins rt view pins w) :=
  inferInstanceAs (Decidable (_ ∨ _ ∨ ∀ _ ∈ _, ∀ _ ∈ _, _ → ∃ _ ∈ _, _))

theorem pinsMatched_of_fetched {c : StripeCatalog}
    (hfetched : c.Fetched existing (collectLookupKeys rt db)) (husd : "usd" ∈ rt.currencies)
    (h : ∀ plan ∈ db.activePlans, ∀ p ∈ db.priceOfPlan plan, pins p.stripePriceId →
      ∃ q ∈ c.prices.rows, q.id = p.stripePriceId ∧ q.Holds (planLookupKey plan "usd") ∧
        q.Priced (planTerms plan "usd") p.amount) : PinsMatched pins existing db := by
  intro plan hplan p hprice hpin
  obtain ⟨q, hq, hid, hholds, hpriced⟩ := h plan hplan p hprice hpin
  have hkey : planLookupKey plan "usd" ∈ collectLookupKeys rt db := by
    refine List.mem_append_left _ (List.mem_flatMap.mpr ⟨plan, hplan, ?_⟩)
    exact List.mem_map_of_mem husd
  have hne : planLookupKey plan "usd" ≠ "" :=
    @CatalogItem.lookupKey_ne rt.strLower "usd" (.plan plan)
  cases hfound : existing.lookup (planLookupKey plan "usd") with
  | none => exact absurd hholds (hfetched.complete _ hkey hne hfound q hq)
  | some current =>
      obtain ⟨q', hq', product, -, hholds', -, hlisted⟩ := hfetched.entries _ _ hfound
      obtain rfl := StripeCatalog.holder_unique hq hq' hholds hholds'
      replace hlisted : current = q.listed product := hlisted
      subst hlisted
      exact ⟨_, hfound, hid, (StripePrice.priceMatches_listed product).mpr hpriced⟩

/-- A run of the command, however it ends. -/
theorem ends_syncStripeCatalog (hserves : ServesCatalog rt.stripe view)
    (h : SparesPins rt view pins w) :
    (syncStripeCatalog rt).Ends (fun _ t => Spared pins w.db t.db) w := by
  unfold syncStripeCatalog
  split
  next => exact Spared.refl pins w.db
  next hkey =>
      rw [Fallible.ends_bind]
      unfold Fallible.Ends
      rw [exec_query, Fallible.follow_ok]
      obtain ⟨-, existing, t, hexec, hdb, -, hfetched⟩ :=
        exec_bulkFetchExisting hserves (collectLookupKeys rt w.db) w
      have ht : Spared pins w.db t.db := by
        rw [hdb]
        exact .refl pins w.db
      have hmatched : "usd" ∈ rt.currencies → PinsMatched pins existing w.db := by
        intro husd
        refine pinsMatched_of_fetched hfetched husd ?_
        exact (h.resolve_left hkey).resolve_left fun hnone => hnone husd
      rw [Fallible.ends_bind]
      unfold Fallible.Ends
      rw [hexec, Fallible.follow_ok]
      refine Fallible.ends_forM (P := fun t : World σ => Spared pins w.db t.db) ?_ ht
      intro currency hcurrency s hs
      refine Fallible.Ends.keep (P := fun t : World σ => Spared pins w.db t.db) ?_
      refine (ends_syncPlans hs fun husd => hmatched (husd ▸ hcurrency)).mono fun _ r hr => ?_
      exact ⟨hr, fun _ _ => ends_syncProducts hr⟩

end

end Saasmint
