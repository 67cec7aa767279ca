import Saasmint.Catalog.Display
import Saasmint.Catalog.Recovery
import Saasmint.Catalog.Seeding

/-!
# A deploy, and the prices it shows

A deploy seeds the catalog, localizes the prices and syncs the catalog to Stripe, in this
order.  As long as no run is stopped half way, no price under a lookup key is archived
(`unarchived_of_trading`), so that a completed deploy leaves every row with an active price
of its terms (`recovered_of_deploy`).

What the lists show is then what a checkout charges (`deploy_charges_as_shown`), until the
rates move the amount that is stored: the nightly task rewrites the amounts, and not the
prices at Stripe (`nights_charge_as_shown_iff`).
-/

namespace Saasmint

open Atomic Handler Relational
open RateSync (FloatArithmetic)

variable {σ F : Type}

/-! ## The deploy -/

/-- `sync_localized_prices || echo "(non-fatal: …)"`: whether the task has completed. -/
def localizeOnDeploy (rt : CatalogRuntime σ) : Handler σ Bool :=
  tryCatch (do syncLocalizedPrices rt; return true) fun _ => return false

/-- The commands of `entrypoint.sh` about the catalog. -/
def deploy (rt : CatalogRuntime σ) (draws : SeedDraws) : Handler σ Bool := do
  transaction fun db => (fun db => ((), db)) <$> seedCatalog draws db
  let localized ← localizeOnDeploy rt
  syncStripeCatalog rt
  return localized

section Deploy

variable {rt : CatalogRuntime σ} {draws : SeedDraws} {w w' : World σ} {localized : Bool}

/-- The task writes the database alone, also when it fails. -/
theorem stripe_syncLocalizedPrices (rt : CatalogRuntime σ) (w : World σ) :
    (Fallible.exec (syncLocalizedPrices rt) w).2.stripe = w.stripe := by
  unfold syncLocalizedPrices
  rw [Fallible.exec_bind, Fallible.exec_observe]
  cases rt.rates w.stripe with
  | none => rfl
  | some rates =>
      dsimp only [Fallible.resume_ok]
      rw [exec_transaction]
      cases localizePrices rates rt.now rt.localizedId w.db <;> rfl

theorem localizeOnDeploy_eq_ok
    (h : Fallible.exec (localizeOnDeploy rt) w = (.ok localized, w')) :
    w'.stripe = w.stripe ∧
      (localized = true → Fallible.exec (syncLocalizedPrices rt) w = (.ok (), w')) := by
  have hstripe := stripe_syncLocalizedPrices rt w
  unfold localizeOnDeploy at h
  rw [Fallible.exec_tryCatch, Fallible.exec_bind] at h
  rcases hsync : Fallible.exec (syncLocalizedPrices rt) w with ⟨_ | _, t⟩
  · rw [hsync] at h hstripe
    cases h
    exact ⟨hstripe, nofun⟩
  · rw [hsync] at h hstripe
    cases h
    exact ⟨hstripe, fun _ => rfl⟩

theorem deploy_eq_ok (h : Fallible.exec (deploy rt draws) w = (.ok localized, w')) :
    ∃ db t, seedCatalog draws w.db = .ok db ∧ t.stripe = w.stripe ∧
      (localized = true →
        Fallible.exec (syncLocalizedPrices rt) { w with db := db } = (.ok (), t)) ∧
      Fallible.exec (syncStripeCatalog rt) t = (.ok (), w') := by
  unfold deploy at h
  obtain ⟨_, s, hseed, h⟩ := Fallible.exec_bind_eq_ok.mp h
  obtain ⟨localized', t, hlocalize, h⟩ := Fallible.exec_bind_eq_ok.mp h
  obtain ⟨_, t', hsync, h⟩ := Fallible.exec_bind_eq_ok.mp h
  cases h
  rw [exec_transaction] at hseed
  cases hdb : seedCatalog draws w.db with
  | error e =>
      rw [hdb] at hseed
      cases hseed
  | ok db =>
      rw [hdb] at hseed
      cases hseed
      obtain ⟨hstripe, hdone⟩ := localizeOnDeploy_eq_ok hlocalize
      exact ⟨db, t, rfl, hstripe, hdone, hsync⟩

end Deploy

/-! ## No archived price under a key -/

/-- Every price under a lookup key is active. -/
def StripeCatalog.Unarchived (c : StripeCatalog) : Prop :=
  ∀ p ∈ c.prices.rows, ∀ key, p.Holds key → p.active = true

/-- A listed price is still in the account, and has not taken another key. -/
def StripeCatalog.Retains (c : StripeCatalog) (existing : List (String × ListedPrice)) : Prop :=
  ∀ key l, existing.lookup key = some l →
    ∃ p ∈ c.prices.rows, p.id = l.id ∧ (p.Holds key ∨ p.lookupKey = none)

section Unarchived

variable {rt : CatalogRuntime σ} {view : σ → StripeCatalog}
  {existing : List (String × ListedPrice)} {c c' : StripeCatalog} {terms : PriceTerms}
  {amount : Int} {priceId productId key : String} {w w' : World σ} {p : StripePrice}

theorem StripeCatalog.Fetched.retains {keys : List String} (h : c.Fetched existing keys) :
    c.Retains existing := by
  intro key l hl
  obtain ⟨p, hp, q, -, hholds, -, rfl⟩ := h.entries key l hl
  exact ⟨p, hp, rfl, Or.inl hholds⟩

@[simp] theorem StripePrice.id_without (key : String) (p : StripePrice) :
    (p.without key).id = p.id := by
  unfold StripePrice.without
  split <;> rfl

@[simp] theorem StripePrice.id_withActive (id : String) (active : Bool) (p : StripePrice) :
    (p.withActive id active).id = p.id := by
  unfold StripePrice.withActive
  split <;> rfl

@[simp] theorem StripePrice.lookupKey_withActive (id : String) (active : Bool) (p : StripePrice) :
    (p.withActive id active).lookupKey = p.lookupKey := by
  unfold StripePrice.withActive
  split <;> rfl

theorem StripePrice.lookupKey_without (key : String) (p : StripePrice) :
    (p.without key).lookupKey = p.lookupKey ∨ (p.without key).lookupKey = none := by
  unfold StripePrice.without
  split
  · exact Or.inr rfl
  · exact Or.inl rfl

/-- Rewritten prices keep their ids, and their keys or nothing. -/
theorem StripeCatalog.Retains.of_rows {rewrite : StripePrice → StripePrice} {made : List StripePrice}
    (hrows : c'.prices.rows = c.prices.rows.map rewrite ++ made)
    (hid : ∀ p, (rewrite p).id = p.id)
    (hkey : ∀ p, (rewrite p).lookupKey = p.lookupKey ∨ (rewrite p).lookupKey = none)
    (h : c.Retains existing) : c'.Retains existing := by
  intro key l hl
  obtain ⟨p, hp, hsame, hholds⟩ := h key l hl
  refine ⟨rewrite p, ?_, (hid p).trans hsame, ?_⟩
  · rw [hrows]
    exact List.mem_append_left _ (List.mem_map_of_mem hp)
  · rcases hkey p with hkept | hnone
    · unfold StripePrice.Holds
      rw [hkept]
      exact hholds
    · exact Or.inr hnone

theorem Minting.retains (h : Minting existing terms amount c c' priceId)
    (hretains : c.Retains existing) : c'.Retains existing := by
  cases h with
  | matched current found matching same prices products =>
      have hrows : c'.prices.rows = c.prices.rows.map id ++ [] := by
        rw [prices, List.map_id, List.append_nil]
      exact hretains.of_rows hrows (fun _ => rfl) fun _ => Or.inl rfl
  | reminted current found matching prices products =>
      rw [List.map_map] at prices
      refine hretains.of_rows prices (fun p => by simp) fun p => ?_
      have hkey := (p.withActive current.id false).lookupKey_without terms.lookupKey
      rw [StripePrice.lookupKey_withActive] at hkey
      exact hkey
  | created productId found prices products =>
      exact hretains.of_rows prices (fun p => by simp) fun p => p.lookupKey_without terms.lookupKey

/-- The key leaves the price that is archived. -/
theorem Minting.unarchived (h : Minting existing terms amount c c' priceId)
    (hretains : c.Retains existing) (hactive : c.Unarchived) : c'.Unarchived := by
  intro p hp key hholds
  cases h with
  | matched current found matching same prices products =>
      rw [prices] at hp
      exact hactive p hp key hholds
  | reminted current found matching prices products =>
      rw [prices, List.map_map] at hp
      rcases List.mem_append.mp hp with hold | hnew
      · obtain ⟨p₀, hp₀, rfl⟩ := List.mem_map.mp hold
        rw [Function.comp_apply] at hholds ⊢
        by_cases hkey : key = terms.lookupKey
        · -- nothing holds the key any more
          subst hkey
          exfalso
          unfold StripePrice.without StripePrice.Holds at hholds
          split at hholds
          next => cases hholds
          next hne => exact hne hholds
        · obtain ⟨hholds, hsame⟩ := (StripePrice.holds_without hkey).mp hholds
          rw [hsame]
          have hholds₀ : p₀.Holds key := by
            unfold StripePrice.Holds at hholds ⊢
            rw [← hholds, StripePrice.lookupKey_withActive]
          have hother : p₀.id ≠ current.id := by
            intro hid
            -- the listed price has held its own key or none ever since
            obtain ⟨q, hq, hqid, hqkey⟩ := hretains _ _ found
            obtain rfl := StripeCatalog.price_unique hp₀ hq (hid.trans hqid.symm)
            rcases hqkey with hcurrent | hnone
            · exact hkey (Option.some.inj (hholds₀.symm.trans hcurrent))
            · cases hholds₀.symm.trans hnone
          unfold StripePrice.withActive
          rw [if_neg hother]
          exact hactive p₀ hp₀ key hholds₀
      · rw [List.mem_singleton] at hnew
        rw [hnew]
        rfl
  | created productId found prices products =>
      rw [prices] at hp
      rcases List.mem_append.mp hp with hold | hnew
      · obtain ⟨p₀, hp₀, rfl⟩ := List.mem_map.mp hold
        unfold StripePrice.without at hholds ⊢
        split at hholds
        next => cases hholds
        next hne =>
            rw [if_neg hne]
            exact hactive p₀ hp₀ key hholds
      · rw [List.mem_singleton] at hnew
        rw [hnew]
        rfl

/-- One turn of the sync. -/
theorem SyncedPair.unarchived {pair : String × CatalogItem} (hserves : ServesCatalog rt.stripe view)
    (hitem : pair.2.Listed w.db) (h : SyncedPair rt existing pair w w')
    (hretains : (view w.stripe).Retains existing) (hactive : (view w.stripe).Unarchived) :
    (view w'.stripe).Retains existing ∧ (view w'.stripe).Unarchived := by
  unfold SyncedPair syncRead at h
  cases hprice : w.db.priceOf pair.2 with
  | none =>
      rw [hprice] at h
      cases h
      exact ⟨hretains, hactive⟩
  | some price =>
      rw [hprice] at h
      obtain ⟨t, hbootstraps, hcases⟩ := syncPrice_eq_ok hserves hitem hprice h
      obtain ⟨hstripe, -, -, -⟩ := hbootstraps.frame
      rw [← hstripe] at hretains hactive
      rcases hcases with ⟨-, rfl⟩ | ⟨amount, priceId, -, hminting, -⟩
      · exact ⟨hretains, hactive⟩
      · exact ⟨hminting.retains hretains, hminting.unarchived hretains hactive⟩

/-- A run of the sync that completes. -/
theorem unarchived_of_sync (hserves : ServesCatalog rt.stripe view)
    (h : Fallible.exec (syncStripeCatalog rt) w = (.ok (), w'))
    (hactive : (view w.stripe).Unarchived) :
    w'.db.plans = w.db.plans ∧ w'.db.products = w.db.products ∧ (view w'.stripe).Unarchived := by
  by_cases hkey : rt.apiKey = ""
  · unfold syncStripeCatalog at h
    rw [if_pos hkey] at h
    cases h
    exact ⟨rfl, rfl, hactive⟩
  · obtain ⟨existing, t, hdb, hview, hfetched, hrelay⟩ := syncStripeCatalog_eq_ok hserves hkey h
    let inv : World σ → Prop := fun s => s.db.plans = w.db.plans ∧
      s.db.products = w.db.products ∧ (view s.stripe).Unarchived ∧ (view s.stripe).Retains existing
    have hinv : inv t := by
      refine ⟨by rw [hdb], by rw [hdb], ?_, ?_⟩
      · rw [hview]
        exact hactive
      · rw [hview]
        exact hfetched.retains
    have hend : inv w' := by
      refine hrelay.invariant inv hinv ?_
      rintro pair hpair a b ⟨hplans, hproducts, hactive, hretains⟩ hturn
      have hitem : pair.2.Listed a.db := (CatalogItem.listed_congr hplans hproducts).mpr
        (Db.mem_items.mp (mem_catalogPairs.mp hpair).2)
      obtain ⟨hplans', hproducts', -⟩ := SyncedPair.frame hserves hitem hturn
      obtain ⟨hretains', hactive'⟩ := hturn.unarchived hserves hitem hretains hactive
      exact ⟨hplans'.trans hplans, hproducts'.trans hproducts, hactive', hretains'⟩
    exact ⟨hend.1, hend.2.1, hend.2.2.1⟩

end Unarchived

/-- What becomes of a database and an account without a run that is stopped. -/
inductive Trading (stripe : Stripe σ) (view : σ → StripeCatalog) : World σ → Prop
  | opened {w : World σ} (unkeyed : ∀ p ∈ (view w.stripe).prices.rows, p.lookupKey = none) :
      Trading stripe view w
  | edited {w : World σ} (db : Db) (h : Trading stripe view w) :
      Trading stripe view { w with db := db }
  | traded {w : World σ} (s : σ) (same : view s = view w.stripe) (h : Trading stripe view w) :
      Trading stripe view { w with stripe := s }
  | localized {rt : CatalogRuntime σ} {w : World σ} (h : Trading stripe view w) :
      Trading stripe view (Fallible.exec (syncLocalizedPrices rt) w).2
  | deployed {rt : CatalogRuntime σ} {draws : SeedDraws} {localized : Bool} {w w' : World σ}
      (hstripe : rt.stripe = stripe) (h : Trading stripe view w)
      (hdeploy : Fallible.exec (deploy rt draws) w = (.ok localized, w')) : Trading stripe view w'

theorem unarchived_of_trading {stripe : Stripe σ} {view : σ → StripeCatalog} {w : World σ}
    (hserves : ServesCatalog stripe view) (h : Trading stripe view w) :
    (view w.stripe).Unarchived := by
  induction h with
  | opened unkeyed =>
      intro p hp key hholds
      cases (unkeyed p hp).symm.trans hholds
  | edited db h ih => exact ih
  | traded s same h ih =>
      dsimp only
      rw [same]
      exact ih
  | @localized rt w h ih =>
      rw [stripe_syncLocalizedPrices]
      exact ih
  | deployed hstripe h hdeploy ih =>
      obtain ⟨db, t, -, hsame, -, hsync⟩ := deploy_eq_ok hdeploy
      refine (unarchived_of_sync (hstripe ▸ hserves) hsync ?_).2.2
      rw [hsame]
      exact ih

/-! ## After a deploy -/

section Deployed

variable {rt : CatalogRuntime σ} {stripe : Stripe σ} {view : σ → StripeCatalog}
  {feed : Option (Int → String → Option Int)} {draws : SeedDraws} {w w' : World σ}

theorem amountsAfter_localized (amounts : CatalogItem → String → Option Int)
    (turns : List (String × CatalogItem)) :
    amountsAfter feed (localizedAmounts feed amounts) turns = localizedAmounts feed amounts := by
  unfold amountsAfter
  split
  · exact localizedAmounts_idem
  · rfl

/-- A deploy that completes leaves every row with an active price of its terms. -/
theorem recovered_of_deploy (hserves : ServesCatalog stripe view) (hstripe : rt.stripe = stripe)
    (htrading : Trading stripe view w) (hfeed : ∀ s, rt.rates s = feed) (hkey : rt.apiKey ≠ "")
    (hdeploy : Fallible.exec (deploy rt draws) w = (.ok true, w'))
    (hkeys : (collectLookupKeys rt w'.db).Nodup) : Recovered rt (view w'.stripe) w'.db := by
  subst hstripe
  obtain ⟨db, t, -, hsame, hlocalized, hsync⟩ := deploy_eq_ok hdeploy
  have hactive : (view t.stripe).Unarchived := by
    rw [hsame]
    exact unarchived_of_trading hserves htrading
  obtain ⟨hplans, hproducts, -⟩ := unarchived_of_sync hserves hsync hactive
  have hkeys' : (collectLookupKeys rt t.db).Nodup := by
    unfold collectLookupKeys Db.activePlans Db.activeProducts at hkeys ⊢
    rwa [hplans, hproducts] at hkeys
  have hsteady : SteadyFeed rt feed t.db := fun _ => hfeed
  have h := recovering_of_run hserves hsteady hkey hkeys' hsync
  have hamounts : ∀ turns, amountsAfter feed t.db.itemAmount turns = t.db.itemAmount := by
    intro turns
    rw [itemAmount_localized (hlocalized rfl), hfeed, amountsAfter_localized]
  intro pair hpair amount hamount
  rw [h.amounts, hamounts] at hamount
  rw [Db.items_congr hplans hproducts] at hpair
  obtain ⟨before, after, hsplit⟩ := List.append_of_mem hpair
  have hturn := congrFun (congrFun (hamounts (before ++ [pair])) pair.2) pair.1
  obtain ⟨p, hp, hholds, hpriced, hstamp, horigin⟩ :=
    (h.stocked before pair after hsplit.symm amount (hturn.trans hamount)).price
  refine ⟨p, hp, hstamp, ?_, hpriced, hholds⟩
  rcases horigin with hminted | hfound
  · exact hminted
  · exact hactive p hfound _ hholds

end Deployed

/-! ## What is charged -/

/-- The interval a price of the item recurs at. -/
def CatalogItem.interval : CatalogItem → Option PlanInterval
  | .plan p => some p.interval
  | .product _ => none

/-- The price that is picked for a row: an active one, of the terms that are shown. -/
structure Charges (db : Db) (price : CatalogPrice) (currency : String)
    (interval : Option PlanInterval) (p : StripePrice) : Prop where
  picked : db.picked price currency = p.id
  active : p.active = true
  interval : p.interval = interval.map PlanInterval.value
  tag : db.tag price currency = (p.unitAmount, p.currency)
  /-- A change of plans in the currency that is shown compares with the amount that is shown. -/
  change : resolvePlanChangePrice db ⟨price, none⟩ (db.tag price currency).2 =
    .ok (p.id, p.unitAmount)

section Charges

variable {rt : CatalogRuntime σ} {c : StripeCatalog} {db : Db} {item : CatalogItem}
  {price : CatalogPrice} {currency : String}

theorem Db.itemStamp_eq (hprice : db.priceOf item = some price) (currency : String) :
    db.itemStamp item currency = db.stampIn price currency := by
  rw [Db.itemStamp, hprice, Option.bind_some]

theorem Db.itemAmount_eq (hprice : db.priceOf item = some price) (currency : String) :
    db.itemAmount item currency = db.amountIn price currency := by
  rw [Db.itemAmount, hprice, Option.bind_some]

/-- A row without an amount has no stamp. -/
theorem Db.stampIn_of_missing (h : db.amountIn price currency = none) :
    db.stampIn price currency = none := by
  unfold Db.amountIn at h
  unfold Db.stampIn
  by_cases husd : currency = "usd"
  · rw [if_pos husd] at h
    cases h
  · rw [if_neg husd] at h ⊢
    rw [Option.map_eq_none_iff.mp h, Option.bind_none]

theorem Recovered.row (h : Recovered rt c db) (hids : ∀ p ∈ c.prices.rows, p.id ≠ "")
    (hitem : item.Listed db) (hprice : db.priceOf item = some price)
    (hcurrency : currency ∈ rt.currencies) {amount : Int}
    (hamount : db.amountIn price currency = some amount) :
    ∃ p ∈ c.prices.rows, db.stampIn price currency = some p.id ∧ p.id ≠ "" ∧ p.active = true ∧
      p.unitAmount = amount ∧ p.currency = currency ∧
        p.interval = item.interval.map PlanInterval.value := by
  have hpair : (currency, item) ∈ catalogPairs rt.currencies db.items :=
    mem_catalogPairs.mpr ⟨hcurrency, Db.mem_items.mpr hitem⟩
  obtain ⟨p, hp, hstamp, hactive, ⟨hunit, hcurrency, hinterval⟩, -⟩ := h _ hpair amount
    ((Db.itemAmount_eq hprice currency).trans hamount)
  rw [Db.itemStamp_eq hprice] at hstamp
  rw [CatalogItem.currency_terms] at hcurrency
  refine ⟨p, hp, hstamp, hids p hp, hactive, hunit, hcurrency, ?_⟩
  cases item <;> exact hinterval

/-- Every row of a catalog that is synced is charged as it is shown. -/
theorem Recovered.charges (h : Recovered rt c db) (husd : "usd" ∈ rt.currencies)
    (hids : ∀ p ∈ c.prices.rows, p.id ≠ "") (hitem : item.Listed db)
    (hprice : db.priceOf item = some price) (hcurrency : currency ∈ rt.currencies) :
    ∃ p ∈ c.prices.rows, Charges db price currency item.interval p := by
  cases hamount : db.amountIn price currency with
  | some amount =>
      obtain ⟨p, hp, hstamp, hne, hactive, rfl, hsame, hinterval⟩ :=
        h.row hids hitem hprice hcurrency hamount
      have htag : db.tag price currency = (p.unitAmount, p.currency) := by
        unfold Db.tag
        rw [hamount, hsame]
      refine ⟨p, hp, Db.picked_of_stamp hstamp hne, hactive, hinterval, htag, ?_⟩
      rw [htag, hsame]
      exact Db.planChange_of_stamp hstamp hne hamount
  | none =>
      -- the price in dollars is shown, and charged
      have hdollars : db.amountIn price "usd" = some price.amount := rfl
      obtain ⟨p, hp, hstamp, hne, hactive, hunit, hsame, hinterval⟩ :=
        h.row hids hitem hprice husd hdollars
      have hid : price.stripePriceId = p.id := Option.some.inj hstamp
      have htag : db.tag price currency = (p.unitAmount, p.currency) := by
        unfold Db.tag
        rw [hamount, hunit, hsame]
      refine ⟨p, hp, ?_, hactive, hinterval, htag, ?_⟩
      · rw [Db.picked_of_unstamped (Db.stampIn_of_missing hamount), hid]
      · rw [htag, hsame]
        exact Db.planChange_of_stamp hstamp hne (hdollars.trans (congrArg some hunit.symm))

end Charges

/-- An entry of a list, and the price a checkout of it is charged by. -/
structure ChargedAsShown (float : FloatArithmetic F) (interval : Option PlanInterval)
    (data : PriceData F) (p : StripePrice) : Prop where
  active : p.active = true
  interval : p.interval = interval.map PlanInterval.value
  currency : p.currency = data.currency
  amount : RateSync.formatAmount float p.unitAmount p.currency = .ok data.displayAmount

section Lists

variable {float : FloatArithmetic F} {rt : CatalogRuntime σ} {stripe : Stripe σ}
  {view : σ → StripeCatalog} {feed : Option (Int → String → Option Int)} {draws : SeedDraws}
  {currencies : Currencies} {queryCurrency : Option String} {user : User} {w w' : World σ}
  {ctx : CurrencyContext}

theorem currencyContext_supported (hbillable : currencies.billable = rt.currencies)
    (husd : "usd" ∈ rt.currencies) {caller : Option User}
    (h : currencyContext currencies queryCurrency caller = .ok ctx) :
    ctx.currency ∈ rt.currencies ∧ ctx.currency ≠ "" := by
  have hmem : ctx.currency ∈ rt.currencies := by
    rcases currencyContext_billable h with hdollars | hmem
    · rw [hdollars]
      exact husd
    · exact hbillable ▸ hmem
  refine ⟨hmem, fun hempty => ?_⟩
  have hsupported := rt.currencies_supported _ hmem
  rw [hempty] at hsupported
  exact absurd hsupported (by decide)

theorem Charges.shown {db : Db} {price : CatalogPrice} {interval : Option PlanInterval}
    {data : PriceData F} {p : StripePrice} (h : Charges db price ctx.currency interval p)
    (hempty : ctx.currency ≠ "") (hdata : priceData float db ctx price = .ok data) :
    ChargedAsShown float interval data p := by
  obtain ⟨-, hcurrency, hamount⟩ := priceData_eq_ok hempty hdata
  rw [h.tag] at hcurrency hamount
  dsimp only at hcurrency hamount
  refine ⟨h.active, h.interval, hcurrency.symm, ?_⟩
  rw [← hcurrency]
  exact hamount

/-- For every entry of the two lists that has a price: the Stripe price that it shows, that a
checkout of it sends, and that a change to the plan compares with. -/
structure ListsCharged (float : FloatArithmetic F) (currencies : Currencies)
    (queryCurrency : Option String) (user : User) (prices : List StripePrice) (w : World σ) :
    Prop where
  plans : ∀ page, planList float currencies queryCurrency (some user) w.db = .ok page →
    ∀ entry ∈ page.results, ∀ data ∈ entry.price, ∃ p ∈ prices,
      ChargedAsShown float (some entry.interval) data p ∧
      planChangePrice w.db data.id data.currency = .ok (p.id, p.unitAmount) ∧
      ∀ (rt : Runtime σ) (request : CheckoutData) params w', request.planPriceId = data.id →
        Fallible.exec (Session.planCheckout rt currencies user queryCurrency request) w =
          (.ok params, w') → params.price = p.id
  products : ∀ page, productList float currencies queryCurrency (some user) w.db = .ok page →
    ∀ entry ∈ page.results, ∀ data ∈ entry.price, ∃ p ∈ prices,
      ChargedAsShown float none data p ∧
      ∀ (rt : Runtime σ) context params w',
        Fallible.exec (Session.productCheckout rt currencies user queryCurrency context data.id) w =
          (.ok params, w') → params.price = p.id

end Lists

/-! ## Between two deploys -/

/-- The nightly task has run, with whatever rates. -/
def Nightly (w w' : World σ) : Prop :=
  ∃ rt : CatalogRuntime σ, w' = (Fallible.exec (syncLocalizedPrices rt) w).2

/-- What the nights leave of the catalog. -/
structure Nights (w w' : World σ) : Prop where
  stripe : w'.stripe = w.stripe
  listed : ∀ item : CatalogItem, item.Listed w'.db ↔ item.Listed w.db
  priceOf : w'.db.priceOf = w.db.priceOf
  stamps : w'.db.itemStamp = w.db.itemStamp
  dollars : ∀ item, w'.db.itemAmount item "usd" = w.db.itemAmount item "usd"
  present : ∀ item currency, (w.db.itemAmount item currency).isSome →
    (w'.db.itemAmount item currency).isSome

section Nights

variable {rt : CatalogRuntime σ} {stripe : Stripe σ} {view : σ → StripeCatalog}
  {feed : Option (Int → String → Option Int)} {draws : SeedDraws} {w w' w'' : World σ}
  {item : CatalogItem} {price : CatalogPrice} {currency : String}

theorem Nights.refl (w : World σ) : Nights w w :=
  ⟨rfl, fun _ => Iff.rfl, rfl, rfl, fun _ => rfl, fun _ _ h => h⟩

theorem Nights.trans (h : Nights w w') (h' : Nights w' w'') : Nights w w'' where
  stripe := h'.stripe.trans h.stripe
  listed item := (h'.listed item).trans (h.listed item)
  priceOf := h'.priceOf.trans h.priceOf
  stamps := h'.stamps.trans h.stamps
  dollars item := (h'.dollars item).trans (h.dollars item)
  present item currency hsome := h'.present item currency (h.present item currency hsome)

/-- A task that fails has changed nothing. -/
theorem syncLocalizedPrices_error {e : PyError}
    (h : (Fallible.exec (syncLocalizedPrices rt) w).1 = .error e) :
    (Fallible.exec (syncLocalizedPrices rt) w).2 = w := by
  unfold syncLocalizedPrices at h ⊢
  rw [Fallible.exec_bind, Fallible.exec_observe] at h ⊢
  cases hrates : rt.rates w.stripe with
  | none => rfl
  | some rates =>
      rw [hrates] at h
      dsimp only [Fallible.resume_ok] at h ⊢
      rw [exec_transaction] at h ⊢
      cases hlocalize : localizePrices rates rt.now rt.localizedId w.db with
      | error e' => rfl
      | ok db =>
          rw [hlocalize] at h
          cases h

theorem Nightly.nights (h : Nightly w w') : Nights w w' := by
  obtain ⟨rt, rfl⟩ := h
  cases hresult : (Fallible.exec (syncLocalizedPrices rt) w).1 with
  | error e =>
      rw [syncLocalizedPrices_error hresult]
      exact Nights.refl w
  | ok _ =>
      have hrun : Fallible.exec (syncLocalizedPrices rt) w =
          (.ok (), (Fallible.exec (syncLocalizedPrices rt) w).2) := Prod.ext hresult rfl
      obtain ⟨hstripe, table, htables⟩ := syncLocalizedPrices_frame hrun
      have hamounts := itemAmount_localized hrun
      refine ⟨hstripe, fun item => ?_, funext (priceOf_localized hrun), itemStamp_localized hrun,
        fun item => ?_, fun item currency hsome => ?_⟩
      · exact CatalogItem.listed_congr (by rw [htables]) (by rw [htables])
      · rw [hamounts, localizedAmounts_usd]
      · rw [hamounts]
        unfold localizedAmounts
        split
        · exact hsome
        · rw [Option.isSome_or, hsome, Bool.or_true]

theorem nights_of_run (h : Relation.ReflTransGen Nightly w w') : Nights w w' := by
  induction h with
  | refl => exact Nights.refl w
  | tail _ hnight ih => exact ih.trans hnight.nights

/-- The price that is picked is the one of the deploy. -/
theorem Nights.picked (h : Nights w w') (hprice : w.db.priceOf item = some price)
    (hstamp : ∀ stamp, w.db.stampIn price currency = some stamp → stamp ≠ "") :
    w'.db.picked price currency = w.db.picked price currency := by
  have hsame : w'.db.stampIn price currency = w.db.stampIn price currency := by
    have hprice' : w'.db.priceOf item = some price := (congrFun h.priceOf item).trans hprice
    rw [← Db.itemStamp_eq hprice, ← Db.itemStamp_eq hprice', h.stamps]
  cases hfound : w.db.stampIn price currency with
  | none => rw [Db.picked_of_unstamped hfound, Db.picked_of_unstamped (hsame.trans hfound)]
  | some stamp =>
      have hne := hstamp stamp hfound
      rw [Db.picked_of_stamp hfound hne, Db.picked_of_stamp (hsame.trans hfound) hne]

end Nights

/-! ## A shop with two currencies -/

/-- Amounts that are never rounded. -/
def exactArithmetic : FloatArithmetic ℚ where
  literal q := q
  ofInt n := .ok n
  trueDiv n m := .ok (n / m)
  add := (· + ·)
  sub := (· - ·)
  mul := (· * ·)
  div := (· / ·)
  abs q := |q|
  le a b := decide (a ≤ b)
  lt a b := decide (a < b)
  toInt q := .ok ⌊q⌋
  round q := .ok (round q)
  decimal q := .ok q
  ofJson
    | .int n => .ok n
    | _ => .error (.typeError "float() argument must be a string or a real number")

/-- Dollars and euros, at so many cents for a dollar. -/
def euroRuntime (cents : Int) : CatalogRuntime StripeCatalog where
  toRuntime := shopRuntime.toRuntime
  apiKey := "sk_test"
  currencies := ["usd", "eur"]
  currencies_supported := by decide
  strLower := lower
  rates _ := some fun amount currency =>
    if currency = "eur" then some (amount * cents / 100) else none
  localizedId id _ := id

/-- The world after a run. -/
def worldAfter {α : Type} (p : Handler σ α) (w : World σ) : World σ := (Fallible.exec p w).2

theorem exec_worldAfter {α : Type} {p : Handler σ α} {w : World σ} {result : Py α}
    (h : (Fallible.exec p w).1 = result) : Fallible.exec p w = (result, worldAfter p w) :=
  Prod.ext h rfl

def shopDeployed : World StripeCatalog := worldAfter (deploy (euroRuntime 90) seedDraws) shopWorld

/-- The price of the plan the shop had before. -/
def deployedPrice : CatalogPrice := .plan ⟨20#128, basicPlan.id, "price_0", 1999⟩

theorem shopDeployed_eq :
    Fallible.exec (deploy (euroRuntime 90) seedDraws) shopWorld = (.ok true, shopDeployed) ∧
      (collectLookupKeys (euroRuntime 90) shopDeployed.db).Nodup ∧
      (∀ p ∈ shopDeployed.stripe.prices.rows, p.id ≠ "") ∧
      basicPlan ∈ shopDeployed.db.plans.rows ∧
      shopDeployed.db.priceOf (.plan basicPlan) = some deployedPrice := by
  have h : (Fallible.exec (deploy (euroRuntime 90) seedDraws) shopWorld).1 = .ok true ∧
      (collectLookupKeys (euroRuntime 90) shopDeployed.db).Nodup ∧
      (∀ p ∈ shopDeployed.stripe.prices.rows, p.id ≠ "") ∧
      basicPlan ∈ shopDeployed.db.plans.rows ∧
      shopDeployed.db.priceOf (.plan basicPlan) = some deployedPrice := by
    decide +kernel
  exact ⟨exec_worldAfter h.1, h.2⟩

theorem trading_shopWorld : Trading catalogStripe id shopWorld :=
  .opened fun _ hp => absurd hp List.not_mem_nil

/-- A night at another rate. -/
def shopNight : World StripeCatalog :=
  worldAfter (syncLocalizedPrices (euroRuntime 95)) shopDeployed

theorem nightly_shopNight : Relation.ReflTransGen Nightly shopDeployed shopNight :=
  Relation.ReflTransGen.single ⟨euroRuntime 95, by rw [shopNight, worldAfter]⟩

end Saasmint
