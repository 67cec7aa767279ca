import Saasmint.Catalog.Idempotence
import Saasmint.Catalog.SampleAccount

/-!
# The second run

A run over a catalog that is in sync reads the rows and the listing, and for every
pair compares.  It is silent if every comparison finds what it looks for; a turn that
is silent changes nothing, so that the turns can be judged one by one, all of them in
the world the run starts from.
-/

namespace Saasmint

open Atomic Handler Relational

variable {σ : Type}

/-! ## Silent turns -/

section Silent

variable {rt : CatalogRuntime σ} {w : World σ} {existing : List (String × ListedPrice)}
  {item : CatalogItem} {price : CatalogPrice} {terms : PriceTerms} {currency : String}
  {amount : Int} {l : ListedPrice}

@[simp] theorem logsOnly_query {α : Type} (f : Db → α) :
    (query f : Handler σ α).LogsOnly Action.Reads w :=
  Fallible.logsOnly_observe.mpr trivial

theorem productUpdate_eq_nothing {q : StripeProduct} (h : Described terms q) :
    productUpdate (.loaded q) terms = ⟨none, none, none⟩ ↔ q.name = terms.productName := by
  obtain ⟨hdescription, hmetadata⟩ := h
  have hname : (productUpdate (.loaded q) terms).name = none ↔ q.name = terms.productName := by
    unfold productUpdate ProductRef.existingName
    by_cases hsame : q.name = terms.productName
    · simp [hsame]
    · simp [hsame]
  rw [← hname]
  constructor
  · intro hnothing
    rw [hnothing]
  · intro hnone
    cases hupdate : productUpdate (.loaded q) terms with
    | mk name description metadata =>
        rw [hupdate] at hdescription hmetadata hnone
        exact ProductParams.mk.injEq .. ▸ ⟨hnone, hdescription, hmetadata⟩

variable (rt) in
theorem unitAmountFor_present (h : w.db.amountIn price currency = some amount) :
    Fallible.exec (unitAmountFor rt price currency) w = (.ok (some amount), w) ∧
      (unitAmountFor rt price currency).LogsOnly Action.Reads w := by
  unfold unitAmountFor
  unfold Db.amountIn at h
  split at h
  next husd =>
      rw [if_pos husd, ← h]
      exact ⟨rfl, Fallible.logsOnly_pure⟩
  next husd =>
      rw [if_neg husd]
      obtain ⟨row, hrow, hamount⟩ := Option.map_eq_some_iff.mp h
      constructor
      · rw [Fallible.exec_bind, exec_query, Fallible.resume_ok, hrow, ← hamount]
        rfl
      · rw [Fallible.logsOnly_bind]
        refine ⟨logsOnly_query _, fun found t hread => ?_⟩
        obtain ⟨rfl, rfl⟩ := query_eq_ok hread
        rw [hrow]
        exact Fallible.logsOnly_pure

theorem syncStripeProduct_silent {ref : ProductRef} :
    (syncStripeProduct rt ref terms).LogsOnly Action.Reads w ↔
      productUpdate ref terms = ⟨none, none, none⟩ := by
  unfold syncStripeProduct
  dsimp only
  split
  next hnothing => exact iff_of_true Fallible.logsOnly_pure hnothing
  next hupdate =>
      refine iff_of_false (fun hlogs => ?_) hupdate
      exact Fallible.logsOnly_atomic.mp (Fallible.logsOnly_bind.mp hlogs).1

theorem exec_syncStripeProduct {ref : ProductRef}
    (h : productUpdate ref terms = ⟨none, none, none⟩) :
    Fallible.exec (syncStripeProduct rt ref terms) w = (.ok (), w) := by
  unfold syncStripeProduct
  dsimp only
  rw [if_pos h]
  rfl

theorem writePriceId_stamped {priceId : String}
    (h : w.db.stampIn price currency = some priceId) :
    Fallible.exec (writePriceId price priceId currency) w = (.ok (), w) ∧
      (writePriceId price priceId currency : Handler σ Unit).LogsOnly Action.Reads w := by
  unfold writePriceId
  unfold Db.stampIn at h
  split at h
  next husd =>
      rw [if_pos husd, if_pos (Option.some.inj h).symm]
      exact ⟨rfl, Fallible.logsOnly_pure⟩
  next husd =>
      rw [if_neg husd]
      obtain ⟨row, hrow, hstamp⟩ := Option.bind_eq_some_iff.mp h
      constructor
      · rw [Fallible.exec_bind, exec_query, Fallible.resume_ok, hrow]
        dsimp only
        rw [if_pos hstamp]
        rfl
      · rw [Fallible.logsOnly_bind]
        refine ⟨logsOnly_query _, fun found t hread => ?_⟩
        obtain ⟨rfl, rfl⟩ := query_eq_ok hread
        rw [hrow]
        dsimp only
        rw [if_pos hstamp]
        exact Fallible.logsOnly_pure

variable (rt) in
/-- The turn of a pair whose price and stamp are right is decided by the product. -/
theorem syncPrice_silent (hamount : w.db.amountIn price terms.currency = some amount)
    (hfound : existing.lookup terms.lookupKey = some l)
    (hmatch : priceMatches l amount terms = true)
    (hstamp : w.db.stampIn price terms.currency = some l.id) :
    ((syncPrice rt price terms existing).LogsOnly Action.Reads w ↔
        productUpdate (.loaded l.product) terms = ⟨none, none, none⟩) ∧
      (productUpdate (.loaded l.product) terms = ⟨none, none, none⟩ →
        Fallible.exec (syncPrice rt price terms existing) w = (.ok (), w)) := by
  obtain ⟨hunit, hunitLogs⟩ := unitAmountFor_present rt hamount
  obtain ⟨hwrite, hwriteLogs⟩ := writePriceId_stamped hstamp
  have hupsert : upsertPrice rt terms amount existing = (do
      syncStripeProduct rt (.loaded l.product) terms
      return l.id) := by
    unfold upsertPrice
    rw [hfound]
    dsimp only
    rw [hmatch, if_pos rfl]
  unfold syncPrice
  constructor
  · rw [Fallible.logsOnly_bind, hunit]
    constructor
    · rintro ⟨-, hrest⟩
      have hturn := (Fallible.logsOnly_bind.mp (hrest _ _ rfl)).1
      rw [hupsert] at hturn
      exact syncStripeProduct_silent.mp (Fallible.logsOnly_bind.mp hturn).1
    · intro hnothing
      refine ⟨hunitLogs, fun found t hsame => ?_⟩
      cases hsame
      rw [Fallible.logsOnly_bind, hupsert]
      constructor
      · rw [Fallible.logsOnly_bind]
        exact ⟨syncStripeProduct_silent.mpr hnothing, fun _ _ _ => Fallible.logsOnly_pure⟩
      · intro priceId t hexec
        rw [Fallible.exec_bind, exec_syncStripeProduct hnothing, Fallible.resume_ok] at hexec
        cases hexec
        exact hwriteLogs
  · intro hnothing
    rw [Fallible.exec_bind, hunit, Fallible.resume_ok]
    dsimp only
    rw [hupsert, Fallible.exec_bind, Fallible.exec_bind, exec_syncStripeProduct hnothing]
    exact hwrite

end Silent

/-! ## Silent loops -/

section Loops

variable {rt : CatalogRuntime σ} {w : World σ} {existing : List (String × ListedPrice)}

/-- The turn of a pair performs no write. -/
def SilentTurn (rt : CatalogRuntime σ) (existing : List (String × ListedPrice)) (w : World σ)
    (pair : String × CatalogItem) : Prop :=
  (syncRead rt existing pair (w.db.priceOf pair.2)).LogsOnly Action.Reads w

/-- A silent turn changes nothing. -/
def StaysWhenSilent (rt : CatalogRuntime σ) (existing : List (String × ListedPrice)) (w : World σ)
    (pair : String × CatalogItem) : Prop :=
  SilentTurn rt existing w pair →
    Fallible.exec (syncRead rt existing pair (w.db.priceOf pair.2)) w = (.ok (), w)

/-- A loop over rows that are read at its start. -/
theorem silent_rows {α : Type} (f : Db → List α) (pairOf : α → String × CatalogItem)
    (read : α → Option CatalogPrice)
    (hread : ∀ row ∈ f w.db, read row = w.db.priceOf (pairOf row).2)
    (hstay : ∀ row ∈ f w.db, StaysWhenSilent rt existing w (pairOf row)) :
    ((query f >>= fun rows => rows.forM fun row => syncRead rt existing (pairOf row) (read row) :
        Handler σ Unit).LogsOnly Action.Reads w ↔
      ∀ row ∈ f w.db, SilentTurn rt existing w (pairOf row)) ∧
    ((∀ row ∈ f w.db, SilentTurn rt existing w (pairOf row)) →
      Fallible.exec (query f >>= fun rows =>
        rows.forM fun row => syncRead rt existing (pairOf row) (read row) : Handler σ Unit) w =
          (.ok (), w)) := by
  have hbodies : ∀ row ∈ f w.db, ((syncRead rt existing (pairOf row) (read row)).LogsOnly
      Action.Reads w ↔ SilentTurn rt existing w (pairOf row)) := by
    intro row hrow
    rw [hread row hrow]
    rfl
  have hstays : ∀ row ∈ f w.db, (syncRead rt existing (pairOf row) (read row)).LogsOnly
      Action.Reads w → Fallible.exec (syncRead rt existing (pairOf row) (read row)) w =
        (.ok (), w) := by
    intro row hrow hsilent
    have hstayed := hstay row hrow ((hbodies row hrow).mp hsilent)
    rw [hread row hrow]
    exact hstayed
  constructor
  · rw [Fallible.logsOnly_bind]
    constructor
    · rintro ⟨-, hloop⟩ row hrow
      have hlogs := (Fallible.logsOnly_forM hstays).mp (hloop (f w.db) w rfl)
      exact (hbodies row hrow).mp (hlogs row hrow)
    · intro hsilent
      refine ⟨logsOnly_query _, fun rows t hquery => ?_⟩
      obtain ⟨rfl, rfl⟩ := query_eq_ok hquery
      exact (Fallible.logsOnly_forM hstays).mpr fun row hrow =>
        (hbodies row hrow).mpr (hsilent row hrow)
  · intro hsilent
    rw [Fallible.exec_bind, exec_query, Fallible.resume_ok, Fallible.exec_forM_eq_ok]
    exact Fallible.relay_of_stay fun row hrow =>
      hstays row hrow ((hbodies row hrow).mpr (hsilent row hrow))

theorem silent_plans {currency : String}
    (hstay : ∀ plan ∈ w.db.activePlans, StaysWhenSilent rt existing w (currency, .plan plan)) :
    ((syncPlans rt currency existing).LogsOnly Action.Reads w ↔
      ∀ plan ∈ w.db.activePlans, SilentTurn rt existing w (currency, .plan plan)) ∧
    ((∀ plan ∈ w.db.activePlans, SilentTurn rt existing w (currency, .plan plan)) →
      Fallible.exec (syncPlans rt currency existing) w = (.ok (), w)) := by
  have hrows := silent_rows
    (fun db => db.activePlans.map fun plan => (plan, db.priceOfPlan plan))
    (fun row => (currency, CatalogItem.plan row.1)) (fun row => row.2.map CatalogPrice.plan)
    (List.forall_mem_map.mpr fun _ _ => rfl) (List.forall_mem_map.mpr hstay)
  rw [List.forall_mem_map] at hrows
  rw [syncPlans_eq]
  exact hrows

theorem silent_products {currency : String}
    (hstay : ∀ product ∈ w.db.activeProducts,
      StaysWhenSilent rt existing w (currency, .product product)) :
    ((syncProducts rt currency existing).LogsOnly Action.Reads w ↔
      ∀ product ∈ w.db.activeProducts, SilentTurn rt existing w (currency, .product product)) ∧
    ((∀ product ∈ w.db.activeProducts, SilentTurn rt existing w (currency, .product product)) →
      Fallible.exec (syncProducts rt currency existing) w = (.ok (), w)) := by
  have hrows := silent_rows
    (fun db => db.activeProducts.map fun product => (product, db.priceOfProduct product))
    (fun row => (currency, CatalogItem.product row.1)) (fun row => row.2.map CatalogPrice.product)
    (List.forall_mem_map.mpr fun _ _ => rfl) (List.forall_mem_map.mpr hstay)
  rw [List.forall_mem_map] at hrows
  rw [syncProducts_eq]
  exact hrows

/-- The loops are silent if every turn is, all of them in the world they start from. -/
theorem silent_pairs {currencies : List String}
    (hstay : ∀ pair ∈ catalogPairs currencies w.db.items, StaysWhenSilent rt existing w pair) :
    (currencies.forM fun currency => do
      syncPlans rt currency existing
      syncProducts rt currency existing : Handler σ Unit).LogsOnly Action.Reads w ↔
    ∀ pair ∈ catalogPairs currencies w.db.items, SilentTurn rt existing w pair := by
  have hcurrency : ∀ c ∈ currencies,
      ((do
          syncPlans rt c existing
          syncProducts rt c existing : Handler σ Unit).LogsOnly Action.Reads w ↔
        ∀ item ∈ w.db.items, SilentTurn rt existing w (c, item)) ∧
      ((∀ item ∈ w.db.items, SilentTurn rt existing w (c, item)) →
        Fallible.exec (do
          syncPlans rt c existing
          syncProducts rt c existing : Handler σ Unit) w = (.ok (), w)) := by
    intro c hc
    have hstays : ∀ item ∈ w.db.items, StaysWhenSilent rt existing w (c, item) :=
      fun item hitem => hstay _ (mem_catalogPairs.mpr ⟨hc, hitem⟩)
    unfold Db.items at hstays ⊢
    rw [List.forall_mem_append, List.forall_mem_map, List.forall_mem_map] at hstays
    obtain ⟨hplans, hplansExec⟩ := silent_plans hstays.1
    obtain ⟨hproducts, hproductsExec⟩ := silent_products hstays.2
    rw [List.forall_mem_append, List.forall_mem_map, List.forall_mem_map]
    constructor
    · rw [Fallible.logsOnly_bind, hplans]
      refine and_congr_right fun hsilent => ?_
      rw [hplansExec hsilent, ← hproducts]
      constructor
      · exact fun h => h () w rfl
      · intro h a t hsame
        cases hsame
        exact h
    · rintro ⟨hsilent, hsilent'⟩
      rw [Fallible.exec_bind, hplansExec hsilent, Fallible.resume_ok]
      exact hproductsExec hsilent'
  rw [Fallible.logsOnly_forM fun c hc hsilent =>
    (hcurrency c hc).2 ((hcurrency c hc).1.mp hsilent)]
  constructor
  · intro h pair hpair
    obtain ⟨hc, hitem⟩ := mem_catalogPairs.mp hpair
    exact (hcurrency _ hc).1.mp (h _ hc) _ hitem
  · intro h c hc
    exact (hcurrency c hc).1.mpr fun item hitem => h _ (mem_catalogPairs.mpr ⟨hc, hitem⟩)

end Loops

/-! ## Accounts of completed runs -/

section Reached

variable {rt : CatalogRuntime σ} {view : σ → StripeCatalog} {w w' : World σ}

/-- Any turn keeps the products apart, whatever the catalog is. -/
theorem SyncedPair.separate {existing : List (String × ListedPrice)} {pair : String × CatalogItem}
    (hserves : ServesCatalog rt.stripe view) (hitem : pair.2.Listed w.db)
    (hseparate : (view w.stripe).Separate) (hreserves : (view w.stripe).Reserves existing)
    (h : SyncedPair rt existing pair w w') :
    (view w'.stripe).Separate ∧ (view w'.stripe).Reserves existing := by
  unfold SyncedPair syncRead at h
  cases hprice : w.db.priceOf pair.2 with
  | none =>
      rw [hprice] at h
      cases h
      exact ⟨hseparate, hreserves⟩
  | some price =>
      rw [hprice] at h
      obtain ⟨t, hbootstraps, hcases⟩ := syncPrice_eq_ok hserves hitem hprice h
      rw [← hbootstraps.frame.1] at hseparate hreserves
      rcases hcases with ⟨-, rfl⟩ | ⟨amount, priceId, -, hminting, -⟩
      · exact ⟨hseparate, hreserves⟩
      · exact ⟨hminting.separate hseparate hreserves, hminting.reserves hreserves⟩

theorem separate_of_run (hserves : ServesCatalog rt.stripe view)
    (hseparate : (view w.stripe).Separate)
    (h : Fallible.exec (syncStripeCatalog rt) w = (.ok (), w')) : (view w'.stripe).Separate := by
  by_cases hkey : rt.apiKey = ""
  · unfold syncStripeCatalog at h
    rw [if_pos hkey] at h
    cases h
    exact hseparate
  · obtain ⟨existing, t, hdb, hview, hfetched, hrelay⟩ := syncStripeCatalog_eq_ok hserves hkey h
    have hstart : (view t.stripe).Separate ∧ (view t.stripe).Reserves existing := by
      rw [hview]
      exact ⟨hseparate, hfetched.reserves hseparate⟩
    have hrun := hrelay.invariant
      (fun s => (s.db.plans = w.db.plans ∧ s.db.products = w.db.products) ∧
        (view s.stripe).Separate ∧ (view s.stripe).Reserves existing)
      ⟨by rw [hdb]; exact ⟨rfl, rfl⟩, hstart⟩ ?_
    · exact hrun.2.1
    · rintro pair hpair a b ⟨⟨hplans, hproducts⟩, ha, ha'⟩ hturn
      have hitem : pair.2.Listed a.db := (CatalogItem.listed_congr hplans hproducts).mpr
        (Db.mem_items.mp (mem_catalogPairs.mp hpair).2)
      obtain ⟨hplans', hproducts', -⟩ := hturn.frame hserves hitem
      exact ⟨⟨hplans'.trans hplans, hproducts'.trans hproducts⟩,
        hturn.separate hserves hitem ha ha'⟩

/-- The worlds of an account that only runs of the command have written: from no lookup
keys, by edits of the database and runs that complete. -/
inductive CatalogReached (stripe : Stripe σ) (view : σ → StripeCatalog) : World σ → Prop
  | account {w : World σ} (unkeyed : ∀ p ∈ (view w.stripe).prices.rows, p.lookupKey = none) :
      CatalogReached stripe view w
  | edited {w : World σ} (db : Db) (h : CatalogReached stripe view w) :
      CatalogReached stripe view { w with db := db }
  | synced {rt : CatalogRuntime σ} {w w' : World σ} (hstripe : rt.stripe = stripe)
      (h : CatalogReached stripe view w)
      (run : Fallible.exec (syncStripeCatalog rt) w = (.ok (), w')) : CatalogReached stripe view w'

theorem CatalogReached.separate {stripe : Stripe σ} (hserves : ServesCatalog stripe view)
    (h : CatalogReached stripe view w) : (view w.stripe).Separate := by
  induction h with
  | account unkeyed =>
      intro p hp _ _ key _ hholds _ _
      rw [StripePrice.Holds, unkeyed p hp] at hholds
      cases hholds
  | edited db h ih => exact ih
  | synced hstripe h run ih =>
      subst hstripe
      exact separate_of_run hserves ih run

/-- A later run of the same settings; its clock and its fresh ids are its own. -/
structure CatalogRuntime.SameSettings (rt rt' : CatalogRuntime σ) : Prop where
  stripe : rt'.stripe = rt.stripe
  apiKey : rt'.apiKey = rt.apiKey
  currencies : rt'.currencies = rt.currencies
  strLower : rt'.strLower = rt.strLower

/-- After a completed run the next run is silent exactly if no price had to be minted
anew for a product of another name. -/
theorem sync_silent_iff {stripe : Stripe σ} (hserves : ServesCatalog stripe view)
    {rt rt' : CatalogRuntime σ} (hstripe : rt.stripe = stripe) (hsame : rt.SameSettings rt')
    (hreached : CatalogReached stripe view w) (hkeys : (collectLookupKeys rt w.db).Nodup)
    (hlocalized : LocalizedPresent rt w.db)
    (hrun : Fallible.exec (syncStripeCatalog rt) w = (.ok (), w')) :
    (syncStripeCatalog rt').LogsOnly Action.Reads w' ↔
      rt.apiKey = "" ∨ ∀ pair ∈ catalogPairs rt.currencies w.db.items, ∀ amount,
        w.db.itemAmount pair.2 pair.1 = some amount →
          (view w.stripe).Named (pair.2.terms rt.strLower pair.1) amount := by
  subst hstripe
  by_cases hkey : rt.apiKey = ""
  · refine iff_of_true ?_ (Or.inl hkey)
    unfold syncStripeCatalog
    rw [if_pos (hsame.apiKey.trans hkey)]
    exact Fallible.logsOnly_pure
  rw [or_iff_right hkey]
  obtain ⟨_, hprogress⟩ := inSync_of_run hserves hkey hkeys hlocalized
    (hreached.separate hserves) hrun
  have hserves' : ServesCatalog rt'.stripe view := by
    rw [hsame.stripe]
    exact hserves
  have hitems : w'.db.items = w.db.items := Db.items_congr hprogress.plans hprogress.products
  have hcollect : collectLookupKeys rt' w'.db = collectLookupKeys rt w.db := by
    unfold collectLookupKeys Db.activePlans Db.activeProducts
    rw [hsame.currencies, hsame.strLower, hprogress.plans, hprogress.products]
  obtain ⟨hfetchLogs, existing, t, hfetch, hdb, hview, hfetched⟩ :=
    exec_bulkFetchExisting hserves' (collectLookupKeys rt' w'.db) w'
  have hturns : ∀ pair ∈ catalogPairs rt.currencies w.db.items,
      StaysWhenSilent rt' existing t pair ∧ (SilentTurn rt' existing t pair ↔
        ∀ amount, w.db.itemAmount pair.2 pair.1 = some amount →
          (view w.stripe).Named (pair.2.terms rt.strLower pair.1) amount) := by
    rintro ⟨c, item⟩ hpair
    have hlisted : item.Listed w'.db := Db.mem_items.mp (hitems ▸ (mem_catalogPairs.mp hpair).2)
    unfold StaysWhenSilent SilentTurn syncRead
    rw [hdb]
    cases hprice : w'.db.priceOf item with
    | none =>
        refine ⟨fun _ => rfl, iff_of_true Fallible.logsOnly_pure fun amount hamount => ?_⟩
        rw [← hprogress.amounts, Db.itemAmount, hprice] at hamount
        cases hamount
    | some price =>
        dsimp only
        rw [hsame.strLower]
        -- the amount and the price of the first run
        have hpresent : (w.db.itemAmount item c).isSome := by
          refine hlocalized _ hpair ?_
          rw [← hprogress.isSome_priceOf, hprice]
          rfl
        obtain ⟨amount, hamount⟩ := Option.isSome_iff_exists.mp hpresent
        obtain ⟨p, hp, hholds, hpriced, hstamp, hproduct⟩ :=
          hprogress.inSync _ hpair amount hamount
        have hamountIn : t.db.amountIn price (item.terms rt.strLower c).currency = some amount := by
          rw [← hprogress.amounts, Db.itemAmount, hprice] at hamount
          rw [hdb, CatalogItem.currency_terms]
          exact hamount
        have hstampIn : t.db.stampIn price (item.terms rt.strLower c).currency = some p.id := by
          rw [Db.itemStamp, hprice] at hstamp
          rw [hdb, CatalogItem.currency_terms]
          exact hstamp
        -- the listing of the second run
        have hkey : (item.terms rt.strLower c).lookupKey ∈ collectLookupKeys rt' w'.db := by
          rw [hcollect, CatalogItem.lookupKey_terms]
          exact pairKey_mem hpair
        have hne : (item.terms rt.strLower c).lookupKey ≠ "" := by
          rw [CatalogItem.lookupKey_terms]
          exact item.lookupKey_ne
        obtain ⟨l, hl⟩ : ∃ l, existing.lookup (item.terms rt.strLower c).lookupKey = some l := by
          cases hlookup : existing.lookup (item.terms rt.strLower c).lookupKey with
          | none => exact absurd hholds (hfetched.complete _ hkey hne hlookup p hp)
          | some l => exact ⟨l, rfl⟩
        obtain ⟨p', hp', q, hq, hholds', hid, hsame'⟩ := hfetched.entries _ l hl
        obtain rfl : p' = p := StripeCatalog.holder_unique hp' hp hholds' hholds
        obtain rfl : l = p'.listed q := hsame'
        obtain ⟨hdescribed, hname⟩ := hproduct q hq hid
        obtain ⟨hsilent, hstays⟩ := syncPrice_silent rt' hamountIn hl
          ((StripePrice.priceMatches_listed q).mpr hpriced) hstampIn
        have hupdate := (productUpdate_eq_nothing hdescribed).trans hname
        refine ⟨fun h => hstays (hsilent.mp h), (hsilent.trans hupdate).trans ?_⟩
        constructor
        · intro hnamed amount' hamount'
          obtain rfl := Option.some.inj (hamount.symm.trans hamount')
          exact hnamed
        · exact fun h => h amount hamount
  have hpairs : catalogPairs rt'.currencies t.db.items = catalogPairs rt.currencies w.db.items := by
    rw [hsame.currencies, hdb, hitems]
  have hstays : ∀ pair ∈ catalogPairs rt'.currencies t.db.items,
      StaysWhenSilent rt' existing t pair := by
    rw [hpairs]
    exact fun pair hpair => (hturns pair hpair).1
  have hloops := silent_pairs hstays
  unfold syncStripeCatalog
  rw [if_neg (hsame.apiKey ▸ hkey), Fallible.logsOnly_bind]
  rw [hpairs] at hloops
  constructor
  · rintro ⟨-, hrest⟩ pair hpair
    have hbatches := (Fallible.logsOnly_bind.mp (hrest _ w' rfl)).2 existing t hfetch
    exact (hturns pair hpair).2.mp (hloops.mp hbatches pair hpair)
  · intro hnamed
    refine ⟨logsOnly_query _, fun keys r hread => ?_⟩
    obtain ⟨rfl, rfl⟩ := query_eq_ok hread
    refine Fallible.logsOnly_bind.mpr ⟨hfetchLogs, fun existing' t' hfetch' => ?_⟩
    obtain ⟨hfound, rfl⟩ := Prod.ext_iff.mp (hfetch.symm.trans hfetch')
    obtain rfl := Except.ok.inj hfound
    exact hloops.mpr fun pair hpair => (hturns pair hpair).2.mpr (hnamed pair hpair)

end Reached

/-! ## A plan that is renamed and re-priced -/

/-- The plan is edited after the first run. -/
def renamedShop : World StripeCatalog :=
  { shopSynced shopWorld with db := shopDb "Starter" 1499 "price_0" }

theorem exec_sync_shopWorld :
    Fallible.exec (syncStripeCatalog shopRuntime) shopWorld = (.ok (), shopSynced shopWorld) :=
  Prod.ext (by decide +kernel) rfl

theorem exec_sync_renamedShop :
    Fallible.exec (syncStripeCatalog shopRuntime) renamedShop = (.ok (), shopSynced renamedShop) :=
  Prod.ext (by decide +kernel) rfl

theorem shopWorld_reached : CatalogReached catalogStripe id shopWorld := .account nofun

theorem localizedPresent_shop {w : World StripeCatalog} :
    LocalizedPresent shopRuntime w.db := by
  intro pair hpair hprice
  have husd : pair.1 = "usd" := List.mem_singleton.mp (mem_catalogPairs.mp hpair).1
  rw [husd, Db.itemAmount_usd, Option.isSome_map]
  exact hprice

theorem sync_silent_shop : (syncStripeCatalog shopRuntime).LogsOnly Action.Reads
    (shopSynced shopWorld) := by
  refine (sync_silent_iff serves_catalogStripe rfl ⟨rfl, rfl, rfl, rfl⟩ shopWorld_reached
    (by decide +kernel) localizedPresent_shop exec_sync_shopWorld).mpr (Or.inr ?_)
  intro pair hpair amount hamount p hp
  cases hp

def Action.modifiesProduct : Action → Bool
  | .stripe (.productModify _ _) => true
  | _ => false

/-- The name of the plan is written by the run after the next. -/
theorem not_sync_silent : ¬ ∀ w w' : World StripeCatalog, CatalogReached catalogStripe id w →
    (collectLookupKeys shopRuntime w.db).Nodup → LocalizedPresent shopRuntime w.db →
    Fallible.exec (syncStripeCatalog shopRuntime) w = (.ok (), w') →
      (syncStripeCatalog shopRuntime).LogsOnly Action.Reads w' := by
  intro h
  have hreached : CatalogReached catalogStripe id renamedShop :=
    .edited _ (.synced rfl shopWorld_reached exec_sync_shopWorld)
  have hsilent := h renamedShop (shopSynced renamedShop) hreached (by decide +kernel)
    localizedPresent_shop exec_sync_renamedShop
  have hwrites : ((syncStripeCatalog shopRuntime).trace (shopSynced renamedShop)).any
      (fun entry => entry.1.modifiesProduct) = true := by decide +kernel
  obtain ⟨⟨action, w⟩, hmem, hmodify⟩ := List.any_eq_true.mp hwrites
  have hreads : action.Reads := hsilent _ hmem
  unfold Action.Reads at hreads
  split at hreads
  · cases hmodify
  · cases hmodify
  · exact hreads

end Saasmint
