import Mathlib.Data.Multiset.Bind
import Saasmint.Catalog.Stamping

/-!
# A run of the command, pair by pair

A run of `sync_stripe_catalog` that completes fetches the prices of all lookup keys
once, and then goes over the pairs of a currency and a row: `syncStripeCatalog_eq_ok`.
The loops read the rows of a table before they write the first of them; that what was
read is still stored when its turn comes is shown here, and nowhere else.
-/

namespace Saasmint

open Atomic Handler Relational

variable {σ : Type}

/-! ## Items -/

namespace CatalogItem

/-- The arguments of `_upsert_price` for the row. -/
def terms (strLower : String → String) (currency : String) : CatalogItem → PriceTerms
  | plan p => planTerms p currency
  | product p => productTerms strLower p currency

variable {strLower : String → String} {currency : String}

@[simp] theorem lookupKey_terms (item : CatalogItem) :
    (item.terms strLower currency).lookupKey = item.lookupKey strLower currency := by
  cases item <;> rfl

@[simp] theorem currency_terms (item : CatalogItem) :
    (item.terms strLower currency).currency = currency := by
  cases item <;> rfl

theorem nodup_productMetadata (item : CatalogItem) :
    ((item.terms strLower currency).productMetadata.map Prod.fst).Nodup := by
  cases item
  · show ["local_plan_id", "kind"].Nodup
    decide
  · show ["local_product_id", "kind"].Nodup
    decide

theorem withCurrency_ne {base : String} (h : base.toList ≠ []) : withCurrency base currency ≠ "" := by
  unfold withCurrency
  split
  · rintro rfl
    exact h rfl
  · intro hempty
    have hlists := congrArg String.toList hempty
    rw [String.toList_append, String.toList_append] at hlists
    exact h (List.append_eq_nil_iff.mp (List.append_eq_nil_iff.mp hlists).1).1

theorem lookupKey_ne (item : CatalogItem) : item.lookupKey strLower currency ≠ "" := by
  have hbegins : ∀ (start rest : String), start.toList ≠ [] → (start ++ rest).toList ≠ [] := by
    intro start rest hstart hempty
    rw [String.toList_append] at hempty
    exact hstart (List.append_eq_nil_iff.mp hempty).1
  cases item with
  | plan p =>
      refine withCurrency_ne ?_
      unfold planKeyBase
      refine hbegins _ _ (hbegins _ _ (hbegins _ _ (hbegins _ _ (hbegins _ _ ?_))))
      decide
  | product p => exact withCurrency_ne (hbegins _ _ (by decide))

end CatalogItem

namespace Db

/-- The rows a run goes over. -/
def items (db : Db) : List CatalogItem :=
  db.activePlans.map .plan ++ db.activeProducts.map .product

theorem mem_items {db : Db} {item : CatalogItem} : item ∈ db.items ↔ item.Listed db := by
  unfold items activePlans activeProducts Table.filter
  rw [List.mem_append, List.mem_map, List.mem_map]
  cases item with
  | plan p => simp [CatalogItem.Listed]
  | product p => simp [CatalogItem.Listed]

theorem nodup_items (db : Db) : db.items.Nodup := by
  have hplans : db.plans.rows.Nodup :=
    db.plans.valid.2.imp fun h hsame => h (Or.inl (congrArg Plan.id hsame))
  have hproducts : db.products.rows.Nodup :=
    db.products.valid.2.imp fun h hsame => h (congrArg Product.id hsame)
  have hsorted : db.activePlans.Nodup :=
    (List.perm_insertionSort _ _).nodup_iff.mpr (hplans.filter _)
  refine List.Nodup.append (hsorted.map fun p q => CatalogItem.plan.inj)
    ((hproducts.filter _).map fun p q => CatalogItem.product.inj) ?_
  intro item hplan hproduct
  obtain ⟨p, -, rfl⟩ := List.mem_map.mp hplan
  obtain ⟨q, -, hsame⟩ := List.mem_map.mp hproduct
  cases hsame

theorem items_congr {db db' : Db} (hplans : db'.plans = db.plans)
    (hproducts : db'.products = db.products) : db'.items = db.items := by
  unfold items activePlans activeProducts
  rw [hplans, hproducts]

end Db

/-- The pairs a run goes over, in its order. -/
def catalogPairs (currencies : List String) (items : List CatalogItem) :
    List (String × CatalogItem) :=
  currencies.flatMap fun currency => items.map fun item => (currency, item)

/-! ## One pair -/

/-- The body of the loops, on a row and the price that was read with it. -/
def syncRead (rt : CatalogRuntime σ) (existing : List (String × ListedPrice))
    (pair : String × CatalogItem) : Option CatalogPrice → Handler σ Unit
  | none => return
  | some price => syncPrice rt price (pair.2.terms rt.strLower pair.1) existing

/-- The turn of one pair, with the price that is stored. -/
def SyncedPair (rt : CatalogRuntime σ) (existing : List (String × ListedPrice))
    (pair : String × CatalogItem) (w w' : World σ) : Prop :=
  Fallible.exec (syncRead rt existing pair (w.db.priceOf pair.2)) w = (.ok (), w')

section Turn

variable {rt : CatalogRuntime σ} {view : σ → StripeCatalog} {w w' : World σ}
  {existing : List (String × ListedPrice)} {item : CatalogItem} {price : CatalogPrice}
  {terms : PriceTerms} {currency : String}

theorem localizePrices_eq_ok {rates : Int → String → Option Int} {now : Datetime}
    {localizedId : UUID → String → UUID} {db db' : Db}
    (h : localizePrices rates now localizedId db = .ok db') :
    ∃ table : Table LocalizedPrice,
      table.rows = db.localizedPrices.rows.map (relocalized db.toTables rates now) ++
        missingLocalized db.toTables rates now localizedId ∧
      db'.toTables = { db.toTables with localizedPrices := table } := by
  unfold localizePrices at h
  dsimp only at h
  split at h
  · split at h
    next table htable => exact ⟨table, Table.ofRows?_eq_some.mp htable, Db.commit_eq_ok.mp h⟩
    next => cases h
  · cases h

theorem syncLocalizedPrices_eq_ok
    (h : Fallible.exec (syncLocalizedPrices rt) w = (.ok (), w')) :
    (rt.rates w.stripe = none ∧ w' = w) ∨ ∃ rates db', rt.rates w.stripe = some rates ∧
      localizePrices rates rt.now rt.localizedId w.db = .ok db' ∧ w' = { w with db := db' } := by
  unfold syncLocalizedPrices at h
  obtain ⟨rates, t, hread, h₁⟩ := Fallible.exec_bind_eq_ok.mp h
  rw [Fallible.exec_observe] at hread
  obtain ⟨hrates, rfl⟩ := Prod.ext_iff.mp hread
  cases rates with
  | none =>
      cases h₁
      exact Or.inl ⟨Except.ok.inj hrates, rfl⟩
  | some rates =>
      dsimp only at h₁
      rw [exec_transaction] at h₁
      cases hlocalize : localizePrices rates rt.now rt.localizedId w.db with
      | error e =>
          rw [hlocalize] at h₁
          cases h₁
      | ok db' =>
          rw [hlocalize] at h₁
          cases h₁
          exact Or.inr ⟨rates, db', Except.ok.inj hrates, hlocalize, rfl⟩

/-- Localizing touches no other table, and not the account. -/
theorem syncLocalizedPrices_frame
    (h : Fallible.exec (syncLocalizedPrices rt) w = (.ok (), w')) :
    w'.stripe = w.stripe ∧ ∃ table, w'.db.toTables = { w.db.toTables with localizedPrices := table } := by
  rcases syncLocalizedPrices_eq_ok h with ⟨-, rfl⟩ | ⟨rates, db', -, hlocalize, rfl⟩
  · exact ⟨rfl, w'.db.localizedPrices, rfl⟩
  · obtain ⟨table, -, htables⟩ := localizePrices_eq_ok hlocalize
    exact ⟨rfl, table, htables⟩

/-- A price that has no amount in the currency has the prices localized first. -/
def Bootstraps (rt : CatalogRuntime σ) (price : CatalogPrice) (currency : String)
    (w w' : World σ) : Prop :=
  match w.db.amountIn price currency with
  | some _ => w' = w
  | none => Fallible.exec (syncLocalizedPrices rt) w = (.ok (), w')

theorem Bootstraps.frame (h : Bootstraps rt price currency w w') :
    w'.stripe = w.stripe ∧ w'.db.plans = w.db.plans ∧ w'.db.products = w.db.products ∧
      ∀ item, w'.db.priceOf item = w.db.priceOf item := by
  unfold Bootstraps at h
  split at h
  · rw [h]
    exact ⟨rfl, rfl, rfl, fun _ => rfl⟩
  · obtain ⟨hstripe, table, htables⟩ := syncLocalizedPrices_frame h
    refine ⟨hstripe, by rw [htables], by rw [htables], fun item => ?_⟩
    cases item <;>
      simp only [Db.priceOf, Db.priceOfPlan, Db.priceOfProduct, htables]

theorem unitAmountFor_eq_ok {amount : Option Int}
    (h : Fallible.exec (unitAmountFor rt price currency) w = (.ok amount, w')) :
    Bootstraps rt price currency w w' ∧ amount = w'.db.amountIn price currency := by
  unfold unitAmountFor at h
  split at h
  next husd =>
      cases h
      have hamount : w.db.amountIn price currency = some price.amount := by
        rw [Db.amountIn, if_pos husd]
      refine ⟨?_, hamount.symm⟩
      unfold Bootstraps
      rw [hamount]
  next husd =>
      obtain ⟨found, t, hread, h₁⟩ := Fallible.exec_bind_eq_ok.mp h
      obtain ⟨rfl, rfl⟩ := query_eq_ok hread
      cases hrow : w.db.localizedOf price currency with
      | some row =>
          rw [hrow] at h₁
          cases h₁
          have hamount : w.db.amountIn price currency = some row.amountMinor := by
            rw [Db.amountIn, if_neg husd, hrow, Option.map_some]
          refine ⟨?_, hamount.symm⟩
          unfold Bootstraps
          rw [hamount]
      | none =>
          rw [hrow] at h₁
          obtain ⟨_, t', hsync, h₂⟩ := Fallible.exec_bind_eq_ok.mp h₁
          obtain ⟨found, t'', hread', h₃⟩ := Fallible.exec_bind_eq_ok.mp h₂
          obtain ⟨rfl, rfl⟩ := query_eq_ok hread'
          cases h₃
          have hamount : w.db.amountIn price currency = none := by
            rw [Db.amountIn, if_neg husd, hrow, Option.map_none]
          refine ⟨?_, by rw [Db.amountIn, if_neg husd]⟩
          unfold Bootstraps
          rw [hamount]
          exact hsync

/-- The turn of a row that has a price. -/
theorem syncPrice_eq_ok (hserves : ServesCatalog rt.stripe view) (hitem : item.Listed w.db)
    (hprice : w.db.priceOf item = some price)
    (h : Fallible.exec (syncPrice rt price terms existing) w = (.ok (), w')) :
    ∃ t, Bootstraps rt price terms.currency w t ∧
      ((t.db.amountIn price terms.currency = none ∧ w' = t) ∨
        ∃ amount priceId, t.db.amountIn price terms.currency = some amount ∧
          Minting existing terms amount (view t.stripe) (view w'.stripe) priceId ∧
          Stamped item terms.currency priceId t.db w'.db) := by
  unfold syncPrice at h
  obtain ⟨amount, t, hamount, h₁⟩ := Fallible.exec_bind_eq_ok.mp h
  obtain ⟨hbootstraps, rfl⟩ := unitAmountFor_eq_ok hamount
  obtain ⟨-, hplans, hproducts, hprices⟩ := hbootstraps.frame
  refine ⟨t, hbootstraps, ?_⟩
  cases hfound : t.db.amountIn price terms.currency with
  | none =>
      rw [hfound] at h₁
      cases h₁
      exact Or.inl ⟨rfl, rfl⟩
  | some amount =>
      rw [hfound] at h₁
      obtain ⟨priceId, t', hupsert, h₂⟩ := Fallible.exec_bind_eq_ok.mp h₁
      obtain ⟨hdb, hminting⟩ := upsertPrice_eq_ok hserves hupsert
      have hitem' : item.Listed t'.db := by
        rw [hdb]
        unfold CatalogItem.Listed
        rw [hplans, hproducts]
        exact hitem
      have hprice' : t'.db.priceOf item = some price := by
        rw [hdb, hprices, hprice]
      obtain ⟨hstripe, hstamped⟩ := writePriceId_eq_ok hitem' hprice' h₂
      rw [hdb] at hstamped
      rw [← hstripe] at hminting
      exact Or.inr ⟨amount, priceId, rfl, hminting, hstamped⟩

/-- A turn writes the price of no other row. -/
theorem SyncedPair.frame (hserves : ServesCatalog rt.stripe view) (hitem : item.Listed w.db)
    (h : SyncedPair rt existing (currency, item) w w') :
    w'.db.plans = w.db.plans ∧ w'.db.products = w.db.products ∧
      ∀ item', item'.Listed w.db → item' ≠ item → w'.db.priceOf item' = w.db.priceOf item' := by
  unfold SyncedPair syncRead at h
  cases hprice : w.db.priceOf item with
  | none =>
      rw [hprice] at h
      cases h
      exact ⟨rfl, rfl, fun _ _ _ => rfl⟩
  | some price =>
      rw [hprice] at h
      obtain ⟨t, hbootstraps, hturn⟩ := syncPrice_eq_ok hserves hitem hprice h
      obtain ⟨-, hplans, hproducts, hprices⟩ := hbootstraps.frame
      rcases hturn with ⟨-, rfl⟩ | ⟨amount, priceId, -, -, hstamped⟩
      · exact ⟨hplans, hproducts, fun item' _ _ => hprices item'⟩
      · refine ⟨hstamped.plans.trans hplans, hstamped.products.trans hproducts, ?_⟩
        intro item' hitem' hne
        have hlisted : item'.Listed t.db := by
          unfold CatalogItem.Listed
          rw [hplans, hproducts]
          exact hitem'
        exact (hstamped.prices item' hlisted hne).trans (hprices item')

end Turn

/-! ## The listing -/

/-- What a run may do that changes nothing. -/
def Action.Reads : Action → Prop
  | .query | .stripe (.priceList _) => True
  | _ => False

/-- A price is listed under the lookup key it holds. -/
theorem mem_keyed {listed : List ListedPrice} {key : String} {l : ListedPrice} :
    (key, l) ∈ keyed listed ↔ l ∈ listed ∧ l.lookupKey = some key ∧ key ≠ "" := by
  unfold keyed
  rw [List.mem_reverse, List.mem_filterMap]
  simp only [Option.map_eq_some_iff, Option.filter_eq_some_iff, decide_eq_true_eq, Prod.mk.injEq]
  constructor
  · rintro ⟨l', hl', key', ⟨hkey, hne⟩, rfl, rfl⟩
    exact ⟨hl', hkey, hne⟩
  · rintro ⟨hl, hkey, hne⟩
    exact ⟨l, hl, key, ⟨hkey, hne⟩, rfl, rfl⟩

/-- The entry is a price of the account with its product. -/
def StripeCatalog.Entry (c : StripeCatalog) (entry : String × ListedPrice) : Prop :=
  ∃ p ∈ c.prices.rows, ∃ q ∈ c.products.rows, p.Holds entry.1 ∧ q.id = p.product ∧
    entry.2 = p.listed q

section Fetch

variable {rt : CatalogRuntime σ} {view : σ → StripeCatalog}

theorem exec_priceList (hserves : ServesCatalog rt.stripe view) (keys : List String) (w : World σ) :
    ∃ page listed w', Fallible.exec (callStripe rt.toRuntime (.priceList keys)) w = (.ok page, w') ∧
      w'.db = w.db ∧ view w'.stripe = view w.stripe ∧ readPricePage page = .ok listed ∧
      ∀ l, l ∈ listed ↔ (view w.stripe).Lists keys l := by
  obtain ⟨page, hpage⟩ := hserves.lists keys w.stripe
  have hexec : Fallible.exec (callStripe rt.toRuntime (.priceList keys)) w =
      (.ok page, { w with stripe := (rt.stripe.call (.priceList keys) w.stripe).2 }) := by
    rw [exec_callStripe, hpage]
  obtain ⟨hdb, heffect⟩ := callStripe_eq_ok hserves rfl hexec
  cases heffect with
  | @priceList _ _ listed _ read mem_found same =>
      exact ⟨page, listed, _, hexec, hdb, same, read, mem_found⟩

/-- The batches read, and find the price of every key they ask for. -/
theorem exec_bulkFetch (hserves : ServesCatalog rt.stripe view) (fuel : ℕ) :
    ∀ (keys : List String) (found : List (String × ListedPrice)) (w : World σ),
      (bulkFetch rt fuel keys found).LogsOnly Action.Reads w ∧
      ∃ found' w', Fallible.exec (bulkFetch rt fuel keys found) w = (.ok found', w') ∧
        w'.db = w.db ∧ view w'.stripe = view w.stripe ∧
        (∀ entry ∈ found', entry ∈ found ∨ (view w.stripe).Entry entry) ∧
        (∀ entry ∈ found, entry ∈ found') ∧
        (keys.length ≤ fuel → ∀ key ∈ keys, key ≠ "" →
          ∀ p ∈ (view w.stripe).prices.rows, p.Holds key → ∃ l, (key, l) ∈ found') := by
  induction fuel with
  | zero =>
      intro keys found w
      cases keys with
      | nil =>
          exact ⟨Fallible.logsOnly_pure, found, w, rfl, rfl, rfl, fun _ h => Or.inl h,
            fun _ h => h, fun _ _ hkey => absurd hkey List.not_mem_nil⟩
      | cons key keys =>
          refine ⟨Fallible.logsOnly_pure, found, w, rfl, rfl, rfl, fun _ h => Or.inl h,
            fun _ h => h, fun hlength => ?_⟩
          rw [List.length_cons] at hlength
          omega
  | succ fuel ih =>
      intro keys found w
      cases keys with
      | nil =>
          exact ⟨Fallible.logsOnly_pure, found, w, rfl, rfl, rfl, fun _ h => Or.inl h,
            fun _ h => h, fun _ _ hkey => absurd hkey List.not_mem_nil⟩
      | cons key keys =>
          obtain ⟨page, listed, t, hpage, hdb, hview, hread, hlisted⟩ :=
            exec_priceList hserves ((key :: keys).take 10) w
          obtain ⟨hlogs, found', w', hexec, hdb', hview', hentries, hkept, hall⟩ :=
            ih ((key :: keys).drop 10) (keyed listed ++ found) t
          rw [hview] at hview' hentries hall
          unfold bulkFetch
          refine ⟨?_, found', w', ?_, hdb'.trans hdb, hview', ?_, ?_, ?_⟩
          · rw [Fallible.logsOnly_bind]
            refine ⟨Fallible.logsOnly_atomic.mpr trivial, fun page' t' hsame => ?_⟩
            rw [hpage] at hsame
            cases hsame
            rw [hread]
            exact hlogs
          · rw [Fallible.exec_bind_eq_ok]
            refine ⟨page, t, hpage, ?_⟩
            rw [hread]
            exact hexec
          · intro entry hentry
            rcases hentries entry hentry with hmem | hentry
            · rcases List.mem_append.mp hmem with hkeyed | hfound
              · right
                obtain ⟨hl, hkey, -⟩ := mem_keyed.mp hkeyed
                obtain ⟨p, hp, q, hq, hid, -, hsame⟩ := (hlisted entry.2).mp hl
                rw [hsame] at hkey
                exact ⟨p, hp, q, hq, hkey, hid, hsame⟩
              · exact Or.inl hfound
            · exact Or.inr hentry
          · exact fun entry hentry => hkept entry (List.mem_append_right _ hentry)
          · intro hlength key' hkey' hne p hp hholds
            rw [List.length_cons] at hlength
            rw [← List.take_append_drop 10 (key :: keys)] at hkey'
            rcases List.mem_append.mp hkey' with htaken | hdropped
            · obtain ⟨q, hq, hid⟩ := (view w.stripe).complete p hp
              have hmem : p.listed q ∈ listed :=
                (hlisted (p.listed q)).mpr ⟨p, hp, q, hq, hid, ⟨key', htaken, hholds⟩, rfl⟩
              refine ⟨p.listed q, hkept _ (List.mem_append_left _ ?_)⟩
              exact mem_keyed.mpr ⟨hmem, hholds, hne⟩
            · refine hall ?_ key' hdropped hne p hp hholds
              rw [List.length_drop, List.length_cons]
              omega

/-- The listing shows the account as it is. -/
structure StripeCatalog.Fetched (c : StripeCatalog) (existing : List (String × ListedPrice))
    (keys : List String) : Prop where
  entries : ∀ key l, existing.lookup key = some l → c.Entry (key, l)
  complete : ∀ key ∈ keys, key ≠ "" → existing.lookup key = none →
    ∀ p ∈ c.prices.rows, ¬ p.Holds key

theorem StripeCatalog.Fetched.finds {c : StripeCatalog} {existing : List (String × ListedPrice)}
    {keys : List String} (h : c.Fetched existing keys) {key : String} (hkey : key ∈ keys)
    (hne : key ≠ "") : c.Finds existing key where
  sound l hl := by
    obtain ⟨p, hp, q, -, hholds, hid, hsame⟩ := h.entries key l hl
    exact ⟨p, hp, q, hholds, hid, hsame⟩
  complete := h.complete key hkey hne

theorem exec_bulkFetchExisting (hserves : ServesCatalog rt.stripe view) (keys : List String)
    (w : World σ) : (bulkFetchExisting rt keys).LogsOnly Action.Reads w ∧
      ∃ existing w', Fallible.exec (bulkFetchExisting rt keys) w = (.ok existing, w') ∧
        w'.db = w.db ∧ view w'.stripe = view w.stripe ∧
        (view w.stripe).Fetched existing keys := by
  obtain ⟨hlogs, existing, w', hexec, hdb, hview, hentries, -, hall⟩ :=
    exec_bulkFetch hserves keys.length keys [] w
  refine ⟨hlogs, existing, w', hexec, hdb, hview, ?_, ?_⟩
  · intro key l hl
    obtain ⟨before, after, hsplit, -⟩ := List.lookup_eq_some_iff.mp hl
    have hmem : (key, l) ∈ existing := by
      rw [hsplit]
      exact List.mem_append_right _ List.mem_cons_self
    exact (hentries _ hmem).resolve_left List.not_mem_nil
  · intro key hkey hne hnone p hp hholds
    obtain ⟨l, hmem⟩ := hall le_rfl key hkey hne p hp hholds
    have hdiffer : (key != key) = true := List.lookup_eq_none_iff.mp hnone _ hmem
    simp at hdiffer

end Fetch

/-! ## The loops -/

section Loops

variable {rt : CatalogRuntime σ} {view : σ → StripeCatalog} {w w' : World σ}
  {existing : List (String × ListedPrice)} {currency : String}

theorem CatalogItem.listed_congr {db db' : Db} (hplans : db'.plans = db.plans)
    (hproducts : db'.products = db.products) {item : CatalogItem} :
    item.Listed db' ↔ item.Listed db := by
  unfold CatalogItem.Listed
  rw [hplans, hproducts]

/-- The rows a loop has read are still stored when their turn comes. -/
theorem relay_current (hserves : ServesCatalog rt.stripe view) {read : CatalogItem → Option CatalogPrice}
    {items : List CatalogItem} (hnodup : items.Nodup) (hlisted : ∀ i ∈ items, i.Listed w.db)
    (hread : ∀ i ∈ items, w.db.priceOf i = read i)
    (h : Fallible.Relay (fun i s t =>
      Fallible.exec (syncRead rt existing (currency, i) (read i)) s = (.ok (), t)) items w w') :
    Fallible.Relay (SyncedPair rt existing) (items.map fun item => (currency, item)) w w' ∧
      w'.db.plans = w.db.plans ∧ w'.db.products = w.db.products := by
  induction items generalizing w with
  | nil =>
      rw [Fallible.relay_nil] at h
      exact ⟨h, by rw [h], by rw [h]⟩
  | cons item items ih =>
      obtain ⟨t, hitem, hrest⟩ := h
      rw [List.nodup_cons] at hnodup
      have hsynced : SyncedPair rt existing (currency, item) w t := by
        rw [← hread item List.mem_cons_self] at hitem
        exact hitem
      obtain ⟨hplans, hproducts, hprices⟩ :=
        hsynced.frame hserves (hlisted item List.mem_cons_self)
      have hlisted' : ∀ i ∈ items, i.Listed t.db := fun i hi =>
        (CatalogItem.listed_congr hplans hproducts).mpr (hlisted i (List.mem_cons_of_mem item hi))
      have hread' : ∀ i ∈ items, t.db.priceOf i = read i := by
        intro i hi
        have hne : i ≠ item := fun hsame => hnodup.1 (hsame ▸ hi)
        exact (hprices i (hlisted i (List.mem_cons_of_mem item hi)) hne).trans
          (hread i (List.mem_cons_of_mem item hi))
      obtain ⟨hrelay, hplans', hproducts'⟩ := ih hnodup.2 hlisted' hread' hrest
      exact ⟨⟨t, hsynced, hrelay⟩, hplans'.trans hplans, hproducts'.trans hproducts⟩

theorem syncPlans_eq (rt : CatalogRuntime σ) (currency : String)
    (existing : List (String × ListedPrice)) : syncPlans rt currency existing = (do
      let rows ← query fun db => db.activePlans.map fun plan => (plan, db.priceOfPlan plan)
      rows.forM fun row => syncRead rt existing (currency, .plan row.1) (row.2.map .plan)) := by
  unfold syncPlans
  congr 1
  funext rows
  congr 1
  funext ⟨plan, price⟩
  cases price <;> rfl

theorem syncProducts_eq (rt : CatalogRuntime σ) (currency : String)
    (existing : List (String × ListedPrice)) : syncProducts rt currency existing = (do
      let rows ← query fun db =>
        db.activeProducts.map fun product => (product, db.priceOfProduct product)
      rows.forM fun row => syncRead rt existing (currency, .product row.1) (row.2.map .product)) := by
  unfold syncProducts
  congr 1
  funext rows
  congr 1
  funext ⟨product, price⟩
  cases price <;> rfl

theorem syncPlans_eq_ok (hserves : ServesCatalog rt.stripe view)
    (h : Fallible.exec (syncPlans rt currency existing) w = (.ok (), w')) :
    Fallible.Relay (SyncedPair rt existing)
        ((w.db.activePlans.map CatalogItem.plan).map fun item => (currency, item)) w w' ∧
      w'.db.plans = w.db.plans ∧ w'.db.products = w.db.products := by
  rw [syncPlans_eq] at h
  obtain ⟨rows, t, hread, h₁⟩ := Fallible.exec_bind_eq_ok.mp h
  obtain ⟨rfl, rfl⟩ := query_eq_ok hread
  rw [Fallible.exec_forM_eq_ok, Fallible.relay_map] at h₁
  have hnodup := (List.nodup_append.mp w.db.nodup_items).1
  refine relay_current hserves hnodup ?_ (fun _ _ => rfl) (Fallible.relay_map.mpr h₁)
  intro item hitem
  exact Db.mem_items.mp (List.mem_append_left _ hitem)

theorem syncProducts_eq_ok (hserves : ServesCatalog rt.stripe view)
    (h : Fallible.exec (syncProducts rt currency existing) w = (.ok (), w')) :
    Fallible.Relay (SyncedPair rt existing)
        ((w.db.activeProducts.map CatalogItem.product).map fun item => (currency, item)) w w' ∧
      w'.db.plans = w.db.plans ∧ w'.db.products = w.db.products := by
  rw [syncProducts_eq] at h
  obtain ⟨rows, t, hread, h₁⟩ := Fallible.exec_bind_eq_ok.mp h
  obtain ⟨rfl, rfl⟩ := query_eq_ok hread
  rw [Fallible.exec_forM_eq_ok, Fallible.relay_map] at h₁
  have hnodup := (List.nodup_append.mp w.db.nodup_items).2.1
  refine relay_current hserves hnodup ?_ (fun _ _ => rfl) (Fallible.relay_map.mpr h₁)
  intro item hitem
  exact Db.mem_items.mp (List.mem_append_right _ hitem)

/-- The loops of a run that completes take every pair once, in order. -/
theorem syncPairs_eq_ok (hserves : ServesCatalog rt.stripe view) {currencies : List String}
    (h : Fallible.exec (currencies.forM fun currency => do
      syncPlans rt currency existing
      syncProducts rt currency existing : Handler σ Unit) w = (.ok (), w')) :
    Fallible.Relay (SyncedPair rt existing) (catalogPairs currencies w.db.items) w w' := by
  rw [Fallible.exec_forM_eq_ok] at h
  induction currencies generalizing w with
  | nil => exact h
  | cons currency currencies ih =>
      obtain ⟨r, hfirst, hrest⟩ := h
      obtain ⟨_, t, hplans, hproducts⟩ := Fallible.exec_bind_eq_ok.mp hfirst
      obtain ⟨hrelay, hp, hq⟩ := syncPlans_eq_ok hserves hplans
      obtain ⟨hrelay', hp', hq'⟩ := syncProducts_eq_ok hserves hproducts
      have hactive : t.db.activeProducts = w.db.activeProducts := by
        unfold Db.activeProducts
        rw [hq]
      have hitems : r.db.items = w.db.items :=
        Db.items_congr (hp'.trans hp) (hq'.trans hq)
      have hlater := ih hrest
      rw [hitems] at hlater
      rw [hactive] at hrelay'
      unfold catalogPairs
      rw [List.flatMap_cons, Fallible.relay_append]
      refine ⟨r, ?_, hlater⟩
      unfold Db.items
      rw [List.map_append, Fallible.relay_append]
      exact ⟨t, hrelay, hrelay'⟩

/-- A run that completes lists the prices, and then takes every pair once, in order. -/
theorem syncStripeCatalog_eq_ok (hserves : ServesCatalog rt.stripe view) (hkey : rt.apiKey ≠ "")
    (h : Fallible.exec (syncStripeCatalog rt) w = (.ok (), w')) :
    ∃ existing t, t.db = w.db ∧ view t.stripe = view w.stripe ∧
      (view w.stripe).Fetched existing (collectLookupKeys rt w.db) ∧
      Fallible.Relay (SyncedPair rt existing) (catalogPairs rt.currencies w.db.items) t w' := by
  unfold syncStripeCatalog at h
  rw [if_neg hkey] at h
  obtain ⟨keys, t, hread, h₁⟩ := Fallible.exec_bind_eq_ok.mp h
  obtain ⟨rfl, rfl⟩ := query_eq_ok hread
  obtain ⟨existing', t', hfetch, h₂⟩ := Fallible.exec_bind_eq_ok.mp h₁
  obtain ⟨-, existing, r, hexec, hdb, hview, hfetched⟩ :=
    exec_bulkFetchExisting hserves (collectLookupKeys rt w.db) w
  obtain ⟨hsame, rfl⟩ := Prod.ext_iff.mp (hexec.symm.trans hfetch)
  obtain rfl := Except.ok.inj hsame
  have hrelay := syncPairs_eq_ok hserves h₂
  dsimp only at hrelay hdb hview
  rw [hdb] at hrelay
  exact ⟨existing, r, hdb, hview, hfetched, hrelay⟩

end Loops

/-! ## Distinct lookup keys -/

section Distinct

variable {rt : CatalogRuntime σ} {db : Db}

/-- The lookup key of a pair. -/
def pairKey (rt : CatalogRuntime σ) (pair : String × CatalogItem) : String :=
  pair.2.lookupKey rt.strLower pair.1

theorem pairKey_perm (rt : CatalogRuntime σ) (db : Db) :
    ((catalogPairs rt.currencies db.items).map (pairKey rt)).Perm (collectLookupKeys rt db) := by
  have hkeys : collectLookupKeys rt db =
      db.items.flatMap fun item => rt.currencies.map fun c => item.lookupKey rt.strLower c := by
    unfold Db.items
    rw [List.flatMap_append, List.flatMap_map, List.flatMap_map]
    rfl
  have hpairs : (catalogPairs rt.currencies db.items).map (pairKey rt) =
      rt.currencies.flatMap fun c => db.items.map fun item => item.lookupKey rt.strLower c := by
    unfold catalogPairs
    rw [List.map_flatMap]
    simp only [List.map_map]
    rfl
  rw [hkeys, hpairs, ← Multiset.coe_eq_coe, ← Multiset.coe_bind, ← Multiset.coe_bind]
  simp only [← Multiset.map_coe]
  exact Multiset.bind_map_comm (rt.currencies : Multiset String) (db.items : Multiset CatalogItem)

theorem mem_catalogPairs {currencies : List String} {items : List CatalogItem}
    {pair : String × CatalogItem} :
    pair ∈ catalogPairs currencies items ↔ pair.1 ∈ currencies ∧ pair.2 ∈ items := by
  unfold catalogPairs
  rw [List.mem_flatMap]
  constructor
  · rintro ⟨c, hc, hpair⟩
    obtain ⟨item, hitem, rfl⟩ := List.mem_map.mp hpair
    exact ⟨hc, hitem⟩
  · exact fun ⟨hc, hitem⟩ => ⟨pair.1, hc, List.mem_map.mpr ⟨pair.2, hitem, rfl⟩⟩

/-- The pair of a turn has another key than those before and those after it. -/
theorem pairKey_apart (hkeys : (collectLookupKeys rt db).Nodup)
    {done rest : List (String × CatalogItem)} {pair : String × CatalogItem}
    (hsplit : done ++ pair :: rest = catalogPairs rt.currencies db.items) :
    (∀ other ∈ done, pairKey rt other ≠ pairKey rt pair) ∧
      ∀ other ∈ rest, pairKey rt other ≠ pairKey rt pair := by
  have hnodup := (pairKey_perm rt db).nodup_iff.mpr hkeys
  rw [← hsplit, List.map_append, List.map_cons] at hnodup
  obtain ⟨-, hlater, hdisjoint⟩ := List.nodup_append.mp hnodup
  constructor
  · intro other hother
    exact hdisjoint _ (List.mem_map_of_mem hother) _ List.mem_cons_self
  · intro other hother hsame
    have hmem : pairKey rt other ∈ rest.map (pairKey rt) := List.mem_map_of_mem hother
    rw [hsame] at hmem
    exact (List.nodup_cons.mp hlater).1 hmem

theorem pairKey_mem {pair : String × CatalogItem}
    (hpair : pair ∈ catalogPairs rt.currencies db.items) :
    pairKey rt pair ∈ collectLookupKeys rt db :=
  (pairKey_perm rt db).mem_iff.mp (List.mem_map_of_mem hpair)

end Distinct

end Saasmint
