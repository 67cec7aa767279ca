import Saasmint.Catalog.Minting

/-!
# Stamping one price

What `_write_price_id` makes of the database.  It rewrites the stamp of at most one
row, so that the rows of the catalog, their order and their amounts stay, and with them
every stamp but one.
-/

namespace Saasmint

open Atomic Handler Relational

variable {σ : Type}

/-! ## Rows, amounts and stamps -/

namespace Db

/-- `getattr(item, "price", None)`, as it is stored now. -/
def priceOf (db : Db) : CatalogItem → Option CatalogPrice
  | .plan plan => (db.priceOfPlan plan).map .plan
  | .product product => (db.priceOfProduct product).map .product

/-- The amount of a price in a currency. -/
def amountIn (db : Db) (price : CatalogPrice) (currency : String) : Option Int :=
  if currency = "usd" then some price.amount
  else (db.localizedOf price currency).map LocalizedPrice.amountMinor

/-- The Stripe price id on the row of a price in a currency. -/
def stampIn (db : Db) (price : CatalogPrice) (currency : String) : Option String :=
  if currency = "usd" then some price.stripePriceId
  else (db.localizedOf price currency).bind LocalizedPrice.stripePriceId

def itemAmount (db : Db) (item : CatalogItem) (currency : String) : Option Int :=
  (db.priceOf item).bind fun price => db.amountIn price currency

def itemStamp (db : Db) (item : CatalogItem) (currency : String) : Option String :=
  (db.priceOf item).bind fun price => db.stampIn price currency

theorem itemAmount_usd (db : Db) (item : CatalogItem) :
    db.itemAmount item "usd" = (db.priceOf item).map CatalogPrice.amount := by
  unfold itemAmount
  cases db.priceOf item <;> rfl

end Db

/-! ## Rewritten stamps -/

/-- The stamps of each table after a rewrite. -/
structure Stamps where
  plan : PlanPrice → String
  product : ProductPrice → String
  localized : LocalizedPrice → Option String

namespace Stamps

/-- The stamps that are stored. -/
def stored : Stamps where
  plan := PlanPrice.stripePriceId
  product := ProductPrice.stripePriceId
  localized := LocalizedPrice.stripePriceId

/-- One price has another stamp. -/
def onPrice (price : CatalogPrice) (stripePriceId : String) : Stamps where
  plan q := if CatalogPrice.plan q = price then stripePriceId else q.stripePriceId
  product q := if CatalogPrice.product q = price then stripePriceId else q.stripePriceId
  localized := LocalizedPrice.stripePriceId

/-- One localized row has another stamp. -/
def onLocalized (row : LocalizedPrice) (stripePriceId : String) : Stamps where
  plan := PlanPrice.stripePriceId
  product := ProductPrice.stripePriceId
  localized q := if q = row then some stripePriceId else q.stripePriceId

variable (stamps : Stamps)

def price : CatalogPrice → CatalogPrice
  | .plan p => .plan { p with stripePriceId := stamps.plan p }
  | .product p => .product { p with stripePriceId := stamps.product p }

def row (r : LocalizedPrice) : LocalizedPrice := { r with stripePriceId := stamps.localized r }

/-- The database differs in the stamps only. -/
structure Rewrites (db db' : Db) : Prop where
  plans : db'.plans = db.plans
  products : db'.products = db.products
  planPrices : db'.planPrices.rows =
    db.planPrices.rows.map fun p => { p with stripePriceId := stamps.plan p }
  productPrices : db'.productPrices.rows =
    db.productPrices.rows.map fun p => { p with stripePriceId := stamps.product p }
  localizedPrices : db'.localizedPrices.rows = db.localizedPrices.rows.map stamps.row

variable {stamps}

@[simp] theorem amount_price (price : CatalogPrice) :
    (stamps.price price).amount = price.amount := by
  cases price <;> rfl

@[simp] theorem owns_price (price : CatalogPrice) (r : LocalizedPrice) :
    (stamps.price price).owns r = price.owns r := by
  cases price <;> rfl

@[simp] theorem owns_row (price : CatalogPrice) (r : LocalizedPrice) :
    price.owns (stamps.row r) = price.owns r := by
  cases price <;> rfl

namespace Rewrites

variable {db db' : Db} (h : stamps.Rewrites db db')

include h

theorem priceOf (item : CatalogItem) : db'.priceOf item = (db.priceOf item).map stamps.price := by
  cases item with
  | plan plan =>
      simp only [Db.priceOf, Db.priceOfPlan, Table.find?, h.planPrices, List.find?_map,
        Option.map_map]
      rfl
  | product product =>
      simp only [Db.priceOf, Db.priceOfProduct, Table.find?, h.productPrices, List.find?_map,
        Option.map_map]
      rfl

theorem localizedOf (price : CatalogPrice) (currency : String) :
    db'.localizedOf (stamps.price price) currency =
      (db.localizedOf price currency).map stamps.row := by
  simp only [Db.localizedOf, Table.find?, h.localizedPrices, List.find?_map]
  refine congrArg (Option.map stamps.row ∘ (List.find? · db.localizedPrices.rows)) ?_
  funext r
  simp only [Function.comp_apply, owns_price, owns_row]
  rfl

theorem itemAmount (item : CatalogItem) (currency : String) :
    db'.itemAmount item currency = db.itemAmount item currency := by
  simp only [Db.itemAmount, h.priceOf, Option.bind_map]
  congr 1
  funext price
  simp only [Function.comp_apply, Db.amountIn, amount_price, h.localizedOf, Option.map_map]
  rfl

theorem itemStamp_usd (item : CatalogItem) :
    db'.itemStamp item "usd" =
      (db.priceOf item).map fun price => (stamps.price price).stripePriceId := by
  simp only [Db.itemStamp, h.priceOf, Db.stampIn, if_pos]
  cases db.priceOf item <;> rfl

theorem itemStamp (item : CatalogItem) {currency : String} (husd : currency ≠ "usd") :
    db'.itemStamp item currency =
      (db.priceOf item).bind fun price => (db.localizedOf price currency).bind stamps.localized := by
  simp only [Db.itemStamp, h.priceOf, Option.bind_map]
  congr 1
  funext price
  simp only [Function.comp_apply, Db.stampIn, if_neg husd, h.localizedOf, Option.bind_map]
  rfl

end Rewrites

end Stamps

/-! ## One row per item and currency -/

namespace Db

variable {db : Db} {item item' : CatalogItem} {price price' : CatalogPrice} {row : LocalizedPrice}
  {currency currency' : String}

theorem priceOfPlan_eq_some {plan : Plan} {p : PlanPrice} (h : db.priceOfPlan plan = some p) :
    p ∈ db.planPrices.rows ∧ p.planId = plan.id := by
  obtain ⟨hmem, hid⟩ := Table.mem_of_find? h
  exact ⟨hmem, beq_iff_eq.mp hid⟩

theorem priceOfProduct_eq_some {product : Product} {p : ProductPrice}
    (h : db.priceOfProduct product = some p) :
    p ∈ db.productPrices.rows ∧ p.productId = product.id := by
  obtain ⟨hmem, hid⟩ := Table.mem_of_find? h
  exact ⟨hmem, beq_iff_eq.mp hid⟩

theorem hasPrice_of_priceOf (h : db.priceOf item = some price) : db.HasPrice price := by
  cases item with
  | plan plan =>
      obtain ⟨p, hp, rfl⟩ := Option.map_eq_some_iff.mp h
      exact (priceOfPlan_eq_some hp).1
  | product product =>
      obtain ⟨p, hp, rfl⟩ := Option.map_eq_some_iff.mp h
      exact (priceOfProduct_eq_some hp).1

/-- Different items have different prices. -/
theorem item_unique (hitem : item.Listed db) (hitem' : item'.Listed db)
    (h : db.priceOf item = some price) (h' : db.priceOf item' = some price) : item = item' := by
  cases item with
  | plan plan =>
      obtain ⟨p, hp, rfl⟩ := Option.map_eq_some_iff.mp h
      cases item' with
      | plan plan' =>
          obtain ⟨p', hp', hsame⟩ := Option.map_eq_some_iff.mp h'
          obtain rfl : p' = p := CatalogPrice.plan.inj hsame
          have hid : plan.id = plan'.id :=
            (priceOfPlan_eq_some hp).2.symm.trans (priceOfPlan_eq_some hp').2
          rw [db.plans.eq_of_clash hitem.1 hitem'.1 (Or.inl hid)]
      | product product =>
          obtain ⟨p', -, hsame⟩ := Option.map_eq_some_iff.mp h'
          cases hsame
  | product product =>
      obtain ⟨p, hp, rfl⟩ := Option.map_eq_some_iff.mp h
      cases item' with
      | plan plan =>
          obtain ⟨p', -, hsame⟩ := Option.map_eq_some_iff.mp h'
          cases hsame
      | product product' =>
          obtain ⟨p', hp', hsame⟩ := Option.map_eq_some_iff.mp h'
          obtain rfl : p' = p := CatalogPrice.product.inj hsame
          have hid : product.id = product'.id :=
            (priceOfProduct_eq_some hp).2.symm.trans (priceOfProduct_eq_some hp').2
          rw [db.products.eq_of_clash hitem.1 hitem'.1 hid]

theorem localizedOf_eq_some (h : db.localizedOf price currency = some row) :
    row ∈ db.localizedPrices.rows ∧ price.owns row = true ∧ row.currency = currency := by
  obtain ⟨hmem, hfound⟩ := Table.mem_of_find? h
  rw [Bool.and_eq_true, beq_iff_eq] at hfound
  exact ⟨hmem, hfound⟩

/-- A localized row is of one price. -/
theorem owner_unique (hprice : db.HasPrice price) (hprice' : db.HasPrice price')
    (hrow : row ∈ db.localizedPrices.rows) (h : price.owns row = true)
    (h' : price'.owns row = true) : price = price' := by
  have hone : oneOwner row.planPriceId row.productPriceId := db.localizedPrices.check_of_mem hrow
  unfold CatalogPrice.owns at h h'
  cases price with
  | plan p =>
      have hplan : row.planPriceId = some p.id := beq_iff_eq.mp h
      cases price' with
      | plan p' =>
          have hid : p.id = p'.id := Option.some.inj (hplan.symm.trans (beq_iff_eq.mp h'))
          rw [db.planPrices.eq_of_clash hprice hprice' (Or.inl hid)]
      | product p' =>
          have hproduct : row.productPriceId = some p'.id := beq_iff_eq.mp h'
          simp [oneOwner, hplan, hproduct] at hone
  | product p =>
      have hproduct : row.productPriceId = some p.id := beq_iff_eq.mp h
      cases price' with
      | plan p' =>
          have hplan : row.planPriceId = some p'.id := beq_iff_eq.mp h'
          simp [oneOwner, hplan, hproduct] at hone
      | product p' =>
          have hid : p.id = p'.id := Option.some.inj (hproduct.symm.trans (beq_iff_eq.mp h'))
          rw [db.productPrices.eq_of_clash hprice hprice' (Or.inl hid)]

end Db

/-! ## The two statements -/

section Statements

variable {db db' : Db} {item : CatalogItem} {price : CatalogPrice} {row : LocalizedPrice}
  {stripePriceId : String}

theorem stampPrice_eq_ok (hprice : db.HasPrice price)
    (h : stampPrice db price stripePriceId = .ok db') :
    (Stamps.onPrice price stripePriceId).Rewrites db db' := by
  unfold stampPrice at h
  split at h
  next =>
      cases price with
      | plan p =>
          dsimp only at h
          split at h
          next rows hrows =>
              have htables := Db.commit_eq_ok.mp h
              have hrewritten := Table.rows_update?_key PlanPrice.id
                (fun _ _ hid => Or.inl hid) hprice hrows
              constructor
              · rw [htables]
              · rw [htables]
              · rw [htables]
                refine hrewritten.trans (List.map_congr_left fun q _ => ?_)
                simp only [Stamps.onPrice, CatalogPrice.plan.injEq]
                split <;> rfl
              · rw [htables]
                simp [Stamps.onPrice]
              · rw [htables]
                exact (List.map_id _).symm
          next => cases h
      | product p =>
          dsimp only at h
          split at h
          next rows hrows =>
              have htables := Db.commit_eq_ok.mp h
              have hrewritten := Table.rows_update?_key ProductPrice.id
                (fun _ _ hid => Or.inl hid) hprice hrows
              constructor
              · rw [htables]
              · rw [htables]
              · rw [htables]
                simp [Stamps.onPrice]
              · rw [htables]
                refine hrewritten.trans (List.map_congr_left fun q _ => ?_)
                simp only [Stamps.onPrice, CatalogPrice.product.injEq]
                split <;> rfl
              · rw [htables]
                exact (List.map_id _).symm
          next => cases h
  next => cases h

theorem stampLocalized_eq_ok (hrow : row ∈ db.localizedPrices.rows)
    (h : stampLocalized db row stripePriceId = .ok db') :
    (Stamps.onLocalized row stripePriceId).Rewrites db db' := by
  unfold stampLocalized at h
  split at h
  next =>
      split at h
      next rows hrows =>
          have htables := Db.commit_eq_ok.mp h
          have hrewritten := Table.rows_update?_key LocalizedPrice.id
            (fun _ _ hid => Or.inl hid) hrow hrows
          constructor
          · rw [htables]
          · rw [htables]
          · rw [htables]
            simp [Stamps.onLocalized]
          · rw [htables]
            simp [Stamps.onLocalized]
          · rw [htables]
            refine hrewritten.trans (List.map_congr_left fun q _ => ?_)
            simp only [Stamps.row, Stamps.onLocalized]
            split <;> rfl
      next => cases h
  next => cases h

end Statements

/-! ## What `_write_price_id` writes -/

/-- Of the stamps, the one of this item and currency is written. -/
structure Stamped (item : CatalogItem) (currency stripePriceId : String) (db db' : Db) : Prop where
  plans : db'.plans = db.plans
  products : db'.products = db.products
  amounts : ∀ item' c, db'.itemAmount item' c = db.itemAmount item' c
  stamp : (db.itemAmount item currency).isSome → db'.itemStamp item currency = some stripePriceId
  others : ∀ item' c, item'.Listed db → (item', c) ≠ (item, currency) →
    db'.itemStamp item' c = db.itemStamp item' c
  prices : ∀ item', item'.Listed db → item' ≠ item → db'.priceOf item' = db.priceOf item'
  prices_foreign : currency ≠ "usd" → ∀ item', db'.priceOf item' = db.priceOf item'

section Stamped

variable {db db' : Db} {item : CatalogItem} {price : CatalogPrice} {row : LocalizedPrice}
  {currency stripePriceId : String}

theorem Stamped.unchanged (h : (db.itemAmount item currency).isSome →
    db.itemStamp item currency = some stripePriceId) :
    Stamped item currency stripePriceId db db where
  plans := rfl
  products := rfl
  amounts _ _ := rfl
  stamp := h
  others _ _ _ _ := rfl
  prices _ _ _ := rfl
  prices_foreign _ _ := rfl

theorem stripePriceId_onPrice (price' : CatalogPrice) :
    ((Stamps.onPrice price stripePriceId).price price').stripePriceId =
      if price' = price then stripePriceId else price'.stripePriceId := by
  cases price' <;> rfl

theorem price_onPrice_of_ne {price' : CatalogPrice} (h : price' ≠ price) :
    (Stamps.onPrice price stripePriceId).price price' = price' := by
  cases price' <;> simp [Stamps.price, Stamps.onPrice, h]

theorem stamped_onPrice (hitem : item.Listed db) (hprice : db.priceOf item = some price)
    (h : (Stamps.onPrice price stripePriceId).Rewrites db db') :
    Stamped item "usd" stripePriceId db db' where
  plans := h.plans
  products := h.products
  amounts := h.itemAmount
  stamp _ := by
    rw [h.itemStamp_usd, hprice, Option.map_some, stripePriceId_onPrice, if_pos rfl]
  others := by
    intro item' c hitem' hne
    by_cases husd : c = "usd"
    · subst husd
      rw [h.itemStamp_usd, Db.itemStamp]
      cases hprice' : db.priceOf item' with
      | none => rfl
      | some price' =>
          have hdiffer : price' ≠ price := by
            rintro rfl
            exact hne (congrArg (·, "usd") (Db.item_unique hitem' hitem hprice' hprice))
          rw [Option.map_some, stripePriceId_onPrice, if_neg hdiffer]
          rfl
    · rw [h.itemStamp item' husd]
      simp only [Db.itemStamp, Db.stampIn, if_neg husd]
      rfl
  prices := by
    intro item' hitem' hne
    rw [h.priceOf]
    cases hprice' : db.priceOf item' with
    | none => rfl
    | some price' =>
        have hdiffer : price' ≠ price := by
          rintro rfl
          exact hne (Db.item_unique hitem' hitem hprice' hprice)
        rw [Option.map_some, price_onPrice_of_ne hdiffer]
  prices_foreign hforeign := absurd rfl hforeign

theorem stamped_onLocalized (hitem : item.Listed db) (hprice : db.priceOf item = some price)
    (husd : currency ≠ "usd") (hrow : db.localizedOf price currency = some row)
    (h : (Stamps.onLocalized row stripePriceId).Rewrites db db') :
    Stamped item currency stripePriceId db db' where
  plans := h.plans
  products := h.products
  amounts := h.itemAmount
  stamp _ := by
    rw [h.itemStamp item husd, hprice, Option.bind_some, hrow, Option.bind_some]
    exact if_pos rfl
  others := by
    intro item' c hitem' hne
    by_cases husd' : c = "usd"
    · subst husd'
      rw [h.itemStamp_usd, Db.itemStamp]
      cases db.priceOf item' with
      | none => rfl
      | some price' => cases price' <;> rfl
    · rw [h.itemStamp item' husd']
      simp only [Db.itemStamp, Db.stampIn, if_neg husd']
      cases hprice' : db.priceOf item' with
      | none => rfl
      | some price' =>
          rw [Option.bind_some, Option.bind_some]
          cases hrow' : db.localizedOf price' c with
          | none => rfl
          | some row' =>
              rw [Option.bind_some, Option.bind_some]
              refine if_neg ?_
              rintro rfl
              -- the row is of one price and one currency
              obtain ⟨hmem, howns, hcurrency⟩ := Db.localizedOf_eq_some hrow
              obtain ⟨-, howns', hcurrency'⟩ := Db.localizedOf_eq_some hrow'
              obtain rfl := Db.owner_unique (Db.hasPrice_of_priceOf hprice)
                (Db.hasPrice_of_priceOf hprice') hmem howns howns'
              obtain rfl := Db.item_unique hitem' hitem hprice' hprice
              exact hne (congrArg (item', ·) (hcurrency'.symm.trans hcurrency))
  prices item' _ _ := by
    rw [h.priceOf]
    cases db.priceOf item' with
    | none => rfl
    | some price' => cases price' <;> rfl
  prices_foreign _ item' := by
    rw [h.priceOf]
    cases db.priceOf item' with
    | none => rfl
    | some price' => cases price' <;> rfl

theorem writePriceId_eq_ok {w w' : World σ} (hitem : item.Listed w.db)
    (hprice : w.db.priceOf item = some price)
    (h : Fallible.exec (writePriceId price stripePriceId currency) w = (.ok (), w')) :
    w'.stripe = w.stripe ∧ Stamped item currency stripePriceId w.db w'.db := by
  unfold writePriceId at h
  split at h
  next husd =>
      subst husd
      split at h
      next hsame =>
          cases h
          refine ⟨rfl, .unchanged fun _ => ?_⟩
          rw [Db.itemStamp, hprice, hsame]
          rfl
      next =>
          rw [exec_transaction] at h
          cases hstamp : stampPrice w.db price stripePriceId with
          | error e =>
              rw [hstamp] at h
              cases h
          | ok db' =>
              rw [hstamp] at h
              cases h
              have hrewrites := stampPrice_eq_ok (Db.hasPrice_of_priceOf hprice) hstamp
              exact ⟨rfl, stamped_onPrice hitem hprice hrewrites⟩
  next husd =>
      obtain ⟨found, t, hread, h₁⟩ := Fallible.exec_bind_eq_ok.mp h
      obtain ⟨rfl, rfl⟩ := query_eq_ok hread
      cases hrow : w.db.localizedOf price currency with
      | none =>
          rw [hrow] at h₁
          cases h₁
          refine ⟨rfl, .unchanged fun hsome => ?_⟩
          simp [Db.itemAmount, hprice, Db.amountIn, husd, hrow] at hsome
      | some row =>
          rw [hrow] at h₁
          dsimp only at h₁
          split at h₁
          next hsame =>
              cases h₁
              refine ⟨rfl, .unchanged fun _ => ?_⟩
              rw [Db.itemStamp, hprice, Option.bind_some, Db.stampIn, if_neg husd, hrow,
                Option.bind_some, hsame]
          next =>
              rw [exec_transaction] at h₁
              cases hstamp : stampLocalized w.db row stripePriceId with
              | error e =>
                  rw [hstamp] at h₁
                  cases h₁
              | ok db' =>
                  rw [hstamp] at h₁
                  cases h₁
                  have hrewrites := stampLocalized_eq_ok (Db.localizedOf_eq_some hrow).1 hstamp
                  exact ⟨rfl, stamped_onLocalized hitem hprice husd hrow hrewrites⟩

end Stamped

end Saasmint
