import Saasmint.Catalog.Traversal

/-!
# Localizing the prices

What `sync_localized_prices` makes of the amounts of the catalog: the amount of a
price in a currency is what the rates give for its USD amount, and where they give
none it stays.  This is a function of the amounts alone, `localizedAmounts`; to apply
it twice is to apply it once.  The stamps stay.
-/

namespace Saasmint

open Atomic Handler Relational

variable {σ : Type}

/-! ## Amounts -/

/-- The amounts once the prices have been localized from a feed. -/
def localizedAmounts (feed : Option (Int → String → Option Int))
    (amounts : CatalogItem → String → Option Int) (item : CatalogItem) (currency : String) :
    Option Int :=
  if currency = "usd" then amounts item currency
  else (feed.bind fun rates => (amounts item "usd").bind fun amount =>
    (computeNewAmounts rates amount).lookup currency).or (amounts item currency)

section Amounts

variable {feed : Option (Int → String → Option Int)}
  {amounts : CatalogItem → String → Option Int}

@[simp] theorem localizedAmounts_usd (item : CatalogItem) :
    localizedAmounts feed amounts item "usd" = amounts item "usd" := rfl

theorem localizedAmounts_none : localizedAmounts none amounts = amounts := by
  funext item currency
  unfold localizedAmounts
  split
  · rfl
  · rw [Option.bind_none, Option.none_or]

theorem localizedAmounts_idem :
    localizedAmounts feed (localizedAmounts feed amounts) = localizedAmounts feed amounts := by
  funext item currency
  by_cases husd : currency = "usd"
  · simp [localizedAmounts, husd]
  · simp only [localizedAmounts, if_neg husd, if_pos, ← Option.or_assoc, Option.or_self]

theorem lookup_computeNewAmounts {rates : Int → String → Option Int} {amount newAmount : Int}
    {currency : String} (h : (currency, newAmount) ∈ computeNewAmounts rates amount) :
    (computeNewAmounts rates amount).lookup currency = some newAmount := by
  have hentry : ∀ entry ∈ computeNewAmounts rates amount, rates amount entry.1 = some entry.2 := by
    intro entry hmem
    obtain ⟨c, -, hrate⟩ := List.mem_filterMap.mp hmem
    obtain ⟨a, ha, rfl⟩ := Option.map_eq_some_iff.mp hrate
    exact ha
  cases hlookup : (computeNewAmounts rates amount).lookup currency with
  | none =>
      have hdiffer : (currency != currency) = true := List.lookup_eq_none_iff.mp hlookup _ h
      simp at hdiffer
  | some found =>
      obtain ⟨before, after, hsplit, -⟩ := List.lookup_eq_some_iff.mp hlookup
      have hmem : (currency, found) ∈ computeNewAmounts rates amount := by
        rw [hsplit]
        exact List.mem_append_right _ List.mem_cons_self
      exact (hentry _ hmem).symm.trans (hentry _ h)

end Amounts

/-! ## Rows -/

section Rows

variable {db db' : Db} {rates : Int → String → Option Int} {now : Datetime}
  {localizedId : UUID → String → UUID} {price : CatalogPrice} {row : LocalizedPrice}
  {currency : String}

theorem mem_catalogPrices : price ∈ db.toTables.catalogPrices ↔ db.HasPrice price := by
  unfold Tables.catalogPrices Db.HasPrice
  rw [List.mem_append, List.mem_map, List.mem_map]
  cases price with
  | plan p => simp
  | product p => simp

variable (rates now) in
theorem relocalized_frame (t : Tables) (row : LocalizedPrice) :
    (∀ price : CatalogPrice, price.owns (relocalized t rates now row) = price.owns row) ∧
      (relocalized t rates now row).currency = row.currency ∧
      (relocalized t rates now row).stripePriceId = row.stripePriceId := by
  unfold relocalized
  split
  · exact ⟨fun _ => rfl, rfl, rfl⟩
  · split
    · exact ⟨fun _ => rfl, rfl, rfl⟩
    · refine ⟨fun price => ?_, rfl, rfl⟩
      cases price <;> rfl

theorem find?_owner (hprice : db.HasPrice price) (hrow : row ∈ db.localizedPrices.rows)
    (howns : price.owns row = true) :
    db.toTables.catalogPrices.find? (·.owns row) = some price := by
  cases hfound : db.toTables.catalogPrices.find? (·.owns row) with
  | none => exact absurd howns (List.find?_eq_none.mp hfound _ (mem_catalogPrices.mpr hprice))
  | some price' =>
      have hprice' := mem_catalogPrices.mp (List.mem_of_find?_eq_some hfound)
      have howns' : price'.owns row = true := List.find?_some hfound
      rw [Db.owner_unique hprice' hprice hrow howns' howns]

variable (rates now) in
/-- The stored row of a price has the amount of the rates. -/
theorem amountMinor_relocalized (hprice : db.HasPrice price)
    (hrow : row ∈ db.localizedPrices.rows) (howns : price.owns row = true) :
    (relocalized db.toTables rates now row).amountMinor =
      ((computeNewAmounts rates price.amount).lookup row.currency).getD row.amountMinor := by
  unfold relocalized
  rw [find?_owner hprice hrow howns]
  dsimp only
  cases (computeNewAmounts rates price.amount).lookup row.currency <;> rfl

/-- A row that was missing. -/
theorem mem_missingLocalized (h : row ∈ missingLocalized db.toTables rates now localizedId) :
    ∃ price, db.HasPrice price ∧ price.owns row = true ∧ row.stripePriceId = none ∧
      (row.currency, row.amountMinor) ∈ computeNewAmounts rates price.amount := by
  obtain ⟨price, hprice, hrow⟩ := List.mem_flatMap.mp h
  obtain ⟨entry, hentry, hnew⟩ := List.mem_filterMap.mp hrow
  split at hnew
  · cases hnew
  · obtain rfl := Option.some.inj hnew
    refine ⟨price, mem_catalogPrices.mp hprice, ?_, rfl, hentry⟩
    cases price <;> simp [CatalogPrice.owns]

variable (now localizedId) in
theorem exists_missingLocalized {amount : Int} (hprice : db.HasPrice price)
    (hnone : db.localizedOf price currency = none)
    (h : (currency, amount) ∈ computeNewAmounts rates price.amount) :
    ∃ row ∈ missingLocalized db.toTables rates now localizedId,
      price.owns row = true ∧ row.currency = currency := by
  have hmissing : (db.localizedPrices.rows.any fun row =>
      price.owns row && row.currency == currency) = false := by
    rw [List.any_eq_false]
    exact fun row hrow => Table.find?_eq_none.mp hnone row hrow
  cases price with
  | plan p =>
      refine ⟨⟨localizedId p.id currency, some p.id, none, currency, amount, none, now⟩,
        List.mem_flatMap.mpr ⟨.plan p, mem_catalogPrices.mpr hprice,
          List.mem_filterMap.mpr ⟨(currency, amount), h, ?_⟩⟩, by simp [CatalogPrice.owns], rfl⟩
      dsimp only
      rw [hmissing]
      rfl
  | product p =>
      refine ⟨⟨localizedId p.id currency, none, some p.id, currency, amount, none, now⟩,
        List.mem_flatMap.mpr ⟨.product p, mem_catalogPrices.mpr hprice,
          List.mem_filterMap.mpr ⟨(currency, amount), h, ?_⟩⟩, by simp [CatalogPrice.owns], rfl⟩
      dsimp only
      rw [hmissing]
      rfl

theorem hasPrice_congr {table : Table LocalizedPrice}
    (h : db'.toTables = { db.toTables with localizedPrices := table }) :
    db'.HasPrice price ↔ db.HasPrice price := by
  cases price <;> simp only [Db.HasPrice, h]

/-- The row of a price in a currency after the rows were localized. -/
theorem localizedOf_relocalized (hprice : db.HasPrice price) {table : Table LocalizedPrice}
    (hrows : table.rows = db.localizedPrices.rows.map (relocalized db.toTables rates now) ++
      missingLocalized db.toTables rates now localizedId)
    (htables : db'.toTables = { db.toTables with localizedPrices := table }) :
    (db'.localizedOf price currency).map LocalizedPrice.amountMinor =
        ((computeNewAmounts rates price.amount).lookup currency).or
          ((db.localizedOf price currency).map LocalizedPrice.amountMinor) ∧
      (db'.localizedOf price currency).bind LocalizedPrice.stripePriceId =
        (db.localizedOf price currency).bind LocalizedPrice.stripePriceId := by
  have hsplit : db'.localizedOf price currency =
      ((db.localizedOf price currency).map (relocalized db.toTables rates now)).or
        ((missingLocalized db.toTables rates now localizedId).find? fun row =>
          price.owns row && row.currency == currency) := by
    unfold Db.localizedOf Table.find?
    rw [htables]
    dsimp only
    rw [hrows, List.find?_append, List.find?_map]
    congr 3
    funext row
    obtain ⟨howns, hcurrency, -⟩ := relocalized_frame rates now db.toTables row
    simp only [Function.comp_apply, howns, hcurrency]
  cases hstored : db.localizedOf price currency with
  | some row =>
      obtain ⟨hrow, howns, hcurrency⟩ := Db.localizedOf_eq_some hstored
      have hamount := amountMinor_relocalized rates now hprice hrow howns
      rw [hsplit, hstored, Option.map_some, Option.some_or, Option.map_some, Option.bind_some,
        Option.bind_some, hamount, hcurrency, Option.map_some, Option.or_some]
      exact ⟨rfl, (relocalized_frame rates now db.toTables row).2.2⟩
  | none =>
      rw [hsplit, hstored, Option.map_none, Option.none_or, Option.map_none, Option.or_none,
        Option.bind_none]
      cases hfound : (missingLocalized db.toTables rates now localizedId).find? fun row =>
          price.owns row && row.currency == currency with
      | some row =>
          have hmem := List.mem_of_find?_eq_some hfound
          have hselected := List.find?_some hfound
          rw [Bool.and_eq_true, beq_iff_eq] at hselected
          obtain ⟨price', hprice', howns', hunstamped, hentry⟩ := mem_missingLocalized hmem
          have hstored' : row ∈ db'.localizedPrices.rows := by
            rw [htables, hrows]
            exact List.mem_append_right _ hmem
          obtain rfl : price' = price := Db.owner_unique ((hasPrice_congr htables).mpr hprice')
            ((hasPrice_congr htables).mpr hprice) hstored' howns' hselected.1
          rw [hselected.2] at hentry
          rw [Option.map_some, Option.bind_some, lookup_computeNewAmounts hentry]
          exact ⟨rfl, hunstamped⟩
      | none =>
          refine ⟨?_, rfl⟩
          rw [Option.map_none]
          symm
          cases hlookup : (computeNewAmounts rates price.amount).lookup currency with
          | none => rfl
          | some amount =>
              -- the rates give an amount, so the row was not missing any more
              obtain ⟨before, after, hentries, -⟩ := List.lookup_eq_some_iff.mp hlookup
              have hentry : (currency, amount) ∈ computeNewAmounts rates price.amount := by
                rw [hentries]
                exact List.mem_append_right _ List.mem_cons_self
              obtain ⟨row, hrow, howns, hcurrency⟩ :=
                exists_missingLocalized now localizedId hprice hstored hentry
              have hnone := List.find?_eq_none.mp hfound row hrow
              rw [howns, hcurrency, Bool.true_and, beq_self_eq_true] at hnone
              exact absurd rfl hnone

theorem localizedOf_localized (hprice : db.HasPrice price)
    (h : localizePrices rates now localizedId db = .ok db') :
    (db'.localizedOf price currency).map LocalizedPrice.amountMinor =
        ((computeNewAmounts rates price.amount).lookup currency).or
          ((db.localizedOf price currency).map LocalizedPrice.amountMinor) ∧
      (db'.localizedOf price currency).bind LocalizedPrice.stripePriceId =
        (db.localizedOf price currency).bind LocalizedPrice.stripePriceId := by
  obtain ⟨table, hrows, htables⟩ := localizePrices_eq_ok h
  exact localizedOf_relocalized hprice hrows htables

end Rows

/-! ## The task -/

section Task

variable {rt : CatalogRuntime σ} {w w' : World σ}

theorem priceOf_localized (h : Fallible.exec (syncLocalizedPrices rt) w = (.ok (), w'))
    (item : CatalogItem) : w'.db.priceOf item = w.db.priceOf item := by
  obtain ⟨-, table, htables⟩ := syncLocalizedPrices_frame h
  cases item <;> simp only [Db.priceOf, Db.priceOfPlan, Db.priceOfProduct, htables]

theorem itemAmount_localized (h : Fallible.exec (syncLocalizedPrices rt) w = (.ok (), w')) :
    w'.db.itemAmount = localizedAmounts (rt.rates w.stripe) w.db.itemAmount := by
  have hprices := priceOf_localized h
  rcases syncLocalizedPrices_eq_ok h with ⟨hnone, rfl⟩ | ⟨rates, db', hrates, hlocalize, rfl⟩
  · rw [hnone, localizedAmounts_none]
  · funext item currency
    rw [hrates]
    unfold localizedAmounts
    by_cases husd : currency = "usd"
    · rw [if_pos husd, husd, Db.itemAmount_usd, Db.itemAmount_usd, hprices]
    · rw [if_neg husd, Option.bind_some, Db.itemAmount_usd]
      unfold Db.itemAmount
      rw [hprices]
      cases hprice : w.db.priceOf item with
      | none => rfl
      | some price =>
          simp only [Option.bind_some, Option.map_some, Db.amountIn, if_neg husd]
          exact (localizedOf_localized (Db.hasPrice_of_priceOf hprice) hlocalize).1

theorem itemStamp_localized (h : Fallible.exec (syncLocalizedPrices rt) w = (.ok (), w')) :
    w'.db.itemStamp = w.db.itemStamp := by
  have hprices := priceOf_localized h
  rcases syncLocalizedPrices_eq_ok h with ⟨-, rfl⟩ | ⟨rates, db', -, hlocalize, rfl⟩
  · rfl
  · funext item currency
    unfold Db.itemStamp
    rw [hprices]
    cases hprice : w.db.priceOf item with
    | none => rfl
    | some price =>
        simp only [Option.bind_some, Db.stampIn]
        split
        · rfl
        · exact (localizedOf_localized (Db.hasPrice_of_priceOf hprice) hlocalize).2

end Task

end Saasmint
