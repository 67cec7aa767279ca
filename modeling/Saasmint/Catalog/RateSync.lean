import Saasmint.Catalog.FriendlyPrices

/-!
# Syncing the exchange rates

`sync_localized_prices` as the task runs it: it fetches the rates, reads the stored rows
into a dict for each price, sorts what the rates give into rows to create, rows whose
amount has moved and rows that only get a heartbeat, and writes the three lists at the end
of one transaction.

What it leaves is what `localizePrices` says (`syncRows_eq_ok`): the stored rows,
relocalized, and the missing ones.  The properties of a run are read off that.

Floats are a parameter.  All that a second run needs of them is that they give the same
amount for the same rate again.
-/

namespace Saasmint.RateSync

open Relational Rounding

/-! ## Amounts -/

/-- The float operations of the task. -/
structure FloatArithmetic (F : Type) where
  /-- A literal. -/
  literal : ℚ → F
  /-- `float(n)`. -/
  ofInt : ℤ → Py F
  /-- `n / m`. -/
  trueDiv : ℤ → ℤ → Py F
  add : F → F → F
  sub : F → F → F
  mul : F → F → F
  div : F → F → F
  abs : F → F
  le : F → F → Bool
  lt : F → F → Bool
  /-- `int(x)`. -/
  toInt : F → Py ℤ
  /-- `round(x)`. -/
  round : F → Py ℤ
  /-- `Decimal(str(x))`. -/
  decimal : F → Py ℚ
  /-- `float(value)` of a decoded value. -/
  ofJson : Json → Py F

section Amounts

variable {F : Type} (float : FloatArithmetic F)

/-- `min(first, *rest, key=key)`: the first of the least. -/
def minBy (key : F → F) (first : F) (rest : List F) : F :=
  rest.foldl (fun best x => if float.lt (key x) (key best) then x else best) first

def formatAmount (amount : ℤ) (currency : String) : Py F :=
  if isZeroDecimal lower currency then float.ofInt amount else float.trueDiv amount 100

def roundFriendly (amount : F) (currency : String) : Py F :=
  if float.le amount (float.literal 0) then .ok (float.literal 0)
  else if isZeroDecimal lower currency then do
    let step := if float.le (float.literal 1000) amount then 100 else 10
    let multiple ← float.round (float.div amount (← float.ofInt step))
    float.ofInt (multiple * step)
  else do
    let whole ← float.ofInt (← float.toInt amount)
    return minBy float (fun option => float.abs (float.sub option amount))
      (float.sub whole (float.literal (1 / 100)))
      [float.add whole (float.literal (49 / 100)), float.add whole (float.literal (99 / 100)),
        float.add whole (float.literal (149 / 100))]

/-- `int(amount.quantize(Decimal("1"), rounding=ROUND_HALF_UP))`, in 28 digits. -/
def quantize (amount : ℚ) : Py ℤ :=
  if |halfUp amount| < 10 ^ 28 then .ok (halfUp amount)
  else .error (.valueError "[<class 'decimal.InvalidOperation'>]")

/-- `_to_minor_units`. -/
def toMinorUnits (displayAmount : F) (currency : String) : Py ℤ := do
  let amount ← float.decimal displayAmount
  quantize (if isZeroDecimal lower currency then amount else amount * 100)

/-- What a rate makes of an amount. -/
def newAmount (amount : ℤ) (currency : String) (rate : F) : Py ℤ := do
  let display ← roundFriendly float (float.mul (← formatAmount float amount "usd") rate) currency
  toMinorUnits float display currency

/-- `api_rates`: of two entries of a key the later one counts. -/
abbrev Rates (F : Type) := List (String × F)

/-- `api_rates.get(currency)`. -/
def Rates.get (rates : Rates F) (currency : String) : Option F := rates.reverse.lookup currency

/-- `_compute_new_amounts`. -/
def computeNewAmounts (rates : Rates F) (amount : ℤ) : Py (List (String × ℤ)) :=
  ((supportedCurrencies.filter (· ≠ "usd")).filterMap fun currency =>
    (rates.get currency).map (currency, ·)).mapM fun (currency, rate) =>
      (currency, ·) <$> newAmount float amount currency rate

end Amounts

/-! ## The feed -/

/-- What `httpx.get`, `raise_for_status` and `resp.json()` raise. -/
inductive FetchError
  | httpError (message : String)
  | python (error : PyError)

section Feed

variable {F : Type} (float : FloatArithmetic F)

/-- `{k.lower(): float(v) for k, v in rates_raw.items()}`. -/
def readRates (strLower : String → String) (items : List (String × Json)) : Py (Rates F) :=
  items.mapM fun (key, value) => (strLower key, ·) <$> float.ofJson value

/-- The rates, unless the feed has failed or is malformed. -/
def fetchRates (strLower : String → String) (response : Except FetchError Json) :
    Py (Option (Rates F)) :=
  match response with
  | .error (.httpError _) | .error (.python (.valueError _)) => .ok none
  | .error (.python e) => .error e
  | .ok data => do
      if !(← data.get "result").isStr "success" then return none
      match ← data.get "rates" with
      | .obj items =>
          match readRates float strLower items with
          | .ok rates => return some rates
          | .error (.typeError _) | .error (.valueError _) => return none
          | .error e => throw e
      | _ => return none

end Feed

/-! ## Rows -/

/-- One row of the three lists. -/
inductive Upsert
  | create (row : LocalizedPrice)
  | changed (row : LocalizedPrice)
  | heartbeat (row : LocalizedPrice)

namespace Upsert

def created? : Upsert → Option LocalizedPrice
  | create row => some row
  | _ => none

def changed? : Upsert → Option LocalizedPrice
  | changed row => some row
  | _ => none

def heartbeat? : Upsert → Option LocalizedPrice
  | heartbeat row => some row
  | _ => none

end Upsert

/-- What a run draws. -/
structure Draws where
  now : Datetime
  /-- `uuid4()`, for the row of a price in a currency. -/
  localizedId : UUID → String → UUID

/-- `LocalizedPrice(currency=…, amount_minor=…, synced_at=now, **owner_kwargs)`. -/
def newRow (draws : Draws) (price : CatalogPrice) (currency : String) (amount : ℤ) :
    LocalizedPrice where
  id := draws.localizedId price.id currency
  planPriceId := match price with | .plan p => some p.id | .product _ => none
  productPriceId := match price with | .plan _ => none | .product p => some p.id
  currency := currency
  amountMinor := amount
  stripePriceId := none
  syncedAt := draws.now

/-- The rows of a price by currency: an entry of `plan_buckets` or `product_buckets`. -/
def bucket (db : Db) (price : CatalogPrice) : List (String × LocalizedPrice) :=
  (db.localizedPrices.filter fun row => price.owns row).map fun row => (row.currency, row)

/-- What becomes of a stored row. -/
def settle (draws : Draws) (row : LocalizedPrice) (amount : ℤ) : Upsert :=
  if row.amountMinor ≠ amount then
    .changed { row with amountMinor := amount, syncedAt := draws.now }
  -- the amount has not moved, and the stamp says that it was looked at
  else .heartbeat { row with syncedAt := draws.now }

def upsert (draws : Draws) (price : CatalogPrice) (existing : List (String × LocalizedPrice))
    (currency : String) (amount : ℤ) : Upsert :=
  match existing.lookup currency with
  | none => .create (newRow draws price currency amount)
  | some row => settle draws row amount

section Sync

variable {F : Type} (float : FloatArithmetic F) (rates : Rates F) (draws : Draws)

/-- `_upsert_for_price`. -/
def upsertForPrice (existing : List (String × LocalizedPrice)) (price : CatalogPrice) :
    Py (List Upsert) := do
  let newAmounts ← computeNewAmounts float rates price.amount
  return newAmounts.map fun (currency, amount) => upsert draws price existing currency amount

/-- The rows of all plan prices, and then of all product prices. -/
def allUpserts (db : Db) : Py (List Upsert) :=
  List.flatten <$> db.toTables.catalogPrices.mapM fun price =>
    upsertForPrice float rates draws (bucket db price) price

/-- `bulk_create`. -/
def bulkCreate (rows : List LocalizedPrice) (t : Table LocalizedPrice) : Py (Table LocalizedPrice) :=
  if rows.all fun row => fitsInteger row.amountMinor then
    match Table.ofRows? (t.rows ++ rows) with
    | some table => .ok table
    | none => .error (.integrity "duplicate key value violates unique constraint")
  else .error (.data "integer out of range")

/-- An update by primary key, of columns that no constraint reads. -/
def updateById (rows : List LocalizedPrice) (set : LocalizedPrice → LocalizedPrice → LocalizedPrice)
    (row : LocalizedPrice) : LocalizedPrice :=
  match rows.find? fun updated => updated.id == row.id with
  | some updated => set row updated
  | none => row

/-- `["amount_minor", "synced_at"]`. -/
def setAmount (row updated : LocalizedPrice) : LocalizedPrice :=
  { row with amountMinor := updated.amountMinor, syncedAt := updated.syncedAt }

/-- `["synced_at"]`. -/
def setSyncedAt (row updated : LocalizedPrice) : LocalizedPrice :=
  { row with syncedAt := updated.syncedAt }

theorem updateById_setAmount (rows : List LocalizedPrice) (row : LocalizedPrice) :
    ∃ amount at_, updateById rows setAmount row =
      { row with amountMinor := amount, syncedAt := at_ } := by
  unfold updateById
  split
  · exact ⟨_, _, rfl⟩
  · exact ⟨row.amountMinor, row.syncedAt, rfl⟩

theorem updateById_setSyncedAt (rows : List LocalizedPrice) (row : LocalizedPrice) :
    ∃ at_, updateById rows setSyncedAt row = { row with syncedAt := at_ } := by
  unfold updateById
  split
  · exact ⟨_, rfl⟩
  · exact ⟨row.syncedAt, rfl⟩

/-- `bulk_update(rows, ["amount_minor", "synced_at"])`. -/
def bulkUpdateAmounts (rows : List LocalizedPrice) (t : Table LocalizedPrice) :
    Py (Table LocalizedPrice) :=
  if rows.all fun row => fitsInteger row.amountMinor then
    .ok (t.rewrite (updateById rows setAmount)
      (fun a h => by
        obtain ⟨amount, at_, heq⟩ := updateById_setAmount rows a
        rw [heq]
        exact h)
      (fun a b h => by
        obtain ⟨amount, at_, heq⟩ := updateById_setAmount rows a
        obtain ⟨amount', at', heq'⟩ := updateById_setAmount rows b
        rw [heq, heq'] at h
        exact h))
  else .error (.data "integer out of range")

/-- `bulk_update(rows, ["synced_at"])`. -/
def bulkUpdateSyncedAt (rows : List LocalizedPrice) (t : Table LocalizedPrice) :
    Table LocalizedPrice :=
  t.rewrite (updateById rows setSyncedAt)
    (fun a h => by
      obtain ⟨at_, heq⟩ := updateById_setSyncedAt rows a
      rw [heq]
      exact h)
    (fun a b h => by
      obtain ⟨at_, heq⟩ := updateById_setSyncedAt rows a
      obtain ⟨at', heq'⟩ := updateById_setSyncedAt rows b
      rw [heq, heq'] at h
      exact h)

/-- The transaction of the task, with the number of rows that it has changed. -/
def syncRows (db : Db) : Py (ℕ × Db) := do
  let upserts ← allUpserts float rates draws db
  let allCreate := upserts.filterMap Upsert.created?
  let allUpdateChanged := upserts.filterMap Upsert.changed?
  let allUpdateHeartbeat := upserts.filterMap Upsert.heartbeat?
  let t ← bulkCreate allCreate db.localizedPrices
  let t ← bulkUpdateAmounts allUpdateChanged t
  let localizedPrices := bulkUpdateSyncedAt allUpdateHeartbeat t
  let db ← Db.commit { db.toTables with localizedPrices }
  return (allCreate.length + allUpdateChanged.length, db)

end Sync

/-- What a run is given. -/
structure Run extends Draws where
  response : Except FetchError Json

section Task

variable {F : Type} (float : FloatArithmetic F) (strLower : String → String) (run : Run)

/-- `sync_localized_prices`: what it returns or raises, and what it leaves. -/
def syncLocalizedPrices (db : Db) : Py ℕ × Db :=
  match fetchRates float strLower run.response with
  | .error e => (.error e, db)
  | .ok none => (.ok 0, db)
  | .ok (some rates) =>
      match syncRows float rates run.toDraws db with
      | .error e => (.error e, db)
      | .ok (changed, db) => (.ok changed, db)

/-- The rates of the run, if it gets that far. -/
def Run.rates? : Option (Rates F) :=
  match fetchRates float strLower run.response with
  | .ok rates? => rates?
  | .error _ => none

end Task

/-! ## What the rates give -/

section Amounts

variable {F : Type} {float : FloatArithmetic F} {rates : Rates F} {amount : ℤ}

theorem mapM_eq_ok {α β : Type} {f : α → Py β} {xs : List α} {ys : List β} :
    xs.mapM f = .ok ys ↔ List.Forall₂ (fun x y => f x = .ok y) xs ys := by
  induction xs generalizing ys with
  | nil =>
      rw [List.mapM_nil, List.forall₂_nil_left_iff]
      exact ⟨fun h => (Except.ok.inj h).symm, fun h => h ▸ rfl⟩
  | cons x xs ih =>
      rw [List.mapM_cons, bind_eq_ok, List.forall₂_cons_left_iff]
      constructor
      · rintro ⟨y, hy, hrest⟩
        obtain ⟨ys', hys, hcons⟩ := bind_eq_ok.mp hrest
        exact ⟨y, ys', hy, ih.mp hys, (Except.ok.inj hcons).symm⟩
      · rintro ⟨y, ys', hy, hys, rfl⟩
        exact ⟨y, hy, bind_eq_ok.mpr ⟨ys', ih.mpr hys, rfl⟩⟩

/-- The amounts of the rates, as a partial function. -/
def amounts (float : FloatArithmetic F) (rates : Rates F) (amount : ℤ) (currency : String) :
    Option ℤ :=
  (rates.get currency).bind fun rate => (newAmount float amount currency rate).toOption

/-- `_compute_new_amounts` gives an amount for every rate that it is asked for. -/
theorem computeNewAmounts_eq_ok {entries : List (String × ℤ)}
    (h : computeNewAmounts float rates amount = .ok entries) :
    entries = Saasmint.computeNewAmounts (amounts float rates) amount ∧
      ∀ currency ∈ supportedCurrencies, currency ≠ "usd" → (rates.get currency).isSome →
        (amounts float rates amount currency).isSome := by
  unfold computeNewAmounts at h
  unfold Saasmint.computeNewAmounts
  suffices hall : ∀ currencies : List String, ∀ entries,
      (currencies.filterMap fun currency => (rates.get currency).map (currency, ·)).mapM
        (fun (currency, rate) => (currency, ·) <$> newAmount float amount currency rate) =
          .ok entries →
      entries = currencies.filterMap (fun currency =>
          (amounts float rates amount currency).map (currency, ·)) ∧
        ∀ currency ∈ currencies, (rates.get currency).isSome →
          (amounts float rates amount currency).isSome by
    obtain ⟨hentries, hsome⟩ := hall _ _ h
    refine ⟨hentries, fun currency hmem husd => hsome currency ?_⟩
    exact List.mem_filter.mpr ⟨hmem, decide_eq_true husd⟩
  intro currencies
  induction currencies with
  | nil =>
      intro entries h
      exact ⟨(Except.ok.inj h).symm, fun _ hmem => absurd hmem List.not_mem_nil⟩
  | cons currency currencies ih =>
      intro entries h
      cases hrate : rates.get currency with
      | none =>
          have hnone : amounts float rates amount currency = none := by
            rw [amounts, hrate, Option.bind_none]
          rw [List.filterMap_cons, hrate, Option.map_none] at h
          obtain ⟨hentries, hsome⟩ := ih entries h
          rw [List.filterMap_cons, hnone, Option.map_none]
          refine ⟨hentries, fun c hc hget => ?_⟩
          rcases List.mem_cons.mp hc with rfl | hc
          · rw [hrate] at hget
            cases hget
          · exact hsome c hc hget
      | some rate =>
          rw [List.filterMap_cons, hrate, Option.map_some] at h
          obtain ⟨entry, rest, hentry, hrest, rfl⟩ :=
            List.forall₂_cons_left_iff.mp (mapM_eq_ok.mp h)
          obtain ⟨new, hnew, rfl⟩ := map_eq_ok.mp hentry
          have hsome : amounts float rates amount currency = some new := by
            rw [amounts, hrate, Option.bind_some, hnew]
            rfl
          obtain ⟨hentries, hothers⟩ := ih rest (mapM_eq_ok.mpr hrest)
          rw [List.filterMap_cons, hsome, Option.map_some]
          refine ⟨by rw [hentries], fun c hc hget => ?_⟩
          rcases List.mem_cons.mp hc with rfl | hc
          · rw [hsome]
            rfl
          · exact hothers c hc hget

end Amounts

theorem mem_of_lookup {α β : Type} [BEq α] [LawfulBEq α] {entries : List (α × β)} {a : α} {b : β}
    (h : entries.lookup a = some b) : (a, b) ∈ entries := by
  obtain ⟨before, after, rfl, -⟩ := List.lookup_eq_some_iff.mp h
  exact List.mem_append_right _ List.mem_cons_self

/-! ## The three lists -/

section Lists

variable {F : Type} {float : FloatArithmetic F} {rates : Rates F} {draws : Draws} {db : Db}
  {price : CatalogPrice} {row updated : LocalizedPrice} {currency : String}

theorem lookup_bucket (db : Db) (price : CatalogPrice) (currency : String) :
    (bucket db price).lookup currency = db.localizedOf price currency := by
  unfold bucket Db.localizedOf Table.filter Table.find?
  induction db.localizedPrices.rows with
  | nil => rfl
  | cons row rows ih =>
      rw [List.filter_cons, List.find?_cons]
      cases howns : price.owns row with
      | false =>
          rw [if_neg Bool.false_ne_true, Bool.false_and]
          exact ih
      | true =>
          rw [if_pos rfl, List.map_cons, List.lookup_cons, Bool.true_and, BEq.comm]
          cases row.currency == currency with
          | true => rfl
          | false => exact ih

/-- What the rates give for a stored row. -/
def amountFor (float : FloatArithmetic F) (rates : Rates F) (db : Db) (row : LocalizedPrice) :
    Option ℤ :=
  (db.toTables.catalogPrices.find? (·.owns row)).bind fun price =>
    (Saasmint.computeNewAmounts (amounts float rates) price.amount).lookup row.currency

theorem relocalized_eq (row : LocalizedPrice) :
    relocalized db.toTables (amounts float rates) draws.now row =
      ((amountFor float rates db row).map fun amount =>
        { row with amountMinor := amount, syncedAt := draws.now }).getD row := by
  unfold relocalized amountFor
  cases db.toTables.catalogPrices.find? (·.owns row) with
  | none => rfl
  | some price =>
      rw [Option.bind_some]
      dsimp only
      cases (Saasmint.computeNewAmounts (amounts float rates) price.amount).lookup row.currency <;>
        rfl

theorem clash_of_owns {other : LocalizedPrice} (howns : price.owns row = true)
    (howns' : price.owns other = true) (hcurrency : row.currency = other.currency) :
    Row.clash row other := by
  cases price with
  | plan p =>
      refine Or.inr (Or.inl ⟨?_, hcurrency⟩)
      unfold CatalogPrice.owns at howns howns'
      rw [beq_iff_eq] at howns howns'
      rw [howns, howns']
      exact ⟨rfl, rfl⟩
  | product p =>
      refine Or.inr (Or.inr (Or.inl ⟨?_, hcurrency⟩))
      unfold CatalogPrice.owns at howns howns'
      rw [beq_iff_eq] at howns howns'
      rw [howns, howns']
      exact ⟨rfl, rfl⟩

theorem localizedOf_of_mem (hrow : row ∈ db.localizedPrices.rows) (howns : price.owns row = true) :
    db.localizedOf price row.currency = some row := by
  refine Table.find?_eq_some _ hrow ?_ fun other _ hother => ?_
  · rw [howns, beq_self_eq_true, Bool.and_self]
  · rw [Bool.and_eq_true, beq_iff_eq] at hother
    exact clash_of_owns howns hother.1 hother.2.symm

variable (float rates draws db) in
/-- The three lists of a run that computes every amount, as one. -/
def upserts : List Upsert :=
  db.toTables.catalogPrices.flatMap fun price =>
    (Saasmint.computeNewAmounts (amounts float rates) price.amount).map fun entry =>
      upsert draws price (bucket db price) entry.1 entry.2

theorem allUpserts_eq_ok {found : List Upsert} :
    allUpserts float rates draws db = .ok found ↔
      (∀ price ∈ db.toTables.catalogPrices,
          ∃ entries, computeNewAmounts float rates price.amount = .ok entries) ∧
        found = upserts float rates draws db := by
  unfold allUpserts upserts
  rw [map_eq_ok]
  generalize db.toTables.catalogPrices = prices
  have hone : ∀ price us, upsertForPrice float rates draws (bucket db price) price = .ok us ↔
      ∃ entries, computeNewAmounts float rates price.amount = .ok entries ∧
        us = (Saasmint.computeNewAmounts (amounts float rates) price.amount).map fun entry =>
          upsert draws price (bucket db price) entry.1 entry.2 := by
    intro price us
    unfold upsertForPrice
    rw [bind_eq_ok]
    refine exists_congr fun entries => and_congr_right fun hentries => ?_
    obtain ⟨rfl, -⟩ := computeNewAmounts_eq_ok hentries
    exact ⟨fun h => (Except.ok.inj h).symm, fun h => h ▸ rfl⟩
  induction prices generalizing found with
  | nil =>
      constructor
      · rintro ⟨us, hus, rfl⟩
        obtain rfl := (Except.ok.inj hus).symm
        exact ⟨fun _ hmem => absurd hmem List.not_mem_nil, rfl⟩
      · rintro ⟨-, rfl⟩
        exact ⟨[], rfl, rfl⟩
  | cons price prices ih =>
      rw [List.flatMap_cons]
      constructor
      · rintro ⟨all, hall, rfl⟩
        obtain ⟨us, rest, hus, hrest, rfl⟩ := List.forall₂_cons_left_iff.mp (mapM_eq_ok.mp hall)
        obtain ⟨entries, hentries, rfl⟩ := (hone price us).mp hus
        obtain ⟨hothers, heq⟩ := ih.mp ⟨rest, mapM_eq_ok.mpr hrest, rfl⟩
        refine ⟨fun p hp => ?_, by rw [List.flatten_cons, heq]⟩
        rcases List.mem_cons.mp hp with rfl | hp
        · exact ⟨entries, hentries⟩
        · exact hothers p hp
      · rintro ⟨hcompute, rfl⟩
        obtain ⟨entries, hentries⟩ := hcompute price List.mem_cons_self
        obtain ⟨rest, hrest, hflat⟩ :=
          ih.mpr ⟨fun p hp => hcompute p (List.mem_cons_of_mem _ hp), rfl⟩
        refine ⟨_ :: rest, mapM_eq_ok.mpr (.cons ((hone price _).mpr ⟨entries, hentries, rfl⟩)
          (mapM_eq_ok.mp hrest)), ?_⟩
        rw [List.flatten_cons, hflat]

theorem created_upserts : (upserts float rates draws db).filterMap Upsert.created? =
    missingLocalized db.toTables (amounts float rates) draws.now draws.localizedId := by
  unfold upserts missingLocalized
  rw [List.filterMap_flatMap]
  congr 1
  funext price
  rw [List.filterMap_map]
  congr 1
  funext entry
  have hany : (db.localizedPrices.rows.any fun row => price.owns row && row.currency == entry.1) =
      (db.localizedOf price entry.1).isSome := List.isSome_find?.symm
  rw [Function.comp_apply, upsert, lookup_bucket, hany]
  cases db.localizedOf price entry.1 with
  | none => rfl
  | some row =>
      show (settle draws row entry.2).created? = none
      unfold settle
      split <;> rfl

/-- Every stored row that the rates give an amount for is settled, and no other. -/
theorem mem_upserts {u : Upsert} (h : u ∈ upserts float rates draws db) :
    (∃ row ∈ db.localizedPrices.rows, ∃ amount, amountFor float rates db row = some amount ∧
      u = settle draws row amount) ∨ ∃ row, u = .create row := by
  obtain ⟨price, hprice, hu⟩ := List.mem_flatMap.mp h
  obtain ⟨⟨currency, amount⟩, hentry, rfl⟩ := List.mem_map.mp hu
  dsimp only
  rw [upsert, lookup_bucket]
  cases hstored : db.localizedOf price currency with
  | none => exact Or.inr ⟨_, rfl⟩
  | some row =>
      obtain ⟨hrow, howns, rfl⟩ := Db.localizedOf_eq_some hstored
      refine Or.inl ⟨row, hrow, amount, ?_, rfl⟩
      rw [amountFor, find?_owner (mem_catalogPrices.mp hprice) hrow howns, Option.bind_some]
      exact lookup_computeNewAmounts hentry

theorem settle_mem_upserts (hrow : row ∈ db.localizedPrices.rows) {amount : ℤ}
    (h : amountFor float rates db row = some amount) :
    settle draws row amount ∈ upserts float rates draws db := by
  obtain ⟨price, hfound, hlookup⟩ := Option.bind_eq_some_iff.mp h
  have howns : price.owns row = true := List.find?_some hfound
  refine List.mem_flatMap.mpr ⟨price, List.mem_of_find?_eq_some hfound,
    List.mem_map.mpr ⟨(row.currency, amount), mem_of_lookup hlookup, ?_⟩⟩
  rw [upsert, lookup_bucket, localizedOf_of_mem hrow howns]

theorem eq_of_id (hrow : row ∈ db.localizedPrices.rows) {other : LocalizedPrice}
    (hother : other ∈ db.localizedPrices.rows) (h : other.id = row.id) : other = row :=
  db.localizedPrices.eq_of_clash hother hrow (Or.inl h)

theorem find?_eq_some_of_unique {α : Type} {p : α → Bool} {xs : List α} {x : α} (hx : x ∈ xs)
    (hp : p x = true) (hunique : ∀ y ∈ xs, p y = true → y = x) : xs.find? p = some x := by
  cases hfound : xs.find? p with
  | none => exact absurd hp (List.find?_eq_none.mp hfound x hx)
  | some y => rw [hunique y (List.mem_of_find?_eq_some hfound) (List.find?_some hfound)]

/-- A list of updates has for a stored row what settling that row has put there. -/
theorem find?_upserts {select : Upsert → Option LocalizedPrice}
    (hcreate : ∀ row, select (.create row) = none)
    (hid : ∀ row amount updated, select (settle draws row amount) = some updated →
      updated.id = row.id)
    (hrow : row ∈ db.localizedPrices.rows) :
    ((upserts float rates draws db).filterMap select).find? (fun updated => updated.id == row.id) =
      (amountFor float rates db row).bind fun amount => select (settle draws row amount) := by
  have hsource : ∀ updated ∈ (upserts float rates draws db).filterMap select, updated.id = row.id →
      ∃ amount, amountFor float rates db row = some amount ∧
        select (settle draws row amount) = some updated := by
    intro updated hmem hsame
    obtain ⟨u, hu, hselect⟩ := List.mem_filterMap.mp hmem
    rcases mem_upserts hu with ⟨other, hother, amount, hamount, rfl⟩ | ⟨other, rfl⟩
    · obtain rfl := eq_of_id hrow hother ((hid _ _ _ hselect).symm.trans hsame)
      exact ⟨amount, hamount, hselect⟩
    · rw [hcreate] at hselect
      cases hselect
  cases hresult : (amountFor float rates db row).bind fun amount =>
      select (settle draws row amount) with
  | none =>
      refine List.find?_eq_none.mpr fun updated hmem hsame => ?_
      obtain ⟨amount, hamount, hselect⟩ := hsource updated hmem (by simpa using hsame)
      rw [hamount, Option.bind_some, hselect] at hresult
      cases hresult
  | some updated =>
      obtain ⟨amount, hamount, hselect⟩ := Option.bind_eq_some_iff.mp hresult
      refine find?_eq_some_of_unique ?_ (by simpa using hid _ _ _ hselect) ?_
      · exact List.mem_filterMap.mpr ⟨_, settle_mem_upserts hrow hamount, hselect⟩
      · intro other hmem hsame
        obtain ⟨amount', hamount', hselect'⟩ := hsource other hmem (by simpa using hsame)
        obtain rfl := Option.some.inj (hamount.symm.trans hamount')
        exact Option.some.inj (hselect'.symm.trans hselect)

theorem changed?_settle {amount : ℤ} :
    (settle draws row amount).changed? = if row.amountMinor ≠ amount then
      some { row with amountMinor := amount, syncedAt := draws.now } else none := by
  unfold settle
  split <;> rfl

theorem heartbeat?_settle {amount : ℤ} :
    (settle draws row amount).heartbeat? = if row.amountMinor ≠ amount then none else
      some { row with syncedAt := draws.now } := by
  unfold settle
  split <;> rfl

theorem find?_changed (hrow : row ∈ db.localizedPrices.rows) :
    ((upserts float rates draws db).filterMap Upsert.changed?).find?
        (fun updated => updated.id == row.id) =
      (amountFor float rates db row).bind fun amount => (settle draws row amount).changed? := by
  refine find?_upserts (fun _ => rfl) (fun row amount updated h => ?_) hrow
  rw [changed?_settle] at h
  split at h
  · exact Option.some.inj h ▸ rfl
  · cases h

theorem find?_heartbeat (hrow : row ∈ db.localizedPrices.rows) :
    ((upserts float rates draws db).filterMap Upsert.heartbeat?).find?
        (fun updated => updated.id == row.id) =
      (amountFor float rates db row).bind fun amount => (settle draws row amount).heartbeat? := by
  refine find?_upserts (fun _ => rfl) (fun row amount updated h => ?_) hrow
  rw [heartbeat?_settle] at h
  split at h
  · cases h
  · exact Option.some.inj h ▸ rfl

/-- The two updates do to a stored row what `relocalized` says. -/
theorem updated_eq_relocalized (hrow : row ∈ db.localizedPrices.rows) :
    updateById ((upserts float rates draws db).filterMap Upsert.heartbeat?) setSyncedAt
        (updateById ((upserts float rates draws db).filterMap Upsert.changed?) setAmount row) =
      relocalized db.toTables (amounts float rates) draws.now row := by
  have hid : (updateById ((upserts float rates draws db).filterMap Upsert.changed?) setAmount
      row).id = row.id := by
    obtain ⟨amount, at_, heq⟩ := updateById_setAmount
      ((upserts float rates draws db).filterMap Upsert.changed?) row
    rw [heq]
  rw [relocalized_eq, updateById, hid, find?_heartbeat hrow, updateById, find?_changed hrow]
  cases hamount : amountFor float rates db row with
  | none => rfl
  | some amount =>
      rw [Option.bind_some, Option.bind_some, changed?_settle, heartbeat?_settle]
      by_cases hmoved : row.amountMinor ≠ amount
      · rw [if_pos hmoved, if_pos hmoved]
        rfl
      · rw [if_neg hmoved, if_neg hmoved]
        obtain rfl := not_not.mp hmoved
        rfl

theorem source_of_changed (h : updated ∈ (upserts float rates draws db).filterMap Upsert.changed?) :
    ∃ row ∈ db.localizedPrices.rows, ∃ amount, amountFor float rates db row = some amount ∧
      row.amountMinor ≠ amount ∧
      updated = { row with amountMinor := amount, syncedAt := draws.now } := by
  obtain ⟨u, hu, hchanged⟩ := List.mem_filterMap.mp h
  rcases mem_upserts hu with ⟨row, hrow, amount, hamount, rfl⟩ | ⟨row, rfl⟩
  · rw [changed?_settle] at hchanged
    split at hchanged
    next hmoved => exact ⟨row, hrow, amount, hamount, hmoved, (Option.some.inj hchanged).symm⟩
    next => cases hchanged
  · cases hchanged

theorem id_of_heartbeat (h : updated ∈ (upserts float rates draws db).filterMap Upsert.heartbeat?) :
    ∃ row ∈ db.localizedPrices.rows, updated.id = row.id := by
  obtain ⟨u, hu, hheartbeat⟩ := List.mem_filterMap.mp h
  rcases mem_upserts hu with ⟨row, hrow, amount, -, rfl⟩ | ⟨row, rfl⟩
  · rw [heartbeat?_settle] at hheartbeat
    split at hheartbeat
    next => cases hheartbeat
    next => exact ⟨row, hrow, (Option.some.inj hheartbeat) ▸ rfl⟩
  · cases hheartbeat

/-- A new row is none of those that are updated. -/
theorem updateById_of_new {updates : List LocalizedPrice}
    {set : LocalizedPrice → LocalizedPrice → LocalizedPrice}
    (hupdates : ∀ updated ∈ updates, ∃ old ∈ db.localizedPrices.rows, updated.id = old.id)
    (hnew : ∀ old ∈ db.localizedPrices.rows, old.id ≠ row.id) : updateById updates set row = row := by
  have hnone : updates.find? (fun updated => updated.id == row.id) = none := by
    refine List.find?_eq_none.mpr fun updated hmem hsame => ?_
    obtain ⟨old, hold, hid⟩ := hupdates updated hmem
    exact hnew old hold (hid.symm.trans (beq_iff_eq.mp hsame))
  rw [updateById, hnone]

/-- The transaction leaves the stored rows, relocalized, and the missing ones. -/
theorem syncRows_eq_ok {changed : ℕ} {db' : Db}
    (h : syncRows float rates draws db = .ok (changed, db')) :
    (∀ price ∈ db.toTables.catalogPrices,
        ∃ entries, computeNewAmounts float rates price.amount = .ok entries) ∧
      changed = (missingLocalized db.toTables (amounts float rates) draws.now
          draws.localizedId).length +
        ((upserts float rates draws db).filterMap Upsert.changed?).length ∧
      ∃ table : Table LocalizedPrice,
        table.rows = db.localizedPrices.rows.map
            (relocalized db.toTables (amounts float rates) draws.now) ++
          missingLocalized db.toTables (amounts float rates) draws.now draws.localizedId ∧
        db'.toTables = { db.toTables with localizedPrices := table } := by
  unfold syncRows at h
  obtain ⟨found, hfound, h⟩ := bind_eq_ok.mp h
  obtain ⟨hcompute, rfl⟩ := allUpserts_eq_ok.mp hfound
  dsimp only at h
  rw [created_upserts] at h
  obtain ⟨t, hcreate, h⟩ := bind_eq_ok.mp h
  obtain ⟨t', hupdate, h⟩ := bind_eq_ok.mp h
  obtain ⟨committed, hcommit, h⟩ := bind_eq_ok.mp h
  cases h
  refine ⟨hcompute, rfl, _, ?_, Db.commit_eq_ok.mp hcommit⟩
  have hrows : t.rows = db.localizedPrices.rows ++
      missingLocalized db.toTables (amounts float rates) draws.now draws.localizedId := by
    unfold bulkCreate at hcreate
    split at hcreate
    next =>
      split at hcreate
      next table htable => exact Except.ok.inj hcreate ▸ Table.ofRows?_eq_some.mp htable
      next => cases hcreate
    next => cases hcreate
  have hnew : ∀ row ∈ missingLocalized db.toTables (amounts float rates) draws.now
      draws.localizedId, ∀ old ∈ db.localizedPrices.rows, old.id ≠ row.id := by
    intro row hrow old hold hid
    have hvalid := t.valid.2
    rw [hrows] at hvalid
    exact (List.pairwise_append.mp hvalid).2.2 old hold row hrow (Or.inl hid)
  unfold bulkUpdateAmounts at hupdate
  split at hupdate
  case isFalse => cases hupdate
  cases hupdate
  show (t.rows.map _).map _ = _
  rw [hrows, List.map_map, List.map_append]
  congr 1
  · exact List.map_congr_left fun row hrow => updated_eq_relocalized hrow
  · refine (List.map_congr_left fun row hrow => ?_).trans (List.map_id _)
    rw [Function.comp_apply, updateById_of_new ?_ (hnew row hrow),
      updateById_of_new (fun _ h => id_of_heartbeat h) (hnew row hrow)]
    · rfl
    · intro updated hmem
      obtain ⟨old, hold, _, _, _, rfl⟩ := source_of_changed hmem
      exact ⟨old, hold, rfl⟩

/-! ## The rows that have moved -/

theorem nodup_computeNewAmounts (given : ℤ → String → Option ℤ) (amount : ℤ) :
    (Saasmint.computeNewAmounts given amount).Nodup := by
  have hcurrencies : (supportedCurrencies.filter (· ≠ "usd")).Nodup := by decide
  refine hcurrencies.filterMap fun c c' entry h h' => ?_
  obtain ⟨_, -, rfl⟩ := Option.map_eq_some_iff.mp h
  obtain ⟨_, -, heq⟩ := Option.map_eq_some_iff.mp h'
  exact (Prod.mk.inj heq).1.symm

theorem nodup_rows {α : Type} [Row α] (t : Table α) (hclash : ∀ a : α, Row.clash a a) :
    t.rows.Nodup := by
  refine t.valid.2.imp ?_
  rintro a _ hab rfl
  exact hab (hclash a)

theorem nodup_catalogPrices (db : Db) : db.toTables.catalogPrices.Nodup := by
  unfold Tables.catalogPrices
  refine List.Nodup.append ?_ ?_ fun price hplan hproduct => ?_
  · exact (nodup_rows _ fun _ => Or.inl rfl).map fun _ _ h => CatalogPrice.plan.inj h
  · exact (nodup_rows _ fun _ => Or.inl rfl).map fun _ _ h => CatalogPrice.product.inj h
  · obtain ⟨_, -, rfl⟩ := List.mem_map.mp hplan
    obtain ⟨_, -, h⟩ := List.mem_map.mp hproduct
    cases h

/-- A row that is updated for a price and an entry is a stored row of that price, with the
currency and the amount of the entry. -/
theorem source_of_upsert {entry : String × ℤ}
    (h : (upsert draws price (bucket db price) entry.1 entry.2).changed? = some updated) :
    (updated.currency, updated.amountMinor) = entry ∧
      ∃ row ∈ db.localizedPrices.rows, price.owns row = true ∧
        row.planPriceId = updated.planPriceId ∧ row.productPriceId = updated.productPriceId := by
  rw [upsert, lookup_bucket] at h
  cases hstored : db.localizedOf price entry.1 with
  | none =>
      rw [hstored] at h
      cases h
  | some row =>
      obtain ⟨hrow, howns, hcurrency⟩ := Db.localizedOf_eq_some hstored
      rw [hstored] at h
      dsimp only at h
      rw [changed?_settle] at h
      split at h
      next =>
        obtain rfl := Option.some.inj h
        exact ⟨Prod.ext hcurrency rfl, row, hrow, howns, rfl, rfl⟩
      next => cases h

theorem nodup_changed : ((upserts float rates draws db).filterMap Upsert.changed?).Nodup := by
  unfold upserts
  rw [List.filterMap_flatMap]
  simp only [List.filterMap_map]
  refine List.nodup_flatMap.mpr ⟨fun price _ => ?_, ?_⟩
  · refine (nodup_computeNewAmounts _ _).filterMap fun entry entry' updated h h' => ?_
    exact (source_of_upsert h).1.symm.trans (source_of_upsert h').1
  · refine (nodup_catalogPrices db).pairwise_of_forall_ne fun price hprice price' hprice' hne => ?_
    intro updated h h'
    obtain ⟨_, -, hentry⟩ := List.mem_filterMap.mp h
    obtain ⟨_, -, hentry'⟩ := List.mem_filterMap.mp h'
    obtain ⟨-, row, hrow, howns, hplan, hproduct⟩ := source_of_upsert hentry
    obtain ⟨-, row', -, howns', hplan', hproduct'⟩ := source_of_upsert hentry'
    -- who owns a row is read off its owner columns
    have hsame : price'.owns row = true := by
      rw [← howns']
      unfold CatalogPrice.owns
      cases price' with
      | plan p => rw [hplan, hplan']
      | product p => rw [hproduct, hproduct']
    exact hne (Db.owner_unique (mem_catalogPrices.mp hprice) (mem_catalogPrices.mp hprice') hrow
      howns hsame)

/-- A stored row keeps all but its amount and the time of its sync. -/
theorem relocalized_update (row : LocalizedPrice) :
    ∃ amount at_, relocalized db.toTables (amounts float rates) draws.now row =
      { row with amountMinor := amount, syncedAt := at_ } := by
  rw [relocalized_eq]
  cases amountFor float rates db row with
  | none => exact ⟨row.amountMinor, row.syncedAt, rfl⟩
  | some amount => exact ⟨amount, draws.now, rfl⟩

theorem id_relocalized (row : LocalizedPrice) :
    (relocalized db.toTables (amounts float rates) draws.now row).id = row.id := by
  obtain ⟨amount, at_, heq⟩ := relocalized_update row
  rw [heq]

/-- The stored row is given another amount. -/
def moves (float : FloatArithmetic F) (rates : Rates F) (db : Db) (row : LocalizedPrice) : Bool :=
  (amountFor float rates db row).any (row.amountMinor ≠ ·)

theorem length_changed : ((upserts float rates draws db).filterMap Upsert.changed?).length =
    db.localizedPrices.rows.countP (moves float rates db) := by
  have hperm : ((upserts float rates draws db).filterMap Upsert.changed?).Perm
      ((db.localizedPrices.rows.filter (moves float rates db)).map
        (relocalized db.toTables (amounts float rates) draws.now)) := by
    refine (List.perm_ext_iff_of_nodup nodup_changed ?_).mpr fun updated => ?_
    · have hnodup := (nodup_rows db.localizedPrices fun _ => Or.inl rfl).filter
        (moves float rates db)
      refine hnodup.map_on fun row hrow row' hrow' heq => ?_
      refine eq_of_id (List.mem_filter.mp hrow').1 (List.mem_filter.mp hrow).1 ?_
      rw [← id_relocalized row, heq, id_relocalized]
    · constructor
      · intro hmem
        obtain ⟨row, hrow, amount, hamount, hmoved, rfl⟩ := source_of_changed hmem
        refine List.mem_map.mpr ⟨row, List.mem_filter.mpr ⟨hrow, ?_⟩, ?_⟩
        · rw [moves, hamount]
          exact decide_eq_true hmoved
        · rw [relocalized_eq, hamount]
          rfl
      · intro hmem
        obtain ⟨row, hfilter, rfl⟩ := List.mem_map.mp hmem
        obtain ⟨hrow, hmoves⟩ := List.mem_filter.mp hfilter
        obtain ⟨amount, hamount, hmoved⟩ := (Option.any_eq_true _ _).mp hmoves
        refine List.mem_filterMap.mpr ⟨_, settle_mem_upserts hrow hamount, ?_⟩
        rw [changed?_settle, if_pos (of_decide_eq_true hmoved), relocalized_eq, hamount]
        rfl
  rw [hperm.length_eq, List.length_map, List.countP_eq_length_filter]

end Lists

/-! ## A completed transaction -/

section Completed

/-- The number of rows that are new. -/
def created (db db' : Db) : ℕ :=
  db'.localizedPrices.rows.countP fun row => db.localizedPrices.rows.all fun old => old.id ≠ row.id

/-- The number of rows whose amount is another. -/
def moved (db db' : Db) : ℕ :=
  db.localizedPrices.rows.countP fun old => db'.localizedPrices.rows.any fun row =>
    row.id == old.id && row.amountMinor != old.amountMinor

variable {F : Type} {float : FloatArithmetic F} {rates : Rates F} {draws : Draws} {db db' : Db}
  {n : ℕ} {row : LocalizedPrice} {price : CatalogPrice} {currency : String}

theorem mem_computeNewAmounts {amount new : ℤ}
    (h : (currency, new) ∈ Saasmint.computeNewAmounts (amounts float rates) amount) :
    currency ≠ "usd" ∧ (rates.get currency).isSome := by
  obtain ⟨c, hc, hentry⟩ := List.mem_filterMap.mp h
  obtain ⟨_, hamount, heq⟩ := Option.map_eq_some_iff.mp hentry
  obtain ⟨rfl, -⟩ := Prod.mk.inj heq
  obtain ⟨rate, hrate, -⟩ := Option.bind_eq_some_iff.mp hamount
  exact ⟨of_decide_eq_true (List.mem_filter.mp hc).2, Option.isSome_of_eq_some hrate⟩

theorem amountFor_eq_none (h : row.currency = "usd" ∨ (rates.get row.currency).isSome = false) :
    amountFor float rates db row = none := by
  cases hamount : amountFor float rates db row with
  | none => rfl
  | some amount =>
      obtain ⟨price, -, hlookup⟩ := Option.bind_eq_some_iff.mp hamount
      obtain ⟨husd, hrated⟩ := mem_computeNewAmounts (mem_of_lookup hlookup)
      rcases h with h | h
      · exact absurd h husd
      · rw [h] at hrated
        cases hrated

theorem rows_of_syncRows (h : syncRows float rates draws db = .ok (n, db')) :
    db'.localizedPrices.rows = db.localizedPrices.rows.map
        (relocalized db.toTables (amounts float rates) draws.now) ++
      missingLocalized db.toTables (amounts float rates) draws.now draws.localizedId := by
  obtain ⟨-, -, table, hrows, htables⟩ := syncRows_eq_ok h
  rw [htables, hrows]

theorem frame_of_syncRows (h : syncRows float rates draws db = .ok (n, db')) :
    db'.toTables = { db.toTables with localizedPrices := db'.localizedPrices } := by
  obtain ⟨-, -, table, -, htables⟩ := syncRows_eq_ok h
  rw [htables]

/-- A row that was missing is none of those that were stored. -/
theorem id_of_missing (h : syncRows float rates draws db = .ok (n, db'))
    (hrow : row ∈ missingLocalized db.toTables (amounts float rates) draws.now draws.localizedId)
    {old : LocalizedPrice} (hold : old ∈ db.localizedPrices.rows) : old.id ≠ row.id := by
  intro hid
  have hvalid := db'.localizedPrices.valid.2
  rw [rows_of_syncRows h] at hvalid
  refine (List.pairwise_append.mp hvalid).2.2 _ (List.mem_map_of_mem hold) row hrow (Or.inl ?_)
  rw [id_relocalized, hid]

theorem created_of_syncRows (h : syncRows float rates draws db = .ok (n, db')) :
    created db db' =
      (missingLocalized db.toTables (amounts float rates) draws.now draws.localizedId).length := by
  unfold created
  rw [rows_of_syncRows h, List.countP_append]
  have hstored : (db.localizedPrices.rows.map
      (relocalized db.toTables (amounts float rates) draws.now)).countP
        (fun row => db.localizedPrices.rows.all fun old => old.id ≠ row.id) = 0 := by
    refine List.countP_eq_zero.mpr fun row hrow hnew => ?_
    obtain ⟨old, hold, rfl⟩ := List.mem_map.mp hrow
    have hne := List.all_eq_true.mp hnew old hold
    rw [decide_eq_true_eq, id_relocalized] at hne
    exact hne rfl
  have hmissing : (missingLocalized db.toTables (amounts float rates) draws.now
      draws.localizedId).countP (fun row => db.localizedPrices.rows.all fun old =>
        old.id ≠ row.id) =
      (missingLocalized db.toTables (amounts float rates) draws.now draws.localizedId).length := by
    refine List.countP_eq_length.mpr fun row hrow => ?_
    exact List.all_eq_true.mpr fun old hold => decide_eq_true (id_of_missing h hrow hold)
  rw [hstored, hmissing, Nat.zero_add]

theorem moved_of_syncRows (h : syncRows float rates draws db = .ok (n, db')) :
    moved db db' = db.localizedPrices.rows.countP (moves float rates db) := by
  unfold moved
  refine List.countP_congr fun old hold => ?_
  have hstored : relocalized db.toTables (amounts float rates) draws.now old ∈
      db'.localizedPrices.rows := by
    rw [rows_of_syncRows h]
    exact List.mem_append_left _ (List.mem_map_of_mem hold)
  have hamount : (relocalized db.toTables (amounts float rates) draws.now old).amountMinor =
      (amountFor float rates db old).getD old.amountMinor := by
    rw [relocalized_eq]
    cases amountFor float rates db old <;> rfl
  constructor
  · intro hany
    obtain ⟨row, hrow, hrowOld⟩ := List.any_eq_true.mp hany
    rw [Bool.and_eq_true, beq_iff_eq, bne_iff_ne] at hrowOld
    obtain ⟨hid, hmoved⟩ := hrowOld
    obtain rfl := eq_of_id hstored hrow (hid.trans (id_relocalized old).symm)
    rw [hamount] at hmoved
    unfold moves
    cases hfor : amountFor float rates db old with
    | none =>
        rw [hfor] at hmoved
        exact absurd rfl hmoved
    | some amount =>
        rw [hfor] at hmoved
        exact decide_eq_true (Ne.symm hmoved)
  · intro hmoves
    obtain ⟨amount, hfor, hne⟩ := (Option.any_eq_true _ _).mp hmoves
    refine List.any_eq_true.mpr ⟨_, hstored, ?_⟩
    rw [hamount, hfor, id_relocalized, beq_self_eq_true, Bool.true_and, bne_iff_ne]
    exact Ne.symm (of_decide_eq_true hne)

/-- Each price has its row in each currency with a rate, with the amount of the rate. -/
theorem localizedOf_of_syncRows (h : syncRows float rates draws db = .ok (n, db'))
    (hprice : db.HasPrice price) {amount : ℤ}
    (hentry : (currency, amount) ∈ Saasmint.computeNewAmounts (amounts float rates) price.amount) :
    ∃ row, db'.localizedOf price currency = some row ∧ row.amountMinor = amount := by
  obtain ⟨-, -, table, hrows, htables⟩ := syncRows_eq_ok h
  have hfound : (db'.localizedOf price currency).map LocalizedPrice.amountMinor = _ :=
    (localizedOf_relocalized hprice hrows htables).1
  rw [lookup_computeNewAmounts hentry, Option.some_or] at hfound
  exact Option.map_eq_some_iff.mp hfound

theorem catalogPrices_of_syncRows (h : syncRows float rates draws db = .ok (n, db')) :
    db'.toTables.catalogPrices = db.toTables.catalogPrices := by
  rw [frame_of_syncRows h]
  rfl

/-- A second transaction finds no row missing, -/
theorem created_again (h : syncRows float rates draws db = .ok (n, db')) (second : Draws) :
    (upserts float rates second db').filterMap Upsert.created? = [] := by
  rw [created_upserts]
  refine List.flatMap_eq_nil_iff.mpr fun price hprice => ?_
  refine List.filterMap_eq_nil_iff.mpr fun entry hentry => if_pos ?_
  rw [catalogPrices_of_syncRows h] at hprice
  obtain ⟨row, hrow, -⟩ := localizedOf_of_syncRows h (mem_catalogPrices.mp hprice) hentry
  exact List.isSome_find?.symm.trans (Option.isSome_of_eq_some hrow)

/-- and every amount as the rates give it. -/
theorem changed_again (h : syncRows float rates draws db = .ok (n, db')) (second : Draws) :
    (upserts float rates second db').filterMap Upsert.changed? = [] := by
  refine List.eq_nil_iff_forall_not_mem.mpr fun updated hmem => ?_
  obtain ⟨row, hrow, amount, hamount, hne, -⟩ := source_of_changed hmem
  obtain ⟨price, hfound, hlookup⟩ := Option.bind_eq_some_iff.mp hamount
  have hprice : price ∈ db.toTables.catalogPrices := by
    rw [← catalogPrices_of_syncRows h]
    exact List.mem_of_find?_eq_some hfound
  have howns : price.owns row = true := List.find?_some hfound
  obtain ⟨found, hlocalized, hsame⟩ :=
    localizedOf_of_syncRows h (mem_catalogPrices.mp hprice) (mem_of_lookup hlookup)
  rw [localizedOf_of_mem hrow howns] at hlocalized
  obtain rfl := Option.some.inj hlocalized
  exact hne hsame

/-- Rows with the owners of stored rows refer to stored prices. -/
theorem commit_localized {table : Table LocalizedPrice}
    (h : ∀ row ∈ table.rows, ∃ old ∈ db.localizedPrices.rows,
      row.planPriceId = old.planPriceId ∧ row.productPriceId = old.productPriceId) :
    ∃ db', Db.commit { db.toTables with localizedPrices := table } = .ok db' := by
  refine Db.commit_isOk ⟨db.integral.1, db.integral.2, db.integral.3, db.integral.4, db.integral.5,
    fun row hrow => ?_, db.integral.7, db.integral.8, db.integral.9, db.integral.10⟩
  obtain ⟨old, hold, hplan, hproduct⟩ := h row hrow
  have hrefs := db.integral.localizedPrices old hold
  unfold Tables.LocalizedPriceRefs at hrefs ⊢
  rw [hplan, hproduct]
  exact hrefs

/-- So it only refreshes the stamps. -/
theorem syncRows_again (h : syncRows float rates draws db = .ok (n, db')) (second : Draws) :
    ∃ db'', syncRows float rates second db' = .ok (0, db'') := by
  obtain ⟨hcompute, -, -⟩ := syncRows_eq_ok h
  have hupserts : allUpserts float rates second db' = .ok (upserts float rates second db') :=
    allUpserts_eq_ok.mpr ⟨catalogPrices_of_syncRows h ▸ hcompute, rfl⟩
  have hcreate : bulkCreate [] db'.localizedPrices = .ok db'.localizedPrices := by
    have htable : Table.ofRows? (db'.localizedPrices.rows ++ []) = some db'.localizedPrices :=
      Table.ofRows?_eq_some.mpr (List.append_nil _).symm
    unfold bulkCreate
    rw [htable]
    rfl
  obtain ⟨updated, hupdate, howners⟩ : ∃ updated, bulkUpdateAmounts [] db'.localizedPrices =
      .ok updated ∧ ∀ row ∈ (bulkUpdateSyncedAt
        ((upserts float rates second db').filterMap Upsert.heartbeat?) updated).rows,
        ∃ old ∈ db'.localizedPrices.rows, row.planPriceId = old.planPriceId ∧
          row.productPriceId = old.productPriceId := by
    refine ⟨_, rfl, fun row hrow => ?_⟩
    obtain ⟨middle, hmiddle, rfl⟩ := List.mem_map.mp hrow
    obtain ⟨old, hold, rfl⟩ := List.mem_map.mp hmiddle
    obtain ⟨at_, heq⟩ := updateById_setSyncedAt
      ((upserts float rates second db').filterMap Upsert.heartbeat?) (updateById [] setAmount old)
    rw [heq]
    exact ⟨old, hold, rfl, rfl⟩
  obtain ⟨db'', hcommit⟩ := commit_localized howners
  refine ⟨db'', ?_⟩
  unfold syncRows
  rw [hupserts, ok_bind]
  dsimp only
  rw [created_again h, changed_again h, hcreate, ok_bind, hupdate, ok_bind, hcommit]
  rfl

/-- Each price has exactly one row in each currency with a rate. -/
theorem existsUnique_of_syncRows (h : syncRows float rates draws db = .ok (n, db'))
    (hprice : db.HasPrice price) (hcurrency : currency ∈ supportedCurrencies)
    (husd : currency ≠ "usd") (hrated : (rates.get currency).isSome) :
    ∃! row, row ∈ db'.localizedPrices.rows ∧ price.owns row = true ∧ row.currency = currency := by
  obtain ⟨hcompute, -, -⟩ := syncRows_eq_ok h
  obtain ⟨entries, hentries⟩ := hcompute price (mem_catalogPrices.mpr hprice)
  obtain ⟨-, hsome⟩ := computeNewAmounts_eq_ok hentries
  obtain ⟨amount, hamount⟩ := Option.isSome_iff_exists.mp (hsome currency hcurrency husd hrated)
  have hentry : (currency, amount) ∈
      Saasmint.computeNewAmounts (amounts float rates) price.amount := by
    refine List.mem_filterMap.mpr ⟨currency, ?_, ?_⟩
    · exact List.mem_filter.mpr ⟨hcurrency, decide_eq_true husd⟩
    · rw [hamount, Option.map_some]
  obtain ⟨row, hfound, -⟩ := localizedOf_of_syncRows h hprice hentry
  obtain ⟨hrow, howns, hsame⟩ := Db.localizedOf_eq_some hfound
  refine ⟨row, ⟨hrow, howns, hsame⟩, ?_⟩
  rintro other ⟨hother, howns', hsame'⟩
  exact db'.localizedPrices.eq_of_clash hother hrow
    (clash_of_owns howns' howns (hsame'.trans hsame.symm))

/-- A row of the outcome is a stored one, relocalized, or a missing one. -/
theorem mem_of_syncRows (h : syncRows float rates draws db = .ok (n, db')) :
    row ∈ db'.localizedPrices.rows ↔
      (∃ old ∈ db.localizedPrices.rows,
        relocalized db.toTables (amounts float rates) draws.now old = row) ∨
      row ∈ missingLocalized db.toTables (amounts float rates) draws.now draws.localizedId := by
  rw [rows_of_syncRows h, List.mem_append, List.mem_map]

theorem count_of_syncRows (h : syncRows float rates draws db = .ok (n, db')) :
    n = created db db' + moved db db' := by
  obtain ⟨-, hcount, -⟩ := syncRows_eq_ok h
  rw [hcount, created_of_syncRows h, moved_of_syncRows h, length_changed]

end Completed

/-! ## Runs -/

section Runs

variable {F : Type} (float : FloatArithmetic F) (strLower : String → String)

/-- The run has received a rate for the currency. -/
def Run.Rated (run : Run) (currency : String) : Prop :=
  ∃ rates, run.rates? float strLower = some rates ∧ (rates.get currency).isSome

/-- What holds of a run on a database, however it ends. -/
structure Stable (run : Run) (db : Db) : Prop where
  /-- Only localized rows are written, -/
  frame : (syncLocalizedPrices float strLower run db).2.toTables = { db.toTables with
    localizedPrices := (syncLocalizedPrices float strLower run db).2.localizedPrices }
  /-- none of them is deleted, and none loses its owner, its currency or its stamp; -/
  kept : ∀ row ∈ db.localizedPrices.rows,
    ∃ row' ∈ (syncLocalizedPrices float strLower run db).2.localizedPrices.rows,
      row'.id = row.id ∧ row'.planPriceId = row.planPriceId ∧
        row'.productPriceId = row.productPriceId ∧ row'.currency = row.currency ∧
        row'.stripePriceId = row.stripePriceId
  /-- those of USD and of a currency without a rate stay as they are. -/
  untouched : ∀ row ∈ db.localizedPrices.rows,
    row.currency = "usd" ∨ ¬ run.Rated float strLower row.currency →
      row ∈ (syncLocalizedPrices float strLower run db).2.localizedPrices.rows
  /-- A new row is of another currency than USD that has a rate, and it has no stamp. -/
  new : ∀ row ∈ (syncLocalizedPrices float strLower run db).2.localizedPrices.rows,
    (∀ old ∈ db.localizedPrices.rows, old.id ≠ row.id) →
      row.currency ≠ "usd" ∧ run.Rated float strLower row.currency ∧ row.stripePriceId = none
  /-- Without rates, or after an exception, nothing has changed. -/
  failed : run.rates? float strLower = none ∨
      (∃ e, (syncLocalizedPrices float strLower run db).1 = .error e) →
    (syncLocalizedPrices float strLower run db).2 = db
  /-- A completed run counts the rows that are new and those whose amount has moved, -/
  count : ∀ n, (syncLocalizedPrices float strLower run db).1 = .ok n →
    n = created db (syncLocalizedPrices float strLower run db).2 +
      moved db (syncLocalizedPrices float strLower run db).2
  /-- each price has one row in each supported currency with a rate, -/
  complete : ∀ n, (syncLocalizedPrices float strLower run db).1 = .ok n →
    ∀ price, db.HasPrice price → ∀ currency ∈ supportedCurrencies, currency ≠ "usd" →
      run.Rated float strLower currency →
        ∃! row, row ∈ (syncLocalizedPrices float strLower run db).2.localizedPrices.rows ∧
          price.owns row = true ∧ row.currency = currency
  /-- and another run with the same rates creates no row, moves no amount and returns zero. -/
  again : ∀ n, (syncLocalizedPrices float strLower run db).1 = .ok n → ∀ second : Run,
    fetchRates float strLower second.response = fetchRates float strLower run.response →
      ∃ db'', syncLocalizedPrices float strLower second
          (syncLocalizedPrices float strLower run db).2 = (.ok 0, db'') ∧
        created (syncLocalizedPrices float strLower run db).2 db'' = 0 ∧
          moved (syncLocalizedPrices float strLower run db).2 db'' = 0

variable {float strLower} {run : Run} {db : Db}

/-- How a run ends. -/
theorem sync_cases (run : Run) (db : Db) :
    (∃ e, syncLocalizedPrices float strLower run db = (.error e, db)) ∨
      (fetchRates float strLower run.response = .ok none ∧
        syncLocalizedPrices float strLower run db = (.ok 0, db)) ∨
      ∃ rates n db', fetchRates float strLower run.response = .ok (some rates) ∧
        syncRows float rates run.toDraws db = .ok (n, db') ∧
        syncLocalizedPrices float strLower run db = (.ok n, db') := by
  unfold syncLocalizedPrices
  cases fetchRates float strLower run.response with
  | error e => exact Or.inl ⟨e, rfl⟩
  | ok rates? =>
      cases rates? with
      | none => exact Or.inr (Or.inl ⟨rfl, rfl⟩)
      | some rates =>
          cases hsync : syncRows float rates run.toDraws db with
          | error e =>
              refine Or.inl ⟨e, ?_⟩
              dsimp only
              rw [hsync]
          | ok result =>
              refine Or.inr (Or.inr ⟨rates, result.1, result.2, rfl, hsync, ?_⟩)
              dsimp only
              rw [hsync]

theorem created_self (db : Db) : created db db = 0 :=
  List.countP_eq_zero.mpr fun row hrow hnew =>
    of_decide_eq_true (List.all_eq_true.mp hnew row hrow) rfl

theorem moved_self (db : Db) : moved db db = 0 := by
  refine List.countP_eq_zero.mpr fun old hold hany => ?_
  obtain ⟨row, hrow, h⟩ := List.any_eq_true.mp hany
  rw [Bool.and_eq_true, beq_iff_eq, bne_iff_ne] at h
  exact h.2 (congrArg LocalizedPrice.amountMinor (eq_of_id hold hrow h.1))

/-- A run that changes nothing. -/
theorem stable_of_unchanged (hdb : (syncLocalizedPrices float strLower run db).2 = db)
    (hresult : ∀ n, (syncLocalizedPrices float strLower run db).1 = .ok n →
      n = 0 ∧ fetchRates float strLower run.response = .ok none) :
    Stable float strLower run db where
  frame := by rw [hdb]
  kept row hrow := ⟨row, hdb.symm ▸ hrow, rfl, rfl, rfl, rfl, rfl⟩
  untouched row hrow _ := hdb.symm ▸ hrow
  new row hrow hnew := by
    rw [hdb] at hrow
    exact absurd rfl (hnew row hrow)
  failed _ := hdb
  count n hn := by rw [hdb, created_self, moved_self, (hresult n hn).1]
  complete n hn price _ currency _ _ hrated := by
    obtain ⟨rates, hrates, -⟩ := hrated
    rw [Run.rates?, (hresult n hn).2] at hrates
    cases hrates
  again n hn second hsame := by
    rw [(hresult n hn).2] at hsame
    rw [hdb]
    refine ⟨db, ?_, created_self db, moved_self db⟩
    unfold syncLocalizedPrices
    rw [hsame]

theorem rated_iff {rates : Rates F} (hfetch : fetchRates float strLower run.response =
    .ok (some rates)) {currency : String} :
    run.Rated float strLower currency ↔ (rates.get currency).isSome := by
  have hrates : run.rates? float strLower = some rates := by rw [Run.rates?, hfetch]
  constructor
  · rintro ⟨rates', hrates', hsome⟩
    obtain rfl := Option.some.inj (hrates.symm.trans hrates')
    exact hsome
  · exact fun hsome => ⟨rates, hrates, hsome⟩

end Runs

end Saasmint.RateSync
