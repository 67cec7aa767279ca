import Saasmint.Catalog.StripeCatalog

/-!
# Minting one price

What `_upsert_price` makes of the catalog of the Stripe account, in three cases: the
price that holds the lookup key matches the terms; it does not, and another price is
minted under its product; or no price holds the key.

`Minted` draws from these cases what the run of the command needs: afterwards a price
of the terms holds the key, and the holders of other keys are those before.
-/

namespace Saasmint

open Atomic Handler Relational

variable {σ : Type}

/-! ## Calls that succeed -/

section Calls

variable {rt : CatalogRuntime σ} {view : σ → StripeCatalog} {w w' : World σ}

theorem callStripe_eq_ok {call : StripeCall} {answer : Json}
    (hserves : ServesCatalog rt.stripe view) (hcall : call.ofCatalog = true)
    (h : Fallible.exec (callStripe rt.toRuntime call) w = (.ok answer, w')) :
    w'.db = w.db ∧ (view w.stripe).Effect call answer (view w'.stripe) := by
  rw [exec_callStripe] at h
  obtain ⟨hanswer, rfl⟩ := Prod.ext_iff.mp h
  exact ⟨rfl, hserves.answers call w.stripe answer hcall hanswer⟩

theorem lift_eq_ok {α : Type} {result : Py α} {a : α}
    (h : Fallible.exec (lift result : Handler σ α) w = (.ok a, w')) : result = .ok a ∧ w' = w := by
  rw [exec_lift] at h
  obtain ⟨hresult, rfl⟩ := Prod.ext_iff.mp h
  exact ⟨hresult, rfl⟩

theorem query_eq_ok {α : Type} {f : Db → α} {a : α}
    (h : Fallible.exec (query f : Handler σ α) w = (.ok a, w')) : f w.db = a ∧ w = w' := by
  rw [exec_query] at h
  obtain ⟨hresult, hsame⟩ := Prod.ext_iff.mp h
  exact ⟨Except.ok.inj hresult, hsame⟩

/-- The parameters of the price that is minted. -/
def PriceTerms.params (terms : PriceTerms) (amount : Int) (productId : String) : PriceParams where
  product := productId
  unitAmount := amount
  currency := terms.currency
  lookupKey := terms.lookupKey
  metadata := terms.priceMetadata
  recurring := terms.recurring

/-- The parameters of a new Stripe product. -/
def PriceTerms.productParams (terms : PriceTerms) : ProductParams where
  name := some terms.productName
  description := terms.productDescription.filter (· ≠ "")
  metadata := some terms.productMetadata

theorem createPrice_eq_ok {terms : PriceTerms} {amount : Int} {productId priceId : String}
    (hserves : ServesCatalog rt.stripe view)
    (h : Fallible.exec (createPrice rt terms amount productId) w = (.ok priceId, w')) :
    w'.db = w.db ∧ (view w'.stripe).products = (view w.stripe).products ∧
      (view w'.stripe).prices.rows = (view w.stripe).prices.rows.map (·.without terms.lookupKey) ++
        [StripePrice.ofParams priceId (terms.params amount productId)] := by
  unfold createPrice at h
  obtain ⟨created, t, hcall, h₁⟩ := Fallible.exec_bind_eq_ok.mp h
  obtain ⟨hdb, heffect⟩ := callStripe_eq_ok hserves rfl hcall
  obtain ⟨id, t', hread, h₂⟩ := Fallible.exec_bind_eq_ok.mp h₁
  obtain ⟨hid, rfl⟩ := lift_eq_ok hread
  cases h₂
  cases heffect with
  | priceCreate answered prices products =>
      obtain rfl := Except.ok.inj (hid.symm.trans answered)
      exact ⟨hdb, products, prices⟩

theorem StripeProduct.update_nothing (id : String) (q : StripeProduct) :
    q.update id ⟨none, none, none⟩ = q := by
  unfold StripeProduct.update
  split <;> rfl

theorem syncStripeProduct_eq_ok {ref : ProductRef} {terms : PriceTerms}
    (hserves : ServesCatalog rt.stripe view)
    (h : Fallible.exec (syncStripeProduct rt ref terms) w = (.ok (), w')) :
    w'.db = w.db ∧ (view w'.stripe).prices = (view w.stripe).prices ∧
      (view w'.stripe).products.rows =
        (view w.stripe).products.rows.map (·.update ref.productId (productUpdate ref terms)) := by
  unfold syncStripeProduct at h
  dsimp only at h
  split at h
  next hnothing =>
      cases h
      rw [hnothing]
      refine ⟨rfl, rfl, ?_⟩
      simp only [StripeProduct.update_nothing, List.map_id']
  next =>
      obtain ⟨answer, t, hcall, h⟩ := Fallible.exec_bind_eq_ok.mp h
      obtain ⟨hdb, heffect⟩ := callStripe_eq_ok hserves rfl hcall
      cases h
      cases heffect with
      | productModify prices products => exact ⟨hdb, prices, products⟩

/-! ## The three cases -/

/-- What `_upsert_price` makes of the catalog, when it returns a price. -/
inductive Minting (existing : List (String × ListedPrice)) (terms : PriceTerms) (amount : Int)
    (c c' : StripeCatalog) (priceId : String) : Prop
  | matched (current : ListedPrice) (found : existing.lookup terms.lookupKey = some current)
      (matching : priceMatches current amount terms = true) (same : priceId = current.id)
      (prices : c'.prices = c.prices)
      (products : c'.products.rows = c.products.rows.map
        (·.update current.product.id (productUpdate (.loaded current.product) terms)))
  | reminted (current : ListedPrice) (found : existing.lookup terms.lookupKey = some current)
      (matching : priceMatches current amount terms = false)
      (prices : c'.prices.rows =
        (c.prices.rows.map (·.withActive current.id false)).map (·.without terms.lookupKey) ++
          [StripePrice.ofParams priceId (terms.params amount current.product.id)])
      (products : c'.products.rows = c.products.rows.map
        (·.update current.product.id (productUpdate (.id current.product.id) terms)))
  | created (productId : String) (found : existing.lookup terms.lookupKey = none)
      (prices : c'.prices.rows = c.prices.rows.map (·.without terms.lookupKey) ++
        [StripePrice.ofParams priceId (terms.params amount productId)])
      (products : c'.products.rows =
        c.products.rows ++ [StripeProduct.ofParams productId terms.productParams])

theorem upsertPrice_eq_ok {terms : PriceTerms} {amount : Int}
    {existing : List (String × ListedPrice)} {priceId : String}
    (hserves : ServesCatalog rt.stripe view)
    (h : Fallible.exec (upsertPrice rt terms amount existing) w = (.ok priceId, w')) :
    w'.db = w.db ∧ Minting existing terms amount (view w.stripe) (view w'.stripe) priceId := by
  unfold upsertPrice at h
  cases hfound : existing.lookup terms.lookupKey with
  | some current =>
      rw [hfound] at h
      dsimp only at h
      cases hmatch : priceMatches current amount terms with
      | true =>
          rw [hmatch, if_pos rfl] at h
          obtain ⟨_, t, hsync, h⟩ := Fallible.exec_bind_eq_ok.mp h
          obtain ⟨hdb, hprices, hproducts⟩ := syncStripeProduct_eq_ok hserves hsync
          cases h
          exact ⟨hdb, .matched current hfound hmatch rfl hprices hproducts⟩
      | false =>
          rw [hmatch, if_neg Bool.false_ne_true] at h
          obtain ⟨answer, t, harchive, h⟩ := Fallible.exec_bind_eq_ok.mp h
          obtain ⟨hdb, heffect⟩ := callStripe_eq_ok hserves rfl harchive
          obtain ⟨_, t', hsync, h⟩ := Fallible.exec_bind_eq_ok.mp h
          obtain ⟨hdb', hprices', hproducts'⟩ := syncStripeProduct_eq_ok hserves hsync
          obtain ⟨hdb'', hproducts'', hprices''⟩ := createPrice_eq_ok hserves h
          cases heffect with
          | priceModify prices products =>
              refine ⟨hdb''.trans (hdb'.trans hdb), .reminted current hfound hmatch ?_ ?_⟩
              · rw [hprices'', hprices', prices]
              · rw [hproducts'', hproducts', products]
                rfl
  | none =>
      rw [hfound] at h
      dsimp only at h
      obtain ⟨answer, t, hcreate, h₁⟩ := Fallible.exec_bind_eq_ok.mp h
      obtain ⟨hdb, heffect⟩ := callStripe_eq_ok hserves rfl hcreate
      obtain ⟨id, t', hread, h₂⟩ := Fallible.exec_bind_eq_ok.mp h₁
      obtain ⟨hid, rfl⟩ := lift_eq_ok hread
      obtain ⟨hdb', hproducts', hprices'⟩ := createPrice_eq_ok hserves h₂
      cases heffect with
      | @productCreate _ _ productId _ answered prices products =>
          obtain rfl := Except.ok.inj (hid.symm.trans answered)
          refine ⟨hdb'.trans hdb, .created productId hfound ?_ ?_⟩
          · rw [hprices', prices]
            rfl
          · rw [hproducts', products]
            rfl

end Calls

/-! ## Prices -/

/-- The listing has the price that holds the key. -/
structure StripeCatalog.Finds (c : StripeCatalog) (existing : List (String × ListedPrice))
    (key : String) : Prop where
  sound : ∀ l, existing.lookup key = some l → ∃ p ∈ c.prices.rows, ∃ q : StripeProduct,
    p.Holds key ∧ q.id = p.product ∧ l = p.listed q
  complete : existing.lookup key = none → ∀ p ∈ c.prices.rows, ¬ p.Holds key

/-- What minting makes of the prices. -/
structure Minted (terms : PriceTerms) (amount : Int) (c c' : StripeCatalog) (priceId : String) :
    Prop where
  minted : ∃ p ∈ c'.prices.rows, p.id = priceId ∧ p.Holds terms.lookupKey ∧
    p.Priced terms amount ∧ (p.active = true ∨ p ∈ c.prices.rows)
  kept : ∀ p ∈ c.prices.rows, p.Holds terms.lookupKey → p.Priced terms amount →
    p ∈ c'.prices.rows
  others : ∀ p : StripePrice, ∀ key, p.Holds key → key ≠ terms.lookupKey →
    (p ∈ c'.prices.rows ↔ p ∈ c.prices.rows)

section Prices

variable {existing : List (String × ListedPrice)} {terms : PriceTerms} {amount : Int}
  {c c' : StripeCatalog} {priceId productId key : String} {p : StripePrice}

theorem StripePrice.priced_ofParams :
    (StripePrice.ofParams priceId (terms.params amount productId)).Priced terms amount :=
  ⟨rfl, rfl, rfl⟩

/-- The prices under other keys after a price took this key. -/
theorem mem_transferred {rows : List StripePrice} (hp : p.Holds key) (hkey : key ≠ terms.lookupKey) :
    p ∈ rows.map (·.without terms.lookupKey) ++
        [StripePrice.ofParams priceId (terms.params amount productId)] ↔ p ∈ rows := by
  rw [List.mem_append, List.mem_map, List.mem_singleton]
  constructor
  · rintro (⟨p₀, hp₀, rfl⟩ | rfl)
    · rw [((StripePrice.holds_without hkey).mp hp).2]
      exact hp₀
    · exact absurd (Option.some.inj hp).symm hkey
  · intro hmem
    refine Or.inl ⟨p, hmem, ?_⟩
    unfold StripePrice.without
    rw [if_neg fun h => hkey (Option.some.inj (hp.symm.trans h))]

/-- Archiving the price that holds this key leaves the prices under other keys. -/
theorem mem_archived {current : StripePrice} (hcurrent : current ∈ c.prices.rows)
    (hholds : current.Holds terms.lookupKey) (hp : p.Holds key) (hkey : key ≠ terms.lookupKey) :
    p ∈ c.prices.rows.map (·.withActive current.id false) ↔ p ∈ c.prices.rows := by
  have hother : ∀ p₀ ∈ c.prices.rows, p₀.Holds key → p₀.withActive current.id false = p₀ := by
    intro p₀ hp₀ hholds₀
    refine if_neg fun hid => hkey ?_
    rw [StripeCatalog.price_unique hp₀ hcurrent hid] at hholds₀
    exact Option.some.inj (hholds₀.symm.trans hholds)
  rw [List.mem_map]
  constructor
  · rintro ⟨p₀, hp₀, rfl⟩
    have hholds₀ : p₀.Holds key := by
      unfold StripePrice.withActive at hp
      split at hp
      · exact hp
      · exact hp
    rw [hother p₀ hp₀ hholds₀]
    exact hp₀
  · exact fun hmem => ⟨p, hmem, hother p hmem hp⟩

theorem Minting.minted (hfinds : c.Finds existing terms.lookupKey)
    (h : Minting existing terms amount c c' priceId) : Minted terms amount c c' priceId := by
  cases h with
  | matched current found matching same prices products =>
      obtain ⟨p, hp, q, hholds, hq, rfl⟩ := hfinds.sound current found
      have hpriced := (StripePrice.priceMatches_listed q).mp matching
      refine ⟨⟨p, ?_, same.symm, hholds, hpriced, Or.inr hp⟩, ?_, ?_⟩
      · rw [prices]
        exact hp
      · intro p' hp' _ _
        rw [prices]
        exact hp'
      · intro p' key _ _
        rw [prices]
  | reminted current found matching prices products =>
      obtain ⟨p, hp, q, hholds, hq, rfl⟩ := hfinds.sound current found
      refine ⟨⟨.ofParams priceId (terms.params amount (p.listed q).product.id), ?_, rfl, rfl,
        StripePrice.priced_ofParams, Or.inl rfl⟩, ?_, ?_⟩
      · rw [prices]
        exact List.mem_append_right _ List.mem_cons_self
      · intro p' hp' hholds' hpriced
        obtain rfl := StripeCatalog.holder_unique hp hp' hholds hholds'
        rw [(StripePrice.priceMatches_listed q).mpr hpriced] at matching
        cases matching
      · intro p' key hholds' hkey
        rw [prices, mem_transferred hholds' hkey]
        exact mem_archived hp hholds hholds' hkey
  | created productId found prices products =>
      refine ⟨⟨.ofParams priceId (terms.params amount productId), ?_, rfl, rfl,
        StripePrice.priced_ofParams, Or.inl rfl⟩, ?_, ?_⟩
      · rw [prices]
        exact List.mem_append_right _ List.mem_cons_self
      · exact fun p hp hholds => absurd hholds (hfinds.complete found p hp)
      · intro p key hholds hkey
        rw [prices, mem_transferred hholds hkey]

/-- The listing is good as long as the prices that hold the key stay. -/
theorem StripeCatalog.Finds.of_same (h : c.Finds existing key)
    (hsame : ∀ p : StripePrice, p.Holds key → (p ∈ c'.prices.rows ↔ p ∈ c.prices.rows)) :
    c'.Finds existing key where
  sound l hl := by
    obtain ⟨p, hp, q, hholds, hrest⟩ := h.sound l hl
    exact ⟨p, (hsame p hholds).mpr hp, q, hholds, hrest⟩
  complete hnone p hp hholds := h.complete hnone p ((hsame p hholds).mp hp) hholds

end Prices

/-! ## Products -/

/-- An update has nothing to say about the description and the metadata. -/
def Described (terms : PriceTerms) (q : StripeProduct) : Prop :=
  (productUpdate (.loaded q) terms).description = none ∧
    (productUpdate (.loaded q) terms).metadata = none

section Products

variable {terms : PriceTerms} {q : StripeProduct}

theorem described_iff : Described terms q ↔
    (∀ d ∈ terms.productDescription, d = "" ∨ q.description = some d) ∧
      coversMetadata q.metadata terms.productMetadata = true := by
  unfold Described productUpdate
  refine and_congr ?_ ?_
  · rw [Option.filter_eq_none_iff]
    refine forall₂_congr fun d _ => ?_
    by_cases hempty : d = ""
    · simp [hempty]
    · by_cases hsame : q.description = some d
      · simp [hempty, hsame, ProductRef.existingDescription]
      · simp [hempty, hsame, ProductRef.existingDescription]
  · show (if coversMetadata q.metadata terms.productMetadata = true then none
      else some (mergeMetadata q.metadata terms.productMetadata)) = none ↔ _
    by_cases h : coversMetadata q.metadata terms.productMetadata = true
    · simp [h]
    · simp [h]

/-- Metadata that are written first are read back. -/
theorem coversMetadata_append {metadata rest : List (String × String)}
    (hnodup : (metadata.map Prod.fst).Nodup) : coversMetadata (metadata ++ rest) metadata = true := by
  unfold coversMetadata
  rw [List.all_eq_true]
  rintro ⟨key, value⟩ hmem
  rw [beq_iff_eq]
  induction metadata with
  | nil => cases hmem
  | cons entry metadata ih =>
      obtain ⟨key', value'⟩ := entry
      rw [List.map_cons, List.nodup_cons] at hnodup
      rw [List.cons_append, List.lookup_cons]
      rcases List.mem_cons.mp hmem with hsame | hlater
      · cases hsame
        simp
      · have hkey : key ∈ metadata.map Prod.fst := List.mem_map.mpr ⟨_, hlater, rfl⟩
        have hne : key ≠ key' := fun hsame => hnodup.1 (hsame ▸ hkey)
        have hfalse : (key == key') = false := by simpa using hne
        rw [hfalse]
        exact ih hnodup.2 hlater

theorem described_update (hnodup : (terms.productMetadata.map Prod.fst).Nodup) {ref : ProductRef}
    (href : ref = .loaded q ∨ ref = .id q.id) :
    Described terms (q.update q.id (productUpdate ref terms)) := by
  rw [described_iff, StripeProduct.update, if_pos rfl]
  dsimp only
  constructor
  · intro d hd
    by_cases hempty : d = ""
    · exact Or.inl hempty
    · right
      unfold productUpdate
      dsimp only
      rw [hd, Option.filter_some]
      rcases href with rfl | rfl
      · by_cases hsame : q.description = some d
        · simp [ProductRef.existingDescription, hsame]
        · simp [ProductRef.existingDescription, hsame, hempty]
      · simp [ProductRef.existingDescription, hempty]
  · unfold productUpdate
    dsimp only
    split
    next hcovers =>
        rw [Option.getD_none, List.nil_append]
        rcases href with rfl | rfl
        · exact hcovers
        · -- there is nothing to write
          have hnothing : terms.productMetadata = [] := by
            cases hmetadata : terms.productMetadata with
            | nil => rfl
            | cons entry rest =>
                rw [hmetadata] at hcovers
                simp [coversMetadata, ProductRef.existingMetadata] at hcovers
          rw [hnothing]
          rfl
    next =>
        rw [Option.getD_some, mergeMetadata, List.append_assoc]
        exact coversMetadata_append hnodup

theorem described_ofParams (hnodup : (terms.productMetadata.map Prod.fst).Nodup) (id : String) :
    Described terms (StripeProduct.ofParams id terms.productParams) := by
  rw [described_iff]
  constructor
  · intro d hd
    by_cases hempty : d = ""
    · exact Or.inl hempty
    · right
      simp [StripeProduct.ofParams, PriceTerms.productParams, Option.mem_def.mp hd, hempty]
  · have hcovers : coversMetadata (terms.productMetadata ++ []) terms.productMetadata = true :=
      coversMetadata_append hnodup
    rw [List.append_nil] at hcovers
    exact hcovers

theorem name_update_loaded :
    (q.update q.id (productUpdate (.loaded q) terms)).name = terms.productName := by
  rw [StripeProduct.update, if_pos rfl]
  unfold productUpdate ProductRef.existingName
  by_cases hname : q.name = terms.productName
  · simp [hname]
  · simp [hname]

/-- Of a product that is known by its id alone, the name is not updated. -/
theorem name_update_id : (q.update q.id (productUpdate (.id q.id) terms)).name = q.name := by
  rw [StripeProduct.update, if_pos rfl]
  rfl

end Products

end Saasmint
