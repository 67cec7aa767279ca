import Saasmint.Catalog.Traversal

/-!
# Syncing twice

After a run that completes, is a second run of the same catalog silent?  The second
run compares what the first one wrote: the price by its terms, the stamp by its id,
and the Stripe product by its name, description and metadata.

Prices under different keys have different products, `StripeCatalog.Separate`: a
product is created for one key, and reused for that key alone.  So the turn of a pair
keeps what the other pairs have written, `StripeCatalog.Keeps`, and each pair can be
judged at its own turn, `Minting.renewed`.  There one of the three cases is special:
when a price is minted anew under the old product, the product is known by its id
alone, and its name is not compared.

`sync_silent_iff` says for which accounts the second run is silent.
-/

namespace Saasmint

open Atomic Handler Relational

variable {σ : Type}

/-! ## Separate products -/

namespace StripeCatalog

/-- Prices under different keys have different products. -/
def Separate (c : StripeCatalog) : Prop :=
  ∀ p ∈ c.prices.rows, ∀ p' ∈ c.prices.rows, ∀ key key', p.Holds key → p'.Holds key' →
    p.product = p'.product → key = key'

/-- The products of a listing stay with their keys. -/
structure Reserves (c : StripeCatalog) (existing : List (String × ListedPrice)) : Prop where
  apart : ∀ key key' l l', existing.lookup key = some l → existing.lookup key' = some l' →
    l.product.id = l'.product.id → key = key'
  stored : ∀ key l, existing.lookup key = some l → ∃ q ∈ c.products.rows, q.id = l.product.id
  held : ∀ key l, existing.lookup key = some l → ∀ p ∈ c.prices.rows, ∀ key', p.Holds key' →
    p.product = l.product.id → key' = key

/-- What is kept under a key: the prices that hold it, and their products. -/
structure Keeps (key : String) (c c' : StripeCatalog) : Prop where
  prices : ∀ p : StripePrice, p.Holds key → (p ∈ c'.prices.rows ↔ p ∈ c.prices.rows)
  products : ∀ p ∈ c.prices.rows, p.Holds key → ∀ q : StripeProduct, q.id = p.product →
    (q ∈ c'.products.rows ↔ q ∈ c.products.rows)

variable {c c' c'' : StripeCatalog} {existing : List (String × ListedPrice)} {keys : List String}
  {key : String}

theorem Keeps.refl (key : String) (c : StripeCatalog) : c.Keeps key c where
  prices _ _ := Iff.rfl
  products _ _ _ _ _ := Iff.rfl

theorem Keeps.trans (h : Keeps key c c') (h' : Keeps key c' c'') : Keeps key c c'' where
  prices p hp := (h'.prices p hp).trans (h.prices p hp)
  products p hp hholds q hq :=
    (h'.products p ((h.prices p hholds).mpr hp) hholds q hq).trans (h.products p hp hholds q hq)

theorem Fetched.reserves (hfetched : c.Fetched existing keys) (hseparate : c.Separate) :
    c.Reserves existing where
  apart key key' l l' hl hl' hsame := by
    obtain ⟨p, hp, q, -, hholds, hid, rfl⟩ := hfetched.entries key l hl
    obtain ⟨p', hp', q', -, hholds', hid', rfl⟩ := hfetched.entries key' l' hl'
    exact hseparate p hp p' hp' key key' hholds hholds' (hid.symm.trans (hsame.trans hid'))
  stored key l hl := by
    obtain ⟨p, hp, q, hq, -, -, rfl⟩ := hfetched.entries key l hl
    exact ⟨q, hq, rfl⟩
  held key l hl p' hp' key' hholds' hsame := by
    obtain ⟨p, hp, q, -, hholds, hid, rfl⟩ := hfetched.entries key l hl
    exact hseparate p' hp' p hp key' key hholds' hholds (hsame.trans hid)

end StripeCatalog

/-! ## What a turn keeps -/

section Turn

variable {existing : List (String × ListedPrice)} {terms : PriceTerms} {amount : Int}
  {c c' : StripeCatalog} {priceId productId key : String} {p : StripePrice}

theorem StripePrice.without_product (key : String) (p : StripePrice) :
    (p.without key).product = p.product := by
  unfold without
  split <;> rfl

theorem StripePrice.withActive_keyed (id : String) (active : Bool) (p : StripePrice) :
    (p.withActive id active).product = p.product ∧
      (p.withActive id active).lookupKey = p.lookupKey := by
  unfold withActive
  split
  · exact ⟨rfl, rfl⟩
  · exact ⟨rfl, rfl⟩

theorem StripeProduct.update_id (id : String) (params : ProductParams) (q : StripeProduct) :
    (q.update id params).id = q.id := by
  unfold update
  split <;> rfl

theorem StripeProduct.update_of_ne {id : String} {params : ProductParams} {q : StripeProduct}
    (h : q.id ≠ id) : q.update id params = q := if_neg h

/-- A price under a key after one was minted: a price that was there, or the new one. -/
theorem mem_transferred_cases {rows : List StripePrice}
    (h : p ∈ rows.map (·.without terms.lookupKey) ++
      [StripePrice.ofParams priceId (terms.params amount productId)]) (hp : p.Holds key) :
    (∃ p₀ ∈ rows, p₀.Holds key ∧ p₀.product = p.product) ∨
      (key = terms.lookupKey ∧ p.product = productId) := by
  rcases List.mem_append.mp h with hold | hnew
  · obtain ⟨p₀, hp₀, rfl⟩ := List.mem_map.mp hold
    refine Or.inl ⟨p₀, hp₀, ?_, (p₀.without_product _).symm⟩
    unfold StripePrice.without at hp
    split at hp
    · cases hp
    · exact hp
  · rw [List.mem_singleton] at hnew
    subst hnew
    exact Or.inr ⟨(Option.some.inj hp).symm, rfl⟩

/-- The prices under the keys after a turn, and the product of the new one: the one that
was listed under the key, or one that did not exist. -/
theorem Minting.held_cases (h : Minting existing terms amount c c' priceId)
    (hp : p ∈ c'.prices.rows) (hholds : p.Holds key) :
    (∃ p₀ ∈ c.prices.rows, p₀.Holds key ∧ p₀.product = p.product) ∨
      (key = terms.lookupKey ∧
        ((∃ l, existing.lookup terms.lookupKey = some l ∧ p.product = l.product.id) ∨
          ∀ q ∈ c.products.rows, q.id ≠ p.product)) := by
  cases h with
  | matched current found matching same prices products =>
      rw [prices] at hp
      exact Or.inl ⟨p, hp, hholds, rfl⟩
  | reminted current found matching prices products =>
      rw [prices] at hp
      rcases mem_transferred_cases hp hholds with ⟨p₁, hp₁, hholds₁, hproduct⟩ | ⟨hkey, hproduct⟩
      · obtain ⟨p₀, hp₀, rfl⟩ := List.mem_map.mp hp₁
        obtain ⟨hproduct₀, hkey₀⟩ := p₀.withActive_keyed current.id false
        refine Or.inl ⟨p₀, hp₀, ?_, hproduct₀.symm.trans hproduct⟩
        exact hkey₀.symm.trans hholds₁
      · exact Or.inr ⟨hkey, Or.inl ⟨current, found, hproduct⟩⟩
  | created productId found prices products =>
      rw [prices] at hp
      rcases mem_transferred_cases hp hholds with hold | ⟨hkey, hproduct⟩
      · exact Or.inl hold
      · refine Or.inr ⟨hkey, Or.inr fun q hq hid => ?_⟩
        -- a product of the new id was there, and the new one is stored beside it
        have hvalid := c'.products.valid.2
        rw [products] at hvalid
        refine (List.pairwise_append.mp hvalid).2.2 q hq _ List.mem_cons_self ?_
        exact hid.trans hproduct

theorem Minting.products_subset (h : Minting existing terms amount c c' priceId)
    {q : StripeProduct} (hq : q ∈ c.products.rows) : ∃ q' ∈ c'.products.rows, q'.id = q.id := by
  cases h with
  | matched current found matching same prices products =>
      rw [products]
      exact ⟨_, List.mem_map_of_mem hq, q.update_id _ _⟩
  | reminted current found matching prices products =>
      rw [products]
      exact ⟨_, List.mem_map_of_mem hq, q.update_id _ _⟩
  | created productId found prices products =>
      rw [products]
      exact ⟨q, List.mem_append_left _ hq, rfl⟩

theorem Minting.separate (hseparate : c.Separate) (hreserves : c.Reserves existing)
    (h : Minting existing terms amount c c' priceId) : c'.Separate := by
  intro p hp p' hp' key key' hholds hholds' hsame
  rcases h.held_cases hp hholds with ⟨p₀, hp₀, hholds₀, hproduct₀⟩ | ⟨hkey, hnew⟩
  · rcases h.held_cases hp' hholds' with ⟨p₀', hp₀', hholds₀', hproduct₀'⟩ | ⟨hkey', hnew'⟩
    · exact hseparate p₀ hp₀ p₀' hp₀' key key' hholds₀ hholds₀'
        (hproduct₀.trans (hsame.trans hproduct₀'.symm))
    · rcases hnew' with ⟨l, hl, hproduct'⟩ | hfresh
      · rw [hkey']
        exact hreserves.held _ l hl p₀ hp₀ key hholds₀ (hproduct₀.trans (hsame.trans hproduct'))
      · obtain ⟨q, hq, hid⟩ := c.complete p₀ hp₀
        exact absurd (hid.trans (hproduct₀.trans hsame)) (hfresh q hq)
  · rcases h.held_cases hp' hholds' with ⟨p₀', hp₀', hholds₀', hproduct₀'⟩ | ⟨hkey', -⟩
    · rcases hnew with ⟨l, hl, hproduct⟩ | hfresh
      · rw [hkey]
        exact (hreserves.held _ l hl p₀' hp₀' key' hholds₀'
          (hproduct₀'.trans (hsame.symm.trans hproduct))).symm
      · obtain ⟨q, hq, hid⟩ := c.complete p₀' hp₀'
        exact absurd (hid.trans (hproduct₀'.trans hsame.symm)) (hfresh q hq)
    · exact hkey.trans hkey'.symm

theorem Minting.reserves (hreserves : c.Reserves existing)
    (h : Minting existing terms amount c c' priceId) : c'.Reserves existing where
  apart := hreserves.apart
  stored key l hl := by
    obtain ⟨q, hq, hid⟩ := hreserves.stored key l hl
    obtain ⟨q', hq', hid'⟩ := h.products_subset hq
    exact ⟨q', hq', hid'.trans hid⟩
  held key l hl p hp key' hholds hsame := by
    rcases h.held_cases hp hholds with ⟨p₀, hp₀, hholds₀, hproduct₀⟩ | ⟨hkey, hnew⟩
    · exact hreserves.held key l hl p₀ hp₀ key' hholds₀ (hproduct₀.trans hsame)
    · rcases hnew with ⟨l', hl', hproduct⟩ | hfresh
      · rw [hkey]
        exact hreserves.apart _ key l' l hl' hl (hproduct.symm.trans hsame)
      · obtain ⟨q, hq, hid⟩ := hreserves.stored key l hl
        exact absurd (hid.trans hsame.symm) (hfresh q hq)

/-- An update of another product. -/
theorem mem_updated_of_ne {rows : List StripeProduct} {id : String} {params : ProductParams}
    {q : StripeProduct} (h : q.id ≠ id) : q ∈ rows.map (·.update id params) ↔ q ∈ rows := by
  rw [List.mem_map]
  constructor
  · rintro ⟨q₀, hq₀, rfl⟩
    rw [StripeProduct.update_id] at h
    rw [StripeProduct.update_of_ne h]
    exact hq₀
  · exact fun hq => ⟨q, hq, StripeProduct.update_of_ne h⟩

/-- A turn keeps what is there under the other keys. -/
theorem Minting.keeps (hreserves : c.Reserves existing) (hfinds : c.Finds existing terms.lookupKey)
    (hkey : key ≠ terms.lookupKey) (h : Minting existing terms amount c c' priceId) :
    c.Keeps key c' where
  prices p hholds := (h.minted hfinds).others p key hholds hkey
  products p hp hholds q hq := by
    have hother : ∀ l, existing.lookup terms.lookupKey = some l → q.id ≠ l.product.id := by
      intro l hl hid
      exact hkey (hreserves.held _ l hl p hp key hholds (hq.symm.trans hid))
    cases h with
    | matched current found matching same prices products =>
        rw [products]
        exact mem_updated_of_ne (hother current found)
    | reminted current found matching prices products =>
        rw [products]
        exact mem_updated_of_ne (hother current found)
    | created productId found prices products =>
        refine ⟨fun hmem => ?_, fun hmem => ?_⟩
        · obtain ⟨q₀, hq₀, hid₀⟩ := c.complete p hp
          have hstored : q₀ ∈ c'.products.rows := by
            rw [products]
            exact List.mem_append_left _ hq₀
          rw [StripeCatalog.product_unique hmem hstored (hq.trans hid₀.symm)]
          exact hq₀
        · rw [products]
          exact List.mem_append_left _ hmem

end Turn

/-! ## What a turn leaves under its own key -/

/-- A price under the key that is minted anew has a product of the right name. -/
def StripeCatalog.Named (c : StripeCatalog) (terms : PriceTerms) (amount : Int) : Prop :=
  ∀ p ∈ c.prices.rows, p.Holds terms.lookupKey → ¬ p.Priced terms amount →
    ∀ q ∈ c.products.rows, q.id = p.product → q.name = terms.productName

/-- The price under the key has the terms and the stamp; of its product only the name can
differ, when it did before. -/
def StripeCatalog.InSync (c : StripeCatalog) (terms : PriceTerms) (amount : Int) (named : Prop)
    (stamp : Option String) : Prop :=
  ∃ p ∈ c.prices.rows, p.Holds terms.lookupKey ∧ p.Priced terms amount ∧ stamp = some p.id ∧
    ∀ q ∈ c.products.rows, q.id = p.product →
      Described terms q ∧ (q.name = terms.productName ↔ named)

section Renewed

variable {existing : List (String × ListedPrice)} {terms : PriceTerms} {amount : Int}
  {c c' : StripeCatalog} {priceId : String}

theorem StripeCatalog.Keeps.named_iff (h : c.Keeps terms.lookupKey c') :
    c'.Named terms amount ↔ c.Named terms amount := by
  constructor
  · intro hnamed p hp hholds hpriced q hq hid
    exact hnamed p ((h.prices p hholds).mpr hp) hholds hpriced q
      ((h.products p hp hholds q hid).mpr hq) hid
  · intro hnamed p hp' hholds hpriced q hq hid
    have hp := (h.prices p hholds).mp hp'
    exact hnamed p hp hholds hpriced q ((h.products p hp hholds q hid).mp hq) hid

theorem StripeCatalog.Keeps.inSync {named : Prop} {stamp : Option String}
    (h : c.Keeps terms.lookupKey c') (hsync : c.InSync terms amount named stamp) :
    c'.InSync terms amount named stamp := by
  obtain ⟨p, hp, hholds, hpriced, hstamp, hproduct⟩ := hsync
  refine ⟨p, (h.prices p hholds).mpr hp, hholds, hpriced, hstamp, fun q hq hid => ?_⟩
  exact hproduct q ((h.products p hp hholds q hid).mp hq) hid

/-- The product of the listed price is the one that is updated. -/
theorem mem_updated {rows : List StripeProduct} {q q₀ : StripeProduct} {params : ProductParams}
    (hsame : ∀ q₁ ∈ rows, q₁.id = q₀.id → q₁ = q₀) (hid : q.id = q₀.id)
    (hq : q ∈ rows.map (·.update q₀.id params)) : q = q₀.update q₀.id params := by
  obtain ⟨q₁, hq₁, rfl⟩ := List.mem_map.mp hq
  rw [StripeProduct.update_id] at hid
  rw [hsame q₁ hq₁ hid]

theorem Minting.renewed (hfinds : c.Finds existing terms.lookupKey)
    (hcurrent : ∀ l, existing.lookup terms.lookupKey = some l → l.product ∈ c.products.rows)
    (hnodup : (terms.productMetadata.map Prod.fst).Nodup)
    (h : Minting existing terms amount c c' priceId) :
    c'.InSync terms amount (c.Named terms amount) (some priceId) := by
  obtain ⟨p', hp', hid', hholds', hpriced', -⟩ := (h.minted hfinds).minted
  refine ⟨p', hp', hholds', hpriced', congrArg some hid'.symm, fun q hq hproduct => ?_⟩
  cases h with
  | matched current found matching same prices products =>
      obtain ⟨p, hp, q₀, hholds, hid, rfl⟩ := hfinds.sound current found
      have hq₀ : q₀ ∈ c.products.rows := hcurrent _ found
      rw [prices] at hp'
      obtain rfl := StripeCatalog.holder_unique hp hp' hholds hholds'
      rw [products] at hq
      have hsame : ∀ q₁ ∈ c.products.rows, q₁.id = q₀.id → q₁ = q₀ :=
        fun q₁ hq₁ => StripeCatalog.product_unique hq₁ hq₀
      obtain rfl := mem_updated hsame (hproduct.trans hid.symm) hq
      refine ⟨described_update hnodup (Or.inl rfl), iff_of_true name_update_loaded ?_⟩
      intro p₁ hp₁ hholds₁ hpriced₁
      rw [StripeCatalog.holder_unique hp₁ hp hholds₁ hholds] at hpriced₁
      exact absurd hpriced' hpriced₁
  | reminted current found matching prices products =>
      obtain ⟨p, hp, q₀, hholds, hid, rfl⟩ := hfinds.sound current found
      have hq₀ : q₀ ∈ c.products.rows := hcurrent _ found
      have hnew : StripePrice.ofParams priceId (terms.params amount q₀.id) ∈ c'.prices.rows := by
        rw [prices]
        exact List.mem_append_right _ List.mem_cons_self
      obtain rfl := StripeCatalog.holder_unique hnew hp' rfl hholds'
      rw [products] at hq
      have hsame : ∀ q₁ ∈ c.products.rows, q₁.id = q₀.id → q₁ = q₀ :=
        fun q₁ hq₁ => StripeCatalog.product_unique hq₁ hq₀
      obtain rfl := mem_updated hsame hproduct hq
      refine ⟨described_update hnodup (Or.inr rfl), ?_⟩
      have hunpriced : ¬ p.Priced terms amount := by
        rw [← StripePrice.priceMatches_listed q₀, matching]
        exact Bool.false_ne_true
      rw [show (p.listed q₀).product = q₀ from rfl, name_update_id]
      constructor
      · intro hname p₁ hp₁ hholds₁ _ q₁ hq₁ hid₁
        rw [StripeCatalog.holder_unique hp₁ hp hholds₁ hholds, ← hid] at hid₁
        rw [hsame q₁ hq₁ hid₁]
        exact hname
      · exact fun hnamed => hnamed p hp hholds hunpriced q₀ hq₀ hid
  | created productId found prices products =>
      have hnew : StripePrice.ofParams priceId (terms.params amount productId) ∈ c'.prices.rows := by
        rw [prices]
        exact List.mem_append_right _ List.mem_cons_self
      obtain rfl := StripeCatalog.holder_unique hnew hp' rfl hholds'
      have hcreated : StripeProduct.ofParams productId terms.productParams ∈ c'.products.rows := by
        rw [products]
        exact List.mem_append_right _ List.mem_cons_self
      obtain rfl := StripeCatalog.product_unique hcreated hq hproduct.symm
      refine ⟨described_ofParams hnodup productId, iff_of_true rfl ?_⟩
      exact fun p hp hholds => absurd hholds (hfinds.complete found p hp)

end Renewed

/-! ## A run -/

/-- Every row that has a price has an amount in every currency. -/
def LocalizedPresent (rt : CatalogRuntime σ) (db : Db) : Prop :=
  ∀ pair ∈ catalogPairs rt.currencies db.items, (db.priceOf pair.2).isSome →
    (db.itemAmount pair.2 pair.1).isSome

/-- Between two turns, from an account `c` and a database `db`. -/
structure Progress (rt : CatalogRuntime σ) (view : σ → StripeCatalog)
    (existing : List (String × ListedPrice)) (c : StripeCatalog) (db : Db)
    (done rest : List (String × CatalogItem)) (w : World σ) : Prop where
  plans : w.db.plans = db.plans
  products : w.db.products = db.products
  amounts : ∀ item currency, w.db.itemAmount item currency = db.itemAmount item currency
  separate : (view w.stripe).Separate
  reserves : (view w.stripe).Reserves existing
  pending : ∀ pair ∈ rest, c.Keeps (pairKey rt pair) (view w.stripe)
  inSync : ∀ pair ∈ done, ∀ amount, db.itemAmount pair.2 pair.1 = some amount →
    (view w.stripe).InSync (pair.2.terms rt.strLower pair.1) amount
      (c.Named (pair.2.terms rt.strLower pair.1) amount) (w.db.itemStamp pair.2 pair.1)

section Run

variable {rt : CatalogRuntime σ} {view : σ → StripeCatalog}
  {existing : List (String × ListedPrice)} {c : StripeCatalog} {db : Db} {w w' : World σ}

theorem Progress.isSome_priceOf {done rest : List (String × CatalogItem)}
    (h : Progress rt view existing c db done rest w) (item : CatalogItem) :
    (w.db.priceOf item).isSome = (db.priceOf item).isSome := by
  have hamount := h.amounts item "usd"
  rw [Db.itemAmount_usd, Db.itemAmount_usd] at hamount
  rw [← Option.isSome_map, hamount, Option.isSome_map]

/-- One turn. -/
theorem Progress.turn (hserves : ServesCatalog rt.stripe view)
    (hkeys : (collectLookupKeys rt db).Nodup) (hlocalized : LocalizedPresent rt db)
    (hfetched : c.Fetched existing (collectLookupKeys rt db))
    {done rest : List (String × CatalogItem)} {pair : String × CatalogItem}
    (hsplit : done ++ pair :: rest = catalogPairs rt.currencies db.items)
    (h : Progress rt view existing c db done (pair :: rest) w)
    (hturn : SyncedPair rt existing pair w w') :
    Progress rt view existing c db (done ++ [pair]) rest w' := by
  obtain ⟨currency, item⟩ := pair
  obtain ⟨hbefore, hafter⟩ := pairKey_apart hkeys hsplit
  have hpairs : ∀ other ∈ done ++ (currency, item) :: rest, other.2.Listed w.db := by
    intro other hother
    rw [hsplit] at hother
    exact (CatalogItem.listed_congr h.plans h.products).mpr
      (Db.mem_items.mp (mem_catalogPairs.mp hother).2)
  have hmem : (currency, item) ∈ catalogPairs rt.currencies db.items := by
    rw [← hsplit]
    exact List.mem_append_right _ List.mem_cons_self
  have hitem : item.Listed w.db :=
    hpairs _ (List.mem_append_right _ List.mem_cons_self)
  unfold SyncedPair syncRead at hturn
  cases hprice : w.db.priceOf item with
  | none =>
      -- the row is skipped
      rw [hprice] at hturn
      cases hturn
      refine ⟨h.plans, h.products, h.amounts, h.separate, h.reserves, fun other hother =>
        h.pending other (List.mem_cons_of_mem _ hother), fun other hother amount hamount => ?_⟩
      rcases List.mem_append.mp hother with hdone | hsame
      · exact h.inSync other hdone amount hamount
      · rw [List.mem_singleton] at hsame
        subst hsame
        rw [← h.amounts, Db.itemAmount, hprice] at hamount
        cases hamount
  | some price =>
      rw [hprice] at hturn
      have hpresent : (w.db.itemAmount item currency).isSome := by
        rw [h.amounts]
        refine hlocalized _ hmem ?_
        rw [← h.isSome_priceOf, hprice]
        rfl
      obtain ⟨t, hbootstraps, hcases⟩ := syncPrice_eq_ok hserves hitem hprice hturn
      rw [CatalogItem.currency_terms] at hbootstraps hcases
      have hamountIn : w.db.amountIn price currency = w.db.itemAmount item currency := by
        rw [Db.itemAmount, hprice]
        rfl
      obtain ⟨amount₀, hamount₀⟩ := Option.isSome_iff_exists.mp hpresent
      have hsame : t = w := by
        unfold Bootstraps at hbootstraps
        rw [hamountIn, hamount₀] at hbootstraps
        exact hbootstraps
      subst hsame
      obtain ⟨amount, priceId, hamount, hminting, hstamped⟩ :
          ∃ amount priceId, t.db.amountIn price currency = some amount ∧
            Minting existing (item.terms rt.strLower currency) amount (view t.stripe)
              (view w'.stripe) priceId ∧ Stamped item currency priceId t.db w'.db := by
        rcases hcases with ⟨hnone, -⟩ | hminted
        · rw [← hamountIn, hnone] at hpresent
          cases hpresent
        · exact hminted
      -- the listing still shows what is under the key
      have hkept := h.pending _ List.mem_cons_self
      have hkey : (item.terms rt.strLower currency).lookupKey = pairKey rt (currency, item) :=
        item.lookupKey_terms
      have hfinds₀ : c.Finds existing (pairKey rt (currency, item)) :=
        hfetched.finds (pairKey_mem hmem) item.lookupKey_ne
      have hfinds : (view t.stripe).Finds existing (item.terms rt.strLower currency).lookupKey := by
        rw [hkey]
        exact hfinds₀.of_same hkept.prices
      have hcurrent : ∀ l, existing.lookup (item.terms rt.strLower currency).lookupKey = some l →
          l.product ∈ (view t.stripe).products.rows := by
        intro l hl
        rw [hkey] at hl
        obtain ⟨p, hp, q, hq, hholds, hid, rfl⟩ := hfetched.entries _ l hl
        exact (hkept.products p hp hholds q hid).mpr hq
      have hkeeps : ∀ other ∈ done ++ rest, (view t.stripe).Keeps (pairKey rt other)
          (view w'.stripe) := by
        intro other hother
        refine hminting.keeps h.reserves hfinds ?_
        rw [hkey]
        rcases List.mem_append.mp hother with hdone | hrest
        · exact hbefore other hdone
        · exact hafter other hrest
      refine ⟨hstamped.plans.trans h.plans, hstamped.products.trans h.products, ?_,
        hminting.separate h.separate h.reserves, hminting.reserves h.reserves, ?_, ?_⟩
      · exact fun item' c' => (hstamped.amounts item' c').trans (h.amounts item' c')
      · intro other hother
        exact (h.pending other (List.mem_cons_of_mem _ hother)).trans
          (hkeeps other (List.mem_append_right _ hother))
      · intro other hother amount' hamount'
        rcases List.mem_append.mp hother with hdone | hsame
        · have hne : (other.2, other.1) ≠ (item, currency) := by
            intro hsame
            refine hbefore other hdone ?_
            obtain ⟨hitem', hcurrency⟩ := Prod.ext_iff.mp hsame
            exact congrArg (pairKey rt) (Prod.ext hcurrency hitem')
          have hlisted := hpairs other (List.mem_append_left _ hdone)
          rw [hstamped.others _ _ hlisted hne]
          have hother' := hkeeps other (List.mem_append_left _ hdone)
          unfold pairKey at hother'
          rw [← CatalogItem.lookupKey_terms] at hother'
          exact hother'.inSync (h.inSync other hdone amount' hamount')
        · rw [List.mem_singleton] at hsame
          subst hsame
          obtain rfl : amount' = amount := by
            rw [← h.amounts, ← hamountIn, hamount] at hamount'
            exact (Option.some.inj hamount').symm
          have hnamed : (view t.stripe).Named (item.terms rt.strLower currency) amount' ↔
              c.Named (item.terms rt.strLower currency) amount' := by
            rw [← hkey] at hkept
            exact hkept.named_iff
          rw [hstamped.stamp hpresent, ← propext hnamed]
          exact hminting.renewed hfinds hcurrent item.nodup_productMetadata

/-- After a run, every pair is in sync. -/
theorem inSync_of_run (hserves : ServesCatalog rt.stripe view) (hkey : rt.apiKey ≠ "")
    (hkeys : (collectLookupKeys rt w.db).Nodup) (hlocalized : LocalizedPresent rt w.db)
    (hseparate : (view w.stripe).Separate)
    (h : Fallible.exec (syncStripeCatalog rt) w = (.ok (), w')) :
    ∃ existing, Progress rt view existing (view w.stripe) w.db
      (catalogPairs rt.currencies w.db.items) [] w' := by
  obtain ⟨existing, t, hdb, hview, hfetched, hrelay⟩ := syncStripeCatalog_eq_ok hserves hkey h
  refine ⟨existing, hrelay.progress ?_ fun done pair rest a b hsplit hprogress hturn =>
    hprogress.turn hserves hkeys hlocalized hfetched hsplit hturn⟩
  refine ⟨by rw [hdb], by rw [hdb], fun item c => by rw [hdb], ?_, ?_, fun pair _ => ?_, nofun⟩
  · rw [hview]
    exact hseparate
  · rw [hview]
    exact hfetched.reserves hseparate
  · rw [hview]
    exact .refl _ _

end Run

end Saasmint
