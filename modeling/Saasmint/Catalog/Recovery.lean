import Saasmint.Catalog.Localizing
import Saasmint.Catalog.SampleAccount

/-!
# A run after a crash

A run can be stopped between any two of its calls and statements, and the rows can be
edited before the next run.  Does that run leave every row with a Stripe price that is
active and has the terms of the row?

The price it leaves under a key is the one it found there or one that it mints.  What
it found may have been archived by a run that was stopped before it minted the next
one: the comparison of the terms does not look at that.  And a row that has no amount
yet has all prices localized, so that the rows of turns before may end with other
amounts than the prices that were minted for them.  `sync_recovers_iff` says that
nothing else can go wrong.
-/

namespace Saasmint

open Atomic Handler Relational

variable {σ : Type}

/-! ## The amounts of a run -/

/-- A row that has a price but no amount in the currency. -/
def misses (amounts : CatalogItem → String → Option Int) (pair : String × CatalogItem) : Bool :=
  (amounts pair.2 "usd").isSome && (amounts pair.2 pair.1).isNone

/-- The amounts after these turns: the prices are localized when one of them has none. -/
def amountsAfter (feed : Option (Int → String → Option Int))
    (amounts : CatalogItem → String → Option Int) (turns : List (String × CatalogItem)) :
    CatalogItem → String → Option Int :=
  if turns.any (misses amounts) then localizedAmounts feed amounts else amounts

section Amounts

variable {feed : Option (Int → String → Option Int)} {amounts : CatalogItem → String → Option Int}
  {turns : List (String × CatalogItem)} {pair : String × CatalogItem}

@[simp] theorem amountsAfter_nil : amountsAfter feed amounts [] = amounts := rfl

@[simp] theorem amountsAfter_usd (item : CatalogItem) :
    amountsAfter feed amounts turns item "usd" = amounts item "usd" := by
  unfold amountsAfter
  split <;> rfl

/-- A turn that finds an amount localizes nothing. -/
theorem amountsAfter_of_some {amount : Int}
    (h : amountsAfter feed amounts turns pair.2 pair.1 = some amount) :
    amountsAfter feed amounts (turns ++ [pair]) = amountsAfter feed amounts turns := by
  unfold amountsAfter at h ⊢
  rw [List.any_append, List.any_cons, List.any_nil, Bool.or_false]
  by_cases hany : turns.any (misses amounts) = true
  · rw [hany, Bool.true_or]
  · rw [if_neg hany] at h
    have hfound : misses amounts pair = false := by
      simp [misses, h]
    rw [hfound, Bool.or_false]

variable (feed turns) in
/-- A turn of a row without a price localizes nothing. -/
theorem amountsAfter_of_unpriced (h : amounts pair.2 "usd" = none) :
    amountsAfter feed amounts (turns ++ [pair]) = amountsAfter feed amounts turns := by
  have hunpriced : misses amounts pair = false := by
    simp [misses, h]
  unfold amountsAfter
  rw [List.any_append, List.any_cons, List.any_nil, hunpriced, Bool.or_false, Bool.or_false]

/-- A turn that finds no amount localizes. -/
theorem amountsAfter_of_none (husd : (amounts pair.2 "usd").isSome)
    (h : amountsAfter feed amounts turns pair.2 pair.1 = none) :
    amountsAfter feed amounts (turns ++ [pair]) =
      localizedAmounts feed (amountsAfter feed amounts turns) := by
  unfold amountsAfter at h ⊢
  rw [List.any_append, List.any_cons, List.any_nil, Bool.or_false]
  by_cases hany : turns.any (misses amounts) = true
  · rw [hany, Bool.true_or, if_pos rfl, localizedAmounts_idem]
  · rw [if_neg hany] at h ⊢
    have hmissing : misses amounts pair = true := by
      simp [misses, husd, h]
    rw [hmissing, Bool.or_true, if_pos rfl]

variable (feed amounts turns pair) in
/-- Whether a row has an amount is known after its turn. -/
theorem isSome_amountsAfter (after : List (String × CatalogItem)) :
    (amountsAfter feed amounts (turns ++ pair :: after) pair.2 pair.1).isSome =
      (amountsAfter feed amounts (turns ++ [pair]) pair.2 pair.1).isSome := by
  unfold amountsAfter
  simp only [List.any_append, List.any_cons, List.any_nil, Bool.or_false]
  cases hany : turns.any (misses amounts) with
  | true => simp only [Bool.true_or]
  | false =>
      cases hpair : misses amounts pair with
      | true => simp only [Bool.true_or, Bool.or_true]
      | false =>
          -- the row has an amount, or no price at all
          simp only [Bool.false_or, Bool.false_eq_true, if_false]
          split
          · unfold localizedAmounts
            split
            · rfl
            · rw [misses, Bool.and_eq_false_iff] at hpair
              rcases hpair with hunpriced | hamount
              · rw [Option.isSome_eq_false_iff, Option.isNone_iff_eq_none] at hunpriced
                rw [hunpriced]
                cases feed <;> simp
              · rw [Option.isNone_eq_false_iff] at hamount
                rw [Option.isSome_or, hamount, Bool.or_true]
          · rfl

end Amounts

/-! ## What a run leaves -/

/-- Every row that has an amount is stamped with an active price of its terms. -/
def Recovered (rt : CatalogRuntime σ) (c : StripeCatalog) (db : Db) : Prop :=
  ∀ pair ∈ catalogPairs rt.currencies db.items, ∀ amount,
    db.itemAmount pair.2 pair.1 = some amount →
      ∃ p ∈ c.prices.rows, db.itemStamp pair.2 pair.1 = some p.id ∧ p.active = true ∧
        p.Priced (pair.2.terms rt.strLower pair.1) amount ∧ p.Holds (pairKey rt pair)

/-- No row has its amount changed after its turn. -/
def AmountsSettled (rt : CatalogRuntime σ) (feed : Option (Int → String → Option Int)) (db : Db) :
    Prop :=
  ∀ before pair after, before ++ pair :: after = catalogPairs rt.currencies db.items →
    amountsAfter feed db.itemAmount (before ++ [pair]) pair.2 pair.1 =
      amountsAfter feed db.itemAmount (catalogPairs rt.currencies db.items) pair.2 pair.1

/-- No archived price under a key has the amount the row ends with. -/
def NoneArchived (rt : CatalogRuntime σ) (feed : Option (Int → String → Option Int))
    (c : StripeCatalog) (db : Db) : Prop :=
  ∀ pair ∈ catalogPairs rt.currencies db.items, ∀ amount,
    amountsAfter feed db.itemAmount (catalogPairs rt.currencies db.items) pair.2 pair.1 =
      some amount →
    ∀ p ∈ c.prices.rows, p.Holds (pairKey rt pair) →
      p.Priced (pair.2.terms rt.strLower pair.1) amount → p.active = true

/-- A row with its price: the one found under the key when it had the terms. -/
structure Stocked (rt : CatalogRuntime σ) (c c' : StripeCatalog) (pair : String × CatalogItem)
    (amount : Int) (stamp : Option String) : Prop where
  price : ∃ p ∈ c'.prices.rows, p.Holds (pairKey rt pair) ∧
    p.Priced (pair.2.terms rt.strLower pair.1) amount ∧ stamp = some p.id ∧
      (p.active = true ∨ p ∈ c.prices.rows)
  kept : ∀ p ∈ c.prices.rows, p.Holds (pairKey rt pair) →
    p.Priced (pair.2.terms rt.strLower pair.1) amount → p ∈ c'.prices.rows

/-- Between two turns, from an account `c` and a database `db`. -/
structure Recovering (rt : CatalogRuntime σ) (view : σ → StripeCatalog)
    (feed : Option (Int → String → Option Int)) (c : StripeCatalog) (db : Db)
    (done rest : List (String × CatalogItem)) (w : World σ) : Prop where
  plans : w.db.plans = db.plans
  products : w.db.products = db.products
  amounts : w.db.itemAmount = amountsAfter feed db.itemAmount done
  pending : ∀ pair ∈ rest, ∀ p : StripePrice, p.Holds (pairKey rt pair) →
    (p ∈ (view w.stripe).prices.rows ↔ p ∈ c.prices.rows)
  stocked : ∀ before pair after, before ++ pair :: after = done → ∀ amount,
    amountsAfter feed db.itemAmount (before ++ [pair]) pair.2 pair.1 = some amount →
      Stocked rt c (view w.stripe) pair amount (w.db.itemStamp pair.2 pair.1)

section Turn

variable {rt : CatalogRuntime σ} {view : σ → StripeCatalog}
  {feed : Option (Int → String → Option Int)} {existing : List (String × ListedPrice)}
  {c c' c'' : StripeCatalog} {db : Db} {w w' : World σ} {done rest : List (String × CatalogItem)}
  {pair : String × CatalogItem} {price : CatalogPrice} {amount : Int} {priceId : String}

theorem Stocked.of_same {stamp : Option String} (h : Stocked rt c c' pair amount stamp)
    (hsame : ∀ p : StripePrice, p.Holds (pairKey rt pair) →
      (p ∈ c''.prices.rows ↔ p ∈ c'.prices.rows)) : Stocked rt c c'' pair amount stamp where
  price := by
    obtain ⟨p, hp, hholds, hrest⟩ := h.price
    exact ⟨p, (hsame p hholds).mpr hp, hholds, hrest⟩
  kept p hp hholds hpriced := (hsame p hholds).mpr (h.kept p hp hholds hpriced)

theorem Minting.stocked (hfinds : c'.Finds existing (pairKey rt pair))
    (hsame : ∀ p : StripePrice, p.Holds (pairKey rt pair) →
      (p ∈ c'.prices.rows ↔ p ∈ c.prices.rows))
    (h : Minting existing (pair.2.terms rt.strLower pair.1) amount c' c'' priceId) :
    Stocked rt c c'' pair amount (some priceId) := by
  have hkey : (pair.2.terms rt.strLower pair.1).lookupKey = pairKey rt pair :=
    pair.2.lookupKey_terms
  have hminted := h.minted (hkey ▸ hfinds)
  rw [← hkey] at hsame
  constructor
  · obtain ⟨p, hp, hid, hholds, hpriced, horigin⟩ := hminted.minted
    rw [← hkey]
    exact ⟨p, hp, hholds, hpriced, congrArg some hid.symm, horigin.imp_right (hsame p hholds).mp⟩
  · intro p hp hholds hpriced
    rw [← hkey] at hholds
    exact hminted.kept p ((hsame p hholds).mpr hp) hholds hpriced

/-- When a row misses its amount, the feed gives the same rates all along. -/
def SteadyFeed (rt : CatalogRuntime σ) (feed : Option (Int → String → Option Int)) (db : Db) :
    Prop :=
  (catalogPairs rt.currencies db.items).any (misses db.itemAmount) = true →
    ∀ s, rt.rates s = feed

/-- A turn first sees to the amounts. -/
theorem Bootstraps.amounts (hfeed : SteadyFeed rt feed db)
    (hsplit : done ++ pair :: rest = catalogPairs rt.currencies db.items)
    (hamounts : w.db.itemAmount = amountsAfter feed db.itemAmount done)
    (hprice : w.db.priceOf pair.2 = some price) (h : Bootstraps rt price pair.1 w w') :
    w'.db.itemAmount = amountsAfter feed db.itemAmount (done ++ [pair]) ∧
      w'.db.itemStamp = w.db.itemStamp := by
  have hfound : w.db.amountIn price pair.1 = amountsAfter feed db.itemAmount done pair.2 pair.1 := by
    rw [← hamounts, Db.itemAmount, hprice]
    rfl
  unfold Bootstraps at h
  rw [hfound] at h
  cases hamount : amountsAfter feed db.itemAmount done pair.2 pair.1 with
  | some amount =>
      rw [hamount] at h
      subst h
      exact ⟨hamounts.trans (amountsAfter_of_some hamount).symm, rfl⟩
  | none =>
      rw [hamount] at h
      have husd : (db.itemAmount pair.2 "usd").isSome := by
        have hsame : w.db.itemAmount pair.2 "usd" = db.itemAmount pair.2 "usd" := by
          rw [hamounts, amountsAfter_usd]
        rw [← hsame, Db.itemAmount_usd, hprice]
        rfl
      have hmissing : (catalogPairs rt.currencies db.items).any (misses db.itemAmount) = true := by
        rw [← hsplit, List.any_append, List.any_cons]
        unfold amountsAfter at hamount
        by_cases hany : done.any (misses db.itemAmount) = true
        · rw [hany, Bool.true_or]
        · rw [if_neg hany] at hamount
          simp [misses, husd, hamount]
      rw [itemAmount_localized h, hfeed hmissing, hamounts, amountsAfter_of_none husd hamount]
      exact ⟨rfl, itemStamp_localized h⟩

theorem split_concat {α : Type} {before after done : List α} {x y : α}
    (h : before ++ x :: after = done ++ [y]) :
    (before = done ∧ x = y ∧ after = []) ∨ ∃ after', before ++ x :: after' = done := by
  rcases List.eq_nil_or_concat after with rfl | ⟨after', z, rfl⟩
  · obtain ⟨hdone, hlast⟩ := List.append_inj' h rfl
    exact Or.inl ⟨hdone, (List.cons.inj hlast).1, rfl⟩
  · rw [List.concat_eq_append, ← List.cons_append, ← List.append_assoc] at h
    exact Or.inr ⟨after', (List.append_inj' h rfl).1⟩

/-- One turn. -/
theorem Recovering.turn (hserves : ServesCatalog rt.stripe view) (hfeed : SteadyFeed rt feed db)
    (hkeys : (collectLookupKeys rt db).Nodup)
    (hfetched : c.Fetched existing (collectLookupKeys rt db))
    (hsplit : done ++ pair :: rest = catalogPairs rt.currencies db.items)
    (h : Recovering rt view feed c db done (pair :: rest) w)
    (hturn : SyncedPair rt existing pair w w') :
    Recovering rt view feed c db (done ++ [pair]) rest w' := by
  obtain ⟨hbefore, hafter⟩ := pairKey_apart hkeys hsplit
  have hlisted : ∀ other ∈ done ++ pair :: rest, other.2.Listed w.db := by
    intro other hother
    rw [hsplit] at hother
    exact (CatalogItem.listed_congr h.plans h.products).mpr
      (Db.mem_items.mp (mem_catalogPairs.mp hother).2)
  have hitem : pair.2.Listed w.db := hlisted _ (List.mem_append_right _ List.mem_cons_self)
  have hmem : pair ∈ catalogPairs rt.currencies db.items := by
    rw [← hsplit]
    exact List.mem_append_right _ List.mem_cons_self
  unfold SyncedPair syncRead at hturn
  cases hprice : w.db.priceOf pair.2 with
  | none =>
      -- the row is skipped
      rw [hprice] at hturn
      cases hturn
      have hunpriced : db.itemAmount pair.2 "usd" = none := by
        have hsame : w.db.itemAmount pair.2 "usd" = db.itemAmount pair.2 "usd" := by
          rw [h.amounts, amountsAfter_usd]
        rw [← hsame, Db.itemAmount_usd, hprice]
        rfl
      have hamounts := amountsAfter_of_unpriced feed done hunpriced
      refine ⟨h.plans, h.products, h.amounts.trans hamounts.symm,
        fun other hother => h.pending other (List.mem_cons_of_mem _ hother), ?_⟩
      intro before other after hturns amount hamount
      rcases split_concat hturns with ⟨rfl, rfl, rfl⟩ | ⟨after', hdone⟩
      · rw [hamounts, ← h.amounts, Db.itemAmount, hprice] at hamount
        cases hamount
      · exact h.stocked before other after' hdone amount hamount
  | some price =>
      rw [hprice] at hturn
      obtain ⟨t, hbootstraps, hcases⟩ := syncPrice_eq_ok hserves hitem hprice hturn
      rw [CatalogItem.currency_terms] at hbootstraps hcases
      obtain ⟨hstripe, hplans, hproducts, hprices⟩ := hbootstraps.frame
      obtain ⟨hamounts, hstamps⟩ := hbootstraps.amounts hfeed hsplit h.amounts hprice
      have hamountIn : t.db.amountIn price pair.1 = t.db.itemAmount pair.2 pair.1 := by
        rw [Db.itemAmount, hprices, hprice]
        rfl
      rw [hamountIn] at hcases
      rcases hcases with ⟨hnone, rfl⟩ | ⟨amount, priceId, hamount, hminting, hstamped⟩
      · -- the rates have no amount for the row
        refine ⟨hplans.trans h.plans, hproducts.trans h.products, hamounts, ?_, ?_⟩
        · rw [hstripe]
          exact fun other hother => h.pending other (List.mem_cons_of_mem _ hother)
        · intro before other after hturns amount hamount
          rcases split_concat hturns with ⟨rfl, rfl, rfl⟩ | ⟨after', hdone⟩
          · rw [← hamounts, hnone] at hamount
            cases hamount
          · rw [hstripe, hstamps]
            exact h.stocked before other after' hdone amount hamount
      · have hfinds : (view t.stripe).Finds existing (pairKey rt pair) := by
          rw [hstripe]
          exact (hfetched.finds (pairKey_mem hmem) pair.2.lookupKey_ne).of_same
            (h.pending _ List.mem_cons_self)
        have hkey : (pair.2.terms rt.strLower pair.1).lookupKey = pairKey rt pair :=
          pair.2.lookupKey_terms
        have hothers := (hminting.minted (hkey ▸ hfinds)).others
        rw [hkey, hstripe] at hothers
        refine ⟨hstamped.plans.trans (hplans.trans h.plans),
          hstamped.products.trans (hproducts.trans h.products), ?_, ?_, ?_⟩
        · rw [← hamounts]
          exact funext fun item' => funext fun c' => hstamped.amounts item' c'
        · intro other hother p hholds
          exact (hothers p _ hholds (hafter other hother)).trans
            (h.pending other (List.mem_cons_of_mem _ hother) p hholds)
        · intro before other after hturns amount' hamount'
          rcases split_concat hturns with ⟨rfl, rfl, rfl⟩ | ⟨after', hdone⟩
          · rw [← hamounts] at hamount'
            obtain rfl := Option.some.inj (hamount.symm.trans hamount')
            have hpresent : (t.db.itemAmount other.2 other.1).isSome := by
              rw [hamount]
              rfl
            rw [hstamped.stamp hpresent]
            refine hminting.stocked hfinds ?_
            rw [hstripe]
            exact h.pending _ List.mem_cons_self
          · have hother : other ∈ done := by
              rw [← hdone]
              exact List.mem_append_right _ List.mem_cons_self
            have hne : (other.2, other.1) ≠ (pair.2, pair.1) := by
              intro hsame
              obtain ⟨hitem', hcurrency⟩ := Prod.ext_iff.mp hsame
              exact hbefore other hother (congrArg (pairKey rt) (Prod.ext hcurrency hitem'))
            have hlisted' : other.2.Listed t.db := (CatalogItem.listed_congr hplans hproducts).mpr
              (hlisted other (List.mem_append_left _ hother))
            rw [hstamped.others _ _ hlisted' hne, hstamps]
            exact (h.stocked before other after' hdone amount' hamount').of_same
              fun p hholds => hothers p _ hholds (hbefore other hother)

/-- After a run, every row is stocked at the amount of its turn. -/
theorem recovering_of_run (hserves : ServesCatalog rt.stripe view)
    (hfeed : SteadyFeed rt feed w.db) (hkey : rt.apiKey ≠ "")
    (hkeys : (collectLookupKeys rt w.db).Nodup)
    (h : Fallible.exec (syncStripeCatalog rt) w = (.ok (), w')) :
    Recovering rt view feed (view w.stripe) w.db (catalogPairs rt.currencies w.db.items) [] w' := by
  obtain ⟨existing, t, hdb, hview, hfetched, hrelay⟩ := syncStripeCatalog_eq_ok hserves hkey h
  refine hrelay.progress ?_ fun done pair rest a b hsplit hrecovering hturn =>
    hrecovering.turn hserves hfeed hkeys hfetched hsplit hturn
  refine ⟨by rw [hdb], by rw [hdb], by rw [hdb, amountsAfter_nil], fun pair _ p _ => by rw [hview],
    ?_⟩
  intro before pair after hnil
  exact absurd hnil (List.append_ne_nil_of_right_ne_nil _ (List.cons_ne_nil _ _))

end Turn

/-! ## What can go wrong -/

/-- A run that completes leaves every row with an active price of its terms exactly if no
row's amount changes after its turn and no archived price has the terms of a row. -/
theorem sync_recovers_iff {rt : CatalogRuntime σ} {view : σ → StripeCatalog}
    {feed : Option (Int → String → Option Int)} {w w' : World σ}
    (hserves : ServesCatalog rt.stripe view) (hfeed : SteadyFeed rt feed w.db)
    (hkey : rt.apiKey ≠ "") (hkeys : (collectLookupKeys rt w.db).Nodup)
    (hrun : Fallible.exec (syncStripeCatalog rt) w = (.ok (), w')) :
    Recovered rt (view w'.stripe) w'.db ↔
      AmountsSettled rt feed w.db ∧ NoneArchived rt feed (view w.stripe) w.db := by
  have h := recovering_of_run hserves hfeed hkey hkeys hrun
  have hitems : w'.db.items = w.db.items := Db.items_congr h.plans h.products
  unfold Recovered
  rw [hitems, h.amounts]
  constructor
  · intro hrecovered
    have hsettled : AmountsSettled rt feed w.db := by
      intro before pair after hsplit
      have hpair : pair ∈ catalogPairs rt.currencies w.db.items := by
        rw [← hsplit]
        exact List.mem_append_right _ List.mem_cons_self
      have hpresent := isSome_amountsAfter feed w.db.itemAmount before pair after
      rw [hsplit] at hpresent
      cases hamount : amountsAfter feed w.db.itemAmount (before ++ [pair]) pair.2 pair.1 with
      | none =>
          rw [hamount, Option.isSome_none, Option.isSome_eq_false_iff,
            Option.isNone_iff_eq_none] at hpresent
          exact hpresent.symm
      | some amount =>
          rw [hamount, Option.isSome_some] at hpresent
          obtain ⟨amount', hamount'⟩ := Option.isSome_iff_exists.mp hpresent
          obtain ⟨p, hp, hholds, hpriced, -, -⟩ :=
            (h.stocked before pair after hsplit amount hamount).price
          obtain ⟨p', hp', -, -, hpriced', hholds'⟩ := hrecovered pair hpair amount' hamount'
          rw [StripeCatalog.holder_unique hp' hp hholds' hholds] at hpriced'
          rw [hamount', ← hpriced.1, ← hpriced'.1]
    refine ⟨hsettled, ?_⟩
    intro pair hpair amount hamount p hp hholds hpriced
    obtain ⟨before, after, hsplit⟩ := List.append_of_mem hpair
    have hturn := (hsettled before pair after hsplit.symm).trans hamount
    have hkept := (h.stocked before pair after hsplit.symm amount hturn).kept p hp hholds hpriced
    obtain ⟨p', hp', -, hactive, -, hholds'⟩ := hrecovered pair hpair amount hamount
    rw [StripeCatalog.holder_unique hkept hp' hholds hholds']
    exact hactive
  · rintro ⟨hsettled, harchived⟩ pair hpair amount hamount
    obtain ⟨before, after, hsplit⟩ := List.append_of_mem hpair
    have hturn := (hsettled before pair after hsplit.symm).trans hamount
    obtain ⟨p, hp, hholds, hpriced, hstamp, horigin⟩ :=
      (h.stocked before pair after hsplit.symm amount hturn).price
    refine ⟨p, hp, hstamp, ?_, hpriced, hholds⟩
    rcases horigin with hactive | hfound
    · exact hactive
    · exact harchived pair hpair amount hamount p hfound hholds hpriced

/-! ## Runs that are stopped -/

/-- The worlds that edits of the database and runs make, each run stopped after any
number of its actions. -/
inductive CatalogStopped (stripe : Stripe σ) (view : σ → StripeCatalog) : World σ → Prop
  | account {w : World σ} (unkeyed : ∀ p ∈ (view w.stripe).prices.rows, p.lookupKey = none) :
      CatalogStopped stripe view w
  | edited {w : World σ} (db : Db) (h : CatalogStopped stripe view w) :
      CatalogStopped stripe view { w with db := db }
  | stopped {rt : CatalogRuntime σ} {w : World σ} (hstripe : rt.stripe = stripe)
      (h : CatalogStopped stripe view w) (actions : ℕ) :
      CatalogStopped stripe view ((syncStripeCatalog rt).run.after actions w)

theorem sync_recovers_shop :
    Recovered shopRuntime (shopSynced shopWorld).stripe (shopSynced shopWorld).db := by
  have hfeed : SteadyFeed shopRuntime none shopWorld.db := fun _ _ => rfl
  refine (sync_recovers_iff serves_catalogStripe hfeed (by decide) (by decide +kernel)
    (Prod.ext (by decide +kernel) rfl)).mpr ⟨?_, ?_⟩
  · intro before pair after _
    simp only [amountsAfter, localizedAmounts_none, ite_self]
  · intro pair _ amount _ p hp
    cases hp

/-- A run that is stopped after this many actions. -/
def shopStopped (actions : ℕ) (w : World StripeCatalog) : World StripeCatalog :=
  (syncStripeCatalog shopRuntime).run.after actions w

theorem CatalogStopped.shop {w : World StripeCatalog} (h : CatalogStopped catalogStripe id w)
    (actions : ℕ) : CatalogStopped catalogStripe id (shopStopped actions w) := by
  have hstripe : shopRuntime.stripe = catalogStripe := rfl
  exact CatalogStopped.stopped hstripe h actions

/-- The first run is through; the second, at another amount, is stopped after it has
archived the price; then the amount is edited back. -/
def stoppedShop : World StripeCatalog :=
  let repriced := { shopStopped 9 shopWorld with db := shopDb "Basic" 1499 "price_0" }
  { shopStopped 4 repriced with db := shopDb "Basic" 999 "price_0" }

theorem stoppedShop_reached : CatalogStopped catalogStripe id stoppedShop := by
  have hstart : CatalogStopped catalogStripe id shopWorld :=
    .account fun p hp => absurd hp List.not_mem_nil
  have hrepriced := CatalogStopped.edited (shopDb "Basic" 1499 "price_0") (hstart.shop 9)
  exact .edited (shopDb "Basic" 999 "price_0") (hrepriced.shop 4)

/-- The archived price has the terms of the row again, and stays archived. -/
theorem not_sync_recovers : ¬ ∀ w w' : World StripeCatalog, CatalogStopped catalogStripe id w →
    (collectLookupKeys shopRuntime w.db).Nodup →
    Fallible.exec (syncStripeCatalog shopRuntime) w = (.ok (), w') →
      Recovered shopRuntime w'.stripe w'.db := by
  intro h
  have hrecovered := h stoppedShop (shopSynced stoppedShop) stoppedShop_reached
    (by decide +kernel) (Prod.ext (by decide +kernel) rfl)
  obtain ⟨p, hp, -, hactive, -⟩ := hrecovered ("usd", .plan { basicPlan with name := "Basic" })
    (by decide +kernel) 999 (by decide +kernel)
  have harchived : ∀ p ∈ (shopSynced stoppedShop).stripe.prices.rows, p.active = false := by
    decide +kernel
  rw [harchived p hp] at hactive
  cases hactive

end Saasmint
