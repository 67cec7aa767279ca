import Saasmint.Catalog.Prices
import Saasmint.Library.Seeding

/-!
# Seeding the catalog

The `seed_catalog` command: eight plans and three products, each found by its key or
created, and each with a price of the amount that is written in the command.  A price that
is there keeps its Stripe id; a plan or a product that is there keeps everything.

The keys of the specs differ, so a seed that completes leaves every spec with its row and
its amount, and is completed again by doing nothing (`seedCatalog_converges`).
-/

namespace Saasmint

open Relational

/-! ## The specs -/

def PlanTier.value : PlanTier → ℕ
  | .free => 1
  | .basic => 2
  | .pro => 3

structure PlanSpec where
  name : String
  description : String
  context : PlanContext
  tier : PlanTier
  interval : PlanInterval
  amount : Int
deriving DecidableEq, Repr

/-- `_YEARLY_DISCOUNT_MONTHS`. -/
def yearlyDiscountMonths : Int := 10

/-- `_YEARLY_DESCRIPTION_SUFFIX`. -/
def yearlyDescriptionSuffix : String := " Billed annually \u2014 two months free."

/-- `_MONTHLY_PLANS`. -/
def monthlyPlans : List PlanSpec :=
  [{ name := "Personal Basic"
     description := "For power users. Advanced analytics, priority email support, and API access."
     context := .personal
     tier := .basic
     interval := .month
     amount := 1999 },
    { name := "Personal Pro"
      description :=
        "Everything in Basic plus custom integrations, audit logs, and dedicated support."
      context := .personal
      tier := .pro
      interval := .month
      amount := 4999 },
    { name := "Team Basic"
      description := "For small teams. Per-seat pricing, shared dashboards, and team analytics."
      context := .team
      tier := .basic
      interval := .month
      amount := 1799 },
    { name := "Team Pro"
      description :=
        "For growing organizations. Per-seat pricing, SSO, audit logs, and dedicated support."
      context := .team
      tier := .pro
      interval := .month
      amount := 4599 }]

def PlanSpec.yearly (spec : PlanSpec) : PlanSpec where
  name := spec.name
  description := spec.description ++ yearlyDescriptionSuffix
  context := spec.context
  tier := spec.tier
  interval := .year
  amount := spec.amount * yearlyDiscountMonths

/-- `_build_plans`. -/
def buildPlans : List PlanSpec := monthlyPlans ++ monthlyPlans.map PlanSpec.yearly

structure BoostProduct where
  name : String
  credits : Int
  amount : Int
deriving DecidableEq, Repr

/-- `BOOST_PRODUCTS`. -/
def boostProducts : List BoostProduct :=
  [⟨"50 Credits", 50, 499⟩, ⟨"200 Credits", 200, 1499⟩, ⟨"500 Credits", 500, 2999⟩]

/-! ## The command -/

/-- The primary keys of the rows that are created. -/
structure SeedDraws where
  planId : PlanSpec → UUID
  planPriceId : PlanSpec → UUID
  productId : BoostProduct → UUID
  productPriceId : BoostProduct → UUID

namespace PlanSpec

/-- The lookup of `Plan.objects.get_or_create`. -/
def names (spec : PlanSpec) (plan : Plan) : Bool :=
  plan.context == spec.context && plan.tier == spec.tier && plan.interval == spec.interval

def placeholderPriceId (spec : PlanSpec) : String :=
  "price_placeholder_" ++ spec.context.value ++ "_" ++ toString spec.tier.value ++ "_" ++
    spec.interval.value

def plan (draws : SeedDraws) (spec : PlanSpec) : Plan where
  id := draws.planId spec
  name := spec.name
  description := spec.description
  context := spec.context
  tier := spec.tier
  interval := spec.interval
  isActive := true

def price (draws : SeedDraws) (spec : PlanSpec) (plan : Plan) : PlanPrice where
  id := draws.planPriceId spec
  planId := plan.id
  stripePriceId := spec.placeholderPriceId
  amount := spec.amount

end PlanSpec

namespace BoostProduct

def placeholderPriceId (spec : BoostProduct) : String :=
  "price_placeholder_boost_" ++ toString spec.credits

def product (draws : SeedDraws) (spec : BoostProduct) : Product where
  id := draws.productId spec
  name := spec.name
  credits := spec.credits
  isActive := true

def price (draws : SeedDraws) (spec : BoostProduct) (product : Product) : ProductPrice where
  id := draws.productPriceId spec
  productId := product.id
  stripePriceId := spec.placeholderPriceId
  amount := spec.amount

end BoostProduct

def planPricing : Parentage Plan PlanPrice UUID where
  belongs plan price := price.planId == plan.id
  key := PlanPrice.id
  clash_of_key _ _ h := Or.inl h
  clash_of_belongs _ _ _ h h' := Or.inl ((beq_iff_eq.mp h).symm.trans (beq_iff_eq.mp h'))

def productPricing : Parentage Product ProductPrice UUID where
  belongs product price := price.productId == product.id
  key := ProductPrice.id
  clash_of_key _ _ h := Or.inl h
  clash_of_belongs _ _ _ h h' := (beq_iff_eq.mp h).symm.trans (beq_iff_eq.mp h')

/-- One round of the loop of `_seed_plans`. -/
def planSeed (draws : SeedDraws) (spec : PlanSpec) : Seed planPricing where
  selects := spec.names
  row := spec.plan draws
  child := spec.price draws
  current price := price.amount == spec.amount
  renew price := { price with amount := spec.amount }
  selects_row := by simp [PlanSpec.names, PlanSpec.plan]
  belongs_child _ := beq_self_eq_true _
  current_child _ := beq_self_eq_true _
  current_renew _ := beq_self_eq_true _
  belongs_renew _ _ := rfl

/-- One round of the loop of `_seed_products`. -/
def productSeed (draws : SeedDraws) (spec : BoostProduct) : Seed productPricing where
  selects product := product.name == spec.name
  row := spec.product draws
  child := spec.price draws
  current price := price.amount == spec.amount
  renew price := { price with amount := spec.amount }
  selects_row := beq_self_eq_true _
  belongs_child _ := beq_self_eq_true _
  current_child _ := beq_self_eq_true _
  current_renew _ := beq_self_eq_true _
  belongs_renew _ _ := rfl

/-- The exceptions of the loops, over the rows of a model. -/
def raised {α : Type} (model : String) : Except SeedError α → Py α
  | .ok a => .ok a
  | .error (.ambiguous count) =>
      .error (.database ("get() returned more than one " ++ model ++ " -- it returned " ++
        (if count < 21 then toString count else "more than 20") ++ "!"))
  | .error .refused => .error (.integrity "duplicate key value violates unique constraint")

theorem raised_eq_ok {α : Type} {model : String} {result : Except SeedError α} {a : α} :
    raised model result = .ok a ↔ result = .ok a := by
  unfold raised
  split
  · exact ⟨fun h => congrArg _ (Except.ok.inj h), fun h => congrArg _ (Except.ok.inj h)⟩
  · exact iff_of_false nofun nofun
  · exact iff_of_false nofun nofun

/-- `seed_catalog`, in one transaction. -/
def seedCatalog (draws : SeedDraws) (db : Db) : Py Db := do
  let (plans, planPrices) ← raised "Plan"
    (plantAll (buildPlans.map (planSeed draws)) db.plans db.planPrices)
  let (products, productPrices) ← raised "Product"
    (plantAll (boostProducts.map (productSeed draws)) db.products db.productPrices)
  Db.commit { db.toTables with plans, planPrices, products, productPrices }

/-! ## What a seed leaves -/

/-- One plan has the key of the spec, and its price has the amount. -/
def PlanSpec.Seeded (spec : PlanSpec) (db : Db) : Prop :=
  ∃ plan, db.plans.filter spec.names = [plan] ∧
    ∃ price ∈ db.planPrices.rows, price.planId = plan.id ∧ price.amount = spec.amount

def BoostProduct.Seeded (spec : BoostProduct) (db : Db) : Prop :=
  ∃ product, db.products.filter (fun product => product.name == spec.name) = [product] ∧
    ∃ price ∈ db.productPrices.rows, price.productId = product.id ∧ price.amount = spec.amount

/-- What a seed does to the rows that are stored: plans and products stay as they are, and
prices keep everything but the amount, which is changed only for the plans and products of
a spec.  A price that is new has the placeholder of a spec. -/
structure SeedsOnly (db db' : Db) : Prop where
  plans : ∃ added, db'.plans.rows = db.plans.rows ++ added ∧
    ∀ plan ∈ added, ∃ spec ∈ buildPlans, spec.names plan = true ∧ plan.isActive = true
  products : ∃ added, db'.products.rows = db.products.rows ++ added ∧
    ∀ product ∈ added, ∃ spec ∈ boostProducts, product.name = spec.name ∧
      product.credits = spec.credits ∧ product.isActive = true
  planPrices : ∀ p ∈ db.planPrices.rows, ∃ p' ∈ db'.planPrices.rows,
    p' = { p with amount := p'.amount } ∧ (p' = p ∨ ∃ spec ∈ buildPlans,
      ∃ plan ∈ db'.plans.rows, spec.names plan = true ∧ p.planId = plan.id)
  productPrices : ∀ p ∈ db.productPrices.rows, ∃ p' ∈ db'.productPrices.rows,
    p' = { p with amount := p'.amount } ∧ (p' = p ∨ ∃ spec ∈ boostProducts,
      ∃ product ∈ db'.products.rows, product.name = spec.name ∧ p.productId = product.id)
  placeholders : (∀ p' ∈ db'.planPrices.rows, (∃ p ∈ db.planPrices.rows,
      p'.stripePriceId = p.stripePriceId) ∨
        ∃ spec ∈ buildPlans, p'.stripePriceId = spec.placeholderPriceId) ∧
    ∀ p' ∈ db'.productPrices.rows, (∃ p ∈ db.productPrices.rows,
      p'.stripePriceId = p.stripePriceId) ∨
        ∃ spec ∈ boostProducts, p'.stripePriceId = spec.placeholderPriceId
  others : db'.toTables = { db.toTables with
    plans := db'.plans
    planPrices := db'.planPrices
    products := db'.products
    productPrices := db'.productPrices }

section Converges

variable {draws draws' : SeedDraws} {db db' : Db}

theorem planSeed_planted {spec : PlanSpec} :
    (planSeed draws spec).Planted db.plans db.planPrices ↔ spec.Seeded db := by
  refine exists_congr fun plan => and_congr_right fun _ => ?_
  constructor
  · rintro ⟨price, hfound, hamount⟩
    obtain ⟨hprice, hplan⟩ := Table.mem_of_find? hfound
    exact ⟨price, hprice, beq_iff_eq.mp hplan, beq_iff_eq.mp hamount⟩
  · rintro ⟨price, hprice, hplan, hamount⟩
    refine ⟨price, db.planPrices.find?_eq_some hprice (beq_iff_eq.mpr hplan) ?_,
      beq_iff_eq.mpr hamount⟩
    intro other _ hother
    exact Or.inr (Or.inl (hplan.trans (beq_iff_eq.mp hother).symm))

theorem productSeed_planted {spec : BoostProduct} :
    (productSeed draws spec).Planted db.products db.productPrices ↔ spec.Seeded db := by
  refine exists_congr fun product => and_congr_right fun _ => ?_
  constructor
  · rintro ⟨price, hfound, hamount⟩
    obtain ⟨hprice, hproduct⟩ := Table.mem_of_find? hfound
    exact ⟨price, hprice, beq_iff_eq.mp hproduct, beq_iff_eq.mp hamount⟩
  · rintro ⟨price, hprice, hproduct, hamount⟩
    refine ⟨price, db.productPrices.find?_eq_some hprice (beq_iff_eq.mpr hproduct) ?_,
      beq_iff_eq.mpr hamount⟩
    intro other _ hother
    exact Or.inr (Or.inl (hproduct.trans (beq_iff_eq.mp hother).symm))

/-- The specs of plans have different keys, and so do those of products. -/
theorem planSeeds_apart : (buildPlans.map (planSeed draws)).Pairwise Seed.Apart := by
  have hkeys : buildPlans.Pairwise fun spec spec' =>
      (spec.context, spec.tier, spec.interval) ≠ (spec'.context, spec'.tier, spec'.interval) := by
    decide
  refine List.pairwise_map.mpr (hkeys.imp fun hne plan hnames => ?_)
  cases hnames' : (planSeed draws _).selects plan with
  | false => rfl
  | true =>
      simp only [planSeed, PlanSpec.names, Bool.and_eq_true, beq_iff_eq] at hnames hnames'
      obtain ⟨⟨hcontext, htier⟩, hinterval⟩ := hnames
      obtain ⟨⟨hcontext', htier'⟩, hinterval'⟩ := hnames'
      refine absurd ?_ hne
      rw [← hcontext, ← htier, ← hinterval, hcontext', htier', hinterval']

theorem productSeeds_apart : (boostProducts.map (productSeed draws)).Pairwise Seed.Apart := by
  have hkeys : boostProducts.Pairwise fun spec spec' => spec.name ≠ spec'.name := by decide
  refine List.pairwise_map.mpr (hkeys.imp fun hne product hnames => ?_)
  cases hnames' : (productSeed draws _).selects product with
  | false => rfl
  | true => exact absurd ((beq_iff_eq.mp hnames).symm.trans (beq_iff_eq.mp hnames')) hne

theorem seedCatalog_eq_ok (h : seedCatalog draws db = .ok db') :
    plantAll (buildPlans.map (planSeed draws)) db.plans db.planPrices =
        .ok (db'.plans, db'.planPrices) ∧
      plantAll (boostProducts.map (productSeed draws)) db.products db.productPrices =
        .ok (db'.products, db'.productPrices) ∧
      db'.toTables = { db.toTables with
        plans := db'.plans
        planPrices := db'.planPrices
        products := db'.products
        productPrices := db'.productPrices } := by
  unfold seedCatalog at h
  obtain ⟨⟨plans, planPrices⟩, hplans, h⟩ := bind_eq_ok.mp h
  obtain ⟨⟨products, productPrices⟩, hproducts, h⟩ := bind_eq_ok.mp h
  have htables := Db.commit_eq_ok.mp h
  rw [htables]
  exact ⟨raised_eq_ok.mp hplans, raised_eq_ok.mp hproducts, rfl⟩

/-- A seed of a catalog that is seeded does nothing. -/
theorem seedCatalog_seeded (hplans : ∀ spec ∈ buildPlans, spec.Seeded db)
    (hproducts : ∀ spec ∈ boostProducts, spec.Seeded db) : seedCatalog draws db = .ok db := by
  have hplanted : ∀ seed ∈ buildPlans.map (planSeed draws),
      seed.Planted db.plans db.planPrices := by
    intro seed hseed
    obtain ⟨spec, hspec, rfl⟩ := List.mem_map.mp hseed
    exact planSeed_planted.mpr (hplans spec hspec)
  have hplanted' : ∀ seed ∈ boostProducts.map (productSeed draws),
      seed.Planted db.products db.productPrices := by
    intro seed hseed
    obtain ⟨spec, hspec, rfl⟩ := List.mem_map.mp hseed
    exact productSeed_planted.mpr (hproducts spec hspec)
  unfold seedCatalog
  rw [plantAll_planted hplanted, plantAll_planted hplanted']
  exact Db.commit_eq_ok.mpr rfl

/-- The columns of a price that a seed keeps. -/
def keptOfPlan (price : PlanPrice) : UUID × UUID × String :=
  (price.id, price.planId, price.stripePriceId)

def keptOfProduct (price : ProductPrice) : UUID × UUID × String :=
  (price.id, price.productId, price.stripePriceId)

theorem planPrices_grown
    (h : Grown keptOfPlan (buildPlans.map (planSeed draws)) db.plans db'.plans db.planPrices
      db'.planPrices) {p : PlanPrice} (hp : p ∈ db.planPrices.rows) :
    ∃ p' ∈ db'.planPrices.rows, p' = { p with amount := p'.amount } ∧
      (p' = p ∨ ∃ spec ∈ buildPlans,
        ∃ plan ∈ db'.plans.rows, spec.names plan = true ∧ p.planId = plan.id) := by
  obtain ⟨p', hp', hkept, hcases⟩ := h.renewed hp
  obtain ⟨hid, hplanId, hstripeId⟩ : p'.id = p.id ∧ p'.planId = p.planId ∧
      p'.stripePriceId = p.stripePriceId := by simpa [keptOfPlan] using hkept
  refine ⟨p', hp', by rw [← hid, ← hplanId, ← hstripeId], hcases.imp_right ?_⟩
  rintro ⟨seed, hseed, plan, hplan, hselects, hbelongs⟩
  obtain ⟨spec, hspec, rfl⟩ := List.mem_map.mp hseed
  exact ⟨spec, hspec, plan, hplan, hselects, beq_iff_eq.mp hbelongs⟩

theorem productPrices_grown
    (h : Grown keptOfProduct (boostProducts.map (productSeed draws)) db.products db'.products
      db.productPrices db'.productPrices) {p : ProductPrice} (hp : p ∈ db.productPrices.rows) :
    ∃ p' ∈ db'.productPrices.rows, p' = { p with amount := p'.amount } ∧
      (p' = p ∨ ∃ spec ∈ boostProducts,
        ∃ product ∈ db'.products.rows, product.name = spec.name ∧ p.productId = product.id) := by
  obtain ⟨p', hp', hkept, hcases⟩ := h.renewed hp
  obtain ⟨hid, hproductId, hstripeId⟩ : p'.id = p.id ∧ p'.productId = p.productId ∧
      p'.stripePriceId = p.stripePriceId := by simpa [keptOfProduct] using hkept
  refine ⟨p', hp', by rw [← hid, ← hproductId, ← hstripeId], hcases.imp_right ?_⟩
  rintro ⟨seed, hseed, product, hproduct, hselects, hbelongs⟩
  obtain ⟨spec, hspec, rfl⟩ := List.mem_map.mp hseed
  exact ⟨spec, hspec, product, hproduct, beq_iff_eq.mp hselects, beq_iff_eq.mp hbelongs⟩

/-- Only the prices that are new have a placeholder that was not stored. -/
theorem placeholders_grown
    (h : Grown keptOfPlan (buildPlans.map (planSeed draws)) db.plans db'.plans db.planPrices
      db'.planPrices)
    (h' : Grown keptOfProduct (boostProducts.map (productSeed draws)) db.products db'.products
      db.productPrices db'.productPrices) :
    (∀ p' ∈ db'.planPrices.rows, (∃ p ∈ db.planPrices.rows,
      p'.stripePriceId = p.stripePriceId) ∨
        ∃ spec ∈ buildPlans, p'.stripePriceId = spec.placeholderPriceId) ∧
    ∀ p' ∈ db'.productPrices.rows, (∃ p ∈ db.productPrices.rows,
      p'.stripePriceId = p.stripePriceId) ∨
        ∃ spec ∈ boostProducts, p'.stripePriceId = spec.placeholderPriceId := by
  constructor
  · intro p' hp'
    rcases h.source hp' with ⟨p, hp, hkept⟩ | ⟨seed, hseed, plan, hkept⟩
    · exact Or.inl ⟨p, hp, congrArg (fun kept => kept.2.2) hkept⟩
    · obtain ⟨spec, hspec, rfl⟩ := List.mem_map.mp hseed
      exact Or.inr ⟨spec, hspec, congrArg (fun kept => kept.2.2) hkept⟩
  · intro p' hp'
    rcases h'.source hp' with ⟨p, hp, hkept⟩ | ⟨seed, hseed, product, hkept⟩
    · exact Or.inl ⟨p, hp, congrArg (fun kept => kept.2.2) hkept⟩
    · obtain ⟨spec, hspec, rfl⟩ := List.mem_map.mp hseed
      exact Or.inr ⟨spec, hspec, congrArg (fun kept => kept.2.2) hkept⟩

/-- **Seeding converges.**  Whatever the catalog was, a seed that completes leaves one plan
and one product for each spec, with the spec's amount; of what was stored it has changed
nothing but the amounts of these, so that no price loses the id it has at Stripe; and every
further seed changes nothing at all. -/
theorem seedCatalog_converges (h : seedCatalog draws db = .ok db') :
    (∀ spec ∈ buildPlans, spec.Seeded db') ∧ (∀ spec ∈ boostProducts, spec.Seeded db') ∧
      SeedsOnly db db' ∧ ∀ draws', seedCatalog draws' db' = .ok db' := by
  obtain ⟨hplans, hproducts, hothers⟩ := seedCatalog_eq_ok h
  obtain ⟨hplanted, hgrown⟩ := plantAll_eq_ok keptOfPlan
    (fun seed hseed price => by obtain ⟨spec, -, rfl⟩ := List.mem_map.mp hseed; rfl)
    planSeeds_apart hplans
  obtain ⟨hplanted', hgrown'⟩ := plantAll_eq_ok keptOfProduct
    (fun seed hseed price => by obtain ⟨spec, -, rfl⟩ := List.mem_map.mp hseed; rfl)
    productSeeds_apart hproducts
  have hseeded : ∀ spec ∈ buildPlans, spec.Seeded db' := fun spec hspec =>
    planSeed_planted.mp (hplanted _ (List.mem_map_of_mem hspec))
  have hseeded' : ∀ spec ∈ boostProducts, spec.Seeded db' := fun spec hspec =>
    productSeed_planted.mp (hplanted' _ (List.mem_map_of_mem hspec))
  obtain ⟨added, hrows, hadded⟩ := hgrown.parents
  obtain ⟨added', hrows', hadded'⟩ := hgrown'.parents
  refine ⟨hseeded, hseeded', ⟨⟨added, hrows, fun plan hplan => ?_⟩,
    ⟨added', hrows', fun product hproduct => ?_⟩, fun p hp => planPrices_grown hgrown hp,
    fun p hp => productPrices_grown hgrown' hp, placeholders_grown hgrown hgrown', hothers⟩,
    fun draws' => seedCatalog_seeded hseeded hseeded'⟩
  · obtain ⟨seed, hseed, rfl⟩ := hadded plan hplan
    obtain ⟨spec, hspec, rfl⟩ := List.mem_map.mp hseed
    exact ⟨spec, hspec, (planSeed draws spec).selects_row, rfl⟩
  · obtain ⟨seed, hseed, rfl⟩ := hadded' product hproduct
    obtain ⟨spec, hspec, rfl⟩ := List.mem_map.mp hseed
    exact ⟨spec, hspec, rfl, rfl, rfl⟩

end Converges

/-! ## A catalog that was seeded before -/

def seedDraws : SeedDraws where
  planId spec := BitVec.ofInt 128 (1000000 + spec.amount)
  planPriceId spec := BitVec.ofInt 128 (2000000 + spec.amount)
  productId spec := BitVec.ofInt 128 (3000000 + spec.amount)
  productPriceId spec := BitVec.ofInt 128 (4000000 + spec.amount)

/-- Two of the plans are there, with prices that were minted at other amounts. -/
def seededDb : Db :=
  match seedCatalog seedDraws localizedDb with
  | .ok db => db
  | .error _ => localizedDb

theorem seedCatalog_localizedDb : seedCatalog seedDraws localizedDb = .ok seededDb := by
  have hok : (seedCatalog seedDraws localizedDb).isOk = true := by decide +kernel
  unfold seededDb
  cases hseed : seedCatalog seedDraws localizedDb with
  | ok db => rfl
  | error e =>
      rw [hseed] at hok
      cases hok

theorem seedCatalog_converges_localizedDb :
    (∀ spec ∈ buildPlans, spec.Seeded seededDb) ∧ (∀ spec ∈ boostProducts, spec.Seeded seededDb) ∧
      SeedsOnly localizedDb seededDb ∧ ∀ draws, seedCatalog draws seededDb = .ok seededDb :=
  seedCatalog_converges seedCatalog_localizedDb

end Saasmint
