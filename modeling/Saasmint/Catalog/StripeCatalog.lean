import Saasmint.Catalog.Sync

/-!
# The catalog of a Stripe account

What the prices and products of an account are, and what the calls of the command
make of them.  A price is found again by its lookup key, which at most one price of
the account holds; creating a price takes the key from the price that held it.

Stripe stays a parameter: `ServesCatalog` says of it that what is written is read
back, that the metadata of an update are merged by key, and that a listing by lookup
keys returns the prices that hold them.
-/

namespace Saasmint

open Atomic Relational

variable {σ : Type}

/-! ## Accounts -/

structure StripePrice where
  id : String
  product : String
  unitAmount : Int
  currency : String
  interval : Option String
  lookupKey : Option String
  active : Bool
deriving DecidableEq

/-- A lookup key is held by one price. -/
instance : Row StripePrice where
  check _ := True
  clash a b := a.id = b.id ∨ sameValue a.lookupKey b.lookupKey
  decidableCheck _ := inferInstanceAs (Decidable True)
  decidableClash _ _ := inferInstanceAs (Decidable (_ ∨ _))
  clash_symm h := h.imp Eq.symm sameValue_symm

instance : Row StripeProduct where
  check _ := True
  clash a b := a.id = b.id
  decidableCheck _ := inferInstanceAs (Decidable True)
  decidableClash _ _ := inferInstanceAs (Decidable (_ = _))
  clash_symm := Eq.symm

structure StripeCatalog where
  prices : Table StripePrice
  products : Table StripeProduct
  complete : ∀ p ∈ prices.rows, ∃ q ∈ products.rows, q.id = p.product

/-! ## Calls -/

namespace StripePrice

/-- The price that is created with these parameters. -/
def ofParams (id : String) (params : PriceParams) : StripePrice where
  id := id
  product := params.product
  unitAmount := params.unitAmount
  currency := params.currency
  interval := params.recurring.map PlanInterval.value
  lookupKey := some params.lookupKey
  active := true

/-- The key is transferred to another price. -/
def without (key : String) (p : StripePrice) : StripePrice :=
  if p.lookupKey = some key then { p with lookupKey := none } else p

def withActive (id : String) (active : Bool) (p : StripePrice) : StripePrice :=
  if p.id = id then { p with active := active } else p

/-- How a price is listed, with its product. -/
def listed (p : StripePrice) (product : StripeProduct) : ListedPrice where
  id := p.id
  unitAmount := some p.unitAmount
  currency := p.currency
  interval := p.interval
  lookupKey := p.lookupKey
  product := product

end StripePrice

namespace StripeProduct

def ofParams (id : String) (params : ProductParams) : StripeProduct where
  id := id
  name := params.name.getD ""
  description := params.description
  metadata := params.metadata.getD []

/-- What is not sent stays, and metadata are merged by key. -/
def update (id : String) (params : ProductParams) (q : StripeProduct) : StripeProduct :=
  if q.id = id then
    { q with
      name := params.name.getD q.name
      description := params.description.or q.description
      metadata := params.metadata.getD [] ++ q.metadata }
  else q

end StripeProduct

namespace StripeCatalog

/-- A listing by these keys has this entry. -/
def Lists (c : StripeCatalog) (keys : List String) (l : ListedPrice) : Prop :=
  ∃ p ∈ c.prices.rows, ∃ q ∈ c.products.rows, q.id = p.product ∧
    (∃ key ∈ keys, p.lookupKey = some key) ∧ l = p.listed q

/-- What a call that succeeds answers, and makes of the catalog. -/
inductive Effect (c : StripeCatalog) : StripeCall → Json → StripeCatalog → Prop
  | priceList {keys : List String} {page : Json} {found : List ListedPrice} {c' : StripeCatalog}
      (read : readPricePage page = .ok found) (mem_found : ∀ l, l ∈ found ↔ c.Lists keys l)
      (same : c' = c) : Effect c (.priceList keys) page c'
  | priceModify {id : String} {active : Bool} {answer : Json} {c' : StripeCatalog}
      (prices : c'.prices.rows = c.prices.rows.map (·.withActive id active))
      (products : c'.products = c.products) : Effect c (.priceModify id active) answer c'
  | priceCreate {params : PriceParams} {answer : Json} {id : String} {c' : StripeCatalog}
      (answered : answer.attr "id" = .ok (.str id))
      (prices : c'.prices.rows =
        c.prices.rows.map (·.without params.lookupKey) ++ [StripePrice.ofParams id params])
      (products : c'.products = c.products) : Effect c (.priceCreate params) answer c'
  | productCreate {params : ProductParams} {answer : Json} {id : String} {c' : StripeCatalog}
      (answered : answer.attr "id" = .ok (.str id)) (prices : c'.prices = c.prices)
      (products : c'.products.rows = c.products.rows ++ [StripeProduct.ofParams id params]) :
      Effect c (.productCreate params) answer c'
  | productModify {id : String} {params : ProductParams} {answer : Json} {c' : StripeCatalog}
      (prices : c'.prices = c.prices)
      (products : c'.products.rows = c.products.rows.map (·.update id params)) :
      Effect c (.productModify id params) answer c'

end StripeCatalog

/-- The calls about prices and products. -/
def StripeCall.ofCatalog : StripeCall → Bool
  | priceList _ | priceModify _ _ | priceCreate _ | productCreate _ | productModify _ _ => true
  | _ => false

/-- Stripe keeps the catalog `view` shows. -/
structure ServesCatalog (stripe : Stripe σ) (view : σ → StripeCatalog) : Prop where
  answers : ∀ call s answer, call.ofCatalog = true → (stripe.call call s).1 = .ok answer →
    (view s).Effect call answer (view (stripe.call call s).2)
  lists : ∀ keys s, ∃ page, (stripe.call (.priceList keys) s).1 = .ok page

/-! ## Terms -/

namespace StripePrice

/-- The price has the amount, the currency and the interval of the terms. -/
def Priced (terms : PriceTerms) (amount : Int) (p : StripePrice) : Prop :=
  p.unitAmount = amount ∧ p.currency = terms.currency ∧
    p.interval = terms.recurring.map PlanInterval.value

instance (terms : PriceTerms) (amount : Int) (p : StripePrice) : Decidable (p.Priced terms amount) :=
  inferInstanceAs (Decidable (_ ∧ _ ∧ _))

/-- The price holds the lookup key. -/
def Holds (key : String) (p : StripePrice) : Prop := p.lookupKey = some key

instance (key : String) (p : StripePrice) : Decidable (p.Holds key) :=
  inferInstanceAs (Decidable (_ = _))

variable {p : StripePrice} {key id : String} {terms : PriceTerms} {amount : Int}

theorem priceMatches_listed (q : StripeProduct) :
    priceMatches (p.listed q) amount terms = true ↔ p.Priced terms amount := by
  unfold priceMatches Priced listed
  dsimp only
  split
  next hdiffer =>
      refine iff_of_false Bool.false_ne_true ?_
      rintro ⟨hamount, hcurrency, -⟩
      rcases hdiffer with hne | hne
      · exact hne (congrArg some hamount)
      · exact hne hcurrency
  next hsame =>
      push Not at hsame
      rw [beq_iff_eq]
      exact ⟨fun h => ⟨Option.some.inj hsame.1, hsame.2, h⟩, fun h => h.2.2⟩

/-- A price that holds another key keeps it. -/
theorem holds_without {key' : String} (hne : key' ≠ key) :
    (p.without key).Holds key' ↔ p.Holds key' ∧ p.without key = p := by
  unfold without Holds
  split
  next h =>
      rw [h]
      refine iff_of_false nofun fun h' => hne ?_
      exact (Option.some.inj h'.1).symm
  next => exact (and_iff_left rfl).symm

end StripePrice

namespace StripeCatalog

/-- Two prices that hold a key are one. -/
theorem holder_unique {c : StripeCatalog} {p p' : StripePrice} {key : String}
    (hp : p ∈ c.prices.rows) (hp' : p' ∈ c.prices.rows) (h : p.Holds key) (h' : p'.Holds key) :
    p = p' := by
  have hsome : p.lookupKey.isSome := by
    rw [h]
    rfl
  exact c.prices.eq_of_clash hp hp' (Or.inr ⟨hsome, Eq.trans h (Eq.symm h')⟩)

theorem price_unique {c : StripeCatalog} {p p' : StripePrice} (hp : p ∈ c.prices.rows)
    (hp' : p' ∈ c.prices.rows) (h : p.id = p'.id) : p = p' :=
  c.prices.eq_of_clash hp hp' (Or.inl h)

theorem product_unique {c : StripeCatalog} {q q' : StripeProduct} (hq : q ∈ c.products.rows)
    (hq' : q' ∈ c.products.rows) (h : q.id = q'.id) : q = q' :=
  c.products.eq_of_clash hq hq' h

end StripeCatalog

end Saasmint
