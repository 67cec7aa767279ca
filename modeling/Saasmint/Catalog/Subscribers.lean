import Saasmint.Catalog.Pinning
import Saasmint.Catalog.SampleAccount
import Saasmint.Library.Runs
import Saasmint.Orgs.Operations

/-!
# Subscribers of a catalog that is re-priced

Amounts are edited, the catalog is synced to Stripe, and webhooks are delivered, in any
order.  A `Market` remembers beside the world which subscriptions have been mirrored, and
the price and the plan they were mirrored at.

Stripe leaves a subscription at its price when the catalog has another one.  The webhook
finds the plan by the stamp of a row, of which there is one a plan: after a re-price the
events of older subscriptions end in an error.  `survive_of_spares` says that nothing but a
run of the command can do this, and which runs cannot.
-/

namespace Saasmint

open Atomic Handler Relational

variable {σ : Type}

/-! ## Webhooks -/

/-- The prices are as they were, and no customer has gone. -/
structure KeepsCatalog (db db' : Db) : Prop where
  prices : db'.planPrices = db.planPrices
  customers : ∀ c ∈ db.customers.rows, c ∈ db'.customers.rows

namespace KeepsCatalog

variable {db db' db'' : Db}

theorem refl (db : Db) : KeepsCatalog db db := ⟨rfl, fun _ hc => hc⟩

theorem trans (h : KeepsCatalog db db') (h' : KeepsCatalog db' db'') : KeepsCatalog db db'' :=
  ⟨h'.prices.trans h.prices, fun c hc => h'.customers c (h.customers c hc)⟩

theorem of_mirrorWrites (h : MirrorWrites db db') : KeepsCatalog db db' := by
  refine ⟨by rw [h.frame], fun c hc => ?_⟩
  rw [h.frame]
  exact hc

theorem of_founded {rt : Runtime σ} {c : TeamCheckout} {user : User} {slug : String}
    (h : Founded rt c db db' user slug) : KeepsCatalog db db' := by
  obtain ⟨-, -, hcustomers, hframe⟩ := insertOrgWithOwner_eq_ok h.inserted
  refine ⟨by rw [hframe], fun c hc => ?_⟩
  rw [hcustomers]
  exact List.mem_append_left _ hc

theorem of_grant {rt : Runtime σ} {stripeSessionId reason : String} {amount : Int}
    {owner : CreditOwner} {granted : Bool}
    (h : grantCreditsForSession rt stripeSessionId amount reason owner db = .ok (granted, db')) :
    KeepsCatalog db db' := by
  obtain ⟨-, -, ⟨-, rfl, -⟩ | ⟨-, -, -, hframe⟩⟩ := grantCreditsForSession_eq_ok h
  · exact .refl db'
  · refine ⟨by rw [hframe], fun c hc => ?_⟩
    rw [hframe]
    exact hc

end KeepsCatalog

section Webhooks

variable {rt : Runtime σ} {w : World σ}

theorem keepsCatalog_callback (callback : Callback) :
    (callback.handle rt).Ends (fun _ t => KeepsCatalog w.db t.db) w := by
  cases callback with
  | team c =>
      refine (c.ends_handle rt).mono fun _ t ht => ?_
      rcases ht with hmirrors | ⟨user, slug, db, hfounded, hmirrors⟩
      · exact .of_mirrorWrites hmirrors
      · exact (KeepsCatalog.of_founded hfounded).trans (.of_mirrorWrites hmirrors)
  | product c =>
      show (onProductCheckoutCompleted rt _ _ _ _).Ends _ w
      unfold Fallible.Ends
      rw [exec_onProductCheckoutCompleted]
      cases productGrant w.db c.productId c.userId c.orgId with
      | none => exact .refl w.db
      | some grant =>
          obtain ⟨amount, reason, owner⟩ := grant
          dsimp only
          cases hgrant : grantCreditsForSession rt c.stripeSessionId amount reason owner w.db with
          | error e => exact .refl w.db
          | ok outcome => exact .of_grant hgrant

theorem keepsCatalog_handler (type : EventType) (object : Json) :
    (type.handler rt object).Ends (fun _ t => KeepsCatalog w.db t.db) w := by
  cases type with
  | checkoutCompleted =>
      show (onCheckoutCompleted rt object).Ends _ w
      rw [onCheckoutCompleted_eq]
      cases readCheckout object with
      | error e => exact .refl w.db
      | ok callback? =>
          cases callback? with
          | none => exact .refl w.db
          | some callback => exact keepsCatalog_callback callback
  | subscriptionCreated | subscriptionUpdated =>
      exact .of_mirrorWrites ((sync_disciplined rt object rfl).mirrors w)
  | subscriptionDeleted => exact .of_mirrorWrites ((deleted_disciplined rt object _).mirrors w)
  | scheduleCreated | scheduleUpdated =>
      exact .of_mirrorWrites ((upserted_disciplined rt object _).mirrors w)
  | scheduleReleased | scheduleCanceled | scheduleAborted =>
      exact .of_mirrorWrites ((cleared_disciplined rt object _).mirrors w)
  | invoicePaymentSucceeded | invoicePaymentFailed =>
      show (lift (object.get "id") >>= fun _ => pure ()).Ends _ w
      cases object.get "id" <;> exact .refl w.db

theorem keepsCatalog_process (rt : Runtime σ) (event : Json) (eventId : String) (w : World σ) :
    KeepsCatalog w.db (Fallible.exec (processStoredEvent rt event eventId) w).2.db := by
  have hdispatch : KeepsCatalog w.db (Fallible.exec (dispatch rt event) w).2.db := by
    rcases dispatch_cases (σ := σ) event with ⟨e, hfails⟩ | ⟨-, hignored⟩ | ⟨type, object, -, -, h⟩
    · rw [hfails rt]
      exact .refl w.db
    · rw [hignored rt]
      exact .refl w.db
    · rw [h rt]
      exact keepsCatalog_handler type object
  obtain ⟨events, -, hdb⟩ := exec_processStoredEvent_tables rt event eventId w
  rw [hdb]
  exact hdispatch.trans ⟨rfl, fun _ hc => hc⟩

end Webhooks

/-! ## Markets -/

/-- A subscription that has been mirrored: its customer and its price at Stripe, and its
plan here. -/
structure Subscriber where
  subscription : String
  customer : String
  priceId : String
  planId : UUID
deriving DecidableEq

/-- The subscription of a created or updated event. -/
def syncedSubscription (event : Json) : Option SubscriptionData :=
  match event.item "type", eventObject event with
  | .ok type, .ok object =>
      if type.isStr "customer.subscription.created" ||
          type.isStr "customer.subscription.updated" then (readSubscriptionData object).toOption
      else none
  | _, _ => none

/-- What an event has mirrored, once it is processed. -/
def mirroredBy (event : Json) (result : Py Unit) (db : Db) : List Subscriber :=
  match result, syncedSubscription event with
  | .ok _, some d => ((db.subscriptionByStripeId d.stripeId).map fun row =>
      ⟨d.stripeId, d.customer, d.priceId, row.planId⟩).toList
  | _, _ => []

def PlanPrice.repriced (id : UUID) (amount : Int) (p : PlanPrice) : PlanPrice :=
  if p.id = id then { p with amount := amount } else p

def ProductPrice.repriced (id : UUID) (amount : Int) (p : ProductPrice) : ProductPrice :=
  if p.id = id then { p with amount := amount } else p

theorem PlanPrice.clash_repriced {id : UUID} {amount : Int} {p q : PlanPrice}
    (h : Row.clash (p.repriced id amount) (q.repriced id amount)) : Row.clash p q := by
  unfold PlanPrice.repriced at h
  split at h <;> split at h <;> exact h

theorem ProductPrice.clash_repriced {id : UUID} {amount : Int} {p q : ProductPrice}
    (h : Row.clash (p.repriced id amount) (q.repriced id amount)) : Row.clash p q := by
  unfold ProductPrice.repriced at h
  split at h <;> split at h <;> exact h

@[simp] theorem PlanPrice.id_repriced (id : UUID) (amount : Int) (p : PlanPrice) :
    (p.repriced id amount).id = p.id := by
  unfold repriced
  split <;> rfl

@[simp] theorem PlanPrice.planId_repriced (id : UUID) (amount : Int) (p : PlanPrice) :
    (p.repriced id amount).planId = p.planId := by
  unfold repriced
  split <;> rfl

@[simp] theorem PlanPrice.stripePriceId_repriced (id : UUID) (amount : Int) (p : PlanPrice) :
    (p.repriced id amount).stripePriceId = p.stripePriceId := by
  unfold repriced
  split <;> rfl

@[simp] theorem ProductPrice.id_repriced (id : UUID) (amount : Int) (p : ProductPrice) :
    (p.repriced id amount).id = p.id := by
  unfold repriced
  split <;> rfl

@[simp] theorem ProductPrice.productId_repriced (id : UUID) (amount : Int) (p : ProductPrice) :
    (p.repriced id amount).productId = p.productId := by
  unfold repriced
  split <;> rfl

theorem Db.integral_repriced (db : Db) (id : UUID) (amount : Int) {planPrices : Table PlanPrice}
    {productPrices : Table ProductPrice}
    (hplan : planPrices.rows = db.planPrices.rows.map (.repriced id amount))
    (hproduct : productPrices.rows = db.productPrices.rows.map (.repriced id amount)) :
    { db.toTables with planPrices, productPrices }.Integral := by
  refine ⟨db.integral.orgs, db.integral.members, db.integral.invitations, fun p hp => ?_,
    fun p hp => ?_, fun row hrow => ?_, db.integral.customers, db.integral.subscriptions,
    db.integral.creditBalances, db.integral.creditTransactions⟩
  · rw [hplan] at hp
    obtain ⟨q, hq, rfl⟩ := List.mem_map.mp hp
    unfold Tables.PlanPriceRefs
    rw [PlanPrice.planId_repriced]
    exact db.integral.planPrices q hq
  · rw [hproduct] at hp
    obtain ⟨q, hq, rfl⟩ := List.mem_map.mp hp
    unfold Tables.ProductPriceRefs
    rw [ProductPrice.productId_repriced]
    exact db.integral.productPrices q hq
  · obtain ⟨hplanRefs, hproductRefs⟩ := db.integral.localizedPrices row hrow
    unfold Tables.LocalizedPriceRefs
    rw [hplan, hproduct]
    exact ⟨hplanRefs.rewrite (PlanPrice.id_repriced id amount),
      hproductRefs.rewrite (ProductPrice.id_repriced id amount)⟩

/-- The amount of a price is edited. -/
def Db.reprice (db : Db) (id : UUID) (amount : Int) : Db where
  toTables := { db.toTables with
    planPrices := db.planPrices.rewrite (.repriced id amount) (fun _ _ => trivial)
      fun _ _ => PlanPrice.clash_repriced
    productPrices := db.productPrices.rewrite (.repriced id amount) (fun _ _ => trivial)
      fun _ _ => ProductPrice.clash_repriced }
  integral := db.integral_repriced id amount rfl rfl

variable (view : σ → StripeCatalog) in
/-- What happens to a catalog that is sold. -/
inductive MarketStep
  | edit (id : UUID) (amount : Int)
  | sync (rt : CatalogRuntime σ) (serves : ServesCatalog rt.stripe view)
  | deliver (rt : Runtime σ) (event : Json) (eventId : String)

/-- A world, and the subscriptions that have been mirrored in it. -/
structure Market (σ : Type) where
  world : World σ
  mirrored : List Subscriber

namespace Market

variable {view : σ → StripeCatalog}

def step (m : Market σ) : MarketStep view → Market σ
  | .edit id amount => { m with world := { m.world with db := m.world.db.reprice id amount } }
  | .sync rt _ => { m with world := (Fallible.exec (syncStripeCatalog rt) m.world).2 }
  | .deliver rt event eventId =>
      let processed := Fallible.exec (processStoredEvent rt event eventId) m.world
      { world := processed.2
        mirrored := m.mirrored ++ mirroredBy event processed.1 processed.2.db }

end Market

/-- A created or updated event of the subscription, still at the price. -/
structure Subscriber.Carries (m : Subscriber) (event subData : Json) (d : SubscriptionData)
    (fields : MirroredFields) : Prop where
  type : ∃ type : EventType, (type = .subscriptionCreated ∨ type = .subscriptionUpdated) ∧
    event.item "type" = .ok (.str type.name)
  object : eventObject event = .ok subData
  decodes : Decodes subData d fields
  subscription : d.stripeId = m.subscription
  customer : d.customer = m.customer
  priceId : d.priceId = m.priceId

/-- Every event of the subscription is mirrored again, and onto its plan. -/
def Subscriber.Survives (m : Subscriber) (w : World σ) : Prop :=
  ∀ (rt : Runtime σ) (event subData : Json) (eventId : String) (d : SubscriptionData)
    (fields : MirroredFields), m.Carries event subData d fields →
      ∃ w', Fallible.exec (processStoredEvent rt event eventId) w = (.ok (), w') ∧
        ∃ row, w'.db.subscriptionByStripeId m.subscription = some row ∧ row.planId = m.planId

namespace Market

variable {view : σ → StripeCatalog}

/-- Every subscription that has been mirrored survives. -/
def Survive (market : Market σ) : Prop := ∀ m ∈ market.mirrored, m.Survives market.world

/-- A run of the command finds at Stripe the prices that are subscribed to, under the keys of
their plans and at the amounts of their rows. -/
def Spares (market : Market σ) : MarketStep view → Prop
  | .sync rt _ => SparesPins rt view (fun priceId => ∃ m ∈ market.mirrored, m.priceId = priceId)
      market.world
  | _ => True

end Market

/-! ## What survives -/

/-- The price and the customer of a mirrored subscription are known. -/
structure Subscriber.Known (m : Subscriber) (db : Db) : Prop where
  price : ∃ p ∈ db.planPrices.rows, p.stripePriceId = m.priceId ∧ p.planId = m.planId
  customer : ∃ c ∈ db.customers.rows, c.stripeId = m.customer

namespace Subscriber

variable {m : Subscriber} {db db' : Db} {w : World σ}

theorem Known.survives (h : m.Known w.db) : m.Survives w := by
  intro rt event subData eventId d fields hcarries
  obtain ⟨p, hp, hprice, hplan⟩ := h.price
  obtain ⟨c, hc, hcustomer⟩ := h.customer
  obtain ⟨type, htype, hname⟩ := hcarries.type
  have hresolved : w.db.getPriceByStripeId m.priceId = some p :=
    Db.getPriceByStripeId_eq_some.mpr ⟨hp, hprice⟩
  have hknown : w.db.customerByStripeId d.customer = some c :=
    Db.customerByStripeId_eq_some.mpr ⟨hc, hcustomer.trans hcarries.customer.symm⟩
  obtain ⟨db', hexec, row, hrow, hplanId⟩ := (roundTrips_of_resolved hresolved).mirrored rt w
    subData d fields c rfl hcarries.decodes hcarries.priceId hknown
  have hdispatch : dispatch rt event = syncSubscriptionFromData rt subData := by
    rw [dispatch_eq rt hname hcarries.object]
    rcases htype with rfl | rfl <;> rfl
  rw [exec_processStoredEvent, hdispatch, hexec]
  refine ⟨_, rfl, row, ?_, hplanId.trans hplan⟩
  rw [← hcarries.subscription]
  exact hrow

theorem Known.of_keepsCatalog (h : m.Known db) (hkeeps : KeepsCatalog db db') : m.Known db' := by
  obtain ⟨c, hc, hcustomer⟩ := h.customer
  refine ⟨?_, c, hkeeps.customers c hc, hcustomer⟩
  rw [hkeeps.prices]
  exact h.price

theorem Known.of_spared {pins : String → Prop} (h : m.Known db) (hpin : pins m.priceId)
    (hspared : Spared pins db db') : m.Known db' := by
  obtain ⟨p, hp, hprice, hplan⟩ := h.price
  refine ⟨⟨p, hspared.prices p hp (hprice ▸ hpin), hprice, hplan⟩, ?_⟩
  rw [hspared.customers]
  exact h.customer

theorem Known.reprice (h : m.Known db) (id : UUID) (amount : Int) :
    m.Known (db.reprice id amount) := by
  obtain ⟨p, hp, hprice, hplan⟩ := h.price
  refine ⟨⟨p.repriced id amount, List.mem_map_of_mem hp, ?_, ?_⟩, h.customer⟩
  · rw [PlanPrice.stripePriceId_repriced, hprice]
  · rw [PlanPrice.planId_repriced, hplan]

/-- An event that is read as one of a subscription is processed by mirroring it. -/
theorem dispatch_of_synced {event : Json} {d : SubscriptionData}
    (h : syncedSubscription event = some d) (rt : Runtime σ) : ∃ subData,
      readSubscriptionData subData = .ok d ∧
        dispatch rt event = syncSubscriptionFromData rt subData := by
  unfold syncedSubscription at h
  split at h
  next type object htype hobject =>
      split at h
      next hsynced =>
          refine ⟨object, ?_, ?_⟩
          · cases hread : readSubscriptionData object with
            | error e =>
                rw [hread] at h
                cases h
            | ok d' =>
                rw [hread] at h
                exact congrArg _ (Option.some.inj h)
          · rw [Bool.or_eq_true] at hsynced
            rcases hsynced with hcreated | hupdated
            · obtain rfl := isStr_eq_true hcreated
              exact (dispatch_eq rt htype hobject : _ = EventType.subscriptionCreated.handler rt object)
            · obtain rfl := isStr_eq_true hupdated
              exact (dispatch_eq rt htype hobject : _ = EventType.subscriptionUpdated.handler rt object)
      next => cases h
  next => cases h

/-- What an event has mirrored is known. -/
theorem known_of_mirroredBy {rt : Runtime σ} {event : Json} {eventId : String}
    (h : m ∈ mirroredBy event (Fallible.exec (processStoredEvent rt event eventId) w).1
      (Fallible.exec (processStoredEvent rt event eventId) w).2.db) : m.Known w.db := by
  obtain ⟨events, hresult, hdb⟩ := exec_processStoredEvent_tables rt event eventId w
  rw [hresult, hdb] at h
  unfold mirroredBy at h
  split at h
  next d hok hsynced =>
      obtain ⟨subData, hread, hdispatch⟩ := dispatch_of_synced hsynced rt
      rw [hdispatch] at hok h
      rcases exec_sync_cases rt subData w with
        ⟨d', fields, customer, planPrice, db', hresolves, hsave, hexec⟩ | ⟨⟨e, hexec⟩, -⟩
      · obtain rfl : d' = d := Except.ok.inj (hresolves.read.symm.trans hread)
        obtain ⟨createdAt, hsaved⟩ := Db.exists_saved hsave
        have hrow : db'.subscriptionByStripeId d'.stripeId = some _ :=
          Db.subscriptionByStripeId_eq_some.mpr ⟨hsaved, rfl⟩
        rw [hexec] at h
        change m ∈ ((db'.subscriptionByStripeId d'.stripeId).map fun row =>
          Subscriber.mk d'.stripeId d'.customer d'.priceId row.planId).toList at h
        rw [hrow, Option.map_some, Option.toList_some, List.mem_singleton] at h
        obtain ⟨hp, hprice⟩ := Db.getPriceByStripeId_eq_some.mp hresolves.price
        obtain ⟨hc, hcustomer⟩ := Db.customerByStripeId_eq_some.mp hresolves.customer
        rw [h]
        exact ⟨⟨planPrice, hp, hprice, rfl⟩, customer, hc, hcustomer⟩
      · rw [hexec] at hok
        cases hok
  next => cases h

end Subscriber

namespace Market

variable {view : σ → StripeCatalog} {market : Market σ}

theorem known_step {i : MarketStep view} (h : ∀ m ∈ market.mirrored, m.Known market.world.db)
    (hspares : market.Spares i) :
    ∀ m ∈ (market.step i).mirrored, m.Known (market.step i).world.db := by
  cases i with
  | edit id amount => exact fun m hm => (h m hm).reprice id amount
  | sync rt serves =>
      have hpins : SparesPins rt view (fun priceId => ∃ m ∈ market.mirrored, m.priceId = priceId)
          market.world := hspares
      have hspared := ends_syncStripeCatalog serves hpins
      intro m hm
      exact (h m hm).of_spared ⟨m, hm, rfl⟩ hspared
  | deliver rt event eventId =>
      have hkeeps := keepsCatalog_process rt event eventId market.world
      intro m hm
      rcases List.mem_append.mp hm with hold | hnew
      · exact (h m hold).of_keepsCatalog hkeeps
      · exact (Subscriber.known_of_mirroredBy hnew).of_keepsCatalog hkeeps

/-- **Subscribers survive a re-price.**  As long as the command finds the prices that are
subscribed to at Stripe, under the keys of their plans and at the amounts of their rows, every
event of a subscription that has been mirrored is mirrored again, onto the same plan. -/
theorem survive_of_spares (w : World σ) (steps : List (MarketStep view))
    (h : Runs.Steps step Spares ⟨w, []⟩ steps) : Runs.Always step Survive ⟨w, []⟩ steps := by
  have hknown : Runs.Always step (fun market => ∀ m ∈ market.mirrored, m.Known market.world.db)
      (⟨w, []⟩ : Market σ) steps :=
    Runs.always_of_steps (fun market i hm hi => known_step hm hi) (List.forall_mem_nil _) h
  exact hknown.mono fun market hmarket m hm => (hmarket m hm).survives

/-! ## A subscriber at the old price -/

def shopStep : MarketStep (σ := StripeCatalog) id := .sync shopRuntime serves_catalogStripe

/-- The buyer's subscription to the basic plan, at the price that the first run mints. -/
def basicSubscription : Json := subscriptionObject "sub_1" "cus_1" "price_0" .active 1 100

def basicUpdate : Json := eventObjectOf "customer.subscription.updated" basicSubscription

def basicDelivered : MarketStep (σ := StripeCatalog) id :=
  .deliver shopRuntime.toRuntime basicUpdate "evt_1"

def openMarket : Market StripeCatalog := ⟨⟨sampleDb, emptyAccount, []⟩, []⟩

/-- The amount of the basic plan is edited once it is subscribed to. -/
def repricing : List (MarketStep (σ := StripeCatalog) id) :=
  [shopStep, basicDelivered, .edit 20#128 1499, shopStep]

/-- The subscription is remembered at its price, and the next event does not find it. -/
theorem repricing_unknown :
    (Runs.run step openMarket repricing).mirrored =
        [⟨"sub_1", "cus_1", "price_0", basicPlan.id⟩] ∧
      (Fallible.exec (processStoredEvent shopRuntime.toRuntime basicUpdate "evt_2")
        (Runs.run step openMarket repricing).world).1 =
          .error (.webhookData "Unknown price price_0") := by
  refine ⟨?_, ?_⟩ <;> decide +kernel

/-- A re-price loses subscribers. -/
theorem not_always_survive : ¬ ∀ (w : World StripeCatalog)
    (steps : List (MarketStep (σ := StripeCatalog) id)),
    Runs.Always step Survive ⟨w, []⟩ steps := by
  intro h
  obtain ⟨hmirrored, hunknown⟩ := repricing_unknown
  have hsurvives := (h openMarket.world repricing).final ⟨"sub_1", "cus_1", "price_0", basicPlan.id⟩
    (hmirrored ▸ List.mem_singleton_self _)
  have hdecodes : Decodes basicSubscription
      { customer := "cus_1", firstItem := itemObject "price_0" "usd" 1 0 100, priceId := "price_0",
        stripeId := "sub_1", periodStart := 0, periodEnd := 100 } (objectFields .active 1 100) :=
    subscriptionObject_decodes (by decide) (by decide) (by decide) (by decide)
  obtain ⟨w', hexec, -⟩ := hsurvives shopRuntime.toRuntime basicUpdate basicSubscription "evt_2" _ _
    ⟨⟨.subscriptionUpdated, Or.inr rfl, eventObjectOf_item_type _ _⟩,
      eventObject_eventObjectOf _ _, hdecodes, rfl, rfl, rfl⟩
  cases (congrArg Prod.fst hexec).symm.trans hunknown

/-- Without an edit, another run leaves the subscriber. -/
theorem survive_resynced :
    Runs.Always step Survive openMarket [shopStep, basicDelivered, shopStep] := by
  have hfirst : SparesPins shopRuntime id (fun priceId => ∃ m ∈ openMarket.mirrored, m.priceId = priceId)
      openMarket.world := by decide +kernel
  have hlast : SparesPins shopRuntime id
      (fun priceId => ∃ m ∈ (Runs.run step openMarket [shopStep, basicDelivered]).mirrored,
        m.priceId = priceId) (Runs.run step openMarket [shopStep, basicDelivered]).world := by
    decide +kernel
  refine survive_of_spares openMarket.world [shopStep, basicDelivered, shopStep] ?_
  exact Runs.steps_cons.mpr ⟨hfirst, Runs.steps_cons.mpr ⟨trivial,
    Runs.steps_cons.mpr ⟨hlast, Runs.steps_nil⟩⟩⟩

end Market

end Saasmint
