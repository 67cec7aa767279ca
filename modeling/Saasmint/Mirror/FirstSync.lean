import Saasmint.Library.Runs
import Saasmint.Mirror.Representation
import Saasmint.Billing.Payloads

/-!
# First syncs of one subscription

Stripe announces a new subscription several times over: by its own `created` and
`updated` events, and by the checkout that bought it.  All of these handlers look
the subscription up by its Stripe id, and insert a row when they found none.

The lookup and the insert are two steps.  `firstSync_converges`: as long as no
handler inserts a row that another has inserted since the lookup, no handler
fails and all of them leave one row.  `not_always_converges` is the other case:
the unique index refuses the second insert, with an error the task does not
retry.
-/

namespace Saasmint

open Atomic Handler Relational

variable {σ : Type}

/-! ## Handlers that mirror a subscription -/

inductive Mirroring
  | event (subData : Json)
  | checkout (stripeSubscriptionId : String)

namespace Mirroring

def program (rt : Runtime σ) : Mirroring → Handler σ Unit
  | event subData => syncSubscriptionFromData rt subData
  | checkout stripeSubscriptionId => persistTeamSubscription rt stripeSubscriptionId

/-- The payloads a handler may mirror: its event's, or what Stripe answers. -/
def Delivers (rt : Runtime σ) : Mirroring → Json → Prop
  | event subData, payload => payload = subData
  | checkout id, payload => ∃ s, (rt.stripe.call (.subscriptionRetrieve id) s).1 = .ok payload

end Mirroring

/-- `row` is what a payload is mirrored as, with the customers and prices of
`db`. -/
def Mirrors (db : Db) (payload : Json) (row : Subscription) : Prop :=
  ∃ d fields customer planPrice, Resolves db payload d fields customer planPrice ∧
    row = mirrorRow row.id row.createdAt d.stripeId customer planPrice.planId none fields

/-- The payload describes the subscription, and `db` knows its customer and its
price. -/
def Mirrorable (db : Db) (stripeId : String) (payload : Json) : Prop :=
  ∃ d fields customer planPrice, Resolves db payload d fields customer planPrice ∧
    d.stripeId = stripeId

/-- What the handler delivers can be mirrored, and when Stripe does not answer it
fails with an error that is retried. -/
structure Mirroring.Sound (rt : Runtime σ) (db : Db) (stripeId : String) (m : Mirroring) :
    Prop where
  mirrorable : ∀ payload, m.Delivers rt payload → Mirrorable db stripeId payload
  retried : ∀ id s e, m = .checkout id →
    (rt.stripe.call (.subscriptionRetrieve id) s).1 = .error e → e.retried = true

/-- The outcomes the webhook task handles: success, and the failure of a call to
Stripe, after which it runs the checkout handler again. -/
def Mirroring.Handled (m : Mirroring) : Py Unit → Prop
  | .ok () => True
  | .error e => e.retried = true ∧ ∃ id, m = .checkout id

/-! ## What every state of a run satisfies -/

/-- The rows of the subscription are mirrors of delivered payloads; customers and
prices are those of the start. -/
structure MirrorsOnly (start : Db) (stripeId : String) (delivered : Json → Prop) (db : Db) :
    Prop where
  customers : db.customers = start.customers
  prices : db.planPrices = start.planPrices
  rows : ∀ s ∈ db.subscriptions.rows, s.stripeId = some stripeId →
    ∃ payload, delivered payload ∧ Mirrors start payload s

section Invariant

variable {start db : Db} {stripeId : String} {delivered : Json → Prop}

theorem MirrorsOnly.customerByStripeId (h : MirrorsOnly start stripeId delivered db)
    (id : String) : db.customerByStripeId id = start.customerByStripeId id := by
  rw [Db.customerByStripeId, Db.customerByStripeId, h.customers]

theorem MirrorsOnly.getPriceByStripeId (h : MirrorsOnly start stripeId delivered db)
    (id : String) : db.getPriceByStripeId id = start.getPriceByStripeId id := by
  rw [Db.getPriceByStripeId, Db.getPriceByStripeId, h.prices]

/-- A mirrored row has no pending change. -/
theorem MirrorsOnly.pending (h : MirrorsOnly start stripeId delivered db) {s : Subscription}
    (hs : s ∈ db.subscriptions.rows) (hstripe : s.stripeId = some stripeId) :
    s.scheduledPlanId = none ∧ s.scheduledChangeAt = none := by
  obtain ⟨payload, -, d, fields, customer, planPrice, -, hrow⟩ := h.rows s hs hstripe
  rw [hrow]
  exact ⟨rfl, rfl⟩

end Invariant

/-- The contract of the mirror, for handlers that insert a row only while there is
none of its Stripe id. -/
def firstSyncContract (freshId : UUID) : Contract Action (World σ) where
  __ := mirrorContract freshId
  assume
    | .saveSubscription _ row, w => row.id = freshId →
        ∀ s ∈ w.db.subscriptions.rows, s.stripeId ≠ row.stripeId
    | _, _ => True

/-! ## One sync -/

section Sync

variable {start : Db} {stripeId : String} {delivered : Json → Prop} {freshId : UUID}
variable {customer : StripeCustomer} {planId : UUID} {fields : MirroredFields}

/-- The row built from an earlier lookup is the one built from a lookup now, if a
row that the lookup missed is still missing. -/
theorem mirrorRow_current (now : Datetime) {seen db : Db}
    (hseen : MirrorsOnly start stripeId delivered seen)
    (hnow : MirrorsOnly start stripeId delivered db) (hpersists : Persists seen db)
    (hmissing : seen.subscriptionByStripeId stripeId = none →
      db.subscriptionByStripeId stripeId = none) :
    mirrorRow freshId now stripeId customer planId (seen.subscriptionByStripeId stripeId) fields =
      mirrorRow freshId now stripeId customer planId (db.subscriptionByStripeId stripeId)
        fields := by
  cases hold : seen.subscriptionByStripeId stripeId with
  | none => rw [hmissing hold]
  | some old =>
      obtain ⟨hmem, hstripe⟩ := Db.subscriptionByStripeId_eq_some.mp hold
      obtain ⟨current, hcurrent, hid, hsame, hcreated⟩ := hpersists old hmem
      have hstripeNow : current.stripeId = some stripeId := hsame.trans hstripe
      have hfound : db.subscriptionByStripeId stripeId = some current :=
        Db.subscriptionByStripeId_eq_some.mpr ⟨hcurrent, hstripeNow⟩
      have hpending := hseen.pending hmem hstripe
      have hpendingNow := hnow.pending hcurrent hstripeNow
      rw [hfound]
      simp [mirrorRow, hid, hcreated, hpending, hpendingNow]

/-- The row saved for a payload that can be mirrored is stored, as a mirror of the
payload and under keys that stay. -/
theorem save_mirrorRow (now : Datetime) {payload : Json} {d : SubscriptionData}
    {planPrice : PlanPrice} {w : World σ}
    (hresolves : Resolves start payload d fields customer planPrice)
    (hdelivered : delivered payload) (hstripe : d.stripeId = stripeId) (hnow : MirrorsOnly start stripeId delivered w.db)
    (hunused : Unused freshId w.db) :
    ∃ db', w.db.saveSubscription now (mirrorRow freshId now stripeId customer planPrice.planId
        (w.db.subscriptionByStripeId stripeId) fields) = .ok db' ∧
      MirrorsOnly start stripeId delivered db' ∧
      (firstSyncContract freshId).guarantee w { w with db := db' } ∧ Stored stripeId db' := by
  subst hstripe
  have hcustomerRow : customer ∈ w.db.customers.rows := by
    rw [hnow.customers]
    exact (Db.customerByStripeId_eq_some.mp hresolves.customer).1
  have hpriceRow : planPrice ∈ w.db.planPrices.rows := by
    rw [hnow.prices]
    exact (Db.getPriceByStripeId_eq_some.mp hresolves.price).1
  obtain ⟨db', hsave⟩ :=
    saveSubscription_mirrorRow hresolves.toDecodes freshId now hcustomerRow hpriceRow
  set row := mirrorRow freshId now d.stripeId customer planPrice.planId
    (w.db.subscriptionByStripeId d.stripeId) fields with hrow
  have hframe := Db.saveSubscription_frame hsave
  have hmirrors : ∀ createdAt, Mirrors start payload { row with createdAt := createdAt } := by
    intro createdAt
    refine ⟨d, fields, customer, planPrice, hresolves, ?_⟩
    cases hfound : w.db.subscriptionByStripeId d.stripeId with
    | none => rw [hrow, hfound]; rfl
    | some current =>
        obtain ⟨hmem, hcurrent⟩ := Db.subscriptionByStripeId_eq_some.mp hfound
        have hpending := hnow.pending hmem hcurrent
        rw [hrow, hfound]
        simp [mirrorRow, hpending]
  have hkeys := mirrorRow_keys (Persists.refl w.db) hunused now d.stripeId customer
    planPrice.planId fields
  have hguarantee : (firstSyncContract freshId).guarantee w { w with db := db' } :=
    mirrorContract_save hkeys.1 hkeys.2 hsave
  refine ⟨db', hsave, ⟨?_, ?_, ?_⟩, hguarantee, ?_⟩
  · rw [hframe]
    exact hnow.customers
  · rw [hframe]
    exact hnow.prices
  · intro s hs hsstripe
    rcases (Db.mem_saveSubscription hsave).mp hs with ⟨hold, -⟩ | ⟨old, -, -, rfl⟩ | ⟨rfl, -⟩
    · exact hnow.rows s hold hsstripe
    · exact ⟨payload, hdelivered, hmirrors old.createdAt⟩
    · exact ⟨payload, hdelivered, hmirrors now⟩
  · obtain ⟨createdAt, hmem⟩ := Db.exists_saved hsave
    exact ⟨_, hmem, rfl⟩

end Sync

/-! ## Every handler -/

section Handlers

variable {start : Db} {stripeId : String} {delivered : Json → Prop} {rt : Runtime σ}
variable {post : World σ → Py Unit → Prop}

theorem sync_meets {payload : Json} (hdelivered : delivered payload)
    (hmirrorable : Mirrorable start stripeId payload)
    (hpost : ∀ w, Stored stripeId w.db → post w (.ok ())) {w : World σ}
    (hunused : Unused rt.subscriptionId w.db) :
    (syncSubscriptionFromData rt payload).Meets
      (fun w => MirrorsOnly start stripeId delivered w.db) (firstSyncContract rt.subscriptionId)
      post w := by
  obtain ⟨d, fields, customer, planPrice, hresolves, hstripe⟩ := hmirrorable
  unfold syncSubscriptionFromData
  simp only [Fallible.meets_bind, meets_lift, hresolves.read, Fallible.chain_ok, meets_query,
    meets_readSubscription]
  intro t₁ hrely₁ hinv₁ _ t₂ hrely₂ hinv₂ _ t₃ hrely₃ hinv₃ _
  rw [hinv₁.customerByStripeId, hresolves.customer, hinv₂.getPriceByStripeId, hresolves.price]
  simp only [Fallible.meets_bind, meets_lift, buildSubscriptionRow, hresolves.mirrored, ok_bind,
    pure_eq_ok, Fallible.chain_ok, meets_saveSubscription]
  intro t hrely hinv hassume
  subst hstripe
  have hunusedNow : Unused rt.subscriptionId t.db :=
    hrely.2.2 (hrely₃.2.2 (hrely₂.2.2 (hrely₁.2.2 hunused)))
  have hmissing : t₃.db.subscriptionByStripeId d.stripeId = none →
      t.db.subscriptionByStripeId d.stripeId = none := by
    intro hnone
    refine Db.subscriptionByStripeId_eq_none.mpr (hassume ?_)
    rw [hnone]
    rfl
  rw [mirrorRow_current rt.now hinv₃ hinv hrely.2.1 hmissing]
  obtain ⟨db', hsave, hinv', hguarantee, hstored⟩ :=
    save_mirrorRow rt.now hresolves hdelivered rfl hinv hunusedNow
  rw [hsave]
  exact ⟨hinv', hguarantee, hpost _ hstored⟩

theorem Mirroring.meets {m : Mirroring} (hsound : m.Sound rt start stripeId)
    (hdelivers : ∀ payload, m.Delivers rt payload → delivered payload) {w : World σ}
    (hunused : Unused rt.subscriptionId w.db) :
    (m.program rt).Meets (fun w => MirrorsOnly start stripeId delivered w.db)
      (firstSyncContract rt.subscriptionId)
      (fun w result => m.Handled result ∧ (result = .ok () → Stored stripeId w.db)) w := by
  have hpost : ∀ w : World σ, Stored stripeId w.db →
      m.Handled (.ok ()) ∧ ((.ok () : Py Unit) = .ok () → Stored stripeId w.db) :=
    fun _ hstored => ⟨trivial, fun _ => hstored⟩
  cases m with
  | event subData =>
      exact sync_meets (hdelivers subData rfl) (hsound.mirrorable subData rfl) hpost hunused
  | checkout id =>
      unfold program persistTeamSubscription
      simp only [Fallible.meets_bind, meets_callStripe]
      intro t hrely hinv _
      refine ⟨hinv, (firstSyncContract rt.subscriptionId).guarantee_refl t, ?_⟩
      cases hanswer : (rt.stripe.call (.subscriptionRetrieve id) t.stripe).1 with
      | error e => exact ⟨⟨hsound.retried id _ e rfl hanswer, id, rfl⟩, by simp⟩
      | ok payload =>
          have hpayload : Mirroring.Delivers rt (.checkout id) payload := ⟨_, hanswer⟩
          exact sync_meets (hdelivers payload hpayload) (hsound.mirrorable payload hpayload) hpost
            (hrely.2.2 hunused)

end Handlers

/-! ## Every run -/

section Runs

variable {ι : Type}

/-- The handlers `handler i`, run concurrently over one world. -/
def mirroringPool (rt : ι → Runtime σ) (handler : ι → Mirroring) (w : World σ) :
    Pool ι Action (World σ) (Py Unit) where
  shared := w
  procs i := ExceptT.run ((handler i).program (rt i))

/-- Handler `i`, if it is about to insert a row, is the first to do so. -/
def FirstToInsert (rt : ι → Runtime σ) (pool : Pool ι Action (World σ) (Py Unit)) (i : ι) : Prop :=
  match pool.procs i with
  | .act (.saveSubscription _ row) _ _ => row.id = (rt i).subscriptionId →
      ∀ s ∈ pool.shared.db.subscriptions.rows, s.stripeId ≠ row.stripeId
  | _ => True

instance (rt : ι → Runtime σ) (pool : Pool ι Action (World σ) (Py Unit)) (i : ι) :
    Decidable (FirstToInsert rt pool i) := by
  unfold FirstToInsert
  split <;> infer_instance

/-- No handler has failed for good; what is stored is what was delivered; and once
a handler has succeeded there is exactly one row. -/
structure Converged (rt : ι → Runtime σ) (handler : ι → Mirroring) (start : Db)
    (stripeId : String) (pool : Pool ι Action (World σ) (Py Unit)) : Prop where
  handled : ∀ i result, pool.procs i = .done result → (handler i).Handled result
  rows : ∀ s ∈ pool.shared.db.subscriptions.rows, s.stripeId = some stripeId →
    ∃ i payload, (handler i).Delivers (rt i) payload ∧ Mirrors start payload s
  unique : (∃ i, pool.procs i = .done (.ok ())) →
    ∃! s, s ∈ pool.shared.db.subscriptions.rows ∧ s.stripeId = some stripeId

variable [DecidableEq ι] {rt : ι → Runtime σ} {handler : ι → Mirroring} {w : World σ}
variable {stripeId : String}

/-- In every run in which whoever inserts a row is the first to do so, the handlers
of a new subscription converge. -/
theorem firstSync_converges (hsound : ∀ i, (handler i).Sound (rt i) w.db stripeId)
    (hnew : ∀ s ∈ w.db.subscriptions.rows, s.stripeId ≠ some stripeId)
    (hfresh : Function.Injective fun i => (rt i).subscriptionId)
    (hunused : ∀ i, Unused (rt i).subscriptionId w.db) (schedule : List ι)
    (hfirst : Runs.Steps Pool.step (FirstToInsert rt) (mirroringPool rt handler w) schedule) :
    Runs.Always Pool.step (Converged rt handler w.db stripeId) (mirroringPool rt handler w)
      schedule := by
  let delivered : Json → Prop := fun payload => ∃ i, (handler i).Delivers (rt i) payload
  let inv : World σ → Prop := fun world => MirrorsOnly w.db stripeId delivered world.db
  let contract : ι → Contract Action (World σ) := fun i => firstSyncContract (rt i).subscriptionId
  let post : ι → World σ → Py Unit → Prop := fun i world result =>
    (handler i).Handled result ∧ (result = .ok () → Stored stripeId world.db)
  have hcompatible : Pool.Compatible contract := mirrorContract_compatible hfresh
  have hstable : ∀ i, Stable inv (contract i) (post i) := by
    intro i world world' result hrely _ hpost
    exact ⟨hpost.1, fun hok => (hpost.2 hok).of_persists hrely.2.1⟩
  have hrespects : ∀ (pool : Pool ι Action (World σ) (Py Unit)) i,
      FirstToInsert rt pool i → pool.Respects contract i := by
    intro pool i hinsert
    unfold FirstToInsert at hinsert
    unfold Pool.Respects
    cases hproc : pool.procs i with
    | done result => trivial
    | act label effect next =>
        rw [hproc] at hinsert
        cases label with
        | saveSubscription now row => exact hinsert
        | _ => trivial
  have hstart : (mirroringPool rt handler w).Meets inv contract post :=
    ⟨⟨rfl, rfl, fun s hs hstripe => absurd hstripe (hnew s hs)⟩,
      fun i => Mirroring.meets (hsound i) (fun payload h => ⟨i, h⟩) (hunused i)⟩
  have hmeets : Runs.Always Pool.step (fun pool => pool.Meets inv contract post)
      (mirroringPool rt handler w) schedule :=
    Runs.always_of_steps (fun pool i h hinsert =>
      (Pool.step_meets hcompatible hstable h (hrespects pool i hinsert)).1) hstart hfirst
  refine hmeets.mono fun pool h => ⟨fun i result hdone => (h.of_done hdone).1, ?_, ?_⟩
  · intro s hs hstripe
    obtain ⟨payload, ⟨i, hdelivers⟩, hmirrors⟩ := h.1.rows s hs hstripe
    exact ⟨i, payload, hdelivers, hmirrors⟩
  · rintro ⟨i, hdone⟩
    obtain ⟨s, hs, hstripe⟩ := (h.of_done hdone).2 rfl
    refine ⟨s, ⟨hs, hstripe⟩, fun s' hs' => ?_⟩
    -- the unique index leaves no second row
    exact pool.shared.db.subscriptions.eq_of_clash hs'.1 hs
      (Or.inr ⟨by rw [hs'.2]; rfl, hs'.2.trans hstripe.symm⟩)

/-! ## The other case -/

/-- The created event of a new subscription, and the checkout that bought it. -/
def createdAndCheckout : Bool → Mirroring
  | false => .event (subscriptionObject "sub_1" "cus_1" "price_basic" .active 1 100)
  | true => .checkout "sub_1"

/-- Stripe answers a retrieval with the same subscription. -/
def retrievable : StripeCall → Py Json
  | .subscriptionRetrieve _ =>
      .ok (subscriptionObject "sub_1" "cus_1" "price_basic" .active 1 100)
  | _ => .error (.connection "connection refused")

def createdAndCheckoutPool : Pool Bool Action (World Unit) (Py Unit) :=
  mirroringPool (fun i => sampleRuntime retrievable i.toNat 0) createdAndCheckout sampleWorld

/-- Both handlers look the subscription up before either inserts it. -/
def bothLookUp : List Bool := [true, false, false, false, true, true, true, false, true]

/-- The checkout inserts second, and is refused. -/
theorem bothLookUp_refused : (createdAndCheckoutPool.run bothLookUp).procs true =
    .done (.error (.integrity "duplicate key value violates unique constraint")) := by
  refine Program.result?_eq_some.mp ?_
  decide +kernel

/-- Not every run of two first syncs converges. -/
theorem not_always_converges : ¬ ∀ schedule : List Bool,
    Runs.Always Pool.step (Converged (fun i => sampleRuntime retrievable i.toNat 0)
      createdAndCheckout sampleDb "sub_1") createdAndCheckoutPool schedule := by
  intro hconverged
  have hhandled := (hconverged bothLookUp).final.handled true _ bothLookUp_refused
  exact absurd hhandled.1 (by decide)

/-- A subscription object of a known customer at a known price can be mirrored. -/
theorem subscriptionObject_mirrorable {db : Db} {id customer price : String}
    {status : SubscriptionStatus} {quantity periodEnd : Int} (hid : fitsVarchar 255 id = true)
    (hquantity : fitsInteger quantity = true) (hseat : quantity ≠ 0)
    (hend : 0 ≤ periodEnd ∧ periodEnd ≤ 253402300799)
    (hcustomer : (db.customerByStripeId customer).isSome = true)
    (hprice : (db.getPriceByStripeId price).isSome = true) :
    Mirrorable db id (subscriptionObject id customer price status quantity periodEnd) := by
  obtain ⟨customerRow, hcustomerRow⟩ := Option.isSome_iff_exists.mp hcustomer
  obtain ⟨priceRow, hpriceRow⟩ := Option.isSome_iff_exists.mp hprice
  exact ⟨_, _, customerRow, priceRow, ⟨subscriptionObject_decodes hid hquantity hseat hend,
    hcustomerRow, hpriceRow⟩, rfl⟩

theorem createdAndCheckout_sound (i : Bool) :
    (createdAndCheckout i).Sound (sampleRuntime retrievable i.toNat 0) sampleDb "sub_1" := by
  have hmirrorable : Mirrorable sampleDb "sub_1"
      (subscriptionObject "sub_1" "cus_1" "price_basic" .active 1 100) :=
    subscriptionObject_mirrorable (by decide) (by decide) (by decide) (by decide) (by decide)
      (by decide)
  cases i with
  | false =>
      refine ⟨fun payload hpayload => ?_, fun id s e hcheckout => nomatch hcheckout⟩
      have hsame : payload = _ := hpayload
      rw [hsame]
      exact hmirrorable
  | true =>
      refine ⟨fun payload hpayload => ?_, fun id s e _ hanswer => nomatch hanswer⟩
      obtain ⟨s, hanswer⟩ := hpayload
      cases hanswer
      exact hmirrorable

/-- One after the other, they converge. -/
theorem firstSync_converges_in_turn : Runs.Always Pool.step
    (Converged (fun i => sampleRuntime retrievable i.toNat 0) createdAndCheckout sampleDb "sub_1")
    createdAndCheckoutPool [false, false, false, false, true, true, true, true, true] := by
  have hfresh : Function.Injective fun i : Bool =>
      (sampleRuntime retrievable i.toNat 0).subscriptionId := by
    unfold Function.Injective
    decide
  have hsound : ∀ i, (createdAndCheckout i).Sound (sampleRuntime retrievable i.toNat 0)
      sampleWorld.db "sub_1" := createdAndCheckout_sound
  refine firstSync_converges hsound ?_ hfresh ?_ _ ?_
  · exact fun s hs => nomatch hs
  · exact fun i s hs => nomatch hs
  · decide +kernel

end Runs

end Saasmint
