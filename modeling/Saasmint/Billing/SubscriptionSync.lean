import Saasmint.Data.World

/-!
# Mirroring Stripe subscriptions and schedules

The handlers of the `customer.subscription.*` and `subscription_schedule.*`
events, over the decoded payloads Stripe sends.  Each is split as in the source
into a part that reads the payload, lookups, and one save.

`mirrorRow` is the row a created or updated event leads to, as a function of
the payload and of what the lookups returned.
-/

namespace Saasmint

open Atomic

variable {σ : Type}

/-! ## Reading a subscription payload -/

/-- What `sync_subscription_from_data` reads before its lookups. -/
structure SubscriptionData where
  customer : String
  firstItem : Json
  priceId : String
  stripeId : String
  periodStart : Int
  periodEnd : Int

/-- `_extract_period_window`: the item's period fields, else the subscription's. -/
def extractPeriodWindow (subData firstItem : Json) (stripeSubId : String) : Py (Int × Int) := do
  let periodStart ←
    firstItem.getD "current_period_start" (← subData.get "current_period_start")
  let periodEnd ← firstItem.getD "current_period_end" (← subData.get "current_period_end")
  if periodStart.isNull || periodEnd.isNull then
    throw (.webhookData ("Subscription " ++ stripeSubId ++ " missing current_period_start/end"))
  match periodStart.asInt?, periodEnd.asInt? with
  | some periodStart, some periodEnd => pure (periodStart, periodEnd)
  | _, _ => throw (.webhookData
      ("Subscription " ++ stripeSubId ++ " has non-integer current_period_start/end"))

/-- Several items are only logged, but the log line reads the id. -/
def warnSeveralItems (subData items : Json) : Py Unit := do
  if 1 < (← items.len) then
    let _ ← subData.item "id"

def readSubscriptionData (subData : Json) : Py SubscriptionData := do
  let customer := (← subData.item "customer").toStr
  let items ← (← subData.item "items").item "data"
  warnSeveralItems subData items
  let firstItem ← items.nth 0
  let priceId := (← (← firstItem.item "price").item "id").toStr
  let stripeSubId := (← subData.item "id").toStr
  let (periodStart, periodEnd) ← extractPeriodWindow subData firstItem stripeSubId
  return { customer, firstItem, priceId, stripeId := stripeSubId, periodStart, periodEnd }

/-- The columns a created or updated event mirrors by value. -/
structure MirroredFields where
  status : SubscriptionStatus
  seatLimit : Int
  trialEndsAt : Option Datetime
  currentPeriodStart : Datetime
  currentPeriodEnd : Datetime
  canceledAt : Option Datetime
  cancelAt : Option Datetime
  currency : String
deriving DecidableEq

def readMirroredFields (subData : Json) (d : SubscriptionData) : Py MirroredFields := do
  let status ← SubscriptionStatus.parse (← subData.item "status").toStr
  let seatLimit ← ((← d.firstItem.get "quantity").orElse (.int 1)).toInt
  let trialEndsAt ← tsToDt (← subData.get "trial_end")
  let currentPeriodStart ← fromTimestamp d.periodStart
  let currentPeriodEnd ← fromTimestamp d.periodEnd
  let canceledAt ← tsToDt (← subData.get "canceled_at")
  let cancelAt ← tsToDt (← subData.get "cancel_at")
  let price ← d.firstItem.item "price"
  let currency := ((← subData.get "currency").orElse
    ((← price.get "currency").orElse (.str "usd"))).toStr
  return { status, seatLimit, trialEndsAt, currentPeriodStart, currentPeriodEnd, canceledAt,
           cancelAt, currency := lower currency }

/-- The row with these mirrored columns: a stored row keeps its keys and its
pending plan change, a new one takes a fresh id. -/
def mirrorRow (freshId : UUID) (now : Datetime) (stripeId : String) (customer : StripeCustomer)
    (planId : UUID) (existing : Option Subscription) (fields : MirroredFields) : Subscription where
  id := (existing.map Subscription.id).getD freshId
  stripeId := some stripeId
  stripeCustomerId := some customer.id
  userId := customer.userId
  status := fields.status
  planId := planId
  seatLimit := fields.seatLimit
  trialEndsAt := fields.trialEndsAt
  currentPeriodStart := fields.currentPeriodStart
  currentPeriodEnd := fields.currentPeriodEnd
  canceledAt := fields.canceledAt
  cancelAt := fields.cancelAt
  scheduledPlanId := existing.bind Subscription.scheduledPlanId
  scheduledChangeAt := existing.bind Subscription.scheduledChangeAt
  currency := fields.currency
  createdAt := (existing.map Subscription.createdAt).getD now

/-- `_build_subscription_row`. -/
def buildSubscriptionRow (rt : Runtime σ) (subData : Json) (d : SubscriptionData)
    (customer : StripeCustomer) (planId : UUID) (existing : Option Subscription) :
    Py Subscription := do
  let fields ← readMirroredFields subData d
  return mirrorRow rt.subscriptionId rt.now d.stripeId customer planId existing fields

/-! ## Subscription events -/

open Handler

def syncSubscriptionFromData (rt : Runtime σ) (subData : Json) : Handler σ Unit := do
  let d ← lift (readSubscriptionData subData)
  let customer ← query fun db => db.customerByStripeId d.customer
  let planPrice ← query fun db => db.getPriceByStripeId d.priceId
  let existing ← readSubscription fun db => db.subscriptionByStripeId d.stripeId
  match customer with
  | none => throw (.webhookData ("Unknown customer " ++ d.customer))
  | some customer =>
      match planPrice with
      | none => throw (.webhookData ("Unknown price " ++ d.priceId))
      | some planPrice =>
          let row ← lift
            (buildSubscriptionRow rt subData d customer planPrice.planId existing)
          saveSubscription rt.now row

/-! ## What a created or updated event saves -/

/-- The row the sync saves, as a function of the database it finds. -/
def syncRow (rt : Runtime σ) (subData : Json) (db : Db) : Py Subscription := do
  let d ← readSubscriptionData subData
  match db.customerByStripeId d.customer with
  | none => throw (.webhookData ("Unknown customer " ++ d.customer))
  | some customer =>
      match db.getPriceByStripeId d.priceId with
      | none => throw (.webhookData ("Unknown price " ++ d.priceId))
      | some planPrice =>
          let existing := db.subscriptionByStripeId d.stripeId
          buildSubscriptionRow rt subData d customer planPrice.planId existing

theorem exec_syncSubscriptionFromData (rt : Runtime σ) (subData : Json) (w : World σ) :
    Fallible.exec (syncSubscriptionFromData rt subData) w =
      settle w (do
        let row ← syncRow rt subData w.db
        (fun db => ((), db)) <$> w.db.saveSubscription rt.now row) := by
  unfold syncSubscriptionFromData syncRow
  simp only [Fallible.exec_bind, exec_lift]
  cases readSubscriptionData subData with
  | error e => rfl
  | ok d =>
      simp only [Fallible.resume_ok, Fallible.exec_bind, exec_query, exec_readSubscription,
        ok_bind]
      cases w.db.customerByStripeId d.customer with
      | none => rfl
      | some customer =>
          cases w.db.getPriceByStripeId d.priceId with
          | none => rfl
          | some planPrice =>
              simp only [Fallible.exec_bind, exec_lift]
              cases buildSubscriptionRow rt subData d customer planPrice.planId
                (w.db.subscriptionByStripeId d.stripeId) with
              | error e => rfl
              | ok row => rfl

/-- A payload that can be mirrored: it decodes, and its columns fit. -/
structure Decodes (subData : Json) (d : SubscriptionData) (fields : MirroredFields) : Prop where
  read : readSubscriptionData subData = .ok d
  mirrored : readMirroredFields subData d = .ok fields
  fits : (fitsVarchar 255 d.stripeId && fitsInteger fields.seatLimit &&
    fitsVarchar 3 fields.currency) = true

/-- A payload that `db` can mirror: it decodes, and its customer and its price are
known. -/
structure Resolves (db : Db) (subData : Json) (d : SubscriptionData) (fields : MirroredFields)
    (customer : StripeCustomer) (planPrice : PlanPrice) : Prop extends
    Decodes subData d fields where
  customer : db.customerByStripeId d.customer = some customer
  price : db.getPriceByStripeId d.priceId = some planPrice

/-- A payload decodes in one way. -/
theorem Decodes.unique {subData : Json} {d d' : SubscriptionData} {fields fields' : MirroredFields}
    (h : Decodes subData d fields) (h' : Decodes subData d' fields') : d = d' ∧ fields = fields' := by
  have hd : d = d' := Except.ok.inj (h.read.symm.trans h'.read)
  subst hd
  exact ⟨rfl, Except.ok.inj (h.mirrored.symm.trans h'.mirrored)⟩

theorem syncRow_of_resolves {db : Db} {subData : Json} {d : SubscriptionData}
    {fields : MirroredFields} {customer : StripeCustomer} {planPrice : PlanPrice}
    (h : Resolves db subData d fields customer planPrice) (rt : Runtime σ) :
    syncRow rt subData db = .ok (mirrorRow rt.subscriptionId rt.now d.stripeId customer
      planPrice.planId (db.subscriptionByStripeId d.stripeId) fields) := by
  simp [syncRow, h.read, h.customer, h.price, buildSubscriptionRow, h.mirrored]

theorem syncRow_eq_ok {rt : Runtime σ} {subData : Json} {db : Db} {row : Subscription}
    (h : syncRow rt subData db = .ok row) :
    ∃ d customer planPrice fields, readSubscriptionData subData = .ok d ∧
      db.customerByStripeId d.customer = some customer ∧
      db.getPriceByStripeId d.priceId = some planPrice ∧
      readMirroredFields subData d = .ok fields ∧
      row = mirrorRow rt.subscriptionId rt.now d.stripeId customer planPrice.planId
        (db.subscriptionByStripeId d.stripeId) fields := by
  obtain ⟨d, hd, h⟩ := bind_eq_ok.mp h
  split at h
  next => cases h
  next customer hcustomer =>
      split at h
      next => cases h
      next planPrice hprice =>
          obtain ⟨fields, hfields, hrow⟩ := bind_eq_ok.mp h
          cases hrow
          exact ⟨d, customer, planPrice, fields, hd, hcustomer, hprice, hfields, rfl⟩

/-- The row of a payload that can be mirrored is always stored. -/
theorem saveSubscription_mirrorRow {subData : Json} {d : SubscriptionData}
    {fields : MirroredFields} (h : Decodes subData d fields) {db : Db}
    {customer : StripeCustomer} {planPrice : PlanPrice} (freshId : UUID) (now : Datetime)
    (hcustomer : customer ∈ db.customers.rows) (hprice : planPrice ∈ db.planPrices.rows) :
    ∃ db', db.saveSubscription now (mirrorRow freshId now d.stripeId customer planPrice.planId
      (db.subscriptionByStripeId d.stripeId) fields) = .ok db' := by
  have hfits := h.fits
  simp only [Bool.and_eq_true] at hfits
  refine Db.saveSubscription_isOk ?_ (Or.inr rfl) ⟨?_, ?_, ?_, ?_⟩ ?_
  · simp [Subscription.fits, mirrorRow, hfits]
  · exact refers_some.mpr ⟨customer, hcustomer, rfl⟩
  · exact (db.integral.customers customer hcustomer).1
  · exact db.integral.planPrices planPrice hprice
  · cases hexisting : db.subscriptionByStripeId d.stripeId with
    | none => exact refers_none _ _
    | some existing =>
        have hmem := (Db.subscriptionByStripeId_eq_some.mp hexisting).1
        exact (db.integral.subscriptions existing hmem).2.2.2
  · intro row hrow hid hsame
    have hstripe : row.stripeId = some d.stripeId := hsame.2
    have hfound := Db.subscriptionByStripeId_eq_some.mpr ⟨hrow, hstripe⟩
    exact hid (by simp [mirrorRow, hfound])

/-- What a created or updated event does, alone: it stores the mirror of its payload,
or it fails and changes nothing, and it fails only when the payload cannot be
mirrored. -/
theorem exec_sync_cases (rt : Runtime σ) (subData : Json) (w : World σ) :
    (∃ d fields customer planPrice db', Resolves w.db subData d fields customer planPrice ∧
      w.db.saveSubscription rt.now (mirrorRow rt.subscriptionId rt.now d.stripeId customer
        planPrice.planId (w.db.subscriptionByStripeId d.stripeId) fields) = .ok db' ∧
      Fallible.exec (syncSubscriptionFromData rt subData) w = (.ok (), { w with db := db' })) ∨
    ((∃ e, Fallible.exec (syncSubscriptionFromData rt subData) w = (.error e, w)) ∧
      ∀ d fields customer planPrice, ¬ Resolves w.db subData d fields customer planPrice) := by
  rw [exec_syncSubscriptionFromData]
  by_cases hresolves : ∃ d fields customer planPrice,
      Resolves w.db subData d fields customer planPrice
  · left
    obtain ⟨d, fields, customer, planPrice, h⟩ := hresolves
    obtain ⟨db', hsave⟩ := saveSubscription_mirrorRow h.toDecodes rt.subscriptionId rt.now
      (Db.customerByStripeId_eq_some.mp h.customer).1 (Db.getPriceByStripeId_eq_some.mp h.price).1
    refine ⟨d, fields, customer, planPrice, db', h, hsave, ?_⟩
    rw [syncRow_of_resolves h, ok_bind, hsave]
    rfl
  · right
    have hnone : ∀ d fields customer planPrice,
        ¬ Resolves w.db subData d fields customer planPrice :=
      fun d fields customer planPrice h => hresolves ⟨d, fields, customer, planPrice, h⟩
    refine ⟨?_, hnone⟩
    cases hrow : syncRow rt subData w.db with
    | error e => exact ⟨e, rfl⟩
    | ok row =>
        rw [ok_bind]
        cases hsave : w.db.saveSubscription rt.now row with
        | error e => exact ⟨e, rfl⟩
        | ok db' =>
            -- a row that is stored fits, so its payload could be mirrored
            obtain ⟨d, customer, planPrice, fields, hread, hcustomer, hprice, hmirrored, rfl⟩ :=
              syncRow_eq_ok hrow
            have hfits := (Db.saveSubscription_eq_ok hsave).1
            exact absurd ⟨⟨hread, hmirrored, by simpa [Subscription.fits, mirrorRow] using hfits⟩,
              hcustomer, hprice⟩ (hnone d fields customer planPrice)

/-- `readSubscriptionData` takes the Stripe id from the payload's `id`. -/
theorem readSubscriptionData_stripeId {subData : Json} {d : SubscriptionData}
    (h : readSubscriptionData subData = .ok d) :
    Json.toStr <$> subData.item "id" = .ok d.stripeId := by
  unfold readSubscriptionData at h
  obtain ⟨customer, -, h⟩ := bind_eq_ok.mp h
  obtain ⟨items, -, h⟩ := bind_eq_ok.mp h
  obtain ⟨data, -, h⟩ := bind_eq_ok.mp h
  obtain ⟨_, -, h⟩ := bind_eq_ok.mp h
  obtain ⟨firstItem, -, h⟩ := bind_eq_ok.mp h
  obtain ⟨price, -, h⟩ := bind_eq_ok.mp h
  obtain ⟨priceId, -, h⟩ := bind_eq_ok.mp h
  obtain ⟨id, hid, h⟩ := bind_eq_ok.mp h
  obtain ⟨period, -, h⟩ := bind_eq_ok.mp h
  cases h
  rw [hid]
  rfl

/-- The payload is mirrored: another mirror of it is the row that is stored. -/
def Mirrored (db : Db) (subData : Json) : Prop :=
  ∃ d fields customer planPrice row, Resolves db subData d fields customer planPrice ∧
    row ∈ db.subscriptions.rows ∧
    ∀ freshId now, mirrorRow freshId now d.stripeId customer planPrice.planId (some row) fields = row

theorem Resolves.of_save {db db' : Db} {subData : Json} {d : SubscriptionData}
    {fields : MirroredFields} {customer : StripeCustomer} {planPrice : PlanPrice} {now : Datetime}
    {s : Subscription} (h : Resolves db subData d fields customer planPrice)
    (hsave : db.saveSubscription now s = .ok db') :
    Resolves db' subData d fields customer planPrice := by
  have hframe := Db.saveSubscription_frame hsave
  have hcustomers : db'.customers = db.customers := by rw [hframe]
  have hplanPrices : db'.planPrices = db.planPrices := by rw [hframe]
  refine ⟨h.toDecodes, ?_, ?_⟩
  · rw [Db.customerByStripeId, hcustomers]
    exact h.customer
  · rw [Db.getPriceByStripeId, hplanPrices]
    exact h.price

/-- A payload stays mirrored while the row of its subscription is left alone. -/
theorem Mirrored.of_save {db db' : Db} {subData : Json} {now : Datetime} {s : Subscription}
    (h : Mirrored db subData) (hsave : db.saveSubscription now s = .ok db')
    (hother : ∀ d row, readSubscriptionData subData = .ok d → row ∈ db.subscriptions.rows →
      row.stripeId = some d.stripeId → row.id ≠ s.id) : Mirrored db' subData := by
  obtain ⟨d, fields, customer, planPrice, row, hresolves, hrow, hagain⟩ := h
  have hstripe : row.stripeId = some d.stripeId := by
    rw [← hagain row.id 0]
    rfl
  have hkept : row ∈ db'.subscriptions.rows :=
    (Db.mem_saveSubscription hsave).mpr (Or.inl ⟨hrow, hother d row hresolves.read hrow hstripe⟩)
  exact ⟨d, fields, customer, planPrice, row, hresolves.of_save hsave, hkept, hagain⟩

theorem Mirrored.withEvents {db : Db} {subData : Json} (h : Mirrored db subData)
    (events : Relational.Table StripeEvent) : Mirrored (db.withEvents events) subData := by
  obtain ⟨d, fields, customer, planPrice, row, hresolves, hrow, hagain⟩ := h
  exact ⟨d, fields, customer, planPrice, row,
    ⟨hresolves.toDecodes, hresolves.customer, hresolves.price⟩, hrow, hagain⟩

/-- A mirror that succeeds leaves its payload mirrored. -/
theorem exec_sync_mirrored {rt : Runtime σ} {subData : Json} {w t : World σ}
    (h : Fallible.exec (syncSubscriptionFromData rt subData) w = (.ok (), t)) :
    Mirrored t.db subData ∧ ∃ d fields customer planPrice db',
      Resolves w.db subData d fields customer planPrice ∧
      w.db.saveSubscription rt.now (mirrorRow rt.subscriptionId rt.now d.stripeId customer
        planPrice.planId (w.db.subscriptionByStripeId d.stripeId) fields) = .ok db' ∧
      t = { w with db := db' } := by
  rcases exec_sync_cases rt subData w with
    ⟨d, fields, customer, planPrice, db', hresolves, hsave, hexec⟩ | ⟨⟨e, hexec⟩, -⟩
  · rw [hexec] at h
    cases h
    refine ⟨?_, d, fields, customer, planPrice, db', hresolves, hsave, rfl⟩
    obtain ⟨createdAt, hsaved⟩ := Db.exists_saved hsave
    exact ⟨d, fields, customer, planPrice, _, hresolves.of_save hsave, hsaved,
      fun _ _ => rfl⟩
  · rw [hexec] at h
    cases h

/-- A payload that is mirrored is mirrored again without a change. -/
theorem exec_sync_of_mirrored {rt : Runtime σ} {subData : Json} {w : World σ}
    (h : Mirrored w.db subData) :
    Fallible.exec (syncSubscriptionFromData rt subData) w = (.ok (), w) := by
  obtain ⟨d, fields, customer, planPrice, row, hresolves, hrow, hagain⟩ := h
  have hself := hagain rt.subscriptionId rt.now
  have hstripe : row.stripeId = some d.stripeId := by
    rw [← hself]
    rfl
  have hfits : row.fits = true := by
    rw [← hself]
    simpa [Subscription.fits, mirrorRow] using hresolves.fits
  have hfound : w.db.subscriptionByStripeId d.stripeId = some row :=
    Db.subscriptionByStripeId_eq_some.mpr ⟨hrow, hstripe⟩
  rw [exec_syncSubscriptionFromData, syncRow_of_resolves hresolves, ok_bind, hfound, hself,
    Db.saveSubscription_self rt.now hrow hfits]
  rfl

/-! ## Deletions -/

/-- `_on_subscription_deleted`; a team subscription also takes its org along. -/
def onSubscriptionDeleted (rt : Runtime σ) (subData : Json) : Handler σ Unit := do
  let stripeSubId := (← lift (subData.item "id")).toStr
  match ← readSubscription fun db => db.subscriptionByStripeId stripeSubId with
  | none => return
  | some existing =>
      saveSubscription rt.now
        { existing with status := .canceled, canceledAt := some rt.now }
      match existing.userId, existing.stripeCustomerId with
      | none, some customerId =>
          match ← query fun db => db.customerById customerId with
          | some customer =>
              match customer.orgId with
              | some orgId => enqueue rt (.deleteOrgOnSubscriptionCancel orgId)
              | none => return
          | none => return
      | _, _ => return

/-- What a deleted event does, alone: nothing, or the row of its subscription is
canceled, even if the org task cannot be enqueued afterwards. -/
theorem exec_deleted_cases {subData : Json} {stripeId : String}
    (hid : Json.toStr <$> subData.item "id" = .ok stripeId) (rt : Runtime σ) (w : World σ) :
    (∃ result, Fallible.exec (onSubscriptionDeleted rt subData) w = (result, w) ∧
      (result = .ok () → w.db.subscriptionByStripeId stripeId = none)) ∨
    ∃ existing db' queue result, w.db.subscriptionByStripeId stripeId = some existing ∧
      w.db.saveSubscription rt.now
        { existing with status := .canceled, canceledAt := some rt.now } = .ok db' ∧
      Fallible.exec (onSubscriptionDeleted rt subData) w =
        (result, { w with db := db', queue := queue }) := by
  unfold onSubscriptionDeleted
  cases hitem : subData.item "id" with
  | error e =>
      rw [hitem] at hid
      cases hid
  | ok id =>
      rw [hitem, map_ok] at hid
      cases hid
      simp only [lift_ok_bind, Fallible.exec_bind, exec_readSubscription, Fallible.resume_ok]
      cases hfound : w.db.subscriptionByStripeId id.toStr with
      | none => exact Or.inl ⟨.ok (), rfl, fun _ => rfl⟩
      | some existing =>
          simp only [Fallible.exec_bind, exec_saveSubscription]
          cases hsave : w.db.saveSubscription rt.now
              { existing with status := .canceled, canceledAt := some rt.now } with
          | error e => exact Or.inl ⟨.error e, rfl, nofun⟩
          | ok db' =>
              right
              simp only [map_ok, settle_ok, Fallible.resume_ok]
              -- whatever becomes of the org task, the row has been saved
              split
              · simp only [Fallible.exec_bind, exec_query, Fallible.resume_ok]
                split
                · split
                  · rw [exec_enqueue]
                    split
                    · exact ⟨existing, db', _, _, rfl, hsave, rfl⟩
                    · exact ⟨existing, db', _, _, rfl, hsave, rfl⟩
                  · exact ⟨existing, db', _, _, rfl, hsave, rfl⟩
                · exact ⟨existing, db', _, _, rfl, hsave, rfl⟩
              · exact ⟨existing, db', _, _, rfl, hsave, rfl⟩

/-! ## Schedule events -/

/-- `_parse_schedule_pending_change`: the next phase's price and the boundary
before it, or nothing to mirror. -/
def parseSchedulePendingChange (scheduleData : Json) : Py (Option (String × Datetime)) := do
  let _ ← scheduleData.get "id"
  let phases := (← scheduleData.get "phases").orElse (.arr [])
  if (← phases.len) < 2 then return none
  let currentPhase ← phases.nth 0
  let nextPhase ← phases.nth 1
  let nextItems := (← nextPhase.get "items").orElse (.arr [])
  if !nextItems.truthy then return none
  let nextPrice ← (← nextItems.nth 0).get "price"
  let nextPriceId ← match nextPrice with
    | .obj _ => nextPrice.get "id"
    | price => pure price
  if !nextPriceId.truthy then return none
  match ← tsToDt ((← currentPhase.get "end_date").orElse (← nextPhase.get "start_date")) with
  | none => return none
  | some changeAt => return some (nextPriceId.toStr, changeAt)

/-- `_on_subscription_schedule_upserted`. -/
def onSubscriptionScheduleUpserted (rt : Runtime σ) (scheduleData : Json) : Handler σ Unit := do
  let stripeSubId ← lift (scheduleData.get "subscription")
  if !stripeSubId.truthy then return
  match ← lift (parseSchedulePendingChange scheduleData) with
  | none => return
  | some (nextPriceId, changeAt) =>
      match ← query fun db => db.getPriceByStripeId nextPriceId with
      | none => return
      | some planPrice =>
          match ← readSubscription fun db => db.subscriptionByStripeId stripeSubId.toStr with
          | none => return
          | some existing =>
              if existing.scheduledPlanId = some planPrice.planId ∧
                  existing.scheduledChangeAt = some changeAt then return
              saveSubscription rt.now
                { existing with
                  scheduledPlanId := some planPrice.planId
                  scheduledChangeAt := some changeAt }

/-- `_on_subscription_schedule_cleared`. -/
def onSubscriptionScheduleCleared (rt : Runtime σ) (scheduleData : Json) : Handler σ Unit := do
  let stripeSubId ← lift (scheduleData.get "subscription")
  if !stripeSubId.truthy then return
  match ← readSubscription fun db => db.subscriptionByStripeId stripeSubId.toStr with
  | none => return
  | some existing =>
      if existing.scheduledPlanId = none ∧ existing.scheduledChangeAt = none then return
      saveSubscription rt.now
        { existing with scheduledPlanId := none, scheduledChangeAt := none }

end Saasmint
