import Saasmint.Billing.Sessions
import Saasmint.Orgs.Replay

/-!
# Webhook replay

`deliver` processes an event and runs the tasks the processing enqueues.  Of an
event that is delivered twice, `replay_iff` says when the second delivery leaves
the business state of the first: always, unless it is a team checkout whose
second run cancels another subscription of the buyer.

A handler that finds its own effect in the database changes nothing: a mirrored
payload is mirrored as it stands, a pending change that is shown is skipped, and
so is a session that has a ledger row.  A deletion finds no row, because the org
is gone, or stamps the row it has canceled again.
-/

namespace Saasmint

open Atomic Handler Relational

variable {σ : Type}

/-! ## Deliveries -/

def runTasks (rt : Runtime σ) : List Task → World σ → Py Unit × World σ
  | [], w => (.ok (), w)
  | task :: rest, w =>
      match Fallible.exec (runTask rt task) w with
      | (.ok (), t) => runTasks rt rest t
      | (.error e, t) => (.error e, t)

/-- Processes the event, and runs the tasks this enqueues; those of others wait. -/
def deliver (rt : Runtime σ) (event : Json) (stripeId : String) (w : World σ) :
    Py Unit × World σ :=
  match Fallible.exec (processStoredEvent rt event stripeId) { w with queue := [] } with
  | (.ok (), t) => runTasks rt t.queue { t with queue := [] }
  | (.error e, t) => (.error e, t)

/-- A delivery that succeeds has dispatched the event, marked it and run the tasks. -/
theorem deliver_ok {rt : Runtime σ} {event : Json} {stripeId : String} {w w₁ : World σ}
    (h : deliver rt event stripeId w = (.ok (), w₁)) :
    ∃ (t : World σ) (events : Table StripeEvent),
      Fallible.exec (dispatch rt event) { w with queue := [] } = (.ok (), t) ∧
      runTasks rt t.queue { t with db := t.db.withEvents events, queue := [] } = (.ok (), w₁) := by
  unfold deliver at h
  rw [exec_processStoredEvent] at h
  rcases hdispatch : Fallible.exec (dispatch rt event) { w with queue := [] } with ⟨_ | _, t⟩
  · rw [hdispatch] at h
    cases h
  · rw [hdispatch] at h
    exact ⟨t, _, rfl, h⟩

/-! ## The business state -/

/-- The row without the time at which the handler of the deletion has stamped it. -/
def unstamped (deleted : Option String) (s : Subscription) : Subscription :=
  if sameValue s.stripeId deleted then { s with canceledAt := none } else s

/-- The business state of two databases: equal tables, but for the events and for
the cancellation time of a deleted subscription. -/
structure SameBusiness (deleted : Option String) (db db' : Db) : Prop where
  subscriptions : db'.subscriptions.rows.map (unstamped deleted) =
    db.subscriptions.rows.map (unstamped deleted)
  others : db'.toTables =
    { db.toTables with subscriptions := db'.subscriptions, events := db'.events }

theorem SameBusiness.withEvents (deleted : Option String) (db : Db) (events : Table StripeEvent) :
    SameBusiness deleted db (db.withEvents events) :=
  ⟨rfl, rfl⟩

theorem unstamped_none (s : Subscription) : unstamped none s = s := by
  have hne : ¬ sameValue s.stripeId none := by
    rintro ⟨hsome, hnone⟩
    simp [hnone] at hsome
  exact if_neg hne

/-! ## Handlers that replay -/

/-- `p'` after `p` changes the subscriptions if `another` holds, and nothing
otherwise; and neither enqueues a task. -/
def Replays (accounts : σ → Prop) (another : Prop) (p p' : Handler σ Unit) (w : World σ) : Prop :=
  ∀ t, Fallible.exec p w = (.ok (), t) → t.queue = w.queue ∧ accounts t.stripe ∧
    ∀ (w' t' : World σ) (events : Table StripeEvent), w'.db = t.db.withEvents events →
      accounts w'.stripe → Fallible.exec p' w' = (.ok (), t') →
      t'.queue = w'.queue ∧ (another → t'.db.subscriptions ≠ w'.db.subscriptions) ∧
        (¬ another → t'.db = w'.db)

section Replays

variable {accounts : σ → Prop} {rt rt' : Runtime σ} {w : World σ}

/-- A handler that changes the database only, and then changes it no more. -/
theorem Replays.of_settled {p p' : Handler σ Unit} (haccount : accounts w.stripe)
    (h : ∀ t, Fallible.exec p w = (.ok (), t) → t = { w with db := t.db } ∧
      ∀ (w' t' : World σ) (events : Table StripeEvent), w'.db = t.db.withEvents events →
        Fallible.exec p' w' = (.ok (), t') → t' = w') : Replays accounts False p p' w := by
  intro t hexec
  obtain ⟨hframe, hagain⟩ := h t hexec
  refine ⟨by rw [hframe], by rw [hframe]; exact haccount, fun w' t' events hdb _ hexec' => ?_⟩
  have hsame := hagain w' t' events hdb hexec'
  exact ⟨by rw [hsame], fun h => h.elim, fun _ => by rw [hsame]⟩

theorem replays_pure (haccount : accounts w.stripe) :
    Replays accounts False (pure ()) (pure ()) w :=
  Replays.of_settled haccount fun t h => by
    cases h
    exact ⟨rfl, fun w' t' _ _ h' => by cases h'; rfl⟩

/-- An invoice is only logged. -/
theorem invoice_replays (haccount : accounts w.stripe) (object : Json) :
    Replays accounts False (do let _ ← lift (object.get "id")) (do let _ ← lift (object.get "id"))
      w := by
  rcases object.get "id" with e | id
  · intro t h
    cases h
  · exact replays_pure haccount

/-- A created or updated event. -/
theorem sync_replays (haccount : accounts w.stripe) (subData : Json) :
    Replays accounts False (syncSubscriptionFromData rt subData)
      (syncSubscriptionFromData rt' subData) w := by
  refine Replays.of_settled haccount fun t h => ?_
  obtain ⟨hmirrored, -, -, -, -, db', -, -, rfl⟩ := exec_sync_mirrored h
  refine ⟨rfl, fun w' t' events hdb h' => ?_⟩
  have hmirrored' : Mirrored w'.db subData := hdb ▸ hmirrored.withEvents events
  rw [exec_sync_of_mirrored hmirrored'] at h'
  cases h'
  rfl

/-! ## Schedule events -/

/-- The pending change of a subscription, by its Stripe id, that an event asks for. -/
abbrev Pending := String × Option (UUID × Datetime)

/-- What a created or updated event of a schedule asks for. -/
def upsertedPending (scheduleData : Json) (db : Db) : Py (Option Pending) := do
  let stripeSubId ← scheduleData.get "subscription"
  if !stripeSubId.truthy then return none
  match ← parseSchedulePendingChange scheduleData with
  | none => return none
  | some (nextPriceId, changeAt) =>
      match db.getPriceByStripeId nextPriceId with
      | none => return none
      | some planPrice => return some (stripeSubId.toStr, some (planPrice.planId, changeAt))

/-- What the end of a schedule asks for. -/
def clearedPending (scheduleData : Json) : Py (Option Pending) := do
  let stripeSubId ← scheduleData.get "subscription"
  if !stripeSubId.truthy then return none
  return some (stripeSubId.toStr, none)

/-- The save after which the row shows the pending change, if it does not yet. -/
def showPending (rt : Runtime σ) : Option Pending → Handler σ Unit
  | none => return
  | some (stripeSubId, change) => do
      match ← readSubscription fun db => db.subscriptionByStripeId stripeSubId with
      | none => return
      | some existing =>
          if existing.scheduledPlanId = change.map Prod.fst ∧
              existing.scheduledChangeAt = change.map Prod.snd then return
          saveSubscription rt.now
            { existing with
              scheduledPlanId := change.map Prod.fst
              scheduledChangeAt := change.map Prod.snd }

theorem exec_upserted_eq (scheduleData : Json) :
    Fallible.exec (onSubscriptionScheduleUpserted rt scheduleData) w =
      Fallible.exec (do showPending rt (← lift (upsertedPending scheduleData w.db))) w := by
  unfold onSubscriptionScheduleUpserted upsertedPending
  rcases scheduleData.get "subscription" with e | stripeSubId
  · rfl
  simp only [lift_ok_bind, ok_bind]
  split
  · rfl
  rcases parseSchedulePendingChange scheduleData with e | _ | ⟨nextPriceId, changeAt⟩
  · rfl
  · rfl
  simp only [lift_ok_bind, ok_bind, Fallible.exec_bind, exec_query, Fallible.resume_ok]
  cases w.db.getPriceByStripeId nextPriceId with
  | none => rfl
  | some planPrice => rfl

theorem exec_cleared_eq (scheduleData : Json) :
    Fallible.exec (onSubscriptionScheduleCleared rt scheduleData) w =
      Fallible.exec (do showPending rt (← lift (clearedPending scheduleData))) w := by
  unfold onSubscriptionScheduleCleared clearedPending
  rcases scheduleData.get "subscription" with e | stripeSubId
  · rfl
  simp only [lift_ok_bind, ok_bind]
  split
  · rfl
  · rfl

/-- A subscription shows a pending change, or there is no row to show it. -/
def Shown (db : Db) : Option Pending → Prop
  | none => True
  | some (stripeSubId, change) => ∀ row, db.subscriptionByStripeId stripeSubId = some row →
      row.scheduledPlanId = change.map Prod.fst ∧ row.scheduledChangeAt = change.map Prod.snd

theorem exec_showPending_shown {pending : Option Pending} (h : Shown w.db pending) :
    Fallible.exec (showPending rt pending) w = (.ok (), w) := by
  rcases pending with _ | ⟨stripeSubId, change⟩
  · rfl
  · simp only [showPending, Fallible.exec_bind, exec_readSubscription, Fallible.resume_ok]
    cases hfound : w.db.subscriptionByStripeId stripeSubId with
    | none => rfl
    | some row =>
        simp only [h row hfound, and_self, if_true]
        rfl

/-- A save shows the pending change, and leaves the catalog alone. -/
theorem exec_showPending {pending : Option Pending} {t : World σ}
    (h : Fallible.exec (showPending rt pending) w = (.ok (), t)) :
    t = { w with db := t.db } ∧ t.db.planPrices = w.db.planPrices ∧ Shown t.db pending := by
  rcases pending with _ | ⟨stripeSubId, change⟩
  · cases h
    exact ⟨rfl, rfl, trivial⟩
  · simp only [showPending, Fallible.exec_bind, exec_readSubscription, Fallible.resume_ok] at h
    cases hfound : w.db.subscriptionByStripeId stripeSubId with
    | none =>
        rw [hfound] at h
        cases h
        refine ⟨rfl, rfl, fun row hrow => ?_⟩
        cases hfound.symm.trans hrow
    | some existing =>
        rw [hfound] at h
        simp only at h
        split at h
        next hsame =>
            cases h
            refine ⟨rfl, rfl, fun row hrow => ?_⟩
            obtain rfl := Option.some.inj (hfound.symm.trans hrow)
            exact hsame
        next =>
            rw [exec_saveSubscription] at h
            cases hsave : w.db.saveSubscription rt.now { existing with
                scheduledPlanId := change.map Prod.fst
                scheduledChangeAt := change.map Prod.snd } with
            | error e =>
                rw [hsave] at h
                cases h
            | ok db' =>
                rw [hsave] at h
                cases h
                refine ⟨rfl, by rw [Db.saveSubscription_frame hsave], fun row hrow => ?_⟩
                obtain ⟨createdAt, hsaved⟩ := Db.exists_saved hsave
                have hstripe := (Db.subscriptionByStripeId_eq_some.mp hfound).2
                have hsaved' := Db.subscriptionByStripeId_eq_some.mpr ⟨hsaved, hstripe⟩
                obtain rfl := Option.some.inj (hsaved'.symm.trans hrow)
                exact ⟨rfl, rfl⟩

/-- A stored row can be made to show any pending change to a plan. -/
theorem exec_showPending_stored {stripeSubId : String} {change : Option (UUID × Datetime)}
    {existing : Subscription} (hfound : w.db.subscriptionByStripeId stripeSubId = some existing)
    (hfits : existing.fits = true)
    (hplan : Refers (change.map Prod.fst) Plan.id w.db.plans.rows) :
    ∃ db', Fallible.exec (showPending rt (some (stripeSubId, change))) w =
        (.ok (), { w with db := db' }) ∧
      ∃ row, db'.subscriptionByStripeId stripeSubId = some row := by
  by_cases hsame : existing.scheduledPlanId = change.map Prod.fst ∧
      existing.scheduledChangeAt = change.map Prod.snd
  · refine ⟨w.db, exec_showPending_shown fun row hrow => ?_, existing, hfound⟩
    obtain rfl := Option.some.inj (hfound.symm.trans hrow)
    exact hsame
  · obtain ⟨hmem, hstripe⟩ := Db.subscriptionByStripeId_eq_some.mp hfound
    obtain ⟨db', hsave⟩ := Db.saveSubscription_pending_isOk rt.now hmem hfits
      (change.map Prod.snd) hplan
    obtain ⟨createdAt, hsaved⟩ := Db.exists_saved hsave
    refine ⟨db', ?_, _, Db.subscriptionByStripeId_eq_some.mpr ⟨hsaved, hstripe⟩⟩
    simp only [showPending, Fallible.exec_bind, exec_readSubscription, Fallible.resume_ok, hfound,
      if_neg hsame, exec_saveSubscription, hsave]
    rfl

/-- A pending change that has been shown is skipped, if it is still asked for. -/
theorem pending_replays (haccount : accounts w.stripe) {p p' : Handler σ Unit}
    (pending : Db → Py (Option Pending))
    (hp : ∀ w, Fallible.exec p w =
      Fallible.exec (do showPending rt (← lift (pending w.db))) w)
    (hp' : ∀ w, Fallible.exec p' w =
      Fallible.exec (do showPending rt' (← lift (pending w.db))) w)
    (hcatalog : ∀ db db', db'.planPrices = db.planPrices → pending db' = pending db) :
    Replays accounts False p p' w := by
  refine Replays.of_settled haccount fun t h => ?_
  rw [hp] at h
  rcases hpending : pending w.db with e | change
  · rw [hpending] at h
    cases h
  · rw [hpending, lift_ok_bind] at h
    obtain ⟨hframe, hprices, hshown⟩ := exec_showPending h
    refine ⟨hframe, fun w' t' events hdb h' => ?_⟩
    have hsame : pending w'.db = .ok change := by
      rw [hcatalog w.db w'.db (by rw [hdb]; exact hprices), hpending]
    have hshown' : Shown w'.db change := by
      rw [hdb]
      exact hshown
    rw [hp', hsame, lift_ok_bind, exec_showPending_shown hshown'] at h'
    cases h'
    rfl

theorem upserted_replays (haccount : accounts w.stripe) (scheduleData : Json) :
    Replays accounts False (onSubscriptionScheduleUpserted rt scheduleData)
      (onSubscriptionScheduleUpserted rt' scheduleData) w := by
  refine pending_replays haccount (upsertedPending scheduleData)
    (fun _ => exec_upserted_eq scheduleData) (fun _ => exec_upserted_eq scheduleData) ?_
  intro db db' hprices
  have hlookup : db'.getPriceByStripeId = db.getPriceByStripeId := by
    funext priceId
    rw [Db.getPriceByStripeId, hprices]
    rfl
  rw [upsertedPending, hlookup]
  rfl

theorem cleared_replays (haccount : accounts w.stripe) (scheduleData : Json) :
    Replays accounts False (onSubscriptionScheduleCleared rt scheduleData)
      (onSubscriptionScheduleCleared rt' scheduleData) w :=
  pending_replays haccount (fun _ => clearedPending scheduleData)
    (fun _ => exec_cleared_eq scheduleData) (fun _ => exec_cleared_eq scheduleData)
    fun _ _ _ => rfl

/-! ## Product checkouts -/

/-- A session that has a ledger row gets no other. -/
theorem grant_of_recorded {stripeSessionId reason : String} {amount : Int} {owner : CreditOwner}
    {db db' : Db} {granted : Bool}
    (hrecorded : ∃ t ∈ db.creditTransactions.rows, t.stripeSessionId = some stripeSessionId)
    (h : grantCreditsForSession rt stripeSessionId amount reason owner db = .ok (granted, db')) :
    db' = db := by
  obtain ⟨entry, hentry, hsession⟩ := hrecorded
  rcases (grantCreditsForSession_eq_ok h).2.2 with ⟨-, hsame, -⟩ | ⟨-, hrows, -⟩
  · exact hsame
  · have hinserted : db.creditTransactions.insert?
        (newTransaction rt stripeSessionId amount reason owner) = some db'.creditTransactions :=
      Table.ofRows?_eq_some.mpr hrows
    have hclash : Row.clash entry (newTransaction rt stripeSessionId amount reason owner) :=
      Or.inr ⟨by rw [hsession]; rfl, hsession⟩
    rw [Table.insert?_eq_none hentry hclash] at hinserted
    cases hinserted

/-- A grant that commits leaves a ledger row for its session, its own or an earlier one. -/
theorem recorded_of_grant {stripeSessionId reason : String} {amount : Int} {owner : CreditOwner}
    {db db' : Db} {granted : Bool} (hfresh : ∀ t ∈ db.creditTransactions.rows, t.id ≠ rt.transactionId)
    (h : grantCreditsForSession rt stripeSessionId amount reason owner db = .ok (granted, db')) :
    ∃ t ∈ db'.creditTransactions.rows, t.stripeSessionId = some stripeSessionId := by
  obtain ⟨howner, hamount, hcases⟩ := grantCreditsForSession_eq_ok h
  rcases hcases with ⟨-, rfl, hrefused⟩ | ⟨-, hrows, -⟩
  · by_contra hnone
    have hcheck : Row.check (newTransaction rt stripeSessionId amount reason owner) :=
      ⟨howner, by simp only [newTransaction]; omega⟩
    obtain ⟨_, hinserted⟩ := Table.insert?_isSome hcheck fun t ht hclash => by
      rcases hclash with hid | hsession
      · exact hfresh t ht hid
      · exact hnone ⟨t, ht, hsession.2⟩
    cases hrefused.symm.trans hinserted
  · exact ⟨_, by rw [hrows]; exact List.mem_append_right _ List.mem_cons_self, rfl⟩

theorem product_replays (haccount : accounts w.stripe)
    (hfresh : ∀ t ∈ w.db.creditTransactions.rows, t.id ≠ rt.transactionId) (c : ProductCheckout) :
    Replays accounts False (c.handle rt) (c.handle rt') w := by
  refine Replays.of_settled haccount fun t h => ?_
  unfold ProductCheckout.handle at h
  rw [exec_onProductCheckoutCompleted] at h
  cases hgrant : productGrant w.db c.productId c.userId c.orgId with
  | none =>
      rw [hgrant] at h
      cases h
      refine ⟨rfl, fun w' t' events hdb h' => ?_⟩
      unfold ProductCheckout.handle at h'
      have hgrant' : productGrant w'.db c.productId c.userId c.orgId = none := hdb ▸ hgrant
      rw [exec_onProductCheckoutCompleted, hgrant'] at h'
      cases h'
      rfl
  | some grant =>
      obtain ⟨amount, reason, owner⟩ := grant
      rw [hgrant] at h
      simp only at h
      rcases hcommit : grantCreditsForSession rt c.stripeSessionId amount reason owner w.db with
        e | ⟨granted, db'⟩
      · rw [hcommit] at h
        cases h
      · rw [hcommit] at h
        cases h
        have hrecorded := recorded_of_grant hfresh hcommit
        refine ⟨rfl, fun w' t' events hdb h' => ?_⟩
        have hrecorded' : ∃ t ∈ w'.db.creditTransactions.rows,
            t.stripeSessionId = some c.stripeSessionId := hdb ▸ hrecorded
        unfold ProductCheckout.handle at h'
        rw [exec_onProductCheckoutCompleted] at h'
        rcases hgrant' : productGrant w'.db c.productId c.userId c.orgId with
          _ | ⟨amount', reason', owner'⟩
        · rw [hgrant'] at h'
          cases h'
          rfl
        · rw [hgrant'] at h'
          simp only at h'
          rcases hcommit' : grantCreditsForSession rt' c.stripeSessionId amount' reason' owner'
            w'.db with e | ⟨granted', db''⟩
          · rw [hcommit'] at h'
            cases h'
          · rw [hcommit'] at h'
            cases h'
            rw [grant_of_recorded hrecorded' hcommit']

/-! ## Checkouts -/

/-- A session that is handled again. -/
theorem checkout_replays {bought : String → Prop} (hrepeats : Repeats rt.stripe accounts bought)
    (hstripe : rt'.stripe = rt.stripe) (haccount : accounts w.stripe) {sessionData : Json}
    (hbought : ∀ c, readCheckout sessionData = .ok (some (.team c)) →
      ∀ id ∈ c.stripeSubscriptionId, bought id)
    (hretrieve : ∀ c, readCheckout sessionData = .ok (some (.team c)) →
      ∀ id ∈ c.stripeSubscriptionId, ∀ subData,
        (rt.stripe.call (.subscriptionRetrieve id) w.stripe).1 = .ok subData →
          Describes c.stripeCustomerId id subData)
    (hunused : Unused rt.subscriptionId w.db)
    (hfresh : ∀ t ∈ w.db.creditTransactions.rows, t.id ≠ rt.transactionId) :
    Replays accounts (∃ c, readCheckout sessionData = .ok (some (.team c)) ∧
        c.CancelsAnother rt.stripe w.stripe w.db)
      (onCheckoutCompleted rt sessionData) (onCheckoutCompleted rt' sessionData) w := by
  rw [onCheckoutCompleted_eq, onCheckoutCompleted_eq]
  rcases hread : readCheckout sessionData with e | _ | c | c
  · intro t h
    cases h
  · have hnone : (∃ c, (.ok none : Py (Option Callback)) = .ok (some (.team c)) ∧
        c.CancelsAnother rt.stripe w.stripe w.db) = False := by simp
    rw [hnone]
    exact replays_pure haccount
  · have hteam : (∃ c', (.ok (some (.team c)) : Py (Option Callback)) = .ok (some (.team c')) ∧
        c'.CancelsAnother rt.stripe w.stripe w.db) =
          c.CancelsAnother rt.stripe w.stripe w.db := by simp
    rw [hteam]
    intro t h
    obtain ⟨hqueue, haccounts, hagain⟩ := TeamCheckout.handle_again hrepeats
      (hbought c hread) haccount (hretrieve c hread) hunused h
    exact ⟨hqueue, haccounts, fun w' t' events hdb hw' h' =>
      hagain rt' w' t' events hstripe hdb hw' h'⟩
  · have hproduct : (∃ c', (.ok (some (.product c)) : Py (Option Callback)) =
        .ok (some (.team c')) ∧ c'.CancelsAnother rt.stripe w.stripe w.db) = False := by simp
    rw [hproduct]
    exact product_replays haccount hfresh c

end Replays

/-! ## Deletions -/

section Deletions

variable {rt rt' : Runtime σ} {w : World σ}

/-- The org whose team subscription the row is. -/
def teamOrgOf (db : Db) (s : Subscription) : Option UUID :=
  match s.userId, s.stripeCustomerId with
  | none, some customerId => (db.customerById customerId).bind StripeCustomer.orgId
  | _, _ => none

def cancelledAt (now : Datetime) (s : Subscription) : Subscription :=
  { s with status := .canceled, canceledAt := some now }

/-- What a deleted event that succeeds does, alone. -/
theorem exec_deleted_ok {subData : Json} {t : World σ}
    (h : Fallible.exec (onSubscriptionDeleted rt subData) w = (.ok (), t)) :
    ∃ id, subData.item "id" = .ok id ∧
      ((w.db.subscriptionByStripeId id.toStr = none ∧ t = w) ∨
        ∃ existing db', w.db.subscriptionByStripeId id.toStr = some existing ∧
          w.db.saveSubscription rt.now (cancelledAt rt.now existing) = .ok db' ∧
          t = { w with
            db := db'
            queue := w.queue ++
              ((teamOrgOf db' existing).map Task.deleteOrgOnSubscriptionCancel).toList }) := by
  unfold onSubscriptionDeleted at h
  rcases hitem : subData.item "id" with e | id
  · rw [hitem] at h
    cases h
  rw [hitem] at h
  simp only [lift_ok_bind, Fallible.exec_bind, exec_readSubscription, Fallible.resume_ok] at h
  refine ⟨id, rfl, ?_⟩
  cases hfound : w.db.subscriptionByStripeId id.toStr with
  | none =>
      rw [hfound] at h
      cases h
      exact Or.inl ⟨rfl, rfl⟩
  | some existing =>
      rw [hfound] at h
      simp only [Fallible.exec_bind, exec_saveSubscription] at h
      rcases hsave : w.db.saveSubscription rt.now (cancelledAt rt.now existing) with e | db'
      · rw [cancelledAt] at hsave
        rw [hsave] at h
        cases h
      · right
        refine ⟨existing, db', rfl, hsave, ?_⟩
        rw [cancelledAt] at hsave
        rw [hsave] at h
        simp only [map_ok, settle_ok, Fallible.resume_ok] at h
        unfold teamOrgOf
        cases huser : existing.userId with
        | some userId =>
            simp only [huser] at h
            cases h
            simp
        | none =>
            cases hcustomer : existing.stripeCustomerId with
            | none =>
                simp only [huser, hcustomer] at h
                cases h
                simp
            | some customerId =>
                simp only [huser, hcustomer, Fallible.exec_bind, exec_query,
                  Fallible.resume_ok] at h
                simp only
                cases hfoundCustomer : db'.customerById customerId with
                | none =>
                    rw [hfoundCustomer] at h
                    cases h
                    simp
                | some customer =>
                    rw [hfoundCustomer] at h
                    simp only at h
                    cases horg : customer.orgId with
                    | none =>
                        rw [horg] at h
                        cases h
                        simp [horg]
                    | some orgId =>
                        rw [horg] at h
                        simp only [exec_enqueue] at h
                        split at h
                        · cases h
                          simp [horg]
                        · cases h

/-- An org that is deleted takes the subscriptions of its customer along. -/
theorem deleteOrgDbOnly_subscriptions {db db' : Db} {orgId : UUID}
    (h : deleteOrgDbOnly db orgId = .ok db') {s : Subscription} (hs : s ∈ db'.subscriptions.rows) :
    s ∈ db.subscriptions.rows ∧ ∀ customer ∈ db.customers.rows, customer.orgId = some orgId →
      s.stripeCustomerId ≠ some customer.id := by
  rw [Db.commit_eq_ok.mp h] at hs
  simp only [Tables.deleteOrg, Tables.deleteCustomers, Tables.deleteUsers, Tables.cancelInvitations,
    Table.mem_delete, Table.filter] at hs
  obtain ⟨⟨⟨hold, -⟩, -⟩, hkept⟩ := hs
  refine ⟨hold, fun customer hcustomer horg howner => hkept ?_⟩
  have hnoUser : customer.userId = none := by
    have hone : oneOwner customer.userId customer.orgId := db.customers.check_of_mem hcustomer
    rw [oneOwner, horg] at hone
    simpa using hone
  rw [howner, Option.any_some, List.contains_iff_mem]
  refine List.mem_map.mpr ⟨customer, List.mem_filter.mpr ⟨?_, by simp [horg]⟩, rfl⟩
  exact Table.mem_delete.mpr ⟨hcustomer, by simp [hnoUser]⟩

/-- A canceled row that is canceled again differs in the time of the cancellation. -/
theorem sameBusiness_restamped {db db' : Db} {existing : Subscription} {stripeId : String}
    {now now' : Datetime} (hmem : cancelledAt now existing ∈ db.subscriptions.rows)
    (hstripe : existing.stripeId = some stripeId)
    (hsave : db.saveSubscription now' (cancelledAt now' existing) = .ok db') :
    SameBusiness (some stripeId) db db' := by
  refine ⟨?_, ?_⟩
  · rw [Db.rows_saveSubscription_of_mem hsave hmem rfl, List.map_map]
    refine List.map_congr_left fun s hs => ?_
    by_cases hid : s.id = existing.id
    · have heq : s = cancelledAt now existing :=
        db.subscriptions.eq_of_clash hs hmem (Or.inl hid)
      subst heq
      simp [unstamped, cancelledAt, sameValue, hstripe]
    · simp [cancelledAt, hid]
  · rw [Db.saveSubscription_frame hsave]

theorem runTasks_one (task : Task) : runTasks rt [task] w = Fallible.exec (runTask rt task) w := by
  unfold runTasks
  rcases Fallible.exec (runTask rt task) w with ⟨_ | _, t⟩ <;> rfl

/-- The task of a deletion leaves a database without the org's subscriptions, or it
finds no org. -/
theorem runTasks_deleteOrg {orgId : UUID} {t : World σ}
    (h : runTasks rt [.deleteOrgOnSubscriptionCancel orgId] w = (.ok (), t)) :
    (w.db.orgById orgId = none ∧ t = w) ∨ (w.db.orgById orgId ≠ none ∧
      ∃ db', deleteOrgDbOnly w.db orgId = .ok db' ∧ t = { w with db := db' }) := by
  rw [runTasks_one] at h
  unfold runTask deleteOrgOnSubscriptionCancelTask at h
  simp only [Fallible.exec_bind, exec_query, Fallible.resume_ok] at h
  cases horg : w.db.orgById orgId with
  | none =>
      rw [horg] at h
      cases h
      exact Or.inl ⟨rfl, rfl⟩
  | some org =>
      rw [horg] at h
      simp only [exec_transaction] at h
      have hid : org.id = orgId := (Db.orgById_eq_some.mp horg).2
      rw [hid] at h
      cases hdelete : deleteOrgDbOnly w.db orgId with
      | error e =>
          rw [hdelete] at h
          cases h
      | ok db' =>
          rw [hdelete] at h
          cases h
          exact Or.inr ⟨by simp, db', rfl, rfl⟩

/-- The org that is deleted with the row. -/
def orgToDelete (db : Db) (s : Subscription) : Option Org := (teamOrgOf db s).bind db.orgById

/-- The tasks of a deletion do nothing, or the row's org goes and the row with it. -/
theorem runTasks_deleted {db : Db} {s row : Subscription} {events : Table StripeEvent} {t : World σ}
    (hdb : w.db = db.withEvents events) (hrow : row ∈ db.subscriptions.rows)
    (hstripe : row.stripeId = s.stripeId) (hcustomer : row.stripeCustomerId = s.stripeCustomerId)
    (hid : s.stripeId.isSome = true)
    (h : runTasks rt ((teamOrgOf db s).map Task.deleteOrgOnSubscriptionCancel).toList w =
      (.ok (), t)) :
    (orgToDelete db s = none ∧ t = w) ∨
      (orgToDelete db s ≠ none ∧ ∀ left ∈ t.db.subscriptions.rows, left.stripeId ≠ s.stripeId) := by
  unfold orgToDelete
  cases horgId : teamOrgOf db s with
  | none =>
      rw [horgId] at h
      cases h
      exact Or.inl ⟨rfl, rfl⟩
  | some orgId =>
      rw [horgId] at h
      rw [Option.bind_some]
      have hsame : w.db.orgById orgId = db.orgById orgId := by
        rw [hdb]
        rfl
      rcases runTasks_deleteOrg h with ⟨hmissing, rfl⟩ | ⟨hexists, db', hdelete, rfl⟩
      · exact Or.inl ⟨hsame.symm.trans hmissing, rfl⟩
      · refine Or.inr ⟨hsame ▸ hexists, fun left hleft hleftId => ?_⟩
        obtain ⟨hkept, hnot⟩ := deleteOrgDbOnly_subscriptions hdelete hleft
        rw [hdb] at hkept hnot
        have heq : left = row := db.subscriptions.eq_of_clash hkept hrow
          (Or.inr ⟨by rw [hleftId]; exact hid, hleftId.trans hstripe.symm⟩)
        unfold teamOrgOf at horgId
        split at horgId
        next customerId huser howner =>
            obtain ⟨customer, hfound, horg⟩ := Option.bind_eq_some_iff.mp horgId
            obtain ⟨hmem, hcustomerId⟩ := Db.customerById_eq_some.mp hfound
            refine hnot customer hmem horg ?_
            rw [heq, hcustomer, howner, hcustomerId]
        next => cases horgId

/-- A deleted event that is delivered twice: the second finds no row, or stamps it
again. -/
theorem deletion_sameBusiness {subData : Json} {id : Json} (hitem : subData.item "id" = .ok id)
    {events events' : Table StripeEvent} {t w₁ t' w₂ : World σ}
    (hfirst : Fallible.exec (onSubscriptionDeleted rt subData) { w with queue := [] } = (.ok (), t))
    (htasks : runTasks rt t.queue { t with db := t.db.withEvents events, queue := [] } =
      (.ok (), w₁))
    (hsecond : Fallible.exec (onSubscriptionDeleted rt' subData) { w₁ with queue := [] } =
      (.ok (), t'))
    (htasks' : runTasks rt' t'.queue { t' with db := t'.db.withEvents events', queue := [] } =
      (.ok (), w₂)) : SameBusiness (some id.toStr) w₁.db w₂.db := by
  have hnothing : w₁.db.subscriptionByStripeId id.toStr = none →
      SameBusiness (some id.toStr) w₁.db w₂.db := by
    intro hnone
    obtain ⟨id', hitem', hcases⟩ := exec_deleted_ok hsecond
    obtain rfl := Except.ok.inj (hitem.symm.trans hitem')
    rcases hcases with ⟨-, rfl⟩ | ⟨existing, -, hfound, -⟩
    · cases htasks'
      exact SameBusiness.withEvents _ _ _
    · cases hnone.symm.trans hfound
  obtain ⟨id', hitem', hcases⟩ := exec_deleted_ok hfirst
  obtain rfl := Except.ok.inj (hitem.symm.trans hitem')
  rcases hcases with ⟨hnone, rfl⟩ | ⟨existing, db', hfound, hsave, rfl⟩
  · cases htasks
    exact hnothing hnone
  · obtain ⟨hmem, hstripe⟩ := Db.subscriptionByStripeId_eq_some.mp hfound
    have hcanceled : cancelledAt rt.now existing ∈ db'.subscriptions.rows :=
      (Db.mem_saveSubscription hsave).mpr (Or.inr (Or.inl ⟨existing, hmem, rfl, rfl⟩))
    have hid : existing.stripeId.isSome = true := by rw [hstripe]; rfl
    have hdb : ({ w with db := db'.withEvents events, queue := [] } : World σ).db =
      db'.withEvents events := rfl
    rcases runTasks_deleted hdb hcanceled rfl rfl hid htasks with ⟨hkept, rfl⟩ | ⟨-, hgone⟩
    · -- the row has been canceled, and is found again
      obtain ⟨id', hitem', hcases⟩ := exec_deleted_ok hsecond
      obtain rfl := Except.ok.inj (hitem.symm.trans hitem')
      have hfound' : (db'.withEvents events).subscriptionByStripeId id.toStr =
          some (cancelledAt rt.now existing) :=
        Db.subscriptionByStripeId_eq_some.mpr ⟨hcanceled, hstripe⟩
      rcases hcases with ⟨hnone, -⟩ | ⟨again, db'', hagain, hsave', rfl⟩
      · cases hnone.symm.trans hfound'
      · obtain rfl := Option.some.inj (hfound'.symm.trans hagain)
        have hstamped : SameBusiness (some id.toStr) (db'.withEvents events) db'' :=
          sameBusiness_restamped hcanceled hstripe hsave'
        have hcanceled' : cancelledAt rt'.now (cancelledAt rt.now existing) ∈
            db''.subscriptions.rows :=
          (Db.mem_saveSubscription hsave').mpr (Or.inr (Or.inl ⟨_, hcanceled, rfl, rfl⟩))
        have hkept' : orgToDelete db'' (cancelledAt rt.now existing) = none := by
          have hframe := Db.saveSubscription_frame hsave'
          have hcustomers : db''.customers = db'.customers := by rw [hframe]; rfl
          have horgs : db''.orgs = db'.orgs := by rw [hframe]; rfl
          rw [← hkept]
          unfold orgToDelete teamOrgOf Db.customerById Db.orgById
          rw [hcustomers, horgs]
        have hdb' : ({ w with db := db''.withEvents events', queue := [] } : World σ).db =
          db''.withEvents events' := rfl
        rcases runTasks_deleted hdb' hcanceled' rfl rfl hid htasks' with ⟨-, rfl⟩ | ⟨hdeleted, -⟩
        · exact ⟨hstamped.subscriptions, by rw [Db.withEvents_tables, hstamped.others]⟩
        · exact absurd hkept' hdeleted
    · exact hnothing (Db.subscriptionByStripeId_eq_none.mpr fun s hs => hstripe ▸ hgone s hs)

end Deletions

/-! ## Every event -/

/-- The team checkout an event completes, if it is of one. -/
def teamCheckoutOf (event : Json) : Option TeamCheckout :=
  match event.item "type", eventObject event >>= readCheckout with
  | .ok type, .ok (some (.team c)) =>
      if type.isStr EventType.checkoutCompleted.name then some c else none
  | _, _ => none

/-- The subscription an event deletes, by its Stripe id, if it is of a deletion. -/
def deletedSubscription (event : Json) : Option String :=
  match event.item "type", eventObject event >>= (Json.item "id" ·) with
  | .ok type, .ok id =>
      if type.isStr EventType.subscriptionDeleted.name then some id.toStr else none
  | _, _ => none

theorem isStr_eq_true {value : Json} {text : String} (h : value.isStr text = true) :
    value = .str text := by
  cases value with
  | str value => rw [beq_iff_eq.mp h]
  | _ => cases h

theorem EventType.isStr_name (type other : EventType) :
    (Json.str type.name).isStr other.name = decide (type = other) := by
  cases type <;> cases other <;> rfl

theorem mem_teamCheckoutOf {event object : Json} {type : EventType}
    (htype : event.item "type" = .ok (.str type.name)) (hobject : eventObject event = .ok object)
    {c : TeamCheckout} : c ∈ teamCheckoutOf event ↔
      type = .checkoutCompleted ∧ readCheckout object = .ok (some (.team c)) := by
  unfold teamCheckoutOf
  rw [htype, hobject, ok_bind]
  rcases readCheckout object with e | _ | c' | c' <;> simp [EventType.isStr_name, and_comm]

theorem deletedSubscription_eq {event object : Json} {type : EventType}
    (htype : event.item "type" = .ok (.str type.name)) (hobject : eventObject event = .ok object)
    {id : Json} (hid : object.item "id" = .ok id) : deletedSubscription event =
      if type = .subscriptionDeleted then some id.toStr else none := by
  unfold deletedSubscription
  rw [htype, hobject, ok_bind, hid]
  simp only [EventType.isStr_name, decide_eq_true_eq]

/-- An event fails to be dispatched, or it is of no handled type, or it goes to the
handler of its type. -/
theorem dispatch_cases (event : Json) :
    (∃ e, ∀ rt : Runtime σ, dispatch rt event = throw e) ∨
    (teamCheckoutOf event = none ∧ ∀ rt : Runtime σ, dispatch rt event = pure ()) ∨
    ∃ (type : EventType) (object : Json), event.item "type" = .ok (.str type.name) ∧
      eventObject event = .ok object ∧
      ∀ rt : Runtime σ, dispatch rt event = type.handler rt object := by
  rcases htype : event.item "type" with e | type
  · left
    refine ⟨e, fun rt => ?_⟩
    unfold dispatch
    rw [htype]
    rfl
  · by_cases hhandled : ∃ handled : EventType, type.isStr handled.name = true
    · obtain ⟨handled, hname⟩ := hhandled
      obtain rfl := isStr_eq_true hname
      rcases hobject : eventObject event with e | object
      · left
        refine ⟨e, fun rt => ?_⟩
        unfold dispatch
        rw [htype, lift_ok_bind, hobject]
        cases handled <;> rfl
      · exact Or.inr (Or.inr ⟨handled, object, rfl, rfl,
          fun rt => dispatch_eq rt htype hobject⟩)
    · have hnone : ∀ handled : EventType, type.isStr handled.name = false := by
        intro handled
        simpa using fun h => hhandled ⟨handled, h⟩
      refine Or.inr (Or.inl ⟨?_, fun rt => dispatch_unhandled rt htype hnone⟩)
      unfold teamCheckoutOf
      rw [htype]
      split
      next type' _ hok _ =>
          obtain rfl := Except.ok.inj hok
          rw [hnone .checkoutCompleted]
          rfl
      next => rfl

section Delivered

variable {accounts : σ → Prop} {rt rt' : Runtime σ} {event : Json} {stripeId : String}
variable {w w₁ w₂ : World σ}

/-- A replay that enqueues nothing decides the business state. -/
theorem sameBusiness_of_replays {another : Prop} {deleted : Option String}
    (hreplays : Replays accounts another (dispatch rt event) (dispatch rt' event)
      { w with queue := [] })
    (hdeleted : another → deleted = none)
    (honce : deliver rt event stripeId w = (.ok (), w₁))
    (htwice : deliver rt' event stripeId w₁ = (.ok (), w₂)) :
    SameBusiness deleted w₁.db w₂.db ↔ ¬ another := by
  obtain ⟨t, events, hdispatch, htasks⟩ := deliver_ok honce
  obtain ⟨t', events', hdispatch', htasks'⟩ := deliver_ok htwice
  obtain ⟨hqueue, haccounts, hagain⟩ := hreplays t hdispatch
  rw [hqueue] at htasks
  cases htasks
  have hsecond := hagain { t with db := t.db.withEvents events, queue := [] } t' events rfl
    haccounts hdispatch'
  obtain ⟨hqueue', hchanged, hsame⟩ := hsecond
  rw [hqueue'] at htasks'
  cases htasks'
  constructor
  · intro hbusiness hanother
    have hrows := hbusiness.subscriptions
    rw [hdeleted hanother] at hrows
    have hid : ∀ rows : List Subscription, rows.map (unstamped none) = rows := fun rows =>
      (List.map_congr_left fun s _ => unstamped_none s).trans (List.map_id' rows)
    rw [hid, hid] at hrows
    exact hchanged hanother (Table.ext hrows)
  · intro hnone
    rw [hsame hnone]
    exact SameBusiness.withEvents _ _ _

/-- The second delivery of an event leaves the business state of the first, unless
it is a team checkout whose second run cancels another subscription of the buyer. -/
theorem replay_iff (hstripe : rt'.stripe = rt.stripe) (haccount : accounts w.stripe)
    (hrepeats : Repeats rt.stripe accounts fun id =>
      ∃ c ∈ teamCheckoutOf event, c.stripeSubscriptionId = some id)
    (hretrieve : ∀ c ∈ teamCheckoutOf event, ∀ id ∈ c.stripeSubscriptionId, ∀ subData,
      (rt.stripe.call (.subscriptionRetrieve id) w.stripe).1 = .ok subData →
        Describes c.stripeCustomerId id subData)
    (hsubscriptionId : Unused rt.subscriptionId w.db)
    (htransactionId : ∀ t ∈ w.db.creditTransactions.rows, t.id ≠ rt.transactionId)
    (honce : deliver rt event stripeId w = (.ok (), w₁))
    (htwice : deliver rt' event stripeId w₁ = (.ok (), w₂)) :
    SameBusiness (deletedSubscription event) w₁.db w₂.db ↔
      ∀ c ∈ teamCheckoutOf event, ¬ c.CancelsAnother rt.stripe w.stripe w.db := by
  have hother : ∀ {deleted}, teamCheckoutOf event = none →
      Replays accounts False (dispatch rt event) (dispatch rt' event) { w with queue := [] } →
      (SameBusiness deleted w₁.db w₂.db ↔
        ∀ c ∈ teamCheckoutOf event, ¬ c.CancelsAnother rt.stripe w.stripe w.db) := by
    intro deleted hnone hreplays
    rw [sameBusiness_of_replays hreplays False.elim honce htwice, hnone]
    simp
  rcases dispatch_cases (σ := σ) event with ⟨e, hfails⟩ | ⟨hnone, hignored⟩ |
    ⟨type, object, htype, hobject, hhandler⟩
  · obtain ⟨t, -, hdispatch, -⟩ := deliver_ok honce
    rw [hfails] at hdispatch
    cases hdispatch
  · refine hother hnone ?_
    rw [hignored, hignored]
    exact replays_pure haccount
  · have hstart : accounts ({ w with queue := [] } : World σ).stripe := haccount
    have hmem : ∀ c, c ∈ teamCheckoutOf event ↔
        type = .checkoutCompleted ∧ readCheckout object = .ok (some (.team c)) :=
      fun c => mem_teamCheckoutOf htype hobject
    have hnotTeam : type ≠ .checkoutCompleted → teamCheckoutOf event = none := by
      intro hne
      refine Option.eq_none_iff_forall_not_mem.mpr fun c hc => hne ((hmem c).mp hc).1
    have hplain : ∀ {deleted}, type ≠ .checkoutCompleted →
        Replays accounts False (type.handler rt object) (type.handler rt' object)
          { w with queue := [] } → (SameBusiness deleted w₁.db w₂.db ↔
            ∀ c ∈ teamCheckoutOf event, ¬ c.CancelsAnother rt.stripe w.stripe w.db) := by
      intro deleted hne hreplays
      refine hother (hnotTeam hne) ?_
      rw [hhandler, hhandler]
      exact hreplays
    cases type with
    | checkoutCompleted =>
        have hdeleted : deletedSubscription event = none := by
          unfold deletedSubscription
          rw [htype]
          split
          next hok _ =>
              obtain rfl := Except.ok.inj hok
              rfl
          next => rfl
        have hreplays : Replays accounts (∃ c, readCheckout object = .ok (some (.team c)) ∧
            c.CancelsAnother rt.stripe w.stripe w.db) (dispatch rt event) (dispatch rt' event)
            { w with queue := [] } := by
          rw [hhandler, hhandler]
          exact checkout_replays hrepeats hstripe hstart
            (fun c hc id hid => ⟨c, (hmem c).mpr ⟨rfl, hc⟩, hid⟩)
            (fun c hc => hretrieve c ((hmem c).mpr ⟨rfl, hc⟩)) hsubscriptionId htransactionId
        rw [sameBusiness_of_replays hreplays (fun _ => hdeleted) honce htwice]
        simp only [hmem, true_and, not_exists, not_and]
    | subscriptionDeleted =>
        rw [hnotTeam nofun]
        refine iff_of_true ?_ (by simp)
        obtain ⟨t, events, hdispatch, htasks⟩ := deliver_ok honce
        obtain ⟨t', events', hdispatch', htasks'⟩ := deliver_ok htwice
        rw [hhandler] at hdispatch hdispatch'
        obtain ⟨id, hid, -⟩ := exec_deleted_ok hdispatch
        rw [deletedSubscription_eq htype hobject hid, if_pos rfl]
        exact deletion_sameBusiness hid hdispatch htasks hdispatch' htasks'
    | subscriptionCreated => exact hplain nofun (sync_replays hstart object)
    | subscriptionUpdated => exact hplain nofun (sync_replays hstart object)
    | scheduleCreated => exact hplain nofun (upserted_replays hstart object)
    | scheduleUpdated => exact hplain nofun (upserted_replays hstart object)
    | scheduleReleased => exact hplain nofun (cleared_replays hstart object)
    | scheduleCanceled => exact hplain nofun (cleared_replays hstart object)
    | scheduleAborted => exact hplain nofun (cleared_replays hstart object)
    | invoicePaymentSucceeded => exact hplain nofun (invoice_replays hstart object)
    | invoicePaymentFailed => exact hplain nofun (invoice_replays hstart object)

end Delivered

/-! ## A checkout that is delivered twice -/

def teamEvent : Json := eventObjectOf "checkout.session.completed" teamSession

/-- Two subscriptions of the buyer are active in the mirror. -/
def twiceSubscribedDb : Db where
  toTables := { sampleDb.toTables with
    subscriptions := ⟨[{ buyerSubscription with status := .pastDue },
      { buyerSubscription with id := 41#128, stripeId := some "sub_2", createdAt := 1 }], by decide⟩ }
  integral := by decide +kernel

/-- Stripe has ended the later one for want of payment. -/
def unpaidStripe : StripeCall → Py Json
  | .subscriptionRetrieve _ => .ok teamSubscriptionObject
  | .subscriptionModify id _ => .ok (.obj [("id", .str id),
      ("status", .str (if id = "sub_2" then "unpaid" else "past_due")),
      ("cancel_at", .int 100), ("canceled_at", .null)])
  | _ => .error (.connection "connection refused")

theorem unpaidStripe_repeats :
    Repeats (Stripe.scripted unpaidStripe) (fun _ => True) fun _ => True where
  keeps _ _ _ := trivial
  retrieve _ _ _ _ _ _ := rfl
  modify _ _ _ _ _ _ := rfl
  foreign call _ message h := by cases call <;> cases h

def deliveredOnce : Py Unit × World Unit :=
  deliver (sampleRuntime unpaidStripe 0 5) teamEvent "evt_1" ⟨twiceSubscribedDb, (), []⟩

def deliveredTwice : Py Unit × World Unit :=
  deliver (sampleRuntime unpaidStripe 1 6) teamEvent "evt_1" deliveredOnce.2

/-- The first delivery cancels the one that has ended, the second the other one. -/
theorem second_delivery_cancels_another :
    Repeats (Stripe.scripted unpaidStripe) (fun _ => True) (fun _ => True) ∧
      deliveredOnce.1 = .ok () ∧ deliveredTwice.1 = .ok () ∧
      ¬ SameBusiness (deletedSubscription teamEvent) deliveredOnce.2.db deliveredTwice.2.db := by
  refine ⟨unpaidStripe_repeats, by decide +kernel, by decide +kernel, fun h => ?_⟩
  have hrows : deliveredTwice.2.db.subscriptions.rows.map (unstamped (deletedSubscription teamEvent)) ≠
      deliveredOnce.2.db.subscriptions.rows.map (unstamped (deletedSubscription teamEvent)) := by
    decide +kernel
  exact hrows h.subscriptions

theorem teamCheckoutOf_teamEvent : teamCheckoutOf teamEvent = some buyerCheckout := by
  decide +kernel

/-- With one active subscription, the second delivery finds it as the first has left it. -/
theorem second_delivery_same :
    SameBusiness (deletedSubscription teamEvent)
      (deliver (sampleRuntime unpaidStripe 0 5) teamEvent "evt_1" subscribedWorld).2.db
      (deliver (sampleRuntime unpaidStripe 1 6) teamEvent "evt_1"
        (deliver (sampleRuntime unpaidStripe 0 5) teamEvent "evt_1" subscribedWorld).2).2.db := by
  have honce : (deliver (sampleRuntime unpaidStripe 0 5) teamEvent "evt_1" subscribedWorld).1 =
      .ok () := by decide +kernel
  have htwice : (deliver (sampleRuntime unpaidStripe 1 6) teamEvent "evt_1"
      (deliver (sampleRuntime unpaidStripe 0 5) teamEvent "evt_1" subscribedWorld).2).1 =
      .ok () := by decide +kernel
  have hrepeats : Repeats (sampleRuntime unpaidStripe 0 5).stripe (fun _ => True) fun id =>
      ∃ c ∈ teamCheckoutOf teamEvent, c.stripeSubscriptionId = some id :=
    ⟨unpaidStripe_repeats.keeps, fun id s s' _ => unpaidStripe_repeats.retrieve id s s' trivial,
      unpaidStripe_repeats.modify, unpaidStripe_repeats.foreign⟩
  have hretrieve : ∀ c ∈ teamCheckoutOf teamEvent, ∀ id ∈ c.stripeSubscriptionId, ∀ subData,
      ((sampleRuntime unpaidStripe 0 5).stripe.call (.subscriptionRetrieve id)
        subscribedWorld.stripe).1 = .ok subData → Describes c.stripeCustomerId id subData := by
    intro c hc id hid subData hanswer
    rw [teamCheckoutOf_teamEvent] at hc
    cases hc
    cases hid
    cases hanswer
    exact teamSubscriptionObject_describes
  have hone : ∀ c ∈ teamCheckoutOf teamEvent, ¬ c.CancelsAnother
      (sampleRuntime unpaidStripe 0 5).stripe subscribedWorld.stripe subscribedWorld.db := by
    intro c hc hanother
    rw [teamCheckoutOf_teamEvent] at hc
    cases hc
    obtain ⟨-, first, -, second, -, hfirst, -, -, hsecond, -⟩ := hanother
    have hsole : buyerCheckout.personalRows subscribedWorld.db = [buyerSubscription] := by
      decide +kernel
    rw [hsole] at hfirst hsecond
    cases hfirst
    have hnone : Db.latest? ([buyerSubscription].filter fun s => s.id != buyerSubscription.id) =
        none := by decide
    cases hnone.symm.trans hsecond
  exact (replay_iff rfl trivial hrepeats hretrieve (by unfold Unused; decide) (by decide)
    (Prod.ext honce rfl) (Prod.ext htwice rfl)).mpr hone

end Saasmint
