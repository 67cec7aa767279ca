import Saasmint.Billing.SubscriptionSync
import Saasmint.Billing.Subscriptions
import Saasmint.Library.Monitor

/-!
# The writers of subscription rows

Every operation that saves a subscription row, the columns each of them is meant
to change, and what all of them have in common: a saved row is either a new one,
or a copy of a row the writer has read, changed in the writer's own columns only.
`Writer.obeys` states this discipline about the programs themselves.
-/

namespace Saasmint

open Atomic Handler

variable {σ : Type}

/-! ## Columns -/

/-- The columns of a subscription row besides its keys and `created_at`. -/
inductive Column
  | stripeCustomerId | userId | status | planId | seatLimit | trialEndsAt | currentPeriodStart
  | currentPeriodEnd | canceledAt | cancelAt | scheduledPlanId | scheduledChangeAt | currency
deriving DecidableEq

/-- Two rows hold the same value in a column. -/
def Column.Agrees (a b : Subscription) : Column → Prop
  | stripeCustomerId => a.stripeCustomerId = b.stripeCustomerId
  | userId => a.userId = b.userId
  | status => a.status = b.status
  | planId => a.planId = b.planId
  | seatLimit => a.seatLimit = b.seatLimit
  | trialEndsAt => a.trialEndsAt = b.trialEndsAt
  | currentPeriodStart => a.currentPeriodStart = b.currentPeriodStart
  | currentPeriodEnd => a.currentPeriodEnd = b.currentPeriodEnd
  | canceledAt => a.canceledAt = b.canceledAt
  | cancelAt => a.cancelAt = b.cancelAt
  | scheduledPlanId => a.scheduledPlanId = b.scheduledPlanId
  | scheduledChangeAt => a.scheduledChangeAt = b.scheduledChangeAt
  | currency => a.currency = b.currency

instance (a b : Subscription) (c : Column) : Decidable (c.Agrees a b) := by
  cases c <;> exact inferInstanceAs (Decidable (_ = _))

theorem Column.Agrees.refl (c : Column) (a : Subscription) : c.Agrees a a := by
  cases c <;> rfl

theorem Column.Agrees.symm {c : Column} {a b : Subscription} (h : c.Agrees a b) :
    c.Agrees b a := by
  cases c <;> exact Eq.symm h

theorem Column.Agrees.trans {c : Column} {a b d : Subscription} (h : c.Agrees a b)
    (h' : c.Agrees b d) : c.Agrees a d := by
  cases c <;> exact Eq.trans h h'

/-- Rows with the same keys that agree on every column are equal. -/
theorem Subscription.eq_of_agrees {a b : Subscription} (hid : a.id = b.id)
    (hstripe : a.stripeId = b.stripeId) (hcreated : a.createdAt = b.createdAt)
    (h : ∀ c : Column, c.Agrees a b) : a = b := by
  cases a
  cases b
  simp only [Subscription.mk.injEq]
  exact ⟨hid, hstripe, h .stripeCustomerId, h .userId, h .status, h .planId, h .seatLimit,
    h .trialEndsAt, h .currentPeriodStart, h .currentPeriodEnd, h .canceledAt, h .cancelAt,
    h .scheduledPlanId, h .scheduledChangeAt, h .currency, hcreated⟩

/-! ## Writers -/

inductive Writer
  | sync (subData : Json)
  | deleted (subData : Json)
  | upserted (scheduleData : Json)
  | cleared (scheduleData : Json)
  | cancel (stripeCustomerId : UUID) (atPeriodEnd : Bool)
  | resume (stripeCustomerId : UUID)
  | release (stripeCustomerId : UUID)
  | seats (stripeCustomerId : UUID) (orgId : Option UUID) (seatLimit : Int)

namespace Writer

def program (rt : Runtime σ) : Writer → Handler σ Unit
  | sync subData => syncSubscriptionFromData rt subData
  | deleted subData => onSubscriptionDeleted rt subData
  | upserted scheduleData => onSubscriptionScheduleUpserted rt scheduleData
  | cleared scheduleData => onSubscriptionScheduleCleared rt scheduleData
  | cancel stripeCustomerId atPeriodEnd => cancelSubscription rt stripeCustomerId atPeriodEnd
  | resume stripeCustomerId => resumeSubscription rt stripeCustomerId
  | release stripeCustomerId => releasePendingScheduleForCustomer rt stripeCustomerId
  | seats stripeCustomerId orgId seatLimit => applySeatOnly rt stripeCustomerId orgId seatLimit

/-- The columns a writer is meant to change. -/
def owns : Writer → Column → Bool
  | sync _, .scheduledPlanId | sync _, .scheduledChangeAt => false
  | sync _, _ => true
  | deleted _, c => c = .status ∨ c = .canceledAt
  | upserted _, c | cleared _, c | release _, c =>
      c = .scheduledPlanId ∨ c = .scheduledChangeAt
  | cancel _ _, c | resume _, c => c = .status ∨ c = .cancelAt ∨ c = .canceledAt
  | seats _ _ _, c => c = .seatLimit

end Writer

/-! ## The discipline -/

/-- `scheduled_plan_id` is empty exactly when `scheduled_change_at` is. -/
def Subscription.Paired (s : Subscription) : Prop :=
  s.scheduledPlanId = none ↔ s.scheduledChangeAt = none

/-- `row` is `old`, changed in owned columns only. -/
structure Revises (owned : Column → Bool) (old row : Subscription) : Prop where
  id : row.id = old.id
  stripeId : row.stripeId = old.stripeId
  frame : ∀ c, owned c = false → c.Agrees row old
  paired : old.Paired → row.Paired

/-- What a writer has seen: the databases its queries found, and the one its last
read of subscription rows found; and whether it has saved a row. -/
structure Reads where
  queried : List Db
  read : Option Db
  saved : Bool

def Reads.start : Reads := ⟨[], none, false⟩

/-- The row belongs to a customer the writer has looked up. -/
def Reads.Linked (reads : Reads) (row : Subscription) : Prop :=
  ∃ db ∈ reads.queried, ∃ c ∈ db.customers.rows,
    row.stripeCustomerId = some c.id ∧ row.userId = c.userId

/-- A save a writer may make: of a revised row, or of a new one. -/
inductive AllowedSave (owned : Column → Bool) (freshId : UUID) (reads : Reads)
    (row : Subscription) : Prop
  | revise (db : Db) (old : Subscription) (hread : reads.read = some db)
      (hold : old ∈ db.subscriptions.rows) (hrevises : Revises owned old row)
      (hlinked : (row.stripeCustomerId = old.stripeCustomerId ∧ row.userId = old.userId) ∨
        reads.Linked row)
  | insert (db : Db) (hread : reads.read = some db) (hfirst : reads.saved = false) (hid : row.id = freshId)
      (hstripe : row.stripeId.isSome) (hnew : ∀ old ∈ db.subscriptions.rows,
        old.stripeId ≠ row.stripeId)
      (hplan : row.scheduledPlanId = none) (hchange : row.scheduledChangeAt = none)
      (hlinked : reads.Linked row)

/-- The world after a save, which leaves it alone when it fails. -/
def World.save (now : Datetime) (row : Subscription) (w : World σ) : World σ :=
  (settle w ((fun db => ((), db)) <$> w.db.saveSubscription now row)).2

/-- A writer writes nothing but subscription rows, and those as `AllowedSave` says. -/
def discipline (owned : Column → Bool) (freshId : UUID) : Monitor Reads Action (World σ) where
  track reads
    | .query, w => { reads with queried := w.db :: reads.queried }
    | .readSubscription, w => { reads with read := some w.db }
    | .saveSubscription _ _, _ => { reads with saved := true }
    | _, _ => reads
  allow reads label effect :=
    match label with
    | .saveSubscription now row =>
        effect = World.save now row ∧ AllowedSave owned freshId reads row
    | .transaction => False
    | _ => ∀ w, (effect w).db = w.db

/-- From these reads on, the program keeps the discipline. -/
def Disciplined {α : Type} (owned : Column → Bool) (freshId : UUID) (p : Handler σ α)
    (reads : Reads) : Prop :=
  p.Obeys (discipline owned freshId) (fun _ _ => True) reads

namespace Disciplined

variable {α β : Type} {owned : Column → Bool} {freshId : UUID} {reads : Reads}

theorem pure (a : α) : Disciplined owned freshId (Pure.pure a : Handler σ α) reads := trivial

theorem throw (e : PyError) :
    Disciplined owned freshId (MonadExcept.throw e : Handler σ α) reads := trivial

theorem save {now : Datetime} {row : Subscription} (h : AllowedSave owned freshId reads row) :
    Disciplined owned freshId (saveSubscription now row : Handler σ Unit) reads :=
  ⟨⟨rfl, h⟩, fun _ => trivial⟩

theorem callStripe (rt : Runtime σ) (call : StripeCall) :
    Disciplined owned freshId (callStripe rt call) reads :=
  ⟨fun _ => rfl, fun _ => trivial⟩

theorem enqueue (rt : Runtime σ) (task : Task) :
    Disciplined owned freshId (enqueue rt task) reads := by
  refine ⟨fun w => ?_, fun _ => trivial⟩
  simp only
  split <;> rfl

theorem lift_bind {result : Py α} {rest : α → Handler σ β}
    (h : ∀ a, result = .ok a → Disciplined owned freshId (rest a) reads) :
    Disciplined owned freshId (lift result >>= rest) reads := by
  unfold Disciplined
  rw [Fallible.obeys_bind]
  cases result with
  | error e => trivial
  | ok a => exact h a rfl

theorem query_bind {f : Db → α} {rest : α → Handler σ β}
    (h : ∀ db, Disciplined owned freshId (rest (f db))
      { reads with queried := db :: reads.queried }) :
    Disciplined owned freshId (query f >>= rest) reads := by
  unfold Disciplined
  rw [Fallible.obeys_bind]
  exact ⟨fun _ => rfl, fun w => h w.db⟩

theorem readSubscription_bind {f : Db → α} {rest : α → Handler σ β}
    (h : ∀ db, Disciplined owned freshId (rest (f db)) { reads with read := some db }) :
    Disciplined owned freshId (readSubscription f >>= rest) reads := by
  unfold Disciplined
  rw [Fallible.obeys_bind]
  exact ⟨fun _ => rfl, fun w => h w.db⟩

theorem callStripe_bind {rt : Runtime σ} {call : StripeCall} {rest : Json → Handler σ β}
    (h : ∀ answer, Disciplined owned freshId (rest answer) reads) :
    Disciplined owned freshId (Handler.callStripe rt call >>= rest) reads := by
  unfold Disciplined
  rw [Fallible.obeys_bind]
  have hnext : ∀ outcome, Fallible.Heed (discipline owned freshId) (fun _ _ => True) rest
      reads outcome := by
    intro outcome
    cases outcome with
    | error e => trivial
    | ok answer => exact h answer
  exact ⟨fun _ => rfl, fun w => hnext _⟩

theorem save_bind {now : Datetime} {row : Subscription} {rest : Unit → Handler σ β}
    (hallowed : AllowedSave owned freshId reads row)
    (h : Disciplined owned freshId (rest ()) { reads with saved := true }) :
    Disciplined owned freshId (saveSubscription now row >>= rest) reads := by
  unfold Disciplined
  rw [Fallible.obeys_bind]
  have hnext : ∀ outcome, Fallible.Heed (discipline owned freshId) (fun _ _ => True) rest
      { reads with saved := true } outcome := by
    intro outcome
    cases outcome with
    | error e => trivial
    | ok _ => exact h
  exact ⟨⟨rfl, hallowed⟩, fun w => hnext _⟩

/-- The active row found is one of the database that was read last. -/
theorem getActiveForCustomer_bind {customerId : UUID}
    {rest : Option Subscription → Handler σ β} (hnone : ∀ db, Disciplined owned freshId
      (rest none) { reads with read := some db })
    (hsome : ∀ db, ∀ active ∈ db.subscriptions.rows,
      active.stripeCustomerId = some customerId → Disciplined owned freshId
        (rest (some active)) { reads with read := some db }) :
    Disciplined owned freshId (getActiveForCustomer customerId >>= rest) reads := by
  have hfound : ∀ db, ∀ active ∈ db.activeForCustomer customerId, Disciplined owned freshId
      (rest (some active)) { reads with read := some db } := by
    intro db active hactive
    have hrow := Db.mem_activeForCustomer.mp hactive
    exact hsome db active hrow.1 hrow.2.1
  unfold getActiveForCustomer
  rw [bind_assoc]
  refine readSubscription_bind fun db => ?_
  rcases hrows : db.activeForCustomer customerId with _ | ⟨active, _ | ⟨next, more⟩⟩
  · exact hnone db
  · exact hfound db active (by simp [hrows])
  · refine readSubscription_bind fun db' => ?_
    cases hlatest : db'.latestActive customerId with
    | none => exact hnone db'
    | some active => exact hfound db' active (Db.mem_of_latestActive hlatest)

end Disciplined

/-- Releasing a schedule is a matter between the writer and Stripe. -/
theorem releasePendingSchedule_disciplined {β : Type} {owned : Column → Bool} {freshId : UUID}
    {reads : Reads} (rt : Runtime σ) (stripeId : String) {rest : Unit → Handler σ β}
    (h : Disciplined owned freshId (rest ()) reads) :
    Disciplined owned freshId (releasePendingSchedule rt stripeId >>= rest) reads := by
  unfold releasePendingSchedule
  simp only [bind_assoc]
  refine Disciplined.callStripe_bind fun sub => Disciplined.lift_bind fun scheduleId _ => ?_
  split
  · simp only [bind_assoc]
    refine Disciplined.callStripe_bind fun schedule => Disciplined.lift_bind fun status _ => ?_
    split
    · simp only [bind_assoc]
      exact Disciplined.lift_bind fun id _ => Disciplined.callStripe_bind fun _ => h
    · exact h
  · exact h

/-! ## Every writer keeps it -/

theorem AllowedSave.of_revises {owned : Column → Bool} {freshId : UUID} {reads : Reads} {db : Db}
    {old row : Subscription} (hread : reads.read = some db) (hold : old ∈ db.subscriptions.rows)
    (hrevises : Revises owned old row) (hcustomer : owned .stripeCustomerId = false)
    (huser : owned .userId = false) : AllowedSave owned freshId reads row :=
  .revise db old hread hold hrevises
    (Or.inl ⟨hrevises.frame _ hcustomer, hrevises.frame _ huser⟩)

theorem sync_disciplined (rt : Runtime σ) (subData : Json) {reads : Reads}
    (hfirst : reads.saved = false) : Disciplined (Writer.sync subData).owns rt.subscriptionId
      (syncSubscriptionFromData rt subData) reads := by
  unfold syncSubscriptionFromData
  refine Disciplined.lift_bind fun d _ => Disciplined.query_bind fun db₁ =>
    Disciplined.query_bind fun db₂ => Disciplined.readSubscription_bind fun db₃ => ?_
  cases hcustomer : db₁.customerByStripeId d.customer with
  | none => trivial
  | some customer =>
      cases db₂.getPriceByStripeId d.priceId with
      | none => trivial
      | some planPrice =>
          refine Disciplined.lift_bind fun row hrow => Disciplined.save ?_
          obtain ⟨fields, _, hfields⟩ := bind_eq_ok.mp hrow
          cases hfields
          have hlinked : Reads.Linked
              { reads with queried := db₂ :: db₁ :: reads.queried, read := some db₃ }
              (mirrorRow rt.subscriptionId rt.now d.stripeId customer planPrice.planId
                (db₃.subscriptionByStripeId d.stripeId) fields) :=
            ⟨db₁, by simp, customer, (Db.customerByStripeId_eq_some.mp hcustomer).1, rfl, rfl⟩
          cases hexisting : db₃.subscriptionByStripeId d.stripeId with
          | none =>
              rw [hexisting] at hlinked
              refine .insert db₃ rfl hfirst rfl rfl ?_ rfl rfl hlinked
              exact Db.subscriptionByStripeId_eq_none.mp hexisting
          | some existing =>
              rw [hexisting] at hlinked
              obtain ⟨hmem, hstripe⟩ := Db.subscriptionByStripeId_eq_some.mp hexisting
              refine .revise db₃ existing rfl hmem ⟨rfl, hstripe.symm, ?_, fun h => h⟩
                (Or.inr hlinked)
              -- the pending plan change is all a sync does not own
              intro c hc
              cases c <;> first | rfl | cases hc

theorem deleted_disciplined (rt : Runtime σ) (subData : Json) (reads : Reads) :
    Disciplined (Writer.deleted subData).owns rt.subscriptionId
      (onSubscriptionDeleted rt subData) reads := by
  unfold onSubscriptionDeleted
  refine Disciplined.lift_bind fun id _ => Disciplined.readSubscription_bind fun db => ?_
  cases hexisting : db.subscriptionByStripeId id.toStr with
  | none => trivial
  | some existing =>
      have hmem := (Db.subscriptionByStripeId_eq_some.mp hexisting).1
      refine Disciplined.save_bind (.of_revises rfl hmem ⟨rfl, rfl, ?_, fun h => h⟩ rfl rfl) ?_
      · intro c hc
        cases c <;> first | rfl | cases hc
      · split
        next =>
            refine Disciplined.query_bind fun db' => ?_
            split
            next customer _ =>
                split
                next orgId _ => exact Disciplined.enqueue rt _
                next => trivial
            next => trivial
        next => trivial

theorem upserted_disciplined (rt : Runtime σ) (scheduleData : Json) (reads : Reads) :
    Disciplined (Writer.upserted scheduleData).owns rt.subscriptionId
      (onSubscriptionScheduleUpserted rt scheduleData) reads := by
  unfold onSubscriptionScheduleUpserted
  refine Disciplined.lift_bind fun id _ => ?_
  split
  next => trivial
  next =>
      refine Disciplined.lift_bind fun pending _ => ?_
      rcases pending with _ | ⟨nextPriceId, changeAt⟩
      · trivial
      refine Disciplined.query_bind fun db => ?_
      cases db.getPriceByStripeId nextPriceId with
      | none => trivial
      | some planPrice =>
          refine Disciplined.readSubscription_bind fun db' => ?_
          cases hexisting : db'.subscriptionByStripeId id.toStr with
          | none => trivial
          | some existing =>
              have hmem := (Db.subscriptionByStripeId_eq_some.mp hexisting).1
              dsimp only
              split
              next => trivial
              next =>
                  refine Disciplined.save (.of_revises rfl hmem ⟨rfl, rfl, ?_, ?_⟩ rfl rfl)
                  · intro c hc
                    cases c <;> first | rfl | cases hc
                  · simp [Subscription.Paired]

/-- Emptying both pending columns of a row that was read. -/
theorem AllowedSave.clear {owned : Column → Bool} {freshId : UUID} {reads : Reads} {db : Db}
    {old : Subscription} (hread : reads.read = some db) (hold : old ∈ db.subscriptions.rows)
    (howned : ∀ c, owned c = (decide (c = .scheduledPlanId ∨ c = .scheduledChangeAt))) :
    AllowedSave owned freshId reads
      { old with scheduledPlanId := none, scheduledChangeAt := none } := by
  refine .of_revises hread hold ⟨rfl, rfl, ?_, ?_⟩ (howned _) (howned _)
  · intro c hc
    rw [howned] at hc
    cases c <;> first | rfl | cases hc
  · simp [Subscription.Paired]

theorem cleared_disciplined (rt : Runtime σ) (scheduleData : Json) (reads : Reads) :
    Disciplined (Writer.cleared scheduleData).owns rt.subscriptionId
      (onSubscriptionScheduleCleared rt scheduleData) reads := by
  unfold onSubscriptionScheduleCleared
  refine Disciplined.lift_bind fun id _ => ?_
  split
  next => trivial
  next =>
      refine Disciplined.readSubscription_bind fun db => ?_
      cases hexisting : db.subscriptionByStripeId id.toStr with
      | none => trivial
      | some existing =>
          have hmem := (Db.subscriptionByStripeId_eq_some.mp hexisting).1
          dsimp only
          split
          next => trivial
          next => exact Disciplined.save (.clear rfl hmem fun _ => rfl)

theorem mirrorCancelState_revises {active row : Subscription} {stripeSub : Json}
    (h : mirrorCancelState active stripeSub = .ok row) {owned : Column → Bool}
    (howned : ∀ c, owned c = (decide (c = .status ∨ c = .cancelAt ∨ c = .canceledAt))) :
    Revises owned active row := by
  obtain ⟨_, _, h⟩ := bind_eq_ok.mp h
  obtain ⟨_, _, h⟩ := bind_eq_ok.mp h
  obtain ⟨_, _, h⟩ := bind_eq_ok.mp h
  obtain ⟨_, _, h⟩ := bind_eq_ok.mp h
  obtain ⟨_, _, h⟩ := bind_eq_ok.mp h
  cases h
  refine ⟨rfl, rfl, ?_, fun h => h⟩
  intro c hc
  rw [howned] at hc
  cases c <;> first | rfl | cases hc

theorem mirrorCancelState_disciplined {owned : Column → Bool} {freshId : UUID} {reads : Reads}
    {db : Db} {active : Subscription} (rt : Runtime σ) (stripeSub : Json)
    (hread : reads.read = some db) (hactive : active ∈ db.subscriptions.rows)
    (howned : ∀ c, owned c = (decide (c = .status ∨ c = .cancelAt ∨ c = .canceledAt))) :
    Disciplined owned freshId (mirrorCancelStateFromStripe rt active stripeSub) reads := by
  unfold mirrorCancelStateFromStripe
  refine Disciplined.lift_bind fun row hrow => Disciplined.save ?_
  exact .of_revises hread hactive (mirrorCancelState_revises hrow howned) (howned _) (howned _)

theorem cancel_disciplined (rt : Runtime σ) (stripeCustomerId : UUID) (atPeriodEnd : Bool)
    (reads : Reads) : Disciplined (Writer.cancel stripeCustomerId atPeriodEnd).owns
      rt.subscriptionId (cancelSubscription rt stripeCustomerId atPeriodEnd) reads := by
  unfold cancelSubscription
  refine Disciplined.getActiveForCustomer_bind (fun db => trivial) fun db active hactive _ => ?_
  have hmirror : ∀ stripeSub, Disciplined
      (Writer.cancel stripeCustomerId atPeriodEnd).owns rt.subscriptionId
      (mirrorCancelStateFromStripe rt active stripeSub) { reads with read := some db } :=
    fun stripeSub => mirrorCancelState_disciplined rt stripeSub rfl hactive fun _ => rfl
  dsimp only
  split
  next stripeId _ =>
      split
      · exact releasePendingSchedule_disciplined rt stripeId
          (Disciplined.callStripe_bind hmirror)
      · exact Disciplined.callStripe_bind hmirror
  next => trivial

theorem resume_disciplined (rt : Runtime σ) (stripeCustomerId : UUID) (reads : Reads) :
    Disciplined (Writer.resume stripeCustomerId).owns rt.subscriptionId
      (resumeSubscription rt stripeCustomerId) reads := by
  unfold resumeSubscription
  refine Disciplined.getActiveForCustomer_bind (fun db => trivial) fun db active hactive _ => ?_
  dsimp only
  split
  next stripeId _ =>
      exact Disciplined.callStripe_bind fun stripeSub =>
        mirrorCancelState_disciplined rt stripeSub rfl hactive fun _ => rfl
  next => trivial

theorem release_disciplined (rt : Runtime σ) (stripeCustomerId : UUID) (reads : Reads) :
    Disciplined (Writer.release stripeCustomerId).owns rt.subscriptionId
      (releasePendingScheduleForCustomer rt stripeCustomerId) reads := by
  unfold releasePendingScheduleForCustomer
  refine Disciplined.getActiveForCustomer_bind (fun db => trivial) fun db active hactive _ => ?_
  dsimp only
  split
  next stripeId _ =>
      refine releasePendingSchedule_disciplined rt stripeId ?_
      split
      · exact Disciplined.save (.clear rfl hactive fun _ => rfl)
      · trivial
  next => trivial

theorem updateSeatCount_disciplined {reads : Reads} {db : Db} {active : Subscription}
    {owned : Column → Bool} (rt : Runtime σ) (quantity : Int) (hread : reads.read = some db)
    (hactive : active ∈ db.subscriptions.rows)
    (howned : ∀ c, owned c = decide (c = .seatLimit)) :
    Disciplined owned rt.subscriptionId (updateSeatCount rt active quantity) reads := by
  unfold updateSeatCount
  dsimp only
  split
  next => trivial
  next =>
      split
      next stripeId _ =>
          refine Disciplined.callStripe_bind fun sub => Disciplined.lift_bind fun firstItem _ =>
            Disciplined.lift_bind fun itemId _ => Disciplined.lift_bind fun current _ =>
            Disciplined.lift_bind fun less _ => Disciplined.callStripe_bind fun _ => ?_
          split
          · refine Disciplined.save (.of_revises hread hactive ⟨rfl, rfl, ?_, fun h => h⟩
              (howned _) (howned _))
            intro c hc
            rw [howned] at hc
            cases c <;> first | rfl | cases hc
          · trivial
      next => trivial

theorem seats_disciplined (rt : Runtime σ) (stripeCustomerId : UUID) (orgId : Option UUID)
    (seatLimit : Int) (reads : Reads) :
    Disciplined (Writer.seats stripeCustomerId orgId seatLimit).owns rt.subscriptionId
      (applySeatOnly rt stripeCustomerId orgId seatLimit) reads := by
  unfold applySeatOnly
  refine Disciplined.getActiveForCustomer_bind (fun db => trivial) fun db active hactive _ => ?_
  dsimp only
  split
  next => trivial
  next =>
      refine Disciplined.query_bind fun db' => ?_
      split
      next plan _ =>
          refine Disciplined.lift_bind fun _ _ => ?_
          split
          next orgId =>
              unfold rejectSeatLimitBelowMemberCount
              simp only [bind_assoc]
              refine Disciplined.query_bind fun db'' => ?_
              split
              · trivial
              · exact updateSeatCount_disciplined rt seatLimit rfl hactive fun _ => rfl
          next => exact updateSeatCount_disciplined rt seatLimit rfl hactive fun _ => rfl
      next => trivial

/-- Every writer keeps the discipline, with the columns it owns. -/
theorem Writer.disciplined (writer : Writer) (rt : Runtime σ) :
    Disciplined writer.owns rt.subscriptionId (writer.program rt) Reads.start := by
  cases writer with
  | sync subData => exact sync_disciplined rt subData rfl
  | deleted subData => exact deleted_disciplined rt subData _
  | upserted scheduleData => exact upserted_disciplined rt scheduleData _
  | cleared scheduleData => exact cleared_disciplined rt scheduleData _
  | cancel customerId atPeriodEnd => exact cancel_disciplined rt customerId atPeriodEnd _
  | resume customerId => exact resume_disciplined rt customerId _
  | release customerId => exact release_disciplined rt customerId _
  | seats customerId orgId seatLimit =>
      exact seats_disciplined rt customerId orgId seatLimit _

end Saasmint
