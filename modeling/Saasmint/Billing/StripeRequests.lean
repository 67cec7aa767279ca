import Saasmint.Billing.PlanChanges
import Saasmint.Data.Sessions

/-!
# Requests about one subscription

What the billing services ask Stripe, and what they leave in the database.  `Asks` says of
a handler that it names no other subscription and saves nothing; the services that do save
are handlers of that kind with a save at the end.  `Session.Looks` and `Session.About` say
the same of the sessions around them.
-/

namespace Saasmint

open Atomic Handler

variable {σ : Type}

/-! ## Calls -/

/-- The subscription a call to Stripe is about, if it names one. -/
def StripeCall.subscription? : StripeCall → Option String
  | subscriptionRetrieve id => some id
  | subscriptionModify id _ => some id
  | subscriptionCancel id => some id
  | _ => none

/-- A call, if it names a subscription, names this one. -/
def StripeCall.Concerns (stripeId : String) (call : StripeCall) : Prop :=
  ∀ id, call.subscription? = some id → id = stripeId

def Action.Concerns (stripeId : String) (action : Action) : Prop :=
  ∀ call, action = .stripe call → call.Concerns stripeId

/-- The program only asks Stripe, and about no other subscription. -/
structure Asks {α : Type} (stripeId : String) (p : Handler σ α) : Prop where
  keeps : ∀ w, (Fallible.exec p w).2.db = w.db
  concerns : ∀ w, p.LogsOnly (Action.Concerns stripeId) w

namespace Asks

variable {α β : Type} {stripeId : String} {rt : Runtime σ}

theorem lift (result : Py α) : Asks stripeId (Handler.lift result : Handler σ α) :=
  ⟨fun _ => rfl, fun _ => Fallible.logsOnly_ofExcept⟩

theorem pure (a : α) : Asks stripeId (Pure.pure a : Handler σ α) := lift (.ok a)

theorem throw (e : PyError) : Asks stripeId (MonadExcept.throw e : Handler σ α) := lift (.error e)

theorem callStripe {call : StripeCall}
    (h : call.subscription? = none ∨ call.subscription? = some stripeId) :
    Asks stripeId (callStripe rt call) := by
  refine ⟨fun _ => rfl, fun w => Fallible.logsOnly_atomic.mpr ?_⟩
  intro call' hcall id hid
  obtain rfl := Action.stripe.inj hcall
  obtain hnone | hsome := h
  · cases hnone.symm.trans hid
  · exact Option.some.inj (hid.symm.trans hsome)

theorem bind {p : Handler σ α} {rest : α → Handler σ β} (hp : Asks stripeId p)
    (hrest : ∀ a, Asks stripeId (rest a)) : Asks stripeId (p >>= rest) := by
  constructor
  · intro w
    rw [Fallible.exec_bind, ← hp.keeps w]
    rcases Fallible.exec p w with ⟨e | a, t⟩
    · rfl
    · exact (hrest a).keeps t
  · exact fun w => Fallible.logsOnly_bind.mpr ⟨hp.concerns w, fun a t _ => (hrest a).concerns t⟩

/-- What follows finds the database that was there before. -/
theorem exec_bind_eq_ok {p : Handler σ α} {rest : α → Handler σ β} (hp : Asks stripeId p)
    {w w' : World σ} {b : β} (h : Fallible.exec (p >>= rest) w = (.ok b, w')) :
    ∃ a t, t.db = w.db ∧ Fallible.exec (rest a) t = (.ok b, w') := by
  obtain ⟨a, t, hexec, h⟩ := Fallible.exec_bind_eq_ok.mp h
  have hkeeps := hp.keeps w
  rw [hexec] at hkeeps
  exact ⟨a, t, hkeeps, h⟩

theorem concerns_bind {p : Handler σ α} {rest : α → Handler σ β} (hp : Asks stripeId p)
    (hrest : ∀ a w, (rest a).LogsOnly (Action.Concerns stripeId) w) (w : World σ) :
    (p >>= rest).LogsOnly (Action.Concerns stripeId) w :=
  Fallible.logsOnly_bind.mpr ⟨hp.concerns w, fun a t _ => hrest a t⟩

theorem readSubscription (f : Db → α) : Asks stripeId (readSubscription f : Handler σ α) :=
  ⟨fun _ => rfl, fun _ => Fallible.logsOnly_observe.mpr nofun⟩

variable (stripeId)

theorem getActiveForCustomer (customerId : UUID) :
    Asks stripeId (getActiveForCustomer customerId : Handler σ (Option Subscription)) := by
  unfold Handler.getActiveForCustomer
  refine (readSubscription _).bind fun rows => ?_
  split
  · exact pure _
  · exact pure _
  · exact readSubscription _

variable (rt)

theorem releasePendingSchedule : Asks stripeId (releasePendingSchedule rt stripeId) := by
  unfold Saasmint.releasePendingSchedule
  refine (callStripe (.inr rfl)).bind fun sub => ?_
  refine (lift _).bind fun scheduleId => ?_
  split
  · refine (callStripe (.inl rfl)).bind fun schedule => ?_
    refine (lift _).bind fun status => ?_
    split
    · exact (lift _).bind fun id => (callStripe (.inl rfl)).bind fun _ => pure _
    · exact pure _
  · exact pure _

theorem changePlan (newStripePriceId : String) (newPriceAmount : Option Int) (prorate : Bool)
    (quantity : Option Int) :
    Asks stripeId (changePlan rt stripeId newStripePriceId newPriceAmount prorate quantity) := by
  unfold Saasmint.changePlan
  refine (callStripe (.inr rfl)).bind fun sub => ?_
  refine (lift _).bind fun firstItem => ?_
  refine (lift _).bind fun itemId => ?_
  refine (lift _).bind fun currentQuantity => ?_
  refine (lift _).bind fun downgrade => ?_
  dsimp only
  split
  · unfold scheduleDowngradeAtPeriodEnd pinningSchedule
    refine (lift _).bind fun firstItem => ?_
    refine (lift _).bind fun current => ?_
    refine (callStripe (.inl rfl)).bind fun newPrice => ?_
    refine (lift _).bind fun newCurrency => ?_
    dsimp only
    split
    · exact throw _
    · refine Asks.bind ?_ fun scheduleId => (callStripe (.inl rfl)).bind fun _ => pure _
      refine (lift _).bind fun existing => ?_
      split
      · exact pure _
      · exact (lift _).bind fun id => (callStripe (.inl rfl)).bind fun schedule =>
          (lift _).bind fun _ => pure _
  · unfold applyImmediatePlanChange releasedItem
    refine Asks.bind ?_ fun itemId => (callStripe (.inr rfl)).bind fun _ => pure _
    refine (lift _).bind fun existing => ?_
    split
    · exact (callStripe (.inl rfl)).bind fun _ => (callStripe (.inr rfl)).bind fun _ =>
        (lift _).bind fun _ => (lift _).bind fun _ => pure _
    · exact pure _

end Asks

/-! ## Cancelling, resuming and resizing -/

/-- `_apply_cancel_toggle`. -/
def applyCancelToggle (rt : Runtime σ) (customerId : UUID) : Bool → Handler σ Unit
  | true => cancelSubscription rt customerId true
  | false => resumeSubscription rt customerId

/-- Stripe's answer to a cancellation or its revocation, which is asked for once a pending
change of the plan is released. -/
def toggleAnswer (rt : Runtime σ) (sub : Subscription) (stripeId : String) (w : World σ) :
    Bool → Py Json
  | true =>
      let t := if sub.scheduledPlanId ≠ none
        then (Fallible.exec (releasePendingSchedule rt stripeId) w).2 else w
      (rt.stripe.call (.subscriptionModify stripeId (.cancelAt "min_period_end")) t.stripe).1
  | false => (rt.stripe.call (.subscriptionModify stripeId (.cancelAt "")) w.stripe).1

section Services

variable {rt : Runtime σ} {w w' : World σ} {customerId : UUID} {sub row : Subscription}
  {stripeId : String} {answer : Json}

theorem exec_saveSubscription_eq_ok {now : Datetime}
    (h : Fallible.exec (saveSubscription now row : Handler σ Unit) w = (.ok (), w')) :
    w.db.saveSubscription now row = .ok w'.db := by
  rw [exec_saveSubscription] at h
  cases hsave : w.db.saveSubscription now row with
  | error e =>
      rw [hsave] at h
      cases h
  | ok db =>
      rw [hsave] at h
      cases h
      rfl

theorem exec_mirrorCancelState_eq_ok
    (h : Fallible.exec (mirrorCancelStateFromStripe rt sub answer) w = (.ok (), w')) :
    ∃ row, mirrorCancelState sub answer = .ok row ∧
      w.db.saveSubscription rt.now row = .ok w'.db := by
  unfold mirrorCancelStateFromStripe at h
  obtain ⟨row, t, hrow, hsave⟩ := Fallible.exec_bind_eq_ok.mp h
  rw [exec_lift] at hrow
  cases hmirror : mirrorCancelState sub answer with
  | error e =>
      rw [hmirror] at hrow
      cases hrow
  | ok row' =>
      rw [hmirror] at hrow
      cases hrow
      exact ⟨row, rfl, exec_saveSubscription_eq_ok hsave⟩

theorem exec_mirrored_eq_ok {call : StripeCall} (h : Fallible.exec (do
      let stripeSub ← callStripe rt call
      mirrorCancelStateFromStripe rt sub stripeSub) w = (.ok (), w')) :
    ∃ answer row, (rt.stripe.call call w.stripe).1 = .ok answer ∧
      mirrorCancelState sub answer = .ok row ∧ w.db.saveSubscription rt.now row = .ok w'.db := by
  obtain ⟨answer, t, hcall, h⟩ := Fallible.exec_bind_eq_ok.mp h
  obtain ⟨hanswer, rfl⟩ := Prod.ext_iff.mp hcall
  obtain ⟨row, hrow, hsave⟩ := exec_mirrorCancelState_eq_ok h
  exact ⟨answer, row, hanswer, hrow, hsave⟩

/-- A toggle that succeeds has saved what Stripe has answered. -/
theorem exec_applyCancelToggle_eq_ok {cancelAtPeriodEnd : Bool}
    (hactive : w.db.latestActive customerId = some sub) (hid : sub.stripeId = some stripeId)
    (h : Fallible.exec (applyCancelToggle rt customerId cancelAtPeriodEnd) w = (.ok (), w')) :
    ∃ answer row, toggleAnswer rt sub stripeId w cancelAtPeriodEnd = .ok answer ∧
      mirrorCancelState sub answer = .ok row ∧ w.db.saveSubscription rt.now row = .ok w'.db := by
  cases cancelAtPeriodEnd with
  | true =>
      unfold applyCancelToggle cancelSubscription at h
      obtain ⟨found, t, hfound, h⟩ := Fallible.exec_bind_eq_ok.mp h
      rw [exec_getActiveForCustomer, hactive] at hfound
      cases hfound
      dsimp only at h
      rw [hid] at h
      dsimp only at h
      unfold toggleAnswer
      split at h
      next hscheduled =>
        obtain ⟨_, t, hrelease, h⟩ := Fallible.exec_bind_eq_ok.mp h
        have hkeeps := (Asks.releasePendingSchedule stripeId rt).keeps w
        rw [if_pos hscheduled, hrelease]
        rw [hrelease] at hkeeps
        dsimp only at hkeeps ⊢
        rw [← hkeeps]
        exact exec_mirrored_eq_ok h
      next hscheduled =>
        rw [if_neg hscheduled]
        exact exec_mirrored_eq_ok h
  | false =>
      unfold applyCancelToggle resumeSubscription at h
      obtain ⟨found, t, hfound, h⟩ := Fallible.exec_bind_eq_ok.mp h
      rw [exec_getActiveForCustomer, hactive] at hfound
      cases hfound
      dsimp only at h
      rw [hid] at h
      exact exec_mirrored_eq_ok h

/-- A change of the seats that succeeds has saved them, unless they are as they were. -/
theorem exec_updateSeatCount_eq_ok {quantity : Int}
    (h : Fallible.exec (updateSeatCount rt sub quantity) w = (.ok (), w')) :
    w'.db = w.db ∨ w.db.saveSubscription rt.now { sub with seatLimit := quantity } = .ok w'.db := by
  unfold updateSeatCount at h
  dsimp only at h
  split at h
  · cases h
  split at h
  next stripeId _ =>
    have hlift : ∀ {α : Type} (result : Py α), Asks stripeId (lift result : Handler σ α) :=
      fun result => Asks.lift result
    obtain ⟨answer, t₁, ht₁, h⟩ := (Asks.callStripe (.inr rfl)).exec_bind_eq_ok h
    obtain ⟨firstItem, t₂, ht₂, h⟩ := (hlift _).exec_bind_eq_ok h
    obtain ⟨itemId, t₃, ht₃, h⟩ := (hlift _).exec_bind_eq_ok h
    obtain ⟨current, t₄, ht₄, h⟩ := (hlift _).exec_bind_eq_ok h
    obtain ⟨less, t₅, ht₅, h⟩ := (hlift _).exec_bind_eq_ok h
    obtain ⟨modified, t₆, ht₆, h⟩ := (Asks.callStripe (.inr rfl)).exec_bind_eq_ok h
    have hdb : t₆.db = w.db := by rw [ht₆, ht₅, ht₄, ht₃, ht₂, ht₁]
    rw [← hdb]
    split at h
    · exact .inr (exec_saveSubscription_eq_ok h)
    · cases h
      exact .inl rfl
  next => cases h

variable (rt)

theorem concerns_save (now : Datetime) (row : Subscription) (w : World σ) :
    (saveSubscription now row : Handler σ Unit).LogsOnly (Action.Concerns stripeId) w :=
  Fallible.logsOnly_atomic.mpr nofun

theorem concerns_mirrorCancelState (sub : Subscription) (answer : Json) (w : World σ) :
    (mirrorCancelStateFromStripe rt sub answer).LogsOnly (Action.Concerns stripeId) w :=
  (Asks.lift _).concerns_bind (concerns_save rt.now) w

theorem concerns_updateSeatCount (hid : sub.stripeId = some stripeId) (quantity : Int) (w : World σ) :
    (updateSeatCount rt sub quantity).LogsOnly (Action.Concerns stripeId) w := by
  unfold updateSeatCount
  dsimp only
  split
  · exact (Asks.throw _).concerns w
  rw [hid]
  refine (Asks.callStripe (.inr rfl)).concerns_bind (fun _ => ?_) w
  refine (Asks.lift _).concerns_bind fun _ => (Asks.lift _).concerns_bind fun _ => ?_
  refine (Asks.lift _).concerns_bind fun _ => (Asks.lift _).concerns_bind fun _ => ?_
  refine (Asks.callStripe (.inr rfl)).concerns_bind fun _ t => ?_
  split
  · exact concerns_save rt.now _ t
  · exact (Asks.pure _).concerns t

theorem concerns_applyCancelToggle (hactive : w.db.latestActive customerId = some sub)
    (hid : sub.stripeId = some stripeId) (cancelAtPeriodEnd : Bool) :
    (applyCancelToggle rt customerId cancelAtPeriodEnd).LogsOnly (Action.Concerns stripeId) w := by
  have hmodify : ∀ update t, (do
      let stripeSub ← callStripe rt (.subscriptionModify stripeId update)
      mirrorCancelStateFromStripe rt sub stripeSub : Handler σ Unit).LogsOnly
        (Action.Concerns stripeId) t :=
    fun update => (Asks.callStripe (.inr rfl)).concerns_bind (concerns_mirrorCancelState rt sub)
  have hread := (Asks.getActiveForCustomer (σ := σ) stripeId customerId).concerns w
  cases cancelAtPeriodEnd with
  | true =>
      refine Fallible.logsOnly_bind.mpr ⟨hread, fun found t hfound => ?_⟩
      rw [exec_getActiveForCustomer, hactive] at hfound
      cases hfound
      dsimp only
      rw [hid]
      dsimp only
      split
      · exact (Asks.releasePendingSchedule stripeId rt).concerns_bind (fun _ => hmodify _) w
      · exact hmodify _ w
  | false =>
      refine Fallible.logsOnly_bind.mpr ⟨hread, fun found t hfound => ?_⟩
      rw [exec_getActiveForCustomer, hactive] at hfound
      cases hfound
      dsimp only
      rw [hid]
      exact hmodify _ w

end Services

/-! ## Sessions around the services -/

namespace Session

variable {α β : Type} {stripeId : String}

/-- The session only reads. -/
structure Looks (p : Session σ α) : Prop where
  silent : p.Silent
  stays : ∀ w, (Fallible.exec p w).2 = w

namespace Looks

theorem lift (result : Py α) : (lift result : Session σ α).Looks := ⟨fun _ => rfl, fun _ => rfl⟩

theorem pure (a : α) : (Pure.pure a : Session σ α).Looks := lift (.ok a)

theorem throw (e : PyError) : (MonadExcept.throw e : Session σ α).Looks := lift (.error e)

theorem select (f : Db → α) : (select f : Session σ α).Looks := ⟨fun _ => rfl, fun _ => rfl⟩

theorem bind {p : Session σ α} {rest : α → Session σ β} (hp : p.Looks)
    (hrest : ∀ a, (rest a).Looks) : (p >>= rest).Looks := by
  refine ⟨silent_bind hp.silent fun a => (hrest a).silent, fun w => ?_⟩
  have hstays := hp.stays w
  rw [Fallible.exec_bind]
  rcases hexec : Fallible.exec p w with ⟨e | a, t⟩
  · rw [hexec] at hstays
    exact hstays
  · rw [hexec] at hstays
    exact ((hrest a).stays t).trans hstays

theorem exec_bind_eq_ok {p : Session σ α} {rest : α → Session σ β} (hp : p.Looks)
    {w w' : World σ} {b : β} (h : Fallible.exec (p >>= rest) w = (.ok b, w')) :
    ∃ a, Fallible.exec p w = (.ok a, w) ∧ Fallible.exec (rest a) w = (.ok b, w') := by
  obtain ⟨a, t, hexec, h⟩ := Fallible.exec_bind_eq_ok.mp h
  have hstays := hp.stays w
  rw [hexec] at hstays
  obtain rfl : w = t := hstays.symm
  exact ⟨a, hexec, h⟩

theorem resolveMutationContext (userId : UUID) (context : Option String) :
    (resolveMutationContext userId context : Session σ (Option UUID)).Looks := by
  unfold Session.resolveMutationContext
  refine (lift _).bind fun explicit => ?_
  split
  next explicit =>
    cases explicit with
    | personal => exact pure _
    | team =>
        refine (select _).bind fun member => ?_
        split
        · exact pure _
        · exact throw _
  next =>
    refine (select _).bind fun membership => ?_
    split
    · split
      · exact throw _
      · exact pure _
    · exact pure _

theorem requestedPrice (planPriceId : Option UUID) :
    (requestedPrice planPriceId : Session σ _).Looks := by
  cases planPriceId with
  | none => exact pure _
  | some planPriceId => exact (select _).bind fun _ => (lift _).bind fun _ => pure _

theorem getCustomerAndPaidSubscription (userId : UUID) (orgId : Option UUID) :
    (getCustomerAndPaidSubscription userId orgId : Session σ _).Looks := by
  have hcustomer : (resolveBillingCustomer userId orgId : Session σ _).Looks := by
    unfold resolveBillingCustomer
    split <;> exact select _
  have hactive : ∀ customerId, (ofHandler [] (getActiveForCustomer customerId) : Session σ _).Looks := by
    intro customerId
    unfold Handler.getActiveForCustomer
    rw [ofHandler_bind, ofHandler_readSubscription]
    refine (select _).bind fun rows => ?_
    split
    · exact pure _
    · exact pure _
    · rw [ofHandler_readSubscription]
      exact select _
  unfold Session.getCustomerAndPaidSubscription
  refine hcustomer.bind fun customer => ?_
  split
  · refine (hactive _).bind fun sub => ?_
    split
    · split
      · exact pure _
      · exact throw _
    · exact throw _
  · exact throw _

theorem checkMemberCount (seatLimit : Int) (orgId : Option UUID) :
    (checkMemberCount seatLimit orgId : Session σ _).Looks := by
  cases orgId with
  | none => exact pure _
  | some orgId =>
      refine Looks.bind ?_ fun _ => pure _
      unfold rejectSeatLimitBelowMemberCount
      refine (select _).bind fun memberCount => ?_
      split
      · exact throw _
      · exact pure _

end Looks

/-- Run alone from `w`, the session names no other subscription. -/
def About (stripeId : String) (p : Session σ α) (w : World σ) : Prop :=
  p.Calls (fun calls _ _ => ∀ entry ∈ calls, entry.1.Concerns stripeId) w

theorem Silent.about {p : Session σ α} (hp : p.Silent) (w : World σ) : p.About stripeId w :=
  hp.calls (List.forall_mem_nil _)

theorem about_bind {p : Session σ α} {rest : α → Session σ β} {w : World σ}
    (hp : p.About stripeId w)
    (hrest : ∀ a t, Fallible.exec p w = (.ok a, t) → (rest a).About stripeId t) :
    (p >>= rest).About stripeId w := by
  unfold About
  rw [calls_bind]
  unfold About Calls Fallible.Logs at *
  rcases hexec : Fallible.exec p w with ⟨e | a, t⟩
  · exact hp
  · exact fun entry hentry => (List.mem_append.mp hentry).elim (hp entry) (hrest a t hexec entry)

theorem Looks.about_bind {p : Session σ α} {rest : α → Session σ β} {w : World σ} (hp : p.Looks)
    (hrest : ∀ a, Fallible.exec p w = (.ok a, w) → (rest a).About stripeId w) :
    (p >>= rest).About stripeId w := by
  refine Session.about_bind (hp.silent.about w) fun a t hexec => ?_
  have hstays := hp.stays w
  rw [hexec] at hstays
  obtain rfl : w = t := hstays.symm
  exact hrest a hexec

theorem about_ofHandler {basis : List Basis} {p : Handler σ α} {w : World σ}
    (h : p.LogsOnly (Action.Concerns stripeId) w) : (ofHandler basis p).About stripeId w := by
  have hlabels : (ofHandler basis p).LogsOnly
      (fun statement => ∀ call, statement.label.call? = some call → call.Concerns stripeId) w := by
    refine Fallible.logsOnly_relabel.mpr (Fallible.Logs.mono h fun log _ _ hlog entry hentry => ?_)
    have hentry := hlog entry hentry
    cases haction : entry.1 with
    | stripe call =>
        rintro call' ⟨⟩
        exact hentry call haction
    | _ => nofun
  unfold About Calls Fallible.Logs
  rintro ⟨call, t⟩ hcall
  obtain ⟨⟨statement, t'⟩, hmem, hnote⟩ := List.mem_filterMap.mp hcall
  obtain ⟨call', hcall', hsame⟩ := Option.map_eq_some_iff.mp hnote
  cases hsame
  exact hlabels _ hmem call hcall'

end Session

end Saasmint
