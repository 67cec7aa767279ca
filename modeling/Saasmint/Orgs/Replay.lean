import Saasmint.Orgs.Creation

/-!
# A team checkout, handled again

What the handler of a team checkout does when it runs alone, and what it does
when it runs a second time: the org is recognised, the mirror of the bought
subscription is saved as it stands, and the buyer's personal subscription is
cancelled again.

Only that last part can change something.  The cancellation picks the latest
active row of the buyer's personal customer; if Stripe's answer has ended that
row, the second run picks the next one.
-/

namespace Saasmint

open Atomic Handler Relational

variable {σ α β : Type}

/-! ## Errors that are not the application's -/

/-- The error, if there is one, is not a `SubscriptionNotFoundError`. -/
def Foreign (result : Py α) : Prop := ∀ message, result ≠ .error (.subscriptionNotFound message)

theorem foreign_ok (a : α) : Foreign (.ok a : Py α) := fun _ => nofun

theorem Foreign.bind {x : Py α} {f : α → Py β} (hx : Foreign x) (hf : ∀ a, Foreign (f a)) :
    Foreign (x >>= f) := by
  intro message h
  cases x with
  | error e => exact hx message (by simpa using h)
  | ok a => exact hf a message h

theorem attr_foreign (value : Json) (key : String) : Foreign (value.attr key) := by
  intro message h
  cases value with
  | obj fields =>
      simp only [Json.attr] at h
      split at h <;> cases h
  | _ => cases h

theorem parseInt_foreign (text : String) : Foreign (parseInt text) := by
  intro message h
  unfold parseInt at h
  simp only at h
  split at h <;> cases h

theorem tsToDt_foreign (value : Json) : Foreign (tsToDt value) := by
  have hdatetime : ∀ ts, Foreign (do return some (← fromTimestamp ts) : Py (Option Datetime)) := by
    intro ts
    refine Foreign.bind ?_ fun _ => foreign_ok _
    intro message h
    unfold fromTimestamp at h
    split at h <;> cases h
  have hint : Foreign value.toInt := by
    cases value with
    | str text => exact parseInt_foreign text
    | _ => exact fun _ => nofun
  cases value with
  | null => exact foreign_ok _
  | _ => exact hint.bind hdatetime

theorem mirrorCancelState_foreign (active : Subscription) (stripeSub : Json) :
    Foreign (mirrorCancelState active stripeSub) :=
  (attr_foreign _ _).bind fun _ => (attr_foreign _ _).bind fun _ => (attr_foreign _ _).bind fun _ =>
    (tsToDt_foreign _).bind fun _ => (tsToDt_foreign _).bind fun _ => foreign_ok _

theorem saveSubscription_foreign (db : Db) (now : Datetime) (row : Subscription) :
    Foreign (db.saveSubscription now row) := by
  intro message h
  unfold Db.saveSubscription at h
  split at h
  · split at h
    · unfold Db.commit at h
      split at h <;> cases h
    · cases h
  · cases h

/-! ## Stripe, asked twice -/

/-- Over the accounts a run passes through, Stripe answers a retrieval of a bought
subscription, and a modification with the same arguments, as it did before; and
the application's own exception is none of its errors. -/
structure Repeats (stripe : Stripe σ) (accounts : σ → Prop) (bought : String → Prop) : Prop where
  keeps : ∀ call s, accounts s → accounts (stripe.call call s).2
  retrieve : ∀ id s s', bought id → accounts s → accounts s' →
    (stripe.call (.subscriptionRetrieve id) s).1 = (stripe.call (.subscriptionRetrieve id) s').1
  modify : ∀ id update s s', accounts s → accounts s' →
    (stripe.call (.subscriptionModify id update) s).1 =
      (stripe.call (.subscriptionModify id update) s').1
  foreign : ∀ call s, Foreign (stripe.call call s).1

/-- The program only talks to Stripe. -/
def StripeOnly (accounts : σ → Prop) (p : Handler σ α) : Prop :=
  ∀ w : World σ, accounts w.stripe → ∃ result s,
    Fallible.exec p w = (result, { w with stripe := s }) ∧ accounts s ∧ Foreign result

namespace StripeOnly

variable {accounts : σ → Prop} {bought : String → Prop} {rt : Runtime σ}

theorem pure (a : α) : StripeOnly accounts (Pure.pure a : Handler σ α) :=
  fun w hw => ⟨_, w.stripe, rfl, hw, foreign_ok a⟩

theorem lift {result : Py α} (h : Foreign result) :
    StripeOnly accounts (Handler.lift result : Handler σ α) :=
  fun w hw => ⟨result, w.stripe, rfl, hw, h⟩

theorem call (h : Repeats rt.stripe accounts bought) (call : StripeCall) :
    StripeOnly accounts (callStripe rt call) :=
  fun w hw => ⟨_, _, rfl, h.keeps call w.stripe hw, h.foreign call w.stripe⟩

theorem bind {p : Handler σ α} {rest : α → Handler σ β} (hp : StripeOnly accounts p)
    (hrest : ∀ a, StripeOnly accounts (rest a)) : StripeOnly accounts (p >>= rest) := by
  intro w hw
  obtain ⟨result, s, hexec, hs, hforeign⟩ := hp w hw
  rw [Fallible.exec_bind, hexec]
  cases result with
  | error e =>
      refine ⟨.error e, s, rfl, hs, fun message h => hforeign message ?_⟩
      cases h
      rfl
  | ok a => exact hrest a { w with stripe := s } hs

end StripeOnly

section Replay

variable {rt : Runtime σ} {accounts : σ → Prop} {bought : String → Prop} {w : World σ}

/-! ## Cancelling the personal subscription -/

theorem releasePendingSchedule_stripeOnly (h : Repeats rt.stripe accounts bought)
    (stripeId : String) : StripeOnly accounts (releasePendingSchedule rt stripeId) := by
  unfold releasePendingSchedule
  refine (StripeOnly.call h _).bind fun sub => ?_
  refine (StripeOnly.lift (attr_foreign _ _)).bind fun scheduleId => ?_
  split
  · refine (StripeOnly.call h _).bind fun schedule => ?_
    refine (StripeOnly.lift (attr_foreign _ _)).bind fun status => ?_
    split
    · refine (StripeOnly.lift (attr_foreign _ _)).bind fun id => ?_
      exact (StripeOnly.call h _).bind fun _ => StripeOnly.pure ()
    · exact StripeOnly.pure ()
  · exact StripeOnly.pure ()

/-- What Stripe's answer to a cancellation at period end makes of a row. -/
def cancelledRow (stripe : Stripe σ) (account : σ) (active : Subscription) : Option Subscription :=
  match active.stripeId with
  | none => none
  | some stripeId =>
      match (stripe.call (.subscriptionModify stripeId (.cancelAt "min_period_end")) account).1 with
      | .ok stripeSub => (mirrorCancelState active stripeSub).toOption
      | .error _ => none

theorem cancelledRow_eq_some {stripe : Stripe σ} {account : σ} {active row : Subscription}
    {stripeId : String} (hid : active.stripeId = some stripeId) :
    cancelledRow stripe account active = some row ↔ ∃ stripeSub,
      (stripe.call (.subscriptionModify stripeId (.cancelAt "min_period_end")) account).1 =
        .ok stripeSub ∧ mirrorCancelState active stripeSub = .ok row := by
  unfold cancelledRow
  rw [hid]
  simp only
  cases (stripe.call (.subscriptionModify stripeId (.cancelAt "min_period_end")) account).1 with
  | error e => simp
  | ok stripeSub =>
      cases hmirror : mirrorCancelState active stripeSub with
      | error e => simp [Except.toOption, hmirror]
      | ok row' => simp [Except.toOption, hmirror]

/-- A cancellation that finds a row fails for a foreign reason, or saves what
Stripe's answer makes of the row. -/
theorem exec_cancelSubscription (h : Repeats rt.stripe accounts bought)
    (hw : accounts w.stripe) {account : σ} (haccount : accounts account) {customerId : UUID}
    {active : Subscription} {stripeId : String}
    (hactive : w.db.latestActive customerId = some active) (hid : active.stripeId = some stripeId) :
    ∃ s, accounts s ∧
      ((∃ e, Fallible.exec (cancelSubscription rt customerId true) w =
          (.error e, { w with stripe := s }) ∧ Foreign (.error e : Py Unit)) ∨
        ∃ row db', cancelledRow rt.stripe account active = some row ∧
          w.db.saveSubscription rt.now row = .ok db' ∧
          Fallible.exec (cancelSubscription rt customerId true) w =
            (.ok (), { w with db := db', stripe := s })) := by
  let release : Handler σ Unit :=
    if active.scheduledPlanId ≠ none then releasePendingSchedule rt stripeId else pure ()
  let finish : Handler σ Unit :=
    callStripe rt (.subscriptionModify stripeId (.cancelAt "min_period_end")) >>=
      mirrorCancelStateFromStripe rt active
  have hprogram : Fallible.exec (cancelSubscription rt customerId true) w =
      Fallible.exec (release >>= fun _ => finish) w := by
    unfold cancelSubscription
    simp only [Fallible.exec_bind, exec_getActiveForCustomer, Fallible.resume_ok, hactive, hid]
    by_cases hscheduled : active.scheduledPlanId = none
    · simp [release, finish, hscheduled]
    · simp [release, finish, hscheduled]
  have hrelease : StripeOnly accounts release := by
    by_cases hscheduled : active.scheduledPlanId = none
    · simp only [release, hscheduled, ne_eq, not_true_eq_false, if_false]
      exact StripeOnly.pure ()
    · simp only [release, ne_eq, hscheduled, not_false_eq_true, if_true]
      exact releasePendingSchedule_stripeOnly h stripeId
  obtain ⟨result, s, hexec, hs, hforeign⟩ := hrelease w hw
  rw [hprogram, Fallible.exec_bind, hexec]
  cases result with
  | error e => exact ⟨s, hs, Or.inl ⟨e, rfl, hforeign⟩⟩
  | ok _ =>
      have hs' := h.keeps (.subscriptionModify stripeId (.cancelAt "min_period_end")) s hs
      have hanswer := h.modify stripeId (.cancelAt "min_period_end") s account hs haccount
      have hforeignAnswer :=
        h.foreign (.subscriptionModify stripeId (.cancelAt "min_period_end")) s
      refine ⟨_, hs', ?_⟩
      simp only [Fallible.resume_ok, finish, Fallible.exec_bind, exec_callStripe]
      cases hcall :
          (rt.stripe.call (.subscriptionModify stripeId (.cancelAt "min_period_end")) s).1 with
      | error e =>
          refine Or.inl ⟨e, rfl, fun message he => hforeignAnswer message ?_⟩
          rw [hcall]
          cases he
          rfl
      | ok stripeSub =>
          simp only [Fallible.resume_ok, mirrorCancelStateFromStripe, Fallible.exec_bind, exec_lift]
          cases hrow : mirrorCancelState active stripeSub with
          | error e =>
              refine Or.inl ⟨e, rfl, fun message he => ?_⟩
              refine mirrorCancelState_foreign active stripeSub message ?_
              rw [hrow]
              cases he
              rfl
          | ok row =>
              simp only [Fallible.resume_ok, exec_saveSubscription]
              cases hsave : w.db.saveSubscription rt.now row with
              | error e =>
                  refine Or.inl ⟨e, rfl, fun message he => ?_⟩
                  refine saveSubscription_foreign w.db rt.now row message ?_
                  rw [hsave]
                  cases he
                  rfl
              | ok db' =>
                  refine Or.inr ⟨row, db', ?_, hsave, rfl⟩
                  exact (cancelledRow_eq_some hid).mpr ⟨stripeSub, hanswer ▸ hcall, hrow⟩

/-- The row a cancellation of the buyer's personal subscription finds, if it has a
Stripe id. -/
def cancellable (db : Db) (userId : UUID) : Option Subscription := do
  let personal ← db.customerByUserId userId
  (db.latestActive personal.id).filter fun active => active.stripeId.isSome

theorem mem_of_cancellable {db : Db} {userId : UUID} {active : Subscription}
    (h : cancellable db userId = some active) : active ∈ db.subscriptions.rows := by
  unfold cancellable at h
  cases hpersonal : db.customerByUserId userId with
  | none => simp [hpersonal] at h
  | some personal =>
      simp only [hpersonal, Option.bind_eq_bind, Option.bind_some] at h
      exact (Db.mem_activeForCustomer.mp (Db.mem_of_latestActive (Option.filter_eq_some_iff.mp h).1)).1

/-- The cancellation has found nothing to cancel, or it has saved what Stripe's
answer makes of the row it found. -/
def Cancelled (stripe : Stripe σ) (account : σ) (userId : UUID) (now : Datetime) (db db' : Db) :
    Prop :=
  (cancellable db userId = none ∧ db' = db) ∨
    ∃ active row, cancellable db userId = some active ∧
      cancelledRow stripe account active = some row ∧ db.saveSubscription now row = .ok db'

theorem exec_schedulePersonalCancel (h : Repeats rt.stripe accounts bought)
    (hw : accounts w.stripe) {account : σ} (haccount : accounts account) {userId : UUID}
    {t : World σ} (hexec : Fallible.exec (schedulePersonalCancelAtPeriodEnd rt userId) w = (.ok (), t)) :
    accounts t.stripe ∧ t.queue = w.queue ∧
      Cancelled rt.stripe account userId rt.now w.db t.db := by
  unfold schedulePersonalCancelAtPeriodEnd at hexec
  simp only [Fallible.exec_bind, exec_query, Fallible.resume_ok] at hexec
  unfold Cancelled cancellable
  cases hpersonal : w.db.customerByUserId userId with
  | none =>
      rw [hpersonal] at hexec
      cases hexec
      exact ⟨hw, rfl, Or.inl ⟨rfl, rfl⟩⟩
  | some personal =>
      rw [hpersonal] at hexec
      simp only [Fallible.exec_tryCatch] at hexec
      have hnothing : Fallible.exec (cancelSubscription rt personal.id true) w = (.error
          (.subscriptionNotFound "No active subscription found to cancel."), w) → t = w := by
        intro hcancel
        rw [hcancel] at hexec
        cases hexec
        rfl
      cases hactive : w.db.latestActive personal.id with
      | none =>
          have ht : t = w := hnothing <| by
            unfold cancelSubscription
            simp [exec_getActiveForCustomer, hactive]
          exact ⟨ht ▸ hw, ht ▸ rfl, Or.inl ⟨by simp [hactive], by rw [ht]⟩⟩
      | some active =>
          cases hid : active.stripeId with
          | none =>
              have ht : t = w := hnothing <| by
                unfold cancelSubscription
                simp [exec_getActiveForCustomer, hactive, hid]
              exact ⟨ht ▸ hw, ht ▸ rfl, Or.inl ⟨by simp [hactive, hid], by rw [ht]⟩⟩
          | some stripeId =>
              obtain ⟨s, hs, hcases⟩ := exec_cancelSubscription h hw haccount hactive hid
              rcases hcases with ⟨e, he, hforeign⟩ | ⟨row, db', hrow, hsave, hok⟩
              · rw [he] at hexec
                cases e with
                | subscriptionNotFound message => exact absurd rfl (hforeign message)
                | _ => cases hexec
              · rw [hok] at hexec
                cases hexec
                exact ⟨hs, rfl, Or.inr ⟨active, row, by simp [hactive, hid], hrow, hsave⟩⟩

/-! ## What a cancellation leaves to the next one -/

/-- The rows differ in the columns a cancellation mirrors. -/
def DifferInCancelState (active row : Subscription) : Prop :=
  row = { active with status := row.status, cancelAt := row.cancelAt, canceledAt := row.canceledAt }

theorem mirrorCancelState_keeps {active row : Subscription} {stripeSub : Json}
    (h : mirrorCancelState active stripeSub = .ok row) : DifferInCancelState active row := by
  unfold mirrorCancelState at h
  obtain ⟨_, _, h⟩ := bind_eq_ok.mp h
  obtain ⟨_, _, h⟩ := bind_eq_ok.mp h
  obtain ⟨_, _, h⟩ := bind_eq_ok.mp h
  obtain ⟨_, _, h⟩ := bind_eq_ok.mp h
  obtain ⟨_, _, h⟩ := bind_eq_ok.mp h
  cases h
  rfl

/-- The same answer makes nothing more of the row it has made. -/
theorem mirrorCancelState_again {active row : Subscription} {stripeSub : Json}
    (h : mirrorCancelState active stripeSub = .ok row) :
    mirrorCancelState row stripeSub = .ok row := by
  unfold mirrorCancelState at h ⊢
  obtain ⟨_, hcancelAt, h⟩ := bind_eq_ok.mp h
  obtain ⟨_, hcanceledAt, h⟩ := bind_eq_ok.mp h
  obtain ⟨status, hstatus, h⟩ := bind_eq_ok.mp h
  obtain ⟨_, hcancelAtTime, h⟩ := bind_eq_ok.mp h
  obtain ⟨_, hcanceledAtTime, h⟩ := bind_eq_ok.mp h
  cases h
  simp only [hcancelAt, hcanceledAt, hstatus, hcancelAtTime, hcanceledAtTime, ok_bind, pure_eq_ok]
  cases status with
  | str text => cases hvalue : SubscriptionStatus.ofValue? text <;> simp [hvalue]
  | _ => rfl

theorem cancelledRow_again {stripe : Stripe σ} {account : σ} {active row : Subscription}
    (h : cancelledRow stripe account active = some row) :
    cancelledRow stripe account row = some row := by
  cases hid : active.stripeId with
  | none => simp [cancelledRow, hid] at h
  | some stripeId =>
      obtain ⟨stripeSub, hcall, hrow⟩ := (cancelledRow_eq_some hid).mp h
      have hsame : row.stripeId = some stripeId := by
        rw [mirrorCancelState_keeps hrow]
        exact hid
      exact (cancelledRow_eq_some hsame).mpr ⟨stripeSub, hcall, mirrorCancelState_again hrow⟩

theorem cancelledRow_keeps {stripe : Stripe σ} {account : σ} {active row : Subscription}
    (h : cancelledRow stripe account active = some row) : DifferInCancelState active row := by
  cases hid : active.stripeId with
  | none => simp [cancelledRow, hid] at h
  | some stripeId =>
      obtain ⟨stripeSub, -, hrow⟩ := (cancelledRow_eq_some hid).mp h
      exact mirrorCancelState_keeps hrow

/-- The row that is found once `active` has become `row`. -/
theorem latestActive_cancelled {db db' : Db} {customerId : UUID} {now : Datetime}
    {active row : Subscription} (hactive : db.latestActive customerId = some active)
    (hkeeps : DifferInCancelState active row)
    (hsave : db.saveSubscription now row = .ok db') :
    db'.latestActive customerId = if row.status.isActive then some row else
      Db.latest? ((db.activeForCustomer customerId).filter fun s => s.id != active.id) := by
  obtain ⟨hmem, hcustomer, hwasActive⟩ := Db.mem_activeForCustomer.mp (Db.mem_of_latestActive hactive)
  have hid : row.id = active.id := by rw [hkeeps]
  have howner : row.stripeCustomerId = some customerId := by rw [hkeeps, hcustomer]
  let rewrite : Subscription → Subscription := fun s =>
    if s.id = row.id then { row with createdAt := s.createdAt } else s
  have hrows : db'.subscriptions.rows = db.subscriptions.rows.map rewrite :=
    Db.rows_saveSubscription_of_mem hsave hmem hid.symm
  have hsame : ∀ s ∈ db.subscriptions.rows, s.id = row.id → s = active :=
    fun s hs h => db.subscriptions.eq_of_clash hs hmem (Or.inl (h.trans hid))
  unfold Db.latestActive Db.activeForCustomer Table.filter at hactive ⊢
  rw [hrows]
  by_cases hends : row.status.isActive = true
  · rw [if_pos hends, List.filter_map]
    have hselected : ∀ s ∈ db.subscriptions.rows,
        ((fun s => s.stripeCustomerId == some customerId && s.status.isActive) ∘ rewrite) s =
          (s.stripeCustomerId == some customerId && s.status.isActive) := by
      intro s hs
      by_cases hrow : s.id = row.id
      · have hs' := hsame s hs hrow
        have hnow : rewrite s = { row with createdAt := s.createdAt } := if_pos hrow
        rw [Function.comp_apply, hnow, hs']
        simp [howner, hends, hcustomer, hwasActive]
      · simp [rewrite, hrow]
    rw [List.filter_congr hselected, Db.latest?_map (fun s => by simp only [rewrite]; split <;> rfl),
      hactive]
    have hrewritten : rewrite active = row := by
      simp only [rewrite, hid, if_true]
      rw [hkeeps]
    rw [Option.map_some, hrewritten]
  · rw [if_neg hends, List.filter_filter]
    refine congrArg Db.latest? (Table.filter_map_fixed ?_ ?_)
    · intro s hs
      by_cases hrow : s.id = row.id
      · simp [rewrite, hrow, hends, hid]
      · simp [rewrite, hrow, ← hid]
    · intro s hs hselected
      have hrow : s.id ≠ row.id := by
        simp only [Bool.and_eq_true, bne_iff_ne] at hselected
        exact hid ▸ hselected.1
      simp [rewrite, hrow]

/-! ## Recording the purchase -/

/-- The org and the membership a redelivery finds. -/
def knownTeam (db : Db) (user : User) (stripeCustomerId : String) : Option (Org × OrgMember) := do
  let existing ← db.customerByStripeId stripeCustomerId
  let orgId ← existing.orgId
  let org ← db.orgById orgId
  let member ← db.memberOf org.id user.id
  return (org, member)

theorem exec_alreadyCreated (user : User) (stripeCustomerId : String) :
    Fallible.exec (alreadyCreated user stripeCustomerId : Handler σ _) w =
      (.ok (knownTeam w.db user stripeCustomerId), w) := by
  unfold alreadyCreated knownTeam
  simp only [Fallible.exec_bind, exec_query, Fallible.resume_ok]
  cases w.db.customerByStripeId stripeCustomerId with
  | none => rfl
  | some existing =>
      simp only [Option.bind_eq_bind, Option.bind_some]
      cases existing.orgId with
      | none => rfl
      | some orgId =>
          simp only [Fallible.exec_bind, exec_query, Fallible.resume_ok, Option.bind_some]
          cases w.db.orgById orgId with
          | none => rfl
          | some org =>
              simp only [Fallible.exec_bind, exec_query, Fallible.resume_ok, Option.bind_some]
              cases w.db.memberOf org.id user.id <;> rfl

/-- The inserted rows are the ones a redelivery finds. -/
theorem knownTeam_insert {db db' : Db} {user : User} {orgName slug stripeCustomerId : String}
    {livemode : Bool} (h : insertOrgWithOwner db (newOrg rt user orgName slug)
      (ownerMembership rt user) (some (orgCustomer rt stripeCustomerId livemode)) = .ok db') :
    (knownTeam db' user stripeCustomerId).isSome = true := by
  obtain ⟨horgs, hmembers, hcustomers, -⟩ := insertOrgWithOwner_eq_ok h
  have hcustomer : db'.customerByStripeId stripeCustomerId =
      some (orgCustomer rt stripeCustomerId livemode) :=
    Db.customerByStripeId_eq_some.mpr ⟨by simp [hcustomers], rfl⟩
  have horg : db'.orgById rt.orgId = some (newOrg rt user orgName slug) :=
    Db.orgById_eq_some.mpr ⟨by simp [horgs], rfl⟩
  have hmember : db'.memberOf rt.orgId user.id = some (ownerMembership rt user) :=
    Db.memberOf_eq_some.mpr ⟨by simp [hmembers], rfl, rfl⟩
  simp [knownTeam, hcustomer, orgCustomer, horg, newOrg, hmember]

theorem exec_createOrgWithOwner {user : User} {orgName stripeCustomerId : String} {livemode : Bool}
    {created : Org × OrgMember} {t : World σ}
    (h : Fallible.exec (createOrgWithOwner rt user orgName (some stripeCustomerId) livemode) w =
      (.ok created, t)) :
    (knownTeam t.db user stripeCustomerId).isSome = true ∧
      (t = w ∨ ∃ slug db', insertOrgWithOwner w.db (newOrg rt user orgName slug)
        (ownerMembership rt user) (some (orgCustomer rt stripeCustomerId livemode)) = .ok db' ∧
        t = { w with db := db' }) := by
  unfold createOrgWithOwner at h
  simp only [Fallible.exec_bind, exec_alreadyCreated, Fallible.resume_ok] at h
  cases hknown : knownTeam w.db user stripeCustomerId with
  | some already =>
      rw [hknown] at h
      cases h
      exact ⟨by rw [hknown]; rfl, Or.inl rfl⟩
  | none =>
      rw [hknown] at h
      simp only [Fallible.exec_bind, exec_query, Fallible.resume_ok, exec_transaction] at h
      cases hinsert : insertOrgWithOwner w.db (newOrg rt user orgName
          (generateUniqueSlug rt.slugify orgName (w.db.orgs.rows.map Org.slug)))
          (ownerMembership rt user) (some (orgCustomer rt stripeCustomerId livemode)) with
      | error e =>
          simp only [Option.map_some, hinsert] at h
          cases h
      | ok db' =>
          simp only [Option.map_some, hinsert] at h
          cases h
          exact ⟨knownTeam_insert hinsert, Or.inr ⟨_, db', hinsert, rfl⟩⟩

theorem exec_createOrgWithOwner_known {user : User} {orgName stripeCustomerId : String}
    {livemode : Bool} (h : (knownTeam w.db user stripeCustomerId).isSome = true) :
    ∃ created, Fallible.exec
      (createOrgWithOwner rt user orgName (some stripeCustomerId) livemode) w =
        (.ok created, w) := by
  obtain ⟨already, halready⟩ := Option.isSome_iff_exists.mp h
  refine ⟨already, ?_⟩
  unfold createOrgWithOwner
  simp only [Fallible.exec_bind, exec_alreadyCreated, Fallible.resume_ok, halready,
    Fallible.exec_pure]

/-- The handler up to the cancellation. -/
def recordPurchase (rt : Runtime σ) (c : TeamCheckout) : Handler σ Unit := do
  let some user ← query fun db => db.userById c.userId
    | throw (.doesNotExist "User matching query does not exist.")
  let _ ← createOrgWithOwner rt user c.orgName (some c.stripeCustomerId) c.livemode
  if let some stripeSubscriptionId := c.stripeSubscriptionId then
    persistTeamSubscription rt stripeSubscriptionId

theorem TeamCheckout.exec_handle (rt : Runtime σ) (c : TeamCheckout) (w : World σ) :
    Fallible.exec (c.handle rt) w = Fallible.exec (do
      recordPurchase rt c
      if !c.keepPersonalSubscription then schedulePersonalCancelAtPeriodEnd rt c.userId) w := by
  unfold TeamCheckout.handle onTeamCheckoutCompleted recordPurchase
  simp only [Fallible.exec_bind, exec_query, Fallible.resume_ok]
  cases w.db.userById c.userId with
  | none => rfl
  | some user =>
      simp only [Fallible.exec_bind]
      rcases Fallible.exec (createOrgWithOwner rt user c.orgName (some c.stripeCustomerId)
        c.livemode) w with ⟨_ | created, t⟩
      · rfl
      · simp only [Fallible.resume_ok]
        cases c.stripeSubscriptionId with
        | none => rfl
        | some stripeSubscriptionId => simp only [Fallible.exec_bind]

/-- The purchase is on record: the team is known, and the bought subscription is
mirrored as Stripe returns it. -/
structure Purchased (stripe : Stripe σ) (account : σ) (c : TeamCheckout) (db : Db) : Prop where
  team : ∃ user, db.userById c.userId = some user ∧
    (knownTeam db user c.stripeCustomerId).isSome = true
  mirrored : ∀ stripeSubscriptionId ∈ c.stripeSubscriptionId, ∃ subData,
    (stripe.call (.subscriptionRetrieve stripeSubscriptionId) account).1 = .ok subData ∧
      Mirrored db subData

/-- A team is known from the customers, the orgs and the members. -/
theorem knownTeam_of_save {db db' : Db} {now : Datetime} {s : Subscription}
    (hsave : db.saveSubscription now s = .ok db') (user : User) (stripeCustomerId : String) :
    knownTeam db' user stripeCustomerId = knownTeam db user stripeCustomerId := by
  have hframe := Db.saveSubscription_frame hsave
  have hcustomers : db'.customers = db.customers := by rw [hframe]
  have horgs : db'.orgs = db.orgs := by rw [hframe]
  have hmembers : db'.members = db.members := by rw [hframe]
  unfold knownTeam Db.customerByStripeId Db.orgById Db.memberOf
  rw [hcustomers, horgs, hmembers]

theorem userById_of_save {db db' : Db} {now : Datetime} {s : Subscription}
    (hsave : db.saveSubscription now s = .ok db') (userId : UUID) :
    db'.userById userId = db.userById userId := by
  have husers : db'.users = db.users := by rw [Db.saveSubscription_frame hsave]
  unfold Db.userById
  rw [husers]

/-- A purchase stays on record while other subscriptions are saved. -/
theorem Purchased.of_save {stripe : Stripe σ} {account : σ} {c : TeamCheckout} {db db' : Db}
    {now : Datetime} {s : Subscription} (h : Purchased stripe account c db)
    (hretrieve : ∀ id ∈ c.stripeSubscriptionId, ∀ subData,
      (stripe.call (.subscriptionRetrieve id) account).1 = .ok subData →
        Describes c.stripeCustomerId id subData)
    (hsave : db.saveSubscription now s = .ok db')
    (hother : ∀ id ∈ c.stripeSubscriptionId, ∀ row ∈ db.subscriptions.rows,
      row.stripeId = some id → row.id ≠ s.id) : Purchased stripe account c db' := by
  obtain ⟨user, huser, hknown⟩ := h.team
  refine ⟨⟨user, ?_, ?_⟩, fun id hid => ?_⟩
  · rw [userById_of_save hsave]
    exact huser
  · rw [knownTeam_of_save hsave]
    exact hknown
  · obtain ⟨subData, hanswer, hmirrored⟩ := h.mirrored id hid
    refine ⟨subData, hanswer, hmirrored.of_save hsave fun d row hread hrow hstripe => ?_⟩
    obtain ⟨hd, -⟩ := hretrieve id hid subData hanswer d hread
    exact hother id hid row hrow (hstripe.trans (congrArg some hd))

theorem Purchased.withEvents {stripe : Stripe σ} {account : σ} {c : TeamCheckout} {db : Db}
    (h : Purchased stripe account c db) (events : Table StripeEvent) :
    Purchased stripe account c (db.withEvents events) := by
  refine ⟨h.team, fun id hid => ?_⟩
  obtain ⟨subData, hanswer, hmirrored⟩ := h.mirrored id hid
  exact ⟨subData, hanswer, hmirrored.withEvents events⟩

/-- A purchase on record is recorded again without a change. -/
theorem exec_recordPurchase_again (h : Repeats rt.stripe accounts bought)
    {c : TeamCheckout} (hbought : ∀ id ∈ c.stripeSubscriptionId, bought id)
    (hw : accounts w.stripe) {account : σ} (haccount : accounts account)
    (hpurchased : Purchased rt.stripe account c w.db) :
    ∃ s, accounts s ∧ Fallible.exec (recordPurchase rt c) w = (.ok (), { w with stripe := s }) := by
  obtain ⟨user, huser, hknown⟩ := hpurchased.team
  obtain ⟨created, hcreated⟩ : ∃ created, Fallible.exec (createOrgWithOwner rt user c.orgName
      (some c.stripeCustomerId) c.livemode) w = (.ok created, w) :=
    exec_createOrgWithOwner_known hknown
  unfold recordPurchase
  simp only [Fallible.exec_bind, exec_query, Fallible.resume_ok, huser, hcreated]
  cases hid : c.stripeSubscriptionId with
  | none => exact ⟨w.stripe, hw, rfl⟩
  | some stripeSubscriptionId =>
      obtain ⟨subData, hanswer, hmirrored⟩ := hpurchased.mirrored stripeSubscriptionId hid
      have hsame := h.retrieve stripeSubscriptionId w.stripe account (hbought _ hid) hw haccount
      refine ⟨_, h.keeps (.subscriptionRetrieve stripeSubscriptionId) w.stripe hw, ?_⟩
      simp only [persistTeamSubscription, Fallible.exec_bind, exec_callStripe, hsame, hanswer,
        Fallible.resume_ok]
      exact exec_sync_of_mirrored hmirrored

/-! ## The buyer's personal rows -/

/-- The row is of the bought subscription. -/
def TeamCheckout.isBought (c : TeamCheckout) (s : Subscription) : Bool :=
  c.stripeSubscriptionId.any fun stripeSubscriptionId => s.stripeId == some stripeSubscriptionId

/-- The active rows of the buyer's personal customer, but for the bought
subscription. -/
def TeamCheckout.personalRows (c : TeamCheckout) (db : Db) : List Subscription :=
  match db.customerByUserId c.userId with
  | none => []
  | some personal => (db.activeForCustomer personal.id).filter fun s => !c.isBought s

/-- The mirror of another customer's subscription takes that subscription, and no
other, from the active rows of a customer. -/
theorem activeForCustomer_mirrored {db db' : Db} {personalId freshId planId : UUID}
    {now : Datetime} {stripeId : String} {customer : StripeCustomer} {fields : MirroredFields}
    (hunused : Unused freshId db) (hother : customer.id ≠ personalId)
    (hsave : db.saveSubscription now (mirrorRow freshId now stripeId customer planId
      (db.subscriptionByStripeId stripeId) fields) = .ok db') :
    db'.activeForCustomer personalId =
      (db.activeForCustomer personalId).filter fun s => !(s.stripeId == some stripeId) := by
  unfold Db.activeForCustomer Table.filter
  rw [List.filter_filter]
  cases hfound : db.subscriptionByStripeId stripeId with
  | none =>
      rw [hfound] at hsave
      have hnone := Db.subscriptionByStripeId_eq_none.mp hfound
      rw [Db.rows_saveSubscription_of_new hsave hunused, List.filter_append]
      have hnew : [{ mirrorRow freshId now stripeId customer planId none fields with
          createdAt := now }].filter (fun s : Subscription =>
            s.stripeCustomerId == some personalId && s.status.isActive) = [] := by
        simp [mirrorRow, hother]
      rw [hnew, List.append_nil]
      refine List.filter_congr fun s hs => ?_
      simp [hnone s hs]
  | some existing =>
      rw [hfound] at hsave
      obtain ⟨hmem, hstripe⟩ := Db.subscriptionByStripeId_eq_some.mp hfound
      rw [Db.rows_saveSubscription_of_mem hsave hmem rfl]
      refine Table.filter_map_fixed ?_ ?_
      · intro s hs
        by_cases hsame : s.id = existing.id
        · have heq : s = existing := db.subscriptions.eq_of_clash hs hmem (Or.inl hsame)
          simp [heq, mirrorRow, hother, hstripe]
        · have hne : s.stripeId ≠ some stripeId := fun h =>
            hsame (congrArg Subscription.id (db.subscriptions.eq_of_clash hs hmem
              (Or.inr ⟨by rw [h]; rfl, h.trans hstripe.symm⟩)))
          simp [mirrorRow, hsame, hne]
      · intro s hs hselected
        have hsame : s.id ≠ existing.id := by
          intro h
          have heq : s = existing := db.subscriptions.eq_of_clash hs hmem (Or.inl h)
          simp [heq, hstripe] at hselected
        simp [mirrorRow, hsame]

/-- The customer of a known team belongs to its org. -/
theorem customer_of_knownTeam {db : Db} {user : User} {stripeCustomerId : String}
    (h : (knownTeam db user stripeCustomerId).isSome = true) {customer : StripeCustomer}
    (hcustomer : db.customerByStripeId stripeCustomerId = some customer) :
    customer.orgId ≠ none := by
  intro hnone
  simp [knownTeam, hcustomer, hnone] at h

/-- An org's customer is not one of a user. -/
theorem customerByUserId_insert {db db' : Db} {user : User} {orgName slug stripeCustomerId : String}
    {livemode : Bool} (h : insertOrgWithOwner db (newOrg rt user orgName slug)
      (ownerMembership rt user) (some (orgCustomer rt stripeCustomerId livemode)) = .ok db')
    (userId : UUID) : db'.customerByUserId userId = db.customerByUserId userId := by
  obtain ⟨-, -, hcustomers, -⟩ := insertOrgWithOwner_eq_ok h
  unfold Db.customerByUserId Table.find?
  rw [hcustomers, List.find?_append]
  simp [orgCustomer]

/-- Creating the org leaves users and subscriptions, and what is found of a user's
customer. -/
theorem createOrgWithOwner_frame {user : User} {orgName stripeCustomerId : String}
    {livemode : Bool} {created : Org × OrgMember} {t : World σ}
    (h : Fallible.exec (createOrgWithOwner rt user orgName (some stripeCustomerId) livemode) w =
      (.ok created, t)) :
    t = { w with db := t.db } ∧ t.db.users = w.db.users ∧
      t.db.subscriptions = w.db.subscriptions ∧
      ∀ userId, t.db.customerByUserId userId = w.db.customerByUserId userId := by
  rcases (exec_createOrgWithOwner h).2 with rfl | ⟨slug, db', hinsert, rfl⟩
  · exact ⟨rfl, rfl, rfl, fun _ => rfl⟩
  · have hframe := (insertOrgWithOwner_eq_ok hinsert).2.2.2
    refine ⟨rfl, ?_, ?_, customerByUserId_insert hinsert⟩
    · rw [hframe]
    · rw [hframe]

/-- `db'` has the buyer's personal customer of `db`, whose active rows are the
personal rows of `db`. -/
structure KeepsPersonal (c : TeamCheckout) (db db' : Db) : Prop where
  customer : db'.customerByUserId c.userId = db.customerByUserId c.userId
  rows : ∀ personal, db.customerByUserId c.userId = some personal →
    db'.activeForCustomer personal.id = c.personalRows db

theorem KeepsPersonal.of_filter {c : TeamCheckout} {db db' : Db}
    (hcustomer : db'.customerByUserId c.userId = db.customerByUserId c.userId)
    (hrows : ∀ personal, db.customerByUserId c.userId = some personal →
      db'.activeForCustomer personal.id =
        (db.activeForCustomer personal.id).filter fun s => !c.isBought s) :
    KeepsPersonal c db db' := by
  refine ⟨hcustomer, fun personal hpersonal => ?_⟩
  rw [hrows personal hpersonal]
  simp only [TeamCheckout.personalRows, hpersonal]

/-- What a cancellation finds, in terms of the personal rows of an earlier state. -/
theorem KeepsPersonal.cancellable_eq {c : TeamCheckout} {db db' : Db}
    (h : KeepsPersonal c db db') : cancellable db' c.userId =
      (Db.latest? (c.personalRows db)).filter fun active => active.stripeId.isSome := by
  unfold cancellable
  rw [h.customer]
  cases hpersonal : db.customerByUserId c.userId with
  | none => simp [TeamCheckout.personalRows, hpersonal, Db.latest?]
  | some personal =>
      simp only [Option.bind_eq_bind, Option.bind_some, Db.latestActive, h.rows personal hpersonal]

/-- What the next cancellation finds, once Stripe's answer has made `row` of the
row the first one found. -/
theorem KeepsPersonal.cancellable_next {c : TeamCheckout} {start db db' : Db}
    (h : KeepsPersonal c start db) {first row : Subscription} {now : Datetime}
    (hfirst : Db.latest? (c.personalRows start) = some first)
    (hkeeps : DifferInCancelState first row) (hsave : db.saveSubscription now row = .ok db') :
    cancellable db' c.userId = (if row.status.isActive then some row else
      Db.latest? ((c.personalRows start).filter fun s => s.id != first.id)).filter
        fun active => active.stripeId.isSome := by
  have hcustomers : db'.customers = db.customers := by rw [Db.saveSubscription_frame hsave]
  have hcustomer : db'.customerByUserId c.userId = start.customerByUserId c.userId := by
    rw [← h.customer]
    unfold Db.customerByUserId
    rw [hcustomers]
  unfold cancellable
  rw [hcustomer]
  cases hpersonal : start.customerByUserId c.userId with
  | none => simp [TeamCheckout.personalRows, hpersonal, Db.latest?] at hfirst
  | some personal =>
      have hrows := h.rows personal hpersonal
      have hactive : db.latestActive personal.id = some first := by
        rw [Db.latestActive, hrows]
        exact hfirst
      simp only [Option.bind_eq_bind, Option.bind_some]
      rw [latestActive_cancelled hactive hkeeps hsave, hrows]

/-- A purchase that succeeds is on record, and has left the buyer's personal rows. -/
theorem exec_recordPurchase (h : Repeats rt.stripe accounts bought) {c : TeamCheckout}
    (hbought : ∀ id ∈ c.stripeSubscriptionId, bought id) (hw : accounts w.stripe) {account : σ}
    (haccount : accounts account)
    (hretrieve : ∀ id ∈ c.stripeSubscriptionId, ∀ subData,
      (rt.stripe.call (.subscriptionRetrieve id) account).1 = .ok subData →
        Describes c.stripeCustomerId id subData)
    (hunused : Unused rt.subscriptionId w.db) {t : World σ}
    (hexec : Fallible.exec (recordPurchase rt c) w = (.ok (), t)) :
    accounts t.stripe ∧ t.queue = w.queue ∧ Purchased rt.stripe account c t.db ∧
      KeepsPersonal c w.db t.db := by
  unfold recordPurchase at hexec
  simp only [Fallible.exec_bind, exec_query, Fallible.resume_ok] at hexec
  cases huser : w.db.userById c.userId with
  | none =>
      rw [huser] at hexec
      cases hexec
  | some user =>
      rw [huser] at hexec
      simp only [Fallible.exec_bind] at hexec
      rcases hcreate : Fallible.exec (createOrgWithOwner rt user c.orgName
        (some c.stripeCustomerId) c.livemode) w with ⟨_ | created, t₁⟩
      · rw [hcreate] at hexec
        cases hexec
      rw [hcreate] at hexec
      simp only [Fallible.resume_ok] at hexec
      have hknown := (exec_createOrgWithOwner hcreate).1
      obtain ⟨hworld, husers, hsubscriptions, hcustomers⟩ := createOrgWithOwner_frame hcreate
      have hstripe₁ : t₁.stripe = w.stripe := by rw [hworld]
      have hqueue₁ : t₁.queue = w.queue := by rw [hworld]
      have huser₁ : t₁.db.userById c.userId = some user := by
        rw [← huser]
        unfold Db.userById
        rw [husers]
      have hactive₁ : ∀ customerId,
          t₁.db.activeForCustomer customerId = w.db.activeForCustomer customerId := by
        intro customerId
        unfold Db.activeForCustomer
        rw [hsubscriptions]
      cases hid : c.stripeSubscriptionId with
      | none =>
          rw [hid] at hexec
          cases hexec
          refine ⟨hstripe₁ ▸ hw, hqueue₁, ⟨⟨user, huser₁, hknown⟩, by simp [hid]⟩, ?_⟩
          refine KeepsPersonal.of_filter (hcustomers _) fun personal _ => ?_
          rw [hactive₁]
          exact (List.filter_eq_self.mpr fun s _ => by simp [TeamCheckout.isBought, hid]).symm
      | some stripeSubscriptionId =>
          rw [hid] at hexec
          simp only [persistTeamSubscription, Fallible.exec_bind, exec_callStripe] at hexec
          have hsame := h.retrieve stripeSubscriptionId t₁.stripe account (hbought _ hid)
            (hstripe₁ ▸ hw) haccount
          rw [hsame] at hexec
          cases hanswer : (rt.stripe.call (.subscriptionRetrieve stripeSubscriptionId) account).1 with
          | error e =>
              rw [hanswer] at hexec
              cases hexec
          | ok subData =>
              rw [hanswer] at hexec
              simp only [Fallible.resume_ok] at hexec
              obtain ⟨hmirrored, d, fields, customer, planPrice, db', hresolves, hsave, rfl⟩ :=
                exec_sync_mirrored hexec
              obtain ⟨hd, hcustomerId⟩ := hretrieve _ hid subData hanswer d hresolves.read
              have hteam : customer.orgId ≠ none :=
                customer_of_knownTeam hknown (hcustomerId ▸ hresolves.customer)
              have hcustomersSave : db'.customers = t₁.db.customers := by
                rw [Db.saveSubscription_frame hsave]
              refine ⟨h.keeps _ _ (hstripe₁ ▸ hw), hqueue₁, ⟨⟨user, ?_, ?_⟩, ?_⟩, ?_⟩
              · exact (userById_of_save hsave _).trans huser₁
              · exact (congrArg Option.isSome (knownTeam_of_save hsave _ _)).trans hknown
              · intro id hid'
                obtain rfl := Option.some.inj (hid.symm.trans hid')
                exact ⟨subData, hanswer, hmirrored⟩
              · refine KeepsPersonal.of_filter ?_ fun personal hpersonal => ?_
                · rw [← hcustomers c.userId]
                  exact congrArg (Table.find? · _) hcustomersSave
                · have hfound := (hcustomers c.userId).trans hpersonal
                  obtain ⟨hmem, huserId⟩ := Table.mem_of_find? hfound
                  have hother : customer.id ≠ personal.id := by
                    intro hsameId
                    have heq : customer = personal := t₁.db.customers.eq_of_clash
                      (Db.customerByStripeId_eq_some.mp hresolves.customer).1 hmem (Or.inl hsameId)
                    exact hteam (heq ▸ orgId_eq_none hmem (beq_iff_eq.mp huserId))
                  have hunused₁ : Unused rt.subscriptionId t₁.db := by
                    intro s hs
                    exact hunused s (hsubscriptions ▸ hs)
                  rw [activeForCustomer_mirrored hunused₁ hother hsave, hactive₁, hd]
                  simp [TeamCheckout.isBought, hid]

/-! ## The handler again -/

/-- A second run cancels another subscription: Stripe's answer ends the latest of
the personal rows, and changes the one that is then the latest. -/
def TeamCheckout.CancelsAnother (stripe : Stripe σ) (account : σ) (c : TeamCheckout) (db : Db) :
    Prop :=
  c.keepPersonalSubscription = false ∧ ∃ first ended second changed,
    Db.latest? (c.personalRows db) = some first ∧
    cancelledRow stripe account first = some ended ∧ ended.status.isActive = false ∧
    Db.latest? ((c.personalRows db).filter fun s => s.id != first.id) = some second ∧
    cancelledRow stripe account second = some changed ∧ changed ≠ second

theorem stripeId_of_cancelledRow {stripe : Stripe σ} {account : σ} {active row : Subscription}
    (h : cancelledRow stripe account active = some row) : active.stripeId.isSome = true := by
  cases hid : active.stripeId with
  | none => simp [cancelledRow, hid] at h
  | some stripeId => rfl

/-- A cancelled row is stored as Stripe's answer has made it. -/
theorem mem_cancelled {db db' : Db} {now : Datetime} {active row : Subscription}
    (hmem : active ∈ db.subscriptions.rows) (hkeeps : DifferInCancelState active row)
    (hsave : db.saveSubscription now row = .ok db') : row ∈ db'.subscriptions.rows := by
  have hid : active.id = row.id := by rw [hkeeps]
  refine (Db.mem_saveSubscription hsave).mpr (Or.inr (Or.inl ⟨active, hmem, hid, ?_⟩))
  rw [hkeeps]

/-- A run of the handler that succeeds has recorded the purchase, and then cancelled
the personal subscription, unless that is kept. -/
theorem TeamCheckout.exec_handle_ok {c : TeamCheckout} {t : World σ}
    (h : Fallible.exec (c.handle rt) w = (.ok (), t)) :
    ∃ t₁, Fallible.exec (recordPurchase rt c) w = (.ok (), t₁) ∧
      ((c.keepPersonalSubscription = true ∧ t = t₁) ∨
        (c.keepPersonalSubscription = false ∧
          Fallible.exec (schedulePersonalCancelAtPeriodEnd rt c.userId) t₁ = (.ok (), t))) := by
  rw [TeamCheckout.exec_handle, Fallible.exec_bind] at h
  rcases hrecord : Fallible.exec (recordPurchase rt c) w with ⟨_ | _, t₁⟩
  · rw [hrecord] at h
    cases h
  · rw [hrecord, Fallible.resume_ok] at h
    refine ⟨t₁, rfl, ?_⟩
    cases hkeep : c.keepPersonalSubscription with
    | true =>
        simp only [hkeep, Bool.not_true, Bool.false_eq_true, if_false] at h
        cases h
        exact Or.inl ⟨rfl, rfl⟩
    | false =>
        simp only [hkeep, Bool.not_false, if_true] at h
        exact Or.inr ⟨rfl, h⟩

/-- A run of the handler on a purchase on record only cancels. -/
theorem TeamCheckout.exec_handle_purchased (h : Repeats rt.stripe accounts bought)
    {c : TeamCheckout} (hbought : ∀ id ∈ c.stripeSubscriptionId, bought id)
    (hw : accounts w.stripe) {account : σ} (haccount : accounts account)
    (hpurchased : Purchased rt.stripe account c w.db) {t : World σ}
    (hexec : Fallible.exec (c.handle rt) w = (.ok (), t)) :
    t.queue = w.queue ∧ ((c.keepPersonalSubscription = true ∧ t.db = w.db) ∨
      (c.keepPersonalSubscription = false ∧
        Cancelled rt.stripe account c.userId rt.now w.db t.db)) := by
  obtain ⟨t₁, hrecord, hrest⟩ := TeamCheckout.exec_handle_ok hexec
  obtain ⟨s, hs, hagain⟩ := exec_recordPurchase_again h hbought hw haccount hpurchased
  rw [hagain] at hrecord
  cases hrecord
  rcases hrest with ⟨hkeep, rfl⟩ | ⟨hkeep, hcancel⟩
  · exact ⟨rfl, Or.inl ⟨hkeep, rfl⟩⟩
  · have hw' : accounts ({ w with stripe := s } : World σ).stripe := hs
    obtain ⟨-, hqueue, hcancelled⟩ := exec_schedulePersonalCancel h hw' haccount hcancel
    exact ⟨hqueue, Or.inr ⟨hkeep, hcancelled⟩⟩

/-- The second cancellation changes something exactly when it finds another row
that Stripe's answer changes. -/
theorem cancelled_again {stripe : Stripe σ} {account : σ} {c : TeamCheckout} {start db db' db'' : Db}
    {now now' : Datetime} {events : Table StripeEvent} (hkeep : c.keepPersonalSubscription = false)
    (hpersonal : KeepsPersonal c start db)
    (hfirst : Cancelled stripe account c.userId now db db')
    (hsecond : Cancelled stripe account c.userId now' (db'.withEvents events) db'') :
    (c.CancelsAnother stripe account start → db''.subscriptions ≠ db'.subscriptions) ∧
      (¬ c.CancelsAnother stripe account start → db'' = db'.withEvents events) := by
  have hfind : cancellable (db'.withEvents events) c.userId = cancellable db' c.userId := rfl
  unfold Cancelled at hsecond
  rw [hfind] at hsecond
  rcases hfirst with ⟨hnone, rfl⟩ | ⟨first, ended, hfound, hended, hsave⟩
  · -- nothing to cancel, the first time and the second
    rcases hsecond with ⟨-, rfl⟩ | ⟨active, -, hfound, -⟩
    · refine ⟨fun hanother => ?_, fun _ => rfl⟩
      obtain ⟨-, first, ended, -, -, hlatest, hended, -⟩ := hanother
      have hid := stripeId_of_cancelledRow hended
      rw [hpersonal.cancellable_eq, hlatest, Option.filter_some, if_pos hid] at hnone
      cases hnone
    · cases hnone.symm.trans hfound
  · have hkeeps := cancelledRow_keeps hended
    have hlatest : Db.latest? (c.personalRows start) = some first := by
      rw [hpersonal.cancellable_eq] at hfound
      exact (Option.filter_eq_some_iff.mp hfound).1
    have hnext := hpersonal.cancellable_next hlatest hkeeps hsave
    have hanother : c.CancelsAnother stripe account start ↔ ended.status.isActive = false ∧
        ∃ second changed,
          Db.latest? ((c.personalRows start).filter fun s => s.id != first.id) = some second ∧
          cancelledRow stripe account second = some changed ∧ changed ≠ second := by
      constructor
      · rintro ⟨-, first', ended', second, changed, hfirst', hended', hends, hrest⟩
        obtain rfl := Option.some.inj (hlatest.symm.trans hfirst')
        obtain rfl := Option.some.inj (hended.symm.trans hended')
        exact ⟨hends, second, changed, hrest⟩
      · rintro ⟨hends, second, changed, hrest⟩
        exact ⟨hkeep, first, ended, second, changed, hlatest, hended, hends, hrest⟩
    rw [hanother]
    by_cases hactive : ended.status.isActive = true
    · -- the first row is found again, and is as Stripe's answer makes it
      have hfits : ended.fits = true := (Db.saveSubscription_eq_ok hsave).1
      have hmem := mem_cancelled (mem_of_cancellable hfound) hkeeps hsave
      have hid := stripeId_of_cancelledRow (cancelledRow_again hended)
      rw [if_pos hactive, Option.filter_some, if_pos hid] at hnext
      refine ⟨fun h => by simp [hactive] at h, fun _ => ?_⟩
      rcases hsecond with ⟨hnone, -⟩ | ⟨again, row, hfound', hrow, hsave'⟩
      · cases hnone.symm.trans hnext
      · obtain rfl := Option.some.inj (hnext.symm.trans hfound')
        obtain rfl := Option.some.inj ((cancelledRow_again hended).symm.trans hrow)
        have hstored : ended ∈ (db'.withEvents events).subscriptions.rows := hmem
        rw [Db.saveSubscription_self now' hstored hfits] at hsave'
        exact (Except.ok.inj hsave').symm
    · rw [if_neg hactive] at hnext
      rcases hsecond with ⟨hnone, rfl⟩ | ⟨second, changed, hfound', hchanged, hsave'⟩
      · refine ⟨?_, fun _ => rfl⟩
        rintro ⟨-, second, changed, hsecond, hchanged, -⟩
        have hid := stripeId_of_cancelledRow hchanged
        rw [hsecond, Option.filter_some, if_pos hid] at hnext
        cases hnone.symm.trans hnext
      · have hsecond := (Option.filter_eq_some_iff.mp (hnext.symm.trans hfound')).1
        have hmem := mem_of_cancellable hfound'
        constructor
        · rintro ⟨-, second', changed', hsecond', hchanged', hne⟩ hsame
          obtain rfl := Option.some.inj (hsecond.symm.trans hsecond')
          obtain rfl := Option.some.inj (hchanged.symm.trans hchanged')
          have hkeeps' := cancelledRow_keeps hchanged
          have hmemStored : second ∈ (db'.withEvents events).subscriptions.rows := hmem
          have hstored := mem_cancelled hmemStored hkeeps' hsave'
          rw [hsame] at hstored
          exact hne (db'.subscriptions.eq_of_clash hstored hmem (Or.inl (by rw [hkeeps'])))
        · intro hnone
          have heq : changed = second := by
            by_contra hne
            exact hnone ⟨by simpa using hactive, second, changed, hsecond, hchanged, hne⟩
          subst heq
          have hstored : changed ∈ (db'.withEvents events).subscriptions.rows := hmem
          have hfits := (Db.saveSubscription_eq_ok hsave').1
          rw [Db.saveSubscription_self now' hstored hfits] at hsave'
          exact (Except.ok.inj hsave').symm

/-- A cancellation leaves the record of the purchase. -/
theorem Purchased.of_cancelled {stripe : Stripe σ} {account : σ} {c : TeamCheckout}
    {start db db' : Db} {now : Datetime} (h : Purchased stripe account c db)
    (hretrieve : ∀ id ∈ c.stripeSubscriptionId, ∀ subData,
      (stripe.call (.subscriptionRetrieve id) account).1 = .ok subData →
        Describes c.stripeCustomerId id subData)
    (hpersonal : KeepsPersonal c start db)
    (hcancelled : Cancelled stripe account c.userId now db db') :
    Purchased stripe account c db' := by
  rcases hcancelled with ⟨-, rfl⟩ | ⟨active, row, hfound, hrow, hsave⟩
  · exact h
  · refine h.of_save hretrieve hsave fun id hid bought hmem hstripe hsame => ?_
    have hactiveId : active.id = row.id := by rw [cancelledRow_keeps hrow]
    have heq : bought = active := db.subscriptions.eq_of_clash hmem (mem_of_cancellable hfound)
      (Or.inl (hsame.trans hactiveId.symm))
    rw [hpersonal.cancellable_eq] at hfound
    have hpersonalRow := Db.mem_of_latest? (Option.filter_eq_some_iff.mp hfound).1
    unfold TeamCheckout.personalRows at hpersonalRow
    split at hpersonalRow
    · cases hpersonalRow
    · have hnot := (List.mem_filter.mp hpersonalRow).2
      rw [← heq, TeamCheckout.isBought, Option.mem_def.mp hid] at hnot
      simp [hstripe] at hnot

/-- A second run of the handler changes something exactly when it cancels another
subscription, and then it changes the subscriptions. -/
theorem TeamCheckout.handle_again (h : Repeats rt.stripe accounts bought) {c : TeamCheckout}
    (hbought : ∀ id ∈ c.stripeSubscriptionId, bought id) (hw : accounts w.stripe)
    (hretrieve : ∀ id ∈ c.stripeSubscriptionId, ∀ subData,
      (rt.stripe.call (.subscriptionRetrieve id) w.stripe).1 = .ok subData →
        Describes c.stripeCustomerId id subData)
    (hunused : Unused rt.subscriptionId w.db) {t : World σ}
    (hfirst : Fallible.exec (c.handle rt) w = (.ok (), t)) :
    t.queue = w.queue ∧ accounts t.stripe ∧
    ∀ (rt' : Runtime σ) (w' t' : World σ) (events : Table StripeEvent), rt'.stripe = rt.stripe →
      w'.db = t.db.withEvents events → accounts w'.stripe →
      Fallible.exec (c.handle rt') w' = (.ok (), t') →
      t'.queue = w'.queue ∧ (c.CancelsAnother rt.stripe w.stripe w.db →
        t'.db.subscriptions ≠ w'.db.subscriptions) ∧
      (¬ c.CancelsAnother rt.stripe w.stripe w.db → t'.db = w'.db) := by
  obtain ⟨t₁, hrecord, hrest⟩ := TeamCheckout.exec_handle_ok hfirst
  obtain ⟨hstripe₁, hqueue₁, hpurchased, hpersonal⟩ :=
    exec_recordPurchase h hbought hw hw hretrieve hunused hrecord
  rcases hrest with ⟨hkeep, rfl⟩ | ⟨hkeep, hcancel⟩
  · refine ⟨hqueue₁, hstripe₁, fun rt' w' t' events hstripe hdb hw' hsecond => ?_⟩
    have hpurchased' : Purchased rt'.stripe w.stripe c w'.db := by
      rw [hstripe, hdb]
      exact hpurchased.withEvents events
    obtain ⟨hqueue, hcases⟩ := TeamCheckout.exec_handle_purchased (hstripe ▸ h) hbought hw' hw
      hpurchased' hsecond
    refine ⟨hqueue, fun hanother => ?_, fun _ => ?_⟩
    · cases hkeep.symm.trans hanother.1
    · rcases hcases with ⟨-, hsame⟩ | ⟨hkeep', -⟩
      · exact hsame
      · cases hkeep.symm.trans hkeep'
  · obtain ⟨hstripe, hqueue, hcancelled⟩ := exec_schedulePersonalCancel h hstripe₁ hw hcancel
    refine ⟨hqueue.trans hqueue₁, hstripe, fun rt' w' t' events hstripe' hdb hw' hsecond => ?_⟩
    have hpurchased' : Purchased rt'.stripe w.stripe c w'.db := by
      rw [hstripe', hdb]
      exact (hpurchased.of_cancelled hretrieve hpersonal hcancelled).withEvents events
    obtain ⟨hqueue', hcases⟩ := TeamCheckout.exec_handle_purchased (hstripe' ▸ h) hbought hw' hw
      hpurchased' hsecond
    refine ⟨hqueue', ?_⟩
    rcases hcases with ⟨hkeep', -⟩ | ⟨-, hcancelled'⟩
    · cases hkeep.symm.trans hkeep'
    · rw [hstripe', hdb] at hcancelled'
      rw [hdb]
      have hagain := cancelled_again hkeep hpersonal hcancelled hcancelled'
      exact hagain

end Replay

end Saasmint
