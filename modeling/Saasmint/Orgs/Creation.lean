import Saasmint.Billing.Payloads
import Saasmint.Mirror.Representation

/-!
# A paid team checkout creates one org

The handler of a team `checkout.session.completed` event may run any number of
times, at once, after failures, and among the handlers of the subscription it
bought.  `TeamInv` is what every one of their actions keeps: the tables of orgs,
memberships and customers are those of the start, or have grown by one org with
its owner and its customer; and the rows of the bought subscription belong to
that customer.

The insert of the customer is what admits only one team: its Stripe id is
unique, and the org and the membership are committed together with it.
-/

namespace Saasmint

open Atomic Handler Relational

variable {σ : Type}

/-! ## The event -/

/-- What `_on_checkout_completed` passes on for a team plan. -/
structure TeamCheckout where
  userId : UUID
  orgName : String
  stripeCustomerId : String
  livemode : Bool
  stripeSubscriptionId : Option String
  keepPersonalSubscription : Bool
deriving DecidableEq

def TeamCheckout.handle (rt : Runtime σ) (c : TeamCheckout) : Handler σ Unit :=
  onTeamCheckoutCompleted rt c.userId c.orgName c.stripeCustomerId c.livemode
    c.stripeSubscriptionId c.keepPersonalSubscription

/-- The session is one of a team plan, with these contents. -/
def readTeamCheckout (sessionData : Json) : Py (Option TeamCheckout) := do
  let mode ← sessionData.get "mode"
  if mode.isStr "payment" then return none
  let metadata := (← sessionData.get "metadata").orElse (.obj [])
  let orgName ← metadata.get "org_name"
  if !orgName.truthy then return none
  let clientRef ← sessionData.get "client_reference_id"
  if !clientRef.truthy then return none
  let userId ← uuidOf clientRef
  let stripeCustomerId ← sessionData.get "customer"
  if !stripeCustomerId.truthy then return none
  let subscriptionId ← sessionData.get "subscription"
  let livemode ← sessionData.getD "livemode" (.bool false)
  let keepPersonalSubscription := (← metadata.get "keep_personal_subscription").isStr "true"
  return some {
    userId, orgName := orgName.toStr, stripeCustomerId := stripeCustomerId.toStr
    livemode := livemode.truthy
    stripeSubscriptionId := if subscriptionId.isNull then none else some subscriptionId.toStr
    keepPersonalSubscription }

theorem onCheckoutCompleted_of_team {sessionData : Json} {c : TeamCheckout}
    (h : readTeamCheckout sessionData = .ok (some c)) (rt : Runtime σ) :
    onCheckoutCompleted rt sessionData = c.handle rt := by
  unfold readTeamCheckout at h
  unfold onCheckoutCompleted
  obtain ⟨mode, hmode, h⟩ := bind_eq_ok.mp h
  split at h
  next => cases h
  next hteam =>
    dsimp only at h
    obtain ⟨metadata, hmetadata, h⟩ := bind_eq_ok.mp h
    obtain ⟨orgName, horgName, h⟩ := bind_eq_ok.mp h
    split at h
    next => cases h
    next hname =>
      obtain ⟨clientRef, hclientRef, h⟩ := bind_eq_ok.mp h
      split at h
      next => cases h
      next href =>
        obtain ⟨userId, huserId, h⟩ := bind_eq_ok.mp h
        obtain ⟨customer, hcustomer, h⟩ := bind_eq_ok.mp h
        split at h
        next => cases h
        next hgiven =>
          obtain ⟨subscription, hsubscription, h⟩ := bind_eq_ok.mp h
          obtain ⟨livemode, hlivemode, h⟩ := bind_eq_ok.mp h
          obtain ⟨keep, hkeep, h⟩ := bind_eq_ok.mp h
          cases h
          rw [Bool.not_eq_true', Bool.not_eq_false] at hname href hgiven
          simp [hmode, hteam, hmetadata, horgName, hname, hclientRef, href, huserId, hcustomer,
            hgiven, hsubscription, hlivemode, hkeep, TeamCheckout.handle]

/-! ## What every state of a run satisfies -/

/-- No org, membership or customer has been added. -/
structure NoTeam (start db : Db) : Prop where
  orgs : db.orgs = start.orgs
  members : db.members = start.members
  customers : db.customers = start.customers

/-- One org has been added, with its owner, the buyer, and its customer. -/
structure TeamCreated (c : TeamCheckout) (start db : Db) (org : Org) (member : OrgMember)
    (customer : StripeCustomer) : Prop where
  orgs : db.orgs.rows = start.orgs.rows ++ [org]
  members : db.members.rows = start.members.rows ++ [member]
  customers : db.customers.rows = start.customers.rows ++ [customer]
  stripeId : customer.stripeId = c.stripeCustomerId
  linked : customer.orgId = some org.id
  createdBy : org.createdById = some c.userId
  memberOf : member.orgId = org.id
  buyer : member.userId = c.userId
  owner : member.role = .owner
  billing : member.isBilling = true

/-- The rows of the bought subscription belong to the customer that bought it. -/
def PurchaseLinked (stripeCustomerId stripeSubscriptionId : String) (db : Db) : Prop :=
  ∀ s ∈ db.subscriptions.rows, s.stripeId = some stripeSubscriptionId →
    ∃ k ∈ db.customers.rows, k.stripeId = stripeCustomerId ∧ s.stripeCustomerId = some k.id

structure TeamInv (c : TeamCheckout) (stripeSubscriptionId : String) (start db : Db) : Prop where
  teams : NoTeam start db ∨ ∃ org member customer, TeamCreated c start db org member customer
  purchase : PurchaseLinked c.stripeCustomerId stripeSubscriptionId db

/-- The customer has an org. -/
def HasTeam (stripeCustomerId : String) (db : Db) : Prop :=
  ∃ k ∈ db.customers.rows, k.stripeId = stripeCustomerId ∧ k.orgId ≠ none

theorem HasTeam.mono {stripeCustomerId : String} {db db' : Db} (h : HasTeam stripeCustomerId db)
    (hcustomers : db.customers.rows ⊆ db'.customers.rows) : HasTeam stripeCustomerId db' := by
  obtain ⟨k, hk, hstripe, horg⟩ := h
  exact ⟨k, hcustomers hk, hstripe, horg⟩

/-- The payload, if it can be read, is of the bought subscription. -/
def Describes (stripeCustomerId stripeSubscriptionId : String) (payload : Json) : Prop :=
  ∀ d, readSubscriptionData payload = .ok d →
    d.stripeId = stripeSubscriptionId ∧ d.customer = stripeCustomerId

section Actions

variable {c : TeamCheckout} {stripeSubscriptionId : String} {start : Db} {rt : Runtime σ}
variable {freshId : UUID} {w : World σ}

/-- A save of a subscription row that belongs where it should. -/
theorem TeamInv.save (h : TeamInv c stripeSubscriptionId start w.db) {row : Subscription}
    {now : Datetime} {db' : Db}
    (hkeys : ∀ old ∈ w.db.subscriptions.rows, old.id = row.id → row.stripeId = old.stripeId)
    (hid : row.id = freshId ∨ ∃ old ∈ w.db.subscriptions.rows, old.id = row.id)
    (hpurchase : row.stripeId = some stripeSubscriptionId → ∃ k ∈ w.db.customers.rows,
      k.stripeId = c.stripeCustomerId ∧ row.stripeCustomerId = some k.id)
    (hsave : w.db.saveSubscription now row = .ok db') :
    TeamInv c stripeSubscriptionId start db' ∧
      (mirrorContract freshId).guarantee w { w with db := db' } := by
  have hframe := Db.saveSubscription_frame hsave
  have horgs : db'.orgs = w.db.orgs := by rw [hframe]
  have hmembers : db'.members = w.db.members := by rw [hframe]
  have hcustomers : db'.customers = w.db.customers := by rw [hframe]
  refine ⟨⟨?_, ?_⟩, mirrorContract_save hkeys hid hsave⟩
  · rcases h.teams with hnone | ⟨org, member, customer, hcreated⟩
    · exact Or.inl ⟨horgs.trans hnone.orgs, hmembers.trans hnone.members,
        hcustomers.trans hnone.customers⟩
    · refine Or.inr ⟨org, member, customer, { hcreated with
        orgs := horgs ▸ hcreated.orgs
        members := hmembers ▸ hcreated.members
        customers := hcustomers ▸ hcreated.customers }⟩
  · intro s hs hstripe
    rw [hcustomers]
    rcases (Db.mem_saveSubscription hsave).mp hs with ⟨hold, -⟩ | ⟨old, -, -, rfl⟩ | ⟨rfl, -⟩
    · exact h.purchase s hold hstripe
    · exact hpurchase hstripe
    · exact hpurchase hstripe

/-- The mirror of the bought subscription, by an event or by the checkout. -/
theorem sync_meets_team {payload : Json}
    (hpayload : Describes c.stripeCustomerId stripeSubscriptionId payload)
    (hunused : Unused rt.subscriptionId w.db) :
    (syncSubscriptionFromData rt payload).Meets
      (fun w => TeamInv c stripeSubscriptionId start w.db) (mirrorContract rt.subscriptionId)
      (fun w result => result = .ok () → Stored stripeSubscriptionId w.db) w := by
  unfold syncSubscriptionFromData
  simp only [Fallible.meets_bind, meets_lift]
  cases hread : readSubscriptionData payload with
  | error e => exact fun h => by cases h
  | ok d =>
      obtain ⟨hstripe, hcustomer⟩ := hpayload d hread
      simp only [Fallible.chain_ok, Fallible.meets_bind, meets_query, meets_readSubscription]
      intro t₁ hrely₁ hinv₁ _ t₂ hrely₂ hinv₂ _ t₃ hrely₃ hinv₃ _
      cases hfound : t₁.db.customerByStripeId d.customer with
      | none => exact fun h => by cases h
      | some customer =>
          cases t₂.db.getPriceByStripeId d.priceId with
          | none => exact fun h => by cases h
          | some planPrice =>
              simp only [Fallible.meets_bind, meets_lift]
              cases hrow : buildSubscriptionRow rt payload d customer planPrice.planId
                  (t₃.db.subscriptionByStripeId d.stripeId) with
              | error e => exact fun h => by cases h
              | ok row =>
                  simp only [Fallible.chain_ok, meets_saveSubscription]
                  intro t hrely hinv _
                  obtain ⟨fields, -, hfields⟩ := bind_eq_ok.mp hrow
                  cases hfields
                  have hunusedNow : Unused rt.subscriptionId t.db :=
                    hrely.2.2 (hrely₃.2.2 (hrely₂.2.2 (hrely₁.2.2 hunused)))
                  obtain ⟨hmem, hid⟩ := Db.customerByStripeId_eq_some.mp hfound
                  have hcustomerNow : customer ∈ t.db.customers.rows :=
                    hrely.1 (hrely₃.1 (hrely₂.1 hmem))
                  have hkeys := mirrorRow_keys hrely.2.1 hunusedNow rt.now d.stripeId customer
                    planPrice.planId fields
                  cases hsave : t.db.saveSubscription rt.now
                      (mirrorRow rt.subscriptionId rt.now d.stripeId customer planPrice.planId
                        (t₃.db.subscriptionByStripeId d.stripeId) fields) with
                  | error e =>
                      exact ⟨hinv, (mirrorContract rt.subscriptionId).guarantee_refl t, fun h => by cases h⟩
                  | ok db' =>
                      have hkept : TeamInv c stripeSubscriptionId start db' ∧
                          (mirrorContract rt.subscriptionId).guarantee t { t with db := db' } :=
                        hinv.save hkeys.1 hkeys.2
                          (fun _ => ⟨customer, hcustomerNow, hid.trans hcustomer, rfl⟩) hsave
                      refine ⟨hkept.1, hkept.2, fun _ => ?_⟩
                      obtain ⟨createdAt, hsaved⟩ := Db.exists_saved hsave
                      exact ⟨_, hsaved, congrArg some hstripe⟩

/-- The active row that is found is active in some state since. -/
theorem getActiveForCustomer_meets {inv : Db → Prop} {customerId : UUID}
    {post : World σ → Py (Option Subscription) → Prop}
    (hnone : ∀ t, (mirrorContract freshId).rely w t → inv t.db → post t (.ok none))
    (hsome : ∀ t active, (mirrorContract freshId).rely w t → inv t.db →
      active ∈ t.db.activeForCustomer customerId → post t (.ok (some active))) :
    (getActiveForCustomer customerId).Meets (fun w => inv w.db) (mirrorContract freshId) post
      w := by
  unfold getActiveForCustomer
  simp only [Fallible.meets_bind, meets_readSubscription]
  intro t hrely hinv _
  rcases hrows : t.db.activeForCustomer customerId with _ | ⟨active, _ | ⟨next, rest⟩⟩
  · exact hnone t hrely hinv
  · exact hsome t active hrely hinv (by simp [hrows])
  · simp only [Fallible.chain_ok, meets_readSubscription]
    intro t' hrely' hinv' _
    have hlater := (mirrorContract freshId).rely_trans hrely hrely'
    cases hlatest : t'.db.latestActive customerId with
    | none => exact hnone t' hlater hinv'
    | some active => exact hsome t' active hlater hinv' (Db.mem_of_latestActive hlatest)

/-- The frame rule, for what holds of more customers and of rows that persist. -/
theorem meets_keeping {α : Type} {inv : Db → Prop} (kept : Db → Prop)
    (hkept : ∀ {db db'}, db.customers.rows ⊆ db'.customers.rows → Persists db db' →
      kept db → kept db') {p : Handler σ α} {post : World σ → Py α → Prop}
    (h : p.Meets (fun w => inv w.db) (mirrorContract freshId) post w) (hw : kept w.db) :
    p.Meets (fun w => inv w.db) (mirrorContract freshId)
      (fun t result => post t result ∧ kept t.db) w :=
  h.frame hw (fun _ _ hmoved => hkept hmoved.1 hmoved.2.1)
    fun _ _ hmoved => hkept hmoved.1 hmoved.2.1

/-- A call to Stripe leaves the database to the others. -/
theorem callStripe_bind_meets {inv : Db → Prop} {call : StripeCall} {α : Type}
    {rest : Json → Handler σ α} {post : World σ → Py α → Prop}
    (herror : ∀ t e, (mirrorContract freshId).rely w t → inv t.db → post t (.error e))
    (hnext : ∀ t answer, (mirrorContract freshId).rely w t → inv t.db →
      (∃ s, (rt.stripe.call call s).1 = .ok answer) →
      (rest answer).Meets (fun w => inv w.db) (mirrorContract freshId) post t) :
    (callStripe rt call >>= rest).Meets (fun w => inv w.db) (mirrorContract freshId) post w := by
  simp only [Fallible.meets_bind, meets_callStripe]
  intro t hrely hinv _
  refine ⟨hinv, (mirrorContract freshId).guarantee_refl t, ?_⟩
  cases hanswer : (rt.stripe.call call t.stripe).1 with
  | error e => exact herror { t with stripe := (rt.stripe.call call t.stripe).2 } e hrely hinv
  | ok answer =>
      exact hnext { t with stripe := (rt.stripe.call call t.stripe).2 } answer hrely hinv
        ⟨t.stripe, hanswer⟩

theorem lift_bind_meets {inv : Db → Prop} {α β : Type} {result : Py α} {rest : α → Handler σ β}
    {post : World σ → Py β → Prop} (herror : ∀ e, post w (.error e))
    (hnext : ∀ a, result = .ok a →
      (rest a).Meets (fun w => inv w.db) (mirrorContract freshId) post w) :
    (lift result >>= rest).Meets (fun w => inv w.db) (mirrorContract freshId) post w := by
  simp only [Fallible.meets_bind, meets_lift]
  cases result with
  | error e => exact herror e
  | ok a => exact hnext a rfl

/-- Releasing a schedule is a matter between the handler and Stripe. -/
theorem releasePendingSchedule_meets {inv : Db → Prop} (stripeId : String) {α : Type}
    {rest : Unit → Handler σ α} {post : World σ → Py α → Prop}
    (herror : ∀ t e, (mirrorContract freshId).rely w t → inv t.db → post t (.error e))
    (hnext : ∀ t, (mirrorContract freshId).rely w t → inv t.db →
      (rest ()).Meets (fun w => inv w.db) (mirrorContract freshId) post t) :
    (releasePendingSchedule rt stripeId >>= rest).Meets (fun w => inv w.db)
      (mirrorContract freshId) post w := by
  unfold releasePendingSchedule
  simp only [bind_assoc]
  refine callStripe_bind_meets herror fun t₁ sub hrely₁ hinv₁ _ => ?_
  refine lift_bind_meets (fun e => herror t₁ e hrely₁ hinv₁) fun scheduleId _ => ?_
  split
  · simp only [bind_assoc]
    have herror₂ : ∀ t e, (mirrorContract freshId).rely t₁ t → inv t.db → post t (.error e) :=
      fun t e hrely => herror t e ((mirrorContract freshId).rely_trans hrely₁ hrely)
    refine callStripe_bind_meets herror₂ fun t₂ schedule hrely₂ hinv₂ _ => ?_
    have hlater₂ := (mirrorContract freshId).rely_trans hrely₁ hrely₂
    refine lift_bind_meets (fun e => herror t₂ e hlater₂ hinv₂) fun status _ => ?_
    split
    · simp only [bind_assoc]
      refine lift_bind_meets (fun e => herror t₂ e hlater₂ hinv₂) fun id _ => ?_
      refine callStripe_bind_meets ?_ fun t₃ _ hrely₃ hinv₃ _ => ?_
      · exact fun t e hrely => herror t e ((mirrorContract freshId).rely_trans hlater₂ hrely)
      · exact hnext t₃ ((mirrorContract freshId).rely_trans hlater₂ hrely₃) hinv₃
    · exact hnext t₂ hlater₂ hinv₂
  · exact hnext t₁ hrely₁ hinv₁

/-- A cancellation saves a row it has found active, under its keys. -/
theorem cancelSubscription_meets {inv : Db → Prop} (customerId : UUID) (atPeriodEnd : Bool)
    (hsave : ∀ seen t active row db', (mirrorContract freshId).rely w seen → inv seen.db →
      active ∈ seen.db.activeForCustomer customerId → (mirrorContract freshId).rely seen t →
      inv t.db → row.id = active.id → row.stripeId = active.stripeId →
      t.db.saveSubscription rt.now row = .ok db' →
      inv db' ∧ (mirrorContract freshId).guarantee t { t with db := db' }) :
    (cancelSubscription rt customerId atPeriodEnd).Meets (fun w => inv w.db)
      (mirrorContract freshId) (fun _ _ => True) w := by
  unfold cancelSubscription
  rw [Fallible.meets_bind]
  refine getActiveForCustomer_meets (fun _ _ _ => trivial) fun seen active hseen hinv hactive => ?_
  have hmirror : ∀ t stripeSub, (mirrorContract freshId).rely seen t → inv t.db →
      (mirrorCancelStateFromStripe rt active stripeSub).Meets (fun w => inv w.db)
        (mirrorContract freshId) (fun _ _ => True) t := by
    intro t stripeSub hrely _
    unfold mirrorCancelStateFromStripe
    refine lift_bind_meets (fun _ => trivial) fun row hrow => ?_
    have hrevises : Revises (Writer.cancel customerId atPeriodEnd).owns active row :=
      mirrorCancelState_revises hrow fun _ => rfl
    simp only [meets_saveSubscription]
    intro t' hrely' hinv' _
    cases hsaved : t'.db.saveSubscription rt.now row with
    | error e => exact ⟨hinv', (mirrorContract freshId).guarantee_refl t', trivial⟩
    | ok db' =>
        obtain ⟨hkept, hmoved⟩ := hsave seen t' active row db' hseen hinv hactive
          ((mirrorContract freshId).rely_trans hrely hrely') hinv' hrevises.id hrevises.stripeId
          hsaved
        exact ⟨hkept, hmoved, trivial⟩
  simp only [Fallible.chain_ok]
  split
  next stripeId _ =>
      split
      · refine releasePendingSchedule_meets stripeId (fun _ _ _ _ => trivial) fun t hrely _ => ?_
        refine callStripe_bind_meets (fun _ _ _ _ => trivial) fun t' answer hrely' hinv' _ => ?_
        exact hmirror t' answer ((mirrorContract freshId).rely_trans hrely hrely') hinv'
      · exact callStripe_bind_meets (fun _ _ _ _ => trivial) fun t answer hrely hinv' _ =>
          hmirror t answer hrely hinv'
  next => trivial

/-- A customer has a user or an org, not both. -/
theorem orgId_eq_none {db : Db} {k : StripeCustomer} {userId : UUID} (hk : k ∈ db.customers.rows)
    (huser : k.userId = some userId) : k.orgId = none := by
  have hone : k.userId.isSome ≠ k.orgId.isSome := db.customers.check_of_mem hk
  rw [huser] at hone
  cases horg : k.orgId with
  | none => rfl
  | some orgId => exact absurd (by rw [horg]; rfl) hone

/-- A subscription of a customer of a user is not the one an org has bought. -/
theorem PurchaseLinked.ne {stripeCustomerId : String} {db : Db} {personal : StripeCustomer}
    {userId : UUID} {active : Subscription}
    (h : PurchaseLinked stripeCustomerId stripeSubscriptionId db)
    (hteam : HasTeam stripeCustomerId db) (hpersonal : personal ∈ db.customers.rows)
    (huser : personal.userId = some userId) (hactive : active ∈ db.subscriptions.rows)
    (howner : active.stripeCustomerId = some personal.id) :
    active.stripeId ≠ some stripeSubscriptionId := by
  intro hbought
  obtain ⟨k, hk, hstripe, hkOwner⟩ := h active hactive hbought
  obtain ⟨k', hk', hstripe', horg⟩ := hteam
  have hsame : k = k' :=
    db.customers.eq_of_clash hk hk' (Or.inr (Or.inl (hstripe.trans hstripe'.symm)))
  have hid : personal.id = k.id := Option.some.inj (howner.symm.trans hkOwner)
  have hpersonalSame : personal = k := db.customers.eq_of_clash hpersonal hk (Or.inl hid)
  rw [← hsame, ← hpersonalSame] at horg
  exact horg (orgId_eq_none hpersonal huser)

theorem schedulePersonalCancel_meets (userId : UUID)
    (hteam : HasTeam c.stripeCustomerId w.db) :
    (schedulePersonalCancelAtPeriodEnd rt userId).Meets
      (fun w => TeamInv c stripeSubscriptionId start w.db) (mirrorContract freshId)
      (fun _ _ => True) w := by
  unfold schedulePersonalCancelAtPeriodEnd
  simp only [Fallible.meets_bind, meets_query]
  intro t hrely hinv _
  cases hfound : t.db.customerByUserId userId with
  | none => trivial
  | some personal =>
      obtain ⟨hpersonal, huser⟩ := Table.mem_of_find? hfound
      have hteamNow := hteam.mono hrely.1
      have hcancel : (cancelSubscription rt personal.id true).Meets
          (fun w => TeamInv c stripeSubscriptionId start w.db) (mirrorContract freshId)
          (fun _ _ => True) t := by
        refine cancelSubscription_meets personal.id true ?_
        intro seen t' active row db' hseen hinvSeen hactive hlater hinv' hid hstripe hsave
        obtain ⟨hmem, howner, -⟩ := Db.mem_activeForCustomer.mp hactive
        obtain ⟨current, hcurrent, hcurrentId, hcurrentStripe, -⟩ := hlater.2.1 active hmem
        have hother : active.stripeId ≠ some stripeSubscriptionId :=
          hinvSeen.purchase.ne (hteamNow.mono hseen.1) (hseen.1 hpersonal) (beq_iff_eq.mp huser)
            hmem howner
        refine hinv'.save ?_ (Or.inr ⟨current, hcurrent, hcurrentId.trans hid.symm⟩) ?_ hsave
        · intro old hold holdId
          have hsame : old = current := t'.db.subscriptions.eq_of_clash hold hcurrent
            (Or.inl (holdId.trans (hid.trans hcurrentId.symm)))
          rw [hsame, hstripe, hcurrentStripe]
        · exact fun hbought => absurd (hstripe.symm.trans hbought) hother
      refine Fallible.meets_tryCatch.mpr (hcancel.mono hinv fun t' result _ _ => ?_)
      cases result with
      | ok _ => trivial
      | error e => cases e <;> trivial

/-! ## Creating the org -/

/-- What the transaction of `_create_org_with_owner` commits. -/
theorem insertOrgWithOwner_eq_ok {db db' : Db} {org : Org} {member : OrgMember}
    {customer : StripeCustomer}
    (h : insertOrgWithOwner db org member (some customer) = .ok db') :
    db'.orgs.rows = db.orgs.rows ++ [org] ∧ db'.members.rows = db.members.rows ++ [member] ∧
      db'.customers.rows = db.customers.rows ++ [customer] ∧
      db'.toTables = { db.toTables with
        orgs := db'.orgs, members := db'.members, customers := db'.customers } := by
  unfold insertOrgWithOwner at h
  split at h
  next =>
    obtain ⟨orgs, horgs, h⟩ := bind_eq_ok.mp h
    obtain ⟨members, hmembers, h⟩ := bind_eq_ok.mp h
    obtain ⟨customers, hcustomers, h⟩ := bind_eq_ok.mp h
    simp only [insertOrgCustomer] at hcustomers
    split at hcustomers
    next =>
      rw [Db.commit_eq_ok.mp h]
      exact ⟨insertRow_eq_ok horgs, insertRow_eq_ok hmembers, insertRow_eq_ok hcustomers, rfl⟩
    next => cases hcustomers
  next => cases h

/-- Who adds a team while its customer is unknown adds the only one. -/
theorem TeamInv.insert (h : TeamInv c stripeSubscriptionId start w.db) {user : User}
    (huser : user.id = c.userId) (slug : String) {db' : Db}
    (hinsert : insertOrgWithOwner w.db (newOrg rt user c.orgName slug) (ownerMembership rt user)
      (some (orgCustomer rt c.stripeCustomerId c.livemode)) = .ok db') :
    TeamInv c stripeSubscriptionId start db' ∧
      (mirrorContract freshId).guarantee w { w with db := db' } ∧
      HasTeam c.stripeCustomerId db' := by
  obtain ⟨horgs, hmembers, hcustomers, hframe⟩ := insertOrgWithOwner_eq_ok hinsert
  have hsubscriptions : db'.subscriptions = w.db.subscriptions := by rw [hframe]
  have hnew : orgCustomer rt c.stripeCustomerId c.livemode ∈ db'.customers.rows := by
    rw [hcustomers]
    exact List.mem_append_right _ List.mem_cons_self
  have hkept : w.db.customers.rows ⊆ db'.customers.rows := by
    rw [hcustomers]
    exact List.subset_append_left _ _
  refine ⟨⟨Or.inr ?_, ?_⟩, ⟨hkept, ?_, ?_⟩, ⟨_, hnew, rfl, nofun⟩⟩
  · rcases h.teams with hnone | ⟨org, member, customer, hcreated⟩
    · refine ⟨newOrg rt user c.orgName slug, ownerMembership rt user,
        orgCustomer rt c.stripeCustomerId c.livemode,
        ⟨?_, ?_, ?_, rfl, rfl, congrArg some huser, rfl, huser, rfl, rfl⟩⟩
      · rw [horgs, hnone.orgs]
      · rw [hmembers, hnone.members]
      · rw [hcustomers, hnone.customers]
    · -- the second customer of a Stripe id is refused
      have hclash := db'.customers.valid.2
      rw [hcustomers, List.pairwise_append] at hclash
      have hmem : customer ∈ w.db.customers.rows := by
        rw [hcreated.customers]
        exact List.mem_append_right _ List.mem_cons_self
      exact absurd (Or.inr (Or.inl hcreated.stripeId))
        (hclash.2.2 customer hmem _ List.mem_cons_self)
  · intro s hs hstripe
    rw [hsubscriptions] at hs
    obtain ⟨k, hk, hkStripe, howner⟩ := h.purchase s hs hstripe
    exact ⟨k, hkept hk, hkStripe, howner⟩
  · show Persists w.db db'
    intro s hs
    exact ⟨s, hsubscriptions ▸ hs, rfl, rfl, rfl⟩
  · intro s hs
    have hold : s ∈ w.db.subscriptions.rows := hsubscriptions ▸ hs
    exact Or.inr ⟨s, hold, rfl⟩

theorem alreadyCreated_meets {inv : Db → Prop} (user : User) (stripeCustomerId : String) :
    (alreadyCreated user stripeCustomerId).Meets (fun w => inv w.db) (mirrorContract freshId)
      (fun t result => (mirrorContract freshId).rely w t ∧
        ∀ already, result = .ok (some already) → HasTeam stripeCustomerId t.db) w := by
  unfold alreadyCreated
  simp only [Fallible.meets_bind, meets_query]
  intro t hrely hinv _
  cases hfound : t.db.customerByStripeId stripeCustomerId with
  | none => exact ⟨hrely, fun _ h => by cases h⟩
  | some existing =>
      obtain ⟨hmem, hstripe⟩ := Db.customerByStripeId_eq_some.mp hfound
      simp only [Fallible.chain_ok]
      split
      next orgId horg =>
          have hteam : HasTeam stripeCustomerId t.db := ⟨existing, hmem, hstripe, by simp [horg]⟩
          simp only [Fallible.meets_bind, meets_query]
          intro t₁ hrely₁ _ _
          have hlater₁ := (mirrorContract freshId).rely_trans hrely hrely₁
          have hteam₁ := hteam.mono hrely₁.1
          cases t₁.db.orgById orgId with
          | none => exact ⟨hlater₁, fun _ h => by cases h⟩
          | some org =>
              simp only [Fallible.chain_ok, Fallible.meets_bind, meets_query]
              intro t₂ hrely₂ _ _
              have hlater₂ := (mirrorContract freshId).rely_trans hlater₁ hrely₂
              cases t₂.db.memberOf org.id user.id with
              | none => exact ⟨hlater₂, fun _ h => by cases h⟩
              | some member => exact ⟨hlater₂, fun _ _ => hteam₁.mono hrely₂.1⟩
      next => exact ⟨hrely, fun _ h => by cases h⟩

theorem createOrgWithOwner_meets (hinv : TeamInv c stripeSubscriptionId start w.db) {user : User}
    (huser : user.id = c.userId) (hunused : Unused freshId w.db) :
    (createOrgWithOwner rt user c.orgName (some c.stripeCustomerId) c.livemode).Meets
      (fun w => TeamInv c stripeSubscriptionId start w.db) (mirrorContract freshId)
      (fun w result => Unused freshId w.db ∧
        ∀ created, result = .ok created → HasTeam c.stripeCustomerId w.db) w := by
  unfold createOrgWithOwner
  simp only [Fallible.meets_bind]
  refine (alreadyCreated_meets user c.stripeCustomerId).mono hinv fun t result hinv' halready => ?_
  have hunused' : Unused freshId t.db := halready.1.2.2 hunused
  cases result with
  | error e => exact ⟨hunused', fun _ h => by cases h⟩
  | ok already =>
      cases already with
      | some already => exact ⟨hunused', fun _ _ => halready.2 already rfl⟩
      | none =>
          simp only [Fallible.chain_ok, Fallible.meets_bind, meets_query, meets_transaction]
          intro t₁ hrely₁ _ _ t₂ hrely₂ hinv₂ _
          have hunused₂ : Unused freshId t₂.db := hrely₂.2.2 (hrely₁.2.2 hunused')
          cases hinsert : insertOrgWithOwner t₂.db (newOrg rt user c.orgName
              (generateUniqueSlug rt.slugify c.orgName (t₁.db.orgs.rows.map Org.slug)))
              (ownerMembership rt user) (some (orgCustomer rt c.stripeCustomerId c.livemode)) with
          | error e =>
              simp only [Option.map_some, hinsert, map_error, settle_error]
              exact ⟨hinv₂, (mirrorContract freshId).guarantee_refl t₂, hunused₂, fun _ h => by cases h⟩
          | ok db' =>
              have hframe := (insertOrgWithOwner_eq_ok hinsert).2.2.2
              have hrows : db'.subscriptions = t₂.db.subscriptions := by rw [hframe]
              have hinserted : TeamInv c stripeSubscriptionId start db' ∧
                  (mirrorContract freshId).guarantee t₂ { t₂ with db := db' } ∧
                  HasTeam c.stripeCustomerId db' := hinv₂.insert huser _ hinsert
              simp only [Option.map_some, hinsert, map_ok, settle_ok]
              refine ⟨hinserted.1, hinserted.2.1, ?_, fun _ _ => hinserted.2.2⟩
              exact fun s hs => hunused₂ s (hrows ▸ hs)

/-! ## The handler -/

/-- A run of the handler that succeeds leaves the org and the subscription. -/
theorem TeamCheckout.handle_meets (hbought : c.stripeSubscriptionId = some stripeSubscriptionId)
    (hretrieve : ∀ s payload,
      (rt.stripe.call (.subscriptionRetrieve stripeSubscriptionId) s).1 = .ok payload →
      Describes c.stripeCustomerId stripeSubscriptionId payload)
    (hunused : Unused rt.subscriptionId w.db) :
    (c.handle rt).Meets (fun w => TeamInv c stripeSubscriptionId start w.db)
      (mirrorContract rt.subscriptionId)
      (fun w result => result = .ok () →
        HasTeam c.stripeCustomerId w.db ∧ Stored stripeSubscriptionId w.db) w := by
  unfold TeamCheckout.handle onTeamCheckoutCompleted
  simp only [hbought, Fallible.meets_bind, meets_query]
  intro t hrely hinv _
  cases hfound : t.db.userById c.userId with
  | none => exact fun h => by cases h
  | some user =>
      have huser : user.id = c.userId := beq_iff_eq.mp (Table.mem_of_find? hfound).2
      simp only [Fallible.chain_ok, Fallible.meets_bind]
      refine (createOrgWithOwner_meets hinv huser (hrely.2.2 hunused)).mono hinv
        fun t₁ created hinv₁ hcreated => ?_
      cases created with
      | error e => exact fun h => by cases h
      | ok created =>
          have hteam₁ : HasTeam c.stripeCustomerId t₁.db := hcreated.2 created rfl
          unfold persistTeamSubscription
          simp only [Fallible.chain_ok, bind_assoc]
          refine callStripe_bind_meets (fun _ _ _ _ h => by cases h) fun t₂ payload hrely₂ hinv₂ hanswer => ?_
          obtain ⟨s, hanswer⟩ := hanswer
          have hteam₂ : HasTeam c.stripeCustomerId t₂.db := hteam₁.mono hrely₂.1
          have hsync : (syncSubscriptionFromData rt payload).Meets
              (fun w => TeamInv c stripeSubscriptionId start w.db)
              (mirrorContract rt.subscriptionId)
              (fun w result => result = .ok () → Stored stripeSubscriptionId w.db) t₂ :=
            sync_meets_team (hretrieve s payload hanswer) (hrely₂.2.2 hcreated.1)
          rw [Fallible.meets_bind]
          refine (meets_keeping (HasTeam c.stripeCustomerId) (fun h _ hteam => hteam.mono h)
            hsync hteam₂).mono hinv₂ fun t₃ synced hinv₃ hsynced => ?_
          obtain ⟨hstored, hteam₃⟩ := hsynced
          cases synced with
          | error e => exact fun h => by cases h
          | ok _ =>
              have hdone := hstored rfl
              simp only [Fallible.chain_ok]
              split
              · have hboth : HasTeam c.stripeCustomerId t₃.db ∧ Stored stripeSubscriptionId t₃.db :=
                  ⟨hteam₃, hdone⟩
                refine (meets_keeping (fun db => HasTeam c.stripeCustomerId db ∧
                  Stored stripeSubscriptionId db) (fun h h' kept => ⟨kept.1.mono h,
                  kept.2.of_persists h'⟩) (schedulePersonalCancel_meets c.userId hteam₃)
                  hboth).mono hinv₃ fun _ _ _ h _ => h.2
              · exact fun _ => ⟨hteam₃, hdone⟩

end Actions

/-! ## Every run -/

/-- The handlers that one team checkout sets off: those of its own event, and those
of the events of the subscription. -/
inductive TeamHandler
  | checkout
  | subscription (subData : Json)

def TeamHandler.program (rt : Runtime σ) (sessionData : Json) : TeamHandler → Handler σ Unit
  | checkout => onCheckoutCompleted rt sessionData
  | subscription subData => syncSubscriptionFromData rt subData

/-- The handlers `handler i`, run concurrently over one world. -/
def teamPool {ι : Type} (rt : ι → Runtime σ) (sessionData : Json) (handler : ι → TeamHandler)
    (w : World σ) : Pool ι Action (World σ) (Py Unit) where
  shared := w
  procs i := ExceptT.run ((handler i).program (rt i) sessionData)

/-- At most one team, in every reachable state: the org, membership and customer
tables are those of the start, or have grown by one row each, linked to each
other and to the buyer.  Once a run of the checkout handler has succeeded there
is one, and one row of the bought subscription, which belongs to its customer. -/
theorem one_team {ι : Type} [DecidableEq ι] {rt : ι → Runtime σ} {handler : ι → TeamHandler}
    {w : World σ} {sessionData : Json} {c : TeamCheckout} {stripeSubscriptionId : String}
    (hsession : readTeamCheckout sessionData = .ok (some c))
    (hbought : c.stripeSubscriptionId = some stripeSubscriptionId)
    (hevents : ∀ i subData, handler i = .subscription subData →
      Describes c.stripeCustomerId stripeSubscriptionId subData)
    (hretrieve : ∀ i s payload,
      ((rt i).stripe.call (.subscriptionRetrieve stripeSubscriptionId) s).1 = .ok payload →
      Describes c.stripeCustomerId stripeSubscriptionId payload)
    (hcustomer : ∀ k ∈ w.db.customers.rows, k.stripeId = c.stripeCustomerId → k.orgId = none)
    (hnew : ∀ s ∈ w.db.subscriptions.rows, s.stripeId ≠ some stripeSubscriptionId)
    (hfresh : Function.Injective fun i => (rt i).subscriptionId)
    (hunused : ∀ i, Unused (rt i).subscriptionId w.db) (schedule : List ι) :
    let reached := (teamPool rt sessionData handler w).run schedule
    (NoTeam w.db reached.shared.db ∨
      ∃ org member customer, TeamCreated c w.db reached.shared.db org member customer) ∧
    ∀ i, handler i = .checkout → reached.procs i = .done (.ok ()) →
      ∃ org member customer, TeamCreated c w.db reached.shared.db org member customer ∧
        ∃ row ∈ reached.shared.db.subscriptions.rows, row.stripeCustomerId = some customer.id ∧
          ∀ s ∈ reached.shared.db.subscriptions.rows,
            s.stripeId = some stripeSubscriptionId ↔ s = row := by
  intro reached
  let inv : World σ → Prop := fun world => TeamInv c stripeSubscriptionId w.db world.db
  let contract : ι → Contract Action (World σ) := fun i => mirrorContract (rt i).subscriptionId
  let post : ι → World σ → Py Unit → Prop := fun i world result =>
    handler i = .checkout → result = .ok () →
      HasTeam c.stripeCustomerId world.db ∧ Stored stripeSubscriptionId world.db
  have hstable : ∀ i, Stable inv (contract i) (post i) := by
    intro i world world' result hrely _ hpost hcheckout hok
    obtain ⟨hteam, hstored⟩ := hpost hcheckout hok
    exact ⟨hteam.mono hrely.1, hstored.of_persists hrely.2.1⟩
  have hinv : inv w :=
    ⟨Or.inl ⟨rfl, rfl, rfl⟩, fun s hs hstripe => absurd hstripe (hnew s hs)⟩
  have hstart : (teamPool rt sessionData handler w).Meets inv contract post := by
    refine ⟨hinv, fun i => ?_⟩
    show Fallible.Meets inv (contract i) (post i) ((handler i).program (rt i) sessionData) w
    cases hhandler : handler i with
    | checkout =>
        unfold TeamHandler.program
        rw [onCheckoutCompleted_of_team hsession]
        exact (TeamCheckout.handle_meets hbought (hretrieve i) (hunused i)).mono hinv
          fun _ _ _ h _ => h
    | subscription subData =>
        refine (sync_meets_team (hevents i subData hhandler) (hunused i)).mono hinv ?_
        intro _ _ _ _ hcheckout
        cases hhandler.symm.trans hcheckout
  have hreached : reached.Meets inv contract post :=
    Pool.run_meets (mirrorContract_compatible hfresh) hstable hstart
      (Pool.respects_of_assume (fun _ _ _ => trivial) _ schedule)
  refine ⟨hreached.1.teams, fun i hcheckout hdone => ?_⟩
  obtain ⟨hteam, row, hrow, hstripe⟩ := hreached.of_done hdone hcheckout rfl
  obtain ⟨k, hk, hkStripe, horg⟩ := hteam
  rcases hreached.1.teams with hnone | ⟨org, member, customer, hcreated⟩
  · rw [hnone.customers] at hk
    exact absurd (hcustomer k hk hkStripe) horg
  · refine ⟨org, member, customer, hcreated, row, hrow, ?_, fun s hs => ⟨fun hs' => ?_, ?_⟩⟩
    · obtain ⟨k', hk', hkStripe', howner⟩ := hreached.1.purchase row hrow hstripe
      have hmem : customer ∈ reached.shared.db.customers.rows := by
        rw [hcreated.customers]
        exact List.mem_append_right _ List.mem_cons_self
      have hsame : k' = customer := reached.shared.db.customers.eq_of_clash hk' hmem
        (Or.inr (Or.inl (hkStripe'.trans hcreated.stripeId.symm)))
      rw [howner, hsame]
    · exact reached.shared.db.subscriptions.eq_of_clash hs hrow
        (Or.inr ⟨by rw [hs']; rfl, hs'.trans hstripe.symm⟩)
    · intro hsame
      rw [hsame]
      exact hstripe

/-! ## A concurrent run -/

/-- The session of the buyer's team checkout. -/
def teamSession : Json :=
  .obj [("id", .str "cs_1"), ("mode", .str "subscription"),
    ("metadata", .obj [("org_name", .str "Acme")]),
    ("client_reference_id", .str "00000000-0000-0000-0000-000000000001"),
    ("customer", .str "cus_team"), ("subscription", .str "sub_team"), ("livemode", .bool false)]

def buyerCheckout : TeamCheckout where
  userId := buyer.id
  orgName := "Acme"
  stripeCustomerId := "cus_team"
  livemode := false
  stripeSubscriptionId := some "sub_team"
  keepPersonalSubscription := false

def teamSubscriptionObject : Json :=
  subscriptionObject "sub_team" "cus_team" "price_team" .active 3 100

/-- Stripe knows the bought subscription. -/
def teamStripe : StripeCall → Py Json
  | .subscriptionRetrieve _ => .ok teamSubscriptionObject
  | _ => .error (.connection "connection refused")

/-- Two deliveries of the checkout and one event of the subscription. -/
def twoCheckouts : Fin 3 → TeamHandler
  | 2 => .subscription teamSubscriptionObject
  | _ => .checkout

def twoCheckoutsPool : Pool (Fin 3) Action (World Unit) (Py Unit) :=
  teamPool (fun i => sampleRuntime teamStripe i 0) teamSession twoCheckouts sampleWorld

/-- Both checkouts look for the customer before either creates the org. -/
def twoCheckoutsSchedule : List (Fin 3) :=
  [0, 1, 0, 1, 0, 1, 0, 2, 2, 2, 1, 2, 0, 0, 0, 0, 0, 0, 0, 0, 0]

theorem teamSubscriptionObject_describes : Describes "cus_team" "sub_team" teamSubscriptionObject := by
  intro d hd
  rw [teamSubscriptionObject, readSubscriptionData_subscriptionObject] at hd
  cases hd
  exact ⟨rfl, rfl⟩

/-- In that run the second checkout is refused, and the first creates the team. -/
theorem one_team_two_checkouts : ∃ org member customer,
    TeamCreated buyerCheckout sampleDb
      (twoCheckoutsPool.run twoCheckoutsSchedule).shared.db org member customer := by
  have hsession : readTeamCheckout teamSession = .ok (some buyerCheckout) := by decide +kernel
  have hevents : ∀ (i : Fin 3) subData, twoCheckouts i = .subscription subData →
      Describes "cus_team" "sub_team" subData := by
    intro i subData hhandler
    match i, hhandler with
    | 0, hcheckout => cases hcheckout
    | 1, hcheckout => cases hcheckout
    | 2, hsubscription =>
        cases hsubscription
        exact teamSubscriptionObject_describes
  have hretrieve : ∀ (i : Fin 3) (s : Unit) payload, ((sampleRuntime teamStripe i 0).stripe.call
      (.subscriptionRetrieve "sub_team") s).1 = .ok payload →
      Describes "cus_team" "sub_team" payload := by
    intro i s payload hanswer
    cases hanswer
    exact teamSubscriptionObject_describes
  have hfresh : Function.Injective fun i : Fin 3 =>
      (sampleRuntime teamStripe i 0).subscriptionId := by
    unfold Function.Injective
    decide
  have hunused : ∀ i : Fin 3, Unused (sampleRuntime teamStripe i 0).subscriptionId sampleDb :=
    fun i s hs => nomatch hs
  have hdone : (twoCheckoutsPool.run twoCheckoutsSchedule).procs 0 = .done (.ok ()) := by
    refine Program.result?_eq_some.mp ?_
    decide +kernel
  have hteam := (one_team hsession rfl hevents hretrieve (by decide) (by decide) hfresh
    hunused twoCheckoutsSchedule).2 0 rfl hdone
  obtain ⟨org, member, customer, hcreated, -⟩ := hteam
  exact ⟨org, member, customer, hcreated⟩

end Saasmint
