import Saasmint.Orgs.Erasure
import Saasmint.Library.Resumption

/-!
# Erasures that are taken up again

The deletion of an account calls Stripe, commits and enqueues in turn, and nothing rolls
back what has been done before an error.  Can it be stopped anywhere and be started
again, as often as need be, with the same outcome as one run?

Its phases: the subscription is cancelled and the customer deleted at Stripe, the row of
the customer goes, the orgs, the memberships, the user.  All of them do nothing when they
have been taken, and all but one are one action.  The orgs are deleted by a transaction,
and what they pay for is queued after its commit: a run that is stopped in between has
nothing left to read the subscriptions from.  `erasure_resumes_iff` says that this is the
only place.
-/

namespace Saasmint

open Atomic Relational Resumption

variable {σ : Type} {t t' : Tables} {userId : UUID}

/-! ## Tables that lose rows -/

/-- No row has come, and no creator has been set. -/
structure Thinner (t t' : Tables) : Prop where
  shrinks : Shrinks t t'
  customers : ∀ c ∈ t'.customers.rows, c ∈ t.customers.rows
  subscriptions : ∀ s ∈ t'.subscriptions.rows, s ∈ t.subscriptions.rows

namespace Thinner

theorem refl (t : Tables) : Thinner t t := ⟨.refl t, fun _ h => h, fun _ h => h⟩

theorem trans {t'' : Tables} (h : Thinner t t') (h' : Thinner t' t'') : Thinner t t'' where
  shrinks := h.shrinks.trans h'.shrinks
  customers c hc := h.customers c (h'.customers c hc)
  subscriptions s hs := h.subscriptions s (h'.subscriptions s hs)

end Thinner

namespace Tables

theorem thinner_deleteCustomers (gone : StripeCustomer → Bool) :
    Thinner t (t.deleteCustomers gone) where
  shrinks := shrinks_deleteCustomers gone
  customers _ hc := (mem_customers_deleteCustomers.mp hc).1
  subscriptions _ hs := (mem_subscriptions_deleteCustomers.mp hs).1

theorem thinner_deleteCustomerOf : Thinner t (t.deleteCustomerOf userId) := by
  rcases t.deleteCustomerOf_cases userId with hsame | ⟨customer, _, _, hdeleted⟩
  · rw [hsame]
    exact .refl t
  · rw [hdeleted]
    exact thinner_deleteCustomers _

theorem thinner_deleteUsers (ids : List UUID) : Thinner t (t.deleteUsers ids) where
  shrinks := shrinks_deleteUsers
  customers _ hc := (mem_customers_deleteUsers.mp hc).1
  subscriptions _ hs := (mem_subscriptions_deleteUsers.mp hs).1.1

theorem thinner_cancelInvitationsOf (orgIds : List UUID) :
    Thinner t (t.cancelInvitationsOf orgIds) :=
  ⟨shrinks_cancelInvitationsOf, fun _ h => h, fun _ h => h⟩

theorem thinner_deleteOrgs (orgIds : List UUID) : Thinner t (t.deleteOrgs orgIds) where
  shrinks := shrinks_deleteOrgs
  customers _ hc := (mem_customers_deleteCustomers.mp hc).1
  subscriptions _ hs := (mem_subscriptions_deleteCustomers.mp hs).1

theorem thinner_deleteOrgsCreatedBy : Thinner t (t.deleteOrgsCreatedBy userId) := by
  rcases t.deleteOrgsCreatedBy_cases userId with ⟨_, hsame⟩ | hdeleted
  · rw [hsame]
    exact .refl t
  · rw [hdeleted]
    exact ((thinner_cancelInvitationsOf _).trans (thinner_deleteUsers _)).trans (thinner_deleteOrgs _)

theorem thinner_deleteMembershipsOf : Thinner t (t.deleteMembershipsOf userId) :=
  ⟨shrinks_deleteMembershipsOf, fun _ h => h, fun _ h => h⟩

/-! ### What is left to delete -/

/-- The user has no customer. -/
def NoCustomer (t : Tables) (userId : UUID) : Prop :=
  ∀ c ∈ t.customers.rows, c.userId ≠ some userId

/-- The user is a member of no org. -/
def NoMembership (t : Tables) (userId : UUID) : Prop := ∀ m ∈ t.members.rows, m.userId ≠ userId

def NoUser (t : Tables) (userId : UUID) : Prop := ∀ u ∈ t.users.rows, u.id ≠ userId

theorem noCustomer_deleteCustomerOf : (t.deleteCustomerOf userId).NoCustomer userId := by
  intro c hc huser
  unfold deleteCustomerOf at hc
  split at hc
  next customer hfound =>
      obtain ⟨hmem, howner⟩ := Table.mem_of_find? hfound
      rw [beq_iff_eq] at howner
      obtain ⟨hstored, hother⟩ := mem_customers_deleteCustomers.mp hc
      have hsame : c = customer := t.customers.eq_of_clash hstored hmem
        (Or.inr (Or.inr (Or.inl ⟨by rw [huser]; rfl, by rw [huser, howner]⟩)))
      simp [hsame] at hother
  next hnone => exact Table.find?_eq_none.mp hnone c hc (beq_iff_eq.mpr huser)

theorem createdBy_deleteOrgsCreatedBy : (t.deleteOrgsCreatedBy userId).createdBy userId = [] := by
  rcases t.deleteOrgsCreatedBy_cases userId with ⟨hnone, hsame⟩ | hdeleted
  · rw [hsame, hnone]
  · rw [hdeleted, List.eq_nil_iff_forall_not_mem]
    intro orgId hcreated
    obtain ⟨o', ho', hcreator, rfl⟩ := mem_createdBy.mp hcreated
    have hkept := (mem_orgs_deleteOrgs.mp ho').2
    obtain ⟨o, ho, hid, hcreators⟩ := shrinks_deleteOrgBatch.orgs o' ho'
    exact hkept (mem_createdBy.mpr ⟨o, ho, hcreators userId hcreator, hid⟩)

theorem noMembership_deleteMembershipsOf : (t.deleteMembershipsOf userId).NoMembership userId :=
  fun _ hm => (mem_members_deleteMembershipsOf.mp hm).2

theorem noUser_deleteUsers : (t.deleteUsers [userId]).NoUser userId := by
  intro u hu hid
  exact (mem_users_deleteUsers.mp hu).2 (List.mem_singleton.mpr hid)

theorem NoCustomer.of_thinner (h : t.NoCustomer userId) (hthinner : Thinner t t') :
    t'.NoCustomer userId :=
  fun c hc => h c (hthinner.customers c hc)

theorem createdBy_of_thinner (h : t.createdBy userId = []) (hthinner : Thinner t t') :
    t'.createdBy userId = [] := by
  rw [List.eq_nil_iff_forall_not_mem] at h ⊢
  intro orgId hcreated
  obtain ⟨o', ho', hcreator, rfl⟩ := mem_createdBy.mp hcreated
  obtain ⟨o, ho, hid, hcreators⟩ := hthinner.shrinks.orgs o' ho'
  exact h o'.id (mem_createdBy.mpr ⟨o, ho, hcreators userId hcreator, hid⟩)

theorem NoMembership.of_thinner (h : t.NoMembership userId) (hthinner : Thinner t t') :
    t'.NoMembership userId :=
  fun m hm => h m (hthinner.shrinks.members m hm)

theorem NoUser.noCustomer (h : t.NoUser userId) (ht : t.Integral) : t.NoCustomer userId :=
  fun c hc => (ht.customers c hc).1.ne_some h

theorem NoUser.createdBy (h : t.NoUser userId) (ht : t.Integral) : t.createdBy userId = [] := by
  rw [List.eq_nil_iff_forall_not_mem]
  intro orgId hcreated
  obtain ⟨o, ho, hcreator, _⟩ := mem_createdBy.mp hcreated
  exact (ht.orgs o ho).ne_some h hcreator

theorem NoUser.noMembership (h : t.NoUser userId) (ht : t.Integral) : t.NoMembership userId :=
  fun m hm hid => (ht.members m hm).2.ne_some h (congrArg some hid)

/-! ### Deletions that find nothing -/

theorem deleteCustomerOf_of_none (h : t.NoCustomer userId) : t.deleteCustomerOf userId = t := by
  rcases t.deleteCustomerOf_cases userId with hsame | ⟨customer, hmem, huser, _⟩
  · exact hsame
  · exact absurd huser (h customer hmem)

theorem deleteOrgsCreatedBy_of_none (h : t.createdBy userId = []) :
    t.deleteOrgsCreatedBy userId = t := by
  rw [deleteOrgsCreatedBy, h]

theorem deleteMembershipsOf_of_none (h : t.NoMembership userId) :
    t.deleteMembershipsOf userId = t := by
  have hsame : t.members.delete (fun m => m.userId == userId) = t.members :=
    Table.delete_of_none fun m hm => by simpa using h m hm
  unfold deleteMembershipsOf
  rw [hsame]

theorem deleteUsers_of_none (h : t.NoUser userId) (ht : t.Integral) :
    t.deleteUsers [userId] = t := by
  have hkept : ∀ id : Option UUID, Refers id User.id t.users.rows → goneUser [userId] id = false := by
    intro id hrefers
    rw [goneUser_eq_false]
    intro k hk hgone
    rw [List.mem_singleton.mp hgone] at hk
    exact hrefers.ne_some h hk
  have husers : t.users.delete (fun u => [userId].contains u.id) = t.users :=
    Table.delete_of_none fun u hu => by simpa using h u hu
  have hcustomers : t.customers.delete (fun c => goneUser [userId] c.userId) = t.customers :=
    Table.delete_of_none fun c hc => hkept _ (ht.customers c hc).1
  have hsubs : t.subscriptions.delete (fun s => goneUser [userId] s.userId) = t.subscriptions :=
    Table.delete_of_none fun s hs => hkept _ (ht.subscriptions s hs).2.1
  have hlinked : t.subscriptions.delete (fun s => s.stripeCustomerId.any
      ((t.customers.filter fun c => goneUser [userId] c.userId).map StripeCustomer.id).contains) =
        t.subscriptions := by
    have hnone : t.customers.filter (fun c => goneUser [userId] c.userId) = [] :=
      List.filter_eq_nil_iff.mpr fun c hc => Bool.eq_false_iff.mp (hkept _ (ht.customers c hc).1)
    refine Table.delete_of_none fun s _ => ?_
    rw [hnone]
    cases s.stripeCustomerId <;> rfl
  have hmembers : t.members.delete (fun m => [userId].contains m.userId) = t.members :=
    Table.delete_of_none fun m hm => by simpa using h.noMembership ht m hm
  have hbalances : t.creditBalances.delete (fun b => goneUser [userId] b.userId) =
      t.creditBalances :=
    Table.delete_of_none fun b hb => hkept _ (ht.creditBalances b hb).1
  have htransactions : t.creditTransactions.delete (fun c => goneUser [userId] c.userId) =
      t.creditTransactions :=
    Table.delete_of_none fun c hc => hkept _ (ht.creditTransactions c hc).1
  have horgs : (t.deleteUsers [userId]).orgs = t.orgs := by
    ext1
    refine (List.map_congr_left fun o ho => ?_).trans (List.map_id _)
    have hkeep : o.createdById.any [userId].contains = false := hkept _ (ht.orgs o ho)
    dsimp only
    rw [if_neg (Bool.eq_false_iff.mp hkeep)]
    rfl
  have hinvitations : (t.deleteUsers [userId]).invitations = t.invitations := by
    ext1
    refine (List.map_congr_left fun i hi => ?_).trans (List.map_id _)
    have hkeep : i.invitedById.any [userId].contains = false := hkept _ (ht.invitations i hi).2
    dsimp only
    rw [if_neg (Bool.eq_false_iff.mp hkeep)]
    rfl
  have hframe : t.deleteUsers [userId] = { t with
      users := t.users.delete fun u => [userId].contains u.id
      customers := t.customers.delete fun c => goneUser [userId] c.userId
      subscriptions := (t.subscriptions.delete fun s => s.stripeCustomerId.any
        ((t.customers.filter fun c => goneUser [userId] c.userId).map
          StripeCustomer.id).contains).delete fun s => goneUser [userId] s.userId
      members := t.members.delete fun m => [userId].contains m.userId
      orgs := (t.deleteUsers [userId]).orgs
      invitations := (t.deleteUsers [userId]).invitations
      creditBalances := t.creditBalances.delete fun b => goneUser [userId] b.userId
      creditTransactions := t.creditTransactions.delete fun c => goneUser [userId] c.userId } := rfl
  rw [hframe, husers, hcustomers, hlinked, hsubs, hmembers, horgs, hinvitations, hbalances,
    htransactions]

end Tables

/-! ## Integrity -/

namespace Tables

theorem integral_deleteCustomers (h : t.Integral) (gone : StripeCustomer → Bool) :
    (t.deleteCustomers gone).Integral := by
  refine ⟨h.orgs, h.members, h.invitations, h.planPrices, h.productPrices, h.localizedPrices, ?_, ?_,
    h.creditBalances, h.creditTransactions⟩
  · exact fun c hc => h.customers c (mem_customers_deleteCustomers.mp hc).1
  · intro s hs
    obtain ⟨hmem, hkept⟩ := mem_subscriptions_deleteCustomers.mp hs
    refine ⟨fun k hk => ?_, (h.subscriptions s hmem).2⟩
    obtain ⟨c, hc, rfl⟩ := (h.subscriptions s hmem).1 k hk
    refine ⟨c, mem_customers_deleteCustomers.mpr ⟨hc, Bool.eq_false_iff.mpr fun hgone => ?_⟩, rfl⟩
    exact hkept c hc hgone hk

theorem integral_deleteCustomerOf (h : t.Integral) : (t.deleteCustomerOf userId).Integral := by
  rcases t.deleteCustomerOf_cases userId with hsame | ⟨customer, _, _, hdeleted⟩
  · rwa [hsame]
  · rw [hdeleted]
    exact integral_deleteCustomers h _

theorem integral_deleteOrgsCreatedBy (h : t.Integral) :
    (t.deleteOrgsCreatedBy userId).Integral := by
  rcases t.deleteOrgsCreatedBy_cases userId with ⟨_, hsame⟩ | hdeleted
  · rwa [hsame]
  · rw [hdeleted]
    exact integral_deleteOrgBatch h

theorem integral_deleteMembershipsOf (h : t.Integral) : (t.deleteMembershipsOf userId).Integral :=
  ⟨h.orgs, fun m hm => h.members m (mem_members_deleteMembershipsOf.mp hm).1, h.invitations,
    h.planPrices, h.productPrices, h.localizedPrices, h.customers, h.subscriptions, h.creditBalances,
    h.creditTransactions⟩

end Tables

/-! ## The phases of an erasure -/

/-- The Stripe subscription an erasure cancels. -/
def activeStripeId (db : Db) (userId : UUID) : Option String :=
  (db.activeForUser userId).bind Subscription.stripeId

/-- The calls of an erasure. -/
def StripeCall.Erases : StripeCall → Prop
  | .subscriptionCancel _ | .customerDelete _ => True
  | _ => False

/-- What Stripe documents: an object that has been cancelled or deleted stays so, and to
do it again is answered by an invalid-request error and changes nothing. -/
structure Erasures (rt : Runtime σ) where
  gone : StripeCall → σ → Prop
  settled : ∀ call w, call.Erases → Settled rt call w →
    gone call (rt.stripe.call call w.stripe).2
  kept : ∀ call later s, call.Erases → later.Erases → gone call s →
    gone call (rt.stripe.call later s).2
  missing : ∀ call s, call.Erases → gone call s → ∃ message,
    rt.stripe.call call s = (.error (.stripe (some "resource_missing") message), s)

section Phases

variable (rt : Runtime σ) (userId : UUID) (w : World σ)

/-- The account at Stripe after a call. -/
def World.called (call : StripeCall) : World σ :=
  { w with stripe := (rt.stripe.call call w.stripe).2 }

def World.cancelled : World σ :=
  match activeStripeId w.db userId with
  | some stripeId => w.called rt (.subscriptionCancel stripeId)
  | none => w

def World.customerDeleted : World σ :=
  match w.db.customerByUserId userId with
  | some customer => w.called rt (.customerDelete customer.stripeId)
  | none => w

def World.customerErased : World σ :=
  { w with
    db := ⟨w.db.toTables.deleteCustomerOf userId, Tables.integral_deleteCustomerOf w.db.integral⟩ }

/-- The orgs have been deleted, and what they pay for has been queued. -/
def World.orgsDeleted : World σ :=
  { w with
    db := ⟨w.db.toTables.deleteOrgsCreatedBy userId,
      Tables.integral_deleteOrgsCreatedBy w.db.integral⟩
    queue := w.queue ++ accountTasks userId w.db }

def World.membershipsDeleted : World σ :=
  { w with
    db := ⟨w.db.toTables.deleteMembershipsOf userId,
      Tables.integral_deleteMembershipsOf w.db.integral⟩ }

def World.userDeleted : World σ :=
  { w with
    db := ⟨w.db.toTables.deleteUsers [userId], Tables.integral_deleteUsers w.db.integral⟩ }

end Phases

theorem World.eq_of_tables {w : World σ} {t : Tables} {ht : t.Integral}
    (h : t = w.db.toTables) : { w with db := ⟨t, ht⟩ } = w := by
  have hdb : (⟨t, ht⟩ : Db) = w.db := Db.ext_tables h
  rw [hdb]

theorem customerByUserId_eq_none {db : Db} :
    db.customerByUserId userId = none ↔ db.toTables.NoCustomer userId := by
  simp [Db.customerByUserId, Table.find?_eq_none, Tables.NoCustomer]

theorem accountTasks_of_none {db : Db} (h : db.createdBy userId = []) :
    accountTasks userId db = [] := by
  rw [accountTasks, Db.pendingStripeSubIds, h]
  rfl

section

variable {rt : Runtime σ} (erasures : Erasures rt) (userId : UUID)

/-- The subscription that is cancelled at Stripe stays cancelled. -/
def cancelPhase : Phase (World σ) where
  act := World.cancelled rt userId
  mark w := ∀ stripeId ∈ activeStripeId w.db userId,
    erasures.gone (.subscriptionCancel stripeId) w.stripe
  idle w h := by
    unfold World.cancelled
    split
    next stripeId hactive =>
        obtain ⟨message, hcall⟩ := erasures.missing (.subscriptionCancel stripeId) w.stripe
          trivial (h stripeId hactive)
        rw [World.called, hcall]
    next => rfl

def customerPhase : Phase (World σ) where
  act := World.customerDeleted rt userId
  mark w := ∀ customer ∈ w.db.customerByUserId userId,
    erasures.gone (.customerDelete customer.stripeId) w.stripe
  idle w h := by
    unfold World.customerDeleted
    split
    next customer hcustomer =>
        obtain ⟨message, hcall⟩ := erasures.missing (.customerDelete customer.stripeId)
          w.stripe trivial (h customer hcustomer)
        rw [World.called, hcall]
    next => rfl

def customerRowPhase : Phase (World σ) where
  act := World.customerErased userId
  mark w := w.db.toTables.NoCustomer userId
  idle _ h := World.eq_of_tables (Tables.deleteCustomerOf_of_none h)

def orgsPhase : Phase (World σ) where
  act := World.orgsDeleted userId
  mark w := w.db.createdBy userId = []
  idle w h := by
    unfold World.orgsDeleted
    rw [accountTasks_of_none h, List.append_nil]
    exact World.eq_of_tables (Tables.deleteOrgsCreatedBy_of_none h)

def membershipsPhase : Phase (World σ) where
  act := World.membershipsDeleted userId
  mark w := w.db.toTables.NoMembership userId
  idle _ h := World.eq_of_tables (Tables.deleteMembershipsOf_of_none h)

def userPhase : Phase (World σ) where
  act := World.userDeleted userId
  mark w := w.db.toTables.NoUser userId
  idle w h := World.eq_of_tables (Tables.deleteUsers_of_none h w.db.integral)

/-- The phases of an erasure. -/
def erasurePhases : List (Phase (World σ)) :=
  [cancelPhase erasures userId, customerPhase erasures userId, customerRowPhase userId,
    orgsPhase userId, membershipsPhase userId, userPhase userId]

end

/-! ## What stays true while rows go -/

/-- The paid subscriptions of a user are those of their customer. -/
def Billed (userId : UUID) (db : Db) : Prop :=
  ∀ s ∈ db.subscriptions.rows, s.status.isActive = true → s.userId = some userId →
    s.stripeId.isSome → ∃ c ∈ db.customers.rows, c.userId = some userId ∧ s.stripeCustomerId = some c.id

instance (userId : UUID) (db : Db) : Decidable (Billed userId db) :=
  inferInstanceAs (Decidable (∀ _ ∈ _, _ → _ → _ → ∃ _ ∈ _, _))

/-- Without a customer there is nothing to cancel. -/
theorem activeStripeId_of_noCustomer {db : Db} (hbilled : Billed userId db)
    (h : db.toTables.NoCustomer userId) : activeStripeId db userId = none := by
  unfold activeStripeId
  cases hactive : db.activeForUser userId with
  | none => rfl
  | some s =>
      rw [Option.bind_some]
      obtain ⟨hs, hstatus, huser | ⟨c, hc, _, huser⟩⟩ := Session.mem_activeForUser hactive
      · rw [← Option.not_isSome_iff_eq_none]
        intro hpaid
        obtain ⟨c, hc, huser, _⟩ := hbilled s hs hstatus huser hpaid
        exact h c hc huser
      · exact absurd huser (h c hc)

theorem Billed.of_thinner {db db' : Db} (hbilled : Billed userId db)
    (h : db.toTables.NoCustomer userId) (hthinner : Thinner db.toTables db'.toTables) :
    Billed userId db' := by
  intro s hs hstatus huser hpaid
  obtain ⟨c, hc, howner, _⟩ := hbilled s (hthinner.subscriptions s hs) hstatus huser hpaid
  exact absurd howner (h c hc)

/-- The subscriptions of the customer go with it. -/
theorem Billed.deleteCustomerOf {db db' : Db} (hbilled : Billed userId db)
    (h : db'.toTables = db.toTables.deleteCustomerOf userId) : Billed userId db' := by
  intro s hs hstatus huser hpaid
  rw [h] at hs
  obtain ⟨c, hc, howner, hcustomer⟩ :=
    hbilled s (Tables.thinner_deleteCustomerOf.subscriptions s hs) hstatus huser hpaid
  rcases db.toTables.deleteCustomerOf_cases userId with hsame | ⟨customer, hmem, huser', hdeleted⟩
  · refine ⟨c, ?_, howner, hcustomer⟩
    rw [h, hsame]
    exact hc
  · rw [hdeleted] at hs
    have hsame : c = customer := db.customers.eq_of_clash hc hmem
      (Or.inr (Or.inr (Or.inl ⟨by rw [howner]; rfl, by rw [howner, huser']⟩)))
    refine absurd hcustomer ((Tables.mem_subscriptions_deleteCustomers.mp hs).2 c hc ?_)
    simp [hsame]

/-- A run of the erasure can go on from here: what it has to ask Stripe for is settled,
and the broker is up when there is something to queue. -/
structure Ready (rt : Runtime σ) (userId : UUID) (w : World σ) : Prop where
  billed : Billed userId w.db
  cancels : ∀ stripeId ∈ activeStripeId w.db userId, Settled rt (.subscriptionCancel stripeId) w
  deletes : ∀ customer ∈ w.db.customerByUserId userId,
    Settled rt (.customerDelete customer.stripeId) (w.cancelled rt userId)
  broker : w.db.pendingStripeSubIds userId ≠ [] → rt.brokerUp = true

section Progress

variable {rt : Runtime σ} {erasures : Erasures rt} {w : World σ}

/-- What is gone is settled. -/
theorem Erasures.settled_of_gone (erasures : Erasures rt) {call : StripeCall}
    (hcall : call.Erases) (h : erasures.gone call w.stripe) : Settled rt call w := by
  obtain ⟨message, hanswer⟩ := erasures.missing call w.stripe hcall h
  exact Or.inr ⟨message, by rw [hanswer]⟩

/-- Without a customer there is nothing to ask Stripe for. -/
theorem Ready.of_noCustomer (hbilled : Billed userId w.db)
    (h : w.db.toTables.NoCustomer userId)
    (hbroker : w.db.pendingStripeSubIds userId ≠ [] → rt.brokerUp = true) : Ready rt userId w where
  billed := hbilled
  cancels stripeId hactive := by
    rw [activeStripeId_of_noCustomer hbilled h] at hactive
    cases hactive
  deletes customer hcustomer := by
    rw [customerByUserId_eq_none.mpr h] at hcustomer
    cases hcustomer
  broker := hbroker

theorem cancelPhase_mark_of_noCustomer (hbilled : Billed userId w.db)
    (h : w.db.toTables.NoCustomer userId) : (cancelPhase erasures userId).mark w := by
  intro stripeId hactive
  rw [activeStripeId_of_noCustomer hbilled h] at hactive
  cases hactive

theorem customerPhase_mark_of_noCustomer (h : w.db.toTables.NoCustomer userId) :
    (customerPhase erasures userId).mark w := by
  intro customer hcustomer
  rw [customerByUserId_eq_none.mpr h] at hcustomer
  cases hcustomer

theorem ready_cancelled (h : Ready rt userId w) : Ready rt userId (w.cancelled rt userId) ∧
    (cancelPhase erasures userId).mark (w.cancelled rt userId) := by
  have hdb : (w.cancelled rt userId).db = w.db := by
    unfold World.cancelled
    split <;> rfl
  have hmark : (cancelPhase erasures userId).mark (w.cancelled rt userId) := by
    intro stripeId hactive
    rw [hdb, Option.mem_def] at hactive
    unfold World.cancelled
    rw [hactive]
    exact erasures.settled _ w trivial (h.cancels stripeId hactive)
  refine ⟨⟨?_, fun stripeId hactive => ?_, fun customer hcustomer => ?_, ?_⟩, hmark⟩
  · rw [hdb]
    exact h.billed
  · exact erasures.settled_of_gone trivial (hmark stripeId hactive)
  · have hidle := (cancelPhase erasures userId).idle _ hmark
    change World.cancelled rt userId (w.cancelled rt userId) = _ at hidle
    rw [hidle]
    rw [hdb] at hcustomer
    exact h.deletes customer hcustomer
  · rw [hdb]
    exact h.broker

theorem ready_customerDeleted (h : Ready rt userId w) (hcancelled : (cancelPhase erasures userId).mark w) :
    Ready rt userId (w.customerDeleted rt userId) ∧
      (cancelPhase erasures userId).mark (w.customerDeleted rt userId) ∧
      (customerPhase erasures userId).mark (w.customerDeleted rt userId) := by
  have hdb : (w.customerDeleted rt userId).db = w.db := by
    unfold World.customerDeleted
    split <;> rfl
  have hhere : w.cancelled rt userId = w := (cancelPhase erasures userId).idle w hcancelled
  have hmark₁ : (cancelPhase erasures userId).mark (w.customerDeleted rt userId) := by
    intro stripeId hactive
    rw [hdb] at hactive
    unfold World.customerDeleted
    split
    next customer hcustomer => exact erasures.kept _ _ _ trivial trivial (hcancelled stripeId hactive)
    next => exact hcancelled stripeId hactive
  have hmark₂ : (customerPhase erasures userId).mark (w.customerDeleted rt userId) := by
    intro customer hcustomer
    rw [hdb, Option.mem_def] at hcustomer
    have hsettled := h.deletes customer hcustomer
    rw [hhere] at hsettled
    unfold World.customerDeleted
    rw [hcustomer]
    exact erasures.settled _ w trivial hsettled
  refine ⟨⟨?_, fun stripeId hactive => ?_, fun customer hcustomer => ?_, ?_⟩, hmark₁, hmark₂⟩
  · rw [hdb]
    exact h.billed
  · exact erasures.settled_of_gone trivial (hmark₁ stripeId hactive)
  · have hidle := (cancelPhase erasures userId).idle _ hmark₁
    change World.cancelled rt userId (w.customerDeleted rt userId) = _ at hidle
    rw [hidle]
    exact erasures.settled_of_gone trivial (hmark₂ customer hcustomer)
  · rw [hdb]
    exact h.broker

/-- Once the row of the customer is gone, the erasure can go on from wherever rows have
gone. -/
theorem ready_of_noCustomer {w' : World σ} (hbilled : Billed userId w'.db)
    (hnone : w'.db.toTables.NoCustomer userId)
    (hbroker : w'.db.pendingStripeSubIds userId ≠ [] → rt.brokerUp = true) :
    Ready rt userId w' ∧ (customerRowPhase userId).mark w' ∧
      (cancelPhase erasures userId).mark w' ∧ (customerPhase erasures userId).mark w' :=
  ⟨.of_noCustomer hbilled hnone hbroker, hnone, cancelPhase_mark_of_noCustomer hbilled hnone,
    customerPhase_mark_of_noCustomer hnone⟩

theorem ready_of_thinner (erasures : Erasures rt) {w' : World σ} (h : Ready rt userId w)
    (hnone : (customerRowPhase userId).mark w)
    (hthinner : Thinner w.db.toTables w'.db.toTables)
    (hcreated : (orgsPhase userId).mark w') : Ready rt userId w' ∧
      (customerRowPhase userId).mark w' ∧ (cancelPhase erasures userId).mark w' ∧
        (customerPhase erasures userId).mark w' := by
  refine ready_of_noCustomer (h.billed.of_thinner hnone hthinner)
    (Tables.NoCustomer.of_thinner hnone hthinner) fun hpending => ?_
  refine absurd ?_ hpending
  rw [Db.pendingStripeSubIds, show w'.db.createdBy userId = [] from hcreated]
  rfl

/-- Each phase leaves its mark, and the marks of the phases before. -/
theorem progressive_erasurePhases (erasures : Erasures rt) (userId : UUID) :
    Progressive (Ready rt userId) [] (erasurePhases erasures userId) := by
  unfold erasurePhases
  simp only [Progressive, List.nil_append, List.cons_append, List.forall_mem_cons, List.not_mem_nil,
    false_implies, implies_true, and_true]
  refine ⟨fun w h _ => ready_cancelled h, fun w h hmark => ?_, fun w h _ => ?_, ?_, ?_, ?_⟩
  · obtain ⟨hready, hmark₁, hmark₂⟩ := ready_customerDeleted h hmark
    exact ⟨hready, hmark₂, hmark₁⟩
  · have hpending : (w.customerErased userId).db.pendingStripeSubIds userId =
        w.db.pendingStripeSubIds userId := pendingStripeSubIds_deleteCustomerOf rfl
    refine ready_of_noCustomer (h.billed.deleteCustomerOf rfl) Tables.noCustomer_deleteCustomerOf ?_
    change (w.customerErased userId).db.pendingStripeSubIds userId ≠ [] → _
    rw [hpending]
    exact h.broker
  · rintro w h ⟨_, _, hnone⟩
    have hcreated : (orgsPhase userId).mark (w.orgsDeleted userId) :=
      Tables.createdBy_deleteOrgsCreatedBy
    obtain ⟨hready, hrow, hcancel, hcustomer⟩ := ready_of_thinner erasures h hnone
      Tables.thinner_deleteOrgsCreatedBy hcreated
    exact ⟨hready, hcreated, hcancel, hcustomer, hrow⟩
  · rintro w h ⟨_, _, hnone, hcreated⟩
    have hcreated' : (orgsPhase userId).mark (w.membershipsDeleted userId) := hcreated
    obtain ⟨hready, hrow, hcancel, hcustomer⟩ := ready_of_thinner erasures h hnone
      Tables.thinner_deleteMembershipsOf hcreated'
    exact ⟨hready, Tables.noMembership_deleteMembershipsOf, hcancel, hcustomer, hrow, hcreated'⟩
  · rintro w h ⟨_, _, hnone, hcreated, hmembers⟩
    have hthinner : Thinner w.db.toTables (w.userDeleted userId).db.toTables :=
      Tables.thinner_deleteUsers _
    have hcreated' : (orgsPhase userId).mark (w.userDeleted userId) :=
      Tables.createdBy_of_thinner hcreated hthinner
    obtain ⟨hready, hrow, hcancel, hcustomer⟩ := ready_of_thinner erasures h hnone
      hthinner hcreated'
    exact ⟨hready, Tables.noUser_deleteUsers, hcancel, hcustomer, hrow, hcreated',
      Tables.NoMembership.of_thinner hmembers hthinner⟩

end Progress

/-! ## The statements of an erasure -/

namespace Session

variable {β : Type} {rt : Runtime σ} {w : World σ} {post : ℕ → World σ → Prop}

/-- What `_stripe_request` makes of an answer: a missing object is no failure. -/
def tolerateMissing : Py Json → Py Unit
  | .ok _ => .ok ()
  | .error (.stripe (some "resource_missing") _) => .ok ()
  | .error e => .error e

/-- A call to Stripe whose object may be missing is one action. -/
theorem stripeRequest_eq (rt : Runtime σ) (call : StripeCall) :
    stripeRequest rt call = Fallible.atomic ⟨.stripe call, fun _ => [], false⟩ fun w =>
      (tolerateMissing (rt.stripe.call call w.stripe).1, w.called rt call) := by
  unfold stripeRequest
  refine congrArg (Program.act _ _) (funext fun s => ?_)
  unfold tolerateMissing
  beta_reduce
  dsimp only
  rcases (rt.stripe.call call s.stripe).1 with e | answer
  · split
    next heq => cases heq
    next message heq =>
      obtain rfl := Except.error.inj heq
      rfl
    next other hother heq =>
      obtain rfl := Except.error.inj heq
      show Program.bind (Program.done (Except.error e)) _ = _
      dsimp only [Program.bind]
      split
      next message => exact absurd rfl (hother message)
      next => rfl
  · rfl

theorem settled_iff {call : StripeCall} :
    Settled rt call w ↔ tolerateMissing (rt.stripe.call call w.stripe).1 = .ok () := by
  unfold Settled tolerateMissing
  split
  next answer hanswer => simp [hanswer]
  next message hanswer => simp [hanswer]
  next e hother hanswer =>
      simp only [hanswer, reduceCtorEq, exists_false, false_or, iff_false, not_exists]
      intro message hsame
      exact hother message (Except.error.inj hsame)

theorem exec_stripeRequest_eq_ok {call : StripeCall} {w' : World σ} :
    Fallible.exec (stripeRequest rt call) w = (.ok (), w') ↔
      Settled rt call w ∧ w' = w.called rt call := by
  rw [stripeRequest_eq, Fallible.exec_atomic, Prod.mk.injEq, settled_iff, eq_comm (a := w')]

theorem stops_stripeRequest_bind {call : StripeCall} {rest : Unit → Session σ β}
    (hsettled : Settled rt call w) (hhere : post 0 w)
    (hrest : (rest ()).Stops (fun n => post (n + 1)) (w.called rt call)) :
    (stripeRequest rt call >>= rest).Stops post w := by
  rw [stripeRequest_eq, Fallible.stops_atomic_bind, settled_iff.mp hsettled]
  exact ⟨hhere, hrest⟩

theorem stops_select_bind {α : Type} {f : Db → α} {rest : α → Session σ β} (hhere : post 0 w)
    (hrest : (rest (f w.db)).Stops (fun n => post (n + 1)) w) :
    (select f >>= rest).Stops post w :=
  Fallible.stops_atomic_bind.mpr ⟨hhere, hrest⟩

theorem exec_store {f : Tables → Tables} (h : (f w.db.toTables).Integral) :
    Fallible.exec (store f : Session σ Unit) w = (.ok (), { w with db := ⟨f w.db.toTables, h⟩ }) := by
  unfold store
  rw [exec_commitOn, Db.commit, dif_pos h]
  rfl

theorem stops_store_bind {f : Tables → Tables} {rest : Unit → Session σ β}
    (h : (f w.db.toTables).Integral) (hhere : post 0 w)
    (hrest : (rest ()).Stops (fun n => post (n + 1)) { w with db := ⟨f w.db.toTables, h⟩ }) :
    (store f >>= rest).Stops post w := by
  have hcommit : Db.commit (f w.db.toTables) = .ok ⟨f w.db.toTables, h⟩ := dif_pos h
  refine Fallible.stops_atomic_bind.mpr ⟨hhere, ?_⟩
  beta_reduce
  rw [hcommit]
  exact hrest

/-! ### One phase after the other -/

theorem stops_cancelActive_bind {rest : Unit → Session σ β}
    (hsettled : ∀ stripeId ∈ activeStripeId w.db userId, Settled rt (.subscriptionCancel stripeId) w)
    (hhere : post 0 w) (hrest : (rest ()).Stops
      (fun n => post (n + (activeStripeId w.db userId).toList.length)) (w.cancelled rt userId)) :
    (cancelActive rt (w.db.activeForUser userId) >>= rest).Stops post w := by
  unfold cancelActive
  unfold World.cancelled at hrest
  rw [← activeStripeId]
  cases hactive : activeStripeId w.db userId with
  | none =>
      rw [hactive] at hrest
      exact hrest
  | some stripeId =>
      rw [hactive] at hrest
      exact stops_stripeRequest_bind (hsettled stripeId hactive) hhere hrest

theorem exec_cancelActive_eq_ok {w' : World σ} :
    Fallible.exec (cancelActive rt (w.db.activeForUser userId)) w = (.ok (), w') ↔
      (∀ stripeId ∈ activeStripeId w.db userId, Settled rt (.subscriptionCancel stripeId) w) ∧
        w' = w.cancelled rt userId := by
  unfold cancelActive World.cancelled
  rw [← activeStripeId]
  cases activeStripeId w.db userId with
  | none => simp [eq_comm]
  | some stripeId => simp [exec_stripeRequest_eq_ok]

/-- The row of the customer that was found is the user's. -/
theorem deleteCustomerOf_of_found {db : Db} {customer : StripeCustomer}
    (h : db.customerByUserId userId = some customer) :
    db.toTables.deleteCustomerOf userId =
      db.toTables.deleteCustomers fun c => c.id == customer.id := by
  rw [Tables.deleteCustomerOf, show db.customers.find? (·.userId == some userId) = some customer from h]

theorem stops_eraseCustomer_bind {rest : Unit → Session σ β}
    (hsettled : ∀ customer ∈ w.db.customerByUserId userId,
      Settled rt (.customerDelete customer.stripeId) w)
    (hhere : post 0 w) (hdeleted : post 1 (w.customerDeleted rt userId)) (hrest : (rest ()).Stops
      (fun n => post (n + 2 * (w.db.customerByUserId userId).toList.length))
      ((w.customerDeleted rt userId).customerErased userId)) :
    (eraseCustomer rt (w.db.customerByUserId userId) >>= rest).Stops post w := by
  unfold World.customerDeleted at hdeleted hrest
  cases hcustomer : w.db.customerByUserId userId with
  | none =>
      have hidle : w.customerErased userId = w := World.eq_of_tables
        (Tables.deleteCustomerOf_of_none (customerByUserId_eq_none.mp hcustomer))
      rw [hcustomer] at hrest
      dsimp only at hrest
      rw [hidle] at hrest
      exact hrest
  | some customer =>
      rw [hcustomer] at hrest hdeleted
      have htables := deleteCustomerOf_of_found hcustomer
      unfold eraseCustomer
      rw [bind_assoc]
      refine stops_stripeRequest_bind (hsettled customer hcustomer) hhere ?_
      refine stops_store_bind (Tables.integral_deleteCustomers w.db.integral _) hdeleted ?_
      have herased : (w.called rt (.customerDelete customer.stripeId)).customerErased userId =
          { w.called rt (.customerDelete customer.stripeId) with
            db := ⟨w.db.toTables.deleteCustomers fun c => c.id == customer.id,
              Tables.integral_deleteCustomers w.db.integral _⟩ } := by
        unfold World.customerErased
        congr 2
      dsimp only at hrest
      rw [herased] at hrest
      exact hrest

theorem exec_eraseCustomer_eq_ok {w' : World σ} :
    Fallible.exec (eraseCustomer rt (w.db.customerByUserId userId)) w = (.ok (), w') ↔
      (∀ customer ∈ w.db.customerByUserId userId,
        Settled rt (.customerDelete customer.stripeId) w) ∧
        w' = (w.customerDeleted rt userId).customerErased userId := by
  unfold World.customerDeleted
  cases hcustomer : w.db.customerByUserId userId with
  | none =>
      have hidle : w.customerErased userId = w := World.eq_of_tables
        (Tables.deleteCustomerOf_of_none (customerByUserId_eq_none.mp hcustomer))
      dsimp only
      rw [hidle]
      simp [eraseCustomer, eq_comm]
  | some customer =>
      have htables := deleteCustomerOf_of_found hcustomer
      have herased : (w.called rt (.customerDelete customer.stripeId)).customerErased userId =
          { w.called rt (.customerDelete customer.stripeId) with
            db := ⟨w.db.toTables.deleteCustomers fun c => c.id == customer.id,
              Tables.integral_deleteCustomers w.db.integral _⟩ } := by
        unfold World.customerErased
        congr 2
      dsimp only
      rw [herased]
      unfold eraseCustomer
      rw [Fallible.exec_bind_eq_ok]
      simp only [Option.mem_some_iff, forall_eq']
      constructor
      · rintro ⟨_, t, hcalled, hstored⟩
        obtain ⟨hsettled, rfl⟩ := exec_stripeRequest_eq_ok.mp hcalled
        rw [exec_store (Tables.integral_deleteCustomers w.db.integral _)] at hstored
        exact ⟨hsettled, (Prod.mk.inj hstored).2.symm⟩
      · rintro ⟨hsettled, rfl⟩
        exact ⟨(), _, exec_stripeRequest_eq_ok.mpr ⟨hsettled, rfl⟩,
          exec_store (Tables.integral_deleteCustomers w.db.integral _)⟩

/-- What there is to cancel is queued. -/
theorem exec_queueCancels_eq_ok {origin : String} {stripeSubIds : List String} {w' : World σ} :
    Fallible.exec (queueCancels rt origin stripeSubIds) w = (.ok (), w') ↔
      (stripeSubIds ≠ [] → rt.brokerUp = true) ∧
        w' = { w with queue := w.queue ++ cancelTasks origin stripeSubIds } := by
  cases stripeSubIds with
  | nil =>
      show (Except.ok (), w) = (.ok (), w') ↔ _
      rw [cancelTasks, List.append_nil, Prod.mk.injEq, eq_comm (a := w')]
      simp
  | cons stripeSubId rest =>
      unfold queueCancels
      rw [exec_enqueue, eq_comm (a := w')]
      cases rt.brokerUp with
      | false => simp
      | true => simp [cancelTasks]

theorem orgsDeleted_of_created {orgIds : List UUID} (h : w.db.createdBy userId = orgIds)
    (hne : orgIds ≠ []) : w.db.toTables.deleteOrgsCreatedBy userId =
      w.db.toTables.deleteOrgBatch orgIds := by
  rcases w.db.toTables.deleteOrgsCreatedBy_cases userId with ⟨hnone, _⟩ | hdeleted
  · exact absurd (h.symm.trans hnone) hne
  · rw [hdeleted, ← h]

theorem exec_deleteOrgs_eq_ok {w' : World σ} :
    Fallible.exec (deleteOrgsCreatedByUser rt userId) w = (.ok (), w') ↔
      (w.db.pendingStripeSubIds userId ≠ [] → rt.brokerUp = true) ∧ w' = w.orgsDeleted userId := by
  unfold deleteOrgsCreatedByUser
  rw [exec_select_bind]
  cases hcreated : w.db.createdBy userId with
  | nil =>
      have hidle : w.orgsDeleted userId = w := (orgsPhase userId).idle w hcreated
      have hpending : w.db.pendingStripeSubIds userId = [] := by
        rw [Db.pendingStripeSubIds, hcreated]
        rfl
      rw [hidle, hpending, eq_comm (a := w')]
      simp
  | cons orgId rest =>
      have htables := orgsDeleted_of_created hcreated (List.cons_ne_nil _ _)
      have hpending : (orgId :: rest).filterMap w.db.activeStripeSubId =
          w.db.pendingStripeSubIds userId := by
        rw [Db.pendingStripeSubIds, hcreated]
      dsimp only
      rw [exec_select_bind, Fallible.exec_bind,
        exec_store (Tables.integral_deleteOrgBatch w.db.integral), Fallible.resume_ok, hpending,
        exec_queueCancels_eq_ok]
      have hdeleted : w.orgsDeleted userId = { w with
          db := ⟨w.db.toTables.deleteOrgBatch (orgId :: rest),
            Tables.integral_deleteOrgBatch w.db.integral⟩
          queue := w.queue ++ cancelTasks ("user:" ++ uuidText userId)
            (w.db.pendingStripeSubIds userId) } := by
        unfold World.orgsDeleted
        congr 2
      rw [hdeleted]

/-- The orgs are deleted in one action, which is followed by the one that queues. -/
theorem stops_deleteOrgs_bind {rest : Unit → Session σ β}
    (hbroker : w.db.pendingStripeSubIds userId ≠ [] → rt.brokerUp = true)
    (hbefore : ∀ n ≤ 2, post n w)
    (hbetween : w.db.pendingStripeSubIds userId ≠ [] →
      post 3 { w with db := (w.orgsDeleted userId).db })
    (hrest : ∀ k, (w.db.pendingStripeSubIds userId ≠ [] → k = 4) →
      (rest ()).Stops (fun n => post (n + k)) (w.orgsDeleted userId)) :
    (deleteOrgsCreatedByUser rt userId >>= rest).Stops post w := by
  unfold deleteOrgsCreatedByUser
  rw [bind_assoc]
  refine stops_select_bind (hbefore 0 (by omega)) ?_
  cases hcreated : w.db.createdBy userId with
  | nil =>
      have hidle : w.orgsDeleted userId = w := (orgsPhase userId).idle w hcreated
      have hpending : w.db.pendingStripeSubIds userId = [] := by
        rw [Db.pendingStripeSubIds, hcreated]
        rfl
      have hafter := hrest 1 fun hne => absurd hpending hne
      rw [hidle] at hafter
      exact hafter
  | cons orgId orgIds =>
      have htables := orgsDeleted_of_created hcreated (List.cons_ne_nil _ _)
      have hpending : (orgId :: orgIds).filterMap w.db.activeStripeSubId =
          w.db.pendingStripeSubIds userId := by
        rw [Db.pendingStripeSubIds, hcreated]
      have hdb : (⟨w.db.toTables.deleteOrgBatch (orgId :: orgIds),
          Tables.integral_deleteOrgBatch w.db.integral⟩ : Db) = (w.orgsDeleted userId).db :=
        Db.ext_tables htables.symm
      dsimp only
      rw [bind_assoc]
      refine stops_select_bind (hbefore 1 (by omega)) ?_
      rw [bind_assoc, hpending]
      refine stops_store_bind (Tables.integral_deleteOrgBatch w.db.integral)
        (hbefore 2 (by omega)) ?_
      rw [hdb]
      -- nothing to queue, or one more action
      cases hids : w.db.pendingStripeSubIds userId with
      | nil =>
          have hqueue : w.orgsDeleted userId = { w with db := (w.orgsDeleted userId).db } := by
            unfold World.orgsDeleted
            rw [accountTasks, hids]
            exact congrArg (World.mk _ _) (List.append_nil _)
          have hafter := hrest 3 fun hne => absurd hids hne
          rw [hqueue] at hafter
          exact hafter
      | cons stripeSubId stripeSubIds =>
          have hne : w.db.pendingStripeSubIds userId ≠ [] := by
            rw [hids]
            exact List.cons_ne_nil _ _
          have hqueue : w.orgsDeleted userId = { w with
              db := (w.orgsDeleted userId).db
              queue := w.queue ++ [.cancelStripeSubs (stripeSubId :: stripeSubIds)
                ("user:" ++ uuidText userId)] } := by
            unfold World.orgsDeleted
            rw [accountTasks, hids]
            rfl
          refine Fallible.stops_atomic_bind.mpr ⟨hbetween hne, ?_⟩
          rw [if_pos (hbroker hne)]
          have hafter := hrest 4 fun _ => rfl
          rw [hqueue] at hafter
          exact hafter

/-! ### The whole erasure -/

/-- How many actions the commit of the orgs is the last of: three queries, the calls to
Stripe and the row of the customer, two queries and itself. -/
def orgsCommitted (userId : UUID) (db : Db) : ℕ :=
  6 + (activeStripeId db userId).toList.length + 2 * (db.customerByUserId userId).toList.length

theorem db_cancelled : (w.cancelled rt userId).db = w.db := by
  unfold World.cancelled
  split <;> rfl

theorem db_customerDeleted : (w.customerDeleted rt userId).db = w.db := by
  unfold World.customerDeleted
  split <;> rfl

theorem queue_cancelled : (w.cancelled rt userId).queue = w.queue := by
  unfold World.cancelled
  split <;> rfl

theorem queue_customerDeleted : (w.customerDeleted rt userId).queue = w.queue := by
  unfold World.customerDeleted
  split <;> rfl

theorem userById_eq_none {db : Db} : db.userById userId = none ↔ db.toTables.NoUser userId := by
  simp [Db.userById, Table.find?_eq_none, Tables.NoUser]

/-- An erasure returns when Stripe settles what it is asked for and the broker is up. -/
theorem exec_deleteAccount_eq_ok (erasures : Erasures rt) {w' : World σ}
    (hbilled : Billed userId w.db) : Fallible.exec (deleteAccount rt userId) w = (.ok (), w') ↔
      ¬ w.db.toTables.NoUser userId ∧ Ready rt userId w ∧
        w' = upto (erasurePhases erasures userId) 6 w := by
  unfold deleteAccount
  rw [exec_select_bind, ← userById_eq_none]
  cases hfound : w.db.userById userId with
  | none => simp
  | some user =>
      have hcustomer : w.db.customerByUserId userId =
          (w.cancelled rt userId).db.customerByUserId userId := by rw [db_cancelled]
      have hpending : (((w.cancelled rt userId).customerDeleted rt userId).customerErased
          userId).db.pendingStripeSubIds userId = w.db.pendingStripeSubIds userId := by
        rw [pendingStripeSubIds_deleteCustomerOf rfl, db_customerDeleted, db_cancelled]
      have hpresent : ¬ (some user : Option User) = none := nofun
      dsimp only
      rw [exec_select_bind, exec_select_bind, Fallible.exec_bind_eq_ok]
      constructor
      · rintro ⟨_, t, hcancel, hrest⟩
        obtain ⟨hcancels, rfl⟩ := exec_cancelActive_eq_ok.mp hcancel
        obtain ⟨_, t, herase, hrest⟩ := Fallible.exec_bind_eq_ok.mp hrest
        rw [hcustomer] at herase
        obtain ⟨hdeletes, rfl⟩ := exec_eraseCustomer_eq_ok.mp herase
        obtain ⟨_, t, horgs, hrest⟩ := Fallible.exec_bind_eq_ok.mp hrest
        obtain ⟨hbroker, rfl⟩ := exec_deleteOrgs_eq_ok.mp horgs
        obtain ⟨_, t, hmembers, huser⟩ := Fallible.exec_bind_eq_ok.mp hrest
        rw [exec_store (Tables.integral_deleteMembershipsOf (Db.integral _))] at hmembers
        cases hmembers
        rw [exec_store (Tables.integral_deleteUsers (Db.integral _))] at huser
        cases huser
        rw [← hcustomer] at hdeletes
        rw [hpending] at hbroker
        exact ⟨hpresent, ⟨hbilled, hcancels, hdeletes, hbroker⟩, rfl⟩
      · rintro ⟨_, hready, rfl⟩
        refine ⟨(), _, exec_cancelActive_eq_ok.mpr ⟨hready.cancels, rfl⟩, ?_⟩
        have hdeletes := hready.deletes
        have hbroker := hready.broker
        rw [hcustomer] at hdeletes ⊢
        rw [← hpending] at hbroker
        refine Fallible.exec_bind_eq_ok.mpr
          ⟨(), _, exec_eraseCustomer_eq_ok.mpr ⟨hdeletes, rfl⟩, ?_⟩
        refine Fallible.exec_bind_eq_ok.mpr ⟨(), _, exec_deleteOrgs_eq_ok.mpr ⟨hbroker, rfl⟩, ?_⟩
        refine Fallible.exec_bind_eq_ok.mpr
          ⟨(), _, exec_store (Tables.integral_deleteMembershipsOf (Db.integral _)), ?_⟩
        exact exec_store (Tables.integral_deleteUsers (Db.integral _))

/-- Without the user an erasure stops at once. -/
theorem deleteAccount_of_noUser (h : w.db.toTables.NoUser userId) :
    (deleteAccount rt userId).Stops (fun _ t => t = w) w ∧
      Fallible.exec (deleteAccount rt userId) w =
        (.error (.userNotFound ("User " ++ uuidText userId ++ " not found")), w) := by
  have hnone := userById_eq_none.mpr h
  unfold deleteAccount
  constructor
  · refine stops_select_bind rfl ?_
    rw [hnone]
    exact Fallible.stops_throw.mpr fun _ => rfl
  · rw [exec_select_bind, hnone]
    rfl

/-- The erasure is stopped when it has deleted the orgs and not queued what they pay for. -/
def LosesQueue (userId : UUID) (w : World σ) (n : ℕ) : Prop :=
  w.db.pendingStripeSubIds userId ≠ [] ∧ n = orgsCommitted userId w.db

instance (userId : UUID) (w : World σ) (n : ℕ) : Decidable (LosesQueue userId w n) :=
  inferInstanceAs (Decidable (_ ∧ _))

/-- The orgs have been deleted, and nothing has been queued. -/
def unqueued (erasures : Erasures rt) (userId : UUID) (w : World σ) : World σ :=
  { upto (erasurePhases erasures userId) 4 w with queue := w.queue }

/-- What a run that is stopped after `n` actions leaves: it has come as far as one of the
phases, unless it loses what is to be queued. -/
def StoppedAs (erasures : Erasures rt) (userId : UUID) (w : World σ) (n : ℕ) (t : World σ) :
    Prop :=
  (LosesQueue userId w n → t = unqueued erasures userId w) ∧
    (¬ LosesQueue userId w n → ∃ m, t = upto (erasurePhases erasures userId) m w)

theorem stoppedAs_upto {erasures : Erasures rt} {n : ℕ} (h : ¬ LosesQueue userId w n) (m : ℕ) :
    StoppedAs erasures userId w n (upto (erasurePhases erasures userId) m w) :=
  ⟨fun hloses => absurd hloses h, fun _ => ⟨m, rfl⟩⟩

/-- **Where an erasure can be stopped.** -/
theorem stops_deleteAccount (erasures : Erasures rt) (hready : Ready rt userId w) :
    (deleteAccount rt userId).Stops (StoppedAs erasures userId w) w := by
  cases hfound : w.db.userById userId with
  | none =>
      have hnone := userById_eq_none.mp hfound
      refine (deleteAccount_of_noUser hnone).1.mono fun n t hsame => ?_
      rw [hsame]
      refine stoppedAs_upto (fun hloses => hloses.1 ?_) 0
      rw [Db.pendingStripeSubIds, Tables.NoUser.createdBy hnone w.db.integral]
      rfl
  | some user =>
      have hcustomer : w.db.customerByUserId userId =
          (w.cancelled rt userId).db.customerByUserId userId := by rw [db_cancelled]
      have hpending : (((w.cancelled rt userId).customerDeleted rt userId).customerErased
          userId).db.pendingStripeSubIds userId = w.db.pendingStripeSubIds userId := by
        rw [pendingStripeSubIds_deleteCustomerOf rfl, db_customerDeleted, db_cancelled]
      have hcount : orgsCommitted userId w.db = 6 + (activeStripeId w.db userId).toList.length +
          2 * ((w.cancelled rt userId).db.customerByUserId userId).toList.length := by
        rw [orgsCommitted, hcustomer]
      have hbefore : ∀ n m, n < orgsCommitted userId w.db →
          StoppedAs erasures userId w n (upto (erasurePhases erasures userId) m w) :=
        fun n m hn => stoppedAs_upto (fun hloses => hn.ne hloses.2) m
      unfold deleteAccount
      refine stops_select_bind (hbefore _ 0 (by omega)) ?_
      rw [hfound]
      dsimp only
      refine stops_select_bind (hbefore _ 0 (by omega)) ?_
      refine stops_select_bind (hbefore _ 0 (by omega)) ?_
      refine stops_cancelActive_bind hready.cancels (hbefore _ 0 (by omega)) ?_
      have hdeletes := hready.deletes
      rw [hcustomer] at hdeletes ⊢
      refine stops_eraseCustomer_bind hdeletes (hbefore _ 1 (by omega)) (hbefore _ 2 (by omega)) ?_
      have hbroker := hready.broker
      rw [← hpending] at hbroker
      refine stops_deleteOrgs_bind hbroker (fun n hn => hbefore _ 3 (by omega)) (fun hne => ?_)
        fun k hk => ?_
      · rw [hpending] at hne
        refine ⟨fun _ => ?_, fun hkeeps => absurd ⟨hne, by omega⟩ hkeeps⟩
        exact congrArg (World.mk _ _) (queue_customerDeleted.trans queue_cancelled)
      · -- what is to be queued has been queued
        rw [hpending] at hk
        have hafter : ∀ n m, 3 + k + 2 *
              ((w.cancelled rt userId).db.customerByUserId userId).toList.length +
              (activeStripeId w.db userId).toList.length ≤ n →
            StoppedAs erasures userId w n (upto (erasurePhases erasures userId) m w) := by
          refine fun n m hn => stoppedAs_upto (fun hloses => ?_) m
          have hfour := hk hloses.1
          have hlast := hloses.2
          omega
        refine stops_store_bind (Tables.integral_deleteMembershipsOf (Db.integral _))
          (hafter _ 4 (by omega)) ?_
        rw [← bind_pure (store _)]
        refine stops_store_bind (Tables.integral_deleteUsers (Db.integral _))
          (hafter _ 5 (by omega)) ?_
        exact Fallible.stops_pure.mpr fun n => hafter _ 6 (by omega)

end Session

/-! ## Runs that are stopped -/

/-- The world a run of the erasure leaves that is stopped after `n` actions. -/
def stopped (rt : Runtime σ) (userId : UUID) (w : World σ) (n : ℕ) : World σ :=
  Program.after n (ExceptT.run (Session.deleteAccount rt userId)) w

instance (stripeId : String) (task : Task) : Decidable (task.Cancels stripeId) := by
  cases task <;> unfold Task.Cancels <;> infer_instance

/-- A task queued by these runs cancels the subscription. -/
def Queued (w w' : World σ) (stripeId : String) : Prop :=
  ∃ task ∈ w'.queue.drop w.queue.length, task.Cancels stripeId

instance (w w' : World σ) (stripeId : String) : Decidable (Queued w w' stripeId) :=
  inferInstanceAs (Decidable (∃ _ ∈ _, _))

/-- A run of the erasure that is not stopped. -/
def eraseAccount (rt : Runtime σ) (userId : UUID) (w : World σ) : Py Unit × World σ :=
  Fallible.exec (Session.deleteAccount rt userId) w

/-- After runs that were stopped, one that is not has the outcome of a single run: the
database, the account at Stripe and the subscriptions that are queued. -/
structure Resumed (rt : Runtime σ) (userId : UUID) (w : World σ) (cuts : List ℕ) : Prop where
  returns : (eraseAccount rt userId (Runs.run (stopped rt userId) w cuts)).1 = .ok () ∨
    ∃ message, (eraseAccount rt userId (Runs.run (stopped rt userId) w cuts)).1 =
      .error (.userNotFound message)
  db : (eraseAccount rt userId (Runs.run (stopped rt userId) w cuts)).2.db.toTables =
    (eraseAccount rt userId w).2.db.toTables
  stripe : (eraseAccount rt userId (Runs.run (stopped rt userId) w cuts)).2.stripe =
    (eraseAccount rt userId w).2.stripe
  queued : ∀ stripeId, Queued w (eraseAccount rt userId (Runs.run (stopped rt userId) w cuts)).2 stripeId ↔
    Queued w (eraseAccount rt userId w).2 stripeId

section Runs

open Session

variable {rt : Runtime σ} {w : World σ}

/-- Without the user every phase has been taken. -/
theorem marked_of_noUser (erasures : Erasures rt) (hbilled : Billed userId w.db)
    (h : w.db.toTables.NoUser userId) : ∀ phase ∈ erasurePhases erasures userId, phase.mark w := by
  have hnone : w.db.toTables.NoCustomer userId := h.noCustomer w.db.integral
  unfold erasurePhases
  simp only [List.forall_mem_cons, List.not_mem_nil, false_implies, implies_true, and_true]
  exact ⟨cancelPhase_mark_of_noCustomer hbilled hnone, customerPhase_mark_of_noCustomer hnone, hnone,
    h.createdBy w.db.integral, h.noMembership w.db.integral, h⟩

/-- From any phase a run ends as one from the start. -/
theorem erase_upto (erasures : Erasures rt) (hready : Ready rt userId w) (n : ℕ) :
    ∃ result, eraseAccount rt userId (upto (erasurePhases erasures userId) n w) =
        (result, upto (erasurePhases erasures userId) 6 w) ∧
      (result = .ok () ∨ ∃ message, result = .error (.userNotFound message)) := by
  unfold eraseAccount
  have hprogress := progressive_erasurePhases erasures userId
  obtain ⟨hready', -, -⟩ := hprogress.marked (n := n) hready (List.forall_mem_nil _)
  have hlast : upto (erasurePhases erasures userId) 6 (upto (erasurePhases erasures userId) n w) =
      upto (erasurePhases erasures userId) 6 w := by
    rw [hprogress.upto_upto hready]
    exact upto_of_length_le (le_max_right n 6)
  by_cases hnone : (upto (erasurePhases erasures userId) n w).db.toTables.NoUser userId
  · refine ⟨.error (.userNotFound ("User " ++ uuidText userId ++ " not found")), ?_,
      Or.inr ⟨_, rfl⟩⟩
    rw [(deleteAccount_of_noUser hnone).2, ← hlast]
    refine Prod.ext rfl (upto_of_marked ?_).symm
    exact fun phase hphase => marked_of_noUser erasures hready'.billed hnone phase
      (List.mem_of_mem_take hphase)
  · refine ⟨_, ?_, Or.inl rfl⟩
    rw [← hlast]
    exact (exec_deleteAccount_eq_ok erasures hready'.billed).mpr ⟨hnone, hready', rfl⟩

/-- As long as nothing is lost, the stopped runs come as far as some phase. -/
theorem run_stopped (erasures : Erasures rt) (hready : Ready rt userId w) {cuts : List ℕ}
    (h : Runs.Steps (stopped rt userId) (fun w n => ¬ LosesQueue userId w n) w cuts) :
    ∃ n, Runs.run (stopped rt userId) w cuts = upto (erasurePhases erasures userId) n w := by
  have hprogress := progressive_erasurePhases erasures userId
  refine hprogress.resume hready (fun n cut hkeeps => ?_) h
  obtain ⟨hready', -, -⟩ := hprogress.marked (n := n) hready (List.forall_mem_nil _)
  exact (stops_deleteAccount erasures hready' cut).2 hkeeps

theorem queue_upto (erasures : Erasures rt) (userId : UUID) (w : World σ) :
    (upto (erasurePhases erasures userId) 6 w).queue = w.queue ++ accountTasks userId w.db := by
  have hpending : (((w.cancelled rt userId).customerDeleted rt userId).customerErased
      userId).db.pendingStripeSubIds userId = w.db.pendingStripeSubIds userId := by
    rw [pendingStripeSubIds_deleteCustomerOf rfl, db_customerDeleted, db_cancelled]
  show ((w.cancelled rt userId).customerDeleted rt userId).queue ++ accountTasks userId
    (((w.cancelled rt userId).customerDeleted rt userId).customerErased userId).db = _
  rw [queue_customerDeleted, queue_cancelled, accountTasks, hpending, accountTasks]

/-- Of runs that lose nothing the last one ends as a single run. -/
theorem erase_run_stopped (erasures : Erasures rt) (hready : Ready rt userId w) {cuts : List ℕ}
    (h : Runs.Steps (stopped rt userId) (fun w n => ¬ LosesQueue userId w n) w cuts) :
    ∃ result, eraseAccount rt userId (Runs.run (stopped rt userId) w cuts) =
        (result, upto (erasurePhases erasures userId) 6 w) ∧
      (result = .ok () ∨ ∃ message, result = .error (.userNotFound message)) := by
  obtain ⟨n, hn⟩ := run_stopped erasures hready h
  rw [hn]
  exact erase_upto erasures hready n

theorem thinner_upto (erasures : Erasures rt) (userId : UUID) (n : ℕ) (w : World σ) :
    Thinner w.db.toTables (upto (erasurePhases erasures userId) n w).db.toTables := by
  refine rel_upto (R := fun w w' : World σ => Thinner w.db.toTables w'.db.toTables)
    (fun w => .refl _) (fun _ _ _ h h' => h.trans h') ?_ n w
  unfold erasurePhases
  simp only [List.forall_mem_cons, List.not_mem_nil, false_implies, implies_true, and_true]
  refine ⟨fun w => ?_, fun w => ?_, fun w => Tables.thinner_deleteCustomerOf,
    fun w => Tables.thinner_deleteOrgsCreatedBy, fun w => Tables.thinner_deleteMembershipsOf,
    fun w => Tables.thinner_deleteUsers _⟩
  · show Thinner _ (w.cancelled rt userId).db.toTables
    rw [db_cancelled]
    exact .refl _
  · show Thinner _ (w.customerDeleted rt userId).db.toTables
    rw [db_customerDeleted]
    exact .refl _

theorem not_losesQueue_of_created {n : ℕ} (h : w.db.createdBy userId = []) :
    ¬ LosesQueue userId w n := by
  intro hloses
  refine hloses.1 ?_
  rw [Db.pendingStripeSubIds, h]
  rfl

/-- Nothing is lost of a user who has created no org that is left. -/
theorem steps_of_created (erasures : Erasures rt) (hready : Ready rt userId w)
    (h : w.db.createdBy userId = []) (cuts : List ℕ) :
    Runs.Steps (stopped rt userId) (fun w n => ¬ LosesQueue userId w n) w cuts := by
  by_contra hfails
  obtain ⟨first, cut, rest, rfl, hfirst, hloses⟩ := Runs.exists_first_failure hfails
  obtain ⟨n, hn⟩ := run_stopped erasures hready hfirst
  rw [hn] at hloses
  exact hloses (not_losesQueue_of_created
    (Tables.createdBy_of_thinner h (thinner_upto erasures userId n w)))

/-- As long as there are orgs to delete, nothing has been queued, and there is as much to
queue as at the start. -/
theorem upto_of_losesQueue (erasures : Erasures rt) (hready : Ready rt userId w) {n cut : ℕ}
    (h : LosesQueue userId (upto (erasurePhases erasures userId) n w) cut) :
    (upto (erasurePhases erasures userId) n w).queue = w.queue ∧
      w.db.pendingStripeSubIds userId ≠ [] := by
  have hprogress := progressive_erasurePhases erasures userId
  match n with
  | 0 => exact ⟨rfl, h.1⟩
  | 1 =>
      refine ⟨queue_cancelled, ?_⟩
      have hpending : (w.cancelled rt userId).db.pendingStripeSubIds userId ≠ [] := h.1
      rwa [db_cancelled] at hpending
  | 2 =>
      refine ⟨queue_customerDeleted.trans queue_cancelled, ?_⟩
      have hpending : ((w.cancelled rt userId).customerDeleted
        rt userId).db.pendingStripeSubIds userId ≠ [] := h.1
      rwa [db_customerDeleted, db_cancelled] at hpending
  | 3 =>
      refine ⟨queue_customerDeleted.trans queue_cancelled, ?_⟩
      have hpending : (((w.cancelled rt userId).customerDeleted rt userId).customerErased
        userId).db.pendingStripeSubIds userId ≠ [] := h.1
      rwa [pendingStripeSubIds_deleteCustomerOf rfl, db_customerDeleted, db_cancelled] at hpending
  | n + 4 =>
      obtain ⟨-, -, hmarks⟩ := hprogress.marked (n := n + 4) hready (List.forall_mem_nil _)
      have hcreated := hmarks (orgsPhase userId) (by simp [erasurePhases])
      exact absurd h (not_losesQueue_of_created hcreated)

/-- When the orgs have been deleted and nothing queued, nothing is queued any more. -/
theorem queue_of_unqueued (erasures : Erasures rt) (hready : Ready rt userId w) (cuts : List ℕ) :
    (eraseAccount rt userId
      (Runs.run (stopped rt userId) (unqueued erasures userId w) cuts)).2.queue = w.queue := by
  obtain ⟨hready', -, hmarks⟩ := (progressive_erasurePhases erasures userId).marked (n := 4) hready
    (List.forall_mem_nil _)
  have hcreated : (unqueued erasures userId w).db.createdBy userId = [] :=
    hmarks (orgsPhase userId) (by simp [erasurePhases])
  have hnone : (unqueued erasures userId w).db.toTables.NoCustomer userId :=
    hmarks (customerRowPhase userId) (by simp [erasurePhases])
  have hready'' : Ready rt userId (unqueued erasures userId w) :=
    .of_noCustomer hready'.billed hnone hready'.broker
  obtain ⟨result, hlast, -⟩ := erase_run_stopped erasures hready''
    (steps_of_created erasures hready'' hcreated cuts)
  rw [hlast, queue_upto, accountTasks_of_none hcreated, List.append_nil]
  rfl

/-- **Erasures that are taken up again.**  However often the deletion of an account is
stopped, and wherever, starting it again ends as a single run would have ended if and
only if no run has been stopped between the commit of the orgs and the task that
cancels what they pay for. -/
theorem erasure_resumes_iff (erasures : Erasures rt) (hbilled : Billed userId w.db)
    (hdone : (eraseAccount rt userId w).1 = .ok ()) (cuts : List ℕ) :
    Resumed rt userId w cuts ↔
      Runs.Steps (stopped rt userId) (fun w n => ¬ LosesQueue userId w n) w cuts := by
  have hprogress := progressive_erasurePhases erasures userId
  obtain ⟨_, hready, hwhole⟩ := (exec_deleteAccount_eq_ok erasures hbilled).mp
    (Prod.ext hdone rfl : eraseAccount rt userId w = (.ok (), (eraseAccount rt userId w).2))
  constructor
  · intro hresumed
    by_contra hfails
    obtain ⟨first, cut, rest, rfl, hfirst, hloses⟩ := Runs.exists_first_failure hfails
    rw [not_not] at hloses
    obtain ⟨n, hn⟩ := run_stopped erasures hready hfirst
    rw [hn] at hloses
    obtain ⟨hqueue, hpending⟩ := upto_of_losesQueue erasures hready hloses
    obtain ⟨hready', -, -⟩ := hprogress.marked (n := n) hready (List.forall_mem_nil _)
    have hrun : Runs.run (stopped rt userId) w (first ++ cut :: rest) =
        Runs.run (stopped rt userId)
          (unqueued erasures userId (upto (erasurePhases erasures userId) n w)) rest := by
      rw [Runs.run_append, hn, Runs.run_cons]
      exact congrArg (Runs.run (stopped rt userId) · rest)
        ((stops_deleteAccount erasures hready' cut).1 hloses)
    have hlast : (eraseAccount rt userId
        (Runs.run (stopped rt userId) w (first ++ cut :: rest))).2.queue = w.queue := by
      rw [hrun, queue_of_unqueued erasures hready' rest, hqueue]
    obtain ⟨stripeId, hstripeId⟩ := List.exists_mem_of_ne_nil _ hpending
    have hqueued : Queued w (eraseAccount rt userId w).2 stripeId := by
      refine ⟨.cancelStripeSubs (w.db.pendingStripeSubIds userId) ("user:" ++ uuidText userId),
        ?_, hstripeId⟩
      rw [hwhole, queue_upto, List.drop_left, accountTasks]
      cases hids : w.db.pendingStripeSubIds userId with
      | nil => exact absurd hids hpending
      | cons first rest => exact List.mem_singleton_self _
    obtain ⟨task, htask, -⟩ := (hresumed.queued stripeId).mpr hqueued
    rw [hlast, List.drop_length] at htask
    cases htask
  · intro hsteps
    obtain ⟨result, hlast, hresult⟩ := erase_run_stopped erasures hready hsteps
    have hworld : (eraseAccount rt userId (Runs.run (stopped rt userId) w cuts)).2 =
        (eraseAccount rt userId w).2 := by
      rw [hlast, hwhole]
    refine ⟨?_, by rw [hworld], by rw [hworld], fun stripeId => by rw [hworld]⟩
    rw [hlast]
    exact hresult

end Runs

/-! ## Two erasures -/

/-- A Stripe account that keeps what it has been asked to cancel and delete. -/
def keptStripe : Stripe (List StripeCall) where
  call c asked :=
    if c ∈ asked then (.error (.stripe (some "resource_missing") "No such object"), asked)
    else (.ok .null, c :: asked)

def keptRuntime : Runtime (List StripeCall) :=
  let rt := sampleRuntime noStripe 3 0
  { rt with stripe := keptStripe }

def keptErasures : Erasures keptRuntime where
  gone c asked := c ∈ asked
  settled c w _ _ := by
    show c ∈ (keptStripe.call c w.stripe).2
    unfold keptStripe
    dsimp only
    split
    next hasked => exact hasked
    next => exact List.mem_cons_self
  kept c later asked _ _ hasked := by
    show c ∈ (keptStripe.call later asked).2
    unfold keptStripe
    dsimp only
    split
    next => exact hasked
    next => exact List.mem_cons_of_mem _ hasked
  missing c asked _ hasked := ⟨"No such object", if_pos hasked⟩

/-- The founder of an org that pays for its plan. -/
def payingFounder : World (List StripeCall) :=
  ⟨(Runs.run OrgOperation.after sampleWorld staffed).db, [], []⟩

/-- The erasure is stopped after the customer has been deleted at Stripe, and after the
task has been queued. -/
theorem erasure_resumes_founder : Resumed keptRuntime buyer.id payingFounder [4, 9] :=
  (erasure_resumes_iff keptErasures (by decide +kernel) (by decide +kernel) [4, 9]).mpr
    (by decide +kernel)

/-- The broker is down when the orgs have been deleted, and the subscription of the org is
never cancelled. -/
theorem not_erasure_resumes : (eraseAccount keptRuntime buyer.id payingFounder).1 = .ok () ∧
    Queued payingFounder (eraseAccount keptRuntime buyer.id payingFounder).2 "sub_team" ∧
    ¬ Resumed keptRuntime buyer.id payingFounder [8] := by
  have hwhole : Queued payingFounder (eraseAccount keptRuntime buyer.id payingFounder).2
      "sub_team" := by
    decide +kernel
  have hlast : ¬ Queued payingFounder (eraseAccount keptRuntime buyer.id
      (Runs.run (stopped keptRuntime buyer.id) payingFounder [8])).2 "sub_team" := by
    decide +kernel
  refine ⟨by decide +kernel, hwhole, fun hresumed => hlast ?_⟩
  exact (hresumed.queued "sub_team").mpr hwhole

end Saasmint
