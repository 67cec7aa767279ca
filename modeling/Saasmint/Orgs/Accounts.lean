import Saasmint.Orgs.Invitations

/-!
# Deleting orgs and accounts

The owner of an org deletes it; a user deletes their account and, with it, the
orgs they have created.  Both go through the same statements: pending invitations
are cancelled, the members with no other org and no personal subscription are
deleted, and then the orgs.  What has to be cancelled at Stripe is read before and
queued after.

An account is deleted in stages, `Tables.erased`, each of them committed before
the next begins.
-/

namespace Saasmint

open Atomic Relational

variable {σ : Type}

/-! ## Statements over a batch of orgs -/

namespace Tables

/-- Pending invitations of the orgs become cancelled ones. -/
def cancelInvitationsOf (t : Tables) (orgIds : List UUID) : Tables :=
  { t with
    invitations := t.invitations.rewrite
      (fun i => if i.orgId ∈ orgIds ∧ i.status = .pending then i.withStatus .cancelled else i)
      (fun _ _ => trivial)
      (fun a b h => by
        rcases h with h | h | ⟨ha, hb, horg, hemail⟩
        · refine Or.inl ?_
          split at h <;> split at h <;> exact h
        · refine Or.inr (Or.inl ?_)
          split at h <;> split at h <;> exact h
        · split at ha
          next => cases ha
          next hna =>
              split at hb
              next => cases hb
              next hnb =>
                  rw [if_neg hna, if_neg hnb] at horg hemail
                  exact Or.inr (Or.inr ⟨ha, hb, horg, hemail⟩)) }

/-- The members of the orgs with no membership elsewhere and no personal
subscription. -/
def deletableUserIdsOf (t : Tables) (orgIds : List UUID) : List UUID :=
  ((t.members.filter fun m => orgIds.contains m.orgId).map OrgMember.userId).filter fun userId =>
    !(t.members.rows.any fun m => m.userId == userId && !orgIds.contains m.orgId) &&
      !t.hasPersonalSub userId

/-- `Org.objects.filter(id__in=orgIds).delete()`. -/
def deleteOrgs (t : Tables) (orgIds : List UUID) : Tables :=
  let gone (id : Option UUID) : Bool := id.any orgIds.contains
  let t := t.deleteCustomers fun c => gone c.orgId
  { t with
    orgs := t.orgs.delete fun o => orgIds.contains o.id
    members := t.members.delete fun m => orgIds.contains m.orgId
    invitations := t.invitations.delete fun i => orgIds.contains i.orgId
    creditBalances := t.creditBalances.delete fun b => gone b.orgId
    creditTransactions := t.creditTransactions.delete fun c => gone c.orgId }

/-- `Org.objects.filter(created_by_id=userId)`. -/
def createdBy (t : Tables) (userId : UUID) : List UUID :=
  (t.orgs.filter fun o => o.createdById == some userId).map Org.id

/-- The cascade of `delete_orgs_created_by_user`. -/
def deleteOrgBatch (t : Tables) (orgIds : List UUID) : Tables :=
  let t := t.cancelInvitationsOf orgIds
  (t.deleteUsers (t.deletableUserIdsOf orgIds)).deleteOrgs orgIds

end Tables

/-! ## Queries -/

namespace Db

/-- `_get_active_stripe_sub`. -/
def getActiveStripeSub (db : Db) (orgId : UUID) : Option Subscription :=
  latest? ((db.activeTeamSubs orgId).filter fun s => s.stripeId.isSome)

/-- The subscription that is cancelled when the org is deleted. -/
def activeStripeSubId (db : Db) (orgId : UUID) : Option String :=
  (db.getActiveStripeSub orgId).bind Subscription.stripeId

/-- What has to be cancelled when the orgs a user has created are deleted. -/
def pendingStripeSubIds (db : Db) (userId : UUID) : List String :=
  (db.createdBy userId).filterMap db.activeStripeSubId

/-- `DjangoSubscriptionRepository.get_active_for_user`. -/
def activeForUser (db : Db) (userId : UUID) : Option Subscription :=
  let active := db.subscriptions.filter fun s => s.status.isActive
  let byUser := latest? (active.filter fun s => s.userId == some userId)
  let byCustomer := latest? (active.filter fun s => db.customers.rows.any fun c =>
    s.stripeCustomerId == some c.id && c.userId == some userId)
  latest? (byUser.toList ++ byCustomer.toList)

end Db

/-! ## Endpoints -/

/-- `customer_repo.delete`, of the customer a user has. -/
def Tables.deleteCustomerOf (t : Tables) (userId : UUID) : Tables :=
  match t.customers.find? (·.userId == some userId) with
  | some customer => t.deleteCustomers fun c => c.id == customer.id
  | none => t

/-- `OrgMember.objects.filter(user_id=userId).delete()`. -/
def Tables.deleteMembershipsOf (t : Tables) (userId : UUID) : Tables :=
  { t with members := t.members.delete fun m => m.userId == userId }

/-- `delete_orgs_created_by_user`, as far as the database is concerned. -/
def Tables.deleteOrgsCreatedBy (t : Tables) (userId : UUID) : Tables :=
  match t.createdBy userId with
  | [] => t
  | orgIds => t.deleteOrgBatch orgIds

/-- The stages of an account deletion: the Stripe customer is gone, the orgs are, the
memberships, and last the user. -/
def Tables.erased (t : Tables) (userId : UUID) : ℕ → Tables
  | 0 => t
  | 1 => t.deleteCustomerOf userId
  | 2 => (t.deleteCustomerOf userId).deleteOrgsCreatedBy userId
  | 3 => ((t.deleteCustomerOf userId).deleteOrgsCreatedBy userId).deleteMembershipsOf userId
  | _ => (((t.deleteCustomerOf userId).deleteOrgsCreatedBy userId).deleteMembershipsOf
      userId).deleteUsers [userId]

namespace Session

/-- A transaction that stores what `f` makes of the tables. -/
def store (f : Tables → Tables) : Session σ Unit :=
  commit fun db => (fun db => ((), db)) <$> Db.commit (f db.toTables)

/-- `cancel_stripe_subs_task.delay`, when there is something to cancel. -/
def queueCancels (rt : Runtime σ) (origin : String) : List String → Session σ Unit
  | [] => return
  | stripeSubIds => enqueue rt (.cancelStripeSubs stripeSubIds origin)

/-- `delete_org`. -/
def deleteOrg (rt : Runtime σ) (orgId : UUID) : Session σ Unit := do
  let stripeSubId ← select fun db => db.activeStripeSubId orgId
  commit fun db => (fun db => ((), db)) <$> deleteOrgDbOnly db orgId
  queueCancels rt (uuidText orgId) stripeSubId.toList

/-- `OrgDetailView.delete`. -/
def deleteOrgView (rt : Runtime σ) (userId orgId : UUID) : Session σ Unit := do
  let (org, _) ← getOrgAndMember userId orgId [.owner]
  deleteOrg rt org.id

/-- `delete_orgs_created_by_user`. -/
def deleteOrgsCreatedByUser (rt : Runtime σ) (userId : UUID) : Session σ Unit := do
  match ← select fun db => db.createdBy userId with
  | [] => return
  | orgIds => do
      let pendingStripeSubIds ← select fun db => orgIds.filterMap db.activeStripeSubId
      store fun t => t.deleteOrgBatch orgIds
      queueCancels rt ("user:" ++ uuidText userId) pendingStripeSubIds

/-- `_stripe_request`. -/
def stripeRequest (rt : Runtime σ) (call : StripeCall) : Session σ Unit :=
  tryCatch (do let _ ← callStripe rt call) fun
    | .stripe (some "resource_missing") _ => return
    | e => throw e

/-- The paid subscription of a user is cancelled. -/
def cancelActive (rt : Runtime σ) (active : Option Subscription) : Session σ Unit :=
  match active.bind Subscription.stripeId with
  | some stripeId => stripeRequest rt (.subscriptionCancel stripeId)
  | none => return

/-- The customer is deleted, at Stripe and here. -/
def eraseCustomer (rt : Runtime σ) : Option StripeCustomer → Session σ Unit
  | some customer => do
      stripeRequest rt (.customerDelete customer.stripeId)
      store fun t => t.deleteCustomers fun c => c.id == customer.id
  | none => return

/-- `delete_account`, with the hook of `AccountView.delete`. -/
def deleteAccount (rt : Runtime σ) (userId : UUID) : Session σ Unit := do
  let some _ ← select fun db => db.userById userId
    | throw (.userNotFound ("User " ++ uuidText userId ++ " not found"))
  let customer ← select fun db => db.customerByUserId userId
  let active ← select fun db => db.activeForUser userId
  cancelActive rt active
  eraseCustomer rt customer
  deleteOrgsCreatedByUser rt userId
  store fun t => t.deleteMembershipsOf userId
  store fun t => t.deleteUsers [userId]

end Session

/-! ## What is deleted -/

/-- Rows have gone, and creators have been cleared; no org has come, nor a member, nor
an invitation to another role. -/
structure Shrinks (t t' : Tables) : Prop where
  orgs : ∀ o' ∈ t'.orgs.rows, ∃ o ∈ t.orgs.rows, o.id = o'.id ∧
    ∀ userId ∈ o'.createdById, o.createdById = some userId
  members : ∀ m ∈ t'.members.rows, m ∈ t.members.rows
  invitations : ∀ i' ∈ t'.invitations.rows, ∃ i ∈ t.invitations.rows, i.id = i'.id ∧
    i.role = i'.role

theorem Shrinks.refl (t : Tables) : Shrinks t t where
  orgs o ho := ⟨o, ho, rfl, fun _ h => h⟩
  members _ hm := hm
  invitations i hi := ⟨i, hi, rfl, rfl⟩

theorem Shrinks.trans {t t' t'' : Tables} (h : Shrinks t t') (h' : Shrinks t' t'') :
    Shrinks t t'' where
  orgs o'' ho'' := by
    obtain ⟨o', ho', hid', hcreator'⟩ := h'.orgs o'' ho''
    obtain ⟨o, ho, hid, hcreator⟩ := h.orgs o' ho'
    exact ⟨o, ho, hid.trans hid', fun u hu => hcreator u (hcreator' u hu)⟩
  members m hm := h.members m (h'.members m hm)
  invitations i'' hi'' := by
    obtain ⟨i', hi', hid', hrole'⟩ := h'.invitations i'' hi''
    obtain ⟨i, hi, hid, hrole⟩ := h.invitations i' hi'
    exact ⟨i, hi, hid.trans hid', hrole.trans hrole'⟩

namespace Tables

variable {t : Tables} {ids orgIds : List UUID} {userId : UUID}

theorem shrinks_deleteCustomers (gone : StripeCustomer → Bool) :
    Shrinks t (t.deleteCustomers gone) :=
  ⟨(Shrinks.refl t).orgs, (Shrinks.refl t).members, (Shrinks.refl t).invitations⟩

theorem mem_members_deleteUsers {m : OrgMember} :
    m ∈ (t.deleteUsers ids).members.rows ↔ m ∈ t.members.rows ∧ m.userId ∉ ids := by
  simp [deleteUsers, deleteCustomers]

theorem mem_users_deleteUsers {u : User} :
    u ∈ (t.deleteUsers ids).users.rows ↔ u ∈ t.users.rows ∧ u.id ∉ ids := by
  simp [deleteUsers, deleteCustomers]

/-- The customers that are deleted, by their keys. -/
theorem mem_goneCustomers {gone : StripeCustomer → Bool} {id : UUID} :
    ((t.customers.filter gone).map StripeCustomer.id).contains id = true ↔
      ∃ c ∈ t.customers.rows, gone c = true ∧ c.id = id := by
  simp [Table.filter, and_assoc]

theorem mem_customers_deleteCustomers {gone : StripeCustomer → Bool} {c : StripeCustomer} :
    c ∈ (t.deleteCustomers gone).customers.rows ↔ c ∈ t.customers.rows ∧ gone c = false := by
  simp [deleteCustomers]

theorem mem_subscriptions_deleteCustomers {gone : StripeCustomer → Bool} {s : Subscription} :
    s ∈ (t.deleteCustomers gone).subscriptions.rows ↔ s ∈ t.subscriptions.rows ∧
      ∀ c ∈ t.customers.rows, gone c = true → s.stripeCustomerId ≠ some c.id := by
  unfold deleteCustomers
  rw [Table.mem_delete, Option.any_eq_true]
  refine and_congr_right fun _ => ?_
  constructor
  · rintro h c hc hgone hcustomer
    exact h ⟨c.id, hcustomer, mem_goneCustomers.mpr ⟨c, hc, hgone, rfl⟩⟩
  · rintro h ⟨id, hid, hgone⟩
    obtain ⟨c, hc, hc', rfl⟩ := mem_goneCustomers.mp hgone
    exact h c hc hc' hid

/-- The user is one of those that are deleted. -/
def goneUser (ids : List UUID) (id : Option UUID) : Bool := id.any ids.contains

theorem goneUser_eq_true {id : Option UUID} : goneUser ids id = true ↔ ∃ k ∈ id, k ∈ ids := by
  cases id <;> simp [goneUser]

theorem goneUser_eq_false {id : Option UUID} : goneUser ids id = false ↔ ∀ k ∈ id, k ∉ ids := by
  cases id <;> simp [goneUser]

theorem mem_customers_deleteUsers {c : StripeCustomer} :
    c ∈ (t.deleteUsers ids).customers.rows ↔
      c ∈ t.customers.rows ∧ goneUser ids c.userId = false :=
  mem_customers_deleteCustomers

theorem mem_subscriptions_deleteUsers {s : Subscription} :
    s ∈ (t.deleteUsers ids).subscriptions.rows ↔
      (s ∈ t.subscriptions.rows ∧ ∀ c ∈ t.customers.rows, goneUser ids c.userId = true →
        s.stripeCustomerId ≠ some c.id) ∧ goneUser ids s.userId = false := by
  rw [← mem_subscriptions_deleteCustomers, ← Bool.not_eq_true]
  exact Table.mem_delete

/-- Deleting users leaves no reference behind. -/
theorem integral_deleteUsers (h : t.Integral) : (t.deleteUsers ids).Integral := by
  have husers : ∀ id : Option UUID, goneUser ids id = false → Refers id User.id t.users.rows →
      Refers id User.id (t.deleteUsers ids).users.rows := by
    intro id hid hrefers k hk
    obtain ⟨u, hu, rfl⟩ := hrefers k hk
    exact ⟨u, mem_users_deleteUsers.mpr ⟨hu, goneUser_eq_false.mp hid _ hk⟩, rfl⟩
  have hkept : ∀ id : Option UUID, Refers id User.id t.users.rows →
      Refers (if goneUser ids id then none else id) User.id (t.deleteUsers ids).users.rows := by
    intro id hrefers
    split
    · exact refers_none _ _
    next hid => exact husers id (Bool.eq_false_iff.mpr hid) hrefers
  have horgs : ∀ id : Option UUID, Refers id Org.id t.orgs.rows →
      Refers id Org.id (t.deleteUsers ids).orgs.rows := by
    intro id hrefers k hk
    obtain ⟨o, ho, rfl⟩ := hrefers k hk
    exact ⟨_, List.mem_map.mpr ⟨o, ho, rfl⟩, rfl⟩
  refine ⟨?_, ?_, ?_, h.planPrices, h.productPrices, h.localizedPrices, ?_, ?_, ?_, ?_⟩
  · intro o' ho'
    obtain ⟨o, ho, rfl⟩ := List.mem_map.mp ho'
    exact hkept o.createdById (h.orgs o ho)
  · intro m hm
    obtain ⟨hm, huser⟩ := mem_members_deleteUsers.mp hm
    have hrefs := h.members m hm
    exact ⟨horgs _ hrefs.1, husers _ (goneUser_eq_false.mpr (by simpa using huser)) hrefs.2⟩
  · intro i' hi'
    obtain ⟨i, hi, rfl⟩ := List.mem_map.mp hi'
    have hrefs := h.invitations i hi
    exact ⟨horgs _ hrefs.1, hkept i.invitedById hrefs.2⟩
  · intro c hc
    obtain ⟨hc, huser⟩ := mem_customers_deleteUsers.mp hc
    have hrefs := h.customers c hc
    exact ⟨husers _ huser hrefs.1, horgs _ hrefs.2⟩
  · intro s hs
    obtain ⟨⟨hs, hcustomer⟩, huser⟩ := mem_subscriptions_deleteUsers.mp hs
    have hrefs := h.subscriptions s hs
    refine ⟨fun k hk => ?_, husers _ huser hrefs.2.1, hrefs.2.2⟩
    obtain ⟨c, hc, rfl⟩ := hrefs.1 k hk
    refine ⟨c, mem_customers_deleteUsers.mpr ⟨hc, ?_⟩, rfl⟩
    rw [Bool.eq_false_iff]
    exact fun hgone => hcustomer c hc hgone hk
  · intro b hb
    obtain ⟨hb, huser⟩ := Table.mem_delete.mp hb
    have hrefs := h.creditBalances b hb
    exact ⟨husers _ (Bool.eq_false_iff.mpr huser) hrefs.1, horgs _ hrefs.2⟩
  · intro c hc
    obtain ⟨hc, huser⟩ := Table.mem_delete.mp hc
    have hrefs := h.creditTransactions c hc
    exact ⟨husers _ (Bool.eq_false_iff.mpr huser) hrefs.1, horgs _ hrefs.2⟩

theorem shrinks_deleteUsers : Shrinks t (t.deleteUsers ids) where
  orgs o' ho' := by
    obtain ⟨o, ho, rfl⟩ := List.mem_map.mp ho'
    refine ⟨o, ho, rfl, fun u hu => ?_⟩
    dsimp only at hu
    split at hu
    · cases hu
    · exact hu
  members _ hm := (mem_members_deleteUsers.mp hm).1
  invitations i' hi' := by
    obtain ⟨i, hi, rfl⟩ := List.mem_map.mp hi'
    exact ⟨i, hi, rfl, rfl⟩

theorem shrinks_cancelInvitationsOf : Shrinks t (t.cancelInvitationsOf orgIds) where
  orgs := (Shrinks.refl t).orgs
  members := (Shrinks.refl t).members
  invitations i' hi' := by
    obtain ⟨i, hi, rfl⟩ := List.mem_map.mp hi'
    refine ⟨i, hi, ?_⟩
    split <;> exact ⟨rfl, rfl⟩

theorem mem_orgs_deleteOrgs {o : Org} :
    o ∈ (t.deleteOrgs orgIds).orgs.rows ↔ o ∈ t.orgs.rows ∧ o.id ∉ orgIds := by
  simp [deleteOrgs, deleteCustomers]

theorem mem_members_deleteOrgs {m : OrgMember} :
    m ∈ (t.deleteOrgs orgIds).members.rows ↔ m ∈ t.members.rows ∧ m.orgId ∉ orgIds := by
  simp [deleteOrgs, deleteCustomers]

theorem shrinks_deleteOrgs : Shrinks t (t.deleteOrgs orgIds) where
  orgs o ho := ⟨o, (mem_orgs_deleteOrgs.mp ho).1, rfl, fun _ h => h⟩
  members _ hm := (mem_members_deleteOrgs.mp hm).1
  invitations i hi := ⟨i, (Table.mem_delete.mp hi).1, rfl, rfl⟩

theorem mem_deletableUserIdsOf : userId ∈ t.deletableUserIdsOf orgIds ↔
    (∃ m ∈ t.members.rows, m.orgId ∈ orgIds ∧ m.userId = userId) ∧
      (∀ m ∈ t.members.rows, m.userId = userId → m.orgId ∈ orgIds) ∧
      t.hasPersonalSub userId = false := by
  simp only [deletableUserIdsOf, Table.filter, List.mem_filter, List.mem_map, Bool.and_eq_true,
    Bool.not_eq_true', List.any_eq_false, beq_iff_eq, List.contains_iff_mem, and_assoc, not_and]
  simp

theorem deletableUserIdsOf_cancelInvitationsOf :
    (t.cancelInvitationsOf orgIds).deletableUserIdsOf orgIds = t.deletableUserIdsOf orgIds := rfl

theorem shrinks_deleteOrgBatch : Shrinks t (t.deleteOrgBatch orgIds) :=
  (shrinks_cancelInvitationsOf.trans shrinks_deleteUsers).trans shrinks_deleteOrgs

/-- An org goes with everything that refers to it. -/
theorem integral_deleteOrgs (h : t.Integral) : (t.deleteOrgs orgIds).Integral := by
  have horgs : ∀ id : Option UUID, goneUser orgIds id = false → Refers id Org.id t.orgs.rows →
      Refers id Org.id (t.deleteOrgs orgIds).orgs.rows := by
    intro id hid hrefers k hk
    obtain ⟨o, ho, rfl⟩ := hrefers k hk
    exact ⟨o, mem_orgs_deleteOrgs.mpr ⟨ho, goneUser_eq_false.mp hid _ hk⟩, rfl⟩
  refine ⟨fun o ho => h.orgs o (mem_orgs_deleteOrgs.mp ho).1, ?_, ?_, h.planPrices, h.productPrices,
    h.localizedPrices, ?_, ?_, ?_, ?_⟩
  · intro m hm
    obtain ⟨hm, horg⟩ := mem_members_deleteOrgs.mp hm
    have hrefs := h.members m hm
    exact ⟨horgs _ (goneUser_eq_false.mpr (by simpa using horg)) hrefs.1, hrefs.2⟩
  · intro i hi
    obtain ⟨hi, horg⟩ := Table.mem_delete.mp hi
    have hrefs := h.invitations i hi
    exact ⟨horgs _ (goneUser_eq_false.mpr (by simpa using horg)) hrefs.1, hrefs.2⟩
  · intro c hc
    obtain ⟨hc, horg⟩ := mem_customers_deleteCustomers.mp hc
    have hrefs := h.customers c hc
    exact ⟨hrefs.1, horgs _ horg hrefs.2⟩
  · intro s hs
    obtain ⟨hs, hcustomer⟩ := mem_subscriptions_deleteCustomers.mp hs
    have hrefs := h.subscriptions s hs
    refine ⟨fun k hk => ?_, hrefs.2⟩
    obtain ⟨c, hc, rfl⟩ := hrefs.1 k hk
    refine ⟨c, mem_customers_deleteCustomers.mpr ⟨hc, Bool.eq_false_iff.mpr fun hgone => ?_⟩, rfl⟩
    exact hcustomer c hc hgone hk
  · intro b hb
    obtain ⟨hb, horg⟩ := Table.mem_delete.mp hb
    have hrefs := h.creditBalances b hb
    exact ⟨hrefs.1, horgs _ (Bool.eq_false_iff.mpr horg) hrefs.2⟩
  · intro c hc
    obtain ⟨hc, horg⟩ := Table.mem_delete.mp hc
    have hrefs := h.creditTransactions c hc
    exact ⟨hrefs.1, horgs _ (Bool.eq_false_iff.mpr horg) hrefs.2⟩

/-- An invitation that is cancelled refers to what it referred to. -/
theorem integral_cancelInvitationsOf (h : t.Integral) : (t.cancelInvitationsOf orgIds).Integral := by
  refine ⟨h.orgs, h.members, ?_, h.planPrices, h.productPrices, h.localizedPrices, h.customers,
    h.subscriptions, h.creditBalances, h.creditTransactions⟩
  intro i' hi'
  obtain ⟨i, hi, rfl⟩ := List.mem_map.mp hi'
  have hrefs := h.invitations i hi
  split
  · exact hrefs
  · exact hrefs

theorem integral_deleteOrgBatch (h : t.Integral) : (t.deleteOrgBatch orgIds).Integral :=
  integral_deleteOrgs (integral_deleteUsers (integral_cancelInvitationsOf h))

/-- Of the members, those of the deleted orgs go and no others: a user who is deleted
has no membership elsewhere. -/
theorem mem_members_deleteOrgBatch {m : OrgMember} :
    m ∈ (t.deleteOrgBatch orgIds).members.rows ↔ m ∈ t.members.rows ∧ m.orgId ∉ orgIds := by
  unfold deleteOrgBatch
  rw [mem_members_deleteOrgs, mem_members_deleteUsers]
  constructor
  · intro h
    exact ⟨h.1.1, h.2⟩
  · intro h
    refine ⟨⟨h.1, fun hgone => h.2 ?_⟩, h.2⟩
    rw [deletableUserIdsOf_cancelInvitationsOf] at hgone
    exact (mem_deletableUserIdsOf.mp hgone).2.1 m h.1 rfl

theorem contains_singleton (orgId id : UUID) : [orgId].contains id = (id == orgId) := by
  rw [Bool.eq_iff_iff]
  simp

/-- Deleting one org is deleting a batch of one. -/
theorem deleteOrg_eq_deleteOrgs (t : Tables) (orgId : UUID) :
    t.deleteOrg orgId = t.deleteOrgs [orgId] := by
  have hid : ∀ id : UUID, [orgId].contains id = (id == orgId) := contains_singleton orgId
  have hgone : ∀ id : Option UUID, id.any [orgId].contains = (id == some orgId) := by
    intro id
    cases id with
    | none => rfl
    | some id => exact hid id
  unfold deleteOrg deleteOrgs
  simp only [hid, hgone]

theorem cancelInvitations_eq (t : Tables) (orgId : UUID) :
    t.cancelInvitations orgId = t.cancelInvitationsOf [orgId] := by
  have hrows : (t.cancelInvitations orgId).invitations =
      (t.cancelInvitationsOf [orgId]).invitations := by
    ext1
    exact List.map_congr_left fun i _ => by simp [Invitation.withStatus]
  exact congrArg (fun invitations => { t with invitations := invitations }) hrows

theorem deletableUserIds_eq (t : Tables) (orgId : UUID) :
    t.deletableUserIds orgId = t.deletableUserIdsOf [orgId] := by
  have hid : ∀ id : UUID, [orgId].contains id = (id == orgId) := contains_singleton orgId
  unfold deletableUserIds deletableUserIdsOf
  simp only [hid]
  rfl

theorem mem_members_deleteMembershipsOf {m : OrgMember} :
    m ∈ (t.deleteMembershipsOf userId).members.rows ↔
      m ∈ t.members.rows ∧ m.userId ≠ userId := by
  simp [deleteMembershipsOf]

theorem shrinks_deleteMembershipsOf : Shrinks t (t.deleteMembershipsOf userId) where
  orgs := (Shrinks.refl t).orgs
  members _ hm := (mem_members_deleteMembershipsOf.mp hm).1
  invitations := (Shrinks.refl t).invitations

theorem deleteCustomerOf_cases (t : Tables) (userId : UUID) : t.deleteCustomerOf userId = t ∨
    ∃ customer ∈ t.customers.rows, customer.userId = some userId ∧
      t.deleteCustomerOf userId = t.deleteCustomers fun c => c.id == customer.id := by
  unfold deleteCustomerOf
  split
  next customer hfound =>
      obtain ⟨hmem, huser⟩ := Table.mem_of_find? hfound
      exact Or.inr ⟨customer, hmem, beq_iff_eq.mp huser, rfl⟩
  next => exact Or.inl rfl

theorem mem_createdBy {orgId : UUID} :
    orgId ∈ t.createdBy userId ↔ ∃ o ∈ t.orgs.rows, o.createdById = some userId ∧ o.id = orgId := by
  simp [createdBy, Table.filter, and_assoc]

theorem deleteOrgsCreatedBy_cases (t : Tables) (userId : UUID) :
    (t.createdBy userId = [] ∧ t.deleteOrgsCreatedBy userId = t) ∨
      t.deleteOrgsCreatedBy userId = t.deleteOrgBatch (t.createdBy userId) := by
  unfold deleteOrgsCreatedBy
  split
  next hnone => exact Or.inl ⟨hnone, rfl⟩
  next => exact Or.inr rfl

theorem shrinks_deleteCustomerOf : Shrinks t (t.deleteCustomerOf userId) := by
  rcases t.deleteCustomerOf_cases userId with hsame | ⟨customer, _, _, hdeleted⟩
  · rw [hsame]
    exact Shrinks.refl t
  · rw [hdeleted]
    exact shrinks_deleteCustomers _

theorem shrinks_deleteOrgsCreatedBy : Shrinks t (t.deleteOrgsCreatedBy userId) := by
  rcases t.deleteOrgsCreatedBy_cases userId with ⟨_, hsame⟩ | hdeleted
  · rw [hsame]
    exact Shrinks.refl t
  · rw [hdeleted]
    exact shrinks_deleteOrgBatch

/-- The members of the orgs that the user has created go, and no others. -/
theorem mem_members_deleteOrgsCreatedBy {m : OrgMember} :
    m ∈ (t.deleteOrgsCreatedBy userId).members.rows ↔
      m ∈ t.members.rows ∧ m.orgId ∉ t.createdBy userId := by
  rcases t.deleteOrgsCreatedBy_cases userId with ⟨hnone, hsame⟩ | hdeleted
  · simp [hsame, hnone]
  · rw [hdeleted]
    exact mem_members_deleteOrgBatch

end Tables

theorem deleteOrgDbOnly_eq (db : Db) (orgId : UUID) :
    deleteOrgDbOnly db orgId = Db.commit (db.toTables.deleteOrgBatch [orgId]) := by
  unfold deleteOrgDbOnly Tables.deleteOrgBatch
  simp only [Tables.cancelInvitations_eq, Tables.deletableUserIds_eq,
    Tables.deleteOrg_eq_deleteOrgs]

/-! ## What a complete deletion does -/

/-- Stripe has done what was asked, or has nothing left to do it to. -/
def Settled (rt : Runtime σ) (call : StripeCall) (w : World σ) : Prop :=
  (∃ answer, (rt.stripe.call call w.stripe).1 = .ok answer) ∨
    ∃ message, (rt.stripe.call call w.stripe).1 = .error (.stripe (some "resource_missing") message)

/-- The task that cancels the subscriptions, when there are any. -/
def cancelTasks (origin : String) : List String → List Task
  | [] => []
  | stripeSubIds => [.cancelStripeSubs stripeSubIds origin]

namespace Session

variable {w : World σ}

theorem ends_store {f : Tables → Tables} {post : Py Unit → World σ → Prop}
    (herror : ∀ e, post (.error e) w)
    (hok : ∀ db, db.toTables = f w.db.toTables → post (.ok ()) { w with db := db }) :
    (store f : Session σ Unit).Ends post w := by
  unfold store
  refine ends_commitOn herror fun _ db hwrite => ?_
  obtain ⟨_, hdb, hpair⟩ := map_eq_ok.mp hwrite
  cases hpair
  exact hok _ (Db.commit_eq_ok.mp hdb)

/-- A transaction that leaves no reference behind does not fail. -/
theorem ends_store_of_integral {f : Tables → Tables} {post : Py Unit → World σ → Prop}
    (hintegral : (f w.db.toTables).Integral)
    (hok : ∀ db, db.toTables = f w.db.toTables → post (.ok ()) { w with db := db }) :
    (store f : Session σ Unit).Ends post w := by
  obtain ⟨db, hcommit⟩ := Db.commit_isOk hintegral
  unfold store Fallible.Ends
  rw [exec_commitOn, hcommit]
  exact hok db (Db.commit_eq_ok.mp hcommit)

theorem silent_store (f : Tables → Tables) : (store f : Session σ Unit).Silent := by
  unfold store
  exact silent_commitOn _ _

theorem silent_queueCancels (rt : Runtime σ) (origin : String) (stripeSubIds : List String) :
    (queueCancels rt origin stripeSubIds).Silent := by
  unfold queueCancels
  split
  · exact silent_pure _
  · exact silent_enqueue _ _

/-- What there is to cancel is queued, unless the broker is down. -/
theorem ends_queueCancels {rt : Runtime σ} {origin : String} {stripeSubIds : List String}
    {post : Py Unit → World σ → Prop}
    (hok : post (.ok ()) { w with queue := w.queue ++ cancelTasks origin stripeSubIds })
    (herror : rt.brokerUp = false → ∀ e, post (.error e) w) :
    (queueCancels rt origin stripeSubIds).Ends post w := by
  cases stripeSubIds with
  | nil =>
      rw [cancelTasks, List.append_nil] at hok
      exact hok
  | cons stripeSubId rest =>
      unfold queueCancels Fallible.Ends
      rw [exec_enqueue]
      split
      next => exact hok
      next hdown => exact herror (Bool.eq_false_iff.mpr hdown) _

theorem calls_stripeRequest {rt : Runtime σ} {call : StripeCall}
    {post : List (StripeCall × World σ) → Py Unit → World σ → Prop}
    (hok : Settled rt call w → post [(call, w)] (.ok ())
      { w with stripe := (rt.stripe.call call w.stripe).2 })
    (herror : ∀ e, post [(call, w)] (.error e)
      { w with stripe := (rt.stripe.call call w.stripe).2 }) :
    (stripeRequest rt call).Calls post w := by
  unfold stripeRequest
  rw [calls_tryCatch, calls_bind, calls_callStripe]
  cases hanswer : (rt.stripe.call call w.stripe).1 with
  | ok answer => exact hok (Or.inl ⟨answer, hanswer⟩)
  | error e =>
      unfold FollowCalls
      dsimp only
      split
      next message => exact hok (Or.inr ⟨message, hanswer⟩)
      next => exact herror _

end Session

/-- The org is gone with what depends on it, and what the deletion has to cancel is
queued. -/
structure OrgDeleted (rt : Runtime σ) (orgId : UUID) (w : World σ) (result : Py Unit)
    (w' : World σ) : Prop where
  deleted : w'.db.toTables = w.db.toTables.deleteOrgBatch [orgId]
  stripe : w'.stripe = w.stripe
  queued : (result = .ok () ∧ w'.queue = w.queue ++
      cancelTasks (uuidText orgId) (w.db.activeStripeSubId orgId).toList) ∨
    (rt.brokerUp = false ∧ (∃ e, result = .error e) ∧ w'.queue = w.queue)

/-- The caller owns the org. -/
def OwnsOrg (db : Db) (userId orgId : UUID) : Prop :=
  ∃ m ∈ db.members.rows, m.orgId = orgId ∧ m.userId = userId ∧ m.role = .owner

namespace Session

variable {w : World σ}

theorem silent_getOrgAndMember (userId orgId : UUID) (allowedRoles : List OrgRole) :
    (getOrgAndMember userId orgId allowedRoles : Session σ _).Silent := by
  unfold getOrgAndMember
  refine silent_bind (silent_select _) fun found => ?_
  split
  · split
    · exact silent_pure _
    · exact silent_throw _
  · refine silent_bind (silent_select _) fun found => ?_
    split
    · exact silent_throw _
    · exact silent_throw _

theorem silent_deleteOrgView (rt : Runtime σ) (userId orgId : UUID) :
    (deleteOrgView rt userId orgId).Silent := by
  unfold deleteOrgView deleteOrg
  refine silent_bind (silent_getOrgAndMember _ _ _) fun found => ?_
  refine silent_bind (silent_select _) fun stripeSubId => ?_
  exact silent_bind (silent_commitOn _ _) fun _ => silent_queueCancels _ _ _

/-- A complete request changes nothing, or the owner's org is deleted. -/
theorem ends_deleteOrgView (rt : Runtime σ) (userId orgId : UUID) :
    (deleteOrgView rt userId orgId).Ends (fun result w' =>
      ((∃ e, result = .error e) ∧ w' = w) ∨
        OwnsOrg w.db userId orgId ∧ OrgDeleted rt orgId w result w') w := by
  unfold deleteOrgView deleteOrg
  rw [Fallible.ends_bind]
  refine ends_getOrgAndMember (fun e => Or.inl ⟨⟨e, rfl⟩, rfl⟩)
    fun org caller hcaller horg huser _ hid hallowed => ?_
  rw [Fallible.follow_ok]
  dsimp only
  simp only [Fallible.ends_bind, ends_select, Fallible.follow_ok]
  rw [hid]
  have howns : OwnsOrg w.db userId orgId :=
    ⟨caller, hcaller, horg, huser, List.mem_singleton.mp hallowed⟩
  refine ends_commitOn (fun e => Or.inl ⟨⟨e, rfl⟩, rfl⟩) fun _ db' hwrite => ?_
  obtain ⟨_, hdb, hpair⟩ := map_eq_ok.mp hwrite
  cases hpair
  rw [deleteOrgDbOnly_eq] at hdb
  have hdeleted := Db.commit_eq_ok.mp hdb
  rw [Fallible.follow_ok]
  refine ends_queueCancels (Or.inr ⟨howns, ?_⟩) fun hdown e => Or.inr ⟨howns, ?_⟩
  · exact ⟨hdeleted, rfl, Or.inl ⟨rfl, rfl⟩⟩
  · exact ⟨hdeleted, rfl, Or.inr ⟨hdown, ⟨e, rfl⟩, rfl⟩⟩

theorem mem_activeForUser {db : Db} {userId : UUID} {s : Subscription}
    (h : db.activeForUser userId = some s) : s ∈ db.subscriptions.rows ∧
      s.status.isActive = true ∧ (s.userId = some userId ∨ ∃ c ∈ db.customers.rows,
        s.stripeCustomerId = some c.id ∧ c.userId = some userId) := by
  unfold Db.activeForUser at h
  have hmem := Db.mem_of_latest? h
  rw [List.mem_append, Option.mem_toList, Option.mem_toList] at hmem
  rcases hmem with hfound | hfound
  · have hrow := Db.mem_of_latest? hfound
    simp only [Table.filter, List.mem_filter, beq_iff_eq] at hrow
    exact ⟨hrow.1.1, hrow.1.2, Or.inl hrow.2⟩
  · have hrow := Db.mem_of_latest? hfound
    simp only [Table.filter, List.mem_filter, List.any_eq_true, Bool.and_eq_true,
      beq_iff_eq] at hrow
    obtain ⟨hactive, c, hc, hcustomer, huser⟩ := hrow
    exact ⟨hactive.1, hactive.2, Or.inr ⟨c, hc, hcustomer, huser⟩⟩

end Session

/-- The tasks that the deletion of an account queues. -/
def accountTasks (userId : UUID) (db : Db) : List Task :=
  cancelTasks ("user:" ++ uuidText userId) (db.pendingStripeSubIds userId)

/-- How far the deletion of an account has come.  Whatever has been deleted, the calls
to Stripe that had to come first have been settled. -/
structure AccountErased (rt : Runtime σ) (userId : UUID) (w : World σ)
    (calls : List (StripeCall × World σ)) (result : Py Unit) (w' : World σ) : Prop where
  stage : ∃ n ≠ 3, w'.db.toTables = w.db.toTables.erased userId n ∧
    ((w'.queue = w.queue ++ accountTasks userId w.db ∧ (result = .ok () → n = 4)) ∨
      (w'.queue = w.queue ∧ (∃ e, result = .error e) ∧ (n ≤ 1 ∨ rt.brokerUp = false)))
  cancelled : ∀ s ∈ w.db.activeForUser userId, ∀ stripeId ∈ s.stripeId,
    ∃ t, (.subscriptionCancel stripeId, t) ∈ calls ∧ Settled rt (.subscriptionCancel stripeId) t
  erased : ∀ c ∈ w.db.customerByUserId userId,
    ∃ t, (.customerDelete c.stripeId, t) ∈ calls ∧ Settled rt (.customerDelete c.stripeId) t

/-- A deletion calls Stripe about the user's own subscription and customer only. -/
def OwnCalls (userId : UUID) (db : Db) (calls : List (StripeCall × World σ)) : Prop :=
  ∀ called ∈ calls,
    (∃ s ∈ db.activeForUser userId, ∃ stripeId ∈ s.stripeId,
      called.1 = .subscriptionCancel stripeId) ∨
    ∃ c ∈ db.customerByUserId userId, called.1 = .customerDelete c.stripeId

/-! ### The customer of a user is nothing to an org -/

theorem activeTeamSubs_deleteCustomers {db db' : Db} {customer : StripeCustomer}
    (hcustomer : customer ∈ db.customers.rows) {userId : UUID}
    (huser : customer.userId = some userId)
    (h : db'.toTables = db.toTables.deleteCustomers fun c => c.id == customer.id) (orgId : UUID) :
    db'.activeTeamSubs orgId = db.activeTeamSubs orgId := by
  have horg : customer.orgId = none := by
    have hone : oneOwner customer.userId customer.orgId := db.customers.check_of_mem hcustomer
    unfold oneOwner at hone
    rw [huser] at hone
    cases horg : customer.orgId with
    | none => rfl
    | some orgId => simp [horg] at hone
  have hsame : ∀ c ∈ db.customers.rows, c.id = customer.id → c = customer :=
    fun c hc hid => db.customers.eq_of_clash hc hcustomer (Or.inl hid)
  have hsubs : db'.subscriptions.rows =
      (db.toTables.deleteCustomers fun c => c.id == customer.id).subscriptions.rows := by rw [h]
  have hcustomers : db'.customers.rows =
      (db.toTables.deleteCustomers fun c => c.id == customer.id).customers.rows := by rw [h]
  have hids : ∀ id, (((db.customers.filter fun c => c.id == customer.id).map
      StripeCustomer.id).contains id) = true ↔ id = customer.id := by
    intro id
    simp only [List.contains_iff_mem, List.mem_map, Table.filter, List.mem_filter, beq_iff_eq]
    constructor
    · rintro ⟨c, ⟨_, hid⟩, rfl⟩
      exact hid
    · intro hid
      exact ⟨customer, ⟨hcustomer, rfl⟩, hid.symm⟩
  unfold Db.activeTeamSubs Table.filter
  rw [hsubs, hcustomers]
  show ((db.subscriptions.rows.filter _).filter _) = _
  rw [List.filter_filter]
  refine List.filter_congr fun s _ => ?_
  rw [Bool.eq_iff_iff]
  simp only [Bool.and_eq_true, Bool.not_eq_true', List.any_eq_true, beq_iff_eq]
  constructor
  · rintro ⟨⟨hactive, c, hc, hlinked⟩, _⟩
    exact ⟨hactive, c, (Table.mem_delete.mp hc).1, hlinked⟩
  · rintro ⟨hactive, c, hc, hlinked, hteam⟩
    have hne : c.id ≠ customer.id := by
      intro hid
      rw [hsame c hc hid, horg] at hteam
      cases hteam
    refine ⟨⟨hactive, c, Table.mem_delete.mpr ⟨hc, by simpa using hne⟩, hlinked, hteam⟩, ?_⟩
    rw [hlinked, Option.any_some, Bool.eq_false_iff]
    exact fun hgone => hne ((hids c.id).mp hgone)

theorem pendingStripeSubIds_deleteCustomerOf {db db' : Db} {userId : UUID}
    (h : db'.toTables = db.toTables.deleteCustomerOf userId) :
    db'.pendingStripeSubIds userId = db.pendingStripeSubIds userId := by
  rcases db.toTables.deleteCustomerOf_cases userId with hsame | ⟨customer, hmem, huser, hdeleted⟩
  · rw [Db.ext_tables (h.trans hsame)]
  · rw [hdeleted] at h
    have hcreated : db'.createdBy userId = db.createdBy userId := by
      have horgs : db'.orgs = db.orgs := by
        rw [h]
        rfl
      unfold Tables.createdBy
      rw [horgs]
    have hsubs : db'.activeStripeSubId = db.activeStripeSubId := by
      funext orgId
      unfold Db.activeStripeSubId Db.getActiveStripeSub
      rw [activeTeamSubs_deleteCustomers hmem huser h]
    unfold Db.pendingStripeSubIds
    rw [hcreated, hsubs]

/-! ### The run -/

namespace Session

variable {w : World σ} {rt : Runtime σ}

theorem calls_select_bind {α β : Type} {f : Db → α} {rest : α → Session σ β}
    {post : List (StripeCall × World σ) → Py β → World σ → Prop} :
    (select f >>= rest).Calls post w ↔ (rest (f w.db)).Calls post w := Iff.rfl

theorem calls_cancelActive {active : Option Subscription}
    {post : List (StripeCall × World σ) → Py Unit → World σ → Prop}
    (hok : ∀ calls account, (∀ called ∈ calls, ∃ s ∈ active, ∃ stripeId ∈ s.stripeId,
        called.1 = .subscriptionCancel stripeId) →
      (∀ s ∈ active, ∀ stripeId ∈ s.stripeId, ∃ t, (.subscriptionCancel stripeId, t) ∈ calls ∧
        Settled rt (.subscriptionCancel stripeId) t) →
      post calls (.ok ()) { w with stripe := account })
    (herror : ∀ calls account e, (∀ called ∈ calls, ∃ s ∈ active, ∃ stripeId ∈ s.stripeId,
        called.1 = .subscriptionCancel stripeId) →
      post calls (.error e) { w with stripe := account }) :
    (cancelActive rt active).Calls post w := by
  unfold cancelActive
  cases hid : active.bind Subscription.stripeId with
  | none =>
      refine calls_pure.mpr (hok [] w.stripe (List.forall_mem_nil _) fun s hs stripeId hstripeId => ?_)
      rw [Option.mem_def.mp hs, Option.bind_some, Option.mem_def.mp hstripeId] at hid
      cases hid
  | some stripeId =>
      obtain ⟨s, hs, hstripe⟩ := Option.bind_eq_some_iff.mp hid
      have hown : ∀ called ∈ [((.subscriptionCancel stripeId : StripeCall), w)],
          ∃ s ∈ active, ∃ stripeId ∈ s.stripeId, called.1 = .subscriptionCancel stripeId := by
        intro called hcalled
        rw [List.mem_singleton.mp hcalled]
        exact ⟨s, hs, stripeId, hstripe, rfl⟩
      refine calls_stripeRequest (fun hsettled => hok _ _ hown ?_) fun e => herror _ _ e hown
      intro s' hs' stripeId' hstripe'
      have hsame : stripeId' = stripeId := by
        rw [Option.mem_def.mp hs', Option.bind_some, Option.mem_def.mp hstripe'] at hid
        exact Option.some.inj hid
      rw [hsame]
      exact ⟨w, List.mem_singleton_self _, hsettled⟩

theorem calls_eraseCustomer {customer : Option StripeCustomer}
    {post : List (StripeCall × World σ) → Py Unit → World σ → Prop}
    (hok : ∀ calls account db, (∀ called ∈ calls, ∃ c ∈ customer,
        called.1 = .customerDelete c.stripeId) →
      (∀ c ∈ customer, ∃ t, (.customerDelete c.stripeId, t) ∈ calls ∧
        Settled rt (.customerDelete c.stripeId) t) →
      db.toTables = (customer.elim w.db.toTables fun customer =>
        w.db.toTables.deleteCustomers fun c => c.id == customer.id) →
      post calls (.ok ()) { w with stripe := account, db := db })
    (herror : ∀ calls account e, (∀ called ∈ calls, ∃ c ∈ customer,
        called.1 = .customerDelete c.stripeId) →
      post calls (.error e) { w with stripe := account }) :
    (eraseCustomer rt customer).Calls post w := by
  cases customer with
  | none => exact calls_pure.mpr (hok [] w.stripe w.db (List.forall_mem_nil _) nofun rfl)
  | some customer =>
      have hown : ∀ called ∈ [((.customerDelete customer.stripeId : StripeCall), w)],
          ∃ c ∈ some customer, called.1 = .customerDelete c.stripeId := by
        intro called hcalled
        rw [List.mem_singleton.mp hcalled]
        exact ⟨customer, rfl, rfl⟩
      unfold eraseCustomer
      rw [calls_bind]
      refine calls_stripeRequest (fun hsettled => ?_) fun e => herror _ _ e hown
      unfold FollowCalls
      dsimp only
      refine (silent_store _).calls (ends_store (fun e => herror _ _ e ?_) fun db hdb => ?_)
      · exact hown
      · refine hok _ _ db hown ?_ hdb
        intro c hc
        cases hc
        exact ⟨w, List.mem_singleton_self _, hsettled⟩

theorem silent_deleteOrgsCreatedByUser (userId : UUID) :
    (deleteOrgsCreatedByUser rt userId).Silent := by
  unfold deleteOrgsCreatedByUser
  refine silent_bind (silent_select _) fun orgIds => ?_
  split
  · exact silent_pure _
  · refine silent_bind (silent_select _) fun pending => ?_
    exact silent_bind (silent_store _) fun _ => silent_queueCancels _ _ _

/-- The orgs are deleted and their subscriptions queued, unless the broker is down. -/
theorem ends_deleteOrgsCreatedByUser {userId : UUID} {post : Py Unit → World σ → Prop}
    (hok : ∀ db, db.toTables = w.db.toTables.deleteOrgsCreatedBy userId →
      post (.ok ()) { w with db := db, queue := w.queue ++ accountTasks userId w.db })
    (hdown : rt.brokerUp = false → ∀ e db,
      db.toTables = w.db.toTables.deleteOrgsCreatedBy userId →
      post (.error e) { w with db := db }) : (deleteOrgsCreatedByUser rt userId).Ends post w := by
  unfold deleteOrgsCreatedByUser
  simp only [Fallible.ends_bind, ends_select, Fallible.follow_ok]
  split
  next hnone =>
      have htasks : accountTasks userId w.db = [] := by
        simp [accountTasks, Db.pendingStripeSubIds, hnone, cancelTasks]
      have hsame : w.db.toTables = w.db.toTables.deleteOrgsCreatedBy userId := by
        rw [Tables.deleteOrgsCreatedBy, hnone]
      have hend := hok w.db hsame
      rw [htasks, List.append_nil] at hend
      exact hend
  next orgIds hne =>
      simp only [Fallible.ends_bind, ends_select, Fallible.follow_ok]
      have hdeleted : w.db.toTables.deleteOrgsCreatedBy userId =
          w.db.toTables.deleteOrgBatch (w.db.createdBy userId) := by
        rcases w.db.toTables.deleteOrgsCreatedBy_cases userId with ⟨hnone, _⟩ | hdeleted
        · exact absurd hnone (by simpa using hne)
        · exact hdeleted
      refine ends_store_of_integral (Tables.integral_deleteOrgBatch w.db.integral) fun db hdb => ?_
      rw [← hdeleted] at hdb
      rw [Fallible.follow_ok]
      exact ends_queueCancels (hok db hdb) fun hbroker e => hdown hbroker e db hdb

/-- **What a deletion of an account does.**  It is refused, or it comes as far as one of
its stages. -/
theorem calls_deleteAccount (rt : Runtime σ) (userId : UUID) :
    (deleteAccount rt userId).Calls (fun calls result w' => OwnCalls userId w.db calls ∧
      (((∃ e, result = .error e) ∧ w'.db = w.db ∧ w'.queue = w.queue) ∨
        AccountErased rt userId w calls result w')) w := by
  unfold deleteAccount
  rw [calls_select_bind]
  cases w.db.userById userId with
  | none => exact calls_throw.mpr ⟨List.forall_mem_nil _, Or.inl ⟨⟨_, rfl⟩, rfl, rfl⟩⟩
  | some user =>
  dsimp only
  rw [calls_select_bind, calls_select_bind, calls_bind]
  refine calls_cancelActive (fun calls account hown hcancelled => ?_)
    fun calls account e hown => ⟨?_, Or.inl ⟨⟨e, rfl⟩, rfl, rfl⟩⟩
  swap
  · intro called hcalled
    exact Or.inl (hown called hcalled)
  unfold FollowCalls
  dsimp only
  rw [calls_bind]
  have hown₁ : OwnCalls userId w.db calls := fun called hcalled => Or.inl (hown called hcalled)
  refine calls_eraseCustomer (fun more account' db₁ hmore herased hdb₁ => ?_)
    fun more account' e hmore => ⟨?_, Or.inl ⟨⟨e, rfl⟩, rfl, rfl⟩⟩
  swap
  · intro called hcalled
    rcases List.mem_append.mp hcalled with hfirst | hsecond
    · exact hown₁ called hfirst
    · exact Or.inr (hmore called hsecond)
  have hown₂ : OwnCalls userId w.db (calls ++ more) := by
    intro called hcalled
    rcases List.mem_append.mp hcalled with hfirst | hsecond
    · exact hown₁ called hfirst
    · exact Or.inr (hmore called hsecond)
  have hstage₁ : db₁.toTables = w.db.toTables.deleteCustomerOf userId := by
    rw [hdb₁]
    unfold Tables.deleteCustomerOf Db.customerByUserId
    cases w.db.customers.find? fun c => c.userId == some userId <;> rfl
  have htasks : accountTasks userId db₁ = accountTasks userId w.db := by
    unfold accountTasks
    rw [pendingStripeSubIds_deleteCustomerOf hstage₁]
  -- from here on nothing is called any more: what has been called is settled
  have hsettled : ∀ result w', (∃ n ≠ 3, w'.db.toTables = w.db.toTables.erased userId n ∧
      ((w'.queue = w.queue ++ accountTasks userId w.db ∧ (result = .ok () → n = 4)) ∨
        (w'.queue = w.queue ∧ (∃ e, result = .error e) ∧ (n ≤ 1 ∨ rt.brokerUp = false)))) →
      AccountErased rt userId w (calls ++ more) result w' := by
    intro result w' hstage
    refine ⟨hstage, fun s hs stripeId hstripe => ?_, fun c hc => ?_⟩
    · obtain ⟨t, ht, hdone⟩ := hcancelled s hs stripeId hstripe
      exact ⟨t, List.mem_append_left _ ht, hdone⟩
    · obtain ⟨t, ht, hdone⟩ := herased c hc
      exact ⟨t, List.mem_append_right _ ht, hdone⟩
  unfold FollowCalls
  dsimp only
  refine Silent.calls (silent_bind (silent_deleteOrgsCreatedByUser userId) fun _ =>
    silent_bind (silent_store _) fun _ => silent_store _) ?_
  rw [List.append_nil]
  rw [Fallible.ends_bind]
  refine ends_deleteOrgsCreatedByUser (fun db₂ hdb₂ => ?_) fun hbroker e db₂ hdb₂ => ?_
  · have hstage₂ : db₂.toTables = w.db.toTables.erased userId 2 := by
      rw [hdb₂]
      show db₁.toTables.deleteOrgsCreatedBy userId = _
      rw [hstage₁]
      rfl
    have hqueue : w.queue ++ accountTasks userId db₁ = w.queue ++ accountTasks userId w.db := by
      rw [htasks]
    rw [Fallible.follow_ok, Fallible.ends_bind]
    refine ends_store (fun e => ⟨hown₂, Or.inr (hsettled _ _ ⟨2, by decide, hstage₂, Or.inl ⟨hqueue, nofun⟩⟩)⟩)
      fun db₃ hdb₃ => ?_
    have hstage₃ : db₃.toTables = w.db.toTables.erased userId 3 := by
      rw [hdb₃]
      show db₂.toTables.deleteMembershipsOf userId = _
      rw [hstage₂]
      rfl
    rw [Fallible.follow_ok]
    refine ends_store_of_integral (Tables.integral_deleteUsers db₃.integral) fun db₄ hdb₄ =>
      ⟨hown₂, Or.inr (hsettled _ _ ⟨4, by decide, ?_, Or.inl ⟨hqueue, fun _ => rfl⟩⟩)⟩
    show db₄.toTables = _
    rw [hdb₄]
    show db₃.toTables.deleteUsers [userId] = _
    rw [hstage₃]
    rfl
  · have hstage₂ : db₂.toTables = w.db.toTables.erased userId 2 := by
      rw [hdb₂]
      show db₁.toTables.deleteOrgsCreatedBy userId = _
      rw [hstage₁]
      rfl
    exact ⟨hown₂, Or.inr (hsettled _ _
      ⟨2, by decide, hstage₂, Or.inr ⟨rfl, ⟨e, rfl⟩, Or.inr hbroker⟩⟩)⟩

end Session

end Saasmint
