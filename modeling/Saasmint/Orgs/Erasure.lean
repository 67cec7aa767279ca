import Saasmint.Orgs.Owners

/-!
# What goes with an account

A user who deletes their account should take along the orgs they own, and no others.
The deletion selects the orgs by their creator, who is the owner only as long as
nobody else has been given the ownership.  In every state that a run of complete
operations reaches, the deletion takes the orgs that the user owns if and only if
they are the orgs that the user has created.

`Untouched` says what is left of an org that stays: everything but the membership of
the user who goes.
-/

namespace Saasmint

open Atomic Relational

variable {σ : Type} {t t' t'' : Tables} {userId : UUID} {o : Org} {ids orgIds : List UUID}

/-! ## What is left of an org -/

/-- The org is what it was, apart from the membership of the user. -/
structure Untouched (userId : UUID) (o : Org) (t t' : Tables) : Prop where
  org : o ∈ t.orgs.rows → o ∈ t'.orgs.rows
  members : ∀ m, m.orgId = o.id → m.userId ≠ userId →
    (m ∈ t'.members.rows ↔ m ∈ t.members.rows)
  accounts : ∀ m ∈ t.members.rows, m.orgId = o.id → m.userId ≠ userId →
    ∀ u : User, u.id = m.userId → (u ∈ t'.users.rows ↔ u ∈ t.users.rows)
  customers : ∀ c, c.orgId = some o.id → (c ∈ t'.customers.rows ↔ c ∈ t.customers.rows)
  subscriptions : ∀ c ∈ t.customers.rows, c.orgId = some o.id →
    ∀ s, s.stripeCustomerId = some c.id → (s ∈ t'.subscriptions.rows ↔ s ∈ t.subscriptions.rows)

namespace Untouched

theorem refl (userId : UUID) (o : Org) (t : Tables) : Untouched userId o t t :=
  ⟨id, fun _ _ _ => Iff.rfl, fun _ _ _ _ _ _ => Iff.rfl, fun _ _ => Iff.rfl,
    fun _ _ _ _ _ => Iff.rfl⟩

theorem trans (h : Untouched userId o t t') (h' : Untouched userId o t' t'') :
    Untouched userId o t t'' where
  org ho := h'.org (h.org ho)
  members m horg huser := (h'.members m horg huser).trans (h.members m horg huser)
  accounts m hm horg huser u hu := by
    have hm' : m ∈ t'.members.rows := (h.members m horg huser).mpr hm
    exact (h'.accounts m hm' horg huser u hu).trans (h.accounts m hm horg huser u hu)
  customers c horg := (h'.customers c horg).trans (h.customers c horg)
  subscriptions c hc horg s hs := by
    have hc' : c ∈ t'.customers.rows := (h.customers c horg).mpr hc
    exact (h'.subscriptions c hc' horg s hs).trans (h.subscriptions c hc horg s hs)

end Untouched

theorem untouched_deleteCustomers {gone : StripeCustomer → Bool}
    (h : ∀ c ∈ t.customers.rows, c.orgId = some o.id → gone c = false) :
    Untouched userId o t (t.deleteCustomers gone) where
  org := id
  members _ _ _ := Iff.rfl
  accounts _ _ _ _ _ _ := Iff.rfl
  customers c horg := by
    rw [Tables.mem_customers_deleteCustomers]
    constructor
    · exact And.left
    · exact fun hc => ⟨hc, h c hc horg⟩
  subscriptions c hc horg s hs := by
    rw [Tables.mem_subscriptions_deleteCustomers]
    constructor
    · exact And.left
    · refine fun hmem => ⟨hmem, fun c' hc' hgone hcustomer => ?_⟩
      have hsame : c' = c := t.customers.eq_of_clash hc' hc
        (Or.inl (Option.some.inj (hcustomer.symm.trans hs)))
      rw [hsame, h c hc horg] at hgone
      cases hgone

theorem untouched_deleteCustomerOf : Untouched userId o t (t.deleteCustomerOf userId) := by
  rcases t.deleteCustomerOf_cases userId with hsame | ⟨customer, hmem, huser, hdeleted⟩
  · rw [hsame]
    exact .refl _ _ _
  · rw [hdeleted]
    refine untouched_deleteCustomers fun c hc horg => ?_
    rw [beq_eq_false_iff_ne]
    intro hid
    have hsame : c = customer := t.customers.eq_of_clash hc hmem (Or.inl hid)
    rw [← hsame, StripeCustomer.userId_eq_none hc horg] at huser
    cases huser

theorem untouched_cancelInvitationsOf : Untouched userId o t (t.cancelInvitationsOf orgIds) :=
  ⟨id, fun _ _ _ => Iff.rfl, fun _ _ _ _ _ _ => Iff.rfl, fun _ _ => Iff.rfl,
    fun _ _ _ _ _ => Iff.rfl⟩

/-- Users can be deleted who neither have created the org nor are members, but for the
one user. -/
theorem untouched_deleteUsers (hlinked : t.Linked) (hcreator : ∀ k ∈ o.createdById, k ∉ ids)
    (hmembers : ∀ m ∈ t.members.rows, m.orgId = o.id → m.userId ≠ userId → m.userId ∉ ids) :
    Untouched userId o t (t.deleteUsers ids) where
  org ho := by
    have hkeep : o.createdById.any ids.contains = false := Tables.goneUser_eq_false.mpr hcreator
    refine List.mem_map.mpr ⟨o, ho, ?_⟩
    dsimp only
    rw [if_neg (Bool.eq_false_iff.mp hkeep)]
  members m horg huser := by
    rw [Tables.mem_members_deleteUsers]
    constructor
    · exact And.left
    · exact fun hm => ⟨hm, hmembers m hm horg huser⟩
  accounts m hm horg huser u hu := by
    rw [Tables.mem_users_deleteUsers, hu]
    constructor
    · exact And.left
    · exact fun hmem => ⟨hmem, hmembers m hm horg huser⟩
  customers c horg := by
    rw [Tables.mem_customers_deleteUsers]
    constructor
    · exact And.left
    · refine fun hc => ⟨hc, ?_⟩
      rw [StripeCustomer.userId_eq_none hc horg]
      rfl
  subscriptions c hc horg s hs := by
    rw [Tables.mem_subscriptions_deleteUsers]
    constructor
    · exact fun hmem => hmem.1.1
    · have hnone := StripeCustomer.userId_eq_none hc horg
      refine fun hmem => ⟨⟨hmem, fun c' hc' hgone hcustomer => ?_⟩, ?_⟩
      · have hsame : c' = c := t.customers.eq_of_clash hc' hc
          (Or.inl (Option.some.inj (hcustomer.symm.trans hs)))
        rw [hsame, hnone] at hgone
        cases hgone
      · rw [hlinked s hmem c hc hs, hnone]
        rfl

theorem untouched_deleteOrgs (h : o.id ∉ orgIds) : Untouched userId o t (t.deleteOrgs orgIds) := by
  have hcustomers : Untouched userId o t
      (t.deleteCustomers fun c => c.orgId.any orgIds.contains) := by
    refine untouched_deleteCustomers fun c _ horg => ?_
    rw [horg, Option.any_some, Bool.eq_false_iff]
    exact fun hgone => h (List.contains_iff_mem.mp hgone)
  constructor
  · exact fun ho => Tables.mem_orgs_deleteOrgs.mpr ⟨ho, h⟩
  · intro m horg _
    rw [Tables.mem_members_deleteOrgs, horg]
    exact ⟨And.left, fun hm => ⟨hm, h⟩⟩
  · exact fun _ _ _ _ _ _ => Iff.rfl
  · exact hcustomers.customers
  · exact hcustomers.subscriptions

theorem untouched_deleteMembershipsOf : Untouched userId o t (t.deleteMembershipsOf userId) := by
  refine ⟨id, fun m _ huser => ?_, fun _ _ _ _ _ _ => Iff.rfl, fun _ _ => Iff.rfl,
    fun _ _ _ _ _ => Iff.rfl⟩
  rw [Tables.mem_members_deleteMembershipsOf]
  exact ⟨And.left, fun hm => ⟨hm, huser⟩⟩

/-! ## Links and creators -/

instance (t : Tables) : Decidable t.Linked := inferInstanceAs (Decidable (∀ _ ∈ _, ∀ _ ∈ _, _))

/-- Fewer subscriptions and fewer customers are still linked. -/
theorem Tables.Linked.of_subset (h : t.Linked)
    (hsubs : ∀ s ∈ t'.subscriptions.rows, s ∈ t.subscriptions.rows)
    (hcustomers : ∀ c ∈ t'.customers.rows, c ∈ t.customers.rows) : t'.Linked :=
  fun s hs c hc hcustomer => h s (hsubs s hs) c (hcustomers c hc) hcustomer

namespace Tables

theorem Linked.deleteCustomers (h : t.Linked) (gone : StripeCustomer → Bool) :
    (t.deleteCustomers gone).Linked :=
  h.of_subset (fun _ hs => (mem_subscriptions_deleteCustomers.mp hs).1)
    fun _ hc => (mem_customers_deleteCustomers.mp hc).1

theorem Linked.deleteCustomerOf (h : t.Linked) : (t.deleteCustomerOf userId).Linked := by
  rcases t.deleteCustomerOf_cases userId with hsame | ⟨customer, _, _, hdeleted⟩
  · rwa [hsame]
  · rw [hdeleted]
    exact h.deleteCustomers _

theorem Linked.deleteUsers (h : t.Linked) : (t.deleteUsers ids).Linked :=
  h.of_subset (fun _ hs => (mem_subscriptions_deleteUsers.mp hs).1.1)
    fun _ hc => (mem_customers_deleteUsers.mp hc).1

theorem Linked.deleteOrgBatch (h : t.Linked) : (t.deleteOrgBatch orgIds).Linked := by
  have hcancelled : (t.cancelInvitationsOf orgIds).Linked := h
  exact hcancelled.deleteUsers.deleteCustomers _

theorem Linked.deleteOrgsCreatedBy (h : t.Linked) : (t.deleteOrgsCreatedBy userId).Linked := by
  rcases t.deleteOrgsCreatedBy_cases userId with ⟨_, hsame⟩ | hdeleted
  · rwa [hsame]
  · rw [hdeleted]
    exact h.deleteOrgBatch

theorem Linked.erased (h : t.Linked) (userId : UUID) (stage : ℕ) : (t.erased userId stage).Linked := by
  have h₁ : (t.deleteCustomerOf userId).Linked := h.deleteCustomerOf
  have h₂ : ((t.deleteCustomerOf userId).deleteOrgsCreatedBy userId).Linked :=
    h₁.deleteOrgsCreatedBy
  have h₃ : (((t.deleteCustomerOf userId).deleteOrgsCreatedBy userId).deleteMembershipsOf
      userId).Linked := h₂
  unfold Tables.erased
  split
  · exact h
  · exact h₁
  · exact h₂
  · exact h₃
  · exact h₃.deleteUsers

/-- Of the orgs that stay, none has a creator who has been deleted. -/
theorem not_mem_of_creator {o' : Org} (ho' : o' ∈ (t.deleteUsers ids).orgs.rows) :
    ∀ creatorId ∈ o'.createdById, creatorId ∉ ids := by
  obtain ⟨o, _, rfl⟩ := List.mem_map.mp ho'
  intro creatorId hcreator
  dsimp only at hcreator
  split at hcreator
  next => cases hcreator
  next hkept => exact goneUser_eq_false.mp (Bool.eq_false_iff.mpr hkept) creatorId hcreator

end Tables

/-- Who has created an org is a member of it. -/
def CreatorsBelong (t : Tables) : Prop :=
  ∀ o ∈ t.orgs.rows, ∀ creatorId ∈ o.createdById,
    ∃ m ∈ t.members.rows, m.orgId = o.id ∧ m.userId = creatorId

namespace CreatorsBelong

theorem of_shrinks (h : CreatorsBelong t) (hshrinks : Shrinks t t')
    (hstay : ∀ m ∈ t.members.rows, ∀ o' ∈ t'.orgs.rows, o'.id = m.orgId →
      o'.createdById = some m.userId → m ∈ t'.members.rows) : CreatorsBelong t' := by
  intro o' ho' creatorId hcreator
  obtain ⟨o, ho, hid, hcreators⟩ := hshrinks.orgs o' ho'
  obtain ⟨m, hm, horg, rfl⟩ := h o ho creatorId (hcreators creatorId hcreator)
  exact ⟨m, hstay m hm o' ho' (hid.symm.trans horg.symm) hcreator, horg.trans hid, rfl⟩

theorem of_same (h : CreatorsBelong t) (horgs : t'.orgs = t.orgs) (hmembers : t'.members = t.members) :
    CreatorsBelong t' := by
  unfold CreatorsBelong
  rwa [horgs, hmembers]

theorem deleteUsers (h : CreatorsBelong t) : CreatorsBelong (t.deleteUsers ids) := by
  refine h.of_shrinks Tables.shrinks_deleteUsers fun m hm o' ho' _ hcreator => ?_
  exact Tables.mem_members_deleteUsers.mpr ⟨hm, Tables.not_mem_of_creator ho' m.userId hcreator⟩

theorem deleteOrgBatch (h : CreatorsBelong t) : CreatorsBelong (t.deleteOrgBatch orgIds) := by
  refine h.of_shrinks Tables.shrinks_deleteOrgBatch fun m hm o' ho' hid _ => ?_
  refine Tables.mem_members_deleteOrgBatch.mpr ⟨hm, ?_⟩
  rw [← hid]
  exact (Tables.mem_orgs_deleteOrgs.mp ho').2

theorem deleteCustomerOf (h : CreatorsBelong t) : CreatorsBelong (t.deleteCustomerOf userId) := by
  rcases t.deleteCustomerOf_cases userId with hsame | ⟨customer, _, _, hdeleted⟩
  · rwa [hsame]
  · rw [hdeleted]
    exact h

theorem deleteOrgsCreatedBy (h : CreatorsBelong t) :
    CreatorsBelong (t.deleteOrgsCreatedBy userId) := by
  rcases t.deleteOrgsCreatedBy_cases userId with ⟨_, hsame⟩ | hdeleted
  · rwa [hsame]
  · rw [hdeleted]
    exact h.deleteOrgBatch

/-- The memberships go before the user, and only then is the creator cleared: in between
a creator may be no member, but no deletion ends there. -/
theorem erased (h : CreatorsBelong t) (userId : UUID) {stage : ℕ} (hended : stage ≠ 3) :
    CreatorsBelong (t.erased userId stage) := by
  have h₁ : CreatorsBelong (t.deleteCustomerOf userId) := h.deleteCustomerOf
  have h₂ : CreatorsBelong ((t.deleteCustomerOf userId).deleteOrgsCreatedBy userId) :=
    h₁.deleteOrgsCreatedBy
  unfold Tables.erased
  split
  · exact h
  · exact h₁
  · exact h₂
  · exact absurd rfl hended
  · refine h₂.of_shrinks (Tables.shrinks_deleteMembershipsOf.trans Tables.shrinks_deleteUsers)
      fun m hm o' ho' _ hcreator => ?_
    have hother := Tables.not_mem_of_creator ho' m.userId hcreator
    refine Tables.mem_members_deleteUsers.mpr
      ⟨Tables.mem_members_deleteMembershipsOf.mpr ⟨hm, ?_⟩, hother⟩
    exact fun huser => hother (List.mem_singleton.mpr huser)

end CreatorsBelong

/-! ## Reachable states -/

/-- What every reachable state has: creators that are members, linked subscriptions. -/
structure Rooted (t : Tables) : Prop where
  creators : CreatorsBelong t
  linked : t.Linked

namespace Rooted

variable {db db' : Db}

theorem of_same (h : Rooted t) (horgs : t'.orgs = t.orgs) (hmembers : t'.members = t.members)
    (hcustomers : t'.customers = t.customers) (hsubs : t'.subscriptions = t.subscriptions) :
    Rooted t' := by
  refine ⟨h.creators.of_same horgs hmembers, ?_⟩
  unfold Tables.Linked
  rw [hcustomers, hsubs]
  exact h.linked

theorem of_mirrorWrites (h : Rooted db.toTables) (hmirrors : MirrorWrites db db') :
    Rooted db'.toTables := by
  have hframe := hmirrors.frame
  exact ⟨h.creators.of_same (by rw [hframe]) (by rw [hframe]), hmirrors.linked h.linked⟩

/-- The founder is a member of the org, and the new customer has no subscription. -/
theorem of_founded {rt : Runtime σ} {c : TeamCheckout} {user : User} {slug : String}
    (h : Rooted db.toTables) (hfounded : Founded rt c db db' user slug) : Rooted db'.toTables := by
  obtain ⟨horgs, hmembers, hcustomers, hframe⟩ := insertOrgWithOwner_eq_ok hfounded.inserted
  have hsubs : db'.subscriptions = db.subscriptions := by rw [hframe]
  constructor
  · intro o ho creatorId hcreator
    rw [horgs] at ho
    rw [hmembers]
    rcases List.mem_append.mp ho with hold | hnew
    · obtain ⟨m, hm, hbelongs⟩ := h.creators o hold creatorId hcreator
      exact ⟨m, List.mem_append_left _ hm, hbelongs⟩
    · rw [List.mem_singleton.mp hnew] at hcreator ⊢
      refine ⟨ownerMembership rt user, List.mem_append_right _ (List.mem_singleton_self _), rfl, ?_⟩
      exact Option.some.inj hcreator
  · intro s hs c hc hcustomer
    rw [hsubs] at hs
    -- what a subscription refers to was there before
    obtain ⟨c', hc', hid⟩ := (db.integral.subscriptions s hs).1 c.id hcustomer
    have hkept : c' ∈ db'.customers.rows := by
      rw [hcustomers]
      exact List.mem_append_left _ hc'
    have hsame : c' = c := db'.customers.eq_of_clash hkept hc (Or.inl hid)
    rw [hsame] at hc'
    exact h.linked s hs c hc' hcustomer

/-- Members are rewritten in place, under their org and their user. -/
theorem of_rewritten {f : OrgMember → OrgMember} (h : Rooted db.toTables)
    (hrewritten : MemberRewritten db db' f)
    (hkeys : ∀ m, (f m).orgId = m.orgId ∧ (f m).userId = m.userId) : Rooted db'.toTables := by
  have hframe := hrewritten.frame
  have horgs : db'.orgs = db.orgs := by rw [hframe]
  have hcustomers : db'.customers = db.customers := by rw [hframe]
  have hsubs : db'.subscriptions = db.subscriptions := by rw [hframe]
  constructor
  · intro o ho creatorId hcreator
    rw [horgs] at ho
    obtain ⟨m, hm, horg, huser⟩ := h.creators o ho creatorId hcreator
    refine ⟨f m, ?_, (hkeys m).1.trans horg, (hkeys m).2.trans huser⟩
    rw [hrewritten.rows]
    exact List.mem_map_of_mem hm
  · unfold Tables.Linked
    rw [hcustomers, hsubs]
    exact h.linked

theorem of_member {orgId : UUID} {request : MemberRequest} (h : Rooted db.toTables)
    (hstep : MemberStep orgId db request db') : Rooted db'.toTables := by
  cases hstep with
  | patch _ _ _ hrewritten =>
      refine h.of_rewritten hrewritten fun m => ?_
      unfold rewriteRow MemberUpdate.apply
      split <;> exact ⟨rfl, rfl⟩
  | remove _ _ _ hdeleted =>
      rw [hdeleted]
      exact ⟨h.creators.deleteUsers, h.linked.deleteUsers⟩
  | transfer _ _ _ hrewritten =>
      refine h.of_rewritten hrewritten fun m => ?_
      unfold rewriteRow promote demote
      split <;> split <;> exact ⟨rfl, rfl⟩

theorem of_invitation {request : InvitationRequest σ} (h : Rooted db.toTables)
    (hstep : InvitationStep db request db') : Rooted db'.toTables := by
  have hset : ∀ {invitationId : UUID} {status : InvitationStatus},
      StatusSet db db' invitationId status → Rooted db'.toTables := by
    intro invitationId status hset
    have hframe := hset.frame
    exact h.of_same (by rw [hframe]) (by rw [hframe]) (by rw [hframe]) (by rw [hframe])
  cases hstep with
  | create _ _ _ _ _ hframe =>
      exact h.of_same (by rw [hframe]) (by rw [hframe]) (by rw [hframe]) (by rw [hframe])
  | accept _ haccepted =>
      have hframe := haccepted.frame
      have horgs : db'.orgs = db.orgs := by rw [hframe]
      have hcustomers : db'.customers = db.customers := by rw [hframe]
      have hsubs : db'.subscriptions = db.subscriptions := by rw [hframe]
      constructor
      · intro o ho creatorId hcreator
        rw [horgs] at ho
        obtain ⟨m, hm, hbelongs⟩ := h.creators o ho creatorId hcreator
        refine ⟨m, ?_, hbelongs⟩
        rw [haccepted.members]
        exact List.mem_append_left _ hm
      · unfold Tables.Linked
        rw [hcustomers, hsubs]
        exact h.linked
  | expire _ hstatus => exact hset hstatus
  | cancel _ hstatus => exact hset hstatus
  | decline _ hstatus => exact hset hstatus

theorem of_step {operation : OrgOperation σ} (h : Rooted db.toTables)
    (hstep : OrgStep db operation db') : Rooted db'.toTables := by
  cases hstep with
  | refused => exact h
  | mirrored hmirrors => exact h.of_mirrorWrites hmirrors
  | founded hfounded hmirrors => exact (h.of_founded hfounded).of_mirrorWrites hmirrors
  | member hstep => exact h.of_member hstep
  | invitation hstep => exact h.of_invitation hstep
  | deleted _ hdeleted =>
      rw [hdeleted]
      exact ⟨h.creators.deleteOrgBatch, h.linked.deleteOrgBatch⟩
  | ended hdeleted =>
      rw [hdeleted]
      exact ⟨h.creators.deleteOrgBatch, h.linked.deleteOrgBatch⟩
  | erased stage hended herased =>
      rw [herased]
      exact ⟨h.creators.erased _ hended, h.linked.erased _ _⟩

end Rooted

/-! ## What a deletion takes -/

theorem createdBy_deleteCustomerOf : (t.deleteCustomerOf userId).createdBy userId =
    t.createdBy userId := by
  rcases t.deleteCustomerOf_cases userId with hsame | ⟨customer, _, _, hdeleted⟩
  · rw [hsame]
  · rw [hdeleted]
    rfl

/-- A batch takes nothing from the other orgs: their members and their creators have a
membership elsewhere. -/
theorem untouched_deleteOrgBatch (h : Rooted t) (ho : o ∈ t.orgs.rows) (hkept : o.id ∉ orgIds) :
    Untouched userId o t (t.deleteOrgBatch orgIds) := by
  have hmember : ∀ m ∈ t.members.rows, m.orgId = o.id →
      m.userId ∉ t.deletableUserIdsOf orgIds := by
    intro m hm horg hgone
    have honly := (Tables.mem_deletableUserIdsOf.mp hgone).2.1 m hm rfl
    rw [horg] at honly
    exact hkept honly
  have hcancelled : Untouched userId o t (t.cancelInvitationsOf orgIds) :=
    untouched_cancelInvitationsOf
  refine (hcancelled.trans (untouched_deleteUsers h.linked ?_ ?_)).trans
    (untouched_deleteOrgs hkept)
  · intro creatorId hcreator
    obtain ⟨m, hm, horg, rfl⟩ := h.creators o ho creatorId hcreator
    exact hmember m hm horg
  · exact fun m hm horg _ => hmember m hm horg

theorem untouched_deleteOrgsCreatedBy (h : Rooted t) (ho : o ∈ t.orgs.rows)
    (hkept : o.id ∉ t.createdBy userId) : Untouched userId o t (t.deleteOrgsCreatedBy userId) := by
  rcases t.deleteOrgsCreatedBy_cases userId with ⟨_, hsame⟩ | hdeleted
  · rw [hsame]
    exact .refl _ _ _
  · rw [hdeleted]
    exact untouched_deleteOrgBatch h ho hkept

/-- No stage of a deletion touches an org that somebody else has created. -/
theorem untouched_erased (h : Rooted t) (ho : o ∈ t.orgs.rows) (hkept : o.id ∉ t.createdBy userId)
    (stage : ℕ) : Untouched userId o t (t.erased userId stage) := by
  have h₁ : Untouched userId o t (t.deleteCustomerOf userId) := untouched_deleteCustomerOf
  have hrooted₁ : Rooted (t.deleteCustomerOf userId) :=
    ⟨h.creators.deleteCustomerOf, h.linked.deleteCustomerOf⟩
  have hkept₁ : o.id ∉ (t.deleteCustomerOf userId).createdBy userId := by
    rwa [createdBy_deleteCustomerOf]
  have h₂ := h₁.trans (untouched_deleteOrgsCreatedBy hrooted₁ (h₁.org ho) hkept₁)
  have h₃ := h₂.trans untouched_deleteMembershipsOf
  have hlinked₃ : (((t.deleteCustomerOf userId).deleteOrgsCreatedBy userId).deleteMembershipsOf
      userId).Linked := hrooted₁.linked.deleteOrgsCreatedBy
  unfold Tables.erased
  split
  · exact .refl _ _ _
  · exact h₁
  · exact h₂
  · exact h₃
  · refine h₃.trans (untouched_deleteUsers hlinked₃ ?_ ?_)
    · intro creatorId hcreator hgone
      rw [List.mem_singleton.mp hgone] at hcreator
      exact hkept (Tables.mem_createdBy.mpr ⟨o, ho, hcreator, rfl⟩)
    · exact fun m _ _ huser hgone => huser (List.mem_singleton.mp hgone)

/-- When a deletion is complete, the orgs that are left are those the user has not
created. -/
theorem remains_iff (h : Rooted t) (ho : o ∈ t.orgs.rows) :
    (∃ o' ∈ (t.erased userId 4).orgs.rows, o'.id = o.id) ↔ o.id ∉ t.createdBy userId := by
  constructor
  · rintro ⟨o', ho', hid⟩
    obtain ⟨o₃, ho₃, hid₃, _⟩ := Tables.shrinks_deleteUsers.orgs o' ho'
    obtain ⟨o₂, ho₂, hid₂, _⟩ := Tables.shrinks_deleteMembershipsOf.orgs o₃ ho₃
    rw [← hid, ← hid₃, ← hid₂, ← createdBy_deleteCustomerOf]
    rcases (t.deleteCustomerOf userId).deleteOrgsCreatedBy_cases userId with
      ⟨hnone, _⟩ | hdeleted
    · rw [hnone]
      exact List.not_mem_nil
    · rw [hdeleted] at ho₂
      exact (Tables.mem_orgs_deleteOrgs.mp ho₂).2
  · intro hkept
    exact ⟨o, (untouched_erased h ho hkept 4).org ho, rfl⟩

/-! ## Billing -/

/-- The task cancels the subscription. -/
def Task.Cancels (stripeId : String) : Task → Prop
  | .cancelStripeSubs stripeSubIds _ => stripeId ∈ stripeSubIds
  | _ => False

/-- Neither a call to Stripe nor a queued task is about the org's customer or one of its
subscriptions. -/
def BillingUntouched (o : Org) (db : Db) (calls : List (StripeCall × World σ))
    (queued : List Task) : Prop :=
  ∀ c ∈ db.customers.rows, c.orgId = some o.id →
    (∀ called ∈ calls, called.1 ≠ .customerDelete c.stripeId) ∧
    ∀ s ∈ db.subscriptions.rows, s.stripeCustomerId = some c.id → ∀ stripeId ∈ s.stripeId,
      (∀ called ∈ calls, called.1 ≠ .subscriptionCancel stripeId) ∧
        ∀ task ∈ queued, ¬ task.Cancels stripeId

/-- Two rows under one Stripe id are one. -/
theorem Subscription.eq_of_stripeId {s s' : Subscription} {stripeId : String}
    (hs : s ∈ t.subscriptions.rows) (hs' : s' ∈ t.subscriptions.rows)
    (h : s.stripeId = some stripeId) (h' : s'.stripeId = some stripeId) : s = s' :=
  t.subscriptions.eq_of_clash hs hs' (Or.inr ⟨by rw [h]; rfl, by rw [h, h']⟩)

/-- The user's own subscription is not the org's. -/
theorem ownCalls_billing {db : Db} {calls : List (StripeCall × World σ)} (hlinked : db.Linked)
    (hown : OwnCalls userId db calls) {c : StripeCustomer} (hc : c ∈ db.customers.rows)
    (horg : c.orgId = some o.id) :
    (∀ called ∈ calls, called.1 ≠ .customerDelete c.stripeId) ∧
    ∀ s ∈ db.subscriptions.rows, s.stripeCustomerId = some c.id → ∀ stripeId ∈ s.stripeId,
      ∀ called ∈ calls, called.1 ≠ .subscriptionCancel stripeId := by
  have hnone := StripeCustomer.userId_eq_none hc horg
  constructor
  · intro called hcalled hdeletes
    rcases hown called hcalled with ⟨s, _, stripeId, _, hcancels⟩ | ⟨c', hc', hdeletes'⟩
    · rw [hcancels] at hdeletes
      cases hdeletes
    · obtain ⟨hmem, huser⟩ := Table.mem_of_find? hc'
      have hstripe : c'.stripeId = c.stripeId :=
        StripeCall.customerDelete.inj (hdeletes'.symm.trans hdeletes)
      have hsame : c' = c := db.customers.eq_of_clash hmem hc (Or.inr (Or.inl hstripe))
      rw [hsame, hnone] at huser
      cases huser
  · intro s hs hcustomer stripeId hstripe called hcalled hcancels
    rcases hown called hcalled with ⟨s', hs', stripeId', hstripe', hcancels'⟩ | ⟨c', _, hdeletes⟩
    · obtain ⟨hmem, _, huser⟩ := Session.mem_activeForUser hs'
      have hid : stripeId' = stripeId :=
        StripeCall.subscriptionCancel.inj (hcancels'.symm.trans hcancels)
      rw [hid] at hstripe'
      have hsame : s' = s := Subscription.eq_of_stripeId hmem hs hstripe' hstripe
      rw [hsame] at huser
      rcases huser with huser | ⟨c', hc', hcustomer', huser⟩
      · rw [hlinked s hs c hc hcustomer, hnone] at huser
        cases huser
      · have hsame : c' = c := db.customers.eq_of_clash hc' hc
          (Or.inl (Option.some.inj (hcustomer'.symm.trans hcustomer)))
        rw [hsame, hnone] at huser
        cases huser
    · rw [hdeletes] at hcancels
      cases hcancels

/-- What is queued for the orgs that go is about no org that stays. -/
theorem not_cancels_of_kept {db : Db} (hkept : o.id ∉ db.createdBy userId) {c : StripeCustomer}
    (hc : c ∈ db.customers.rows) (horg : c.orgId = some o.id) {s : Subscription}
    (hs : s ∈ db.subscriptions.rows) (hcustomer : s.stripeCustomerId = some c.id)
    {stripeId : String} (hstripe : s.stripeId = some stripeId) :
    ∀ task ∈ accountTasks userId db, ¬ task.Cancels stripeId := by
  intro task htask hcancels
  have hpending : stripeId ∈ db.pendingStripeSubIds userId := by
    unfold accountTasks cancelTasks at htask
    split at htask
    next => cases htask
    next =>
        rw [List.mem_singleton.mp htask] at hcancels
        exact hcancels
  obtain ⟨orgId, hcreated, hactive⟩ := List.mem_filterMap.mp hpending
  obtain ⟨s', hs', hstripe'⟩ := Option.bind_eq_some_iff.mp hactive
  have hteam := (List.mem_filter.mp (Db.mem_of_latest? hs')).1
  obtain ⟨hmem, hteam⟩ := List.mem_filter.mp hteam
  simp only [Bool.and_eq_true, List.any_eq_true, beq_iff_eq] at hteam
  obtain ⟨_, c', hc', hcustomer', horg'⟩ := hteam
  have hsame : s' = s := Subscription.eq_of_stripeId hmem hs hstripe' hstripe
  rw [hsame, hcustomer] at hcustomer'
  have hsame : c = c' := db.customers.eq_of_clash hc hc' (Or.inl (Option.some.inj hcustomer'))
  rw [← hsame, horg] at horg'
  rw [← Option.some.inj horg'] at hcreated
  exact hkept hcreated

/-! ## Deletions in reachable states -/

instance (db : Db) (userId orgId : UUID) : Decidable (OwnsOrg db userId orgId) :=
  inferInstanceAs (Decidable (∃ _ ∈ _, _))

/-- The deletion of an account, and what it calls Stripe about. -/
def deletion (rt : Runtime σ) (userId : UUID) (w : World σ) :
    Py Unit × World σ × List (StripeCall × World σ) :=
  let (result, w') := Fallible.exec (Session.deleteAccount rt userId) w
  (result, w', stripeCalls (Fallible.trace (Session.deleteAccount rt userId) w))

/-- The orgs that go are those that the user owns. -/
def TakesOwned (rt : Runtime σ) (userId : UUID) (w : World σ) : Prop :=
  ∀ o ∈ w.db.orgs.rows,
    (∃ o' ∈ (deletion rt userId w).2.1.db.orgs.rows, o'.id = o.id) ↔ ¬ OwnsOrg w.db userId o.id

instance (rt : Runtime σ) (userId : UUID) (w : World σ) : Decidable (TakesOwned rt userId w) :=
  inferInstanceAs (Decidable (∀ _ ∈ _, _))

/-- The orgs of others are left alone. -/
def SparesOthers (rt : Runtime σ) (userId : UUID) (w : World σ) : Prop :=
  ∀ o ∈ w.db.orgs.rows, ¬ OwnsOrg w.db userId o.id →
    Untouched userId o w.db.toTables (deletion rt userId w).2.1.db.toTables ∧
      BillingUntouched o w.db (deletion rt userId w).2.2
        ((deletion rt userId w).2.1.queue.drop w.queue.length)

/-- The orgs that the user has created are those they own. -/
def CreatedIsOwned (db : Db) (userId : UUID) : Prop :=
  ∀ o ∈ db.orgs.rows, o.createdById = some userId ↔ OwnsOrg db userId o.id

/-- The deletion of a user who owns what they have created. -/
theorem sparesOthers_of_created {rt : Runtime σ} {w : World σ} (h : Rooted w.db.toTables)
    (hcreated : ∀ o ∈ w.db.orgs.rows, ¬ OwnsOrg w.db userId o.id → o.createdById ≠ some userId) :
    SparesOthers rt userId w := by
  intro o ho howns
  have hkept : o.id ∉ w.db.createdBy userId := by
    intro hgone
    obtain ⟨o', ho', hcreator, hid⟩ := Tables.mem_createdBy.mp hgone
    have hsame : o' = o := w.db.orgs.eq_of_clash ho' ho (Or.inl hid)
    rw [hsame] at hcreator
    exact hcreated o ho howns hcreator
  obtain ⟨hown, hend⟩ := Session.calls_deleteAccount (w := w) rt userId
  -- the tables are those of a stage, and nothing is queued but the tasks of the orgs that go
  have hstage : (∃ stage, (deletion rt userId w).2.1.db.toTables = w.db.toTables.erased userId stage) ∧
      ∀ task ∈ (deletion rt userId w).2.1.queue.drop w.queue.length,
        task ∈ accountTasks userId w.db := by
    show (∃ stage, (Fallible.exec (Session.deleteAccount rt userId) w).2.db.toTables = _) ∧
      ∀ task ∈ (Fallible.exec (Session.deleteAccount rt userId) w).2.queue.drop _, _
    rcases hend with ⟨_, hdb, hqueue⟩ | herased
    · refine ⟨⟨0, by rw [hdb]; rfl⟩, fun task htask => ?_⟩
      rw [hqueue, List.drop_length] at htask
      cases htask
    · obtain ⟨stage, _, hdb, hqueue⟩ := herased.stage
      refine ⟨⟨stage, hdb⟩, fun task htask => ?_⟩
      rcases hqueue with ⟨hqueue, _⟩ | ⟨hqueue, _⟩
      · rwa [hqueue, List.drop_left] at htask
      · rw [hqueue, List.drop_length] at htask
        cases htask
  obtain ⟨⟨stage, hdb⟩, hqueue⟩ := hstage
  constructor
  · rw [hdb]
    exact untouched_erased h ho hkept stage
  · intro c hc horg
    obtain ⟨hcustomer, hsubs⟩ := ownCalls_billing h.linked hown hc horg
    refine ⟨hcustomer, fun s hs hlinked stripeId hstripe => ⟨hsubs s hs hlinked stripeId hstripe, ?_⟩⟩
    intro task htask
    exact not_cancels_of_kept hkept hc horg hs hlinked hstripe task (hqueue task htask)

/-- A deletion that returns has come to its last stage. -/
theorem Session.erased_of_deleteAccount {rt : Runtime σ} {w : World σ}
    (h : (Fallible.exec (Session.deleteAccount rt userId) w).1 = .ok ()) :
    (Fallible.exec (Session.deleteAccount rt userId) w).2.db.toTables =
      w.db.toTables.erased userId 4 := by
  obtain ⟨_, hend⟩ := Session.calls_deleteAccount (w := w) rt userId
  rcases hend with ⟨⟨e, herror⟩, _⟩ | herased
  · rw [herror] at h
    cases h
  · obtain ⟨stage, _, hdb, ⟨_, hcomplete⟩ | ⟨_, ⟨e, herror⟩, _⟩⟩ := herased.stage
    · rw [← hcomplete h]
      exact hdb
    · rw [herror] at h
      cases h

/-- A complete deletion takes the orgs that the user has created. -/
theorem takesOwned_iff {rt : Runtime σ} {w : World σ} (h : Rooted w.db.toTables)
    (hdone : (deletion rt userId w).1 = .ok ()) :
    TakesOwned rt userId w ↔ CreatedIsOwned w.db userId := by
  have hstage : (deletion rt userId w).2.1.db.toTables = w.db.toTables.erased userId 4 :=
    Session.erased_of_deleteAccount hdone
  have hcreated : ∀ o ∈ w.db.orgs.rows,
      o.id ∈ w.db.createdBy userId ↔ o.createdById = some userId := by
    intro o ho
    rw [Tables.mem_createdBy]
    constructor
    · rintro ⟨o', ho', hcreator, hid⟩
      rwa [w.db.orgs.eq_of_clash ho' ho (Or.inl hid)] at hcreator
    · exact fun hcreator => ⟨o, ho, hcreator, rfl⟩
  unfold TakesOwned CreatedIsOwned
  refine forall₂_congr fun o ho => ?_
  rw [hstage, remains_iff h ho, hcreated o ho, not_iff_not]

theorem Rooted.start {db : Db} (horgs : db.orgs.rows = []) (hlinked : db.Linked) :
    Rooted db.toTables := by
  refine ⟨fun o ho => ?_, hlinked⟩
  rw [horgs] at ho
  cases ho

/-- **Deletions of accounts.**  In every state that a run of complete operations reaches
which begins before the first org:

* who has created just the orgs they own takes no other org along, however far the
  deletion comes, and leaves the orgs of others alone;
* a complete deletion takes the orgs that the user owns if and only if the user has
  created just these. -/
theorem deletion_takes_owned {w : World σ} (horgs : w.db.orgs.rows = []) (hlinked : w.db.Linked)
    (operations : List (OrgOperation σ)) (rt : Runtime σ) (userId : UUID) :
    let reached := Runs.run OrgOperation.after w operations
    (CreatedIsOwned reached.db userId → SparesOthers rt userId reached) ∧
      ((deletion rt userId reached).1 = .ok () →
        (TakesOwned rt userId reached ∧ SparesOthers rt userId reached ↔
          CreatedIsOwned reached.db userId)) := by
  intro reached
  have hrooted : Rooted reached.db.toTables :=
    (Runs.always_of_invariant (P := fun w => Rooted w.db.toTables)
      (fun w operation h => h.of_step (operation.step w)) (Rooted.start horgs hlinked)
      operations).final
  have hspares : CreatedIsOwned reached.db userId → SparesOthers rt userId reached := by
    intro hcreated
    refine sparesOthers_of_created hrooted fun o ho howns hcreator => howns ?_
    exact (hcreated o ho).mp hcreator
  refine ⟨hspares, fun hdone => ?_⟩
  have htakes := takesOwned_iff hrooted hdone
  exact ⟨fun h => htakes.mp h.1, fun hcreated => ⟨htakes.mpr hcreated, hspares hcreated⟩⟩

/-! ## Two runs -/

/-- The buyer still owns the org they have created. -/
theorem deletion_takes_owned_staffed :
    let reached := Runs.run OrgOperation.after sampleWorld staffed
    let rt : Runtime Unit := sampleRuntime (fun _ => .ok .null) 3 0
    (CreatedIsOwned reached.db buyer.id → SparesOthers rt buyer.id reached) ∧
      ((deletion rt buyer.id reached).1 = .ok () →
        (TakesOwned rt buyer.id reached ∧ SparesOthers rt buyer.id reached ↔
          CreatedIsOwned reached.db buyer.id)) :=
  deletion_takes_owned rfl (by decide +kernel) staffed _ _

/-- The buyer has passed the org on. -/
def passedOn : List (OrgOperation Unit) :=
  staffed ++ [.member 1001#128 (.transfer buyer.id adminId)]

/-- The account of the buyer is deleted, and with it the org of the admin. -/
theorem not_deletion_takes_owned :
    let reached := Runs.run OrgOperation.after sampleWorld passedOn
    let rt : Runtime Unit := sampleRuntime (fun _ => .ok .null) 3 0
    (deletion rt buyer.id reached).1 = .ok () ∧ ¬ TakesOwned rt buyer.id reached ∧
      ∃ o ∈ reached.db.orgs.rows, OwnsOrg reached.db adminId o.id ∧
        o ∉ (deletion rt buyer.id reached).2.1.db.orgs.rows := by
  intro reached rt
  decide +kernel

end Saasmint
