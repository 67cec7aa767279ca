import Saasmint.Library.Runs
import Saasmint.Orgs.Operations

/-!
# Who owns an org

Every org has exactly one owner, who is its billing contact.  A team checkout gives
an org its owner, a transfer passes the role on, and no other request grants it or
takes it away; what can take it away is the deletion of the owner's account.

That happens in two ways.  A removal deletes the account of the removed member, with
their memberships in other orgs, one of which they may own.  An account deletion
deletes the orgs the user has *created*: an org that was transferred to the user
stays, and loses its owner.  `KeepsOwners` excludes the two, and in every run that
it admits every org keeps its owner.
-/

namespace Saasmint

open Relational

variable {σ : Type} {t t' : Tables} {orgId : UUID}

/-! ## Owners -/

/-- `m` is stored as an owner of the org. -/
def OwnerOf (t : Tables) (orgId : UUID) (m : OrgMember) : Prop :=
  m ∈ t.members.rows ∧ m.orgId = orgId ∧ m.role = .owner

/-- The org has exactly one owner, and the owner can bill. -/
def SoleOwner (t : Tables) (orgId : UUID) : Prop :=
  ∃ m, OwnerOf t orgId m ∧ m.isBilling = true ∧ ∀ m', OwnerOf t orgId m' → m' = m

/-- Every org has. -/
def SoleOwners (t : Tables) : Prop := ∀ org ∈ t.orgs.rows, SoleOwner t org.id

instance (t : Tables) (orgId : UUID) : Decidable (SoleOwner t orgId) := by
  refine @decidable_of_iff _ (∃ m ∈ t.members.rows, (m.orgId = orgId ∧ m.role = .owner) ∧
    m.isBilling = true ∧ ∀ m' ∈ t.members.rows, m'.orgId = orgId ∧ m'.role = .owner → m' = m) ?_
    inferInstance
  constructor
  · rintro ⟨m, hm, howner, hbilling, hunique⟩
    exact ⟨m, ⟨hm, howner⟩, hbilling, fun m' hm' => hunique m' hm'.1 hm'.2⟩
  · rintro ⟨m, hm, hbilling, hunique⟩
    exact ⟨m, hm.1, hm.2, hbilling, fun m' hm' howner => hunique m' ⟨hm', howner⟩⟩

instance (t : Tables) : Decidable (SoleOwners t) := inferInstanceAs (Decidable (∀ _ ∈ _, _))

/-- No invitation is for an owner. -/
def NoOwnerInvited (t : Tables) : Prop := ∀ i ∈ t.invitations.rows, i.role ≠ .owner

/-- An owner can bill, by the constraint of the table. -/
theorem OwnerOf.isBilling {m : OrgMember} (h : OwnerOf t orgId m) : m.isBilling = true := by
  have hcheck : m.role = .owner → m.isBilling = true := t.members.check_of_mem h.1
  exact hcheck h.2.2

theorem SoleOwner.of_unique {m : OrgMember} (h : OwnerOf t orgId m)
    (hunique : ∀ m', OwnerOf t orgId m' → m' = m) : SoleOwner t orgId :=
  ⟨m, h, h.isBilling, hunique⟩

/-- Whether an org has its owner depends on who is stored as one. -/
theorem SoleOwner.congr (h : SoleOwner t orgId)
    (hsame : ∀ m, OwnerOf t' orgId m ↔ OwnerOf t orgId m) : SoleOwner t' orgId := by
  obtain ⟨m, hm, _, hunique⟩ := h
  exact .of_unique ((hsame m).mpr hm) fun m' hm' => hunique m' ((hsame m').mp hm')

/-- Two memberships of one user in one org are one. -/
theorem OrgMember.eq_of_user {m m' : OrgMember} (hm : m ∈ t.members.rows)
    (hm' : m' ∈ t.members.rows) (horg : m.orgId = m'.orgId) (huser : m.userId = m'.userId) :
    m = m' :=
  t.members.eq_of_clash hm hm' (Or.inr (Or.inl ⟨horg, huser⟩))

theorem OrgMember.eq_of_id {m m' : OrgMember} (hm : m ∈ t.members.rows)
    (hm' : m' ∈ t.members.rows) (hid : m.id = m'.id) : m = m' :=
  t.members.eq_of_clash hm hm' (Or.inl hid)

/-! ## Deletions -/

/-- The owners of the orgs that stay have stayed. -/
def OwnersStay (t t' : Tables) : Prop :=
  ∀ m ∈ t.members.rows, m.role = .owner → (∃ o ∈ t'.orgs.rows, o.id = m.orgId) →
    m ∈ t'.members.rows

theorem SoleOwners.of_shrinks (h : SoleOwners t) (hshrinks : Shrinks t t')
    (hstay : OwnersStay t t') : SoleOwners t' := by
  intro org' horg'
  obtain ⟨org, horg, hid, _⟩ := hshrinks.orgs org' horg'
  rw [← hid]
  refine (h org horg).congr fun m => ⟨fun hm => ⟨hshrinks.members m hm.1, hm.2⟩, fun hm => ?_⟩
  exact ⟨hstay m hm.1 hm.2.2 ⟨org', horg', hid.symm.trans hm.2.1.symm⟩, hm.2⟩

theorem NoOwnerInvited.of_shrinks (h : NoOwnerInvited t) (hshrinks : Shrinks t t') :
    NoOwnerInvited t' := by
  intro i' hi'
  obtain ⟨i, hi, _, hrole⟩ := hshrinks.invitations i' hi'
  rw [← hrole]
  exact h i hi

theorem ownersStay_deleteOrgBatch (t : Tables) (orgIds : List UUID) :
    OwnersStay t (t.deleteOrgBatch orgIds) := by
  rintro m hm _ ⟨o, ho, hid⟩
  refine Tables.mem_members_deleteOrgBatch.mpr ⟨hm, ?_⟩
  rw [← hid]
  unfold Tables.deleteOrgBatch at ho
  exact (Tables.mem_orgs_deleteOrgs.mp ho).2

theorem ownersStay_deleteOrgsCreatedBy (t : Tables) (userId : UUID) :
    OwnersStay t (t.deleteOrgsCreatedBy userId) := by
  rcases t.deleteOrgsCreatedBy_cases userId with ⟨_, hsame⟩ | hdeleted
  · rw [hsame]
    exact fun m hm _ _ => hm
  · rw [hdeleted]
    exact ownersStay_deleteOrgBatch _ _

/-- Who owns no org that stays can be deleted. -/
theorem ownersStay_deleteUsers {userId : UUID}
    (h : ∀ m ∈ t.members.rows, m.userId = userId → m.role = .owner →
      ∀ o ∈ t.orgs.rows, o.id ≠ m.orgId) : OwnersStay t (t.deleteUsers [userId]) := by
  rintro m hm hrole ⟨o', ho', hid⟩
  refine Tables.mem_members_deleteUsers.mpr ⟨hm, fun huser => ?_⟩
  obtain ⟨o, ho, hsame, _⟩ := Tables.shrinks_deleteUsers.orgs o' ho'
  exact h m hm (List.mem_singleton.mp huser) hrole o ho (hsame.trans hid)

theorem ownersStay_deleteMembershipsOf {userId : UUID}
    (h : ∀ m ∈ t.members.rows, m.userId = userId → m.role = .owner →
      ∀ o ∈ t.orgs.rows, o.id ≠ m.orgId) : OwnersStay t (t.deleteMembershipsOf userId) := by
  rintro m hm hrole ⟨o, ho, hid⟩
  exact Tables.mem_members_deleteMembershipsOf.mpr ⟨hm, fun huser => h m hm huser hrole o ho hid⟩

/-! ## What keeps the owners -/

/-- The invariant of the runs. -/
structure Owned (t : Tables) : Prop where
  owners : SoleOwners t
  invited : NoOwnerInvited t

theorem Owned.of_shrinks (h : Owned t) (hshrinks : Shrinks t t') (hstay : OwnersStay t t') :
    Owned t' :=
  ⟨h.owners.of_shrinks hshrinks hstay, h.invited.of_shrinks hshrinks⟩

theorem Owned.of_same (h : Owned t) (horgs : t'.orgs = t.orgs) (hmembers : t'.members = t.members)
    (hinvitations : t'.invitations = t.invitations) : Owned t' := by
  constructor
  · intro org horg
    rw [horgs] at horg
    refine (h.owners org horg).congr fun m => ?_
    unfold OwnerOf
    rw [hmembers]
  · intro i hi
    rw [hinvitations] at hi
    exact h.invited i hi

theorem Owned.of_mirrorWrites {db db' : Db} (h : Owned db.toTables) (hmirrors : MirrorWrites db db') :
    Owned db'.toTables := by
  have hframe := hmirrors.frame
  exact h.of_same (by rw [hframe]) (by rw [hframe]) (by rw [hframe])

/-- An org that is founded has its founder as its owner. -/
theorem Owned.of_founded {rt : Runtime σ} {c : TeamCheckout} {db db' : Db} {user : User}
    {slug : String} (h : Owned db.toTables) (hfounded : Founded rt c db db' user slug) :
    Owned db'.toTables := by
  obtain ⟨horgs, hmembers, _, hframe⟩ := insertOrgWithOwner_eq_ok hfounded.inserted
  have hnew : ∀ org ∈ db.orgs.rows, org.id ≠ rt.orgId := by
    intro org horg hid
    have hstored : newOrg rt user c.orgName slug ∈ db'.orgs.rows := by
      rw [horgs]
      exact List.mem_append_right _ (List.mem_singleton_self _)
    have hpair := db'.orgs.valid.2
    rw [horgs] at hpair
    exact (List.pairwise_append.mp hpair).2.2 org horg _ (List.mem_singleton_self _) (Or.inl hid)
  constructor
  · intro org horg
    rw [horgs] at horg
    rcases List.mem_append.mp horg with hold | hfirst
    · refine (h.owners org hold).congr fun m => ?_
      unfold OwnerOf
      rw [hmembers, List.mem_append, List.mem_singleton]
      constructor
      · rintro ⟨hm | rfl, horgId, hrole⟩
        · exact ⟨hm, horgId, hrole⟩
        · exact absurd horgId.symm (hnew org hold)
      · rintro ⟨hm, howner⟩
        exact ⟨Or.inl hm, howner⟩
    · rw [List.mem_singleton.mp hfirst]
      have hmem : ownerMembership rt user ∈ db'.members.rows := by
        rw [hmembers]
        exact List.mem_append_right _ (List.mem_singleton_self _)
      refine .of_unique ⟨hmem, rfl, rfl⟩ fun m hm => ?_
      -- nobody can have been a member of an org that was not there
      have hm₁ := hm.1
      rw [hmembers] at hm₁
      rcases List.mem_append.mp hm₁ with hold | hfirst
      · obtain ⟨o, ho, hid⟩ := refers_some.mp (db.integral.members m hold).1
        exact absurd (hid.trans hm.2.1) (hnew o ho)
      · exact List.mem_singleton.mp hfirst
  · intro i hi
    have hinvitations : db'.invitations = db.invitations := by rw [hframe]
    rw [hinvitations] at hi
    exact h.invited i hi

/-! ### Requests to members -/

/-- A member who is rewritten was no owner, and is none. -/
theorem owned_of_patch {db db' : Db} {data : MemberUpdate} {target : OrgMember}
    (h : Owned db.toTables) (htarget : target ∈ db.members.rows) (hrole : target.role ≠ .owner)
    (hrewritten : MemberRewritten db db' (rewriteRow target.id data.apply)) :
    Owned db'.toTables := by
  have horgs : db'.orgs = db.orgs := by rw [hrewritten.frame]
  have hinvitations : db'.invitations = db.invitations := by rw [hrewritten.frame]
  have happly : (data.apply target).role ≠ .owner := by
    unfold MemberUpdate.apply
    cases hdata : data.role with
    | none => exact hrole
    | some role =>
        intro howner
        exact data.assignable (hdata.trans (congrArg some howner))
  constructor
  · intro org horg
    rw [horgs] at horg
    refine (h.owners org horg).congr fun m => ?_
    unfold OwnerOf
    rw [hrewritten.rows, List.mem_map]
    constructor
    · rintro ⟨⟨old, hold, rfl⟩, horgId, howner⟩
      unfold rewriteRow at horgId howner ⊢
      split
      next hid =>
          rw [OrgMember.eq_of_id hold htarget hid, if_pos rfl] at howner
          exact absurd howner happly
      next hid =>
          rw [if_neg hid] at horgId howner
          exact ⟨hold, horgId, howner⟩
    · rintro ⟨hm, horgId, howner⟩
      refine ⟨⟨m, hm, ?_⟩, horgId, howner⟩
      unfold rewriteRow
      rw [if_neg]
      intro hid
      rw [OrgMember.eq_of_id hm htarget hid] at howner
      exact hrole howner
  · intro i hi
    rw [hinvitations] at hi
    exact h.invited i hi

/-- The ownership goes from the caller to the target. -/
theorem owned_of_transfer {db db' : Db} {userId targetUserId : UUID} {caller target : OrgMember}
    (h : Owned db.toTables) (hparties : Parties orgId userId targetUserId db caller target)
    (hcaller : caller.role = .owner) (htarget : target.role = .admin)
    (hrewritten : MemberRewritten db db'
      fun m => rewriteRow caller.id demote (rewriteRow target.id promote m)) :
    Owned db'.toTables := by
  have horgs : db'.orgs = db.orgs := by rw [hrewritten.frame]
  have hinvitations : db'.invitations = db.invitations := by rw [hrewritten.frame]
  have hne : caller.id ≠ target.id := by
    intro hid
    rw [OrgMember.eq_of_id hparties.caller_mem hparties.target_mem hid, htarget] at hcaller
    cases hcaller
  -- what becomes of a row: the target is promoted, the caller demoted, the rest stay
  have htargetRow : rewriteRow caller.id demote (rewriteRow target.id promote target) =
      promote target := by
    simp [rewriteRow, promote, Ne.symm hne]
  have hcallerRow : rewriteRow caller.id demote (rewriteRow target.id promote caller) =
      demote caller := by
    simp [rewriteRow, hne]
  have hother : ∀ m, m.id ≠ caller.id → m.id ≠ target.id →
      rewriteRow caller.id demote (rewriteRow target.id promote m) = m := by
    intro m hc ht
    simp [rewriteRow, hc, ht]
  have howner : ∀ orgId' m', OwnerOf db'.toTables orgId' m' ↔
      (m' = promote target ∧ orgId' = orgId) ∨
        (OwnerOf db.toTables orgId' m' ∧ m' ≠ caller) := by
    intro orgId' m'
    unfold OwnerOf
    rw [hrewritten.rows, List.mem_map]
    constructor
    · rintro ⟨⟨m, hm, rfl⟩, horgId, hrole⟩
      by_cases hc : m.id = caller.id
      · rw [OrgMember.eq_of_id hm hparties.caller_mem hc, hcallerRow] at hrole
        cases hrole
      · by_cases ht : m.id = target.id
        · rw [OrgMember.eq_of_id hm hparties.target_mem ht, htargetRow] at horgId ⊢
          exact Or.inl ⟨rfl, horgId.symm.trans hparties.target_org⟩
        · rw [hother m hc ht] at horgId hrole ⊢
          exact Or.inr ⟨⟨hm, horgId, hrole⟩, fun hsame => hc (by rw [hsame])⟩
    · rintro (⟨rfl, rfl⟩ | ⟨⟨hm, horgId, hrole⟩, hsame⟩)
      · exact ⟨⟨target, hparties.target_mem, htargetRow⟩, hparties.target_org, rfl⟩
      · refine ⟨⟨m', hm, hother m' (fun hc => hsame ?_) fun ht => ?_⟩, horgId, hrole⟩
        · exact OrgMember.eq_of_id hm hparties.caller_mem hc
        · rw [OrgMember.eq_of_id hm hparties.target_mem ht, htarget] at hrole
          cases hrole
  have hcallerOwns : OwnerOf db.toTables orgId caller :=
    ⟨hparties.caller_mem, hparties.caller_org, hcaller⟩
  constructor
  · intro org horg
    rw [horgs] at horg
    obtain ⟨owner, hown, _, hunique⟩ := h.owners org horg
    by_cases hthis : org.id = orgId
    · rw [hthis] at hown hunique ⊢
      refine .of_unique ((howner _ _).mpr (Or.inl ⟨rfl, rfl⟩)) fun m' hm' => ?_
      rcases (howner _ _).mp hm' with ⟨hm', _⟩ | ⟨hm', hsame⟩
      · exact hm'
      · exact absurd ((hunique m' hm').trans (hunique caller hcallerOwns).symm) hsame
    · refine .of_unique ((howner _ _).mpr (Or.inr ⟨hown, fun hsame => hthis ?_⟩)) fun m' hm' => ?_
      · rw [← hown.2.1, hsame, hparties.caller_org]
      · rcases (howner _ _).mp hm' with ⟨_, hid⟩ | ⟨hm', _⟩
        · exact absurd hid hthis
        · exact hunique m' hm'
  · intro i hi
    rw [hinvitations] at hi
    exact h.invited i hi

/-- A removed member owns nothing that stays. -/
theorem owned_of_remove {db db' : Db} {userId memberUserId : UUID} {caller target : OrgMember}
    (h : Owned db.toTables) (hparties : Parties orgId userId memberUserId db caller target)
    (hrole : target.role ≠ .owner) (helsewhere : ∀ m ∈ db.members.rows, m.userId = memberUserId →
      m.orgId ≠ orgId → m.role ≠ .owner)
    (hdeleted : db'.toTables = db.toTables.deleteUsers [memberUserId]) : Owned db'.toTables := by
  rw [hdeleted]
  refine h.of_shrinks Tables.shrinks_deleteUsers (ownersStay_deleteUsers ?_)
  intro m hm huser howner
  by_cases horg : m.orgId = orgId
  · have hsame : m = target := OrgMember.eq_of_user hm hparties.target_mem
      (horg.trans hparties.target_org.symm) (huser.trans hparties.target_user.symm)
    rw [hsame] at howner
    exact absurd howner hrole
  · exact absurd howner (helsewhere m hm huser horg)

/-! ### Invitations -/

/-- Invitations come and go, and change their status; their roles stay. -/
theorem owned_of_invitations {db db' : Db} (h : Owned db.toTables)
    (hframe : db'.toTables = { db.toTables with invitations := db'.invitations })
    (hrows : ∀ i' ∈ db'.invitations.rows, i'.role ≠ .owner ∨
      ∃ i ∈ db.invitations.rows, i.role = i'.role) : Owned db'.toTables := by
  have horgs : db'.orgs = db.orgs := by rw [hframe]
  have hmembers : db'.members = db.members := by rw [hframe]
  constructor
  · intro org horg
    rw [horgs] at horg
    refine (h.owners org horg).congr fun m => ?_
    unfold OwnerOf
    rw [hmembers]
  · intro i' hi'
    rcases hrows i' hi' with hrole | ⟨i, hi, hsame⟩
    · exact hrole
    · rw [← hsame]
      exact h.invited i hi

theorem owned_of_statusSet {db db' : Db} {invitationId : UUID} {status : InvitationStatus}
    (h : Owned db.toTables) (hset : StatusSet db db' invitationId status) : Owned db'.toTables := by
  refine owned_of_invitations h hset.frame fun i' hi' => ?_
  rw [hset.rows] at hi'
  obtain ⟨i, hi, rfl⟩ := List.mem_map.mp hi'
  refine Or.inr ⟨i, hi, ?_⟩
  split <;> rfl

/-- Who accepts an invitation becomes a member, never an owner. -/
theorem owned_of_accepted {rt : Runtime σ} {invitation : Invitation} {fullName : String}
    {db db' : Db} (h : Owned db.toTables) (hinvitation : invitation ∈ db.invitations.rows)
    (haccepted : Accepted rt invitation fullName db db') : Owned db'.toTables := by
  have horgs : db'.orgs = db.orgs := by rw [haccepted.frame]
  constructor
  · intro org horg
    rw [horgs] at horg
    refine (h.owners org horg).congr fun m => ?_
    unfold OwnerOf
    rw [haccepted.members, List.mem_append, List.mem_singleton]
    constructor
    · rintro ⟨hm | rfl, howner⟩
      · exact ⟨hm, howner⟩
      · exact absurd howner.2 (h.invited invitation hinvitation)
    · rintro ⟨hm, howner⟩
      exact ⟨Or.inl hm, howner⟩
  · intro i' hi'
    rw [haccepted.invitations] at hi'
    obtain ⟨i, hi, rfl⟩ := List.mem_map.mp hi'
    have hrole := h.invited i hi
    split <;> exact hrole

theorem owned_of_invitation {request : InvitationRequest σ} {db db' : Db} (h : Owned db.toTables)
    (hstep : InvitationStep db request db') : Owned db'.toTables := by
  cases hstep with
  | @create rt userId orgId data caller db' hcaller horg huser hallowed hrows hframe =>
      refine owned_of_invitations h hframe fun i' hi' => ?_
      rw [hrows] at hi'
      rcases List.mem_append.mp hi' with hold | hnew
      · exact Or.inr ⟨i', hold, rfl⟩
      · rw [List.mem_singleton.mp hnew]
        exact Or.inl data.assignable
  | accept hpending haccepted =>
      exact owned_of_accepted h (Db.pendingByToken_eq_some hpending).1 haccepted
  | expire hpending hset => exact owned_of_statusSet h hset
  | cancel hpending hset => exact owned_of_statusSet h hset
  | decline hpending hset => exact owned_of_statusSet h hset

/-! ### Accounts -/

/-- An account whose owner has created what they own can be deleted, as far as the
deletion comes. -/
theorem owned_of_erased {userId : UUID} (h : Owned t)
    (hcreated : ∀ m ∈ t.members.rows, m.userId = userId → m.role = .owner →
      m.orgId ∈ t.createdBy userId) (stage : ℕ) : Owned (t.erased userId stage) := by
  have h₁ : Owned (t.deleteCustomerOf userId) := by
    rcases t.deleteCustomerOf_cases userId with hsame | ⟨customer, _, _, hdeleted⟩
    · rwa [hsame]
    · rw [hdeleted]
      exact h.of_same rfl rfl rfl
  have hcreated₁ : ∀ m ∈ (t.deleteCustomerOf userId).members.rows, m.userId = userId →
      m.role = .owner → m.orgId ∈ (t.deleteCustomerOf userId).createdBy userId := by
    rcases t.deleteCustomerOf_cases userId with hsame | ⟨customer, _, _, hdeleted⟩
    · rwa [hsame]
    · rw [hdeleted]
      exact hcreated
  have h₂ := h₁.of_shrinks Tables.shrinks_deleteOrgsCreatedBy
    (ownersStay_deleteOrgsCreatedBy _ userId)
  -- the orgs that the user owned are gone with the orgs that the user created
  have hnone : ∀ m ∈ ((t.deleteCustomerOf userId).deleteOrgsCreatedBy userId).members.rows,
      m.userId = userId → m.role ≠ .owner := by
    intro m hm huser howner
    obtain ⟨hmem, hstays⟩ := Tables.mem_members_deleteOrgsCreatedBy.mp hm
    exact hstays (hcreated₁ m hmem huser howner)
  have h₃ := h₂.of_shrinks Tables.shrinks_deleteMembershipsOf
    (ownersStay_deleteMembershipsOf fun m hm huser howner => absurd howner (hnone m hm huser))
  have h₄ := h₃.of_shrinks Tables.shrinks_deleteUsers (ownersStay_deleteUsers
    fun m hm huser => absurd huser (Tables.mem_members_deleteMembershipsOf.mp hm).2)
  unfold Tables.erased
  split
  · exact h
  · exact h₁
  · exact h₂
  · exact h₃
  · exact h₄

/-! ## Runs -/

/-- Neither a removed member nor the user of a deleted account owns an org that stays. -/
def KeepsOwners (db : Db) : OrgOperation σ → Prop
  | .member orgId (.remove _ memberUserId) => ∀ m ∈ db.members.rows, m.userId = memberUserId →
      m.orgId ≠ orgId → m.role ≠ .owner
  | .deleteAccount _ userId => ∀ m ∈ db.members.rows, m.userId = userId → m.role = .owner →
      m.orgId ∈ db.createdBy userId
  | _ => True

instance (db : Db) (operation : OrgOperation σ) : Decidable (KeepsOwners db operation) :=
  match operation with
  | .member orgId (.remove _ memberUserId) =>
      inferInstanceAs (Decidable (∀ m ∈ db.members.rows, m.userId = memberUserId →
        m.orgId ≠ orgId → m.role ≠ .owner))
  | .deleteAccount _ userId =>
      inferInstanceAs (Decidable (∀ m ∈ db.members.rows, m.userId = userId → m.role = .owner →
        m.orgId ∈ db.createdBy userId))
  | .member _ (.patch ..) | .member _ (.transfer ..) | .invitation _ | .teamCheckout ..
  | .mirror .. | .deleteOrg .. | .subscriptionEnded _ => isTrue trivial

theorem owned_of_step {db db' : Db} {operation : OrgOperation σ} (h : Owned db.toTables)
    (hkeeps : KeepsOwners db operation) (hstep : OrgStep db operation db') :
    Owned db'.toTables := by
  cases hstep with
  | refused => exact h
  | mirrored hmirrors => exact h.of_mirrorWrites hmirrors
  | founded hfounded hmirrors => exact (h.of_founded hfounded).of_mirrorWrites hmirrors
  | member hstep =>
      cases hstep with
      | @patch userId memberUserId data caller target db' hparties hmanages hassigns hrewritten =>
          refine owned_of_patch h hparties.target_mem (fun howner => ?_) hrewritten
          have hrank := caller.role.rank_le
          rw [howner] at hmanages
          exact absurd hmanages (by simpa [OrgRole.rank] using hrank)
      | remove hparties _ hrole hdeleted => exact owned_of_remove h hparties hrole hkeeps hdeleted
      | transfer hparties howner hadmin hrewritten =>
          exact owned_of_transfer h hparties howner hadmin hrewritten
  | invitation hstep => exact owned_of_invitation h hstep
  | deleted _ hdeleted =>
      rw [hdeleted]
      exact h.of_shrinks Tables.shrinks_deleteOrgBatch (ownersStay_deleteOrgBatch _ _)
  | ended hdeleted =>
      rw [hdeleted]
      exact h.of_shrinks Tables.shrinks_deleteOrgBatch (ownersStay_deleteOrgBatch _ _)
  | erased stage _ herased =>
      rw [herased]
      exact owned_of_erased h hkeeps stage

/-- Before the first org there is nobody to own one. -/
theorem Owned.start {db : Db} (h : db.orgs.rows = []) : Owned db.toTables := by
  constructor
  · intro org horg
    rw [h] at horg
    cases horg
  · intro i hi
    obtain ⟨o, ho, _⟩ := refers_some.mp (db.integral.invitations i hi).1
    rw [h] at ho
    cases ho

/-- **Every org always has exactly one owner, who can bill**, in every state of every
run of complete operations that begins before the first org and in which nobody is
deleted who owns an org that stays. -/
theorem sole_owners {w : World σ} (hstart : w.db.orgs.rows = [])
    {operations : List (OrgOperation σ)} (hkeeps : Runs.Steps OrgOperation.after
      (fun w operation => KeepsOwners w.db operation) w operations) :
    Runs.Always OrgOperation.after (fun w => SoleOwners w.db.toTables) w operations := by
  have howned : Runs.Always OrgOperation.after (fun w => Owned w.db.toTables) w operations := by
    refine Runs.always_of_steps (fun w operation h hkeeps => ?_) (Owned.start hstart) hkeeps
    exact owned_of_step h hkeeps (operation.step w)
  exact howned.mono fun _ h => h.owners

/-! ## Two runs -/

/-- The buyer founds an org, and an admin joins. -/
def staffed : List (OrgOperation Unit) :=
  [.teamCheckout (sampleRuntime teamStripe 0 0) buyerCheckout,
    .invitation (.create (sampleRuntime teamStripe 1 0) buyer.id 1001#128
      ⟨"admin@example.com", .admin, OrgRole.admin_ne_owner⟩),
    .invitation (.accept (sampleRuntime teamStripe 2 0) "token-1" "Admin")]

/-- The account that accepting the invitation has created. -/
def adminId : UUID := 1022#128

/-- The ownership goes to the admin, who deletes their account. -/
def ownerLeaves : List (OrgOperation Unit) :=
  staffed ++ [.member 1001#128 (.transfer buyer.id adminId),
    .deleteAccount (sampleRuntime noStripe 3 0) adminId]

/-- The org stays behind without an owner. -/
theorem not_sole_owners : sampleWorld.db.orgs.rows = [] ∧
    ¬ SoleOwners (Runs.run OrgOperation.after sampleWorld ownerLeaves).db.toTables := by
  constructor
  · rfl
  · decide +kernel

/-- The buyer, who has created the org and owns it, deletes their account. -/
def founderLeaves : List (OrgOperation Unit) :=
  staffed ++ [.deleteAccount (sampleRuntime (fun _ => .ok .null) 3 0) buyer.id]

theorem sole_owners_founder_leaves : Runs.Always OrgOperation.after
    (fun w => SoleOwners w.db.toTables) sampleWorld founderLeaves :=
  sole_owners rfl (by decide +kernel)

end Saasmint
