import Saasmint.Orgs.Orphans

/-!
# Deleting orgs together and one by one

`delete_orgs_created_by_user` asks once, for all the orgs of a batch, who has no other
membership and no personal subscription; `delete_org` asks for one org at a time, when
the members of the orgs before it are gone already.  A member of two orgs of the batch
is not deleted with the first of them, but is with the last.

`Reduced` says what is left when users and orgs go.  It composes, so that a sequence of
deletions is one deletion of all that go, and it determines what is left, so that it
is enough to know that the same users go.
-/

namespace Saasmint

open Atomic Relational

variable {σ : Type} {t t' t'' : Tables} {goneIds goneIds' orgIds orgIds' : List UUID}
  {userId k : UUID}

/-! ## References to users who go -/

/-- A reference that is set to `NULL` when its user goes. -/
def clearRef (goneIds : List UUID) (id : Option UUID) : Option UUID :=
  if Tables.goneUser goneIds id then none else id

theorem mem_clearRef {id : Option UUID} : k ∈ clearRef goneIds id ↔ k ∈ id ∧ k ∉ goneIds := by
  unfold clearRef
  split
  next hgone =>
      obtain ⟨k', hk', hmem⟩ := Tables.goneUser_eq_true.mp hgone
      refine ⟨nofun, fun h => absurd hmem ?_⟩
      have hsame : k' = k := Option.some.inj (hk'.symm.trans h.1)
      rw [hsame]
      exact h.2
  next hkept =>
      have hkept := Tables.goneUser_eq_false.mp (Bool.eq_false_iff.mpr hkept)
      exact ⟨fun h => ⟨h, hkept k h⟩, And.left⟩

theorem clearRef_clearRef (id : Option UUID) :
    clearRef goneIds' (clearRef goneIds id) = clearRef (goneIds ++ goneIds') id := by
  refine Option.ext fun k => ?_
  simp only [← Option.mem_def, mem_clearRef, List.mem_append, not_or, and_assoc]

theorem clearRef_congr (h : ∀ k, k ∈ goneIds ↔ k ∈ goneIds') (id : Option UUID) :
    clearRef goneIds id = clearRef goneIds' id := by
  refine Option.ext fun k => ?_
  simp only [← Option.mem_def, mem_clearRef, h]

@[simp] theorem clearRef_nil (id : Option UUID) : clearRef [] id = id := by
  refine Option.ext fun k => ?_
  simp [← Option.mem_def, mem_clearRef]

def Org.clearCreator (goneIds : List UUID) (o : Org) : Org :=
  { o with createdById := clearRef goneIds o.createdById }

def Invitation.clearInviter (goneIds : List UUID) (i : Invitation) : Invitation :=
  { i with invitedById := clearRef goneIds i.invitedById }

/-! ## What is left -/

/-- The users and the orgs are gone, with the memberships, invitations and customers
that are theirs; references to the users are cleared. -/
structure Reduced (goneIds orgIds : List UUID) (t t' : Tables) : Prop where
  gone : GoneWith (OwnedBy goneIds orgIds) goneIds t t'
  users : t'.users.rows = t.users.rows.filter fun u => u.id ∉ goneIds
  orgs : t'.orgs.rows = (t.orgs.rows.filter fun o => o.id ∉ orgIds).map (Org.clearCreator goneIds)
  members : t'.members.rows =
    t.members.rows.filter fun m => decide (m.userId ∉ goneIds ∧ m.orgId ∉ orgIds)
  invitations : t'.invitations.rows =
    (t.invitations.rows.filter fun i => i.orgId ∉ orgIds).map (Invitation.clearInviter goneIds)
  customers : t'.customers.rows = t.customers.rows.filter fun c => decide ¬ OwnedBy goneIds orgIds c

theorem ownedBy_append {c : StripeCustomer} : OwnedBy (goneIds ++ goneIds') (orgIds ++ orgIds') c ↔
    OwnedBy goneIds orgIds c ∨ OwnedBy goneIds' orgIds' c := by
  unfold OwnedBy
  simp only [List.mem_append]
  constructor
  · rintro (⟨k, hk, h | h⟩ | ⟨k, hk, h | h⟩)
    · exact Or.inl (Or.inl ⟨k, hk, h⟩)
    · exact Or.inr (Or.inl ⟨k, hk, h⟩)
    · exact Or.inl (Or.inr ⟨k, hk, h⟩)
    · exact Or.inr (Or.inr ⟨k, hk, h⟩)
  · rintro ((⟨k, hk, h⟩ | ⟨k, hk, h⟩) | (⟨k, hk, h⟩ | ⟨k, hk, h⟩))
    · exact Or.inl ⟨k, hk, Or.inl h⟩
    · exact Or.inr ⟨k, hk, Or.inl h⟩
    · exact Or.inl ⟨k, hk, Or.inr h⟩
    · exact Or.inr ⟨k, hk, Or.inr h⟩

theorem ownedBy_congr (husers : ∀ k, k ∈ goneIds ↔ k ∈ goneIds') (horgs : ∀ k, k ∈ orgIds ↔ k ∈ orgIds')
    (c : StripeCustomer) : OwnedBy goneIds orgIds c ↔ OwnedBy goneIds' orgIds' c := by
  simp only [OwnedBy, husers, horgs]

namespace Reduced

theorem trans (h : Reduced goneIds orgIds t t') (h' : Reduced goneIds' orgIds' t' t'') :
    Reduced (goneIds ++ goneIds') (orgIds ++ orgIds') t t'' := by
  refine ⟨?_, ?_, ?_, ?_, ?_, ?_⟩
  · exact (h.gone.trans h'.gone).congr (fun _ _ => ownedBy_append.symm) fun _ => Iff.rfl
  · rw [h'.users, h.users, List.filter_filter]
    refine List.filter_congr fun u _ => ?_
    simp [Bool.and_comm]
  · have hclear : Org.clearCreator goneIds' ∘ Org.clearCreator goneIds =
        Org.clearCreator (goneIds ++ goneIds') := by
      funext o
      simp [Org.clearCreator, clearRef_clearRef]
    rw [h'.orgs, h.orgs, List.filter_map, List.map_map, hclear, List.filter_filter]
    refine congrArg _ (List.filter_congr fun o _ => ?_)
    show (decide (o.id ∉ orgIds') && decide (o.id ∉ orgIds)) = _
    simp [Bool.and_comm]
  · rw [h'.members, h.members, List.filter_filter]
    refine List.filter_congr fun m _ => ?_
    rw [Bool.eq_iff_iff]
    simp only [Bool.and_eq_true, decide_eq_true_eq, List.mem_append, not_or]
    tauto
  · have hclear : Invitation.clearInviter goneIds' ∘ Invitation.clearInviter goneIds =
        Invitation.clearInviter (goneIds ++ goneIds') := by
      funext i
      simp [Invitation.clearInviter, clearRef_clearRef]
    rw [h'.invitations, h.invitations, List.filter_map, List.map_map, hclear, List.filter_filter]
    refine congrArg _ (List.filter_congr fun i _ => ?_)
    show (decide (i.orgId ∉ orgIds') && decide (i.orgId ∉ orgIds)) = _
    simp [Bool.and_comm]
  · rw [h'.customers, h.customers, List.filter_filter]
    refine List.filter_congr fun c _ => ?_
    simp [ownedBy_append, Bool.and_comm]

theorem congr (h : Reduced goneIds orgIds t t') (husers : ∀ k, k ∈ goneIds ↔ k ∈ goneIds')
    (horgs : ∀ k, k ∈ orgIds ↔ k ∈ orgIds') : Reduced goneIds' orgIds' t t' := by
  have hcreator : Org.clearCreator goneIds = Org.clearCreator goneIds' := by
    funext o
    simp only [Org.clearCreator, clearRef_congr husers]
  have hinviter : Invitation.clearInviter goneIds = Invitation.clearInviter goneIds' := by
    funext i
    simp only [Invitation.clearInviter, clearRef_congr husers]
  refine ⟨?_, ?_, ?_, ?_, ?_, ?_⟩
  · exact h.gone.congr (fun c _ => ownedBy_congr husers horgs c) husers
  · simpa only [husers] using h.users
  · simpa only [horgs, hcreator] using h.orgs
  · simpa only [husers, horgs] using h.members
  · simpa only [horgs, hinviter] using h.invitations
  · simpa only [ownedBy_congr husers horgs] using h.customers

theorem refl (t : Tables) : Reduced [] [] t t := by
  have hcreator : Org.clearCreator [] = id := by
    funext o
    simp [Org.clearCreator]
  have hinviter : Invitation.clearInviter [] = id := by
    funext i
    simp [Invitation.clearInviter]
  refine ⟨?_, ?_, ?_, ?_, ?_, ?_⟩
  · exact (GoneWith.refl t).congr (fun c _ => by simp [OwnedBy]) fun _ => Iff.rfl
  · simp
  · simp [hcreator]
  · simp
  · simp [hinviter]
  · simp [OwnedBy]

end Reduced

/-! ## A batch -/

namespace Tables

theorem reduced_deleteOrgBatch (t : Tables) (orgIds : List UUID) :
    Reduced (t.deletableUserIdsOf orgIds) orgIds t (t.deleteOrgBatch orgIds) := by
  refine ⟨goneWith_deleteOrgBatch orgIds, ?_, ?_, ?_, ?_, ?_⟩
  · refine List.filter_congr fun u _ => ?_
    simp [deletableUserIdsOf_cancelInvitationsOf]
  · refine List.filter_map.trans (congrArg _ (List.filter_congr fun o _ => ?_))
    simp
  · refine List.filter_filter.trans (List.filter_congr fun m _ => ?_)
    simp [deletableUserIdsOf_cancelInvitationsOf, Bool.and_comm]
  · -- an invitation that is cancelled goes with its org
    refine List.filter_map.trans (congrArg _ (Table.filter_map_fixed (fun i _ => ?_) fun i _ hi => ?_))
    · have horg : (if i.orgId ∈ orgIds ∧ i.status = .pending then i.withStatus .cancelled
          else i).orgId = i.orgId := by
        split <;> rfl
      show (!orgIds.contains (if i.orgId ∈ orgIds ∧ i.status = .pending then
        i.withStatus .cancelled else i).orgId) = _
      rw [horg]
      simp
    · exact if_neg fun h => of_decide_eq_true hi h.1
  · refine List.filter_filter.trans (List.filter_congr fun c _ => ?_)
    show (!goneUser orgIds c.orgId && !goneUser (t.deletableUserIdsOf orgIds) c.userId) = _
    have howned : OwnedBy (t.deletableUserIdsOf orgIds) orgIds c ↔
        goneUser (t.deletableUserIdsOf orgIds) c.userId = true ∨ goneUser orgIds c.orgId = true := by
      rw [goneUser_eq_true, goneUser_eq_true]
      exact Iff.rfl
    rw [Bool.eq_iff_iff]
    simp [howned, and_comm]

/-- Who goes with the second batch, after the first, or has gone with the first, goes with
the two together: what they had left after the first is all in the second. -/
theorem mem_deletableUserIdsOf_append :
    k ∈ t.deletableUserIdsOf (orgIds ++ orgIds') ↔ k ∈ t.deletableUserIdsOf orgIds ∨
      k ∈ (t.deleteOrgBatch orgIds).deletableUserIdsOf orgIds' := by
  have hpays : k ∉ t.deletableUserIdsOf orgIds →
      (t.deleteOrgBatch orgIds).hasPersonalSub k = t.hasPersonalSub k := by
    intro hk
    refine (goneWith_deleteOrgBatch orgIds).hasPersonalSub_eq hk fun c hc huser howned => ?_
    rcases howned with ⟨k', hk', hmem⟩ | ⟨orgId, horg, _⟩
    · rw [Option.mem_def, huser] at hk'
      exact hk (Option.some.inj hk' ▸ hmem)
    · rw [StripeCustomer.userId_eq_none hc horg] at huser
      cases huser
  by_cases hfirst : k ∈ t.deletableUserIdsOf orgIds
  · refine iff_of_true ?_ (Or.inl hfirst)
    obtain ⟨⟨m, hm, horg, huser⟩, hall, hpersonal⟩ := mem_deletableUserIdsOf.mp hfirst
    refine mem_deletableUserIdsOf.mpr ⟨⟨m, hm, List.mem_append_left _ horg, huser⟩, ?_, hpersonal⟩
    exact fun m hm huser => List.mem_append_left _ (hall m hm huser)
  · rw [or_iff_right hfirst, mem_deletableUserIdsOf, mem_deletableUserIdsOf, hpays hfirst]
    simp only [mem_members_deleteOrgBatch]
    constructor
    · rintro ⟨⟨m, hm, horg, huser⟩, hall, hpersonal⟩
      -- a membership outside the first batch: the user would have gone with it otherwise
      have hsecond : ∃ m ∈ t.members.rows, m.userId = k ∧ m.orgId ∉ orgIds := by
        by_contra hnone
        have hinside : ∀ m ∈ t.members.rows, m.userId = k → m.orgId ∈ orgIds := by
          simpa using hnone
        exact hfirst (mem_deletableUserIdsOf.mpr
          ⟨⟨m, hm, hinside m hm huser, huser⟩, hinside, hpersonal⟩)
      obtain ⟨m', hm', huser', hleft⟩ := hsecond
      have horg' := (List.mem_append.mp (hall m' hm' huser')).resolve_left hleft
      refine ⟨⟨m', ⟨hm', hleft⟩, horg', huser'⟩, ?_, hpersonal⟩
      rintro m ⟨hm, hkept⟩ huser
      exact (List.mem_append.mp (hall m hm huser)).resolve_left hkept
    · rintro ⟨⟨m, ⟨hm, hleft⟩, horg, huser⟩, hall, hpersonal⟩
      refine ⟨⟨m, hm, List.mem_append_right _ horg, huser⟩, ?_, hpersonal⟩
      intro m hm huser
      by_cases hkept : m.orgId ∈ orgIds
      · exact List.mem_append_left _ hkept
      · exact List.mem_append_right _ (hall m ⟨hm, hkept⟩ huser)

/-! ## One by one -/

/-- The orgs are deleted one after another. -/
def deleteOrgEach (t : Tables) (orgIds : List UUID) : Tables :=
  orgIds.foldl (fun t orgId => t.deleteOrgBatch [orgId]) t

/-- By induction on the orgs that are left: what goes with the first, and what then goes
with the others, is what goes with all of them. -/
theorem reduced_deleteOrgEach (t : Tables) (orgIds : List UUID) :
    Reduced (t.deletableUserIdsOf orgIds) orgIds t (t.deleteOrgEach orgIds) := by
  induction orgIds generalizing t with
  | nil =>
      have hnobody : t.deletableUserIdsOf [] = [] := by
        simp [deletableUserIdsOf, Table.filter]
      rw [hnobody]
      exact .refl t
  | cons orgId rest ih =>
      have hfirst := reduced_deleteOrgBatch t [orgId]
      have hrest := ih (t.deleteOrgBatch [orgId])
      refine (hfirst.trans hrest).congr (fun k => ?_) fun k => ?_
      · rw [List.mem_append, ← mem_deletableUserIdsOf_append]
        rfl
      · rfl

end Tables

/-! ## What a deletion of orgs is for -/

/-- The user goes with the orgs: a member of one of them and of no other org, who has no
active subscription of their own. -/
structure Tables.GoesWith (t : Tables) (orgIds : List UUID) (userId : UUID) : Prop where
  member : ∃ m ∈ t.members.rows, m.orgId ∈ orgIds ∧ m.userId = userId
  nowhereElse : ¬ ∃ m ∈ t.members.rows, m.orgId ∉ orgIds ∧ m.userId = userId
  notPaying : ¬ ∃ s ∈ t.subscriptions.rows, s.userId = some userId ∧ s.status.isActive = true ∧
    ∃ c ∈ t.customers.rows, s.stripeCustomerId = some c.id ∧ c.userId = some userId

/-- A reference to a user becomes `NULL` if the user goes, and stays if not. -/
def Cleared (goes : UUID → Prop) (id id' : Option UUID) : Prop := ∀ k, k ∈ id' ↔ k ∈ id ∧ ¬ goes k

/-- The orgs are gone, and the users that go with them; all else stays, but for
references to these users. -/
structure OrgsDeleted (orgIds : List UUID) (t t' : Tables) : Prop where
  users : ∀ u, u ∈ t'.users.rows ↔ u ∈ t.users.rows ∧ ¬ t.GoesWith orgIds u.id
  orgs : ∀ o', o' ∈ t'.orgs.rows ↔ ∃ o ∈ t.orgs.rows, o.id ∉ orgIds ∧
    ∃ creator, Cleared (t.GoesWith orgIds) o.createdById creator ∧
      o' = { o with createdById := creator }
  members : ∀ m, m ∈ t'.members.rows ↔ m ∈ t.members.rows ∧ m.orgId ∉ orgIds
  invitations : ∀ i', i' ∈ t'.invitations.rows ↔ ∃ i ∈ t.invitations.rows, i.orgId ∉ orgIds ∧
    ∃ inviter, Cleared (t.GoesWith orgIds) i.invitedById inviter ∧
      i' = { i with invitedById := inviter }

theorem Tables.goesWith_iff : t.GoesWith orgIds k ↔ k ∈ t.deletableUserIdsOf orgIds := by
  have hpaying : t.hasPersonalSub k = false ↔ ¬ ∃ s ∈ t.subscriptions.rows, s.userId = some k ∧
      s.status.isActive = true ∧
        ∃ c ∈ t.customers.rows, s.stripeCustomerId = some c.id ∧ c.userId = some k := by
    rw [← Bool.not_eq_true, not_iff_not]
    simp [hasPersonalSub, and_assoc]
  have hnowhere : (∀ m ∈ t.members.rows, m.userId = k → m.orgId ∈ orgIds) ↔
      ¬ ∃ m ∈ t.members.rows, m.orgId ∉ orgIds ∧ m.userId = k := by
    constructor
    · rintro hall ⟨m, hm, hout, huser⟩
      exact hout (hall m hm huser)
    · intro hnone m hm huser
      by_contra hout
      exact hnone ⟨m, hm, hout, huser⟩
  rw [mem_deletableUserIdsOf, hpaying, hnowhere]
  exact ⟨fun h => ⟨h.1, h.2, h.3⟩, fun h => ⟨h.1, h.2.1, h.2.2⟩⟩

theorem cleared_iff {id id' : Option UUID} : Cleared (t.GoesWith orgIds) id id' ↔
    id' = clearRef (t.deletableUserIdsOf orgIds) id := by
  unfold Cleared
  simp only [Tables.goesWith_iff, ← mem_clearRef]
  constructor
  · exact fun h => Option.ext h
  · rintro rfl k
    exact Iff.rfl

theorem Reduced.orgsDeleted (h : Reduced (t.deletableUserIdsOf orgIds) orgIds t t') :
    OrgsDeleted orgIds t t' := by
  refine ⟨fun u => ?_, fun o' => ?_, fun m => ?_, fun i' => ?_⟩
  · rw [h.users, List.mem_filter, decide_eq_true_eq, Tables.goesWith_iff]
  · rw [h.orgs, List.mem_map]
    simp only [List.mem_filter, decide_eq_true_eq, and_assoc, cleared_iff]
    refine exists_congr fun o => and_congr_right fun _ => and_congr_right fun _ => ?_
    constructor
    · rintro rfl
      exact ⟨_, rfl, rfl⟩
    · rintro ⟨_, rfl, rfl⟩
      rfl
  · rw [h.members, List.mem_filter, decide_eq_true_eq]
    refine and_congr_right fun hm => and_iff_right_of_imp fun hout hgone => ?_
    exact hout ((Tables.mem_deletableUserIdsOf.mp hgone).2.1 m hm rfl)
  · rw [h.invitations, List.mem_map]
    simp only [List.mem_filter, decide_eq_true_eq, and_assoc, cleared_iff]
    refine exists_congr fun i => and_congr_right fun _ => and_congr_right fun _ => ?_
    constructor
    · rintro rfl
      exact ⟨_, rfl, rfl⟩
    · rintro ⟨_, rfl, rfl⟩
      rfl

/-- The two have the same orgs and the same people. -/
structure SameAccounts (t t' : Tables) : Prop where
  orgs : t'.orgs = t.orgs
  members : t'.members = t.members
  invitations : t'.invitations = t.invitations
  users : t'.users = t.users
  customers : t'.customers = t.customers

/-- What is left is determined by who goes. -/
theorem Reduced.sameAccounts (h : Reduced goneIds orgIds t t') (h' : Reduced goneIds orgIds t t'') :
    SameAccounts t' t'' where
  orgs := Table.ext (h'.orgs.trans h.orgs.symm)
  members := Table.ext (h'.members.trans h.members.symm)
  invitations := Table.ext (h'.invitations.trans h.invitations.symm)
  users := Table.ext (h'.users.trans h.users.symm)
  customers := Table.ext (h'.customers.trans h.customers.symm)

/-! ## The two deletions -/

/-- `delete_org`, of one org after another. -/
def deleteOneByOne (rt : Runtime σ) (w : World σ) (orgIds : List UUID) : World σ :=
  orgIds.foldl (fun w orgId => (Fallible.exec (Session.deleteOrg rt orgId) w).2) w

/-- `delete_orgs_created_by_user`. -/
def deleteTogether (rt : Runtime σ) (w : World σ) (userId : UUID) : World σ :=
  (Fallible.exec (Session.deleteOrgsCreatedByUser rt userId) w).2

section

variable (rt : Runtime σ) (w : World σ)

/-- Whether or not its task is taken, a deletion has deleted the org. -/
theorem tables_deleteOrg (orgId : UUID) :
    (Fallible.exec (Session.deleteOrg rt orgId) w).2.db.toTables =
      w.db.toTables.deleteOrgBatch [orgId] := by
  have hintegral : (w.db.toTables.deleteOrgBatch [orgId]).Integral :=
    Tables.integral_deleteOrgBatch w.db.integral
  obtain ⟨db, hcommit⟩ := Db.commit_isOk hintegral
  have hdb : db.toTables = w.db.toTables.deleteOrgBatch [orgId] := Db.commit_eq_ok.mp hcommit
  have hends : (Session.deleteOrg rt orgId).Ends
      (fun _ w' => w'.db.toTables = w.db.toTables.deleteOrgBatch [orgId]) w := by
    unfold Session.deleteOrg
    simp only [Fallible.ends_bind, Session.ends_select, Fallible.follow_ok]
    have hqueued : (Session.queueCancels rt (uuidText orgId) (w.db.activeStripeSubId orgId).toList).Ends
        (fun _ w' => w'.db.toTables = w.db.toTables.deleteOrgBatch [orgId]) { w with db := db } :=
      Session.ends_queueCancels hdb fun _ _ => hdb
    unfold Fallible.Ends
    rw [Session.exec_commitOn, deleteOrgDbOnly_eq, hcommit]
    exact hqueued
  exact hends

theorem tables_deleteOneByOne (orgIds : List UUID) :
    (deleteOneByOne rt w orgIds).db.toTables = w.db.toTables.deleteOrgEach orgIds := by
  induction orgIds generalizing w with
  | nil => rfl
  | cons orgId rest ih =>
      calc (deleteOneByOne rt w (orgId :: rest)).db.toTables
        _ = (Fallible.exec (Session.deleteOrg rt orgId) w).2.db.toTables.deleteOrgEach rest :=
          ih (Fallible.exec (Session.deleteOrg rt orgId) w).2
        _ = (w.db.toTables.deleteOrgBatch [orgId]).deleteOrgEach rest := by
          rw [tables_deleteOrg]

theorem tables_deleteTogether (userId : UUID) :
    (deleteTogether rt w userId).db.toTables = w.db.toTables.deleteOrgsCreatedBy userId := by
  have hends : (Session.deleteOrgsCreatedByUser rt userId).Ends
      (fun _ w' => w'.db.toTables = w.db.toTables.deleteOrgsCreatedBy userId) w :=
    Session.ends_deleteOrgsCreatedByUser (fun _ hdb => hdb) fun _ _ _ hdb => hdb
  exact hends

end

theorem reduced_deleteOrgsCreatedBy (t : Tables) (userId : UUID) :
    Reduced (t.deletableUserIdsOf (t.createdBy userId)) (t.createdBy userId) t
      (t.deleteOrgsCreatedBy userId) := by
  rcases t.deleteOrgsCreatedBy_cases userId with ⟨hnone, hsame⟩ | hdeleted
  · rw [hsame, hnone]
    exact Tables.reduced_deleteOrgEach t []
  · rw [hdeleted]
    exact t.reduced_deleteOrgBatch _

/-- **Together and one by one.**  Whatever the order in which the orgs of a user are
deleted one after another:

* the same orgs, memberships, invitations, users and customers are left as when they
  are deleted together;
* either way, the users who go are the members of the orgs who are in no other org and
  do not pay for a plan of their own, and all else stays. -/
theorem delete_together_eq_one_by_one (rt : Runtime σ) (w : World σ) (userId : UUID)
    {orgIds : List UUID} (horder : orgIds.Perm (w.db.createdBy userId)) :
    SameAccounts (deleteTogether rt w userId).db.toTables (deleteOneByOne rt w orgIds).db.toTables ∧
      OrgsDeleted (w.db.createdBy userId) w.db.toTables
        (deleteTogether rt w userId).db.toTables ∧
      OrgsDeleted (w.db.createdBy userId) w.db.toTables
        (deleteOneByOne rt w orgIds).db.toTables := by
  have hids : ∀ k, k ∈ orgIds ↔ k ∈ w.db.createdBy userId := fun k => horder.mem_iff
  have hdeletable : ∀ k, k ∈ w.db.deletableUserIdsOf orgIds ↔
      k ∈ w.db.deletableUserIdsOf (w.db.createdBy userId) := by
    intro k
    simp only [Tables.mem_deletableUserIdsOf, hids]
  have htogether := reduced_deleteOrgsCreatedBy w.db.toTables userId
  have heach := (w.db.toTables.reduced_deleteOrgEach orgIds).congr hdeletable hids
  rw [← tables_deleteTogether rt w] at htogether
  rw [← tables_deleteOneByOne rt w] at heach
  exact ⟨htogether.sameAccounts heach, htogether.orgsDeleted, heach.orgsDeleted⟩

/-- Two orgs of the buyer, with a colleague who is in both of them. -/
def twoOrgsWorld : World Unit where
  db :=
    { toTables :=
        { sampleDb.toTables with
          users := ⟨[buyer, { buyer with id := 2#128, email := "colleague@example.com" }], by decide⟩
          orgs := ⟨[⟨50#128, "Acme", "acme", some buyer.id, 0⟩,
            ⟨51#128, "Apex", "apex", some buyer.id, 0⟩], by decide⟩
          members := ⟨[⟨60#128, 50#128, buyer.id, .owner, true, 0⟩,
            ⟨61#128, 50#128, 2#128, .member, false, 0⟩, ⟨62#128, 51#128, buyer.id, .admin, false, 0⟩,
            ⟨63#128, 51#128, 2#128, .owner, true, 0⟩], by decide⟩ }
      integral := by decide +kernel }
  stripe := ()
  queue := []

/-- The later org first. -/
theorem delete_together_eq_one_by_one_two :
    let rt : Runtime Unit := sampleRuntime noStripe 0 0
    SameAccounts (deleteTogether rt twoOrgsWorld buyer.id).db.toTables
        (deleteOneByOne rt twoOrgsWorld [51#128, 50#128]).db.toTables ∧
      OrgsDeleted (twoOrgsWorld.db.createdBy buyer.id) twoOrgsWorld.db.toTables
        (deleteTogether rt twoOrgsWorld buyer.id).db.toTables ∧
      OrgsDeleted (twoOrgsWorld.db.createdBy buyer.id) twoOrgsWorld.db.toTables
        (deleteOneByOne rt twoOrgsWorld [51#128, 50#128]).db.toTables :=
  delete_together_eq_one_by_one _ twoOrgsWorld buyer.id (List.Perm.swap _ _ _)

end Saasmint
