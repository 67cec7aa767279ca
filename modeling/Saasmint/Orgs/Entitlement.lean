import Saasmint.Orgs.Authority
import Saasmint.Orgs.Mailboxes

/-!
# How members came by their roles

A membership is a grant of authority over an org, and it should have a history: the org was
bought by its owner, or somebody who was an admin at the time invited the member, or
somebody of a higher rank changed the role.  Whoever did so had, in turn, a membership
with such a history.

`Entitled` is the set of all these histories, as derivations over a run.  Besides the run it
looks at what was stored when each request was carried out: the caller was a member then,
and of a role that allows the request.  `Invited` does the same for the invitations that
are still pending.

An invitation loses its inviter when the inviter's account is deleted, so it is followed
by its `Offer`, which no operation changes.
-/

namespace Saasmint

open Relational

variable {σ : Type} {w : World σ} {t t' t'' : Tables} {db db' : Db}

/-! ## Offers -/

/-- What an invitation offers, to whom, and for which token. -/
structure Offer where
  invitationId : UUID
  orgId : UUID
  email : String
  role : OrgRole
  token : String
  deriving DecidableEq

def Invitation.offer (i : Invitation) : Offer := ⟨i.id, i.orgId, i.email, i.role, i.token⟩

variable {offer : Offer}

/-- The offer is stored, and nobody has taken it up, refused it or withdrawn it. -/
def Offered (offer : Offer) (t : Tables) : Prop :=
  ∃ i ∈ t.invitations.rows, i.offer = offer ∧ i.status = .pending

/-- Nothing is offered that was not offered before. -/
def OffersNothing (t t' : Tables) : Prop := ∀ offer, Offered offer t' → Offered offer t

namespace OffersNothing

theorem refl (t : Tables) : OffersNothing t t := fun _ h => h

theorem trans (h : OffersNothing t t') (h' : OffersNothing t' t'') : OffersNothing t t'' :=
  fun offer hoffered => h offer (h' offer hoffered)

theorem of_same (h : t'.invitations = t.invitations) : OffersNothing t t' := by
  intro offer hoffered
  unfold Offered at hoffered
  rw [h] at hoffered
  exact hoffered

theorem of_pending (h : PendingShrinks db db') : OffersNothing db.toTables db'.toTables := by
  rintro offer ⟨i, hi, hoffer, hpending⟩
  exact ⟨i, h i hi hpending, hoffer, hpending⟩

theorem of_set {invitationId : UUID} {status : InvitationStatus} (hstatus : status ≠ .pending)
    (hset : StatusSet db db' invitationId status) : OffersNothing db.toTables db'.toTables :=
  of_pending (pendingShrinks_of_set hstatus hset.rows)

theorem deleteUsers (ids : List UUID) : OffersNothing t (t.deleteUsers ids) := by
  rintro offer ⟨i', hi', hoffer, hpending⟩
  obtain ⟨i, hi, rfl⟩ := List.mem_map.mp hi'
  exact ⟨i, hi, hoffer, hpending⟩

theorem deleteOrgs (orgIds : List UUID) : OffersNothing t (t.deleteOrgs orgIds) := by
  rintro offer ⟨i, hi, hoffer, hpending⟩
  exact ⟨i, (Table.mem_delete.mp hi).1, hoffer, hpending⟩

theorem cancelInvitationsOf (orgIds : List UUID) :
    OffersNothing t (t.cancelInvitationsOf orgIds) := by
  rintro offer ⟨i', hi', hoffer, hpending⟩
  obtain ⟨i, hi, rfl⟩ := List.mem_map.mp hi'
  split at hpending
  next => cases hpending
  next hkept =>
      rw [if_neg hkept] at hoffer
      exact ⟨i, hi, hoffer, hpending⟩

theorem deleteOrgBatch (orgIds : List UUID) : OffersNothing t (t.deleteOrgBatch orgIds) :=
  ((cancelInvitationsOf orgIds).trans (deleteUsers _)).trans (deleteOrgs orgIds)

theorem deleteOrgsCreatedBy (userId : UUID) : OffersNothing t (t.deleteOrgsCreatedBy userId) := by
  rcases t.deleteOrgsCreatedBy_cases userId with ⟨_, hsame⟩ | hdeleted
  · rw [hsame]
    exact refl t
  · rw [hdeleted]
    exact deleteOrgBatch _

theorem deleteCustomerOf (userId : UUID) : OffersNothing t (t.deleteCustomerOf userId) := by
  rcases t.deleteCustomerOf_cases userId with hsame | ⟨customer, _, _, hdeleted⟩
  · rw [hsame]
    exact refl t
  · rw [hdeleted]
    exact of_same rfl

theorem erased (userId : UUID) (stage : ℕ) : OffersNothing t (t.erased userId stage) := by
  have horgs : OffersNothing t ((t.deleteCustomerOf userId).deleteOrgsCreatedBy userId) :=
    (deleteCustomerOf userId).trans (deleteOrgsCreatedBy userId)
  have hmembers : OffersNothing t (((t.deleteCustomerOf userId).deleteOrgsCreatedBy
      userId).deleteMembershipsOf userId) := horgs.trans (of_same rfl)
  unfold Tables.erased
  split
  · exact refl t
  · exact deleteCustomerOf userId
  · exact horgs
  · exact hmembers
  · exact hmembers.trans (deleteUsers _)

end OffersNothing

/-- The caller is an admin of the org, or its owner. -/
structure AdminAs (callerId orgId : UUID) (db : Db) (caller : OrgMember) : Prop where
  caller_mem : caller ∈ db.members.rows
  caller_org : caller.orgId = orgId
  caller_user : caller.userId = callerId
  allowed : caller.role ∈ adminOrAbove

/-- What is offered after an operation was offered before, or the operation is an admin's
invitation. -/
theorem OrgStep.offered {operation : OrgOperation σ} (h : OrgStep db operation db')
    (hoffered : Offered offer db'.toTables) : Offered offer db.toTables ∨
      ∃ rt callerId orgId data caller, operation = .invitation (.create rt callerId orgId data) ∧
        AdminAs callerId orgId db caller ∧
        (newInvitation rt callerId orgId data).offer = offer := by
  have hsame : ∀ {t : Tables}, db'.toTables = t → OffersNothing db.toTables t →
      Offered offer db.toTables := fun ht h => h offer (ht ▸ hoffered)
  cases h with
  | refused => exact Or.inl hoffered
  | mirrored hmirrors => exact Or.inl (hsame hmirrors.frame (.of_same rfl))
  | founded hfounded hmirrors =>
      have hframe := (insertOrgWithOwner_eq_ok hfounded.inserted).2.2.2
      exact Or.inl (hsame hmirrors.frame (.of_same (by rw [hframe])))
  | member hstep =>
      cases hstep with
      | patch _ _ _ hrewritten => exact Or.inl (hsame hrewritten.frame (.of_same rfl))
      | remove _ _ _ hdeleted => exact Or.inl (hsame hdeleted (.deleteUsers _))
      | transfer _ _ _ hrewritten => exact Or.inl (hsame hrewritten.frame (.of_same rfl))
  | invitation hstep =>
      cases hstep with
      | create hcaller horg huser hallowed hrows hframe =>
          obtain ⟨i, hi, hoffer, hpending⟩ := hoffered
          rw [hrows] at hi
          rcases List.mem_append.mp hi with hold | hnew
          · exact Or.inl ⟨i, hold, hoffer, hpending⟩
          · rw [List.mem_singleton.mp hnew] at hoffer
            exact Or.inr ⟨_, _, _, _, _, rfl, ⟨hcaller, horg, huser, hallowed⟩, hoffer⟩
      | accept hpending haccepted =>
          exact Or.inl (OffersNothing.of_pending (pendingShrinks_of_set
            InvitationStatus.noConfusion haccepted.invitations) offer hoffered)
      | expire hpending hset =>
          exact Or.inl (OffersNothing.of_set InvitationStatus.noConfusion hset offer hoffered)
      | cancel hpending hset =>
          exact Or.inl (OffersNothing.of_set InvitationStatus.noConfusion hset offer hoffered)
      | decline hpending hset =>
          exact Or.inl (OffersNothing.of_set InvitationStatus.noConfusion hset offer hoffered)
  | deleted _ hdeleted => exact Or.inl (hsame hdeleted (.deleteOrgBatch _))
  | ended hdeleted => exact Or.inl (hsame hdeleted (.deleteOrgBatch _))
  | erased stage _ herased => exact Or.inl (hsame herased (.erased _ stage))

/-! ## Histories -/

/-- The world after the operations. -/
abbrev reached (w : World σ) (operations : List (OrgOperation σ)) : World σ :=
  Runs.run OrgOperation.after w operations

/-- The offer is pending from a state on, while the operations are carried out. -/
def StaysOffered (w : World σ) (operations : List (OrgOperation σ)) (offer : Offer) : Prop :=
  Runs.Always OrgOperation.after (fun w => Offered offer w.db.toTables) w operations

mutual

/-- After the operations, the membership is one that the outset or a request has given, and
who made the request was entitled to. -/
inductive Entitled (w : World σ) : List (OrgOperation σ) → OrgMember → Prop
  | outset {operations : List (OrgOperation σ)} {m : OrgMember} (stored : m ∈ w.db.members.rows) :
      Entitled w operations m
  | founder {first rest : List (OrgOperation σ)} {rt : Runtime σ} {checkout : TeamCheckout}
      {user : User} {slug : String} {created : Db}
      (founded : Founded rt checkout (reached w first).db created user slug) :
      Entitled w (first ++ .teamCheckout rt checkout :: rest) (ownerMembership rt user)
  | invitee {first rest : List (OrgOperation σ)} {rt : Runtime σ} {token fullName : String}
      {invitation : Invitation}
      (pending : (reached w first).db.pendingByToken token = some invitation)
      (accepted : Accepted rt invitation fullName (reached w first).db
        (reached w (first ++ [.invitation (.accept rt token fullName)])).db)
      (invited : Invited w first invitation.offer) :
      Entitled w (first ++ .invitation (.accept rt token fullName) :: rest)
        (inviteeMembership rt invitation)
  | updated {first rest : List (OrgOperation σ)} {orgId callerId memberId : UUID}
      {data : MemberUpdate} {caller target : OrgMember}
      (parties : Parties orgId callerId memberId (reached w first).db caller target)
      (manages : target.role.rank < caller.role.rank)
      (assigns : ∀ role ∈ data.role, role.rank < caller.role.rank)
      (caller_entitled : Entitled w first caller) (target_entitled : Entitled w first target) :
      Entitled w (first ++ .member orgId (.patch callerId memberId data) :: rest)
        (data.apply target)
  | promoted {first rest : List (OrgOperation σ)} {orgId callerId targetId : UUID}
      {caller target : OrgMember}
      (parties : Parties orgId callerId targetId (reached w first).db caller target)
      (owner : caller.role = .owner) (admin : target.role = .admin)
      (caller_entitled : Entitled w first caller) (target_entitled : Entitled w first target) :
      Entitled w (first ++ .member orgId (.transfer callerId targetId) :: rest) (promote target)
  | demoted {first rest : List (OrgOperation σ)} {orgId callerId targetId : UUID}
      {caller target : OrgMember}
      (parties : Parties orgId callerId targetId (reached w first).db caller target)
      (owner : caller.role = .owner) (caller_entitled : Entitled w first caller) :
      Entitled w (first ++ .member orgId (.transfer callerId targetId) :: rest) (demote caller)

/-- The offer has been pending since the outset, or since an entitled admin of the org
made it. -/
inductive Invited (w : World σ) : List (OrgOperation σ) → Offer → Prop
  | outset {operations : List (OrgOperation σ)} {offer : Offer}
      (stays : StaysOffered w operations offer) : Invited w operations offer
  | sent {first rest : List (OrgOperation σ)} {rt : Runtime σ} {callerId orgId : UUID}
      {data : InvitationData} {caller : OrgMember}
      (admin : AdminAs callerId orgId (reached w first).db caller)
      (entitled : Entitled w first caller)
      (stays : StaysOffered (reached w (first ++ [.invitation (.create rt callerId orgId data)]))
        rest (newInvitation rt callerId orgId data).offer) :
      Invited w (first ++ .invitation (.create rt callerId orgId data) :: rest)
        (newInvitation rt callerId orgId data).offer

end

/-- A history stays one when the run goes on. -/
theorem Entitled.append {operations : List (OrgOperation σ)} {m : OrgMember}
    (h : Entitled w operations m) (later : List (OrgOperation σ)) :
    Entitled w (operations ++ later) m := by
  cases h with
  | outset stored => exact .outset stored
  | founder founded =>
      rw [List.append_assoc, List.cons_append]
      exact .founder founded
  | invitee pending accepted invited =>
      rw [List.append_assoc, List.cons_append]
      exact .invitee pending accepted invited
  | updated parties manages assigns caller target =>
      rw [List.append_assoc, List.cons_append]
      exact .updated parties manages assigns caller target
  | promoted parties owner admin caller target =>
      rw [List.append_assoc, List.cons_append]
      exact .promoted parties owner admin caller target
  | demoted parties owner caller =>
      rw [List.append_assoc, List.cons_append]
      exact .demoted parties owner caller

/-- Whoever is stored after some of the operations is entitled. -/
def EntitledThroughout (w : World σ) (operations : List (OrgOperation σ)) : Prop :=
  ∀ first rest, operations = first ++ rest → ∀ m ∈ (reached w first).db.members.rows,
    Entitled w first m

section Steps

variable {operations : List (OrgOperation σ)}

theorem EntitledThroughout.final (h : EntitledThroughout w operations) {m : OrgMember}
    (hm : m ∈ (reached w operations).db.members.rows) : Entitled w operations m :=
  h operations [] (List.append_nil _).symm m hm

/-- What is pending was pending at the outset, or an admin has offered it. -/
theorem EntitledThroughout.invited (h : EntitledThroughout w operations)
    (hoffered : Offered offer (reached w operations).db.toTables) : Invited w operations offer := by
  rcases Runs.always_or_begins (P := fun w : World σ => Offered offer w.db.toTables) hoffered with
    halways | ⟨first, operation, rest, rfl, hnot, halways⟩
  · exact .outset halways
  · have hbegins : Offered offer (operation.after (reached w first)).db.toTables := by
      have hhere := halways [] rest rfl
      rw [Runs.run_append] at hhere
      exact hhere
    rcases (operation.step (reached w first)).offered hbegins with hold |
      ⟨rt, callerId, orgId, data, caller, rfl, hadmin, rfl⟩
    · exact absurd hold hnot
    · exact .sent hadmin (h first _ rfl caller hadmin.caller_mem) halways

theorem EntitledThroughout.member (h : EntitledThroughout w operations) {orgId : UUID}
    {request : MemberRequest} (hstep : MemberStep orgId (reached w operations).db request db')
    {m : OrgMember} (hm : m ∈ db'.members.rows) :
    Entitled w (operations ++ [.member orgId request]) m := by
  have hold : ∀ {m}, m ∈ (reached w operations).db.members.rows →
      Entitled w (operations ++ [.member orgId request]) m := fun hm => (h.final hm).append _
  cases hstep with
  | @patch userId memberUserId data caller target db' hparties hmanages hassigns hrewritten =>
      rw [hrewritten.rows] at hm
      obtain ⟨before, hbefore, rfl⟩ := List.mem_map.mp hm
      unfold rewriteRow
      split
      next hid =>
          rw [OrgMember.eq_of_id hbefore hparties.target_mem hid]
          exact .updated hparties hmanages hassigns (h.final hparties.caller_mem)
            (h.final hparties.target_mem)
      next => exact hold hbefore
  | remove _ _ _ hdeleted =>
      rw [hdeleted] at hm
      exact hold (Tables.mem_members_deleteUsers.mp hm).1
  | @transfer userId targetUserId caller target db' hparties howner hadmin hrewritten =>
      rw [hrewritten.rows] at hm
      obtain ⟨before, hbefore, rfl⟩ := List.mem_map.mp hm
      -- the rows are rewritten one after the other, so they had better be two
      have hne : target.id ≠ caller.id := by
        intro hid
        have hsame := OrgMember.eq_of_id hparties.target_mem hparties.caller_mem hid
        rw [hsame, howner] at hadmin
        cases hadmin
      unfold rewriteRow
      by_cases htarget : before.id = target.id
      · rw [if_pos htarget, OrgMember.eq_of_id hbefore hparties.target_mem htarget]
        rw [if_neg (show (promote target).id ≠ caller.id from hne)]
        exact .promoted hparties howner hadmin (h.final hparties.caller_mem)
          (h.final hparties.target_mem)
      · rw [if_neg htarget]
        split
        next hcaller =>
            rw [OrgMember.eq_of_id hbefore hparties.caller_mem hcaller]
            exact .demoted hparties howner (h.final hparties.caller_mem)
        next => exact hold hbefore

/-- An operation leaves only entitled members. -/
theorem EntitledThroughout.step (h : EntitledThroughout w operations) (operation : OrgOperation σ)
    {m : OrgMember} (hm : m ∈ (reached w (operations ++ [operation])).db.members.rows) :
    Entitled w (operations ++ [operation]) m := by
  have hold : m ∈ (reached w operations).db.members.rows →
      Entitled w (operations ++ [operation]) m := fun hm => (h.final hm).append _
  have hafter : reached w (operations ++ [operation]) = operation.after (reached w operations) :=
    Runs.run_append ..
  have hstep := operation.step (reached w operations)
  rw [← hafter] at hstep
  -- the step is inverted for any database it could have left
  generalize hdb : (reached w (operations ++ [operation])).db = db' at hstep hm
  cases hstep with
  | refused => exact hold hm
  | mirrored hmirrors =>
      rw [hmirrors.frame] at hm
      exact hold hm
  | founded hfounded hmirrors =>
      rw [hmirrors.frame] at hm
      rw [(insertOrgWithOwner_eq_ok hfounded.inserted).2.1] at hm
      rcases List.mem_append.mp hm with hm | hm
      · exact hold hm
      · rw [List.mem_singleton.mp hm]
        exact .founder hfounded
  | member hstep => exact h.member hstep hm
  | invitation hstep =>
      cases hstep with
      | create _ _ _ _ _ hframe =>
          rw [hframe] at hm
          exact hold hm
      | accept hpending haccepted =>
          have hinvitation := Db.pendingByToken_eq_some hpending
          rw [haccepted.members] at hm
          rcases List.mem_append.mp hm with hm | hm
          · exact hold hm
          · rw [List.mem_singleton.mp hm]
            refine .invitee hpending ?_ (h.invited ⟨_, hinvitation.1, rfl, hinvitation.2.2⟩)
            rw [hdb]
            exact haccepted
      | expire _ hset =>
          rw [hset.frame] at hm
          exact hold hm
      | cancel _ hset =>
          rw [hset.frame] at hm
          exact hold hm
      | decline _ hset =>
          rw [hset.frame] at hm
          exact hold hm
  | deleted _ hdeleted =>
      rw [hdeleted] at hm
      exact hold (Tables.mem_members_deleteOrgBatch.mp hm).1
  | ended hdeleted =>
      rw [hdeleted] at hm
      exact hold (Tables.mem_members_deleteOrgBatch.mp hm).1
  | erased stage _ herased =>
      rw [herased] at hm
      exact hold ((shrinks_erased _ _ stage).members m hm)

end Steps

theorem entitledThroughout (w : World σ) (operations : List (OrgOperation σ)) :
    EntitledThroughout w operations := by
  induction operations using List.reverseRecOn with
  | nil =>
      intro first rest hsplit m hm
      obtain ⟨rfl, -⟩ := List.append_eq_nil_iff.mp hsplit.symm
      exact .outset hm
  | append_singleton operations operation ih =>
      intro first rest hsplit m hm
      -- the prefix is the whole run, or one of the run before the last operation
      rcases List.eq_nil_or_concat rest with rfl | ⟨rest, last, rfl⟩
      · rw [List.append_nil] at hsplit
        subst hsplit
        exact ih.step operation hm
      · rw [List.concat_eq_append, ← List.append_assoc] at hsplit
        exact ih first rest (List.append_inj_left' hsplit rfl) m hm

/-- **Every membership has a history.**  In every run of operations, from any database,
whoever is a member of an org is so from the outset, by buying the org, by the invitation of
somebody who was an admin of it then, or by the request of somebody who outranked them
then, and who had their own membership in one of these ways. -/
theorem members_entitled (w : World σ) (operations : List (OrgOperation σ)) :
    ∀ m ∈ (reached w operations).db.members.rows, Entitled w operations m :=
  fun _ hm => (entitledThroughout w operations).final hm

theorem members_entitled_staffed : Entitled sampleWorld staffed
    (inviteeMembership (sampleRuntime teamStripe 2 0)
      (newInvitation (sampleRuntime teamStripe 1 0) buyer.id 1001#128
        ⟨"admin@example.com", .admin, OrgRole.admin_ne_owner⟩)) :=
  members_entitled sampleWorld staffed _ (by decide +kernel)

end Saasmint
