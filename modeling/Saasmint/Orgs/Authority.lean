import Saasmint.Orgs.Owners

/-!
# Who may do what to whom

The ranks are `member < admin < owner`.  A request should give nobody a rank as high
as the caller's, and should change or remove nobody of a rank as high; only the
owner passes on the ownership.

A role can be given in two steps: an inviter names it, and whoever accepts gets it.
`Authority.inviterRank` remembers the rank that each inviter had, so that an
acceptance can be held against it.

Two requests miss the mark.  The role of an invitation is not compared with the
inviter's, as the role of an update is; and a removal deletes the account, with its
memberships in orgs in which the caller may have no say.  `Outranks` excludes the
two.
-/

namespace Saasmint

open Relational

variable {σ : Type} {db db' : Db}

/-! ## Ranks -/

/-- The rank of the user in the org; who is no member has none. -/
def Db.rankIn (db : Db) (orgId userId : UUID) : ℕ :=
  ((db.memberOf orgId userId).map fun m => m.role.rank).getD 0

theorem rankIn_of_mem {m : OrgMember} (hm : m ∈ db.members.rows) :
    db.rankIn m.orgId m.userId = m.role.rank := by
  unfold Db.rankIn
  rw [Db.memberOf_eq_some.mpr ⟨hm, rfl, rfl⟩]
  rfl

/-- Who gets a role gets one below the actor's. -/
def GrantsBelow (db db' : Db) (actorId : UUID) : Prop :=
  ∀ m' ∈ db'.members.rows,
    (∀ m ∈ db.members.rows, m.orgId = m'.orgId → m.userId = m'.userId → m.role ≠ m'.role) →
    m'.role.rank < db.rankIn m'.orgId actorId

/-- Who is changed or removed ranks below the actor. -/
def TouchesBelow (db db' : Db) (actorId : UUID) : Prop :=
  ∀ m ∈ db.members.rows, m ∉ db'.members.rows → m.role.rank < db.rankIn m.orgId actorId

instance (db db' : Db) (actorId : UUID) : Decidable (GrantsBelow db db' actorId) :=
  inferInstanceAs (Decidable (∀ _ ∈ _, _))

instance (db db' : Db) (actorId : UUID) : Decidable (TouchesBelow db db' actorId) :=
  inferInstanceAs (Decidable (∀ _ ∈ _, _))

theorem GrantsBelow.of_same {actorId : UUID} (h : db'.members = db.members) :
    GrantsBelow db db' actorId := by
  intro m' hm' hnew
  rw [h] at hm'
  exact absurd rfl (hnew m' hm' rfl rfl)

theorem TouchesBelow.of_same {actorId : UUID} (h : db'.members = db.members) :
    TouchesBelow db db' actorId := by
  intro m hm hgone
  rw [h] at hgone
  exact absurd hm hgone

/-! ## The law -/

/-- The world, and for each invitation the rank its inviter had in the org. -/
structure Authority (σ : Type) where
  world : World σ
  inviterRank : UUID → ℕ

/-- An operation is carried out, and the rank of an inviter is remembered. -/
def Authority.after (s : Authority σ) (operation : OrgOperation σ) : Authority σ where
  world := operation.after s.world
  inviterRank :=
    match operation with
    | .invitation (.create rt userId orgId _) =>
        if s.world.db.invitations.rows.any (·.id == rt.invitationId) then s.inviterRank
        else Function.update s.inviterRank rt.invitationId (s.world.db.rankIn orgId userId)
    | _ => s.inviterRank

/-- What a request may do, from the database it finds to the one it leaves. -/
def Lawful (inviterRank : UUID → ℕ) (db db' : Db) : OrgOperation σ → Prop
  | .member _ (.patch actorId _ _) | .member _ (.remove actorId _) =>
      GrantsBelow db db' actorId ∧ TouchesBelow db db' actorId
  | .member orgId (.transfer actorId _) =>
      OwnsOrg db actorId orgId ∨ GrantsBelow db db' actorId ∧ TouchesBelow db db' actorId
  | .invitation (.create _ actorId _ _) =>
      (∀ i ∈ db'.invitations.rows, i ∉ db.invitations.rows →
        i.role.rank < db.rankIn i.orgId actorId) ∧ db'.members = db.members
  | .invitation (.accept _ _ _) =>
      (∀ m ∈ db.members.rows, m ∈ db'.members.rows) ∧
        ∀ m' ∈ db'.members.rows, m' ∉ db.members.rows → ∃ i ∈ db.invitations.rows,
          m'.orgId = i.orgId ∧ m'.role = i.role ∧ m'.role.rank < inviterRank i.id
  | .invitation _ => db'.members = db.members
  | _ => True

/-- The step is lawful. -/
def Authority.Lawful (s : Authority σ) (operation : OrgOperation σ) : Prop :=
  Saasmint.Lawful s.inviterRank s.world.db (s.after operation).world.db operation

/-- An inviter offers a role below their own, and a removed member is outranked wherever
they are a member. -/
def Outranks (db : Db) : OrgOperation σ → Prop
  | .member orgId (.remove actorId memberUserId) => ∀ m ∈ db.members.rows,
      m.userId = memberUserId → m.orgId ≠ orgId → m.role.rank < db.rankIn m.orgId actorId
  | .invitation (.create _ actorId orgId data) => data.role.rank < db.rankIn orgId actorId
  | _ => True

instance (db : Db) (operation : OrgOperation σ) : Decidable (Outranks db operation) :=
  match operation with
  | .member orgId (.remove actorId memberUserId) =>
      inferInstanceAs (Decidable (∀ m ∈ db.members.rows, m.userId = memberUserId →
        m.orgId ≠ orgId → m.role.rank < db.rankIn m.orgId actorId))
  | .invitation (.create _ actorId orgId data) =>
      inferInstanceAs (Decidable (data.role.rank < db.rankIn orgId actorId))
  | .member _ (.patch ..) | .member _ (.transfer ..) | .invitation (.accept ..)
  | .invitation (.cancel ..) | .invitation (.decline ..) | .teamCheckout .. | .mirror ..
  | .deleteOrg .. | .subscriptionEnded _ | .deleteAccount .. => isTrue trivial

/-! ## Steps -/

/-- Rewriting members one by one, in role and billing only, grants to and touches the
rewritten ones. -/
theorem below_of_rewritten {actorId : UUID} {f : OrgMember → OrgMember}
    (hrewritten : MemberRewritten db db' f)
    (hkeys : ∀ m, (f m).orgId = m.orgId ∧ (f m).userId = m.userId)
    (hbelow : ∀ m ∈ db.members.rows, f m ≠ m → m.role.rank < db.rankIn m.orgId actorId ∧
      ((f m).role ≠ m.role → (f m).role.rank < db.rankIn m.orgId actorId)) :
    GrantsBelow db db' actorId ∧ TouchesBelow db db' actorId := by
  constructor
  · intro m' hm' hnew
    rw [hrewritten.rows] at hm'
    obtain ⟨m, hm, rfl⟩ := List.mem_map.mp hm'
    obtain ⟨horg, huser⟩ := hkeys m
    have hrole := hnew m hm horg.symm huser.symm
    have hne : f m ≠ m := fun hsame => hrole (by rw [hsame])
    rw [horg]
    exact (hbelow m hm hne).2 (Ne.symm hrole)
  · intro m hm hgone
    refine (hbelow m hm fun hsame => hgone ?_).1
    rw [hrewritten.rows]
    exact List.mem_map.mpr ⟨m, hm, hsame⟩

theorem rankIn_of_caller {orgId userId targetUserId : UUID} {caller target : OrgMember}
    (h : Parties orgId userId targetUserId db caller target) :
    db.rankIn orgId userId = caller.role.rank := by
  rw [← h.caller_org, ← h.caller_user]
  exact rankIn_of_mem h.caller_mem

/-- An update changes a member below the caller, to a role below the caller's. -/
theorem below_of_patch {orgId userId memberUserId : UUID} {data : MemberUpdate}
    {caller target : OrgMember} (hparties : Parties orgId userId memberUserId db caller target)
    (hmanages : target.role.rank < caller.role.rank)
    (hassigns : ∀ role ∈ data.role, role.rank < caller.role.rank)
    (hrewritten : MemberRewritten db db' (rewriteRow target.id data.apply)) :
    GrantsBelow db db' userId ∧ TouchesBelow db db' userId := by
  have hrank := rankIn_of_caller hparties
  refine below_of_rewritten hrewritten (fun m => ?_) fun m hm hne => ?_
  · unfold rewriteRow MemberUpdate.apply
    split <;> exact ⟨rfl, rfl⟩
  · have hid : m.id = target.id := by
      by_contra hid
      exact hne (if_neg hid)
    rw [OrgMember.eq_of_id hm hparties.target_mem hid, hparties.target_org, hrank]
    refine ⟨hmanages, fun hrole => ?_⟩
    unfold rewriteRow MemberUpdate.apply at hrole ⊢
    rw [if_pos rfl] at hrole ⊢
    cases hdata : data.role with
    | none => exact absurd (by rw [hdata]; rfl) hrole
    | some role => exact hassigns role hdata

/-- A removal takes a member below the caller, and whatever the account has elsewhere. -/
theorem below_of_remove {orgId userId memberUserId : UUID} {caller target : OrgMember}
    (hparties : Parties orgId userId memberUserId db caller target)
    (hmanages : target.role.rank < caller.role.rank)
    (helsewhere : ∀ m ∈ db.members.rows, m.userId = memberUserId → m.orgId ≠ orgId →
      m.role.rank < db.rankIn m.orgId userId)
    (hdeleted : db'.toTables = db.toTables.deleteUsers [memberUserId]) :
    GrantsBelow db db' userId ∧ TouchesBelow db db' userId := by
  have hmem : ∀ m, m ∈ db'.members.rows ↔ m ∈ db.members.rows ∧ m.userId ∉ [memberUserId] := by
    intro m
    rw [hdeleted]
    exact Tables.mem_members_deleteUsers
  constructor
  · intro m' hm' hnew
    exact absurd rfl (hnew m' ((hmem m').mp hm').1 rfl rfl)
  · intro m hm hgone
    have huser : m.userId = memberUserId := by
      by_contra huser
      exact hgone ((hmem m).mpr ⟨hm, fun hin => huser (List.mem_singleton.mp hin)⟩)
    by_cases horg : m.orgId = orgId
    · have hsame : m = target := OrgMember.eq_of_user hm hparties.target_mem
        (horg.trans hparties.target_org.symm) (huser.trans hparties.target_user.symm)
      rw [horg, hsame, rankIn_of_caller hparties]
      exact hmanages
    · exact helsewhere m hm huser horg

/-- Every invitation offers a role below the one its inviter had. -/
def OffersBelow (s : Authority σ) : Prop :=
  ∀ i ∈ s.world.db.invitations.rows, i.role.rank < s.inviterRank i.id

theorem lawful_of_member {inviterRank : UUID → ℕ} {orgId : UUID} {request : MemberRequest}
    (houtranks : Outranks db (.member orgId request : OrgOperation σ))
    (hstep : MemberStep orgId db request db') :
    Lawful inviterRank db db' (.member orgId request : OrgOperation σ) := by
  cases hstep with
  | patch hparties hmanages hassigns hrewritten =>
      exact below_of_patch hparties hmanages hassigns hrewritten
  | remove hparties hmanages _ hdeleted =>
      exact below_of_remove hparties hmanages houtranks hdeleted
  | @transfer userId targetUserId caller target db' hparties howner hadmin hrewritten =>
      exact Or.inl ⟨caller, hparties.caller_mem, hparties.caller_org, hparties.caller_user, howner⟩

theorem lawful_of_invitation {s : Authority σ} {request : InvitationRequest σ}
    (houtranks : Outranks s.world.db (.invitation request : OrgOperation σ)) (hoffers : OffersBelow s)
    (hstep : InvitationStep s.world.db request db') :
    Lawful s.inviterRank s.world.db db' (.invitation request : OrgOperation σ) := by
  cases hstep with
  | create hcaller horg huser hallowed hrows hframe =>
      refine ⟨fun i hi hnew => ?_, by rw [hframe]⟩
      rw [hrows] at hi
      rcases List.mem_append.mp hi with hold | hi
      · exact absurd hold hnew
      · rw [List.mem_singleton.mp hi]
        exact houtranks
  | @accept rt token fullName invitation db' hpending haccepted =>
      have hinvitation := (Db.pendingByToken_eq_some hpending).1
      refine ⟨fun m hm => ?_, fun m' hm' hnew => ?_⟩
      · rw [haccepted.members]
        exact List.mem_append_left _ hm
      · rw [haccepted.members] at hm'
        rcases List.mem_append.mp hm' with hold | hm'
        · exact absurd hold hnew
        · rw [List.mem_singleton.mp hm']
          exact ⟨invitation, hinvitation, rfl, rfl, hoffers invitation hinvitation⟩
  | expire hpending hset =>
      have hmembers : db'.members = s.world.db.members := by rw [hset.frame]
      refine ⟨fun m hm => by rw [hmembers]; exact hm, fun m' hm' hnew => ?_⟩
      rw [hmembers] at hm'
      exact absurd hm' hnew
  | cancel hpending hset =>
      show db'.members = s.world.db.members
      rw [hset.frame]
  | decline hpending hset =>
      show db'.members = s.world.db.members
      rw [hset.frame]

/-- Who leaves members and invitations alone does nothing unlawful. -/
theorem lawful_of_same {inviterRank : UUID → ℕ} {operation : OrgOperation σ}
    (hmembers : db'.members = db.members) (hinvitations : db'.invitations = db.invitations) :
    Lawful inviterRank db db' operation := by
  have hbelow : ∀ actorId, GrantsBelow db db' actorId ∧ TouchesBelow db db' actorId :=
    fun actorId => ⟨.of_same hmembers, .of_same hmembers⟩
  unfold Lawful
  split
  · exact hbelow _
  · exact hbelow _
  · exact Or.inr (hbelow _)
  · refine ⟨fun i hi hnew => ?_, hmembers⟩
    rw [hinvitations] at hi
    exact absurd hi hnew
  · rw [hmembers]
    exact ⟨fun m hm => hm, fun m' hm' hnew => absurd hm' hnew⟩
  · exact hmembers
  · trivial

theorem lawful_of_step {s : Authority σ} {operation : OrgOperation σ}
    (houtranks : Outranks s.world.db operation) (hoffers : OffersBelow s)
    (hstep : OrgStep s.world.db operation db') :
    Lawful s.inviterRank s.world.db db' operation := by
  cases hstep with
  | refused => exact lawful_of_same rfl rfl
  | mirrored hmirrors =>
      have hframe := hmirrors.frame
      exact lawful_of_same (by rw [hframe]) (by rw [hframe])
  | member hstep => exact lawful_of_member houtranks hstep
  | invitation hstep => exact lawful_of_invitation houtranks hoffers hstep
  | founded _ _ => trivial
  | deleted _ _ => trivial
  | ended _ => trivial
  | erased _ _ _ => trivial

/-! ## Invitations and their inviters -/

/-- What is remembered of an invitation's inviter stays. -/
theorem inviterRank_after (s : Authority σ) (operation : OrgOperation σ) {i : Invitation}
    (hi : i ∈ s.world.db.invitations.rows) :
    (s.after operation).inviterRank i.id = s.inviterRank i.id := by
  unfold Authority.after
  dsimp only
  split
  next rt userId orgId data =>
      split
      next => rfl
      next hnew =>
          refine Function.update_of_ne (fun hid => hnew ?_) _ _
          exact List.any_eq_true.mpr ⟨i, hi, beq_iff_eq.mpr hid⟩
  next => rfl

/-- An operation after which every invitation was there before keeps the offers low. -/
theorem offersBelow_of_old {s : Authority σ} {operation : OrgOperation σ} (h : OffersBelow s)
    (hold : ∀ i' ∈ (s.after operation).world.db.invitations.rows,
      ∃ i ∈ s.world.db.invitations.rows, i.id = i'.id ∧ i.role = i'.role) :
    OffersBelow (s.after operation) := by
  intro i' hi'
  obtain ⟨i, hi, hid, hrole⟩ := hold i' hi'
  rw [← hid, ← hrole, inviterRank_after s operation hi]
  exact h i hi

theorem old_of_statusSet {invitationId : UUID} {status : InvitationStatus}
    (hrows : db'.invitations.rows = db.invitations.rows.map fun i =>
      if i.id = invitationId then i.withStatus status else i) :
    ∀ i' ∈ db'.invitations.rows, ∃ i ∈ db.invitations.rows, i.id = i'.id ∧ i.role = i'.role := by
  intro i' hi'
  rw [hrows] at hi'
  obtain ⟨i, hi, rfl⟩ := List.mem_map.mp hi'
  refine ⟨i, hi, ?_⟩
  split <;> exact ⟨rfl, rfl⟩

theorem old_of_same (h : db'.invitations = db.invitations) :
    ∀ i' ∈ db'.invitations.rows, ∃ i ∈ db.invitations.rows, i.id = i'.id ∧ i.role = i'.role := by
  intro i' hi'
  rw [h] at hi'
  exact ⟨i', hi', rfl, rfl⟩

theorem old_of_memberStep {orgId : UUID} {request : MemberRequest}
    (hstep : MemberStep orgId db request db') :
    ∀ i' ∈ db'.invitations.rows, ∃ i ∈ db.invitations.rows, i.id = i'.id ∧ i.role = i'.role := by
  cases hstep with
  | patch _ _ _ hrewritten => exact old_of_same (by rw [hrewritten.frame])
  | remove _ _ _ hdeleted =>
      rw [hdeleted]
      exact Tables.shrinks_deleteUsers.invitations
  | transfer _ _ _ hrewritten => exact old_of_same (by rw [hrewritten.frame])

theorem shrinks_erased (t : Tables) (userId : UUID) (stage : ℕ) :
    Shrinks t (t.erased userId stage) := by
  have h₁ : Shrinks t (t.deleteCustomerOf userId) := Tables.shrinks_deleteCustomerOf
  have h₂ : Shrinks t ((t.deleteCustomerOf userId).deleteOrgsCreatedBy userId) :=
    h₁.trans Tables.shrinks_deleteOrgsCreatedBy
  have h₃ : Shrinks t (((t.deleteCustomerOf userId).deleteOrgsCreatedBy
      userId).deleteMembershipsOf userId) := h₂.trans Tables.shrinks_deleteMembershipsOf
  unfold Tables.erased
  split
  · exact Shrinks.refl t
  · exact h₁
  · exact h₂
  · exact h₃
  · exact h₃.trans Tables.shrinks_deleteUsers

/-- No operation makes a remembered rank too low for the role that was offered. -/
theorem offersBelow_after {s : Authority σ} {operation : OrgOperation σ} (h : OffersBelow s)
    (houtranks : Outranks s.world.db operation) : OffersBelow (s.after operation) := by
  have hstep := operation.step s.world
  generalize hdb : (operation.after s.world).db = reached at hstep
  have hreached : (s.after operation).world.db = reached := hdb
  have hinvitations : (∀ i' ∈ reached.invitations.rows, ∃ i ∈ s.world.db.invitations.rows,
      i.id = i'.id ∧ i.role = i'.role) → OffersBelow (s.after operation) := by
    intro hold
    rw [← hreached] at hold
    exact offersBelow_of_old h hold
  cases hstep with
  | refused => exact hinvitations (old_of_same rfl)
  | mirrored hmirrors => exact hinvitations (old_of_same (by rw [hmirrors.frame]))
  | founded hfounded hmirrors =>
      have hframe := (insertOrgWithOwner_eq_ok hfounded.inserted).2.2.2
      exact hinvitations (old_of_same (by rw [hmirrors.frame, hframe]))
  | member hstep => exact hinvitations (old_of_memberStep hstep)
  | invitation hstep =>
      cases hstep with
      | @create rt userId orgId data caller db' hcaller horg huser hallowed hrows hframe =>
          have hnew : s.world.db.invitations.rows.any (·.id == rt.invitationId) = false := by
            rw [List.any_eq_false]
            intro i hi hid
            have hpair := reached.invitations.valid.2
            rw [hrows] at hpair
            exact (List.pairwise_append.mp hpair).2.2 i hi _ (List.mem_singleton_self _)
              (Or.inl (beq_iff_eq.mp hid))
          intro i' hi'
          rw [hreached, hrows] at hi'
          rcases List.mem_append.mp hi' with hold | hi'
          · rw [inviterRank_after s _ hold]
            exact h i' hold
          · rw [List.mem_singleton.mp hi']
            unfold Authority.after
            dsimp only
            rw [if_neg (by rw [hnew]; exact Bool.false_ne_true)]
            show data.role.rank < Function.update s.inviterRank rt.invitationId
              (s.world.db.rankIn orgId userId) rt.invitationId
            rw [Function.update_self]
            exact houtranks
      | accept hpending haccepted => exact hinvitations (old_of_statusSet haccepted.invitations)
      | expire hpending hset => exact hinvitations (old_of_statusSet hset.rows)
      | cancel hpending hset => exact hinvitations (old_of_statusSet hset.rows)
      | decline hpending hset => exact hinvitations (old_of_statusSet hset.rows)
  | deleted _ hdeleted =>
      refine hinvitations ?_
      rw [hdeleted]
      exact Tables.shrinks_deleteOrgBatch.invitations
  | ended hdeleted =>
      refine hinvitations ?_
      rw [hdeleted]
      exact Tables.shrinks_deleteOrgBatch.invitations
  | erased stage _ herased =>
      refine hinvitations ?_
      rw [herased]
      exact (shrinks_erased _ _ stage).invitations

/-! ## Runs -/

/-- **No privilege escalation.**  In every run whose inviters offer roles below their own
and whose removed members are outranked wherever they are members, every step is
lawful. -/
theorem lawful_run {s : Authority σ} (hoffers : OffersBelow s)
    {operations : List (OrgOperation σ)} (houtranks : Runs.Steps Authority.after
      (fun s operation => Outranks s.world.db operation) s operations) :
    Runs.Steps Authority.after Authority.Lawful s operations := by
  have halways : Runs.Always Authority.after OffersBelow s operations :=
    Runs.always_of_steps (fun s operation h hout => offersBelow_after h hout) hoffers houtranks
  intro first operation rest hsplit
  have hbefore := halways first (operation :: rest) hsplit
  exact lawful_of_step (houtranks first operation rest hsplit) hbefore (operation.step _)

/-! ## Two runs -/

/-- Nobody has been invited yet. -/
def freshAuthority : Authority Unit := ⟨sampleWorld, fun _ => 0⟩

/-- The owner changes an admin's billing authority, then removes them. -/
def ownerManages : List (OrgOperation Unit) :=
  staffed ++ [.member 1001#128 (.patch buyer.id adminId ⟨none, some true, nofun⟩),
    .member 1001#128 (.remove buyer.id adminId)]

theorem lawful_run_owner_manages :
    Runs.Steps Authority.after Authority.Lawful freshAuthority ownerManages := by
  refine lawful_run ?_ (by decide +kernel)
  intro i hi
  cases hi

/-- An admin invites somebody to be an admin. -/
def adminInvitesAdmin : List (OrgOperation Unit) :=
  staffed ++ [.invitation (.create (sampleRuntime noStripe 3 0) adminId 1001#128
    ⟨"peer@example.com", .admin, OrgRole.admin_ne_owner⟩)]

theorem not_lawful_run :
    ¬ Runs.Steps Authority.after Authority.Lawful freshAuthority adminInvitesAdmin := by
  intro h
  have hlawful := (h staffed _ [] rfl).1
  revert hlawful
  decide +kernel

end Saasmint
