import Saasmint.Data.Sessions
import Saasmint.Orgs.Deletion
import Saasmint.Python.Uuid

/-!
# Members of an org

Changing a member, removing one, and transferring the ownership, as the endpoints
do it: the caller's membership and the target's are read first and checked, and
the write that follows goes to the row by its primary key.  A removed member's
account is deleted, and with it every membership the account has.

For each endpoint there is one lemma that says what a complete request does.
-/

namespace Saasmint

open Atomic Relational

variable {σ : Type}

/-! ## Roles -/

/-- `ORG_ROLE_RANK`. -/
def OrgRole.rank : OrgRole → ℕ
  | owner => 3
  | admin => 2
  | member => 1

/-- `check_can_manage_member`. -/
def checkCanManageMember (callerRole targetRole : OrgRole) : Py Unit :=
  if callerRole.rank ≤ targetRole.rank then
    .error (.insufficientPermission "Insufficient permissions for this action.")
  else .ok ()

/-- `check_can_assign_role`. -/
def checkCanAssignRole (callerRole newRole : OrgRole) : Py Unit :=
  if callerRole.rank ≤ newRole.rank then
    .error (.insufficientPermission "Cannot assign a role equal to or above your own.")
  else .ok ()

theorem checkCanManageMember_eq_ok {callerRole targetRole : OrgRole} :
    checkCanManageMember callerRole targetRole = .ok () ↔ targetRole.rank < callerRole.rank := by
  unfold checkCanManageMember
  split <;> simp <;> omega

theorem checkCanAssignRole_eq_ok {callerRole newRole : OrgRole} :
    checkCanAssignRole callerRole newRole = .ok () ↔ newRole.rank < callerRole.rank := by
  unfold checkCanAssignRole
  split <;> simp <;> omega

theorem OrgRole.rank_le (role : OrgRole) : role.rank ≤ 3 := by
  cases role <;> decide

/-! ## Writes -/

/-- The new owner gets the owner's role and the billing authority. -/
def promote (m : OrgMember) : OrgMember := { m with role := .owner, isBilling := true }

/-- The former owner becomes an admin, without billing authority. -/
def demote (m : OrgMember) : OrgMember := { m with role := .admin, isBilling := false }

namespace Tables

/-- `save(update_fields=...)` of a member: an `UPDATE` of the row with its key. -/
def updateMember (t : Tables) (id : UUID) (f : OrgMember → OrgMember) : Py Tables :=
  if t.members.rows.any (·.id == id) then
    match t.members.update? (·.id == id) f with
    | some members => .ok { t with members := members }
    | none => .error (.integrity "violates constraint")
  else .error (.database "Save with update_fields did not affect any rows.")

theorem updateMember_eq_ok {t t' : Tables} {id : UUID} {f : OrgMember → OrgMember}
    (h : t.updateMember id f = .ok t') :
    (∃ m ∈ t.members.rows, m.id = id) ∧
      t'.members.rows = t.members.rows.map (fun m => if m.id = id then f m else m) ∧
      t' = { t with members := t'.members } := by
  unfold updateMember at h
  split at h
  next hany =>
      obtain ⟨m, hm, hid⟩ := List.any_eq_true.mp hany
      split at h
      next members hupdate =>
          cases h
          refine ⟨⟨m, hm, beq_iff_eq.mp hid⟩, ?_, rfl⟩
          simpa using Table.rows_update? hupdate
      next => cases h
  next => cases h

/-- The two `UPDATE`s of a transfer, in their order. -/
def transfer (t : Tables) (targetId callerId : UUID) : Py Tables := do
  let t ← t.updateMember targetId promote
  t.updateMember callerId demote

end Tables

/-! ## The endpoints -/

/-- `validated_data` of `UpdateMemberSerializer`. -/
structure MemberUpdate where
  role : Option OrgRole
  isBilling : Option Bool
  assignable : role ≠ some .owner

def MemberUpdate.apply (data : MemberUpdate) (m : OrgMember) : OrgMember :=
  { m with role := data.role.getD m.role, isBilling := data.isBilling.getD m.isBilling }

/-- `_ADMIN_OR_ABOVE`. -/
def adminOrAbove : List OrgRole := [.owner, .admin]

/-- The membership with its org. -/
def Db.orgAndMember (db : Db) (userId orgId : UUID) : Option (Org × OrgMember) := do
  let member ← db.memberOf orgId userId
  let org ← db.orgById member.orgId
  return (org, member)

theorem Db.orgAndMember_eq_some {db : Db} {userId orgId : UUID} {org : Org} {member : OrgMember} :
    db.orgAndMember userId orgId = some (org, member) ↔
      member ∈ db.members.rows ∧ member.orgId = orgId ∧ member.userId = userId ∧
        org ∈ db.orgs.rows ∧ org.id = orgId := by
  unfold Db.orgAndMember
  simp only [Option.bind_eq_bind, Option.bind_eq_some_iff, Option.pure_def, Option.some.injEq,
    Prod.mk.injEq, Db.memberOf_eq_some, Db.orgById_eq_some]
  constructor
  · rintro ⟨m, ⟨hm, horg, huser⟩, o, ⟨ho, hid⟩, rfl, rfl⟩
    exact ⟨hm, horg, huser, ho, hid.trans horg⟩
  · rintro ⟨hm, horg, huser, ho, hid⟩
    exact ⟨member, ⟨hm, horg, huser⟩, org, ⟨ho, hid.trans horg.symm⟩, rfl, rfl⟩

namespace Session

/-- `UPDATE` in a transaction: waits for what it writes, and may be refused. -/
def update {α : Type} (wants : List Lock) (f : Db → Py α) : Session σ (Py Unit) :=
  lock (fun _ => wants) fun db => (fun _ => ()) <$> f db

/-- `_get_org_and_member`. -/
def getOrgAndMember (userId orgId : UUID) (allowedRoles : List OrgRole) :
    Session σ (Org × OrgMember) := do
  match ← select fun db => db.orgAndMember userId orgId with
  | some (org, member) =>
      if allowedRoles.contains member.role then return (org, member)
      else throw (.insufficientPermission "Insufficient permissions for this action.")
  | none =>
      if ← select fun db => (db.orgById orgId).isSome then
        throw (.insufficientPermission "Access denied.")
      else throw (.orgNotFound (uuidText orgId))

/-- `get_object_or_404(OrgMember, org_id=orgId, user_id=userId)`. -/
def getMemberOr404 (orgId userId : UUID) : Session σ OrgMember := do
  let some member ← select fun db => db.memberOf orgId userId
    | throw (.notFound "No OrgMember matches the given query.")
  return member

/-- The caller's membership and the target's, as every member endpoint reads them. -/
def getParties (userId orgId targetUserId : UUID) (allowedRoles : List OrgRole) :
    Session σ (OrgMember × OrgMember) := do
  let (_, caller) ← getOrgAndMember userId orgId allowedRoles
  let target ← getMemberOr404 orgId targetUserId
  return (caller, target)

/-- `OrgMemberDetailView.patch`. -/
def patchMember (userId orgId memberUserId : UUID) (data : MemberUpdate) : Session σ Unit := do
  let (caller, target) ← getParties userId orgId memberUserId adminOrAbove
  lift (checkCanManageMember caller.role target.role)
  if data.role = none ∧ data.isBilling = none then return
  lift (data.role.elim (.ok ()) (checkCanAssignRole caller.role))
  execute [.member target] (fun _ => [.member target.id]) fun db =>
    (fun db => ((), db)) <$> (db.toTables.updateMember target.id data.apply >>= Db.commit)

/-- `user.delete()`: the rows that refer to the user, then the user. -/
def deleteUser (basis : List Basis) (userId : UUID) : Session σ Unit := do
  lock (fun db => (db.members.filter fun m => m.userId == userId).map fun m => .member m.id)
    fun _ => ()
  lock (fun _ => [.user userId]) fun _ => ()
  commitOn basis fun db => (fun db => ((), db)) <$> Db.commit (db.toTables.deleteUsers [userId])

/-- `OrgMemberDetailView.delete`. -/
def removeMember (userId orgId memberUserId : UUID) : Session σ Unit := do
  let (caller, target) ← getParties userId orgId memberUserId adminOrAbove
  if target.role = .owner then
    throw (.insufficientPermission "Owner cannot be removed. Transfer ownership first.")
  lift (checkCanManageMember caller.role target.role)
  deleteUser [.member target] target.userId

/-- The transaction of `OrgOwnerView.post`. -/
def moveOwnership (caller target : OrgMember) : Session σ Unit := do
  match ← update [.member target.id, .ownership target.userId] fun db =>
      db.toTables.updateMember target.id promote with
  | .error e => rollback (.error e)
  | .ok () =>
      match ← update [.member caller.id] fun db => db.toTables.transfer target.id caller.id with
      | .error e => rollback (.error e)
      | .ok () => commitOn [.member caller, .member target] fun db =>
          (fun db => ((), db)) <$> (db.toTables.transfer target.id caller.id >>= Db.commit)

/-- `OrgOwnerView.post`. -/
def transferOwnership (userId orgId targetUserId : UUID) : Session σ Unit := do
  let (caller, target) ← getParties userId orgId targetUserId [.owner]
  if target.role ≠ .admin then
    throw (.insufficientPermission "Ownership can only be transferred to an admin.")
  moveOwnership caller target

end Session

/-- A request to one of the member endpoints of an org. -/
inductive MemberRequest
  | patch (userId memberUserId : UUID) (data : MemberUpdate)
  | remove (userId memberUserId : UUID)
  | transfer (userId targetUserId : UUID)

def MemberRequest.session (orgId : UUID) : MemberRequest → Session σ Unit
  | patch userId memberUserId data => Session.patchMember userId orgId memberUserId data
  | remove userId memberUserId => Session.removeMember userId orgId memberUserId
  | transfer userId targetUserId => Session.transferOwnership userId orgId targetUserId

/-! ## What a complete request does -/

/-- The member with the key `id` is rewritten by `f`, and nothing else has changed. -/
structure MemberRewritten (db db' : Db) (f : OrgMember → OrgMember) : Prop where
  rows : db'.members.rows = db.members.rows.map f
  frame : db'.toTables = { db.toTables with members := db'.members }

/-- Rewrites the row with the key `id`. -/
def rewriteRow (id : UUID) (f : OrgMember → OrgMember) (m : OrgMember) : OrgMember :=
  if m.id = id then f m else m

/-- Caller and target are the members of the org that the request names. -/
structure Parties (orgId userId targetUserId : UUID) (db : Db) (caller target : OrgMember) :
    Prop where
  caller_mem : caller ∈ db.members.rows
  caller_org : caller.orgId = orgId
  caller_user : caller.userId = userId
  target_mem : target ∈ db.members.rows
  target_org : target.orgId = orgId
  target_user : target.userId = targetUserId

/-- What a request that changes something does. -/
inductive MemberStep (orgId : UUID) (db : Db) : MemberRequest → Db → Prop
  | patch {userId memberUserId : UUID} {data : MemberUpdate} {caller target : OrgMember}
      {db' : Db} (parties : Parties orgId userId memberUserId db caller target)
      (manages : target.role.rank < caller.role.rank)
      (assigns : ∀ role ∈ data.role, role.rank < caller.role.rank)
      (rewritten : MemberRewritten db db' (rewriteRow target.id data.apply)) :
      MemberStep orgId db (.patch userId memberUserId data) db'
  | remove {userId memberUserId : UUID} {caller target : OrgMember} {db' : Db}
      (parties : Parties orgId userId memberUserId db caller target)
      (manages : target.role.rank < caller.role.rank) (notOwner : target.role ≠ .owner)
      (deleted : db'.toTables = db.toTables.deleteUsers [memberUserId]) :
      MemberStep orgId db (.remove userId memberUserId) db'
  | transfer {userId targetUserId : UUID} {caller target : OrgMember} {db' : Db}
      (parties : Parties orgId userId targetUserId db caller target)
      (owner : caller.role = .owner) (admin : target.role = .admin)
      (rewritten : MemberRewritten db db'
        fun m => rewriteRow caller.id demote (rewriteRow target.id promote m)) :
      MemberStep orgId db (.transfer userId targetUserId) db'

section Effects

variable {w : World σ}

theorem Tables.updateMember_commit {db db' : Db} {id : UUID} {f : OrgMember → OrgMember}
    (h : (db.toTables.updateMember id f >>= Db.commit) = .ok db') :
    MemberRewritten db db' (rewriteRow id f) := by
  obtain ⟨t, hupdate, hcommit⟩ := bind_eq_ok.mp h
  obtain ⟨_, hrows, hframe⟩ := Tables.updateMember_eq_ok hupdate
  rw [← Db.commit_eq_ok.mp hcommit] at hrows hframe
  exact ⟨hrows, hframe⟩

theorem Tables.transfer_commit {db db' : Db} {targetId callerId : UUID}
    (h : (db.toTables.transfer targetId callerId >>= Db.commit) = .ok db') :
    MemberRewritten db db' fun m => rewriteRow callerId demote (rewriteRow targetId promote m) := by
  obtain ⟨t, htransfer, hcommit⟩ := bind_eq_ok.mp h
  obtain ⟨t₁, hfirst, hsecond⟩ := bind_eq_ok.mp htransfer
  obtain ⟨_, hrows₁, hframe₁⟩ := Tables.updateMember_eq_ok hfirst
  obtain ⟨_, hrows₂, hframe₂⟩ := Tables.updateMember_eq_ok hsecond
  rw [← Db.commit_eq_ok.mp hcommit] at hrows₂ hframe₂
  constructor
  · rw [hrows₂, hrows₁, List.map_map]
    rfl
  · rw [hframe₂, hframe₁]

namespace Session

/-- The membership that is read is stored, with an allowed role. -/
theorem ends_getOrgAndMember {userId orgId : UUID} {allowedRoles : List OrgRole}
    {post : Py (Org × OrgMember) → World σ → Prop} (herror : ∀ e, post (.error e) w)
    (hok : ∀ org member, member ∈ w.db.members.rows → member.orgId = orgId →
      member.userId = userId → org ∈ w.db.orgs.rows → org.id = orgId →
      member.role ∈ allowedRoles → post (.ok (org, member)) w) :
    (getOrgAndMember userId orgId allowedRoles).Ends post w := by
  unfold getOrgAndMember
  simp only [Fallible.ends_bind, ends_select, Fallible.follow_ok]
  cases hfound : w.db.orgAndMember userId orgId with
  | none =>
      dsimp only
      simp only [Fallible.ends_bind, ends_select, Fallible.follow_ok]
      split
      · exact herror _
      · exact herror _
  | some found =>
      obtain ⟨hm, horg, huser, ho, hid⟩ := Db.orgAndMember_eq_some.mp hfound
      dsimp only
      split
      next hallowed =>
          exact hok found.1 found.2 hm horg huser ho hid (List.contains_iff_mem.mp hallowed)
      next => exact herror _

/-- Among others, the caller's row has been read at some time. -/
theorem meets_getOrgAndMember {userId orgId : UUID} {allowedRoles : List OrgRole}
    {inv : World σ → Prop} {contract : Contract (Statement Label Lock (World σ)) (World σ)}
    {post : World σ → Py (Org × OrgMember) → Prop} (herror : ∀ t e, post t (.error e))
    (hok : ∀ t org member, inv t → member ∈ t.db.members.rows → member.orgId = orgId →
      org.id = orgId → member.role ∈ allowedRoles → post t (.ok (org, member))) :
    (getOrgAndMember userId orgId allowedRoles).Meets inv contract post w := by
  unfold getOrgAndMember
  rw [Fallible.meets_bind, meets_select]
  intro t _ ht _
  rw [Fallible.chain_ok]
  cases hfound : t.db.orgAndMember userId orgId with
  | none =>
      dsimp only
      rw [Fallible.meets_bind, meets_select]
      intro t' _ _ _
      rw [Fallible.chain_ok]
      split
      · exact herror _ _
      · exact herror _ _
  | some found =>
      obtain ⟨hm, horg, -, -, hid⟩ := Db.orgAndMember_eq_some.mp hfound
      dsimp only
      split
      next hallowed => exact hok t found.1 found.2 ht hm horg hid (List.contains_iff_mem.mp hallowed)
      next => exact herror _ _

theorem ends_getMemberOr404 {orgId userId : UUID} {post : Py OrgMember → World σ → Prop}
    (herror : ∀ e, post (.error e) w)
    (hok : ∀ member ∈ w.db.members.rows, member.orgId = orgId → member.userId = userId →
      post (.ok member) w) : (getMemberOr404 orgId userId).Ends post w := by
  unfold getMemberOr404
  simp only [Fallible.ends_bind, ends_select, Fallible.follow_ok]
  cases hfound : w.db.memberOf orgId userId with
  | none => exact herror _
  | some member =>
      obtain ⟨hm, horg, huser⟩ := Db.memberOf_eq_some.mp hfound
      exact hok member hm horg huser

theorem ends_getParties {orgId userId targetUserId : UUID} {allowedRoles : List OrgRole}
    {post : Py (OrgMember × OrgMember) → World σ → Prop} (herror : ∀ e, post (.error e) w)
    (hok : ∀ caller target, Parties orgId userId targetUserId w.db caller target →
      caller.role ∈ allowedRoles → post (.ok (caller, target)) w) :
    (getParties userId orgId targetUserId allowedRoles).Ends post w := by
  unfold getParties
  rw [Fallible.ends_bind]
  refine ends_getOrgAndMember herror fun org caller hcaller horg huser _ _ hallowed => ?_
  rw [Fallible.follow_ok]
  dsimp only
  rw [Fallible.ends_bind]
  refine ends_getMemberOr404 herror fun target htarget htargetOrg htargetUser => ?_
  exact hok caller target ⟨hcaller, horg, huser, htarget, htargetOrg, htargetUser⟩ hallowed

/-- The world is as it was, or a step has been made. -/
def Stepped (step : Db → Db → Prop) (w : World σ) {α : Type} (_ : Py α) (w' : World σ) : Prop :=
  w' = w ∨ ∃ db', step w.db db' ∧ w' = { w with db := db' }

/-- The request has failed and the world is as it was, or a step has been made. -/
def Carried (step : Db → Db → Prop) (w : World σ) {α : Type} (result : Py α) (w' : World σ) : Prop :=
  ((∃ e, result = .error e) ∧ w' = w) ∨ ∃ db', step w.db db' ∧ w' = { w with db := db' }

theorem Carried.stepped {step : Db → Db → Prop} {α : Type} {result : Py α} {w' : World σ}
    (h : Carried step w result w') : Stepped step w result w' :=
  h.imp And.right id

theorem ends_patchMember (orgId userId memberUserId : UUID) (data : MemberUpdate) :
    (patchMember userId orgId memberUserId data).Ends
      (Stepped (fun db => MemberStep orgId db (.patch userId memberUserId data)) w) w := by
  unfold patchMember
  rw [Fallible.ends_bind]
  refine ends_getParties (fun _ => Or.inl rfl) fun caller target parties _ => ?_
  rw [Fallible.follow_ok]
  dsimp only
  rw [Fallible.ends_bind, ends_lift]
  cases hmanages : checkCanManageMember caller.role target.role with
  | error e => exact Or.inl rfl
  | ok _ =>
      rw [Fallible.follow_ok]
      split
      · exact Or.inl rfl
      rw [Fallible.ends_bind, ends_lift]
      cases hassigns : data.role.elim (.ok ()) (checkCanAssignRole caller.role) with
      | error e => exact Or.inl rfl
      | ok _ =>
          rw [Fallible.follow_ok]
          refine ends_execute (fun _ => Or.inl rfl) fun _ db' hwrite => Or.inr ?_
          obtain ⟨_, hdb, hpair⟩ := map_eq_ok.mp hwrite
          cases hpair
          refine ⟨_, .patch parties (checkCanManageMember_eq_ok.mp hmanages) ?_
            (Tables.updateMember_commit hdb), rfl⟩
          intro role hrole
          rw [hrole] at hassigns
          exact checkCanAssignRole_eq_ok.mp hassigns

theorem ends_deleteUser (basis : List Basis) (userId : UUID) :
    (deleteUser basis userId).Ends
      (Carried (fun db db' => db'.toTables = db.toTables.deleteUsers [userId]) w) w := by
  unfold deleteUser
  simp only [Fallible.ends_bind, ends_lock, Fallible.follow_ok]
  refine ends_commitOn (fun e => Or.inl ⟨⟨e, rfl⟩, rfl⟩) fun _ db' hwrite => Or.inr ?_
  obtain ⟨_, hdb, hpair⟩ := map_eq_ok.mp hwrite
  cases hpair
  exact ⟨_, Db.commit_eq_ok.mp hdb, rfl⟩

theorem ends_removeMember (orgId userId memberUserId : UUID) :
    (removeMember userId orgId memberUserId).Ends
      (Carried (fun db => MemberStep orgId db (.remove userId memberUserId)) w) w := by
  unfold removeMember
  rw [Fallible.ends_bind]
  refine ends_getParties (fun e => Or.inl ⟨⟨e, rfl⟩, rfl⟩) fun caller target parties _ => ?_
  rw [Fallible.follow_ok]
  dsimp only
  by_cases howner : target.role = .owner
  · rw [if_pos howner]
    exact Or.inl ⟨⟨_, rfl⟩, rfl⟩
  rw [if_neg howner, Fallible.ends_bind, ends_lift]
  cases hmanages : checkCanManageMember caller.role target.role with
  | error e => exact Or.inl ⟨⟨e, rfl⟩, rfl⟩
  | ok _ =>
      rw [Fallible.follow_ok]
      refine (ends_deleteUser [.member target] target.userId).mono fun _ w' hended => ?_
      refine hended.imp id fun ⟨db', hdeleted, hw'⟩ => ⟨db', ?_, hw'⟩
      rw [parties.target_user] at hdeleted
      exact .remove parties (checkCanManageMember_eq_ok.mp hmanages) howner hdeleted

theorem ends_moveOwnership (caller target : OrgMember) :
    (moveOwnership caller target).Ends
      (Stepped (fun db db' => MemberRewritten db db'
        fun m => rewriteRow caller.id demote (rewriteRow target.id promote m)) w) w := by
  unfold moveOwnership update
  simp only [Fallible.ends_bind, ends_lock, Fallible.follow_ok]
  split
  · exact Or.inl rfl
  simp only [Fallible.ends_bind, ends_lock, Fallible.follow_ok]
  split
  · exact Or.inl rfl
  refine ends_commitOn (fun _ => Or.inl rfl) fun _ db' hwrite => Or.inr ?_
  obtain ⟨_, hdb, hpair⟩ := map_eq_ok.mp hwrite
  cases hpair
  exact ⟨_, Tables.transfer_commit hdb, rfl⟩

theorem ends_transferOwnership (orgId userId targetUserId : UUID) :
    (transferOwnership userId orgId targetUserId).Ends
      (Stepped (fun db => MemberStep orgId db (.transfer userId targetUserId)) w) w := by
  unfold transferOwnership
  rw [Fallible.ends_bind]
  refine ends_getParties (fun _ => Or.inl rfl) fun caller target parties hallowed => ?_
  rw [Fallible.follow_ok]
  dsimp only
  by_cases hadmin : target.role = .admin
  · rw [if_neg (not_not_intro hadmin)]
    refine (ends_moveOwnership caller target).mono fun _ w' hended => ?_
    refine hended.imp id fun ⟨db', hrewritten, hw'⟩ => ⟨db', ?_, hw'⟩
    exact .transfer parties (List.mem_singleton.mp hallowed) hadmin hrewritten
  · rw [if_pos hadmin]
    exact Or.inl rfl

end Session

/-- A complete request changes nothing, or makes its step. -/
theorem MemberRequest.ends (orgId : UUID) (request : MemberRequest) :
    (request.session orgId).Ends
      (Session.Stepped (fun db => MemberStep orgId db request) w) w := by
  cases request with
  | patch userId memberUserId data => exact Session.ends_patchMember orgId userId memberUserId data
  | remove userId memberUserId =>
      exact (Session.ends_removeMember orgId userId memberUserId).mono fun _ _ => Session.Carried.stepped
  | transfer userId targetUserId => exact Session.ends_transferOwnership orgId userId targetUserId

end Effects

end Saasmint
