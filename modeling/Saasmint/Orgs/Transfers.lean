import Saasmint.Orgs.Owners

/-!
# Member requests among each other

Transfers, updates and removals of one org, any number of them at once, one statement
after the other.  Each of them reads the caller's row and the target's, decides, and
writes in a transaction of its own in which it does not look again.

An owner who starts two transfers ends up with two successors, and a member who is
promoted between the check and the write of an update or a removal is an owner whom the
org loses.  As long as each write finds that the rows it is about are owners, or not, as
when they were read, the org keeps its one owner.
-/

namespace Saasmint

open Atomic Relational

variable {σ : Type} {orgId : UUID}

/-! ## What stays of a member -/

/-- Members go, or are rewritten under their keys. -/
def KeepsKeys (w w' : World σ) : Prop :=
  ∀ m' ∈ w'.db.members.rows, ∃ m ∈ w.db.members.rows,
    m.id = m'.id ∧ m.orgId = m'.orgId ∧ m.userId = m'.userId

theorem KeepsKeys.refl (w : World σ) : KeepsKeys w w := fun m hm => ⟨m, hm, rfl, rfl, rfl⟩

theorem KeepsKeys.trans {w w' w'' : World σ} (h : KeepsKeys w w') (h' : KeepsKeys w' w'') :
    KeepsKeys w w'' := by
  intro m'' hm''
  obtain ⟨m', hm', hid', horg', huser'⟩ := h' m'' hm''
  obtain ⟨m, hm, hid, horg, huser⟩ := h m' hm'
  exact ⟨m, hm, hid.trans hid', horg.trans horg', huser.trans huser'⟩

/-- A row that was read: what is stored under its key, or for its org and user, is the
same membership, whatever has become of its role. -/
def Recognized (row : OrgMember) (w : World σ) : Prop :=
  ∀ m ∈ w.db.members.rows, m.id = row.id ∨ (m.orgId = row.orgId ∧ m.userId = row.userId) →
    m.id = row.id ∧ m.orgId = row.orgId ∧ m.userId = row.userId

theorem recognized_of_mem {row : OrgMember} {w : World σ} (h : row ∈ w.db.members.rows) :
    Recognized row w := by
  rintro m hm (hid | ⟨horg, huser⟩)
  · rw [OrgMember.eq_of_id hm h hid]
    exact ⟨rfl, rfl, rfl⟩
  · rw [OrgMember.eq_of_user hm h horg huser]
    exact ⟨rfl, rfl, rfl⟩

theorem Recognized.of_keepsKeys {row : OrgMember} {w w' : World σ} (h : Recognized row w)
    (hkeys : KeepsKeys w w') : Recognized row w' := by
  intro m' hm' hsame
  obtain ⟨m, hm, hid, horg, huser⟩ := hkeys m' hm'
  rw [← hid, ← horg, ← huser] at hsame ⊢
  exact h m hm hsame

/-! ## What a write does to the owners -/

/-- Of the rewritten rows, one becomes an owner of the org. -/
theorem soleOwner_of_rewritten {db db' : Db} {f : OrgMember → OrgMember}
    (hrewritten : MemberRewritten db db' f) {owner : OrgMember} (hmem : owner ∈ db.members.rows)
    (horg : (f owner).orgId = orgId) (hrole : (f owner).role = .owner)
    (hunique : ∀ m ∈ db.members.rows, (f m).orgId = orgId → (f m).role = .owner → m = owner) :
    SoleOwner db'.toTables orgId := by
  have howner : OwnerOf db'.toTables orgId (f owner) := by
    refine ⟨?_, horg, hrole⟩
    rw [hrewritten.rows]
    exact List.mem_map_of_mem hmem
  refine .of_unique howner fun m' hm' => ?_
  obtain ⟨hmem', horg', hrole'⟩ := hm'
  rw [hrewritten.rows] at hmem'
  obtain ⟨m, hm, rfl⟩ := List.mem_map.mp hmem'
  rw [hunique m hm horg' hrole']

/-- Who is no owner is updated. -/
theorem soleOwner_of_update {db db' : Db} {id : UUID} {data : MemberUpdate}
    (h : SoleOwner db.toTables orgId) (hrewritten : MemberRewritten db db' (rewriteRow id data.apply))
    (hrole : ∀ m ∈ db.members.rows, m.id = id → m.role ≠ .owner) : SoleOwner db'.toTables orgId := by
  obtain ⟨owner, ⟨hmem, horg, howner⟩, _, hunique⟩ := h
  have hother : ∀ m, m.id ≠ id → rewriteRow id data.apply m = m := fun m hid => if_neg hid
  have hsame : rewriteRow id data.apply owner = owner :=
    hother owner fun hid => hrole owner hmem hid howner
  refine soleOwner_of_rewritten hrewritten hmem (by rw [hsame, horg]) (by rw [hsame, howner]) ?_
  intro m hm horg' hrole'
  by_cases hid : m.id = id
  · -- the updated member is given no owner's role
    unfold rewriteRow MemberUpdate.apply at hrole'
    rw [if_pos hid] at hrole'
    dsimp only at hrole'
    cases hdata : data.role with
    | none =>
        rw [hdata] at hrole'
        exact absurd hrole' (hrole m hm hid)
    | some role =>
        rw [hdata] at hrole'
        exact absurd (hdata.trans (congrArg some hrole')) data.assignable
  · rw [hother m hid] at horg' hrole'
    exact hunique m ⟨hm, horg', hrole'⟩

/-- The ownership goes from the owner to another member of the org. -/
theorem soleOwner_of_transfer {db db' : Db} {caller target : OrgMember}
    (h : SoleOwner db.toTables orgId) (hcaller : OwnerOf db.toTables orgId caller)
    (htarget : target ∈ db.members.rows) (horg : target.orgId = orgId) (hrole : target.role ≠ .owner)
    (hrewritten : MemberRewritten db db'
      fun m => rewriteRow caller.id demote (rewriteRow target.id promote m)) :
    SoleOwner db'.toTables orgId := by
  obtain ⟨owner, _, _, hunique⟩ := h
  have hne : target.id ≠ caller.id := by
    intro hid
    rw [OrgMember.eq_of_id htarget hcaller.1 hid] at hrole
    exact hrole hcaller.2.2
  have hpromoted : rewriteRow caller.id demote (rewriteRow target.id promote target) =
      promote target := by
    simp [rewriteRow, promote, hne]
  refine soleOwner_of_rewritten hrewritten htarget (by rw [hpromoted]; exact horg)
    (by rw [hpromoted]; rfl) ?_
  intro m hm horg' hrole'
  by_cases hc : m.id = caller.id
  · rw [OrgMember.eq_of_id hm hcaller.1 hc] at hrole'
    simp [rewriteRow, demote, Ne.symm hne] at hrole'
  by_cases ht : m.id = target.id
  · exact OrgMember.eq_of_id hm htarget ht
  · have hsame : rewriteRow caller.id demote (rewriteRow target.id promote m) = m := by
      simp [rewriteRow, hc, ht]
    rw [hsame] at horg' hrole'
    have hfirst := hunique m ⟨hm, horg', hrole'⟩
    have hsecond := hunique caller hcaller
    rw [hfirst, ← hsecond] at hc
    exact absurd rfl hc

/-- A user whose membership in the org is no owner's is deleted. -/
theorem soleOwner_of_deleteUsers {db db' : Db} {userId : UUID} (h : SoleOwner db.toTables orgId)
    (hdeleted : db'.toTables = db.toTables.deleteUsers [userId])
    (hrole : ∀ m ∈ db.members.rows, m.orgId = orgId → m.userId = userId → m.role ≠ .owner) :
    SoleOwner db'.toTables orgId := by
  refine h.congr fun m => ?_
  unfold OwnerOf
  rw [hdeleted, Tables.mem_members_deleteUsers]
  constructor
  · rintro ⟨⟨hm, _⟩, howner⟩
    exact ⟨hm, howner⟩
  · rintro ⟨hm, horg, howner⟩
    refine ⟨⟨hm, fun hgone => ?_⟩, horg, howner⟩
    exact hrole m hm horg (List.mem_singleton.mp hgone) howner

theorem Tables.transfer_parties {t t' : Tables} {targetId callerId : UUID}
    (h : t.transfer targetId callerId = .ok t') :
    (∃ m ∈ t.members.rows, m.id = targetId) ∧ ∃ m ∈ t.members.rows, m.id = callerId := by
  obtain ⟨t₁, hfirst, hsecond⟩ := bind_eq_ok.mp h
  obtain ⟨htarget, hrows, _⟩ := Tables.updateMember_eq_ok hfirst
  obtain ⟨⟨m', hm', hid⟩, _⟩ := Tables.updateMember_eq_ok hsecond
  refine ⟨htarget, ?_⟩
  rw [hrows] at hm'
  obtain ⟨m, hm, rfl⟩ := List.mem_map.mp hm'
  refine ⟨m, hm, ?_⟩
  rw [← hid]
  split <;> rfl

/-! ## Requests -/

/-- What a member request relies on and guarantees. -/
abbrev memberContract : Contract (Statement Label Lock (World σ)) (World σ) :=
  currentContract KeepsKeys KeepsKeys.refl KeepsKeys.trans

/-- What every request keeps. -/
abbrev OneOwner (orgId : UUID) (w : World σ) : Prop := SoleOwner w.db.toTables orgId

theorem keepsKeys_of_rewritten {w : World σ} {db' : Db} {f : OrgMember → OrgMember}
    (hrewritten : MemberRewritten w.db db' f)
    (hkeys : ∀ m, m.id = (f m).id ∧ m.orgId = (f m).orgId ∧ m.userId = (f m).userId) :
    KeepsKeys w { w with db := db' } := by
  intro m' hm'
  change m' ∈ db'.members.rows at hm'
  rw [hrewritten.rows] at hm'
  obtain ⟨m, hm, rfl⟩ := List.mem_map.mp hm'
  exact ⟨m, hm, hkeys m⟩

section Requests

variable {w : World σ}

/-- Both rows have been read at some time, the caller's first. -/
theorem meets_getParties {userId targetUserId : UUID} {allowedRoles : List OrgRole}
    {inv : World σ → Prop} {post : World σ → Py (OrgMember × OrgMember) → Prop}
    (herror : ∀ t e, post t (.error e))
    (hok : ∀ t caller target, Recognized caller t → caller.orgId = orgId →
      caller.role ∈ allowedRoles → Recognized target t → target.orgId = orgId →
      post t (.ok (caller, target))) :
    (Session.getParties userId orgId targetUserId allowedRoles).Meets inv memberContract post w := by
  unfold Session.getParties
  rw [Fallible.meets_bind]
  refine Session.meets_getOrgAndMember (fun t e => herror t e)
    fun t org caller _ hcaller horg _ hallowed => ?_
  rw [Fallible.chain_ok]
  dsimp only
  unfold Session.getMemberOr404
  rw [Fallible.meets_bind, Fallible.meets_bind, Session.meets_select]
  intro t' hkeys _ _
  rw [Fallible.chain_ok]
  cases hfound : t'.db.memberOf orgId targetUserId with
  | none => exact herror _ _
  | some target =>
      obtain ⟨htarget, htargetOrg, _⟩ := Db.memberOf_eq_some.mp hfound
      exact hok t' caller target ((recognized_of_mem hcaller).of_keepsKeys hkeys) horg hallowed
        (recognized_of_mem htarget) htargetOrg

/-- An update writes to a member who still is no owner. -/
theorem meets_patchMember (userId memberUserId : UUID) (data : MemberUpdate) :
    (Session.patchMember userId orgId memberUserId data).Meets (OneOwner orgId) memberContract
      (fun _ _ => True) w := by
  unfold Session.patchMember
  rw [Fallible.meets_bind]
  refine meets_getParties (fun _ _ => trivial) fun t caller target _ _ _ _ _ => ?_
  rw [Fallible.chain_ok]
  dsimp only
  rw [Fallible.meets_bind, Session.meets_lift]
  cases hmanages : checkCanManageMember caller.role target.role with
  | error e => trivial
  | ok _ =>
      rw [Fallible.chain_ok]
      split
      · trivial
      rw [Fallible.meets_bind, Session.meets_lift]
      cases data.role.elim (.ok ()) (checkCanAssignRole caller.role) with
      | error e => trivial
      | ok _ =>
          rw [Fallible.chain_ok]
          refine Session.meets_execute (fun _ _ _ _ => trivial) fun t' _ db' _ hone hcurrent hwrite => ?_
          obtain ⟨_, hdb, hpair⟩ := map_eq_ok.mp hwrite
          cases hpair
          have hrewritten := Tables.updateMember_commit hdb
          have htarget : target.role ≠ .owner := by
            intro howner
            have hrank := caller.role.rank_le
            have hbelow := checkCanManageMember_eq_ok.mp hmanages
            rw [howner] at hbelow
            simp only [OrgRole.rank] at hbelow hrank
            omega
          refine ⟨soleOwner_of_update hone hrewritten fun m hm hid howner => htarget ?_,
            keepsKeys_of_rewritten hrewritten fun m => ?_, trivial⟩
          · exact (hcurrent (.member target) (List.mem_singleton_self _) m hm hid).mp howner
          · unfold rewriteRow MemberUpdate.apply
            split <;> exact ⟨rfl, rfl, rfl⟩

/-- A removal deletes a member who still is no owner. -/
theorem meets_removeMember (userId memberUserId : UUID) :
    (Session.removeMember userId orgId memberUserId).Meets (OneOwner orgId) memberContract
      (fun _ _ => True) w := by
  unfold Session.removeMember
  rw [Fallible.meets_bind]
  refine meets_getParties (fun _ _ => trivial) fun t caller target _ _ _ htarget htargetOrg => ?_
  rw [Fallible.chain_ok]
  dsimp only
  by_cases howner : target.role = .owner
  · rw [if_pos howner]
    trivial
  rw [if_neg howner, Fallible.meets_bind, Session.meets_lift]
  cases checkCanManageMember caller.role target.role with
  | error e => trivial
  | ok _ =>
      rw [Fallible.chain_ok]
      unfold Session.deleteUser
      rw [Fallible.meets_bind, Session.meets_lock]
      intro t₁ hkeys₁ _ _
      rw [Fallible.chain_ok, Fallible.meets_bind, Session.meets_lock]
      intro t₂ hkeys₂ _ _
      rw [Fallible.chain_ok]
      refine Session.meets_commitOn (fun _ _ _ _ => trivial) fun t₃ _ db' hkeys₃ hone hcurrent hwrite => ?_
      obtain ⟨_, hdb, hpair⟩ := map_eq_ok.mp hwrite
      cases hpair
      have hdeleted := Db.commit_eq_ok.mp hdb
      have hknown := ((htarget.of_keepsKeys hkeys₁).of_keepsKeys hkeys₂).of_keepsKeys hkeys₃
      refine ⟨soleOwner_of_deleteUsers hone hdeleted fun m hm horg huser hrole => howner ?_, ?_,
        trivial⟩
      · have hid := (hknown m hm (Or.inr ⟨horg.trans htargetOrg.symm, huser⟩)).1
        exact (hcurrent (.member target) (List.mem_singleton_self _) m hm hid).mp hrole
      · intro m hm
        change m ∈ db'.members.rows at hm
        rw [hdeleted] at hm
        exact ⟨m, (Tables.mem_members_deleteUsers.mp hm).1, rfl, rfl, rfl⟩

/-- A transfer promotes a member who still is no owner and demotes the owner. -/
theorem meets_moveOwnership {caller target : OrgMember} (hcaller : Recognized caller w)
    (hcallerOrg : caller.orgId = orgId) (howner : caller.role = .owner)
    (htarget : Recognized target w) (htargetOrg : target.orgId = orgId)
    (hadmin : target.role = .admin) :
    (Session.moveOwnership caller target).Meets (OneOwner orgId) memberContract
      (fun _ _ => True) w := by
  unfold Session.moveOwnership Session.update
  rw [Fallible.meets_bind, Session.meets_lock]
  intro t₁ hkeys₁ _ _
  rw [Fallible.chain_ok]
  split
  · exact Session.meets_rollback.mpr fun _ _ _ _ => trivial
  rw [Fallible.meets_bind, Session.meets_lock]
  intro t₂ hkeys₂ _ _
  rw [Fallible.chain_ok]
  split
  · exact Session.meets_rollback.mpr fun _ _ _ _ => trivial
  refine Session.meets_commitOn (fun _ _ _ _ => trivial) fun t₃ _ db' hkeys₃ hone hcurrent hwrite => ?_
  obtain ⟨_, hdb, hpair⟩ := map_eq_ok.mp hwrite
  cases hpair
  have hrewritten := Tables.transfer_commit hdb
  obtain ⟨_, htransfer, _⟩ := bind_eq_ok.mp hdb
  -- the rows as the transaction finds them
  obtain ⟨⟨target', htarget', htargetId⟩, caller', hcaller', hcallerId⟩ :=
    Tables.transfer_parties htransfer
  have hcallerKeys := ((hcaller.of_keepsKeys hkeys₁).of_keepsKeys hkeys₂).of_keepsKeys hkeys₃
    caller' hcaller' (Or.inl hcallerId)
  have htargetKeys := ((htarget.of_keepsKeys hkeys₁).of_keepsKeys hkeys₂).of_keepsKeys hkeys₃
    target' htarget' (Or.inl htargetId)
  have hcallerRole : caller'.role = .owner :=
    (hcurrent (.member caller) (by simp [Label.basis]) caller' hcaller' hcallerId).mpr howner
  have htargetRole : target'.role ≠ .owner := by
    intro hrole
    have hread := (hcurrent (.member target) (by simp [Label.basis]) target' htarget'
      htargetId).mp hrole
    rw [hadmin] at hread
    cases hread
  rw [← hcallerId, ← htargetId] at hrewritten
  refine ⟨soleOwner_of_transfer hone ⟨hcaller', hcallerKeys.2.1.trans hcallerOrg, hcallerRole⟩
    htarget' (htargetKeys.2.1.trans htargetOrg) htargetRole hrewritten,
    keepsKeys_of_rewritten hrewritten fun m => ?_, trivial⟩
  unfold rewriteRow promote demote
  split <;> split <;> exact ⟨rfl, rfl, rfl⟩

theorem meets_transferOwnership (userId targetUserId : UUID) :
    (Session.transferOwnership userId orgId targetUserId).Meets (OneOwner orgId) memberContract
      (fun _ _ => True) w := by
  unfold Session.transferOwnership
  rw [Fallible.meets_bind]
  refine meets_getParties (fun _ _ => trivial)
    fun t caller target hcaller hcallerOrg hallowed htarget htargetOrg => ?_
  rw [Fallible.chain_ok]
  dsimp only
  by_cases hadmin : target.role = .admin
  · rw [if_neg (not_not_intro hadmin)]
    exact meets_moveOwnership hcaller hcallerOrg (List.mem_singleton.mp hallowed) htarget
      htargetOrg hadmin
  · rw [if_pos hadmin]
    trivial

theorem MemberRequest.meets (request : MemberRequest) :
    (request.session orgId).Meets (OneOwner orgId) memberContract (fun _ _ => True) w := by
  cases request with
  | patch userId memberUserId data => exact meets_patchMember userId memberUserId data
  | remove userId memberUserId => exact meets_removeMember userId memberUserId
  | transfer userId targetUserId => exact meets_transferOwnership userId targetUserId

end Requests

/-! ## Runs -/

/-- Any number of member requests of an org, none of which has made a statement. -/
def memberServer {ι : Type} (orgId : UUID) (requests : ι → MemberRequest) (w : World σ) :
    Server ι Label Lock (World σ) (Py Unit) :=
  Server.start w fun i => ExceptT.run ((requests i).session orgId)

/-- **An org keeps its one owner**, in every state of every run of member requests, some
of them killed between two statements, whose writes find owners and others as they were
read. -/
theorem one_owner {ι : Type} [DecidableEq ι] (requests : ι → MemberRequest) {w : World σ}
    (howner : SoleOwner w.db.toTables orgId) {schedule : List (Move ι)}
    (hcurrent : Runs.Steps (Server.step killed) UpToDate (memberServer orgId requests w) schedule) :
    Runs.Always (Server.step killed) (fun server => SoleOwner server.shared.db.toTables orgId)
      (memberServer orgId requests w) schedule := by
  have hmeets : ∀ i, Program.Meets (OneOwner orgId) memberContract (fun _ _ => True)
      (ExceptT.run ((requests i).session orgId)) w := fun i => (requests i).meets
  refine (Server.run_meets (fun _ _ _ _ _ h => h) ?_ hmeets
    (respects_of_upToDate (fun _ _ _ h => h) hcurrent)).1
  exact howner

/-! ## Two schedules -/

/-- A second admin joins. -/
def twoAdmins : List (OrgOperation Unit) :=
  staffed ++ [.invitation (.create (sampleRuntime teamStripe 3 0) buyer.id 1001#128
      ⟨"second@example.com", .admin, OrgRole.admin_ne_owner⟩),
    .invitation (.accept (sampleRuntime teamStripe 4 0) "token-3" "Second")]

/-- The account of the second admin. -/
def secondAdminId : UUID := 1038#128

/-- The owner transfers the org to both admins. -/
def transfers (i : Fin 2) : MemberRequest := .transfer buyer.id (if i = 0 then adminId else secondAdminId)

def transferring : Server (Fin 2) Label Lock (World Unit) (Py Unit) :=
  memberServer 1001#128 transfers (Runs.run OrgOperation.after sampleWorld twoAdmins)

/-- The second transfer begins when the first is complete, and is refused. -/
def oneByOne : List (Move (Fin 2)) :=
  [.step 0, .step 0, .step 0, .step 0, .step 0, .step 1, .step 1]

theorem one_owner_one_by_one : Runs.Always (Server.step killed)
    (fun server => SoleOwner server.shared.db.toTables 1001#128) transferring oneByOne :=
  one_owner transfers (by decide +kernel) (by decide +kernel)

/-- Both transfers have read the owner's row before either writes. -/
def together : List (Move (Fin 2)) :=
  [.step 0, .step 1, .step 0, .step 1, .step 0, .step 0, .step 0, .step 1, .step 1, .step 1]

/-- Both are carried out, and the org has two owners. -/
theorem not_one_owner : SoleOwner transferring.shared.db.toTables 1001#128 ∧
    (∀ i, ((transferring.run killed together).procs i).result? = some (.ok ())) ∧
    ¬ SoleOwner (transferring.run killed together).shared.db.toTables 1001#128 := by
  decide +kernel

end Saasmint
