import Saasmint.Orgs.Invitations
import Saasmint.Orgs.Owners

/-!
# The life of an invitation

Invitations are pending until they are accepted, cancelled, declined or found to be
expired.  Any number of requests may be about one invitation at once.  Each reads it
as pending and writes the status it wants, by the primary key and without looking
again, so a cancelled invitation may yet be accepted, and an accepted one be cancelled
while the membership stays.

As long as each write finds the invitation it has read still pending, it leaves that
status once and for all, and has been accepted at the end just when an account and a
membership were created from it.
-/

namespace Saasmint

open Atomic Relational

variable {σ : Type}

/-! ## What a request may write -/

/-- Invitations stay, under their keys and tokens. -/
def KeepsInvitations (w w' : World σ) : Prop :=
  ∀ i ∈ w.db.invitations.rows, ∃ i' ∈ w'.db.invitations.rows, i'.id = i.id ∧ i'.token = i.token

theorem KeepsInvitations.refl (w : World σ) : KeepsInvitations w w :=
  fun i hi => ⟨i, hi, rfl, rfl⟩

theorem KeepsInvitations.trans {w w' w'' : World σ} (h : KeepsInvitations w w')
    (h' : KeepsInvitations w' w'') : KeepsInvitations w w'' := by
  intro i hi
  obtain ⟨i', hi', hid, htoken⟩ := h i hi
  obtain ⟨i'', hi'', hid', htoken'⟩ := h' i' hi'
  exact ⟨i'', hi'', hid'.trans hid, htoken'.trans htoken⟩

/-- The invitation is still pending. -/
def StillPending (invitation : Invitation) (db : Db) : Prop :=
  ∀ i ∈ db.invitations.rows, i.id = invitation.id → i.status = .pending

/-- What a write of a request does, when it finds the invitation it has read pending. -/
inductive InvitationWrite (request : InvitationRequest σ) (db : Db) : Db → Prop
  | none : InvitationWrite request db db
  | invited {db' : Db} (invitation : Invitation)
      (rows : db'.invitations.rows = db.invitations.rows ++ [invitation])
      (frame : db'.toTables = { db.toTables with invitations := db'.invitations }) :
      InvitationWrite request db db'
  | ended {db' : Db} (invitation : Invitation) (status : InvitationStatus)
      (terminal : status ≠ .pending) (notAccepted : status ≠ .accepted)
      (pending : StillPending invitation db)
      (set : StatusSet db db' invitation.id status) : InvitationWrite request db db'
  | accepted {db' : Db} {rt : Runtime σ} {fullName : String} (invitation : Invitation)
      (accepts : request = .accept rt invitation.token fullName)
      (stored : ∃ i ∈ db.invitations.rows, i.id = invitation.id ∧ i.token = invitation.token)
      (pending : StillPending invitation db)
      (accepted : Accepted rt invitation fullName db db') : InvitationWrite request db db'

theorem InvitationWrite.keeps {request : InvitationRequest σ} {w w' : World σ}
    (h : InvitationWrite request w.db w'.db) : KeepsInvitations w w' := by
  intro i hi
  have hmapped : ∀ {id : UUID} {status : InvitationStatus}, w'.db.invitations.rows =
      w.db.invitations.rows.map (fun i => if i.id = id then i.withStatus status else i) →
      ∃ i' ∈ w'.db.invitations.rows, i'.id = i.id ∧ i'.token = i.token := by
    intro id status hrows
    rw [hrows]
    refine ⟨_, List.mem_map_of_mem hi, ?_⟩
    split <;> exact ⟨rfl, rfl⟩
  generalize hdb : w'.db = db' at h
  rw [hdb] at hmapped
  cases h with
  | none => exact ⟨i, hi, rfl, rfl⟩
  | invited invitation hrows _ =>
      rw [hrows]
      exact ⟨i, List.mem_append_left _ hi, rfl, rfl⟩
  | ended invitation status _ _ _ hset => exact hmapped hset.rows
  | accepted invitation _ _ _ haccepted => exact hmapped haccepted.invitations

/-- What a request relies on, and what it guarantees. -/
def invitationContract (request : InvitationRequest σ) :
    Contract (Statement Label Lock (World σ)) (World σ) where
  assume statement w := ∀ basis ∈ statement.label.basis, basis.Current w.db
  rely := KeepsInvitations
  guarantee w w' := InvitationWrite request w.db w'.db
  rely_refl := KeepsInvitations.refl
  rely_trans := KeepsInvitations.trans
  guarantee_refl _ := .none

/-! ## Requests -/

namespace Session

theorem quiet_getOrgAndMember (userId orgId : UUID) (allowedRoles : List OrgRole) :
    (getOrgAndMember userId orgId allowedRoles : Session σ _).Quiet := by
  unfold getOrgAndMember
  refine Fallible.quiet_bind (quiet_select _) fun found => ?_
  split
  · split
    · exact Fallible.quiet_pure _
    · exact Fallible.quiet_throw _
  · refine Fallible.quiet_bind (quiet_select _) fun found => ?_
    split
    · exact Fallible.quiet_throw _
    · exact Fallible.quiet_throw _

theorem quiet_validateSeatLimit (orgId : UUID) :
    (validateSeatLimit orgId : Session σ _).Quiet := by
  unfold validateSeatLimit lockActiveTeamSub
  refine Fallible.quiet_bind (quiet_lock _ _) fun found => ?_
  split
  · refine Fallible.quiet_bind (quiet_select _) fun _ => ?_
    exact Fallible.quiet_bind (quiet_select _) fun _ => Fallible.quiet_pure _
  · exact Fallible.quiet_pure _

theorem quiet_checkSeatCap (orgId : UUID) : (checkSeatCap orgId : Session σ _).Quiet := by
  unfold checkSeatCap lockActiveTeamSub
  refine Fallible.quiet_bind (quiet_lock _ _) fun found => ?_
  split
  · exact Fallible.quiet_bind (quiet_select _) fun _ => Fallible.quiet_pure _
  · exact Fallible.quiet_pure _

end Session

section Requests

variable {w : World σ} {request : InvitationRequest σ}

/-- A row that was read and is stored ever since. -/
theorem KeepsInvitations.stored {w' : World σ} (h : KeepsInvitations w w') {invitation : Invitation}
    (hstored : ∃ i ∈ w.db.invitations.rows, i.id = invitation.id ∧ i.token = invitation.token) :
    ∃ i ∈ w'.db.invitations.rows, i.id = invitation.id ∧ i.token = invitation.token := by
  obtain ⟨i, hi, hid, htoken⟩ := hstored
  obtain ⟨i', hi', hid', htoken'⟩ := h i hi
  exact ⟨i', hi', hid'.trans hid, htoken'.trans htoken⟩

theorem stillPending_of_current {invitation : Invitation} (hpending : invitation.status = .pending)
    {db : Db} (hcurrent : (Basis.invitation invitation).Current db) : StillPending invitation db :=
  fun i hi hid => (hcurrent i hi hid).trans hpending

theorem meets_saveStatus {invitation : Invitation} (hpending : invitation.status = .pending)
    {status : InvitationStatus} (hterminal : status ≠ .pending) (hnot : status ≠ .accepted) :
    (Session.saveStatus invitation status).Meets (fun _ => True) (invitationContract request)
      (fun _ _ => True) w := by
  unfold Session.saveStatus
  refine Session.meets_execute (fun _ _ _ _ => trivial) fun t _ db' _ _ hcurrent hwrite => ?_
  obtain ⟨_, hdb, hpair⟩ := map_eq_ok.mp hwrite
  cases hpair
  refine ⟨trivial, ?_, trivial⟩
  exact .ended invitation status hterminal hnot (stillPending_of_current hpending
    (hcurrent (.invitation invitation) (List.mem_singleton_self _))) (setStatus_commit hdb)

theorem meets_insertInvitation (invitation : Invitation) :
    (Session.insertInvitation invitation).Meets (fun _ => True) (invitationContract request)
      (fun _ _ => True) w := by
  unfold Session.insertInvitation
  refine (Session.quiet_validateSeatLimit _).meets_bind trivial (fun _ _ _ _ => trivial)
    fun t checked _ _ => ?_
  split
  · exact Session.meets_rollback.mpr fun _ _ _ _ => trivial
  refine (Session.quiet_insert _ _ _).meets_bind trivial (fun _ _ _ _ => trivial)
    fun t inserted _ _ => ?_
  split
  · exact Session.meets_rollback.mpr fun _ _ _ _ => trivial
  refine Session.meets_commitOn (fun _ _ _ _ => trivial) fun t _ db' _ _ _ hwrite => ?_
  obtain ⟨invitations, hinsert, hwrite⟩ := bind_eq_ok.mp hwrite
  obtain ⟨db'', hcommit, hpair⟩ := bind_eq_ok.mp hwrite
  cases hpair
  have htables := Db.commit_eq_ok.mp hcommit
  have hinvitations : db'.invitations = invitations := by rw [htables]
  refine ⟨trivial, .invited invitation ?_ ?_, trivial⟩
  · show db'.invitations.rows = _
    rw [hinvitations, insertRow_eq_ok hinsert]
  · show db'.toTables = { t.db.toTables with invitations := db'.invitations }
    rw [hinvitations, htables]

/-- An acceptance writes to an invitation that is still pending. -/
theorem meets_acceptInvitation {rt : Runtime σ} {invitation : Invitation} {fullName : String}
    (hpending : invitation.status = .pending)
    (hstored : ∃ i ∈ w.db.invitations.rows, i.id = invitation.id ∧ i.token = invitation.token) :
    (Session.acceptInvitation rt invitation fullName).Meets (fun _ => True)
      (invitationContract (.accept rt invitation.token fullName)) (fun _ _ => True) w := by
  unfold Session.acceptInvitation
  refine (Session.quiet_checkSeatCap _).meets_bind trivial (fun _ _ _ _ => trivial)
    fun t₁ _ hkeeps₁ _ => ?_
  split
  · exact Session.meets_rollback.mpr fun _ _ _ _ => trivial
  refine (Session.quiet_insert _ _ _).meets_bind trivial (fun _ _ _ _ => trivial)
    fun t₂ _ hkeeps₂ _ => ?_
  split
  · exact Session.meets_rollback.mpr fun _ _ _ _ => trivial
  refine (Session.quiet_insert _ _ _).meets_bind trivial (fun _ _ _ _ => trivial)
    fun t₃ _ hkeeps₃ _ => ?_
  split
  · exact Session.meets_rollback.mpr fun _ _ _ _ => trivial
  unfold Session.update
  refine (Session.quiet_lock _ _).meets_bind trivial (fun _ _ _ _ => trivial)
    fun t₄ _ hkeeps₄ _ => ?_
  split
  · exact Session.meets_rollback.mpr fun _ _ _ _ => trivial
  refine Session.meets_commitOn (fun _ _ _ _ => trivial) fun t₅ _ db' hkeeps₅ _ hcurrent hwrite => ?_
  obtain ⟨_, hstore, hpair⟩ := map_eq_ok.mp hwrite
  cases hpair
  have hkeeps : KeepsInvitations w t₅ :=
    (((KeepsInvitations.trans hkeeps₁ hkeeps₂).trans hkeeps₃).trans hkeeps₄).trans hkeeps₅
  refine ⟨trivial, .accepted invitation rfl (hkeeps.stored hstored) ?_
    (storeAcceptance_eq_ok hstore), trivial⟩
  exact stillPending_of_current hpending
    (hcurrent (.invitation invitation) (List.mem_singleton_self _))

theorem meets_acceptView (rt : Runtime σ) (token fullName : String) :
    (Session.acceptView rt token fullName).Meets (fun _ => True)
      (invitationContract (.accept rt token fullName)) (fun _ _ => True) w := by
  unfold Session.acceptView
  rw [Fallible.meets_bind, Session.meets_select]
  intro t _ _ _
  rw [Fallible.chain_ok]
  split
  next invitation hfound =>
      obtain ⟨hmem, rfl, hpending⟩ := Db.pendingByToken_eq_some hfound
      split
      · unfold Session.expireInvitation
        have hexpires : (Session.saveStatus invitation .expired).Meets (fun _ => True)
            (invitationContract (.accept rt invitation.token fullName)) (fun _ _ => True) t :=
          meets_saveStatus hpending nofun nofun
        rw [Fallible.meets_bind]
        refine hexpires.mono trivial fun _ result _ _ => ?_
        cases result <;> trivial
      · unfold Session.acceptPending
        refine (Session.quiet_select _).meets_bind trivial (fun _ _ _ _ => trivial)
          fun t₁ _ hkeeps₁ _ => ?_
        split
        · refine (Session.quiet_select _).meets_bind trivial (fun _ _ _ _ => trivial)
            fun t₂ _ hkeeps₂ _ => ?_
          split
          · trivial
          · refine meets_acceptInvitation hpending ?_
            exact (KeepsInvitations.trans hkeeps₁ hkeeps₂).stored ⟨invitation, hmem, rfl, rfl⟩
        · trivial
  next => trivial

theorem meets_createInvitation (rt : Runtime σ) (userId orgId : UUID) (data : InvitationData) :
    (Session.createInvitation rt userId orgId data).Meets (fun _ => True)
      (invitationContract request) (fun _ _ => True) w := by
  unfold Session.createInvitation
  refine (Session.quiet_getOrgAndMember _ _ _).meets_bind trivial (fun _ _ _ _ => trivial)
    fun _ found _ _ => ?_
  obtain ⟨org, caller⟩ := found
  dsimp only
  refine (Session.quiet_select _).meets_bind trivial (fun _ _ _ _ => trivial) fun _ _ _ _ => ?_
  split
  · trivial
  refine (Session.quiet_select _).meets_bind trivial (fun _ _ _ _ => trivial) fun _ _ _ _ => ?_
  split
  · trivial
  exact meets_insertInvitation _

theorem meets_cancelInvitation (userId orgId invitationId : UUID) :
    (Session.cancelInvitation userId orgId invitationId).Meets (fun _ => True)
      (invitationContract request) (fun _ _ => True) w := by
  unfold Session.cancelInvitation
  refine (Session.quiet_getOrgAndMember _ _ _).meets_bind trivial (fun _ _ _ _ => trivial)
    fun _ _ _ _ => ?_
  rw [Fallible.meets_bind, Session.meets_select]
  intro t _ _ _
  rw [Fallible.chain_ok]
  split
  next invitation hfound =>
      exact meets_saveStatus (Db.pendingById_eq_some hfound).2.2.2 nofun nofun
  next => trivial

theorem meets_declineInvitation (user : User) (token : String) :
    (Session.declineInvitation user token).Meets (fun _ => True) (invitationContract request)
      (fun _ _ => True) w := by
  unfold Session.declineInvitation
  rw [Fallible.meets_bind, Session.meets_select]
  intro t _ _ _
  rw [Fallible.chain_ok]
  split
  next invitation hfound =>
      split
      · trivial
      · exact meets_saveStatus (Db.pendingByToken_eq_some hfound).2.2 nofun nofun
  next => trivial

theorem InvitationRequest.meets (request : InvitationRequest σ) :
    request.session.Meets (fun _ => True) (invitationContract request) (fun _ _ => True) w := by
  cases request with
  | create rt userId orgId data => exact meets_createInvitation rt userId orgId data
  | accept rt token fullName => exact meets_acceptView rt token fullName
  | cancel userId orgId invitationId => exact meets_cancelInvitation userId orgId invitationId
  | decline user token => exact meets_declineInvitation user token

end Requests

/-! ## The life of one invitation -/

/-- The status that is stored for an invitation. -/
def Db.statusOf (db : Db) (invitationId : UUID) : Option InvitationStatus :=
  (db.invitations.find? fun i => i.id == invitationId).map Invitation.status

/-- An account and its membership come to be. -/
def Joins (db db' : Db) : Prop :=
  ∃ m ∈ db'.members.rows, m ∉ db.members.rows ∧
    ∃ u ∈ db'.users.rows, u ∉ db.users.rows ∧ m.userId = u.id

instance (db db' : Db) : Decidable (Joins db db') :=
  inferInstanceAs (Decidable (∃ _ ∈ _, _ ∧ ∃ _ ∈ _, _))

/-- The row that is stored under a key and a token. -/
theorem statusOf_eq {db : Db} {i : Invitation} (hi : i ∈ db.invitations.rows) :
    db.statusOf i.id = some i.status := by
  have hfound : db.invitations.find? (fun i' => i'.id == i.id) = some i :=
    Table.find?_eq_some _ hi (beq_iff_eq.mpr rfl) fun i' _ hid => Or.inl (beq_iff_eq.mp hid).symm
  rw [Db.statusOf, hfound]
  rfl

/-- What a write does to one invitation: nothing, an end without a membership, or the
acceptance with it. -/
inductive Fate (request : InvitationRequest σ) (i : Invitation) (db db' : Db) : Prop
  | kept (status : db'.statusOf i.id = db.statusOf i.id)
      (nobody : ∀ rt fullName, request = .accept rt i.token fullName → ¬ Joins db db')
  | ended (pending : db.statusOf i.id = some .pending) (status : InvitationStatus)
      (terminal : status ≠ .pending) (notAccepted : status ≠ .accepted)
      (ends : db'.statusOf i.id = some status) (nobody : ¬ Joins db db')
  | accepted (pending : db.statusOf i.id = some .pending)
      (ends : db'.statusOf i.id = some .accepted) (rt : Runtime σ) (fullName : String)
      (accepts : request = .accept rt i.token fullName) (joins : Joins db db')

theorem not_joins_of_same {db db' : Db} (h : db'.members = db.members) : ¬ Joins db db' := by
  rintro ⟨m, hm, hnew, _⟩
  rw [h] at hm
  exact hnew hm

/-- Setting the status of an invitation. -/
theorem statusOf_set {db db' : Db} {id : UUID} {status : InvitationStatus}
    (hrows : db'.invitations.rows = db.invitations.rows.map fun i =>
      if i.id = id then i.withStatus status else i)
    {row : Invitation} (hrow : row ∈ db.invitations.rows) :
    db'.statusOf row.id = some (if row.id = id then status else row.status) := by
  have hmem : (if row.id = id then row.withStatus status else row) ∈ db'.invitations.rows := by
    rw [hrows]
    exact List.mem_map_of_mem hrow
  have hid : (if row.id = id then row.withStatus status else row).id = row.id := by
    split <;> rfl
  rw [← hid, statusOf_eq hmem, hid]
  split <;> rfl

theorem joins_of_accepted {rt : Runtime σ} {invitation : Invitation} {fullName : String}
    {db db' : Db} (h : Accepted rt invitation fullName db db') : Joins db db' := by
  have huser : invitee rt invitation fullName ∉ db.users.rows := by
    intro hold
    have hpair := db'.users.valid.2
    rw [h.users] at hpair
    exact (List.pairwise_append.mp hpair).2.2 _ hold _ (List.mem_singleton_self _) (Or.inl rfl)
  have hmember : inviteeMembership rt invitation ∉ db.members.rows := by
    intro hold
    have hpair := db'.members.valid.2
    rw [h.members] at hpair
    exact (List.pairwise_append.mp hpair).2.2 _ hold _ (List.mem_singleton_self _) (Or.inl rfl)
  refine ⟨inviteeMembership rt invitation, ?_, hmember, invitee rt invitation fullName, ?_, huser,
    rfl⟩
  · rw [h.members]
    exact List.mem_append_right _ (List.mem_singleton_self _)
  · rw [h.users]
    exact List.mem_append_right _ (List.mem_singleton_self _)

/-- **What a write does to an invitation.** -/
theorem fate_of_write {request : InvitationRequest σ} {i row : Invitation} {db db' : Db}
    (hrow : row ∈ db.invitations.rows) (hid : row.id = i.id) (htoken : row.token = i.token)
    (h : InvitationWrite request db db') : Fate request i db db' := by
  have hstatus : db.statusOf i.id = some row.status := by
    rw [← hid]
    exact statusOf_eq hrow
  cases h with
  | none => exact .kept rfl fun _ _ _ => not_joins_of_same rfl
  | invited invitation hrows hframe =>
      refine .kept ?_ fun _ _ _ => not_joins_of_same (by rw [hframe])
      have hmem : row ∈ db'.invitations.rows := by
        rw [hrows]
        exact List.mem_append_left _ hrow
      rw [hstatus, ← hid]
      exact statusOf_eq hmem
  | ended invitation status hterminal hnot hpending hset =>
      have hnobody : ¬ Joins db db' := not_joins_of_same (by rw [hset.frame])
      have hset' := statusOf_set hset.rows hrow
      by_cases hthis : row.id = invitation.id
      · rw [if_pos hthis, hid] at hset'
        refine .ended ?_ status hterminal hnot hset' hnobody
        rw [hstatus, hpending row hrow hthis]
      · rw [if_neg hthis, hid] at hset'
        exact .kept (hset'.trans hstatus.symm) fun _ _ _ => hnobody
  | @accepted _ rt fullName invitation haccepts hstored hpending haccepted =>
      have hset' := statusOf_set haccepted.invitations hrow
      by_cases hthis : row.id = invitation.id
      · rw [if_pos hthis, hid] at hset'
        obtain ⟨stored, hmem, hstoredId, hstoredToken⟩ := hstored
        have hsame : stored = row :=
          db.invitations.eq_of_clash hmem hrow (Or.inl (hstoredId.trans hthis.symm))
        rw [← hstoredToken, hsame, htoken] at haccepts
        refine .accepted ?_ hset' rt fullName haccepts (joins_of_accepted haccepted)
        rw [hstatus, hpending row hrow hthis]
      · rw [if_neg hthis, hid] at hset'
        refine .kept (hset'.trans hstatus.symm) fun rt' fullName' haccepts' _ => hthis ?_
        -- another invitation's token is another one
        obtain ⟨stored, hmem, hstoredId, hstoredToken⟩ := hstored
        have htokens := (InvitationRequest.accept.inj (haccepts.symm.trans haccepts')).2.1
        have hsame : row = stored := db.invitations.eq_of_clash hrow hmem
          (Or.inr (Or.inl ((htoken.trans htokens.symm).trans hstoredToken.symm)))
        rw [hsame, hstoredId]

/-! ## Runs -/

section Runs

variable {ι : Type} [DecidableEq ι] {requests : ι → InvitationRequest σ} {i : Invitation}
variable {server : Server ι Label Lock (World σ) (Py Unit)} {move : Move ι}

/-- Any number of invitation requests, none of which has made a statement. -/
def invitationServer (requests : ι → InvitationRequest σ) (w : World σ) :
    Server ι Label Lock (World σ) (Py Unit) :=
  Server.start w fun k => ExceptT.run (requests k).session

/-- The status of the invitation stays, unless it is pending. -/
def StatusStays (i : Invitation) (server : Server ι Label Lock (World σ) (Py Unit))
    (move : Move ι) : Prop :=
  (server.step killed move).shared.db.statusOf i.id = server.shared.db.statusOf i.id ∨
    server.shared.db.statusOf i.id = some .pending

instance : Decidable (StatusStays i server move) := inferInstanceAs (Decidable (_ ∨ _))

/-- The invitation is pending no longer. -/
def LeavesPending (i : Invitation) (server : Server ι Label Lock (World σ) (Py Unit))
    (move : Move ι) : Prop :=
  server.shared.db.statusOf i.id = some .pending ∧
    (server.step killed move).shared.db.statusOf i.id ≠ some .pending

/-- An acceptance of the invitation creates an account and a membership. -/
def CreatesFrom (requests : ι → InvitationRequest σ) (i : Invitation)
    (server : Server ι Label Lock (World σ) (Py Unit)) (move : Move ι) : Prop :=
  ∃ k rt fullName, move = .step k ∧ requests k = .accept rt i.token fullName ∧
    Joins server.shared.db (server.step killed move).shared.db

/-- The life of an invitation along a run. -/
structure Lifecycle (requests : ι → InvitationRequest σ) (i : Invitation)
    (server : Server ι Label Lock (World σ) (Py Unit)) (schedule : List (Move ι)) : Prop where
  stays : Runs.Steps (Server.step killed) (StatusStays i) server schedule
  once : Runs.AtMostOnce (Server.step killed) (LeavesPending i) server schedule
  created : (server.run killed schedule).shared.db.statusOf i.id = some .accepted ↔
    Runs.Sometime (Server.step killed) (CreatesFrom requests i) server schedule

/-- A move leaves the world as it is, or decides the fate of the invitation. -/
def Decides (requests : ι → InvitationRequest σ) (i : Invitation)
    (server : Server ι Label Lock (World σ) (Py Unit)) (move : Move ι) : Prop :=
  (server.step killed move).shared = server.shared ∨ ∃ k, move = .step k ∧
    Fate (requests k) i server.shared.db (server.step killed move).shared.db

theorem Decides.statusStays (h : Decides requests i server move) : StatusStays i server move := by
  rcases h with hsame | ⟨k, _, hfate⟩
  · exact Or.inl (by rw [hsame])
  · cases hfate with
    | kept hstatus _ => exact Or.inl hstatus
    | ended hpending _ _ _ _ _ => exact Or.inr hpending
    | accepted hpending _ _ _ _ _ => exact Or.inr hpending

/-- What is not pending does not become so. -/
theorem Decides.not_pending (h : Decides requests i server move)
    (hnot : server.shared.db.statusOf i.id ≠ some .pending) :
    (server.step killed move).shared.db.statusOf i.id ≠ some .pending := by
  rcases h.statusStays with hsame | hpending
  · rwa [hsame]
  · exact absurd hpending hnot

/-- An invitation becomes accepted when something is created from it, and only then. -/
theorem Decides.accepted_iff (h : Decides requests i server move) :
    (server.step killed move).shared.db.statusOf i.id = some .accepted ↔
      server.shared.db.statusOf i.id = some .accepted ∨ CreatesFrom requests i server move := by
  rcases h with hsame | ⟨k, hmove, hfate⟩
  · rw [hsame]
    refine ⟨Or.inl, fun h => h.resolve_right ?_⟩
    rintro ⟨_, _, _, _, _, hjoins⟩
    exact not_joins_of_same (by rw [hsame]) hjoins
  · cases hfate with
    | kept hstatus hnobody =>
        rw [hstatus]
        refine ⟨Or.inl, fun h => h.resolve_right ?_⟩
        rintro ⟨k', rt, fullName, hmove', haccepts, hjoins⟩
        rw [hmove'] at hmove
        rw [Move.step.inj hmove] at haccepts
        exact hnobody rt fullName haccepts hjoins
    | ended hpending status _ hnot hends hnobody =>
        rw [hends, hpending]
        refine iff_of_false (fun h => hnot (Option.some.inj h)) ?_
        rintro (h | ⟨_, _, _, _, _, hjoins⟩)
        · cases h
        · exact hnobody hjoins
    | accepted _ hends rt fullName haccepts hjoins =>
        exact iff_of_true hends (Or.inr ⟨k, rt, fullName, hmove, haccepts, hjoins⟩)

/-- Every write that finds its invitation pending decides the fate of each one. -/
theorem decides_of_upToDate {w : World σ} (hi : i ∈ w.db.invitations.rows) {schedule : List (Move ι)}
    (hcurrent : Runs.Steps (Server.step killed) UpToDate (invitationServer requests w) schedule) :
    Runs.Steps (Server.step killed) (Decides requests i) (invitationServer requests w) schedule := by
  have hmeets : ∀ k, Program.Meets (fun _ => True) (invitationContract (requests k))
      (fun _ _ => True) (ExceptT.run (requests k).session) w := fun k => (requests k).meets
  obtain ⟨-, hwrites⟩ := Server.run_meets (fun k k' _ _ _ h => InvitationWrite.keeps h) trivial
    hmeets (respects_of_upToDate (fun _ _ _ h => h) hcurrent)
  have hstored : Runs.Always (Server.step killed) (fun server =>
      ∃ row ∈ server.shared.db.invitations.rows, row.id = i.id ∧ row.token = i.token)
      (invitationServer requests w) schedule := by
    refine Runs.always_of_steps (fun server move hstored hwrite => ?_) ⟨i, hi, rfl, rfl⟩ hwrites
    rcases hwrite with hsame | ⟨k, _, hwrite⟩
    · rw [hsame]
      exact hstored
    · exact KeepsInvitations.stored (InvitationWrite.keeps hwrite) hstored
  intro first move rest hsplit
  obtain ⟨row, hrow, hid, htoken⟩ := hstored first (move :: rest) hsplit
  rcases hwrites first move rest hsplit with hsame | ⟨k, hmove, hwrite⟩
  · exact Or.inl hsame
  · exact Or.inr ⟨k, hmove, fate_of_write hrow hid htoken hwrite⟩

/-- **The life of an invitation**, in every run of invitation requests, some of them killed
between two statements, whose writes find the invitation they have read still pending:

* a status that is not pending stays;
* the invitation leaves the pending status at most once;
* it is accepted at the end if and only if an account and a membership were created
  from it. -/
theorem lifecycle (requests : ι → InvitationRequest σ) {w : World σ}
    (hi : i ∈ w.db.invitations.rows) (hpending : i.status = .pending) {schedule : List (Move ι)}
    (hcurrent : Runs.Steps (Server.step killed) UpToDate (invitationServer requests w) schedule) :
    Lifecycle requests i (invitationServer requests w) schedule := by
  have hdecides := decides_of_upToDate hi hcurrent
  constructor
  · exact fun first move rest hsplit => (hdecides first move rest hsplit).statusStays
  · exact Runs.atMostOnce_of_leaves (fun _ _ h => h) (fun _ _ h hnot => h.not_pending hnot) hdecides
  · have hstart : (invitationServer requests w).shared.db.statusOf i.id ≠ some .accepted := by
      rw [show (invitationServer requests w).shared = w from rfl, statusOf_eq hi, hpending]
      nofun
    have hfinal := Runs.final_iff_sometime
      (P := fun server => server.shared.db.statusOf i.id = some .accepted)
      (fun _ _ h => h.accepted_iff) hdecides
    rw [hfinal]
    exact ⟨fun h => h.resolve_left hstart, Or.inr⟩

end Runs

/-! ## Two schedules -/

/-- The buyer has founded an org and invited an admin. -/
def inviting : World Unit :=
  Runs.run OrgOperation.after sampleWorld
    [.teamCheckout (sampleRuntime teamStripe 0 0) buyerCheckout,
      .invitation (.create (sampleRuntime teamStripe 1 0) buyer.id 1001#128
        ⟨"admin@example.com", .admin, OrgRole.admin_ne_owner⟩)]

/-- The invitation of the admin. -/
def adminInvitation : Invitation :=
  newInvitation (sampleRuntime teamStripe 1 0) buyer.id 1001#128 ⟨"admin@example.com", .admin, OrgRole.admin_ne_owner⟩

/-- The invitee accepts, and the owner cancels. -/
def acceptAndCancel (k : Fin 2) : InvitationRequest Unit :=
  if k = 0 then .accept (sampleRuntime teamStripe 2 0) "token-1" "Admin"
  else .cancel buyer.id 1001#128 adminInvitation.id

/-- The cancellation begins when the acceptance is complete, and finds no pending
invitation. -/
def acceptFirst : List (Move (Fin 2)) := List.replicate 9 (.step 0) ++ List.replicate 3 (.step 1)

theorem lifecycle_accept_first :
    Lifecycle acceptAndCancel adminInvitation (invitationServer acceptAndCancel inviting) acceptFirst :=
  lifecycle acceptAndCancel (by decide +kernel) rfl (by decide +kernel)

/-- The cancellation has read the invitation before it is accepted. -/
def cancelLast : List (Move (Fin 2)) :=
  List.replicate 2 (.step 1) ++ List.replicate 9 (.step 0) ++ [.step 1]

/-- The accepted invitation ends as a cancelled one, and the membership stays. -/
theorem not_lifecycle : (∀ k, (((invitationServer acceptAndCancel inviting).run killed
      cancelLast).procs k).result? = some (.ok ())) ∧
    ¬ Lifecycle acceptAndCancel adminInvitation (invitationServer acceptAndCancel inviting)
      cancelLast := by
  refine ⟨by decide +kernel, fun h => ?_⟩
  have hstays := h.stays
  revert hstays
  decide +kernel

end Saasmint
