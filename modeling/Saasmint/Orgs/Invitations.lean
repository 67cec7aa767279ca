import Saasmint.Orgs.Members

/-!
# Invitations

An admin invites an address; whoever holds the token accepts, which creates their
account and their membership, or declines; an admin cancels.  The status is read
before it is written, and the write goes to the row by its primary key.

Creating and accepting count the seats of the org under a lock on the row of its
active team subscription.
-/

namespace Saasmint

open Atomic Relational

variable {σ : Type}

/-! ## Addresses and queries -/

/-- The part before the last `@`, and the part after it. -/
def splitLastAt (cs : List Char) : Option (List Char × List Char) :=
  match cs.reverse.span (· ≠ '@') with
  | (_, []) => none
  | (domain, _ :: name) => some (name.reverse, domain.reverse)

/-- `BaseUserManager.normalize_email`. -/
def normalizeEmail (email : String) : String :=
  match splitLastAt (strip [' ', '\t', '\n', '\r'] email.toList) with
  | none => email
  | some (name, domain) => String.ofList (name ++ '@' :: domain.map Char.toLower)

namespace Db

/-- `email_is_registered`. -/
def emailIsRegistered (db : Db) (email : String) : Bool :=
  db.users.rows.any fun u => lower u.email == lower email

/-- `Invitation(token=token, status=PENDING)`. -/
def pendingByToken (db : Db) (token : String) : Option Invitation :=
  db.invitations.find? fun i => i.token == token && i.status == .pending

def pendingById (db : Db) (invitationId orgId : UUID) : Option Invitation :=
  db.invitations.find? fun i => i.id == invitationId && i.orgId == orgId && i.status == .pending

def membersOf (db : Db) (orgId : UUID) : List OrgMember :=
  db.members.filter fun m => m.orgId == orgId

def pendingOf (db : Db) (orgId : UUID) : List Invitation :=
  db.invitations.filter fun i => i.orgId == orgId && i.status == .pending

/-- The active subscriptions of the customer of an org. -/
def activeTeamSubs (db : Db) (orgId : UUID) : List Subscription :=
  db.subscriptions.filter fun s => s.status.isActive &&
    db.customers.rows.any fun c => s.stripeCustomerId == some c.id && c.orgId == some orgId

/-- What `lock_active_team_sub` selects. -/
def activeTeamSub (db : Db) (orgId : UUID) : Option Subscription :=
  first? Subscription.id (db.activeTeamSubs orgId)

theorem pendingByToken_eq_some {db : Db} {token : String} {i : Invitation}
    (h : db.pendingByToken token = some i) :
    i ∈ db.invitations.rows ∧ i.token = token ∧ i.status = .pending := by
  obtain ⟨hi, hselected⟩ := Table.mem_of_find? h
  simp only [Bool.and_eq_true, beq_iff_eq] at hselected
  exact ⟨hi, hselected⟩

theorem pendingById_eq_some {db : Db} {invitationId orgId : UUID} {i : Invitation}
    (h : db.pendingById invitationId orgId = some i) :
    i ∈ db.invitations.rows ∧ i.id = invitationId ∧ i.orgId = orgId ∧ i.status = .pending := by
  obtain ⟨hi, hselected⟩ := Table.mem_of_find? h
  simp only [Bool.and_eq_true, beq_iff_eq] at hselected
  exact ⟨hi, hselected.1.1, hselected.1.2, hselected.2⟩

end Db

/-! ## Rows -/

/-- `validated_data` of `CreateInvitationSerializer`. -/
structure InvitationData where
  email : String
  role : OrgRole
  assignable : role ≠ .owner

/-- `INVITATION_EXPIRY_DAYS` days, in microseconds. -/
def invitationExpiry : Int := 7 * 24 * 3600 * 1000000

def newInvitation (rt : Runtime σ) (userId orgId : UUID) (data : InvitationData) :
    Invitation where
  id := rt.invitationId
  orgId := orgId
  email := data.email
  role := data.role
  token := rt.token
  status := .pending
  invitedById := some userId
  createdAt := rt.now
  expiresAt := rt.now + invitationExpiry

/-- `User.objects.create_user` of the invitee. -/
def invitee (rt : Runtime σ) (invitation : Invitation) (fullName : String) : User where
  id := rt.userId
  email := normalizeEmail invitation.email
  fullName := fullName
  preferredCurrency := some "usd"

def inviteeMembership (rt : Runtime σ) (invitation : Invitation) : OrgMember where
  id := rt.memberId
  orgId := invitation.orgId
  userId := rt.userId
  role := invitation.role
  isBilling := false
  joinedAt := rt.now

def Invitation.withStatus (status : InvitationStatus) (i : Invitation) : Invitation :=
  { i with status := status }

/-- `save(update_fields=["status"])` of an invitation. -/
def Tables.setStatus (t : Tables) (id : UUID) (status : InvitationStatus) : Py Tables :=
  if t.invitations.rows.any (·.id == id) then
    match t.invitations.update? (·.id == id) (Invitation.withStatus status) with
    | some invitations => .ok { t with invitations := invitations }
    | none => .error (.integrity "duplicate key value violates unique constraint")
  else .error (.database "Save with update_fields did not affect any rows.")

theorem Tables.setStatus_eq_ok {t t' : Tables} {id : UUID} {status : InvitationStatus}
    (h : t.setStatus id status = .ok t') :
    t'.invitations.rows =
        t.invitations.rows.map (fun i => if i.id = id then i.withStatus status else i) ∧
      t' = { t with invitations := t'.invitations } := by
  unfold Tables.setStatus at h
  split at h
  next =>
      split at h
      next invitations hupdate =>
          cases h
          refine ⟨?_, rfl⟩
          simpa using Table.rows_update? hupdate
      next => cases h
  next => cases h

/-- What `accept_invitation` stores. -/
def storeAcceptance (rt : Runtime σ) (invitation : Invitation) (fullName : String) (db : Db) :
    Py Db := do
  if invitation.email = "" then throw (.valueError "Email is required")
  let users ← insertRow db.users (invitee rt invitation fullName)
  let members ← insertRow db.members (inviteeMembership rt invitation)
  let t := { db.toTables with users := users, members := members }
  let t ← t.setStatus invitation.id .accepted
  Db.commit t

/-! ## The endpoints -/

namespace Session

/-- `lock_active_team_sub`. -/
def lockActiveTeamSub (orgId : UUID) : Session σ (Option Subscription) :=
  lock (fun db => ((db.activeTeamSub orgId).map fun s => Lock.subscription s.id).toList)
    fun db => db.activeTeamSub orgId

/-- `_validate_seat_limit`. -/
def validateSeatLimit (orgId : UUID) : Session σ (Py Unit) := do
  let some sub ← lockActiveTeamSub orgId | return .ok ()
  let memberCount ← select fun db => (db.membersOf orgId).length
  let pendingCount ← select fun db => (db.pendingOf orgId).length
  return if sub.seatLimit ≤ memberCount + pendingCount then .error .seatLimitReached else .ok ()

/-- The seat check of `accept_invitation`. -/
def checkSeatCap (orgId : UUID) : Session σ (Py Unit) := do
  let some sub ← lockActiveTeamSub orgId | return .ok ()
  let memberCount ← select fun db => (db.membersOf orgId).length
  return if sub.seatLimit < memberCount + 1 then .error .seatLimitReached else .ok ()

/-- The transaction of `InvitationListCreateView.post`. -/
def insertInvitation (invitation : Invitation) : Session σ Unit := do
  match ← validateSeatLimit invitation.orgId with
  | .error e => rollback (.error e)
  | .ok () =>
      match ← insert [.invitation invitation.id, .invitationToken invitation.token,
          .pendingInvitation invitation.orgId invitation.email] (·.invitations) invitation with
      | .error e => rollback (.error e)
      | .ok () => commit fun db => do
          let invitations ← insertRow db.invitations invitation
          return ((), ← Db.commit { db.toTables with invitations := invitations })

/-- `InvitationListCreateView.post`. -/
def createInvitation (rt : Runtime σ) (userId orgId : UUID) (data : InvitationData) :
    Session σ Unit := do
  let (org, _) ← getOrgAndMember userId orgId adminOrAbove
  if ← select fun db => db.emailIsRegistered data.email then throw .invitationEmailExists
  if ← select fun db => (db.pendingOf org.id).any (·.email == data.email) then
    throw .invitationPendingExists
  insertInvitation (newInvitation rt userId org.id data)

/-- The status of an invitation that was read as pending. -/
def saveStatus (invitation : Invitation) (status : InvitationStatus) : Session σ Unit :=
  execute [.invitation invitation] (fun _ => [.invitation invitation.id]) fun db =>
    (fun db => ((), db)) <$> (db.toTables.setStatus invitation.id status >>= Db.commit)

/-- `InvitationCancelView.delete`. -/
def cancelInvitation (userId orgId invitationId : UUID) : Session σ Unit := do
  let _ ← getOrgAndMember userId orgId adminOrAbove
  let some invitation ← select fun db => db.pendingById invitationId orgId
    | throw (.notFound "No Invitation matches the given query.")
  saveStatus invitation .cancelled

/-- `accept_invitation`. -/
def acceptInvitation (rt : Runtime σ) (invitation : Invitation) (fullName : String) :
    Session σ Unit := do
  match ← checkSeatCap invitation.orgId with
  | .error e => rollback (.error e)
  | .ok () =>
      match ← insert [.user rt.userId, .email (normalizeEmail invitation.email)] (·.users)
          (invitee rt invitation fullName) with
      | .error e => rollback (.error e)
      | .ok () =>
          match ← insert [.member rt.memberId, .membership invitation.orgId rt.userId] (·.members)
              (inviteeMembership rt invitation) with
          | .error e => rollback (.error e)
          | .ok () =>
              match ← update [.invitation invitation.id] (fun db =>
                  db.toTables.setStatus invitation.id .accepted) with
              | .error e => rollback (.error e)
              | .ok () => commitOn [.invitation invitation] fun db =>
                  (fun db => ((), db)) <$> storeAcceptance rt invitation fullName db

/-- An invitation that was read after its expiry. -/
def expireInvitation (invitation : Invitation) : Session σ Unit := do
  saveStatus invitation .expired
  throw .invitationExpired

def acceptPending (rt : Runtime σ) (invitation : Invitation) (fullName : String) :
    Session σ Unit := do
  let some _ ← select fun db => db.orgById invitation.orgId
    | throw (.doesNotExist "Org matching query does not exist.")
  if ← select fun db => db.emailIsRegistered invitation.email then throw .invitationEmailExists
  acceptInvitation rt invitation fullName

/-- `InvitationAcceptView.post`. -/
def acceptView (rt : Runtime σ) (token fullName : String) : Session σ Unit := do
  let some invitation ← select fun db => db.pendingByToken token
    | throw (.notFound "No Invitation matches the given query.")
  if invitation.expiresAt < rt.now then expireInvitation invitation
  else acceptPending rt invitation fullName

/-- `InvitationDeclineView.post`. -/
def declineInvitation (user : User) (token : String) : Session σ Unit := do
  let some invitation ← select fun db => db.pendingByToken token
    | throw (.notFound "No Invitation matches the given query.")
  if lower user.email ≠ lower invitation.email then throw .invitationAddressedToOther
  saveStatus invitation .declined

end Session

/-- A request to one of the invitation endpoints. -/
inductive InvitationRequest (σ : Type)
  | create (rt : Runtime σ) (userId orgId : UUID) (data : InvitationData)
  | accept (rt : Runtime σ) (token fullName : String)
  | cancel (userId orgId invitationId : UUID)
  | decline (user : User) (token : String)

def InvitationRequest.session : InvitationRequest σ → Session σ Unit
  | create rt userId orgId data => Session.createInvitation rt userId orgId data
  | accept rt token fullName => Session.acceptView rt token fullName
  | cancel userId orgId invitationId => Session.cancelInvitation userId orgId invitationId
  | decline user token => Session.declineInvitation user token

/-! ## What a write stores -/

/-- Only the status of an invitation has changed. -/
structure StatusSet (db db' : Db) (invitationId : UUID) (status : InvitationStatus) : Prop where
  rows : db'.invitations.rows = db.invitations.rows.map fun i =>
    if i.id = invitationId then i.withStatus status else i
  frame : db'.toTables = { db.toTables with invitations := db'.invitations }

/-- The invitee has an account and a membership, and the invitation is accepted. -/
structure Accepted (rt : Runtime σ) (invitation : Invitation) (fullName : String) (db db' : Db) :
    Prop where
  users : db'.users.rows = db.users.rows ++ [invitee rt invitation fullName]
  members : db'.members.rows = db.members.rows ++ [inviteeMembership rt invitation]
  invitations : db'.invitations.rows = db.invitations.rows.map fun i =>
    if i.id = invitation.id then i.withStatus .accepted else i
  frame : db'.toTables = { db.toTables with
    users := db'.users, members := db'.members, invitations := db'.invitations }

theorem setStatus_commit {db db' : Db} {id : UUID} {status : InvitationStatus}
    (h : (db.toTables.setStatus id status >>= Db.commit) = .ok db') :
    StatusSet db db' id status := by
  obtain ⟨t, hset, hcommit⟩ := bind_eq_ok.mp h
  obtain ⟨hrows, hframe⟩ := Tables.setStatus_eq_ok hset
  rw [← Db.commit_eq_ok.mp hcommit] at hrows hframe
  exact ⟨hrows, hframe⟩

theorem storeAcceptance_eq_ok {rt : Runtime σ} {invitation : Invitation} {fullName : String}
    {db db' : Db} (h : storeAcceptance rt invitation fullName db = .ok db') :
    Accepted rt invitation fullName db db' := by
  unfold storeAcceptance at h
  simp only [throw_eq_error, error_bind] at h
  split at h
  next => cases h
  next =>
    obtain ⟨users, husers, h⟩ := bind_eq_ok.mp h
    obtain ⟨members, hmembers, h⟩ := bind_eq_ok.mp h
    obtain ⟨t, hset, hcommit⟩ := bind_eq_ok.mp h
    obtain ⟨hrows, hframe⟩ := Tables.setStatus_eq_ok hset
    rw [← Db.commit_eq_ok.mp hcommit] at hrows hframe
    have husers' : db'.users = users := by rw [hframe]
    have hmembers' : db'.members = members := by rw [hframe]
    refine ⟨?_, ?_, hrows, ?_⟩
    · rw [husers', insertRow_eq_ok husers]
    · rw [hmembers', insertRow_eq_ok hmembers]
    · rw [hframe]

/-! ## What a complete request does -/

/-- What a request that changes something does.  The status that an invitation read
after its expiry gets stays, though the request is refused. -/
inductive InvitationStep (db : Db) : InvitationRequest σ → Db → Prop
  | create {rt : Runtime σ} {userId orgId : UUID} {data : InvitationData} {caller : OrgMember}
      {db' : Db} (caller_mem : caller ∈ db.members.rows) (caller_org : caller.orgId = orgId)
      (caller_user : caller.userId = userId) (allowed : caller.role ∈ adminOrAbove)
      (rows : db'.invitations.rows =
        db.invitations.rows ++ [newInvitation rt userId orgId data])
      (frame : db'.toTables = { db.toTables with invitations := db'.invitations }) :
      InvitationStep db (.create rt userId orgId data) db'
  | accept {rt : Runtime σ} {token fullName : String} {invitation : Invitation} {db' : Db}
      (pending : db.pendingByToken token = some invitation)
      (accepted : Accepted rt invitation fullName db db') :
      InvitationStep db (.accept rt token fullName) db'
  | expire {rt : Runtime σ} {token fullName : String} {invitation : Invitation} {db' : Db}
      (pending : db.pendingByToken token = some invitation)
      (set : StatusSet db db' invitation.id .expired) :
      InvitationStep db (.accept rt token fullName) db'
  | cancel {userId orgId invitationId : UUID} {invitation : Invitation} {db' : Db}
      (pending : db.pendingById invitationId orgId = some invitation)
      (set : StatusSet db db' invitation.id .cancelled) :
      InvitationStep db (.cancel userId orgId invitationId) db'
  | decline {user : User} {token : String} {invitation : Invitation} {db' : Db}
      (pending : db.pendingByToken token = some invitation)
      (set : StatusSet db db' invitation.id .declined) :
      InvitationStep db (.decline user token) db'

namespace Session

variable {w : World σ}

/-- Whatever the seat check says, it has changed nothing. -/
theorem ends_validateSeatLimit {orgId : UUID} {post : Py (Py Unit) → World σ → Prop}
    (h : ∀ result, post (.ok result) w) : (validateSeatLimit orgId).Ends post w := by
  unfold validateSeatLimit lockActiveTeamSub
  simp only [Fallible.ends_bind, ends_lock, Fallible.follow_ok]
  split
  · simp only [Fallible.ends_bind, ends_select, Fallible.follow_ok]
    exact h _
  · exact h _

theorem ends_checkSeatCap {orgId : UUID} {post : Py (Py Unit) → World σ → Prop}
    (h : ∀ result, post (.ok result) w) : (checkSeatCap orgId).Ends post w := by
  unfold checkSeatCap lockActiveTeamSub
  simp only [Fallible.ends_bind, ends_lock, Fallible.follow_ok]
  split
  · simp only [Fallible.ends_bind, ends_select, Fallible.follow_ok]
    exact h _
  · exact h _

theorem ends_insertInvitation (invitation : Invitation) :
    (insertInvitation invitation).Ends
      (Stepped (fun db db' => db'.invitations.rows = db.invitations.rows ++ [invitation] ∧
        db'.toTables = { db.toTables with invitations := db'.invitations }) w) w := by
  unfold insertInvitation insert
  rw [Fallible.ends_bind]
  refine ends_validateSeatLimit fun checked => ?_
  rw [Fallible.follow_ok]
  split
  · exact Or.inl rfl
  simp only [Fallible.ends_bind, ends_lock, Fallible.follow_ok]
  split
  · exact Or.inl rfl
  refine ends_commitOn (fun _ => Or.inl rfl) fun _ db' hwrite => Or.inr ?_
  obtain ⟨invitations, hinsert, hwrite⟩ := bind_eq_ok.mp hwrite
  obtain ⟨db'', hcommit, hpair⟩ := bind_eq_ok.mp hwrite
  cases hpair
  have htables := Db.commit_eq_ok.mp hcommit
  have hinvitations : db'.invitations = invitations := by rw [htables]
  refine ⟨_, ⟨?_, ?_⟩, rfl⟩
  · rw [hinvitations, insertRow_eq_ok hinsert]
  · rw [hinvitations, htables]

theorem ends_saveStatus (invitation : Invitation) (status : InvitationStatus) :
    (saveStatus invitation status).Ends
      (Stepped (fun db db' => StatusSet db db' invitation.id status) w) w := by
  unfold saveStatus
  refine ends_execute (fun _ => Or.inl rfl) fun _ db' hwrite => Or.inr ?_
  obtain ⟨_, hdb, hpair⟩ := map_eq_ok.mp hwrite
  cases hpair
  exact ⟨_, setStatus_commit hdb, rfl⟩

theorem ends_acceptInvitation (rt : Runtime σ) (invitation : Invitation) (fullName : String) :
    (acceptInvitation rt invitation fullName).Ends
      (Stepped (Accepted rt invitation fullName) w) w := by
  unfold acceptInvitation insert update
  rw [Fallible.ends_bind]
  refine ends_checkSeatCap fun checked => ?_
  rw [Fallible.follow_ok]
  split
  · exact Or.inl rfl
  simp only [Fallible.ends_bind, ends_lock, Fallible.follow_ok]
  split
  · exact Or.inl rfl
  simp only [Fallible.ends_bind, ends_lock, Fallible.follow_ok]
  split
  · exact Or.inl rfl
  simp only [Fallible.ends_bind, ends_lock, Fallible.follow_ok]
  split
  · exact Or.inl rfl
  refine ends_commitOn (fun _ => Or.inl rfl) fun _ db' hwrite => Or.inr ?_
  obtain ⟨_, hstore, hpair⟩ := map_eq_ok.mp hwrite
  cases hpair
  exact ⟨_, storeAcceptance_eq_ok hstore, rfl⟩

theorem ends_createInvitation (rt : Runtime σ) (userId orgId : UUID) (data : InvitationData) :
    (createInvitation rt userId orgId data).Ends
      (Stepped (fun db => InvitationStep db (.create rt userId orgId data)) w) w := by
  unfold createInvitation
  rw [Fallible.ends_bind]
  refine ends_getOrgAndMember (fun _ => Or.inl rfl)
    fun org caller hcaller horg huser _ hid hallowed => ?_
  rw [Fallible.follow_ok]
  dsimp only
  simp only [Fallible.ends_bind, ends_select, Fallible.follow_ok]
  split
  · exact Or.inl rfl
  simp only [Fallible.ends_bind, ends_select, Fallible.follow_ok]
  split
  · exact Or.inl rfl
  refine (ends_insertInvitation _).mono fun _ w' hended => ?_
  refine hended.imp id ?_
  rintro ⟨db', ⟨hrows, hframe⟩, hw'⟩
  rw [hid] at hrows
  exact ⟨db', .create hcaller horg huser hallowed hrows hframe, hw'⟩

theorem ends_cancelInvitation (userId orgId invitationId : UUID) :
    (cancelInvitation userId orgId invitationId).Ends
      (Stepped (fun db => InvitationStep db
        (.cancel userId orgId invitationId : InvitationRequest σ)) w) w := by
  unfold cancelInvitation
  rw [Fallible.ends_bind]
  refine ends_getOrgAndMember (fun _ => Or.inl rfl) fun _ _ _ _ _ _ _ _ => ?_
  rw [Fallible.follow_ok]
  simp only [Fallible.ends_bind, ends_select, Fallible.follow_ok]
  split
  next invitation hpending =>
      refine (ends_saveStatus invitation .cancelled).mono fun _ w' hended => ?_
      refine hended.imp id ?_
      rintro ⟨db', hset, hw'⟩
      exact ⟨db', .cancel hpending hset, hw'⟩
  next => exact Or.inl rfl

theorem ends_acceptView (rt : Runtime σ) (token fullName : String) :
    (acceptView rt token fullName).Ends
      (Stepped (fun db => InvitationStep db (.accept rt token fullName)) w) w := by
  unfold acceptView
  simp only [Fallible.ends_bind, ends_select, Fallible.follow_ok]
  split
  next invitation hpending =>
      split
      · unfold expireInvitation
        rw [Fallible.ends_bind]
        refine (ends_saveStatus invitation .expired).mono fun result w' hended => ?_
        have hexpired : ∀ outcome : Py Unit, Stepped (fun db => InvitationStep db
            (.accept rt token fullName)) w outcome w' := by
          intro _
          refine hended.imp id ?_
          rintro ⟨db', hset, hw'⟩
          exact ⟨db', .expire hpending hset, hw'⟩
        cases result with
        | error e => exact hexpired (.error e)
        | ok _ => exact hexpired (.error .invitationExpired)
      · unfold acceptPending
        simp only [Fallible.ends_bind, ends_select, Fallible.follow_ok]
        split
        · simp only [Fallible.ends_bind, ends_select, Fallible.follow_ok]
          split
          · exact Or.inl rfl
          refine (ends_acceptInvitation rt invitation fullName).mono fun _ w' hended => ?_
          refine hended.imp id ?_
          rintro ⟨db', haccepted, hw'⟩
          exact ⟨db', .accept hpending haccepted, hw'⟩
        · exact Or.inl rfl
  next => exact Or.inl rfl

theorem ends_declineInvitation (user : User) (token : String) :
    (declineInvitation user token).Ends
      (Stepped (fun db => InvitationStep db (.decline user token : InvitationRequest σ)) w) w := by
  unfold declineInvitation
  simp only [Fallible.ends_bind, ends_select, Fallible.follow_ok]
  split
  next invitation hpending =>
      split
      · exact Or.inl rfl
      refine (ends_saveStatus invitation .declined).mono fun _ w' hended => ?_
      refine hended.imp id ?_
      rintro ⟨db', hset, hw'⟩
      exact ⟨db', .decline hpending hset, hw'⟩
  next => exact Or.inl rfl

end Session

/-- A complete request changes nothing, or makes its step. -/
theorem InvitationRequest.ends {w : World σ} (request : InvitationRequest σ) :
    request.session.Ends (Session.Stepped (fun db => InvitationStep db request) w) w := by
  cases request with
  | create rt userId orgId data => exact Session.ends_createInvitation rt userId orgId data
  | accept rt token fullName => exact Session.ends_acceptView rt token fullName
  | cancel userId orgId invitationId =>
      exact Session.ends_cancelInvitation userId orgId invitationId
  | decline user token => exact Session.ends_declineInvitation user token

end Saasmint
