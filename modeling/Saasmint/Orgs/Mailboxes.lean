import Saasmint.Orgs.Lifecycle

/-!
# One invitation for a mailbox

An org is not to invite an address twice at a time.  The view asks for a pending invitation
with the address as it is spelled, and so does the unique index; but whether somebody has
registered with the address, and whether an invitation is addressed to the user who declines
it, is asked without regard to case.  So `Alice@example.com` and `alice@example.com` may both
be pending, and hold two seats.

`onePerMailbox_run`: any number of requests at once keep an org from having two invitations
for a mailbox, as long as none of them inserts one beside another spelling of its address.
-/

namespace Saasmint

open Atomic Relational

variable {σ : Type}

/-- No org has two pending invitations for addresses that differ in case only. -/
def OnePerMailbox (db : Db) : Prop :=
  ∀ a ∈ db.invitations.rows, ∀ b ∈ db.invitations.rows, a.status = .pending →
    b.status = .pending → a.orgId = b.orgId → lower a.email = lower b.email → a = b

/-- What is pending for the address, is so for this spelling of it. -/
def SpelledAlike (orgId : UUID) (email : String) (db : Db) : Prop :=
  ∀ i ∈ db.invitations.rows, i.status = .pending → i.orgId = orgId →
    lower i.email = lower email → i.email = email

instance (db : Db) : Decidable (OnePerMailbox db) :=
  inferInstanceAs (Decidable (∀ _ ∈ _, ∀ _ ∈ _, _))

instance (orgId : UUID) (email : String) (db : Db) : Decidable (SpelledAlike orgId email db) :=
  inferInstanceAs (Decidable (∀ _ ∈ _, _))

/-- An invitation that the request inserts is the first spelling of its address. -/
def InvitationRequest.FirstSpelling : InvitationRequest σ → Db → Prop
  | create _ _ orgId data, db => SpelledAlike orgId data.email db
  | accept _ _ _, _ | cancel _ _ _, _ | decline _ _, _ => True

instance (request : InvitationRequest σ) (db : Db) : Decidable (request.FirstSpelling db) := by
  cases request <;> unfold InvitationRequest.FirstSpelling <;> infer_instance

/-- Nothing has become pending. -/
def PendingShrinks (db db' : Db) : Prop :=
  ∀ i ∈ db'.invitations.rows, i.status = .pending → i ∈ db.invitations.rows

theorem PendingShrinks.refl (db : Db) : PendingShrinks db db := fun _ hi _ => hi

theorem pendingShrinks_of_set {db db' : Db} {id : UUID} {status : InvitationStatus}
    (hstatus : status ≠ .pending) (hrows : db'.invitations.rows =
      db.invitations.rows.map fun i => if i.id = id then i.withStatus status else i) :
    PendingShrinks db db' := by
  intro i hi hpending
  rw [hrows] at hi
  obtain ⟨old, hold, rfl⟩ := List.mem_map.mp hi
  split at hpending
  next => exact absurd hpending hstatus
  next hid =>
      rw [if_neg hid]
      exact hold

theorem OnePerMailbox.shrink {db db' : Db} (h : OnePerMailbox db) (hshrinks : PendingShrinks db db') :
    OnePerMailbox db' :=
  fun a ha b hb hpending hpending' =>
    h a (hshrinks a ha hpending) b (hshrinks b hb hpending') hpending hpending'

/-- An insert keeps the invariant if its spelling is the first. -/
theorem OnePerMailbox.insert {db db' : Db} (h : OnePerMailbox db) {invitation : Invitation}
    (hrows : db'.invitations.rows = db.invitations.rows ++ [invitation])
    (hfirst : SpelledAlike invitation.orgId invitation.email db) : OnePerMailbox db' := by
  -- the unique index knows the spelling
  have hnew : ∀ i ∈ db.invitations.rows, i.status = .pending → invitation.status = .pending →
      i.orgId = invitation.orgId → lower i.email = lower invitation.email → i = invitation := by
    intro i hi hpending hpending' horg hemail
    have hsame := hfirst i hi hpending horg hemail
    refine db'.invitations.eq_of_clash ?_ ?_ (Or.inr (Or.inr ⟨hpending, hpending', horg, hsame⟩))
    · rw [hrows]
      exact List.mem_append_left _ hi
    · rw [hrows]
      exact List.mem_append_right _ List.mem_cons_self
  intro a ha b hb hpending hpending' horg hemail
  rw [hrows] at ha hb
  rcases List.mem_append.mp ha with hold | hinserted
  · rcases List.mem_append.mp hb with hold' | hinserted'
    · exact h a hold b hold' hpending hpending' horg hemail
    · obtain rfl := List.mem_singleton.mp hinserted'
      exact hnew a hold hpending hpending' horg hemail
  · obtain rfl := List.mem_singleton.mp hinserted
    rcases List.mem_append.mp hb with hold' | hinserted'
    · exact (hnew b hold' hpending' hpending horg.symm hemail.symm).symm
    · exact (List.mem_singleton.mp hinserted').symm

/-! ## Requests -/

/-- What a request relies on: its insert is that of a first spelling. -/
def mailboxContract (request : InvitationRequest σ) :
    Contract (Statement Label Lock (World σ)) (World σ) where
  assume statement w := statement.label = .commit [] → request.FirstSpelling w.db
  rely _ _ := True
  guarantee _ _ := True
  rely_refl _ := trivial
  rely_trans _ _ := trivial
  guarantee_refl _ := trivial

instance (request : InvitationRequest σ) (statement : Statement Label Lock (World σ)) (w : World σ) :
    Decidable ((mailboxContract request).assume statement w) :=
  inferInstanceAs (Decidable (statement.label = .commit [] → request.FirstSpelling w.db))

section Requests

variable {w : World σ}

theorem moves_saveStatus (invitation : Invitation) {status : InvitationStatus}
    (hstatus : status ≠ .pending) :
    (Session.saveStatus invitation status : Session σ Unit).Moves
      (Session.OnDb PendingShrinks) := by
  unfold Session.saveStatus
  refine Session.moves_execute PendingShrinks.refl fun db _ db' hwrite => ?_
  obtain ⟨_, hdb, hpair⟩ := map_eq_ok.mp hwrite
  cases hpair
  exact pendingShrinks_of_set hstatus (setStatus_commit hdb).rows

theorem moves_acceptInvitation (rt : Runtime σ) (invitation : Invitation) (fullName : String) :
    (Session.acceptInvitation rt invitation fullName).Moves (Session.OnDb PendingShrinks) := by
  have hquiet : ∀ {α : Type} {p : Session σ α}, p.Quiet → p.Moves (Session.OnDb PendingShrinks) :=
    Session.moves_of_quiet PendingShrinks.refl
  have hrollback : ∀ e, (Session.rollback (.error e) : Session σ Unit).Moves
      (Session.OnDb PendingShrinks) := fun e => hquiet (Session.quiet_rollback _)
  unfold Session.acceptInvitation Session.update
  refine Fallible.moves_bind (hquiet (Session.quiet_checkSeatCap _)) fun checked => ?_
  cases checked with
  | error e => exact hrollback e
  | ok _ =>
      refine Fallible.moves_bind (hquiet (Session.quiet_insert _ _ _)) fun inserted => ?_
      cases inserted with
      | error e => exact hrollback e
      | ok _ =>
          refine Fallible.moves_bind (hquiet (Session.quiet_insert _ _ _)) fun joined => ?_
          cases joined with
          | error e => exact hrollback e
          | ok _ =>
              refine Fallible.moves_bind (hquiet (Session.quiet_lock _ _)) fun updated => ?_
              cases updated with
              | error e => exact hrollback e
              | ok _ =>
                  refine Session.moves_commitOn PendingShrinks.refl fun db _ db' hwrite => ?_
                  obtain ⟨_, hstore, hpair⟩ := map_eq_ok.mp hwrite
                  cases hpair
                  exact pendingShrinks_of_set InvitationStatus.noConfusion
                    (storeAcceptance_eq_ok hstore).invitations

theorem moves_acceptView (rt : Runtime σ) (token fullName : String) :
    (Session.acceptView rt token fullName).Moves (Session.OnDb PendingShrinks) := by
  have hselect : ∀ {α : Type} (f : Db → α), (Session.select f : Session σ α).Moves
      (Session.OnDb PendingShrinks) :=
    fun f => Session.moves_of_quiet PendingShrinks.refl (Session.quiet_select f)
  unfold Session.acceptView
  refine Fallible.moves_bind (hselect _) fun found => ?_
  cases found with
  | none => exact Fallible.moves_throw _
  | some invitation =>
      dsimp only
      split
      · unfold Session.expireInvitation
        exact Fallible.moves_bind (moves_saveStatus invitation InvitationStatus.noConfusion)
          fun _ => Fallible.moves_throw _
      · unfold Session.acceptPending
        refine Fallible.moves_bind (hselect _) fun org => ?_
        cases org with
        | none => exact Fallible.moves_throw _
        | some _ =>
            refine Fallible.moves_bind (hselect _) fun registered => ?_
            cases registered with
            | true => exact Fallible.moves_throw _
            | false => exact moves_acceptInvitation rt invitation fullName

theorem moves_cancelInvitation (userId orgId invitationId : UUID) :
    (Session.cancelInvitation userId orgId invitationId : Session σ Unit).Moves
      (Session.OnDb PendingShrinks) := by
  unfold Session.cancelInvitation
  refine Fallible.moves_bind (Session.moves_of_quiet PendingShrinks.refl
    (Session.quiet_getOrgAndMember _ _ _)) fun _ => ?_
  refine Fallible.moves_bind (Session.moves_of_quiet PendingShrinks.refl
    (Session.quiet_select _)) fun found => ?_
  cases found with
  | none => exact Fallible.moves_throw _
  | some invitation => exact moves_saveStatus invitation InvitationStatus.noConfusion

theorem moves_declineInvitation (user : User) (token : String) :
    (Session.declineInvitation user token : Session σ Unit).Moves
      (Session.OnDb PendingShrinks) := by
  unfold Session.declineInvitation
  refine Fallible.moves_bind (Session.moves_of_quiet PendingShrinks.refl
    (Session.quiet_select _)) fun found => ?_
  cases found with
  | none => exact Fallible.moves_throw _
  | some invitation =>
      dsimp only
      split
      · exact Fallible.moves_throw _
      · exact moves_saveStatus invitation InvitationStatus.noConfusion

/-- An invitation is inserted as the first spelling, or not at all. -/
theorem meets_createFirst (rt : Runtime σ) (userId orgId : UUID) (data : InvitationData) :
    (Session.createInvitation rt userId orgId data).Meets (fun w => OnePerMailbox w.db)
      (mailboxContract (.create rt userId orgId data)) (fun _ _ => True) w := by
  unfold Session.createInvitation
  rw [Fallible.meets_bind]
  refine Session.meets_getOrgAndMember (fun _ _ => trivial) fun t org caller ht _ _ hid _ => ?_
  rw [Fallible.chain_ok]
  dsimp only
  refine (Session.quiet_select _).meets_bind ht (fun _ _ _ _ => trivial) fun t registered _ ht => ?_
  split
  · trivial
  refine (Session.quiet_select _).meets_bind ht (fun _ _ _ _ => trivial) fun t pending _ ht => ?_
  split
  · trivial
  unfold Session.insertInvitation
  refine (Session.quiet_validateSeatLimit _).meets_bind ht (fun _ _ _ _ => trivial)
    fun t checked _ ht => ?_
  split
  · exact Session.meets_rollback.mpr fun _ _ _ _ => trivial
  refine (Session.quiet_insert _ _ _).meets_bind ht (fun _ _ _ _ => trivial) fun t inserted _ ht => ?_
  split
  · exact Session.meets_rollback.mpr fun _ _ _ _ => trivial
  refine Session.meets_commitOn (fun _ _ _ _ => trivial) fun t _ db' _ ht hassume hwrite => ?_
  obtain ⟨invitations, hinsert, hwrite⟩ := bind_eq_ok.mp hwrite
  obtain ⟨db'', hcommit, hpair⟩ := bind_eq_ok.mp hwrite
  cases hpair
  have hrows : db'.invitations.rows =
      t.db.invitations.rows ++ [newInvitation rt userId org.id data] := by
    rw [Db.commit_eq_ok.mp hcommit]
    exact insertRow_eq_ok hinsert
  have hfirst : SpelledAlike orgId data.email t.db := hassume rfl
  rw [← hid] at hfirst
  exact ⟨ht.insert hrows hfirst, trivial, trivial⟩

theorem InvitationRequest.meetsMailbox (request : InvitationRequest σ) (hw : OnePerMailbox w.db) :
    request.session.Meets (fun w => OnePerMailbox w.db) (mailboxContract request)
      (fun _ _ => True) w := by
  have hmoves : ∀ {p : Session σ Unit}, p.Moves (Session.OnDb PendingShrinks) →
      p.Meets (fun w => OnePerMailbox w.db) (mailboxContract request) (fun _ _ => True) w := by
    intro p hp
    exact hp.meets (fun s t hshrinks hs => hs.shrink hshrinks) (fun _ _ _ => trivial) hw
      fun _ _ _ => trivial
  cases request with
  | create rt userId orgId data => exact meets_createFirst rt userId orgId data
  | accept rt token fullName => exact hmoves (moves_acceptView rt token fullName)
  | cancel userId orgId invitationId =>
      exact hmoves (moves_cancelInvitation userId orgId invitationId)
  | decline user token => exact hmoves (moves_declineInvitation user token)

end Requests

/-! ## Runs -/

section Runs

variable {ι : Type} [DecidableEq ι]

/-- An insert of an invitation finds none pending that is for another spelling of the address. -/
def FindsFirst (requests : ι → InvitationRequest σ)
    (server : Server ι Label Lock (World σ) (Py Unit)) (move : Move ι) : Prop :=
  server.Respects (fun k => mailboxContract (requests k)) move

instance (requests : ι → InvitationRequest σ) (server : Server ι Label Lock (World σ) (Py Unit))
    (move : Move ι) : Decidable (FindsFirst requests server move) :=
  inferInstanceAs (Decidable (server.Respects _ move))

end Runs

/-! ## Two spellings -/

/-- The buyer has founded an org of three seats. -/
def founded : World Unit :=
  OrgOperation.after sampleWorld (.teamCheckout (sampleRuntime teamStripe 0 0) buyerCheckout)

/-- The buyer invites two addresses. -/
def inviteBoth (first second : String) (k : Fin 2) : InvitationRequest Unit :=
  .create (sampleRuntime teamStripe (k + 1) 0) buyer.id 1001#128
    ⟨if k = 0 then first else second, .admin, OrgRole.admin_ne_owner⟩

/-- The second is invited when the first is. -/
def oneAfterAnother : List (Move (Fin 2)) :=
  List.replicate 8 (.step 0) ++ List.replicate 8 (.step 1)

end Saasmint
