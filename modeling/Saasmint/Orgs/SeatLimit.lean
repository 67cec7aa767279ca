import Saasmint.Orgs.Seats

/-!
# Enough seats for every member

Invitations, members, seats and plans of an org are changed by any number of requests at
once, while the events of its subscription come in.  The members never exceed the seats as
long as nobody joins between the count of the members and the write of fewer seats.

* `Spares` is said of the sessions whose every write is harmless: invitations, members and
  plans.
* `seatSafe_acceptInvitation` is the growing side: the lock is held from the count to the
  membership.
* `seatSafe_updateSeatCount` and `SeatEvent.seatSafe` are the shrinking side: what is
  stored suffices for the members that were counted.
* `seats_suffice` puts them together.
-/

namespace Saasmint

open Atomic Relational

variable {σ : Type} {team : Team}

/-! ## What a request assumes -/

/-- The count of the members of the org. -/
def Basis.counts (orgId : UUID) : Basis → Bool
  | memberCount counted _ => counted == orgId
  | _ => false

/-- The members of the org are no more than were counted for a write. -/
def Counted (team : Team) (bases : List Basis) (db : Db) : Prop :=
  ∀ basis ∈ bases, basis.counts team.orgId = true → basis.Current db

instance (team : Team) (bases : List Basis) (db : Db) : Decidable (Counted team bases db) :=
  inferInstanceAs (Decidable (∀ _ ∈ _, _ → _))

/-- The seats that are asked for are no fewer than those there are. -/
def Raises (team : Team) (seats : Option Int) (db : Db) : Prop :=
  ∀ s ∈ db.subscriptions.rows, s.id = team.subscriptionId → seats.any (s.seatLimit ≤ ·) = true

instance (team : Team) (seats : Option Int) (db : Db) : Decidable (Raises team seats db) :=
  inferInstanceAs (Decidable (∀ _ ∈ _, _ → _))

/-- What a request for `seats` assumes. -/
def seatContract (team : Team) (seats : Option Int) :
    Contract (Statement Label Lock (World σ)) (World σ) where
  assume statement w := Raises team seats w.db ∨ Counted team statement.label.basis w.db
  rely _ _ := True
  guarantee _ _ := True
  rely_refl _ := trivial
  rely_trans _ _ := trivial
  guarantee_refl _ := trivial

instance (team : Team) (seats : Option Int) (statement : Statement Label Lock (World σ))
    (w : World σ) : Decidable ((seatContract team seats).assume statement w) :=
  inferInstanceAs (Decidable (_ ∨ _))

/-- Among others, the session keeps the members within the seats, and ends in `post`. -/
abbrev SeatLocks (team : Team) (seats : Option Int) {α : Type} (p : Session σ α)
    (post : (Lock → Prop) → World σ → Py α → Prop) (held : Lock → Prop) (w : World σ) : Prop :=
  p.Locks (Seated team) (seatContract team seats) (SeatLock team) post held w

/-- Among others, the session keeps the members within the seats. -/
abbrev SeatSafe (team : Team) (seats : Option Int) {α : Type} (p : Session σ α)
    (held : Lock → Prop) (w : World σ) : Prop :=
  p.Locks (Seated team) (seatContract team seats) (SeatLock team) (fun _ _ _ => True) held w

/-- Nothing that the session stores touches the seats, or lets anybody join. -/
abbrev Spares (team : Team) {α : Type} (p : Session σ α) : Prop :=
  p.Moves (Session.OnDb (KeepsSeats team))

variable {seats : Option Int}

theorem harmless_keepsSeats :
    Atomic.Harmless (Seated team) (seatContract team seats) (SeatLock team)
      (Session.OnDb (KeepsSeats team) : World σ → World σ → Prop) where
  keeps _ _ hkeeps hw := KeepsSeats.seated hkeeps hw
  guarantees _ _ _ _ := trivial
  leaves _ _ hkeeps hw := KeepsSeats.seatLock hkeeps hw

section Safe

variable {α β : Type} {w : World σ} {held : Lock → Prop}

/-- Whatever only reads, or makes harmless writes. -/
theorem seatSafe_of_spares {p : Session σ α} (hp : Spares team p) (hw : Seated team w) :
    SeatSafe team seats p held w :=
  hp.locks harmless_keepsSeats hw fun _ _ _ _ => trivial

/-- What follows is safe whatever has been read. -/
theorem seatSafe_bind {p : Session σ α} {rest : α → Session σ β}
    (hp : Spares team p) (hw : Seated team w)
    (hrest : ∀ held t a, Seated team t → SeatSafe team seats (rest a) held t) :
    SeatSafe team seats (p >>= rest) held w :=
  hp.locks_bind harmless_keepsSeats hw (fun _ _ _ _ => trivial) hrest

theorem spares_of_quiet {p : Session σ α} (hp : p.Quiet) :
    Spares team p :=
  Session.moves_of_quiet KeepsSeats.refl hp

/-- A row is saved that may be stored, with the seats that were asked for, which suffice for
the members that were counted. -/
theorem seatSafe_saveSubscription {now : Datetime} {row : Subscription} {bases : List Basis}
    (hrow : team.Admits row)
    (hseats : row.id = team.subscriptionId → ∀ n ∈ seats, n = row.seatLimit)
    (hcounted : row.id = team.subscriptionId → ∀ t : World σ, Counted team bases t.db →
      ((t.db.membersOf team.orgId).length : Int) ≤ row.seatLimit) :
    SeatSafe team seats (Session.execute bases (fun _ => [.subscription row.id]) fun db =>
      (fun db => ((), db)) <$> db.saveSubscription now row) held w := by
  refine Session.locks_execute_same SeatLock.refl (fun _ _ _ => trivial)
    fun t _ db' _ _ ht hassume hwrite => ?_
  obtain ⟨_, hsave, hpair⟩ := map_eq_ok.mp hwrite
  cases hpair
  by_cases hown : row.id = team.subscriptionId
  · have hfit : ((t.db.membersOf team.orgId).length : Int) ≤ row.seatLimit := by
      rcases hassume with hraises | hcurrent
      · obtain ⟨s, hs, hid⟩ := ht.subscribed.stored
        have hwithin := ht.subscribed.seatsWithin_iff.mp ht.within s hs hid
        obtain ⟨n, hn, hle⟩ := (Option.any_eq_true _ _).mp (hraises s hs hid)
        rw [hseats hown n hn, decide_eq_true_eq] at hle
        exact hwithin.trans hle
      · exact hcounted hown t hcurrent
    refine ⟨⟨subscribed_of_save hsave hrow ht.subscribed,
      seatsWithin_of_save hsave hrow hown ht.subscribed hfit⟩, trivial, ?_, trivial⟩
    -- the statement waits for the lock of the row that it writes
    intro k _ hk hlock
    rw [hlock, hown] at hk
    exact absurd (List.mem_singleton_self _) hk
  · have hkeeps : KeepsSeats team t.db db' := keepsSeats_of_save hsave hrow hown
    exact ⟨KeepsSeats.seated hkeeps ht, trivial, fun k _ _ => KeepsSeats.seatLock hkeeps ht k,
      trivial⟩

end Safe

/-! ## Invitations and members -/

section Members

theorem spares_saveStatus (invitation : Invitation) (status : InvitationStatus) :
    Spares team (Session.saveStatus invitation status : Session σ Unit) := by
  unfold Session.saveStatus
  refine Session.moves_execute KeepsSeats.refl fun db _ db' hwrite => ?_
  obtain ⟨_, hdb, hpair⟩ := map_eq_ok.mp hwrite
  cases hpair
  exact keepsSeats_of_invitations (setStatus_commit hdb).frame

theorem spares_insertInvitation (invitation : Invitation) :
    Spares team (Session.insertInvitation invitation : Session σ Unit) := by
  unfold Session.insertInvitation
  refine Fallible.moves_bind (spares_of_quiet (Session.quiet_validateSeatLimit _)) fun checked => ?_
  split
  · exact spares_of_quiet (Session.quiet_rollback _)
  refine Fallible.moves_bind (spares_of_quiet (Session.quiet_insert _ _ _)) fun inserted => ?_
  split
  · exact spares_of_quiet (Session.quiet_rollback _)
  refine Session.moves_commitOn KeepsSeats.refl fun db _ db' hwrite => ?_
  obtain ⟨invitations, _, hwrite⟩ := bind_eq_ok.mp hwrite
  obtain ⟨db'', hcommit, hpair⟩ := bind_eq_ok.mp hwrite
  cases hpair
  have htables := Db.commit_eq_ok.mp hcommit
  refine keepsSeats_of_invitations ?_
  show db'.toTables = { db.toTables with invitations := db'.toTables.invitations }
  rw [htables]

theorem spares_createInvitation (rt : Runtime σ) (userId orgId : UUID) (data : InvitationData) :
    Spares team (Session.createInvitation rt userId orgId data) := by
  unfold Session.createInvitation
  refine Fallible.moves_bind (spares_of_quiet (Session.quiet_getOrgAndMember _ _ _)) fun found => ?_
  obtain ⟨org, caller⟩ := found
  dsimp only
  refine Fallible.moves_bind (spares_of_quiet (Session.quiet_select _)) fun _ => ?_
  split
  · exact Fallible.moves_throw _
  refine Fallible.moves_bind (spares_of_quiet (Session.quiet_select _)) fun _ => ?_
  split
  · exact Fallible.moves_throw _
  exact spares_insertInvitation _

theorem spares_cancelInvitation (userId orgId invitationId : UUID) :
    Spares team (Session.cancelInvitation userId orgId invitationId : Session σ Unit) := by
  unfold Session.cancelInvitation
  refine Fallible.moves_bind (spares_of_quiet (Session.quiet_getOrgAndMember _ _ _)) fun _ => ?_
  refine Fallible.moves_bind (spares_of_quiet (Session.quiet_select _)) fun found => ?_
  split
  · exact spares_saveStatus _ _
  · exact Fallible.moves_throw _

theorem spares_declineInvitation (user : User) (token : String) :
    Spares team (Session.declineInvitation user token : Session σ Unit) := by
  unfold Session.declineInvitation
  refine Fallible.moves_bind (spares_of_quiet (Session.quiet_select _)) fun found => ?_
  split
  · split
    · exact Fallible.moves_throw _
    · exact spares_saveStatus _ _
  · exact Fallible.moves_throw _

/-- Members are rewritten, none of whom joins the org. -/
theorem keepsSeats_of_rewritten {db db' : Db} {f : OrgMember → OrgMember}
    (h : MemberRewritten db db' f) (horg : ∀ m, (f m).orgId = m.orgId) :
    KeepsSeats team db db' := by
  have hlength : (db'.membersOf team.orgId).length = (db.membersOf team.orgId).length := by
    unfold Db.membersOf Table.filter
    rw [h.rows, List.filter_map, List.length_map]
    refine congrArg List.length (List.filter_congr fun m _ => ?_)
    rw [Function.comp_apply, horg]
  refine ⟨fun hsubscribed => ?_, fun _ s _ => by rw [h.frame], hlength.le⟩
  have hframe := h.frame
  exact ⟨hframe ▸ hsubscribed.customer, hframe ▸ hsubscribed.stored, hframe ▸ hsubscribed.admits⟩

theorem Session.quiet_getParties (userId orgId targetUserId : UUID) (allowedRoles : List OrgRole) :
    (Session.getParties userId orgId targetUserId allowedRoles : Session σ _).Quiet := by
  unfold Session.getParties Session.getMemberOr404
  refine Fallible.quiet_bind (Session.quiet_getOrgAndMember _ _ _) fun found => ?_
  obtain ⟨_, caller⟩ := found
  refine Fallible.quiet_bind ?_ fun _ => Fallible.quiet_pure _
  refine Fallible.quiet_bind (Session.quiet_select _) fun found => ?_
  split
  · exact Fallible.quiet_pure _
  · exact Fallible.quiet_throw _

theorem spares_patchMember (userId orgId memberUserId : UUID) (data : MemberUpdate) :
    Spares team (Session.patchMember userId orgId memberUserId data : Session σ Unit) := by
  unfold Session.patchMember
  refine Fallible.moves_bind (spares_of_quiet (Session.quiet_getParties _ _ _ _)) fun parties => ?_
  obtain ⟨caller, target⟩ := parties
  refine Fallible.moves_bind (spares_of_quiet (Session.quiet_lift _)) fun _ => ?_
  split
  · exact Fallible.moves_pure _
  refine Fallible.moves_bind (spares_of_quiet (Session.quiet_lift _)) fun _ => ?_
  refine Session.moves_execute KeepsSeats.refl fun db _ db' hwrite => ?_
  obtain ⟨_, hdb, hpair⟩ := map_eq_ok.mp hwrite
  cases hpair
  refine keepsSeats_of_rewritten (Tables.updateMember_commit hdb) fun m => ?_
  unfold rewriteRow MemberUpdate.apply
  split <;> rfl

theorem spares_removeMember (userId orgId memberUserId : UUID) :
    Spares team (Session.removeMember userId orgId memberUserId : Session σ Unit) := by
  unfold Session.removeMember Session.deleteUser
  refine Fallible.moves_bind (spares_of_quiet (Session.quiet_getParties _ _ _ _)) fun parties => ?_
  obtain ⟨caller, target⟩ := parties
  dsimp only
  split
  · exact Fallible.moves_throw _
  refine Fallible.moves_bind (spares_of_quiet (Session.quiet_lift _)) fun _ => ?_
  refine Fallible.moves_bind (spares_of_quiet (Session.quiet_lock _ _)) fun _ => ?_
  refine Fallible.moves_bind (spares_of_quiet (Session.quiet_lock _ _)) fun _ => ?_
  refine Session.moves_commitOn KeepsSeats.refl fun db _ db' hwrite => ?_
  obtain ⟨_, hdb, hpair⟩ := map_eq_ok.mp hwrite
  cases hpair
  exact keepsSeats_of_deleteUsers (Db.commit_eq_ok.mp hdb)

theorem spares_transferOwnership (userId orgId targetUserId : UUID) :
    Spares team (Session.transferOwnership userId orgId targetUserId : Session σ Unit) := by
  unfold Session.transferOwnership Session.moveOwnership Session.update
  refine Fallible.moves_bind (spares_of_quiet (Session.quiet_getParties _ _ _ _)) fun parties => ?_
  obtain ⟨caller, target⟩ := parties
  dsimp only
  split
  · exact Fallible.moves_throw _
  refine Fallible.moves_bind (spares_of_quiet (Session.quiet_lock _ _)) fun promoted => ?_
  split
  · exact spares_of_quiet (Session.quiet_rollback _)
  refine Fallible.moves_bind (spares_of_quiet (Session.quiet_lock _ _)) fun demoted => ?_
  split
  · exact spares_of_quiet (Session.quiet_rollback _)
  refine Session.moves_commitOn KeepsSeats.refl fun db _ db' hwrite => ?_
  obtain ⟨_, hdb, hpair⟩ := map_eq_ok.mp hwrite
  cases hpair
  refine keepsSeats_of_rewritten (Tables.transfer_commit hdb) fun m => ?_
  unfold rewriteRow promote demote
  split <;> split <;> rfl

theorem MemberRequest.spares (orgId : UUID) (request : MemberRequest) :
    Spares team (request.session orgId : Session σ Unit) := by
  cases request with
  | patch userId memberUserId data => exact spares_patchMember userId orgId memberUserId data
  | remove userId memberUserId => exact spares_removeMember userId orgId memberUserId
  | transfer userId targetUserId => exact spares_transferOwnership userId orgId targetUserId

end Members

/-! ## Accepting -/

section Accepting

variable {w : World σ} {held : Lock → Prop}

/-- One more member fits the seats. -/
def HasRoom (team : Team) (db : Db) : Prop :=
  ∀ s ∈ db.subscriptions.rows, s.id = team.subscriptionId →
    ((db.membersOf team.orgId).length : Int) + 1 ≤ s.seatLimit

/-- With the row locked there is room for as long as the lock is held. -/
theorem HasRoom.of_locked {t : World σ} (h : HasRoom team w.db)
    (hlock : held (.subscription team.subscriptionId))
    (hheld : ∀ k, held k → SeatLock team k w t) : HasRoom team t.db := by
  intro s hs hid
  obtain ⟨hrows, hmembers⟩ := hheld _ hlock rfl
  have hfit := h s ((hrows s hid).mpr hs) hid
  omega

/-- The seat check leaves the row locked, and room for one more. -/
theorem locks_checkSeatCap {post : (Lock → Prop) → World σ → Py (Py Unit) → Prop}
    (hfull : ∀ held t e, Seated team t → post held t (.ok (.error e)))
    (hroom : ∀ held t, Seated team t → held (.subscription team.subscriptionId) →
      HasRoom team t.db → post held t (.ok (.ok ()))) :
    SeatLocks team seats (Session.checkSeatCap team.orgId) post held w := by
  unfold SeatLocks Session.checkSeatCap Session.lockActiveTeamSub
  rw [Fallible.locks_bind, Session.locks_lock_same SeatLock.refl]
  intro t _ _ ht _
  obtain ⟨sub, hsub, hid, hfound⟩ := ht.subscribed.activeTeamSub
  rw [hfound, Fallible.lockChain_ok]
  dsimp only
  rw [Fallible.locks_bind, Session.locks_select_same SeatLock.refl]
  intro t' _ hheld ht' _
  have hlock : held (.subscription team.subscriptionId) ∨
      Lock.subscription team.subscriptionId ∈
        ((some sub).map fun s => Lock.subscription s.id).toList := by
    rw [← hid]
    exact Or.inr (List.mem_singleton_self _)
  rw [Fallible.lockChain_ok]
  split
  next => exact hfull _ t' _ ht'
  next hfit =>
      refine hroom _ t' ht' hlock fun s hs hs' => ?_
      obtain ⟨hrows, _⟩ := hheld _ hlock rfl
      have hsame : s = sub := t.db.subscriptions.eq_of_clash ((hrows s hs').mpr hs) hsub
        (Or.inl (hs'.trans hid.symm))
      rw [hsame]
      omega

/-- A statement that takes further locks. -/
theorem seatSafe_lock_bind {α β : Type} {wants : Db → List Lock} {f : Db → α}
    {rest : α → Session σ β} (hlock : held (.subscription team.subscriptionId))
    (hroom : HasRoom team w.db)
    (hrest : ∀ held t a, Seated team t → held (.subscription team.subscriptionId) →
      HasRoom team t.db → SeatSafe team seats (rest a) held t) :
    SeatSafe team seats (Session.lock wants f >>= rest) held w := by
  unfold SeatSafe
  rw [Fallible.locks_bind, Session.locks_lock_same SeatLock.refl]
  intro t _ hheld ht _
  exact hrest _ t _ ht (Or.inl hlock) (hroom.of_locked hlock hheld)

/-- An acceptance joins only with the row locked and room for one more. -/
theorem seatSafe_join {rt : Runtime σ} {invitation : Invitation} {fullName : String}
    {bases : List Basis} (horg : invitation.orgId = team.orgId)
    (hlock : held (.subscription team.subscriptionId)) (hroom : HasRoom team w.db) :
    SeatSafe team seats (Session.commitOn bases fun db =>
      (fun db => ((), db)) <$> storeAcceptance rt invitation fullName db) held w := by
  refine Session.locks_commitOn_same SeatLock.refl (fun _ _ _ => trivial)
    fun t _ db' _ hheld ht _ hwrite => ?_
  obtain ⟨_, hstore, hpair⟩ := map_eq_ok.mp hwrite
  cases hpair
  have haccepted := storeAcceptance_eq_ok hstore
  have hroom' := hroom.of_locked hlock hheld
  have hsubscriptions : db'.subscriptions = t.db.subscriptions := by rw [haccepted.frame]
  have hcustomers : db'.customers = t.db.customers := by rw [haccepted.frame]
  have hsubscribed : Subscribed team db' :=
    ⟨hcustomers ▸ ht.subscribed.customer, hsubscriptions ▸ ht.subscribed.stored,
      hsubscriptions ▸ ht.subscribed.admits⟩
  refine ⟨⟨hsubscribed, hsubscribed.seatsWithin_iff.mpr fun s hs hid => ?_⟩, trivial, ?_, trivial⟩
  · rw [hsubscriptions] at hs
    have hfit := hroom' s hs hid
    rw [membersOf_accepted haccepted, if_pos horg, List.length_append, List.length_singleton]
    push_cast
    exact hfit
  · rintro k hfree rfl
    exact absurd hlock hfree

theorem seatSafe_acceptInvitation (rt : Runtime σ) (invitation : Invitation) (fullName : String)
    (hw : Seated team w) :
    SeatSafe team seats (Session.acceptInvitation rt invitation fullName) held w := by
  have hrollback : ∀ {held : Lock → Prop} {t : World σ} (result : Py Unit), Seated team t →
      SeatSafe team seats (Session.rollback result) held t :=
    fun result ht => seatSafe_of_spares (spares_of_quiet (Session.quiet_rollback result)) ht
  unfold Session.acceptInvitation
  by_cases horg : invitation.orgId = team.orgId
  · rw [horg]
    unfold SeatSafe
    rw [Fallible.locks_bind]
    refine locks_checkSeatCap (fun held t e ht => ?_) fun held t _ hlock hroom => ?_
    · exact hrollback _ ht
    · unfold Session.insert Session.update
      refine seatSafe_lock_bind hlock hroom fun held t inserted ht hlock hroom => ?_
      split
      · exact hrollback _ ht
      refine seatSafe_lock_bind hlock hroom fun held t inserted ht hlock hroom => ?_
      split
      · exact hrollback _ ht
      refine seatSafe_lock_bind hlock hroom fun held t updated ht hlock hroom => ?_
      split
      · exact hrollback _ ht
      exact seatSafe_join horg hlock hroom
  · refine seatSafe_of_spares ?_ hw
    refine Fallible.moves_bind (spares_of_quiet (Session.quiet_checkSeatCap _)) fun checked => ?_
    split
    · exact spares_of_quiet (Session.quiet_rollback _)
    refine Fallible.moves_bind (spares_of_quiet (Session.quiet_insert _ _ _)) fun inserted => ?_
    split
    · exact spares_of_quiet (Session.quiet_rollback _)
    refine Fallible.moves_bind (spares_of_quiet (Session.quiet_insert _ _ _)) fun inserted => ?_
    split
    · exact spares_of_quiet (Session.quiet_rollback _)
    refine Fallible.moves_bind (spares_of_quiet (Session.quiet_lock _ _)) fun updated => ?_
    split
    · exact spares_of_quiet (Session.quiet_rollback _)
    refine Session.moves_commitOn KeepsSeats.refl fun db _ db' hwrite => ?_
    obtain ⟨_, hstore, hpair⟩ := map_eq_ok.mp hwrite
    cases hpair
    exact keepsSeats_of_accepted (storeAcceptance_eq_ok hstore) horg

theorem seatSafe_acceptView (rt : Runtime σ) (token fullName : String) (hw : Seated team w) :
    SeatSafe team seats (Session.acceptView rt token fullName) held w := by
  unfold Session.acceptView
  refine seatSafe_bind (spares_of_quiet (Session.quiet_select _)) hw fun held t found ht => ?_
  split
  next invitation =>
      split
      · refine seatSafe_of_spares ?_ ht
        exact Fallible.moves_bind (spares_saveStatus _ _) fun _ => Fallible.moves_throw _
      · unfold Session.acceptPending
        refine seatSafe_bind (spares_of_quiet (Session.quiet_select _)) ht fun held t org ht => ?_
        split
        · refine seatSafe_bind (spares_of_quiet (Session.quiet_select _)) ht
            fun held t registered ht => ?_
          split
          · exact seatSafe_of_spares (Fallible.moves_throw _) ht
          · exact seatSafe_acceptInvitation rt invitation fullName ht
        · exact seatSafe_of_spares (Fallible.moves_throw _) ht
  next => exact seatSafe_of_spares (Fallible.moves_throw _) ht

theorem InvitationRequest.seatSafe (request : InvitationRequest σ) (hw : Seated team w) :
    SeatSafe team seats request.session held w := by
  cases request with
  | create rt userId orgId data =>
      exact seatSafe_of_spares (spares_createInvitation rt userId orgId data) hw
  | accept rt token fullName => exact seatSafe_acceptView rt token fullName hw
  | cancel userId orgId invitationId =>
      exact seatSafe_of_spares (spares_cancelInvitation userId orgId invitationId) hw
  | decline user token => exact seatSafe_of_spares (spares_declineInvitation user token) hw

end Accepting

/-! ## Changing the seats -/

section Change

variable {w : World σ} {held : Lock → Prop} {rt : Runtime σ}

/-- A subscription that was found for the one who pays. -/
structure Payable (team : Team) (orgId : Option UUID) (s : Subscription) : Prop where
  admits : team.Admits s
  paid : s.id = team.subscriptionId → orgId = some team.orgId

/-- Whoever pays for the subscription of the org is its customer. -/
theorem Subscribed.payable {db : Db} (h : Subscribed team db) {customer : StripeCustomer}
    {orgId : Option UUID} (hcustomer : customer ∈ db.customers.rows)
    (horg : customer.orgId = orgId) {s : Subscription} (hadmits : team.Admits s)
    (hof : s.stripeCustomerId = some customer.id) : Payable team orgId s := by
  refine ⟨hadmits, fun hid => ?_⟩
  have hown := (hadmits.own hid).2.1
  rw [hof] at hown
  have hsame : customer = team.customer :=
    db.customers.eq_of_clash hcustomer h.customer (Or.inl (Option.some.inj hown))
  rw [← horg, hsame, team.pays]

theorem locks_resolveBillingCustomer {userId : UUID} {orgId : Option UUID}
    {post : (Lock → Prop) → World σ → Py (Option StripeCustomer) → Prop}
    (hnone : ∀ t, Seated team t → post held t (.ok none))
    (hsome : ∀ t customer, Seated team t → customer ∈ t.db.customers.rows →
      customer.orgId = orgId → post held t (.ok (some customer))) :
    SeatLocks team seats (Session.resolveBillingCustomer userId orgId) post held w := by
  unfold SeatLocks Session.resolveBillingCustomer
  cases orgId with
  | some orgId =>
      dsimp only
      rw [Session.locks_select_same SeatLock.refl]
      intro t _ _ ht _
      cases hfound : t.db.customerByOrgId orgId with
      | none => exact hnone t ht
      | some customer =>
          obtain ⟨hmem, horg⟩ := Db.customerByOrgId_eq_some.mp hfound
          exact hsome t customer ht hmem horg
  | none =>
      dsimp only
      rw [Session.locks_select_same SeatLock.refl]
      intro t _ _ ht _
      cases hfound : t.db.customerByUserId userId with
      | none => exact hnone t ht
      | some customer =>
          obtain ⟨hmem, huser⟩ := Db.customerByUserId_eq_some.mp hfound
          refine hsome t customer ht hmem ?_
          -- a user's customer is no org's
          cases horg : customer.orgId with
          | none => rfl
          | some orgId =>
              rw [StripeCustomer.userId_eq_none hmem horg] at huser
              cases huser

theorem locks_getActiveForCustomer {customerId : UUID}
    {post : (Lock → Prop) → World σ → Py (Option Subscription) → Prop}
    (h : ∀ t found, Seated team t →
      (∀ s ∈ found, team.Admits s ∧ s.stripeCustomerId = some customerId) →
        post held t (.ok found)) :
    SeatLocks team seats (Session.ofHandler [] (Handler.getActiveForCustomer customerId)) post
      held w := by
  have hmem : ∀ {t : World σ} {s : Subscription}, Seated team t →
      s ∈ t.db.activeForCustomer customerId →
      team.Admits s ∧ s.stripeCustomerId = some customerId := by
    intro t s ht hs
    obtain ⟨hrow, hof, _⟩ := Db.mem_activeForCustomer.mp hs
    exact ⟨ht.subscribed.admits s hrow, hof⟩
  unfold SeatLocks Handler.getActiveForCustomer
  rw [Session.ofHandler_bind, Session.ofHandler_readSubscription, Fallible.locks_bind,
    Session.locks_select_same SeatLock.refl]
  intro t _ _ ht _
  rw [Fallible.lockChain_ok]
  split
  next => exact h t none ht fun s hs => (Option.not_mem_none s hs).elim
  next active hrows =>
      refine h t (some active) ht fun s hs => ?_
      cases hs
      refine hmem ht ?_
      rw [hrows]
      exact List.mem_singleton_self _
  next =>
      rw [Session.ofHandler_readSubscription, Session.locks_select_same SeatLock.refl]
      intro t' _ _ ht' _
      exact h t' _ ht' fun s hs => hmem ht' (Db.mem_of_latestActive (Option.mem_def.mp hs))

theorem locks_getCustomerAndPaidSubscription {userId : UUID} {orgId : Option UUID}
    {post : (Lock → Prop) → World σ → Py (StripeCustomer × Subscription × String) → Prop}
    (herror : ∀ t e, post held t (.error e))
    (hok : ∀ t customer sub stripeId, Seated team t → Payable team orgId sub →
      post held t (.ok (customer, sub, stripeId))) :
    SeatLocks team seats (Session.getCustomerAndPaidSubscription userId orgId) post held w := by
  unfold SeatLocks Session.getCustomerAndPaidSubscription
  rw [Fallible.locks_bind]
  refine locks_resolveBillingCustomer (fun t ht => herror t _) fun t customer ht hmem horg => ?_
  rw [Fallible.lockChain_ok]
  dsimp only
  rw [Fallible.locks_bind]
  refine locks_getActiveForCustomer fun t' found ht' hfound => ?_
  rw [Fallible.lockChain_ok]
  cases found with
  | none => exact herror t' _
  | some sub =>
      obtain ⟨hadmits, hof⟩ := hfound sub rfl
      dsimp only
      split
      next stripeId _ =>
          exact hok t' customer sub stripeId ht' (ht.subscribed.payable hmem horg hadmits hof)
      next => exact herror t' _

/-- What a change is based on: no fewer seats than members were counted. -/
theorem locks_checkMemberCount {seatLimit : Int} {orgId : Option UUID}
    {post : (Lock → Prop) → World σ → Py (List Basis) → Prop}
    (herror : ∀ t e, post held t (.error e))
    (hok : ∀ t bases, Seated team t → (orgId = some team.orgId → ∀ t : World σ,
      Counted team bases t.db → ((t.db.membersOf team.orgId).length : Int) ≤ seatLimit) →
      post held t (.ok bases)) (hw : Seated team w) :
    SeatLocks team seats (Session.checkMemberCount seatLimit orgId) post held w := by
  unfold SeatLocks Session.checkMemberCount
  cases orgId with
  | none => exact hok w [] hw nofun
  | some orgId =>
      dsimp only
      unfold Session.rejectSeatLimitBelowMemberCount
      rw [Fallible.locks_bind, Fallible.locks_bind, Session.locks_select_same SeatLock.refl]
      intro t _ _ ht _
      rw [Fallible.lockChain_ok]
      split
      next => exact herror t _
      next hcount =>
          refine hok t _ ht fun horg t' hcounted => ?_
          obtain rfl := Option.some.inj horg
          have hcurrent := hcounted _ (List.mem_singleton_self _) (beq_iff_eq.mpr rfl)
          have hle : ((t'.db.membersOf team.orgId).length : Int) ≤
              (t.db.members.filter fun m => m.orgId == team.orgId).length :=
            Int.ofNat_le.mpr hcurrent
          omega

theorem Session.quiet_checkMemberCount (seatLimit : Int) (orgId : Option UUID) :
    (Session.checkMemberCount seatLimit orgId : Session σ _).Quiet := by
  unfold Session.checkMemberCount
  cases orgId with
  | none => exact Fallible.quiet_pure _
  | some orgId =>
      refine Fallible.quiet_bind ?_ fun _ => Fallible.quiet_pure _
      unfold Session.rejectSeatLimitBelowMemberCount
      refine Fallible.quiet_bind (Session.quiet_select _) fun _ => ?_
      split
      · exact Fallible.quiet_throw _
      · exact Fallible.quiet_pure _

theorem Session.quiet_resolveMutationContext (userId : UUID) (context : Option String) :
    (Session.resolveMutationContext userId context : Session σ _).Quiet := by
  unfold Session.resolveMutationContext
  refine Fallible.quiet_bind (Session.quiet_lift _) fun explicit => ?_
  split
  next explicit =>
      cases explicit with
      | personal => exact Fallible.quiet_pure _
      | team =>
          refine Fallible.quiet_bind (Session.quiet_select _) fun member => ?_
          split
          · exact Fallible.quiet_pure _
          · exact Fallible.quiet_throw _
  next =>
      refine Fallible.quiet_bind (Session.quiet_select _) fun membership => ?_
      split
      · split
        · exact Fallible.quiet_throw _
        · exact Fallible.quiet_pure _
      · exact Fallible.quiet_pure _

theorem Session.quiet_requestedPrice (planPriceId : Option UUID) :
    (Session.requestedPrice planPriceId : Session σ _).Quiet := by
  unfold Session.requestedPrice
  cases planPriceId with
  | none => exact Fallible.quiet_pure _
  | some planPriceId =>
      refine Fallible.quiet_bind (Session.quiet_select _) fun _ => ?_
      exact Fallible.quiet_bind (Session.quiet_lift _) fun _ => Fallible.quiet_pure _

theorem seatSafe_updateSeatCount {sub : Subscription} {quantity : Int} {bases : List Basis}
    (hadmits : team.Admits sub)
    (hcounted : sub.id = team.subscriptionId → ∀ t : World σ, Counted team bases t.db →
      ((t.db.membersOf team.orgId).length : Int) ≤ quantity) (hw : Seated team w) :
    SeatSafe team (some quantity) (Session.ofHandler bases (updateSeatCount rt sub quantity))
      held w := by
  have hcall : ∀ call, Spares team (Session.ofHandler bases (Handler.callStripe rt call)) :=
    fun call => Session.moves_callStripe KeepsSeats.refl rt call
  have hlift : ∀ {α : Type} (result : Py α), Spares team (Session.lift result : Session σ α) :=
    fun result => spares_of_quiet (Session.quiet_lift result)
  unfold updateSeatCount
  dsimp only
  split
  next => exact seatSafe_of_spares (Fallible.moves_throw _) hw
  next =>
      split
      next stripeId _ =>
          rw [Session.ofHandler_bind]
          refine seatSafe_bind (hcall _) hw fun held t answer ht => ?_
          rw [Session.ofHandler_bind]
          refine seatSafe_bind (hlift _) ht fun held t firstItem ht => ?_
          rw [Session.ofHandler_bind]
          refine seatSafe_bind (hlift _) ht fun held t itemId ht => ?_
          rw [Session.ofHandler_bind]
          refine seatSafe_bind (hlift _) ht fun held t currentQuantity ht => ?_
          rw [Session.ofHandler_bind]
          refine seatSafe_bind (hlift _) ht fun held t less ht => ?_
          rw [Session.ofHandler_bind]
          refine seatSafe_bind (hcall _) ht fun held t modified ht => ?_
          split
          · exact seatSafe_saveSubscription ⟨hadmits.only, hadmits.own⟩
              (fun _ n hn => (Option.some.inj hn).symm) hcounted
          · exact seatSafe_of_spares (Fallible.moves_pure _) ht
      next => exact seatSafe_of_spares (Fallible.moves_throw _) hw

/-- A change of the plan asks Stripe, and stores nothing. -/
theorem spares_changePlan (bases : List Basis) (stripeId newStripePriceId : String)
    (newPriceAmount : Option Int) (prorate : Bool) (quantity : Option Int) :
    Spares team (Session.ofHandler bases
      (changePlan rt stripeId newStripePriceId newPriceAmount prorate quantity)) := by
  refine Fallible.Moves.relabel _ ?_
  have hcall : ∀ call, (Handler.callStripe rt call).Moves (Session.OnDb (KeepsSeats team)) :=
    fun call => Fallible.moves_atomic fun w => KeepsSeats.refl w.db
  have hlift : ∀ {α : Type} (result : Py α),
      (Handler.lift result : Handler σ α).Moves (Session.OnDb (KeepsSeats team)) :=
    fun result => Fallible.moves_ofExcept result
  unfold changePlan
  refine Fallible.moves_bind (hcall _) fun sub => ?_
  refine Fallible.moves_bind (hlift _) fun firstItem => ?_
  refine Fallible.moves_bind (hlift _) fun itemId => ?_
  refine Fallible.moves_bind (hlift _) fun currentQuantity => ?_
  refine Fallible.moves_bind (hlift _) fun downgrade => ?_
  dsimp only
  split
  · unfold scheduleDowngradeAtPeriodEnd pinningSchedule
    refine Fallible.moves_bind (hlift _) fun firstItem => ?_
    refine Fallible.moves_bind (hlift _) fun current => ?_
    refine Fallible.moves_bind (hcall _) fun newPrice => ?_
    refine Fallible.moves_bind (hlift _) fun newCurrency => ?_
    dsimp only
    split
    · exact Fallible.moves_throw _
    refine Fallible.moves_bind ?_ fun scheduleId =>
      Fallible.moves_bind (hcall _) fun _ => Fallible.moves_pure _
    refine Fallible.moves_bind (hlift _) fun existing => ?_
    split
    · exact Fallible.moves_pure _
    · refine Fallible.moves_bind (hlift _) fun id => ?_
      refine Fallible.moves_bind (hcall _) fun schedule => ?_
      exact Fallible.moves_bind (hlift _) fun _ => Fallible.moves_pure _
  · unfold applyImmediatePlanChange releasedItem
    refine Fallible.moves_bind ?_ fun itemId =>
      Fallible.moves_bind (hcall _) fun _ => Fallible.moves_pure _
    refine Fallible.moves_bind (hlift _) fun existing => ?_
    split
    · refine Fallible.moves_bind (hcall _) fun _ => Fallible.moves_bind (hcall _) fun _ => ?_
      exact Fallible.moves_bind (hlift _) fun _ => Fallible.moves_bind (hlift _) fun _ =>
        Fallible.moves_pure _
    · exact Fallible.moves_pure _

theorem seatSafe_applySeatOnly {sub : Subscription} {seatLimit : Int} {orgId : Option UUID}
    (hpayable : Payable team orgId sub) (hw : Seated team w) :
    SeatSafe team (some seatLimit) (Session.applySeatOnly rt sub seatLimit orgId) held w := by
  unfold Session.applySeatOnly
  refine seatSafe_bind (spares_of_quiet (Session.quiet_select _)) hw fun held t plan ht => ?_
  split
  · refine seatSafe_bind (spares_of_quiet (Session.quiet_lift _)) ht fun held t _ ht => ?_
    unfold SeatSafe
    rw [Fallible.locks_bind]
    refine locks_checkMemberCount (fun _ _ => trivial) (fun t bases ht hfit => ?_) ht
    exact seatSafe_updateSeatCount hpayable.admits (fun hown => hfit (hpayable.paid hown)) ht
  · exact seatSafe_of_spares (Fallible.moves_throw _) ht

theorem spares_applyPlanChange (sub : Subscription) (stripeId : String) (planPrice : LoadedPrice)
    (change : SubscriptionChange) (orgId : Option UUID) :
    Spares team (Session.applyPlanChange rt sub stripeId planPrice change orgId) := by
  unfold Session.applyPlanChange
  refine Fallible.moves_bind (spares_of_quiet (Session.quiet_select _)) fun found => ?_
  refine Fallible.moves_bind (spares_of_quiet (Session.quiet_lift _)) fun price => ?_
  obtain ⟨newPriceId, newPriceAmount⟩ := price
  dsimp only
  split
  · exact Fallible.moves_bind (spares_of_quiet (Session.quiet_checkMemberCount _ _)) fun bases =>
      spares_changePlan bases _ _ _ _ _
  · exact spares_changePlan _ _ _ _ _ _

theorem seatSafe_changeSubscription (userId : UUID) (context : Option String)
    (change : SubscriptionChange) (hw : Seated team w) :
    SeatSafe team change.seatLimit (Session.changeSubscription rt userId context change)
      held w := by
  unfold Session.changeSubscription
  refine seatSafe_bind (spares_of_quiet (Session.quiet_resolveMutationContext _ _)) hw
    fun held t orgId ht => ?_
  refine seatSafe_bind (spares_of_quiet (Session.quiet_requestedPrice _)) ht
    fun held t planPrice ht => ?_
  refine seatSafe_bind (spares_of_quiet (Session.quiet_lift _)) ht fun held t _ ht => ?_
  unfold SeatSafe
  rw [Fallible.locks_bind]
  refine locks_getCustomerAndPaidSubscription (fun _ _ => trivial)
    fun t customer sub stripeId ht hpayable => ?_
  rw [Fallible.lockChain_ok]
  dsimp only
  split
  · exact seatSafe_of_spares (spares_applyPlanChange _ _ _ _ _) ht
  next seatLimit _ hseats =>
      rw [hseats]
      exact seatSafe_applySeatOnly hpayable ht
  · exact seatSafe_of_spares (Fallible.moves_pure _) ht

end Change

/-! ## Events -/

/-- A created or updated event.  If it is about the subscription of the org, that is active,
and its seats are those of a `PATCH`, for which the members were counted. -/
structure SeatEvent (team : Team) (σ : Type) where
  rt : Runtime σ
  subData : Json
  seats : Int
  counted : ℕ
  suffice : (counted : Int) ≤ seats
  fresh : rt.subscriptionId ≠ team.subscriptionId
  only : ∀ d fields, readSubscriptionData subData = .ok d →
    readMirroredFields subData d = .ok fields → fields.status.isActive = true →
    d.customer = team.customer.stripeId → d.stripeId = team.stripeId
  echoes : ∀ d fields, readSubscriptionData subData = .ok d →
    readMirroredFields subData d = .ok fields → d.stripeId = team.stripeId →
    d.customer = team.customer.stripeId ∧ fields.status.isActive = true ∧ fields.seatLimit = seats

def SeatEvent.session (event : SeatEvent team σ) : Session σ Unit :=
  Session.ofHandler [.memberCount team.orgId event.counted]
    (syncSubscriptionFromData event.rt event.subData)

section Events

variable {w : World σ} {held : Lock → Prop}

/-- The row of the subscription is found by its Stripe id, and so is no other. -/
theorem Subscribed.id_of_stripeId {db : Db} (h : Subscribed team db) (freshId : UUID)
    (hfresh : freshId ≠ team.subscriptionId) (stripeId : String) :
    ((db.subscriptionByStripeId stripeId).map Subscription.id).getD freshId = team.subscriptionId ↔
      stripeId = team.stripeId := by
  obtain ⟨own, hown, hid⟩ := h.stored
  have hstripe := ((h.admits own hown).own hid).1
  constructor
  · intro hrow
    cases hfound : db.subscriptionByStripeId stripeId with
    | none =>
        rw [hfound] at hrow
        exact absurd hrow hfresh
    | some s =>
        obtain ⟨hs, hsid⟩ := Db.subscriptionByStripeId_eq_some.mp hfound
        rw [hfound] at hrow
        exact Option.some.inj (hsid.symm.trans ((h.admits s hs).own hrow).1)
  · rintro rfl
    rw [Db.subscriptionByStripeId_eq_some.mpr ⟨hown, hstripe⟩]
    exact hid

/-- What an event mirrors may be stored. -/
theorem SeatEvent.admits (event : SeatEvent team σ) {db db' : Db} (h : Subscribed team db)
    (h' : Subscribed team db') {d : SubscriptionData} {fields : MirroredFields}
    (hread : readSubscriptionData event.subData = .ok d)
    (hfields : readMirroredFields event.subData d = .ok fields) {customer : StripeCustomer}
    (hcustomer : db.customerByStripeId d.customer = some customer) {planId : UUID}
    {row : Subscription}
    (hrow : row = mirrorRow event.rt.subscriptionId event.rt.now d.stripeId customer planId
      (db'.subscriptionByStripeId d.stripeId) fields) :
    team.Admits row ∧ (row.id = team.subscriptionId → row.seatLimit = event.seats) := by
  obtain ⟨hmem, hstripeId⟩ := Db.customerByStripeId_eq_some.mp hcustomer
  have hid : row.id = team.subscriptionId ↔ d.stripeId = team.stripeId := by
    rw [hrow]
    exact h'.id_of_stripeId _ event.fresh d.stripeId
  refine ⟨⟨fun hactive hof => ?_, fun hown => ?_⟩, fun hown => ?_⟩
  · rw [hrow] at hactive hof
    rw [hid]
    refine event.only d fields hread hfields hactive ?_
    rw [← hstripeId, db.customers.eq_of_clash hmem h.customer (Or.inl (Option.some.inj hof))]
  · have hthis := hid.mp hown
    obtain ⟨hof, hactive, _⟩ := event.echoes d fields hread hfields hthis
    have hpays : customer = team.customer :=
      db.customers.eq_of_clash hmem h.customer (Or.inr (Or.inl (hstripeId.trans hof)))
    rw [hrow, hpays, hthis]
    exact ⟨rfl, rfl, h.userId_eq_none, hactive⟩
  · rw [hrow]
    exact (event.echoes d fields hread hfields (hid.mp hown)).2.2

theorem SeatEvent.seatSafe (event : SeatEvent team σ) :
    SeatSafe team (some event.seats) event.session held w := by
  unfold SeatEvent.session syncSubscriptionFromData SeatSafe
  rw [Session.ofHandler_bind, Fallible.locks_bind, Session.ofHandler_lift, Session.locks_lift_same]
  cases hread : readSubscriptionData event.subData with
  | error e => trivial
  | ok d =>
      rw [Fallible.lockChain_ok, Session.ofHandler_bind, Session.ofHandler_query,
        Fallible.locks_bind, Session.locks_select_same SeatLock.refl]
      intro t _ _ ht _
      rw [Fallible.lockChain_ok, Session.ofHandler_bind, Session.ofHandler_query]
      refine seatSafe_bind (spares_of_quiet (Session.quiet_select _)) ht fun held t₁ found ht₁ => ?_
      unfold SeatSafe
      rw [Session.ofHandler_bind, Session.ofHandler_readSubscription, Fallible.locks_bind,
        Session.locks_select_same SeatLock.refl]
      intro t₂ _ _ ht₂ _
      rw [Fallible.lockChain_ok]
      split
      next => exact seatSafe_of_spares (Fallible.moves_throw _) ht₂
      next customer hcustomer =>
          split
          next => exact seatSafe_of_spares (Fallible.moves_throw _) ht₂
          next planPrice =>
              rw [Session.ofHandler_bind, Session.ofHandler_lift, Fallible.locks_bind,
                Session.locks_lift_same]
              cases hrow : buildSubscriptionRow event.rt event.subData d customer planPrice.planId
                  (t₂.db.subscriptionByStripeId d.stripeId) with
              | error e => trivial
              | ok row =>
                  obtain ⟨fields, hfields, hrow⟩ := bind_eq_ok.mp hrow
                  obtain ⟨hadmits, hseats⟩ := event.admits ht.subscribed ht₂.subscribed hread
                    hfields hcustomer (Except.ok.inj hrow).symm
                  rw [Fallible.lockChain_ok, Session.ofHandler_saveSubscription]
                  refine seatSafe_saveSubscription hadmits ?_ fun hown t₃ hcounted => ?_
                  · exact fun hown n hn => (Option.some.inj hn).symm.trans (hseats hown).symm
                  · have hcurrent := hcounted _ (List.mem_singleton_self _) (beq_iff_eq.mpr rfl)
                    rw [hseats hown]
                    exact (Int.ofNat_le.mpr hcurrent).trans event.suffice

end Events

/-! ## Runs -/

/-- A request that may concern the seats of the org, or an event. -/
inductive SeatRequest (team : Team) (σ : Type)
  | invitation (request : InvitationRequest σ)
  | member (orgId : UUID) (request : MemberRequest)
  | change (rt : Runtime σ) (userId : UUID) (context : Option String) (asked : SubscriptionChange)
  | event (delivered : SeatEvent team σ)

def SeatRequest.session : SeatRequest team σ → Session σ Unit
  | invitation request => request.session
  | member orgId request => request.session orgId
  | change rt userId context asked => Session.changeSubscription rt userId context asked
  | event delivered => delivered.session

/-- The seats that are asked for. -/
def SeatRequest.requestedSeats : SeatRequest team σ → Option Int
  | change _ _ _ asked => asked.seatLimit
  | event delivered => some delivered.seats
  | invitation _ | member _ _ => none

theorem SeatRequest.seatSafe {w : World σ} {held : Lock → Prop} (request : SeatRequest team σ)
    (hw : Seated team w) : SeatSafe team request.requestedSeats request.session held w := by
  cases request with
  | invitation request => exact request.seatSafe hw
  | member orgId request => exact seatSafe_of_spares (request.spares orgId) hw
  | change rt userId context asked => exact seatSafe_changeSubscription userId context asked hw
  | event delivered => exact delivered.seatSafe

section Runs

variable {ι : Type} [DecidableEq ι]

/-- Any number of requests and events, none of which has made a statement. -/
def seatServer (requests : ι → SeatRequest team σ) (w : World σ) :
    Server ι Label Lock (World σ) (Py Unit) :=
  Server.start w fun i => ExceptT.run (requests i).session

/-- **The seats suffice**, in every state of every run of invitation and member requests,
changes of plans and seats, and events of subscriptions, some of them killed between two
statements, whose writes find no more members than were counted for them, unless they lower
no seats. -/
theorem seats_suffice (requests : ι → SeatRequest team σ) {w : World σ} (hw : Seated team w)
    {schedule : List (Move ι)}
    (hcounted : Runs.Steps (Server.step killed)
      (Server.Respects fun i => seatContract team (requests i).requestedSeats)
      (seatServer requests w) schedule) :
    Runs.Always (Server.step killed) (fun server => SeatsWithin team.orgId server.shared.db)
      (seatServer requests w) schedule := by
  have sound : Server.Sound (Seated team) (fun i => seatContract team (requests i).requestedSeats)
      (SeatLock team) (fun (_ : ι) (_ : World σ) (_ : Py Unit) => True) killed :=
    ⟨SeatLock.refl, fun _ _ _ _ => SeatLock.trans, fun _ _ _ _ _ _ => trivial,
      fun _ _ _ _ _ _ _ => trivial, fun _ _ _ => trivial⟩
  have hlocks := Server.run_locks sound
    (Server.locks_start hw fun i => (requests i).seatSafe hw) hcounted
  exact hlocks.mono fun _ h => h.1.within

end Runs

/-! ## Two schedules -/

/-- The org of the buyer, with its subscription. -/
def acme : Team where
  orgId := 1001#128
  customer := ⟨1003#128, "cus_team", none, some 1001#128, false, 0⟩
  subscriptionId := 1000#128
  stripeId := "sub_team"
  pays := rfl

/-- Stripe knows the subscription and lets it be changed. -/
def seatStripe : StripeCall → Py Json
  | .subscriptionRetrieve _ => .ok teamSubscriptionObject
  | call => modifiable call

/-- The buyer wants to pay for one seat, their own, and the invitee accepts. -/
def reduceAndAccept (k : Fin 2) : SeatRequest acme Unit :=
  if k = 0 then
    .change (sampleRuntime seatStripe 2 0) buyer.id none ⟨none, some 1, true, by decide, by decide⟩
  else .invitation (.accept (sampleRuntime teamStripe 3 0) "token-1" "Admin")

/-- The acceptance begins when the seats are reduced, and is refused. -/
def reduceFirst : List (Move (Fin 2)) := List.replicate 8 (.step 0) ++ List.replicate 6 (.step 1)

theorem seats_suffice_reduce_first : Runs.Always (Server.step killed)
    (fun server => SeatsWithin 1001#128 server.shared.db) (seatServer reduceAndAccept inviting)
    reduceFirst :=
  seats_suffice reduceAndAccept (by decide +kernel) (by decide +kernel)

/-- The members are counted before the acceptance, and the seats are stored after it. -/
def countFirst : List (Move (Fin 2)) :=
  List.replicate 5 (.step 0) ++ List.replicate 9 (.step 1) ++ List.replicate 3 (.step 0)

/-- Both requests succeed, and two members have one seat. -/
theorem not_seats_suffice : Seated acme inviting ∧
    (∀ k, (((seatServer reduceAndAccept inviting).run killed countFirst).procs k).result? =
      some (.ok ())) ∧
    ¬ Runs.Always (Server.step killed) (fun server => SeatsWithin 1001#128 server.shared.db)
      (seatServer reduceAndAccept inviting) countFirst := by
  refine ⟨by decide +kernel, by decide +kernel, fun h => ?_⟩
  have hfinal := h.final
  revert hfinal
  decide +kernel

end Saasmint
