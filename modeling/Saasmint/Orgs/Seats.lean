import Saasmint.Billing.PlanChanges
import Saasmint.Orgs.Lifecycle

/-!
# The seats of an org

An org pays for seats, and the row of its subscription says how many.  Both sides of
the inequality move: invitations are accepted and members removed, and the seats are
changed by `PATCH` requests and by the events of the subscription.

* An acceptance locks the row, counts the members and joins before it lets go.  With
  the row locked nobody else joins and nobody changes the seats, so what it has checked
  still holds when it joins.
* A change of the seats counts the members without a lock.  Somebody may join between
  the count and the write, which comes after two calls to Stripe, and for an event much
  later.

So the members fit the seats as long as every write of the seats finds no more members
than were counted for it.
-/

namespace Saasmint

open Atomic Relational

variable {σ : Type}

/-! ## An org and its subscription -/

/-- The members of the org fit the seats of its active subscriptions. -/
def SeatsWithin (orgId : UUID) (db : Db) : Prop :=
  ∀ s ∈ db.activeTeamSubs orgId, ((db.membersOf orgId).length : Int) ≤ s.seatLimit

instance (orgId : UUID) (db : Db) : Decidable (SeatsWithin orgId db) :=
  inferInstanceAs (Decidable (∀ _ ∈ _, _))

/-- An org with the customer that pays for it, and the subscription the customer has. -/
structure Team where
  orgId : UUID
  customer : StripeCustomer
  subscriptionId : UUID
  stripeId : String
  pays : customer.orgId = some orgId

/-- A row that may be stored: the customer's only active subscription, one that has ended,
or a subscription of another customer. -/
structure Team.Admits (team : Team) (s : Subscription) : Prop where
  only : s.status.isActive = true → s.stripeCustomerId = some team.customer.id →
    s.id = team.subscriptionId
  own : s.id = team.subscriptionId → s.stripeId = some team.stripeId ∧
    s.stripeCustomerId = some team.customer.id ∧ s.userId = none ∧ s.status.isActive = true

instance (team : Team) (s : Subscription) : Decidable (team.Admits s) :=
  decidable_of_iff ((s.status.isActive = true → s.stripeCustomerId = some team.customer.id →
      s.id = team.subscriptionId) ∧ (s.id = team.subscriptionId → s.stripeId = some team.stripeId ∧
      s.stripeCustomerId = some team.customer.id ∧ s.userId = none ∧ s.status.isActive = true))
    ⟨fun h => ⟨h.1, h.2⟩, fun h => ⟨h.only, h.own⟩⟩

/-- The org has its one subscription. -/
structure Subscribed (team : Team) (db : Db) : Prop where
  customer : team.customer ∈ db.customers.rows
  stored : ∃ s ∈ db.subscriptions.rows, s.id = team.subscriptionId
  admits : ∀ s ∈ db.subscriptions.rows, team.Admits s

instance (team : Team) (db : Db) : Decidable (Subscribed team db) :=
  decidable_of_iff (team.customer ∈ db.customers.rows ∧
      (∃ s ∈ db.subscriptions.rows, s.id = team.subscriptionId) ∧
      ∀ s ∈ db.subscriptions.rows, team.Admits s)
    ⟨fun h => ⟨h.1, h.2.1, h.2.2⟩, fun h => ⟨h.customer, h.stored, h.admits⟩⟩

variable {team : Team}

namespace Subscribed

variable {db : Db}

/-- The customers of the org are the one that pays. -/
theorem eq_customer (h : Subscribed team db) {c : StripeCustomer} (hc : c ∈ db.customers.rows)
    (horg : c.orgId = some team.orgId) : c = team.customer :=
  db.customers.eq_of_clash hc h.customer
    (Or.inr (Or.inr (Or.inr ⟨by rw [horg]; rfl, horg.trans team.pays.symm⟩)))

theorem userId_eq_none (h : Subscribed team db) : team.customer.userId = none :=
  StripeCustomer.userId_eq_none h.customer team.pays

theorem mem_activeTeamSubs (h : Subscribed team db) {s : Subscription} :
    s ∈ db.activeTeamSubs team.orgId ↔
      s ∈ db.subscriptions.rows ∧ s.id = team.subscriptionId := by
  unfold Db.activeTeamSubs Table.filter
  simp only [List.mem_filter, Bool.and_eq_true, List.any_eq_true, beq_iff_eq]
  constructor
  · rintro ⟨hs, hactive, c, hc, hcustomer, horg⟩
    rw [h.eq_customer hc horg] at hcustomer
    exact ⟨hs, (h.admits s hs).only hactive hcustomer⟩
  · rintro ⟨hs, hid⟩
    obtain ⟨_, hcustomer, _, hactive⟩ := (h.admits s hs).own hid
    exact ⟨hs, hactive, team.customer, h.customer, hcustomer, team.pays⟩

theorem seatsWithin_iff (h : Subscribed team db) : SeatsWithin team.orgId db ↔
    ∀ s ∈ db.subscriptions.rows, s.id = team.subscriptionId →
      ((db.membersOf team.orgId).length : Int) ≤ s.seatLimit := by
  unfold SeatsWithin
  constructor
  · exact fun hfit s hs hid => hfit s (h.mem_activeTeamSubs.mpr ⟨hs, hid⟩)
  · intro hfit s hs
    obtain ⟨hs, hid⟩ := h.mem_activeTeamSubs.mp hs
    exact hfit s hs hid

/-- The query that locks the subscription finds it. -/
theorem activeTeamSub (h : Subscribed team db) : ∃ s ∈ db.subscriptions.rows,
    s.id = team.subscriptionId ∧ db.activeTeamSub team.orgId = some s := by
  obtain ⟨s, hs, hid⟩ := h.stored
  have hmem := h.mem_activeTeamSubs.mpr ⟨hs, hid⟩
  cases hfound : db.activeTeamSub team.orgId with
  | none =>
      rw [Db.first?_eq_none.mp hfound] at hmem
      cases hmem
  | some found =>
      obtain ⟨hmem', hid'⟩ := h.mem_activeTeamSubs.mp (Db.mem_of_first? hfound)
      exact ⟨found, hmem', hid', rfl⟩

end Subscribed

/-! ## What a statement may do -/

/-- The subscription of the org stays, and nobody joins the org. -/
structure KeepsSeats (team : Team) (db db' : Db) : Prop where
  subscribed : Subscribed team db → Subscribed team db'
  rows : Subscribed team db →
    SameRows (fun s => s.id = team.subscriptionId) db.subscriptions db'.subscriptions
  members : (db'.membersOf team.orgId).length ≤ (db.membersOf team.orgId).length

theorem KeepsSeats.refl (db : Db) : KeepsSeats team db db :=
  ⟨id, fun _ _ _ => Iff.rfl, le_refl _⟩

/-- What `lock_active_team_sub` protects: the row, and that nobody joins. -/
def SeatLock (team : Team) (k : Lock) (w w' : World σ) : Prop :=
  k = .subscription team.subscriptionId →
    SameRows (fun s => s.id = team.subscriptionId) w.db.subscriptions w'.db.subscriptions ∧
      (w'.db.membersOf team.orgId).length ≤ (w.db.membersOf team.orgId).length

theorem SeatLock.refl (k : Lock) (w : World σ) : SeatLock team k w w :=
  fun _ => ⟨fun _ _ => Iff.rfl, le_refl _⟩

theorem SeatLock.trans {k : Lock} {w w' w'' : World σ} (h : SeatLock team k w w')
    (h' : SeatLock team k w' w'') : SeatLock team k w w'' := by
  intro hk
  obtain ⟨hrows, hmembers⟩ := h hk
  obtain ⟨hrows', hmembers'⟩ := h' hk
  exact ⟨fun s hs => (hrows s hs).trans (hrows' s hs), hmembers'.trans hmembers⟩

/-- The invariant. -/
structure Seated (team : Team) (w : World σ) : Prop where
  subscribed : Subscribed team w.db
  within : SeatsWithin team.orgId w.db

instance (team : Team) (w : World σ) : Decidable (Seated team w) :=
  decidable_of_iff (Subscribed team w.db ∧ SeatsWithin team.orgId w.db)
    ⟨fun h => ⟨h.1, h.2⟩, fun h => ⟨h.subscribed, h.within⟩⟩

theorem KeepsSeats.seated {w w' : World σ} (h : KeepsSeats team w.db w'.db)
    (hw : Seated team w) : Seated team w' := by
  have hsubscribed := h.subscribed hw.subscribed
  refine ⟨hsubscribed, hsubscribed.seatsWithin_iff.mpr fun s hs hid => ?_⟩
  have hfit := hw.subscribed.seatsWithin_iff.mp hw.within s
    ((h.rows hw.subscribed s hid).mpr hs) hid
  have hmembers := h.members
  omega

theorem KeepsSeats.seatLock {w w' : World σ} (h : KeepsSeats team w.db w'.db)
    (hw : Seated team w) (k : Lock) : SeatLock team k w w' :=
  fun _ => ⟨h.rows hw.subscribed, h.members⟩

/-! ## What is written -/

section Writes

variable {db db' : Db}

/-- Subscriptions, customers and the org's members are as before. -/
theorem keepsSeats_of_same (hsubscriptions : db'.subscriptions = db.subscriptions)
    (hcustomers : db'.customers = db.customers)
    (hmembers : db'.membersOf team.orgId = db.membersOf team.orgId) : KeepsSeats team db db' := by
  refine ⟨fun h => ?_, fun _ s _ => by rw [hsubscriptions], by rw [hmembers]⟩
  exact ⟨hcustomers ▸ h.customer, hsubscriptions ▸ h.stored, hsubscriptions ▸ h.admits⟩

theorem membersOf_congr {orgId : UUID} (h : db'.members = db.members) :
    db'.membersOf orgId = db.membersOf orgId := by
  rw [Db.membersOf, h, Db.membersOf]

theorem keepsSeats_of_invitations
    (hframe : db'.toTables = { db.toTables with invitations := db'.invitations }) :
    KeepsSeats team db db' :=
  keepsSeats_of_same (by rw [hframe]) (by rw [hframe]) (membersOf_congr (by rw [hframe]))

/-- A user's accounts go, none of which is the org's. -/
theorem keepsSeats_of_deleteUsers {ids : List UUID}
    (h : db'.toTables = db.toTables.deleteUsers ids) : KeepsSeats team db db' := by
  have hkept : ∀ s, Subscribed team db → s.id = team.subscriptionId →
      (s ∈ db.subscriptions.rows ↔ s ∈ db'.subscriptions.rows) := by
    intro s hsubscribed hid
    rw [h, Tables.mem_subscriptions_deleteUsers]
    refine ⟨fun hs => ⟨⟨hs, fun c hc hgone hcustomer => ?_⟩, ?_⟩, fun hs => hs.1.1⟩
    · -- a customer that goes is a user's, the org's is not
      have hown := ((hsubscribed.admits s hs).own hid).2.1
      rw [hcustomer] at hown
      have hsame : c = team.customer :=
        db.customers.eq_of_clash hc hsubscribed.customer (Or.inl (Option.some.inj hown))
      rw [hsame, hsubscribed.userId_eq_none] at hgone
      cases hgone
    · rw [((hsubscribed.admits s hs).own hid).2.2.1]
      rfl
  refine ⟨fun hsubscribed => ⟨?_, ?_, fun s hs => ?_⟩, fun hsubscribed s hid =>
    hkept s hsubscribed hid, ?_⟩
  · rw [h, Tables.mem_customers_deleteUsers, hsubscribed.userId_eq_none]
    exact ⟨hsubscribed.customer, rfl⟩
  · obtain ⟨s, hs, hid⟩ := hsubscribed.stored
    exact ⟨s, (hkept s hsubscribed hid).mp hs, hid⟩
  · rw [h, Tables.mem_subscriptions_deleteUsers] at hs
    exact hsubscribed.admits s hs.1.1
  · have hsub : (db'.membersOf team.orgId).Sublist (db.membersOf team.orgId) := by
      unfold Db.membersOf Table.filter
      rw [h]
      exact List.Sublist.filter _ (List.filter_sublist)
    exact hsub.length_le

/-- A row is saved that may be stored. -/
theorem subscribed_of_save {now : Datetime} {row : Subscription}
    (h : db.saveSubscription now row = .ok db') (hrow : team.Admits row)
    (hsubscribed : Subscribed team db) : Subscribed team db' := by
  have hframe := Db.saveSubscription_frame h
  have hcopy : ∀ createdAt, team.Admits { row with createdAt := createdAt } :=
    fun _ => ⟨hrow.only, hrow.own⟩
  refine ⟨?_, ?_, fun s hs => ?_⟩
  · rw [hframe]
    exact hsubscribed.customer
  · obtain ⟨s, hs, hid⟩ := hsubscribed.stored
    by_cases hsame : s.id = row.id
    · obtain ⟨createdAt, hsaved⟩ := Db.exists_saved h
      exact ⟨_, hsaved, hsame.symm.trans hid⟩
    · exact ⟨s, (Db.mem_saveSubscription h).mpr (Or.inl ⟨hs, hsame⟩), hid⟩
  · rcases (Db.mem_saveSubscription h).mp hs with ⟨hold, _⟩ | ⟨old, _, _, rfl⟩ | ⟨rfl, _⟩
    · exact hsubscribed.admits s hold
    · exact hcopy _
    · exact hcopy _

theorem membersOf_save {now : Datetime} {row : Subscription} {orgId : UUID}
    (h : db.saveSubscription now row = .ok db') : db'.membersOf orgId = db.membersOf orgId :=
  membersOf_congr (by rw [Db.saveSubscription_frame h])

/-- A row of another subscription is saved. -/
theorem keepsSeats_of_save {now : Datetime} {row : Subscription}
    (h : db.saveSubscription now row = .ok db') (hrow : team.Admits row)
    (hother : row.id ≠ team.subscriptionId) : KeepsSeats team db db' := by
  refine ⟨subscribed_of_save h hrow, fun _ s hid => ?_, by rw [membersOf_save h]⟩
  have hne : s.id ≠ row.id := fun hsame => hother (hsame.symm.trans hid)
  rw [Db.mem_saveSubscription h]
  constructor
  · exact fun hs => Or.inl ⟨hs, hne⟩
  · rintro (⟨hs, _⟩ | ⟨old, _, _, rfl⟩ | ⟨rfl, _⟩)
    · exact hs
    · exact absurd rfl hne
    · exact absurd rfl hne

/-- The seats of the org are written, at least as many as it has members. -/
theorem seatsWithin_of_save {now : Datetime} {row : Subscription}
    (h : db.saveSubscription now row = .ok db') (hrow : team.Admits row)
    (hown : row.id = team.subscriptionId) (hsubscribed : Subscribed team db)
    (hfit : ((db.membersOf team.orgId).length : Int) ≤ row.seatLimit) :
    SeatsWithin team.orgId db' := by
  rw [(subscribed_of_save h hrow hsubscribed).seatsWithin_iff, membersOf_save h]
  intro s hs hid
  rcases (Db.mem_saveSubscription h).mp hs with ⟨_, hne⟩ | ⟨old, _, _, rfl⟩ | ⟨rfl, _⟩
  · exact absurd (hid.trans hown.symm) hne
  · exact hfit
  · exact hfit

theorem membersOf_accepted {rt : Runtime σ} {invitation : Invitation} {fullName : String}
    (h : Accepted rt invitation fullName db db') {orgId : UUID} :
    db'.membersOf orgId = db.membersOf orgId ++
      if invitation.orgId = orgId then [inviteeMembership rt invitation] else [] := by
  unfold Db.membersOf Table.filter
  rw [h.members, List.filter_append]
  refine congrArg (db.members.rows.filter _ ++ ·) ?_
  simp only [List.filter_cons, List.filter_nil, inviteeMembership, beq_iff_eq]

/-- Somebody joins another org. -/
theorem keepsSeats_of_accepted {rt : Runtime σ} {invitation : Invitation} {fullName : String}
    (h : Accepted rt invitation fullName db db') (hother : invitation.orgId ≠ team.orgId) :
    KeepsSeats team db db' := by
  refine keepsSeats_of_same (by rw [h.frame]) (by rw [h.frame]) ?_
  rw [membersOf_accepted h, if_neg hother, List.append_nil]

end Writes

end Saasmint
