import Saasmint.Orgs.Erasure

/-!
# Subscriptions that nobody cancels

A deletion takes customer and subscription rows along with the users and orgs it
deletes.  A subscription that is still running at Stripe and loses its row should be
cancelled, be queued for cancellation, or end with its Stripe customer.

Each of the five deletions picks the subscriptions it cancels in its own way: a
removal and the task after a cancellation pick none, the deletion of an org the latest
active one of the org, the deletion of an account that, the user's latest active one
and all of the user's customer.  No subscription is orphaned if and only if all that
run and go are among those picked.
-/

namespace Saasmint

open Atomic Relational

variable {σ : Type} {t t' t'' : Tables}

/-! ## What goes -/

/-- The customers that are `owned`, and the subscriptions of these and of the `users`, are
gone; the others are left. -/
structure GoneWith (owned : StripeCustomer → Prop) (users : List UUID) (t t' : Tables) : Prop where
  customers : ∀ c, c ∈ t'.customers.rows ↔ c ∈ t.customers.rows ∧ ¬ owned c
  subscriptions : ∀ s, s ∈ t'.subscriptions.rows ↔ s ∈ t.subscriptions.rows ∧
    (∀ k ∈ s.userId, k ∉ users) ∧
    ∀ c ∈ t.customers.rows, s.stripeCustomerId = some c.id → ¬ owned c

namespace GoneWith

variable {owned owned' : StripeCustomer → Prop} {users users' : List UUID}

theorem refl (t : Tables) : GoneWith (fun _ => False) [] t t := by
  constructor
  · simp
  · simp

theorem trans (h : GoneWith owned users t t') (h' : GoneWith owned' users' t' t'') :
    GoneWith (fun c => owned c ∨ owned' c) (users ++ users') t t'' := by
  constructor
  · intro c
    rw [h'.customers, h.customers, not_or, and_assoc]
  · intro s
    rw [h'.subscriptions, h.subscriptions]
    constructor
    · rintro ⟨⟨hs, husers, hcustomers⟩, husers', hcustomers'⟩
      refine ⟨hs, fun k hk hgone => ?_, fun c hc hcustomer howned => ?_⟩
      · rcases List.mem_append.mp hgone with hgone | hgone
        · exact husers k hk hgone
        · exact husers' k hk hgone
      · have hkept := hcustomers c hc hcustomer
        rcases howned with howned | howned
        · exact hkept howned
        · exact hcustomers' c ((h.customers c).mpr ⟨hc, hkept⟩) hcustomer howned
    · rintro ⟨hs, husers, hcustomers⟩
      refine ⟨⟨hs, fun k hk hgone => ?_, fun c hc hcustomer howned => ?_⟩,
        fun k hk hgone => ?_, fun c hc hcustomer howned => ?_⟩
      · exact husers k hk (List.mem_append_left _ hgone)
      · exact hcustomers c hc hcustomer (Or.inl howned)
      · exact husers k hk (List.mem_append_right _ hgone)
      · exact hcustomers c ((h.customers c).mp hc).1 hcustomer (Or.inr howned)

theorem congr (h : GoneWith owned users t t') (howned : ∀ c ∈ t.customers.rows, owned c ↔ owned' c)
    (husers : ∀ k, k ∈ users ↔ k ∈ users') : GoneWith owned' users' t t' := by
  constructor
  · intro c
    rw [h.customers]
    exact and_congr_right fun hc => not_congr (howned c hc)
  · intro s
    rw [h.subscriptions]
    refine and_congr_right fun _ => and_congr ?_ ?_
    · exact forall₂_congr fun k _ => not_congr (husers k)
    · exact forall₂_congr fun c hc => imp_congr_right fun _ => not_congr (howned c hc)

/-- Who is not deleted, and whose customer is not, pays for a plan as before. -/
theorem hasPersonalSub_eq {k : UUID} (h : GoneWith owned users t t') (hk : k ∉ users)
    (hkept : ∀ c ∈ t.customers.rows, c.userId = some k → ¬ owned c) :
    t'.hasPersonalSub k = t.hasPersonalSub k := by
  rw [Bool.eq_iff_iff]
  unfold Tables.hasPersonalSub
  simp only [List.any_eq_true, Bool.and_eq_true, beq_iff_eq]
  constructor
  · rintro ⟨s, hs, hactive, c, hc, hcustomer, huser⟩
    exact ⟨s, ((h.subscriptions s).mp hs).1, hactive, c, ((h.customers c).mp hc).1, hcustomer, huser⟩
  · rintro ⟨s, hs, hactive, c, hc, hcustomer, huser⟩
    refine ⟨s, (h.subscriptions s).mpr ⟨hs, ?_, ?_⟩, hactive, c,
      (h.customers c).mpr ⟨hc, hkept c hc huser⟩, hcustomer, huser⟩
    · intro k' hk' hmem
      rw [Option.mem_def, hactive.1] at hk'
      exact hk (Option.some.inj hk' ▸ hmem)
    · intro c' hc' hcustomer'
      have hsame : c' = c := t.customers.eq_of_clash hc' hc
        (Or.inl (Option.some.inj (hcustomer'.symm.trans hcustomer)))
      rw [hsame]
      exact hkept c hc huser

end GoneWith

/-- The customer belongs to one of the users or to one of the orgs. -/
def OwnedBy (users orgs : List UUID) (c : StripeCustomer) : Prop :=
  (∃ userId ∈ c.userId, userId ∈ users) ∨ ∃ orgId ∈ c.orgId, orgId ∈ orgs

instance (users orgs : List UUID) (c : StripeCustomer) : Decidable (OwnedBy users orgs c) :=
  inferInstanceAs (Decidable (_ ∨ _))

theorem goneWith_deleteCustomers (gone : StripeCustomer → Bool) :
    GoneWith (fun c => gone c = true) [] t (t.deleteCustomers gone) := by
  constructor
  · intro c
    rw [Tables.mem_customers_deleteCustomers, Bool.not_eq_true]
  · intro s
    rw [Tables.mem_subscriptions_deleteCustomers]
    refine and_congr_right fun _ => ?_
    constructor
    · exact fun h => ⟨fun _ _ => List.not_mem_nil, fun c hc hcustomer hgone => h c hc hgone hcustomer⟩
    · exact fun h c hc hgone hcustomer => h.2 c hc hcustomer hgone

theorem goneWith_deleteUsers (ids : List UUID) :
    GoneWith (OwnedBy ids []) ids t (t.deleteUsers ids) := by
  have howned : ∀ c : StripeCustomer, OwnedBy ids [] c ↔ Tables.goneUser ids c.userId = true := by
    intro c
    rw [Tables.goneUser_eq_true]
    simp [OwnedBy]
  constructor
  · intro c
    rw [Tables.mem_customers_deleteUsers, howned, Bool.not_eq_true]
  · intro s
    rw [Tables.mem_subscriptions_deleteUsers, Tables.goneUser_eq_false, and_assoc]
    refine and_congr_right fun _ => ?_
    constructor
    · rintro ⟨hcustomers, husers⟩
      exact ⟨husers, fun c hc hcustomer hgone => hcustomers c hc ((howned c).mp hgone) hcustomer⟩
    · rintro ⟨husers, hcustomers⟩
      exact ⟨fun c hc hgone hcustomer => hcustomers c hc hcustomer ((howned c).mpr hgone), husers⟩

theorem goneWith_deleteOrgs (orgIds : List UUID) :
    GoneWith (OwnedBy [] orgIds) [] t (t.deleteOrgs orgIds) := by
  have hgone := goneWith_deleteCustomers (t := t) fun c => Tables.goneUser orgIds c.orgId
  refine (show GoneWith _ [] t (t.deleteOrgs orgIds) from
    ⟨hgone.customers, hgone.subscriptions⟩).congr (fun c _ => ?_) fun _ => Iff.rfl
  rw [Tables.goneUser_eq_true]
  simp [OwnedBy]

/-- A batch takes the orgs' customers, and those of the members who go with them. -/
theorem goneWith_deleteOrgBatch (orgIds : List UUID) :
    GoneWith (OwnedBy (t.deletableUserIdsOf orgIds) orgIds) (t.deletableUserIdsOf orgIds) t
      (t.deleteOrgBatch orgIds) := by
  have hcancelled : GoneWith (fun _ => False) [] t (t.cancelInvitationsOf orgIds) :=
    ⟨(GoneWith.refl t).customers, (GoneWith.refl t).subscriptions⟩
  have hall := (hcancelled.trans (goneWith_deleteUsers (t.deletableUserIdsOf orgIds))).trans
    (goneWith_deleteOrgs orgIds)
  refine hall.congr (fun c _ => ?_) fun k => ?_
  · simp [OwnedBy]
  · simp

theorem goneWith_deleteOrgsCreatedBy (userId : UUID) :
    GoneWith (OwnedBy (t.deletableUserIdsOf (t.createdBy userId)) (t.createdBy userId))
      (t.deletableUserIdsOf (t.createdBy userId)) t (t.deleteOrgsCreatedBy userId) := by
  rcases t.deleteOrgsCreatedBy_cases userId with ⟨hnone, hsame⟩ | hdeleted
  · rw [hnone, hsame]
    have hnobody : t.deletableUserIdsOf [] = [] := by
      simp [Tables.deletableUserIdsOf, Table.filter]
    rw [hnobody]
    exact (GoneWith.refl t).congr (fun c _ => by simp [OwnedBy]) fun _ => Iff.rfl
  · rw [hdeleted]
    exact goneWith_deleteOrgBatch _

/-- The user's customer is the one that is looked up. -/
theorem goneWith_deleteCustomerOf (userId : UUID) :
    GoneWith (OwnedBy [userId] []) [] t (t.deleteCustomerOf userId) := by
  rcases hfound : t.customers.find? (·.userId == some userId) with _ | customer
  · have hsame : t.deleteCustomerOf userId = t := by
      rw [Tables.deleteCustomerOf, hfound]
    rw [hsame]
    refine (GoneWith.refl t).congr (fun c hc => ?_) fun _ => Iff.rfl
    have hother := Table.find?_eq_none.mp hfound c hc
    simp only [OwnedBy, List.mem_singleton, List.not_mem_nil, and_false, exists_false, or_false,
      false_iff]
    rintro ⟨k, hk, rfl⟩
    exact hother (beq_iff_eq.mpr hk)
  · obtain ⟨hmem, huser⟩ := Table.mem_of_find? hfound
    have hdeleted : t.deleteCustomerOf userId = t.deleteCustomers fun c => c.id == customer.id := by
      rw [Tables.deleteCustomerOf, hfound]
    rw [hdeleted]
    refine (goneWith_deleteCustomers _).congr (fun c hc => ?_) fun _ => Iff.rfl
    simp only [OwnedBy, List.mem_singleton, List.not_mem_nil, and_false, exists_false, or_false,
      beq_iff_eq]
    constructor
    · intro hid
      rw [t.customers.eq_of_clash hc hmem (Or.inl hid)]
      exact ⟨userId, beq_iff_eq.mp huser, rfl⟩
    · rintro ⟨k, hk, rfl⟩
      have hsame : c = customer := t.customers.eq_of_clash hc hmem
        (Or.inr (Or.inr (Or.inl ⟨by rw [Option.mem_def.mp hk]; rfl, hk.trans (beq_iff_eq.mp huser).symm⟩)))
      rw [hsame]

/-- Who else goes does not depend on the customer of the user who goes. -/
theorem mem_deletableUserIdsOf_deleteCustomerOf {userId k : UUID} {orgIds : List UUID}
    (hother : k ≠ userId) : k ∈ (t.deleteCustomerOf userId).deletableUserIdsOf orgIds ↔
      k ∈ t.deletableUserIdsOf orgIds := by
  have hgone := goneWith_deleteCustomerOf (t := t) userId
  have hmembers : (t.deleteCustomerOf userId).members = t.members := by
    rcases t.deleteCustomerOf_cases userId with hsame | ⟨customer, _, _, hdeleted⟩
    · rw [hsame]
    · rw [hdeleted]
      rfl
  have hpersonal : (t.deleteCustomerOf userId).hasPersonalSub k = t.hasPersonalSub k := by
    refine hgone.hasPersonalSub_eq List.not_mem_nil fun c _ hk howned => ?_
    -- the customer of `k` is not owned by the user who goes
    rcases howned with ⟨u, hu, hmem⟩ | ⟨_, _, hmem⟩
    · rw [List.mem_singleton.mp hmem, Option.mem_def, hk] at hu
      exact hother (Option.some.inj hu)
    · cases hmem
  rw [Tables.mem_deletableUserIdsOf, Tables.mem_deletableUserIdsOf, hmembers, hpersonal]

/-! ### Accounts -/

/-- A complete deletion takes what is the user's and what is the orgs'. -/
theorem goneWith_erased (userId : UUID) :
    GoneWith (OwnedBy (userId :: t.deletableUserIdsOf (t.createdBy userId)) (t.createdBy userId))
      (userId :: t.deletableUserIdsOf (t.createdBy userId)) t (t.erased userId 4) := by
  have horgs := goneWith_deleteOrgsCreatedBy (t := t.deleteCustomerOf userId) userId
  rw [createdBy_deleteCustomerOf] at horgs
  have hmemberships : GoneWith (fun _ => False) [] ((t.deleteCustomerOf userId).deleteOrgsCreatedBy
      userId) (((t.deleteCustomerOf userId).deleteOrgsCreatedBy userId).deleteMembershipsOf userId) :=
    ⟨(GoneWith.refl _).customers, (GoneWith.refl _).subscriptions⟩
  have hall := (((goneWith_deleteCustomerOf userId).trans horgs).trans hmemberships).trans
    (goneWith_deleteUsers [userId])
  refine hall.congr (fun c _ => ?_) fun k => ?_
  · unfold OwnedBy
    cases c.userId with
    | none => simp
    | some k =>
        by_cases hk : k = userId
        · simp [hk]
        · simp [hk, mem_deletableUserIdsOf_deleteCustomerOf hk]
  · by_cases hk : k = userId
    · simp [hk]
    · simp [hk, mem_deletableUserIdsOf_deleteCustomerOf hk]

/-- Nothing comes back on the way to the end. -/
theorem erased_subset (userId : UUID) (stage : ℕ) :
    (∀ c ∈ (t.erased userId 4).customers.rows, c ∈ (t.erased userId stage).customers.rows) ∧
      ∀ s ∈ (t.erased userId 4).subscriptions.rows, s ∈ (t.erased userId stage).subscriptions.rows := by
  have h₁ := goneWith_deleteCustomerOf (t := t) userId
  have h₂ := goneWith_deleteOrgsCreatedBy (t := t.deleteCustomerOf userId) userId
  have h₄ := goneWith_deleteUsers (t := ((t.deleteCustomerOf userId).deleteOrgsCreatedBy
    userId).deleteMembershipsOf userId) [userId]
  have hback₃ : ∀ c ∈ (t.erased userId 4).customers.rows, c ∈ (t.erased userId 3).customers.rows :=
    fun c hc => ((h₄.customers c).mp hc).1
  have hback₃' : ∀ s ∈ (t.erased userId 4).subscriptions.rows,
      s ∈ (t.erased userId 3).subscriptions.rows := fun s hs => ((h₄.subscriptions s).mp hs).1
  have hback₁ : ∀ c ∈ (t.erased userId 3).customers.rows, c ∈ (t.erased userId 1).customers.rows :=
    fun c hc => ((h₂.customers c).mp hc).1
  have hback₁' : ∀ s ∈ (t.erased userId 3).subscriptions.rows,
      s ∈ (t.erased userId 1).subscriptions.rows := fun s hs => ((h₂.subscriptions s).mp hs).1
  match stage with
  | 0 =>
      exact ⟨fun c hc => ((h₁.customers c).mp (hback₁ c (hback₃ c hc))).1,
        fun s hs => ((h₁.subscriptions s).mp (hback₁' s (hback₃' s hs))).1⟩
  | 1 => exact ⟨fun c hc => hback₁ c (hback₃ c hc), fun s hs => hback₁' s (hback₃' s hs)⟩
  | 2 => exact ⟨hback₃, hback₃'⟩
  | 3 => exact ⟨hback₃, hback₃'⟩
  | _ + 4 => exact ⟨fun _ hc => hc, fun _ hs => hs⟩

/-! ## Running subscriptions -/

/-- A subscription at Stripe that has not ended. -/
structure StripeSub where
  id : String
  customerId : String

/-- Its row, or the row of its customer, was there before and is no longer. -/
def StripeSub.Disappears (sub : StripeSub) (t t' : Tables) : Prop :=
  (∃ s ∈ t.subscriptions.rows, s.stripeId = some sub.id ∧ s ∉ t'.subscriptions.rows) ∨
    ∃ c ∈ t.customers.rows, c.stripeId = sub.customerId ∧ c ∉ t'.customers.rows

/-- Its row, or the row of its customer, belongs to one of the users or orgs. -/
def StripeSub.BelongsTo (sub : StripeSub) (users orgs : List UUID) (t : Tables) : Prop :=
  (∃ s ∈ t.subscriptions.rows, s.stripeId = some sub.id ∧ ((∃ userId ∈ s.userId, userId ∈ users) ∨
    ∃ c ∈ t.customers.rows, s.stripeCustomerId = some c.id ∧ OwnedBy users orgs c)) ∨
    ∃ c ∈ t.customers.rows, c.stripeId = sub.customerId ∧ OwnedBy users orgs c

theorem GoneWith.disappears_iff {users orgs : List UUID} {sub : StripeSub}
    (h : GoneWith (OwnedBy users orgs) users t t') :
    sub.Disappears t t' ↔ sub.BelongsTo users orgs t := by
  refine or_congr ?_ ?_
  · refine exists_congr fun s => and_congr_right fun hs => and_congr_right fun _ => ?_
    rw [h.subscriptions]
    constructor
    · intro hgone
      by_contra hkept
      rw [not_or] at hkept
      refine hgone ⟨hs, fun k hk hmem => hkept.1 ⟨k, hk, hmem⟩, fun c hc hcustomer howned => ?_⟩
      exact hkept.2 ⟨c, hc, hcustomer, howned⟩
    · rintro (⟨k, hk, hmem⟩ | ⟨c, hc, hcustomer, howned⟩) ⟨_, husers, hcustomers⟩
      · exact husers k hk hmem
      · exact hcustomers c hc hcustomer howned
  · refine exists_congr fun c => and_congr_right fun hc => and_congr_right fun _ => ?_
    rw [h.customers, not_and, not_not]
    exact ⟨fun hgone => hgone hc, fun howned _ => howned⟩

theorem StripeSub.not_disappears_self (sub : StripeSub) (t : Tables) : ¬ sub.Disappears t t := by
  rintro (⟨s, hs, _, hgone⟩ | ⟨c, hc, _, hgone⟩)
  · exact hgone hs
  · exact hgone hc

/-- What has disappeared stays so. -/
theorem StripeSub.Disappears.mono {sub : StripeSub} (h : sub.Disappears t t')
    (hcustomers : ∀ c ∈ t''.customers.rows, c ∈ t'.customers.rows)
    (hsubs : ∀ s ∈ t''.subscriptions.rows, s ∈ t'.subscriptions.rows) : sub.Disappears t t'' := by
  rcases h with ⟨s, hs, hid, hgone⟩ | ⟨c, hc, hid, hgone⟩
  · exact Or.inl ⟨s, hs, hid, fun hmem => hgone (hsubs s hmem)⟩
  · exact Or.inr ⟨c, hc, hid, fun hmem => hgone (hcustomers c hmem)⟩

/-! ## Deletions -/

/-- The operations that delete users, orgs or customers. -/
inductive Erasure
  | removal (orgId userId memberUserId : UUID)
  | orgDeletion (userId orgId : UUID)
  | orgBatch (userId : UUID)
  | subscriptionEnded (orgId : UUID)
  | account (userId : UUID)

/-- What is left of a complete operation. -/
structure Outcome (σ : Type) where
  result : Py Unit
  world : World σ
  calls : List (StripeCall × World σ)

def Action.call? : Action → Option StripeCall
  | stripe call => some call
  | _ => none

def Outcome.ofSession (p : Session σ Unit) (w : World σ) : Outcome σ where
  result := (Fallible.exec p w).1
  world := (Fallible.exec p w).2
  calls := stripeCalls (Fallible.trace p w)

def Outcome.ofHandler (p : Handler σ Unit) (w : World σ) : Outcome σ where
  result := (Fallible.exec p w).1
  world := (Fallible.exec p w).2
  calls := (Fallible.trace p w).filterMap fun (action, t) => action.call?.map fun call => (call, t)

namespace Erasure

def outcome (rt : Runtime σ) (w : World σ) : Erasure → Outcome σ
  | removal orgId userId memberUserId =>
      .ofSession (Session.removeMember userId orgId memberUserId) w
  | orgDeletion userId orgId => .ofSession (Session.deleteOrgView rt userId orgId) w
  | orgBatch userId => .ofSession (Session.deleteOrgsCreatedByUser rt userId) w
  | subscriptionEnded orgId => .ofHandler (deleteOrgOnSubscriptionCancelTask orgId) w
  | account userId => .ofSession (Session.deleteAccount rt userId) w

/-- The users that go. -/
def users (t : Tables) : Erasure → List UUID
  | removal _ _ memberUserId => [memberUserId]
  | orgDeletion _ orgId | subscriptionEnded orgId => t.deletableUserIdsOf [orgId]
  | orgBatch userId => t.deletableUserIdsOf (t.createdBy userId)
  | account userId => userId :: t.deletableUserIdsOf (t.createdBy userId)

/-- The orgs that go. -/
def orgs (t : Tables) : Erasure → List UUID
  | removal _ _ _ => []
  | orgDeletion _ orgId | subscriptionEnded orgId => [orgId]
  | orgBatch userId | account userId => t.createdBy userId

/-- The subscription is one of those that the operation cancels, or its customer the one
that is deleted. -/
def Picks (db : Db) (sub : StripeSub) : Erasure → Prop
  | removal _ _ _ | subscriptionEnded _ => False
  | orgDeletion _ orgId => db.activeStripeSubId orgId = some sub.id
  | orgBatch userId => sub.id ∈ db.pendingStripeSubIds userId
  | account userId => sub.id ∈ db.pendingStripeSubIds userId ∨
      (∃ s ∈ db.activeForUser userId, s.stripeId = some sub.id) ∨
      ∃ c ∈ db.customerByUserId userId, c.stripeId = sub.customerId

/-- All that run and go are picked. -/
def Covers (erasure : Erasure) (live : List StripeSub) (db : Db) : Prop :=
  ∀ sub ∈ live, sub.BelongsTo (erasure.users db.toTables) (erasure.orgs db.toTables) db.toTables →
    erasure.Picks db sub

end Erasure

/-- The subscription has been cancelled, is queued for cancellation, or its customer has
been deleted. -/
def StripeSub.SeenTo (sub : StripeSub) (rt : Runtime σ) (w : World σ) (outcome : Outcome σ) : Prop :=
  (∃ t, (.subscriptionCancel sub.id, t) ∈ outcome.calls ∧ Settled rt (.subscriptionCancel sub.id) t) ∨
  (∃ task ∈ outcome.world.queue.drop w.queue.length, task.Cancels sub.id) ∨
  ∃ t, (.customerDelete sub.customerId, t) ∈ outcome.calls ∧
    Settled rt (.customerDelete sub.customerId) t

/-- Of the subscriptions that run, the operation sees to all that disappear. -/
def Erasure.NoOrphans (erasure : Erasure) (rt : Runtime σ) (live : List StripeSub) (w : World σ) :
    Prop :=
  ∀ sub ∈ live, sub.Disappears w.db.toTables (erasure.outcome rt w).world.db.toTables →
    sub.SeenTo rt w (erasure.outcome rt w)

/-! ## What each deletion does -/

theorem cancels_cancelTasks {origin : String} {stripeSubIds : List String} {stripeId : String} :
    (∃ task ∈ cancelTasks origin stripeSubIds, task.Cancels stripeId) ↔ stripeId ∈ stripeSubIds := by
  cases stripeSubIds with
  | nil => simp [cancelTasks]
  | cons first rest => simp [cancelTasks, Task.Cancels]

/-- What goes is what belongs to the users and orgs of the operation, all of it when it is
complete; and what goes is seen to just when it is picked. -/
structure Erasure.Described (erasure : Erasure) (rt : Runtime σ) (w : World σ) : Prop where
  belongs : ∀ sub : StripeSub,
    sub.Disappears w.db.toTables (erasure.outcome rt w).world.db.toTables →
    sub.BelongsTo (erasure.users w.db.toTables) (erasure.orgs w.db.toTables) w.db.toTables
  disappears : (erasure.outcome rt w).result = .ok () → ∀ sub : StripeSub,
    sub.BelongsTo (erasure.users w.db.toTables) (erasure.orgs w.db.toTables) w.db.toTables →
    sub.Disappears w.db.toTables (erasure.outcome rt w).world.db.toTables
  picked : rt.brokerUp = true ∨ (erasure.outcome rt w).result = .ok () → ∀ sub : StripeSub,
    sub.Disappears w.db.toTables (erasure.outcome rt w).world.db.toTables →
    erasure.Picks w.db sub → sub.SeenTo rt w (erasure.outcome rt w)
  seenTo : ∀ sub : StripeSub, sub.SeenTo rt w (erasure.outcome rt w) → erasure.Picks w.db sub

/-- An operation that calls nobody: it changes nothing, or deletes and queues what it
picks. -/
inductive Erasure.Quiet (erasure : Erasure) (rt : Runtime σ) (w : World σ) (picks : List String) :
    Py Unit → World σ → Prop
  | failed (e : PyError) : Quiet erasure rt w picks (.error e) w
  | idle (nothing : ∀ sub : StripeSub, ¬ sub.BelongsTo (erasure.users w.db.toTables)
      (erasure.orgs w.db.toTables) w.db.toTables) : Quiet erasure rt w picks (.ok ()) w
  | done (origin : String) (db : Db)
      (gone : GoneWith (OwnedBy (erasure.users w.db.toTables) (erasure.orgs w.db.toTables))
        (erasure.users w.db.toTables) w.db.toTables db.toTables) (result : Py Unit) :
      Quiet erasure rt w picks result
        { w with db := db, queue := w.queue ++ cancelTasks origin picks }
  | down (e : PyError) (db : Db) (broker : rt.brokerUp = false)
      (gone : GoneWith (OwnedBy (erasure.users w.db.toTables) (erasure.orgs w.db.toTables))
        (erasure.users w.db.toTables) w.db.toTables db.toTables) :
      Quiet erasure rt w picks (.error e) { w with db := db }

theorem Erasure.Quiet.described {erasure : Erasure} {rt : Runtime σ} {w : World σ}
    (picks : List String) (hcalls : (erasure.outcome rt w).calls = [])
    (hpicks : ∀ sub, erasure.Picks w.db sub ↔ sub.id ∈ picks)
    (h : erasure.Quiet rt w picks (erasure.outcome rt w).result (erasure.outcome rt w).world) :
    erasure.Described rt w := by
  have hseen : ∀ sub : StripeSub, sub.SeenTo rt w (erasure.outcome rt w) ↔
      ∃ task ∈ (erasure.outcome rt w).world.queue.drop w.queue.length, task.Cancels sub.id := by
    intro sub
    unfold StripeSub.SeenTo
    rw [hcalls]
    simp
  generalize houtcome : erasure.outcome rt w = outcome at hseen h
  obtain ⟨result, w', calls⟩ := outcome
  dsimp only at hseen h
  have hnotSeen : w'.queue = w.queue → ∀ sub : StripeSub, ¬ sub.SeenTo rt w ⟨result, w', calls⟩ := by
    intro hqueue sub hsub
    rw [hseen, hqueue, List.drop_length] at hsub
    obtain ⟨task, htask, _⟩ := hsub
    cases htask
  constructor <;> rw [houtcome]
  · intro sub hsub
    cases h with
    | failed e => exact absurd hsub (sub.not_disappears_self _)
    | idle _ => exact absurd hsub (sub.not_disappears_self _)
    | done origin db hgone result => exact hgone.disappears_iff.mp hsub
    | down e db _ hgone => exact hgone.disappears_iff.mp hsub
  · intro hdone sub hsub
    cases h with
    | failed e => cases hdone
    | idle hnothing => exact absurd hsub (hnothing sub)
    | done origin db hgone result => exact hgone.disappears_iff.mpr hsub
    | down e db _ hgone => cases hdone
  · intro hbroker sub hsub hpicked
    cases h with
    | failed e => exact absurd hsub (sub.not_disappears_self _)
    | idle _ => exact absurd hsub (sub.not_disappears_self _)
    | done origin db hgone result =>
        rw [hseen, List.drop_left, cancels_cancelTasks]
        exact (hpicks sub).mp hpicked
    | down e db hdown hgone =>
        rw [hdown] at hbroker
        exact absurd hbroker (by simp)
  · intro sub hsub
    cases h with
    | failed e => exact absurd hsub (hnotSeen rfl sub)
    | idle _ => exact absurd hsub (hnotSeen rfl sub)
    | done origin db hgone result =>
        rw [hseen, List.drop_left, cancels_cancelTasks] at hsub
        exact (hpicks sub).mpr hsub
    | down e db hdown hgone => exact absurd hsub (hnotSeen rfl sub)

section Described

variable {w : World σ} {rt : Runtime σ}

theorem silent_removeMember (userId orgId memberUserId : UUID) :
    (Session.removeMember userId orgId memberUserId : Session σ Unit).Silent := by
  have hparties : (Session.getParties userId orgId memberUserId adminOrAbove :
      Session σ (OrgMember × OrgMember)).Silent := by
    unfold Session.getParties
    refine Session.silent_bind (Session.silent_getOrgAndMember _ _ _) fun _ => ?_
    refine Session.silent_bind ?_ fun _ => Session.silent_pure _
    unfold Session.getMemberOr404
    refine Session.silent_bind (Session.silent_select _) fun found => ?_
    split
    · exact Session.silent_pure _
    · exact Session.silent_throw _
  have hdelete : ∀ target : OrgMember,
      (Session.deleteUser [.member target] target.userId : Session σ Unit).Silent := by
    intro target
    unfold Session.deleteUser
    refine Session.silent_bind (Session.silent_lock _ _) fun _ => ?_
    exact Session.silent_bind (Session.silent_lock _ _) fun _ => Session.silent_commitOn _ _
  unfold Session.removeMember
  refine Session.silent_bind hparties fun (caller, target) => ?_
  dsimp only
  split
  · exact Session.silent_throw _
  · exact Session.silent_bind (Session.silent_lift _) fun _ => hdelete target

theorem removal_described (orgId userId memberUserId : UUID) :
    (Erasure.removal orgId userId memberUserId).Described rt w := by
  refine Erasure.Quiet.described [] (silent_removeMember _ _ _ w) (fun sub => ?_) ?_
  · exact ⟨False.elim, List.not_mem_nil⟩
  · show Erasure.Quiet _ rt w [] (Fallible.exec (Session.removeMember userId orgId memberUserId) w).1
      (Fallible.exec (Session.removeMember userId orgId memberUserId) w).2
    rcases Session.ends_removeMember (w := w) orgId userId memberUserId with
      ⟨⟨e, herror⟩, hsame⟩ | ⟨db', hstep, hw'⟩
    · rw [herror, hsame]
      exact .failed e
    · cases hstep with
      | remove _ _ _ hdeleted =>
          have hgone := goneWith_deleteUsers (t := w.db.toTables) [memberUserId]
          rw [← hdeleted] at hgone
          rw [hw', show ({ w with db := db' } : World σ) =
            { w with db := db', queue := w.queue ++ cancelTasks "" [] } by
              rw [cancelTasks, List.append_nil]]
          refine .done "" db' ?_ _
          exact hgone

theorem orgDeletion_described (userId orgId : UUID) :
    (Erasure.orgDeletion userId orgId).Described rt w := by
  refine Erasure.Quiet.described (w.db.activeStripeSubId orgId).toList
    (Session.silent_deleteOrgView rt userId orgId w) (fun sub => ?_) ?_
  · rw [Option.mem_toList]
    exact Iff.rfl
  · show Erasure.Quiet _ rt w _ (Fallible.exec (Session.deleteOrgView rt userId orgId) w).1
      (Fallible.exec (Session.deleteOrgView rt userId orgId) w).2
    have hend := Session.ends_deleteOrgView (w := w) rt userId orgId
    unfold Fallible.Ends at hend
    generalize Fallible.exec (Session.deleteOrgView rt userId orgId) w = ended at hend
    obtain ⟨result, w'⟩ := ended
    rcases hend with ⟨⟨e, rfl⟩, rfl⟩ | ⟨_, hdeleted⟩
    · exact .failed e
    · have hgone := goneWith_deleteOrgBatch (t := w.db.toTables) [orgId]
      rw [← hdeleted.deleted] at hgone
      obtain ⟨db, stripe, queue⟩ := w'
      obtain rfl : stripe = w.stripe := hdeleted.stripe
      rcases hdeleted.queued with ⟨rfl, rfl⟩ | ⟨hdown, ⟨e, rfl⟩, rfl⟩
      · refine .done _ db ?_ _
        exact hgone
      · refine .down e db hdown ?_
        exact hgone

theorem orgBatch_described (userId : UUID) : (Erasure.orgBatch userId).Described rt w := by
  refine Erasure.Quiet.described (w.db.pendingStripeSubIds userId)
    (Session.silent_deleteOrgsCreatedByUser userId w) (fun sub => Iff.rfl) ?_
  have hends : (Session.deleteOrgsCreatedByUser rt userId).Ends
      (Erasure.Quiet (.orgBatch userId) rt w (w.db.pendingStripeSubIds userId)) w := by
    refine Session.ends_deleteOrgsCreatedByUser (fun db hdb => ?_) fun hdown e db hdb => ?_
    all_goals
      have hgone := goneWith_deleteOrgsCreatedBy (t := w.db.toTables) userId
      rw [← hdb] at hgone
    · refine .done _ db ?_ _
      exact hgone
    · refine .down e db hdown ?_
      exact hgone
  exact hends

/-- An org that is not stored has no customers and no members. -/
theorem not_belongsTo_of_missing {orgId : UUID} (hmissing : w.db.orgById orgId = none)
    (sub : StripeSub) :
    ¬ sub.BelongsTo (w.db.deletableUserIdsOf [orgId]) [orgId] w.db.toTables := by
  have horg : ∀ o ∈ w.db.orgs.rows, o.id ≠ orgId := by
    intro o ho hid
    rw [Db.orgById_eq_some.mpr ⟨ho, hid⟩] at hmissing
    cases hmissing
  have hnobody : ∀ k, k ∉ w.db.deletableUserIdsOf [orgId] := by
    intro k hk
    obtain ⟨m, hm, hid, _⟩ := (Tables.mem_deletableUserIdsOf.mp hk).1
    obtain ⟨o, ho, hsame⟩ := refers_some.mp (w.db.integral.members m hm).1
    exact horg o ho (hsame.trans (List.mem_singleton.mp hid))
  have hnone : ∀ c ∈ w.db.customers.rows,
      ¬ OwnedBy (w.db.deletableUserIdsOf [orgId]) [orgId] c := by
    rintro c hc (⟨k, _, hk⟩ | ⟨id, hid, hmem⟩)
    · exact hnobody k hk
    · obtain ⟨o, ho, hsame⟩ := (w.db.integral.customers c hc).2 id hid
      exact horg o ho (hsame.trans (List.mem_singleton.mp hmem))
  rintro (⟨s, hs, _, ⟨k, _, hk⟩ | ⟨c, hc, _, howned⟩⟩ | ⟨c, hc, _, howned⟩)
  · exact hnobody k hk
  · exact hnone c hc howned
  · exact hnone c hc howned

theorem calls_deleteOrgOnSubscriptionCancelTask (orgId : UUID) :
    (Outcome.ofHandler (deleteOrgOnSubscriptionCancelTask orgId) w).calls = [] := by
  have hlogs : (deleteOrgOnSubscriptionCancelTask orgId).Logs (fun log _ _ =>
      log.filterMap (fun (action, t) => action.call?.map fun call => (call, t)) = []) w := by
    unfold deleteOrgOnSubscriptionCancelTask Handler.query Handler.transaction
    rw [Fallible.logs_bind, Fallible.logs_observe, Fallible.followLog_ok]
    dsimp only
    cases w.db.orgById orgId with
    | none => rfl
    | some org => rfl
  exact hlogs

theorem subscriptionEnded_described (orgId : UUID) :
    (Erasure.subscriptionEnded orgId).Described rt w := by
  refine Erasure.Quiet.described [] (calls_deleteOrgOnSubscriptionCancelTask orgId)
    (fun sub => ⟨False.elim, List.not_mem_nil⟩) ?_
  show Erasure.Quiet _ rt w [] (Fallible.exec (deleteOrgOnSubscriptionCancelTask orgId) w).1
    (Fallible.exec (deleteOrgOnSubscriptionCancelTask orgId) w).2
  have hend := ends_deleteOrgOnSubscriptionCancelTask (w := w) orgId
  unfold Fallible.Ends at hend
  generalize Fallible.exec (deleteOrgOnSubscriptionCancelTask orgId) w = ended at hend
  obtain ⟨result, w'⟩ := ended
  rcases hend with ⟨rfl, hwhy⟩ | ⟨rfl, db, hdb, rfl⟩
  · cases result with
    | error e => exact .failed e
    | ok _ =>
        rcases hwhy with hmissing | ⟨e, herror⟩
        · exact .idle (not_belongsTo_of_missing hmissing)
        · cases herror
  · have hgone := goneWith_deleteOrgBatch (t := w.db.toTables) [orgId]
    rw [← hdb] at hgone
    rw [show ({ w with db := db } : World σ) =
      { w with db := db, queue := w.queue ++ cancelTasks "" [] } by
        rw [cancelTasks, List.append_nil]]
    refine .done "" db ?_ _
    exact hgone

/-- A subscription of the user's customer is nothing that an org's deletion cancels. -/
theorem not_pending_of_own {userId : UUID} {c : StripeCustomer} (hc : c ∈ w.db.customers.rows)
    (huser : c.userId = some userId) {s : Subscription} (hs : s ∈ w.db.subscriptions.rows)
    (hcustomer : s.stripeCustomerId = some c.id) {stripeId : String}
    (hstripe : s.stripeId = some stripeId) : stripeId ∉ w.db.pendingStripeSubIds userId := by
  intro hpending
  obtain ⟨orgId, _, hactive⟩ := List.mem_filterMap.mp hpending
  obtain ⟨s', hs', hstripe'⟩ := Option.bind_eq_some_iff.mp hactive
  obtain ⟨hmem, hteam⟩ := List.mem_filter.mp (List.mem_filter.mp (Db.mem_of_latest? hs')).1
  simp only [Bool.and_eq_true, List.any_eq_true, beq_iff_eq] at hteam
  obtain ⟨_, c', hc', hcustomer', horg'⟩ := hteam
  rw [Subscription.eq_of_stripeId hmem hs hstripe' hstripe, hcustomer] at hcustomer'
  have hsame : c = c' := w.db.customers.eq_of_clash hc hc' (Or.inl (Option.some.inj hcustomer'))
  rw [hsame, StripeCustomer.userId_eq_none hc' horg'] at huser
  cases huser

/-- What the first stage takes is the user's customer, which has been deleted at Stripe, and
its subscriptions. -/
theorem picks_of_first_stage {userId : UUID} {sub : StripeSub}
    (hgone : sub.Disappears w.db.toTables (w.db.toTables.deleteCustomerOf userId))
    (hpicked : (Erasure.account userId).Picks w.db sub) :
    (∃ s ∈ w.db.activeForUser userId, s.stripeId = some sub.id) ∨
      ∃ c ∈ w.db.customerByUserId userId, c.stripeId = sub.customerId := by
  have hstage := goneWith_deleteCustomerOf (t := w.db.toTables) userId
  have howns : ∀ c, OwnedBy [userId] [] c → c.userId = some userId := by
    rintro c (⟨k, hk, hmem⟩ | ⟨_, _, hmem⟩)
    · rw [← List.mem_singleton.mp hmem]
      exact hk
    · cases hmem
  rcases hgone with ⟨s, hs, hid, hgone⟩ | ⟨c, hc, hid, hgone⟩
  · rcases hpicked with hpending | hpicked
    · -- the row is linked to the user's customer, not to an org's
      exfalso
      refine hgone ((hstage.subscriptions s).mpr ⟨hs, fun _ _ => List.not_mem_nil, ?_⟩)
      intro c hc hcustomer howned
      exact not_pending_of_own hc (howns c howned) hs hcustomer hid hpending
    · exact hpicked
  · right
    have howned : OwnedBy [userId] [] c := by
      by_contra hother
      exact hgone ((hstage.customers c).mpr ⟨hc, hother⟩)
    exact ⟨c, Db.customerByUserId_eq_some.mpr ⟨hc, howns c howned⟩, hid⟩

theorem account_described (userId : UUID) : (Erasure.account userId).Described rt w := by
  have hall := goneWith_erased (t := w.db.toTables) userId
  obtain ⟨hown, hend⟩ := Session.calls_deleteAccount (w := w) rt userId
  change OwnCalls userId w.db ((Erasure.account userId).outcome rt w).calls at hown
  change ((∃ e, ((Erasure.account userId).outcome rt w).result = .error e) ∧
      ((Erasure.account userId).outcome rt w).world.db = w.db ∧
      ((Erasure.account userId).outcome rt w).world.queue = w.queue) ∨
    AccountErased rt userId w ((Erasure.account userId).outcome rt w).calls
      ((Erasure.account userId).outcome rt w).result
      ((Erasure.account userId).outcome rt w).world at hend
  generalize houtcome : (Erasure.account userId).outcome rt w = outcome at hown hend
  -- whatever is called or queued is about what the deletion picks
  have hqueued : ∀ sub : StripeSub, (∃ task ∈ accountTasks userId w.db, task.Cancels sub.id) →
      (Erasure.account userId).Picks w.db sub :=
    fun sub hsub => Or.inl (cancels_cancelTasks.mp hsub)
  have hseen : (outcome.world.queue = w.queue ∨
      outcome.world.queue = w.queue ++ accountTasks userId w.db) →
      ∀ sub : StripeSub, sub.SeenTo rt w outcome → (Erasure.account userId).Picks w.db sub := by
    rintro hqueue sub (⟨t, hcall, _⟩ | htask | ⟨t, hcall, _⟩)
    · rcases hown _ hcall with ⟨s, hs, stripeId, hstripe, hcancels⟩ | ⟨c, _, hdeletes⟩
      · refine Or.inr (Or.inl ⟨s, hs, ?_⟩)
        rw [StripeCall.subscriptionCancel.inj hcancels]
        exact hstripe
      · cases hdeletes
    · refine hqueued sub ?_
      rcases hqueue with hqueue | hqueue
      · rw [hqueue, List.drop_length] at htask
        obtain ⟨task, htask, _⟩ := htask
        cases htask
      · rwa [hqueue, List.drop_left] at htask
    · rcases hown _ hcall with ⟨s, _, stripeId, _, hcancels⟩ | ⟨c, hc, hdeletes⟩
      · cases hcancels
      · exact Or.inr (Or.inr ⟨c, hc, (StripeCall.customerDelete.inj hdeletes).symm⟩)
  rcases hend with ⟨⟨e, herror⟩, hdb, hqueue⟩ | herased
  · constructor <;> rw [houtcome]
    · rw [hdb]
      exact fun sub hsub => absurd hsub (sub.not_disappears_self _)
    · rw [herror]
      exact nofun
    · rw [hdb]
      exact fun _ sub hsub => absurd hsub (sub.not_disappears_self _)
    · exact hseen (Or.inl hqueue)
  · obtain ⟨stage, _, hdb, hqueue⟩ := herased.stage
    have hbelongs : ∀ sub : StripeSub, sub.Disappears w.db.toTables outcome.world.db.toTables →
        sub.Disappears w.db.toTables (w.db.toTables.erased userId 4) := by
      intro sub hsub
      rw [hdb] at hsub
      exact hsub.mono (erased_subset userId stage).1 (erased_subset userId stage).2
    have howned : ∀ sub : StripeSub, ((∃ s ∈ w.db.activeForUser userId, s.stripeId = some sub.id) ∨
        ∃ c ∈ w.db.customerByUserId userId, c.stripeId = sub.customerId) →
        sub.SeenTo rt w outcome := by
      rintro sub (⟨s, hs, hid⟩ | ⟨c, hc, hid⟩)
      · exact Or.inl (herased.cancelled s hs sub.id hid)
      · rw [StripeSub.SeenTo, ← hid]
        exact Or.inr (Or.inr (herased.erased c hc))
    constructor <;> rw [houtcome]
    · exact fun sub hsub => hall.disappears_iff.mp (hbelongs sub hsub)
    · intro hdone sub hsub
      rcases hqueue with ⟨_, hcomplete⟩ | ⟨_, ⟨e, herror⟩, _⟩
      · rw [hdb, hcomplete hdone]
        exact hall.disappears_iff.mpr hsub
      · rw [herror] at hdone
        cases hdone
    · intro hbroker sub hsub hpicked
      rcases hqueue with ⟨hqueue, _⟩ | ⟨_, ⟨e, herror⟩, hearly⟩
      · rcases hpicked with hpending | hpicked
        · refine Or.inr (Or.inl ?_)
          rw [hqueue, List.drop_left]
          exact cancels_cancelTasks.mpr hpending
        · exact howned sub hpicked
      · -- nothing is queued: the deletion has come no further than to the customer
        have hstage : stage = 0 ∨ stage = 1 := by
          rcases hearly with hearly | hdown
          · omega
          · rw [hdown, herror] at hbroker
            exact absurd hbroker (by simp)
        rw [hdb] at hsub
        rcases hstage with rfl | rfl
        · exact absurd hsub (sub.not_disappears_self _)
        · exact howned sub (picks_of_first_stage hsub hpicked)
    · refine hseen ?_
      rcases hqueue with ⟨hqueue, _⟩ | ⟨hqueue, _⟩
      · exact Or.inr hqueue
      · exact Or.inl hqueue

theorem Erasure.described (erasure : Erasure) : erasure.Described rt w := by
  cases erasure with
  | removal orgId userId memberUserId => exact removal_described orgId userId memberUserId
  | orgDeletion userId orgId => exact orgDeletion_described userId orgId
  | orgBatch userId => exact orgBatch_described userId
  | subscriptionEnded orgId => exact subscriptionEnded_described orgId
  | account userId => exact account_described userId

end Described

/-! ## No orphans -/

/-- **Deletions and running subscriptions.**  In every state that a run reaches, whatever
runs at Stripe:

* if the deletion picks all that run and go, and the broker takes its task, no
  subscription is orphaned, however far the deletion comes;
* a complete deletion orphans none if and only if it picks all of them. -/
theorem no_orphans (w : World σ) (operations : List (OrgOperation σ)) (rt : Runtime σ)
    (erasure : Erasure) (live : List StripeSub) :
    let reached := Runs.run OrgOperation.after w operations
    (rt.brokerUp = true → erasure.Covers live reached.db → erasure.NoOrphans rt live reached) ∧
      ((erasure.outcome rt reached).result = .ok () →
        (erasure.NoOrphans rt live reached ↔ erasure.Covers live reached.db)) := by
  intro reached
  have hdescribed : erasure.Described rt reached := erasure.described
  have henough : rt.brokerUp = true ∨ (erasure.outcome rt reached).result = .ok () →
      erasure.Covers live reached.db → erasure.NoOrphans rt live reached := by
    intro hbroker hcovers sub hsub hgone
    exact hdescribed.picked hbroker sub hgone (hcovers sub hsub (hdescribed.belongs sub hgone))
  refine ⟨fun hbroker => henough (Or.inl hbroker),
    fun hdone => ⟨fun hnone sub hsub hbelongs => ?_, henough (Or.inr hdone)⟩⟩
  exact hdescribed.seenTo sub (hnone sub hsub (hdescribed.disappears hdone sub hbelongs))

/-- The buyer has passed the org on and still pays for a plan of their own. -/
def payingMember : List (OrgOperation Unit) :=
  passedOn ++ [.mirror (sampleRuntime noStripe 3 0)
    (.sync (subscriptionObject "sub_1" "cus_1" "price_basic" .active 1 100))]

/-- The new owner removes the buyer, whose subscription runs on. -/
theorem not_no_orphans :
    let reached := Runs.run OrgOperation.after sampleWorld payingMember
    let rt : Runtime Unit := sampleRuntime noStripe 4 0
    let removal := Erasure.removal 1001#128 adminId buyer.id
    (removal.outcome rt reached).result = .ok () ∧
      ¬ removal.NoOrphans rt [⟨"sub_1", "cus_1"⟩] reached := by
  intro reached rt removal
  have hcalls : (removal.outcome rt reached).calls = [] := silent_removeMember _ _ _ reached
  have hqueue : (removal.outcome rt reached).world.queue = [] := by decide +kernel
  have hgone : (⟨"sub_1", "cus_1"⟩ : StripeSub).Disappears reached.db.toTables
      (removal.outcome rt reached).world.db.toTables := by
    unfold StripeSub.Disappears
    decide +kernel
  refine ⟨by decide +kernel, fun hnone => ?_⟩
  have hseen := hnone _ (List.mem_singleton_self _) hgone
  unfold StripeSub.SeenTo at hseen
  rw [hcalls, hqueue] at hseen
  simp at hseen

end Saasmint
