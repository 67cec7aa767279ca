import Saasmint.Billing.CheckoutViews
import Saasmint.Orgs.Accounts

/-!
# The active subscription of an org

Four queries look for it: the one that is locked for the seat limit, the one that
is cancelled when the org is deleted, the one of the customer, and the one that is
shown to a member.  Three of them order the active rows by their creation time.
The lock takes the first row without an order, which Django turns into an order by
primary key, and the deletion skips rows without a Stripe id.

`resolvers_agree_iff` says for which subscription tables that makes no difference.
-/

namespace Saasmint

open Atomic Relational

variable {σ : Type}

namespace Db

/-- No row has a lower key than the first. -/
theorem key_le_of_first? {α : Type} {key : α → UUID} {rows : List α} {a : α}
    (h : first? key rows = some a) : ∀ b ∈ rows, key a ≤ key b := by
  rw [first?_eq_pick?] at h
  intro b hb
  have hnot := not_ahead_of_pick? (by grind) (by grind) h b hb
  simpa using hnot

/-- No row is later than the latest. -/
theorem createdAt_le_of_latest? {rows : List Subscription} {s : Subscription}
    (h : latest? rows = some s) : ∀ t ∈ rows, t.createdAt ≤ s.createdAt := by
  rw [latest?_eq_pick?] at h
  intro t ht
  have hnot := not_ahead_of_pick? (by grind) (by grind) h t ht
  simpa using hnot

/-! ## What a member is shown -/

/-- The team part of `_get_active_subscriptions_for_user`. -/
def teamSubscription (db : Db) (userId : UUID) : Option Subscription :=
  (db.firstMembership userId).bind fun membership => latest? (db.activeTeamSubs membership.orgId)

/-- `_get_active_subscriptions_for_user`. -/
def activeSubscriptionsForUser (db : Db) (userId : UUID) : List Subscription :=
  let teamSub := db.teamSubscription userId
  let latestPersonal := latest? (db.subscriptions.filter fun s => s.status.isActive &&
    (s.userId == some userId || db.customers.rows.any fun c =>
      s.stripeCustomerId == some c.id && c.userId == some userId))
  let seen := teamSub.toList
  seen ++ (latestPersonal.filter fun s => seen.all fun t => t.id != s.id).toList

/-! ## Agreement -/

/-- The newest active row of the customer, if it has one. -/
def IsNewestActive (db : Db) (customerId : UUID) : Option Subscription → Prop
  | none => db.activeForCustomer customerId = []
  | some s => s ∈ db.activeForCustomer customerId ∧
      ∀ t ∈ db.activeForCustomer customerId, t.createdAt ≤ s.createdAt

section Resolvers

variable {db : Db} {orgId : UUID} {customer : StripeCustomer}

/-- The active rows of an org are those of its customer. -/
theorem activeTeamSubs_eq (hcustomer : customer ∈ db.customers.rows)
    (horg : customer.orgId = some orgId) :
    db.activeTeamSubs orgId = db.activeForCustomer customer.id := by
  refine List.filter_congr fun s _ => ?_
  have hone : ∀ c ∈ db.customers.rows, c.orgId = some orgId → c = customer := by
    intro c hc horg'
    have hsame : sameValue c.orgId customer.orgId := ⟨by rw [horg']; rfl, horg'.trans horg.symm⟩
    exact db.customers.eq_of_clash hc hcustomer (Or.inr (Or.inr (Or.inr hsame)))
  rw [Bool.eq_iff_iff, Bool.and_eq_true, Bool.and_eq_true, and_comm]
  refine and_congr ?_ Iff.rfl
  rw [List.any_eq_true]
  constructor
  · rintro ⟨c, hc, hselected⟩
    simp only [Bool.and_eq_true, beq_iff_eq] at hselected
    rw [hone c hc hselected.2] at hselected
    exact beq_iff_eq.mpr hselected.1
  · intro hs
    exact ⟨customer, hcustomer, by simp [beq_iff_eq.mp hs, horg]⟩

/-- Of rows created at different times, one is the newest. -/
theorem isNewestActive_iff (hdistinct : ∀ s ∈ db.subscriptions.rows,
    ∀ t ∈ db.subscriptions.rows, s.createdAt = t.createdAt → s = t) {customerId : UUID}
    {found : Option Subscription} :
    db.IsNewestActive customerId found ↔ db.latestActive customerId = found := by
  unfold latestActive
  cases found with
  | none => exact latest?_eq_none.symm
  | some s =>
      constructor
      · rintro ⟨hs, hnewest⟩
        cases hlatest : latest? (db.activeForCustomer customerId) with
        | none =>
            rw [latest?_eq_none.mp hlatest] at hs
            cases hs
        | some t =>
            have ht := mem_of_latest? hlatest
            have htime : t.createdAt = s.createdAt :=
              le_antisymm (hnewest t ht) (createdAt_le_of_latest? hlatest s hs)
            rw [hdistinct t (mem_activeForCustomer.mp ht).1 s (mem_activeForCustomer.mp hs).1 htime]
      · exact fun hlatest => ⟨mem_of_latest? hlatest, createdAt_le_of_latest? hlatest⟩

end Resolvers

end Db

theorem Session.exec_lockActiveTeamSub (orgId : UUID) (w : World σ) :
    Fallible.exec (Session.lockActiveTeamSub orgId) w = (.ok (w.db.activeTeamSub orgId), w) := rfl

/-- Every resolver of the org's active subscription finds the newest one. -/
def ResolversAgree (w : World σ) (orgId customerId : UUID) : Prop :=
  ∃ newest, w.db.IsNewestActive customerId newest ∧
    Fallible.exec (Session.lockActiveTeamSub orgId) w = (.ok newest, w) ∧
    w.db.getActiveStripeSub orgId = newest ∧
    Fallible.exec (Handler.getActiveForCustomer customerId) w = (.ok newest, w) ∧
    ∀ userId membership, w.db.firstMembership userId = some membership →
      membership.orgId = orgId → w.db.teamSubscription userId = newest

/-- The resolvers agree exactly if the newest active row, when there is one, has a
Stripe id and the lowest primary key of the active rows. -/
theorem resolvers_agree_iff {w : World σ} {orgId : UUID} {customer : StripeCustomer}
    (hdistinct : ∀ s ∈ w.db.subscriptions.rows, ∀ t ∈ w.db.subscriptions.rows,
      s.createdAt = t.createdAt → s = t)
    (hcustomer : customer ∈ w.db.customers.rows) (horg : customer.orgId = some orgId) :
    ResolversAgree w orgId customer.id ↔
      ∀ s ∈ w.db.activeForCustomer customer.id,
        (∀ t ∈ w.db.activeForCustomer customer.id, t.createdAt ≤ s.createdAt) →
        s.stripeId.isSome ∧ ∀ t ∈ w.db.activeForCustomer customer.id, s.id ≤ t.id := by
  have hactive := Db.activeTeamSubs_eq hcustomer horg
  constructor
  · rintro ⟨newest, hnewest, hlock, hdeleted, -⟩ s hs hlatest
    have hfound : w.db.latestActive customer.id = some s :=
      (Db.isNewestActive_iff hdistinct).mp ⟨hs, hlatest⟩
    obtain rfl : newest = some s := ((Db.isNewestActive_iff hdistinct).mp hnewest).symm.trans hfound
    rw [Session.exec_lockActiveTeamSub] at hlock
    have hfirst : Db.first? Subscription.id (w.db.activeTeamSubs orgId) = some s :=
      Except.ok.inj (Prod.ext_iff.mp hlock).1
    have hstripe := (List.mem_filter.mp (Db.mem_of_latest? hdeleted)).2
    exact ⟨hstripe, hactive ▸ Db.key_le_of_first? hfirst⟩
  · intro hcondition
    refine ⟨w.db.latestActive customer.id, (Db.isNewestActive_iff hdistinct).mpr rfl, ?_, ?_,
      Handler.exec_getActiveForCustomer w customer.id, ?_⟩
    · rw [Session.exec_lockActiveTeamSub, Db.activeTeamSub, hactive]
      congr 2
      cases hlatest : w.db.latestActive customer.id with
      | none => rw [Db.latest?_eq_none.mp hlatest, Db.first?]
      | some s =>
          have hs := Db.mem_of_latestActive hlatest
          obtain ⟨-, hlowest⟩ := hcondition s hs (Db.createdAt_le_of_latest? hlatest)
          cases hfirst : Db.first? Subscription.id (w.db.activeForCustomer customer.id) with
          | none =>
              rw [Db.first?_eq_none.mp hfirst] at hs
              cases hs
          | some a =>
              have ha := Db.mem_of_first? hfirst
              have hid : a.id = s.id :=
                BitVec.le_antisymm (Db.key_le_of_first? hfirst s hs) (hlowest a ha)
              have hsame : a = s := w.db.subscriptions.eq_of_clash
                (Db.mem_activeForCustomer.mp ha).1 (Db.mem_activeForCustomer.mp hs).1 (Or.inl hid)
              rw [hsame]
    · rw [Db.getActiveStripeSub, hactive]
      cases hlatest : w.db.latestActive customer.id with
      | none => rw [Db.latest?_eq_none.mp hlatest, List.filter_nil, Db.latest?]
      | some s =>
          have hs := Db.mem_of_latestActive hlatest
          obtain ⟨hstripe, -⟩ := hcondition s hs (Db.createdAt_le_of_latest? hlatest)
          have hkept : s ∈ (w.db.activeForCustomer customer.id).filter fun s => s.stripeId.isSome :=
            List.mem_filter.mpr ⟨hs, hstripe⟩
          cases hfound : Db.latest? ((w.db.activeForCustomer customer.id).filter fun s =>
              s.stripeId.isSome) with
          | none =>
              rw [Db.latest?_eq_none.mp hfound] at hkept
              cases hkept
          | some t =>
              have ht := (List.mem_filter.mp (Db.mem_of_latest? hfound)).1
              have htime : t.createdAt = s.createdAt := le_antisymm
                (Db.createdAt_le_of_latest? hlatest t ht) (Db.createdAt_le_of_latest? hfound s hkept)
              rw [hdistinct t (Db.mem_activeForCustomer.mp ht).1 s
                (Db.mem_activeForCustomer.mp hs).1 htime]
    · intro userId membership hfirst hmember
      rw [Db.teamSubscription, hfirst, Option.bind_some, hmember, hactive]
      rfl

/-! ## Two subscriptions of one team -/

/-- An active subscription of the team's customer. -/
def teamRow (id : UUID) (stripeId : String) (createdAt : Datetime) : Subscription :=
  { buyerSubscription with
    id := id, stripeId := some stripeId, stripeCustomerId := some 31#128, userId := none
    planId := teamPlan.id, createdAt := createdAt }

/-- An org of the buyer, whose customer has these subscriptions. -/
def teamTables (rows : Table Subscription) : Tables :=
  { sampleDb.toTables with
    orgs := ⟨[⟨50#128, "Acme", "acme", some buyer.id, 0⟩], by decide⟩
    members := ⟨[⟨60#128, 50#128, buyer.id, .owner, true, 0⟩], by decide⟩
    customers := ⟨[⟨31#128, "cus_2", none, some 50#128, false, 0⟩], by decide⟩
    subscriptions := rows }

/-- The newer subscription has the lower primary key. -/
def orderedWorld : World Unit where
  db := ⟨teamTables ⟨[teamRow 41#128 "sub_1" 1, teamRow 40#128 "sub_2" 2], by decide⟩,
    by decide +kernel⟩
  stripe := ()
  queue := []

/-- The older subscription has the lower primary key. -/
def crossedWorld : World Unit where
  db := ⟨teamTables ⟨[teamRow 40#128 "sub_1" 1, teamRow 41#128 "sub_2" 2], by decide⟩,
    by decide +kernel⟩
  stripe := ()
  queue := []

theorem resolvers_agree_ordered : ResolversAgree orderedWorld 50#128 31#128 := by
  have hdistinct : ∀ s ∈ orderedWorld.db.subscriptions.rows,
      ∀ t ∈ orderedWorld.db.subscriptions.rows, s.createdAt = t.createdAt → s = t := by
    decide +kernel
  have hcustomer : (⟨31#128, "cus_2", none, some 50#128, false, 0⟩ : StripeCustomer) ∈
      orderedWorld.db.customers.rows := by decide +kernel
  exact (resolvers_agree_iff hdistinct hcustomer rfl).mpr (by decide +kernel)

/-- The lock takes the older subscription, the others the newer one. -/
theorem not_resolvers_agree : ¬ ∀ (w : World Unit) (orgId : UUID) (customer : StripeCustomer),
    (∀ s ∈ w.db.subscriptions.rows, ∀ t ∈ w.db.subscriptions.rows,
      s.createdAt = t.createdAt → s = t) →
    customer ∈ w.db.customers.rows → customer.orgId = some orgId →
      ResolversAgree w orgId customer.id := by
  intro h
  have hdistinct : ∀ s ∈ crossedWorld.db.subscriptions.rows,
      ∀ t ∈ crossedWorld.db.subscriptions.rows, s.createdAt = t.createdAt → s = t := by
    decide +kernel
  have hcustomer : (⟨31#128, "cus_2", none, some 50#128, false, 0⟩ : StripeCustomer) ∈
      crossedWorld.db.customers.rows := by decide +kernel
  obtain ⟨newest, -, hlock, hdeleted, -⟩ := h crossedWorld 50#128 _ hdistinct hcustomer rfl
  have hfirst : crossedWorld.db.activeTeamSub 50#128 = newest :=
    Except.ok.inj (Prod.ext_iff.mp hlock).1
  have hdiffer : crossedWorld.db.activeTeamSub 50#128 ≠
      crossedWorld.db.getActiveStripeSub 50#128 := by decide +kernel
  exact hdiffer (hfirst.trans hdeleted.symm)

end Saasmint
