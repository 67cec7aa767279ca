import Saasmint.Billing.Resolvers
import Saasmint.Billing.PlanChanges

/-!
# Contexts and authority

A request about a team's billing is for one of the user's orgs.  Which one is decided by
a query for a membership: any of them where the context is left out or credits are
bought, one with billing authority where the team is asked for.  "Any" is the one with
the lowest key, whatever its role and its flag.

`ActsForTeam` is what the user may expect of these queries.  It holds exactly for those
whose first membership carries what any of their memberships does.
-/

namespace Saasmint

open Atomic Relational Handler

variable {σ : Type}

/-! ## What a request is for -/

/-- A subscription mutation in this context passes the authority check, for an org. -/
def MutatesFor (w : World σ) (userId : UUID) (context : Option String) (orgId : UUID) : Prop :=
  (Fallible.exec (Session.resolveMutationContext userId context) w).1 = .ok (some orgId)

/-- A credit purchase in this context passes, and is for an org. -/
def BuysFor (db : Db) (userId : UUID) (context : Option PlanContext) (orgId : UUID) : Prop :=
  resolveProductPurchaseContext (db.firstMembership userId) context = .ok (some orgId)

/-- What a user with several memberships may expect. -/
structure ActsForTeam (w : World σ) (userId : UUID) : Prop where
  /-- Billing authority in some org is enough, whether or not the context is given. -/
  passes : ∀ context ∈ [none, some "team"], (∃ orgId, MutatesFor w userId context orgId) ↔
    ∃ m ∈ w.db.members.rows, m.userId = userId ∧ m.isBilling = true
  /-- The org is one in which the user has the authority, -/
  authorized : ∀ context orgId, MutatesFor w userId context orgId →
    ∃ m ∈ w.db.members.rows, m.userId = userId ∧ m.orgId = orgId ∧ m.isBilling = true
  /-- and the customer is that of the org. -/
  customer : ∀ context orgId customer sub stripeId w', MutatesFor w userId context orgId →
    Fallible.exec (Session.getCustomerAndPaidSubscription userId (some orgId)) w =
      (.ok (customer, sub, stripeId), w') → customer.orgId = some orgId
  same : ∀ orgId orgId', MutatesFor w userId none orgId →
    MutatesFor w userId (some "team") orgId' → orgId = orgId'
  /-- Owning some org is enough for buying credits, -/
  buys : ∀ context ∈ [none, some PlanContext.team], (∃ orgId, BuysFor w.db userId context orgId) ↔
    ∃ m ∈ w.db.members.rows, m.userId = userId ∧ m.role = .owner
  /-- which go to that org. -/
  credits : ∀ context orgId, BuysFor w.db userId context orgId →
    ∃ m ∈ w.db.members.rows, m.userId = userId ∧ m.orgId = orgId ∧ m.role = .owner

/-- The first membership has the flag and the role that any membership of the user has. -/
def FirstCarriesAll (db : Db) (userId : UUID) : Prop :=
  ∀ first, db.firstMembership userId = some first → ∀ m ∈ db.members.rows, m.userId = userId →
    (m.isBilling = true → first.isBilling = true) ∧ (m.role = .owner → first.role = .owner)

/-- The customer of an org, or the user's own. -/
def Db.billingCustomer (db : Db) (userId : UUID) : Option UUID → Option StripeCustomer
  | some orgId => db.customerByOrgId orgId
  | none => db.customerByUserId userId

/-! ## The memberships that are found -/

section Found

variable {db : Db} {userId : UUID} {m first : OrgMember}

theorem mem_of_firstMembership (h : db.firstMembership userId = some first) :
    first ∈ db.members.rows ∧ first.userId = userId := by
  obtain ⟨hmem, huser⟩ := List.mem_filter.mp (Db.mem_of_first? h)
  exact ⟨hmem, beq_iff_eq.mp huser⟩

theorem exists_firstMembership (hm : m ∈ db.members.rows) (huser : m.userId = userId) :
    ∃ first, db.firstMembership userId = some first := by
  cases hfirst : db.firstMembership userId with
  | none =>
      have hempty := Db.first?_eq_none.mp hfirst
      have hmem : m ∈ db.members.filter fun m => m.userId == userId :=
        List.mem_filter.mpr ⟨hm, beq_iff_eq.mpr huser⟩
      rw [hempty] at hmem
      cases hmem
  | some first => exact ⟨first, rfl⟩

theorem mem_of_billingMembership (h : db.billingMembership userId = some m) :
    m ∈ db.members.rows ∧ m.userId = userId ∧ m.isBilling = true := by
  obtain ⟨hmem, hselected⟩ := List.mem_filter.mp (Db.mem_of_first? h)
  rw [Bool.and_eq_true, beq_iff_eq] at hselected
  exact ⟨hmem, hselected⟩

theorem exists_billingMembership (hm : m ∈ db.members.rows) (huser : m.userId = userId)
    (hbilling : m.isBilling = true) : ∃ found, db.billingMembership userId = some found := by
  cases hfound : db.billingMembership userId with
  | none =>
      have hempty := Db.first?_eq_none.mp hfound
      have hmem : m ∈ db.members.filter fun m => m.userId == userId && m.isBilling :=
        List.mem_filter.mpr ⟨hm, by simp [huser, hbilling]⟩
      rw [hempty] at hmem
      cases hmem
  | some found => exact ⟨found, rfl⟩

/-- If the first membership has billing authority, it is the first that has. -/
theorem billingMembership_of_first (h : db.firstMembership userId = some first)
    (hbilling : first.isBilling = true) : db.billingMembership userId = some first := by
  obtain ⟨hmem, huser⟩ := mem_of_firstMembership h
  obtain ⟨found, hfound⟩ := exists_billingMembership hmem huser hbilling
  obtain ⟨hfoundMem, hfoundUser, hfoundBilling⟩ := mem_of_billingMembership hfound
  have hle : found.id ≤ first.id :=
    Db.key_le_of_first? hfound first (List.mem_filter.mpr ⟨hmem, by simp [huser, hbilling]⟩)
  have hge : first.id ≤ found.id :=
    Db.key_le_of_first? h found (List.mem_filter.mpr ⟨hfoundMem, by simp [hfoundUser]⟩)
  have hsame : found = first :=
    db.members.eq_of_clash hfoundMem hmem (.inl (BitVec.le_antisymm hle hge))
  rw [hfound, hsame]

end Found

/-! ## The three queries -/

section Queries

variable {w : World σ} {userId orgId : UUID}

theorem mutatesFor_team : MutatesFor w userId (some "team") orgId ↔
    ∃ m, w.db.billingMembership userId = some m ∧ m.orgId = orgId := by
  unfold MutatesFor Session.resolveMutationContext
  show (Fallible.exec (Session.requireBillingAuthority userId .team) w).1 = _ ↔ _
  unfold Session.requireBillingAuthority
  rw [Session.exec_select_bind]
  cases w.db.billingMembership userId with
  | none => exact ⟨nofun, nofun⟩
  | some m =>
      show (Except.ok (some m.orgId) : Py (Option UUID)) = .ok (some orgId) ↔ _
      simp

theorem mutatesFor_none : MutatesFor w userId none orgId ↔
    ∃ m, w.db.firstMembership userId = some m ∧ m.isBilling = true ∧ m.orgId = orgId := by
  have hnone : validateSubscriptionContext none = .ok none := rfl
  unfold MutatesFor Session.resolveMutationContext
  rw [hnone, Fallible.exec_bind, Session.exec_lift, Fallible.resume_ok]
  dsimp only
  rw [Session.exec_select_bind]
  cases w.db.firstMembership userId with
  | none =>
      constructor
      · intro h
        cases h
      · rintro ⟨m, hm, -⟩
        cases hm
  | some m =>
      cases hbilling : m.isBilling with
      | false => simp [hbilling]
      | true => simp [hbilling]

theorem exec_resolveBillingCustomer (w : World σ) (userId : UUID) (scope : Option UUID) :
    Fallible.exec (Session.resolveBillingCustomer userId scope) w =
      (.ok (w.db.billingCustomer userId scope), w) := by
  cases scope <;> rfl

/-- The customer of the scope, its newest active subscription and that one's Stripe id. -/
theorem getCustomerAndPaidSubscription_eq_ok {scope : Option UUID} {customer : StripeCustomer}
    {sub : Subscription} {stripeId : String} {w' : World σ}
    (h : Fallible.exec (Session.getCustomerAndPaidSubscription userId scope) w =
      (.ok (customer, sub, stripeId), w')) :
    w' = w ∧ w.db.billingCustomer userId scope = some customer ∧
    w.db.latestActive customer.id = some sub ∧ sub.stripeId = some stripeId := by
  unfold Session.getCustomerAndPaidSubscription at h
  obtain ⟨found, w₁, hfound, h⟩ := Fallible.exec_bind_eq_ok.mp h
  rw [exec_resolveBillingCustomer] at hfound
  cases hfound
  cases hcustomer : w.db.billingCustomer userId scope with
  | none =>
      rw [hcustomer] at h
      cases h
  | some customer' =>
  rw [hcustomer] at h
  obtain ⟨active, w₂, hactive, h⟩ := Fallible.exec_bind_eq_ok.mp h
  rw [Session.exec_ofHandler, exec_getActiveForCustomer] at hactive
  cases hactive
  cases hsub : w.db.latestActive customer'.id with
  | none =>
      rw [hsub] at h
      cases h
  | some sub' =>
  rw [hsub] at h
  cases hid : sub'.stripeId with
  | none =>
      dsimp only at h
      rw [hid] at h
      cases h
  | some stripeId' =>
  dsimp only at h
  rw [hid] at h
  cases h
  exact ⟨rfl, rfl, hsub, hid⟩

/-- The context says the team, or is left out. -/
theorem MutatesFor.context {context : Option String} (h : MutatesFor w userId context orgId) :
    MutatesFor w userId none orgId ∨ MutatesFor w userId (some "team") orgId := by
  unfold MutatesFor Session.resolveMutationContext at h
  cases hcontext : validateSubscriptionContext context with
  | error e =>
      rw [hcontext] at h
      cases h
  | ok explicit? =>
      rw [hcontext] at h
      cases explicit? with
      | none => exact .inl h
      | some explicit =>
          cases explicit with
          | team => exact .inr h
          | personal => cases h

theorem buysFor_iff {db : Db} {context : Option PlanContext} : BuysFor db userId context orgId ↔
    context ≠ some .personal ∧
      ∃ m, db.firstMembership userId = some m ∧ m.role = .owner ∧ m.orgId = orgId := by
  unfold BuysFor resolveProductPurchaseContext
  cases db.firstMembership userId with
  | none =>
      cases context with
      | none => simp
      | some context => cases context <;> simp
  | some m =>
      by_cases howner : m.role = .owner
      · cases context with
        | none => simp [howner]
        | some context => cases context <;> simp [howner]
      · cases context with
        | none => simp [howner]
        | some context => cases context <;> simp [howner]

end Queries

/-- **Authority in several orgs.**  A user's authority and ownership are found exactly if
the first membership carries what the others do. -/
theorem acts_for_team_iff (w : World σ) (userId : UUID) :
    ActsForTeam w userId ↔ FirstCarriesAll w.db userId := by
  constructor
  · intro hacts first hfirst m hm huser
    constructor
    · intro hbilling
      obtain ⟨orgId, hmutates⟩ :=
        (hacts.passes none List.mem_cons_self).mpr ⟨m, hm, huser, hbilling⟩
      obtain ⟨found, hfound, hfoundBilling, -⟩ := mutatesFor_none.mp hmutates
      obtain rfl : first = found := Option.some.inj (hfirst.symm.trans hfound)
      exact hfoundBilling
    · intro howner
      obtain ⟨orgId, hbuys⟩ := (hacts.buys none List.mem_cons_self).mpr ⟨m, hm, huser, howner⟩
      obtain ⟨-, found, hfound, hfoundOwner, -⟩ := buysFor_iff.mp hbuys
      obtain rfl : first = found := Option.some.inj (hfirst.symm.trans hfound)
      exact hfoundOwner
  · intro hcarries
    have hnone : ∀ orgId, MutatesFor w userId none orgId → MutatesFor w userId (some "team") orgId := by
      intro orgId h
      obtain ⟨first, hfirst, hbilling, horg⟩ := mutatesFor_none.mp h
      exact mutatesFor_team.mpr ⟨first, billingMembership_of_first hfirst hbilling, horg⟩
    have hteam : ∀ orgId, MutatesFor w userId (some "team") orgId →
        ∃ m ∈ w.db.members.rows, m.userId = userId ∧ m.orgId = orgId ∧ m.isBilling = true := by
      intro orgId h
      obtain ⟨m, hm, horg⟩ := mutatesFor_team.mp h
      obtain ⟨hmem, huser, hbilling⟩ := mem_of_billingMembership hm
      exact ⟨m, hmem, huser, horg, hbilling⟩
    have hauthorized : ∀ context orgId, MutatesFor w userId context orgId →
        ∃ m ∈ w.db.members.rows, m.userId = userId ∧ m.orgId = orgId ∧ m.isBilling = true :=
      fun context orgId h => hteam orgId (h.context.elim (hnone orgId) id)
    constructor
    · intro context hcontext
      constructor
      · rintro ⟨orgId, h⟩
        obtain ⟨m, hm, huser, -, hbilling⟩ := hauthorized context orgId h
        exact ⟨m, hm, huser, hbilling⟩
      · rintro ⟨m, hm, huser, hbilling⟩
        obtain ⟨first, hfirst⟩ := exists_firstMembership hm huser
        have hfirstBilling := (hcarries first hfirst m hm huser).1 hbilling
        have hmutates := mutatesFor_none.mpr ⟨first, hfirst, hfirstBilling, rfl⟩
        rw [List.mem_cons, List.mem_singleton] at hcontext
        obtain rfl | rfl := hcontext
        · exact ⟨first.orgId, hmutates⟩
        · exact ⟨first.orgId, hnone _ hmutates⟩
    · exact hauthorized
    · intro context orgId customer sub stripeId w' _ hexec
      obtain ⟨-, hcustomer, -, -⟩ := getCustomerAndPaidSubscription_eq_ok hexec
      exact beq_iff_eq.mp (Table.mem_of_find? hcustomer).2
    · intro orgId orgId' h h'
      obtain ⟨m, hm, rfl⟩ := mutatesFor_team.mp (hnone orgId h)
      obtain ⟨m', hm', rfl⟩ := mutatesFor_team.mp h'
      rw [Option.some.inj (hm.symm.trans hm')]
    · intro context hcontext
      have hteamContext : context ≠ some .personal := by
        rw [List.mem_cons, List.mem_singleton] at hcontext
        obtain rfl | rfl := hcontext <;> decide
      constructor
      · rintro ⟨orgId, h⟩
        obtain ⟨-, first, hfirst, howner, -⟩ := buysFor_iff.mp h
        obtain ⟨hmem, huser⟩ := mem_of_firstMembership hfirst
        exact ⟨first, hmem, huser, howner⟩
      · rintro ⟨m, hm, huser, howner⟩
        obtain ⟨first, hfirst⟩ := exists_firstMembership hm huser
        have hfirstOwner := (hcarries first hfirst m hm huser).2 howner
        exact ⟨first.orgId, buysFor_iff.mpr ⟨hteamContext, first, hfirst, hfirstOwner, rfl⟩⟩
    · intro context orgId h
      obtain ⟨-, first, hfirst, howner, horg⟩ := buysFor_iff.mp h
      obtain ⟨hmem, huser⟩ := mem_of_firstMembership hfirst
      exact ⟨first, hmem, huser, horg, howner⟩

/-! ## A member of two orgs -/

/-- The buyer is a plain member of Beta, and owns Acme. -/
def memberOfTwoTables (subscriptions : Table Subscription) : Tables :=
  { sampleDb.toTables with
    orgs := ⟨[⟨50#128, "Acme", "acme", some buyer.id, 0⟩, ⟨51#128, "Beta", "beta", none, 0⟩],
      by decide⟩
    members := ⟨[⟨60#128, 51#128, buyer.id, .member, false, 0⟩,
      ⟨61#128, 50#128, buyer.id, .owner, true, 0⟩], by decide⟩
    customers := ⟨[buyerCustomer, ⟨31#128, "cus_2", none, some 50#128, false, 0⟩,
      ⟨32#128, "cus_3", none, some 51#128, false, 0⟩], by decide⟩
    subscriptions := subscriptions }

def memberOfTwoWorld : World Unit := ⟨⟨memberOfTwoTables .empty, by decide +kernel⟩, (), []⟩

theorem not_acts_for_team : ¬ ∀ (w : World Unit) (userId : UUID), ActsForTeam w userId := by
  intro h
  have hacts := h memberOfTwoWorld buyer.id
  have hbilling : ∃ m ∈ memberOfTwoWorld.db.members.rows, m.userId = buyer.id ∧ m.isBilling = true := by
    decide +kernel
  obtain ⟨orgId, hmutates⟩ := (hacts.passes none List.mem_cons_self).mpr hbilling
  have hdenied : (Fallible.exec (Session.resolveMutationContext buyer.id none) memberOfTwoWorld).1 =
      .error (.permissionDenied "Only billing members can modify the team subscription.") := by
    decide +kernel
  cases hdenied.symm.trans hmutates

end Saasmint
