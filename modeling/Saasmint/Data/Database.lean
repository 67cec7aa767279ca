import Mathlib.Data.List.Sort
import Saasmint.Data.Rows

/-!
# The database

`Tables` are the tables, each of which enforces its own constraints.  A `Db` also
satisfies the foreign keys, `Tables.Integral`, and `Db.commit` is the only way
to a new one: a transaction that would leave a dangling reference is refused
with an `IntegrityError`.

The queries are those the repositories and services make, under the names of
the methods that make them.
-/

namespace Saasmint

open Relational

structure Tables where
  users : Table User
  orgs : Table Org
  members : Table OrgMember
  invitations : Table Invitation
  plans : Table Plan
  planPrices : Table PlanPrice
  products : Table Product
  productPrices : Table ProductPrice
  localizedPrices : Table LocalizedPrice
  customers : Table StripeCustomer
  subscriptions : Table Subscription
  events : Table StripeEvent
  creditBalances : Table CreditBalance
  creditTransactions : Table CreditTransaction

/-! ## Foreign keys -/

/-- A foreign key: `NULL`, or the key of a stored row. -/
def Refers {α : Type} (id : Option UUID) (key : α → UUID) (rows : List α) : Prop :=
  ∀ k ∈ id, ∃ row ∈ rows, key row = k

@[simp] theorem refers_none {α : Type} (key : α → UUID) (rows : List α) :
    Refers none key rows := by
  intro k hk
  cases hk

theorem refers_some {α : Type} {id : UUID} {key : α → UUID} {rows : List α} :
    Refers (some id) key rows ↔ ∃ row ∈ rows, key row = id := by
  simp [Refers]

/-- Nothing refers to a key that no row has. -/
theorem Refers.ne_some {α : Type} {id : Option UUID} {k : UUID} {key : α → UUID} {rows : List α}
    (h : Refers id key rows) (hgone : ∀ row ∈ rows, key row ≠ k) : id ≠ some k := by
  intro hid
  obtain ⟨row, hrow, hsame⟩ := h k hid
  exact hgone row hrow hsame

theorem Refers.rewrite {α : Type} {id : Option UUID} {key : α → UUID} {rows : List α} {f : α → α}
    (hf : ∀ row, key (f row) = key row) (h : Refers id key rows) : Refers id key (rows.map f) := by
  intro k hk
  obtain ⟨row, hrow, hsame⟩ := h k hk
  exact ⟨f row, List.mem_map_of_mem hrow, (hf row).trans hsame⟩

instance {α : Type} (id : Option UUID) (key : α → UUID) (rows : List α) :
    Decidable (Refers id key rows) :=
  match id with
  | none => .isTrue (refers_none key rows)
  | some id => decidable_of_iff (rows.any fun row => key row == id)
      (by simp [refers_some])

namespace Tables

variable (t : Tables)

def OrgRefs (o : Org) : Prop := Refers o.createdById User.id t.users.rows

def MemberRefs (m : OrgMember) : Prop :=
  Refers (some m.orgId) Org.id t.orgs.rows ∧ Refers (some m.userId) User.id t.users.rows

def InvitationRefs (i : Invitation) : Prop :=
  Refers (some i.orgId) Org.id t.orgs.rows ∧ Refers i.invitedById User.id t.users.rows

def PlanPriceRefs (p : PlanPrice) : Prop := Refers (some p.planId) Plan.id t.plans.rows

def ProductPriceRefs (p : ProductPrice) : Prop :=
  Refers (some p.productId) Product.id t.products.rows

def LocalizedPriceRefs (p : LocalizedPrice) : Prop :=
  Refers p.planPriceId PlanPrice.id t.planPrices.rows ∧
    Refers p.productPriceId ProductPrice.id t.productPrices.rows

/-- A customer, a balance or a transaction: owned by a user or by an org. -/
def OwnerRefs (userId orgId : Option UUID) : Prop :=
  Refers userId User.id t.users.rows ∧ Refers orgId Org.id t.orgs.rows

def SubscriptionRefs (s : Subscription) : Prop :=
  Refers s.stripeCustomerId StripeCustomer.id t.customers.rows ∧
    Refers s.userId User.id t.users.rows ∧ Refers (some s.planId) Plan.id t.plans.rows ∧
    Refers s.scheduledPlanId Plan.id t.plans.rows

/-- Every foreign key refers to a stored row. -/
structure Integral : Prop where
  orgs : ∀ o ∈ t.orgs.rows, t.OrgRefs o
  members : ∀ m ∈ t.members.rows, t.MemberRefs m
  invitations : ∀ i ∈ t.invitations.rows, t.InvitationRefs i
  planPrices : ∀ p ∈ t.planPrices.rows, t.PlanPriceRefs p
  productPrices : ∀ p ∈ t.productPrices.rows, t.ProductPriceRefs p
  localizedPrices : ∀ p ∈ t.localizedPrices.rows, t.LocalizedPriceRefs p
  customers : ∀ c ∈ t.customers.rows, t.OwnerRefs c.userId c.orgId
  subscriptions : ∀ s ∈ t.subscriptions.rows, t.SubscriptionRefs s
  creditBalances : ∀ b ∈ t.creditBalances.rows, t.OwnerRefs b.userId b.orgId
  creditTransactions : ∀ c ∈ t.creditTransactions.rows, t.OwnerRefs c.userId c.orgId

instance : Decidable t.Integral := by
  refine @decidable_of_iff _ ((∀ o ∈ t.orgs.rows, t.OrgRefs o) ∧
    (∀ m ∈ t.members.rows, t.MemberRefs m) ∧ (∀ i ∈ t.invitations.rows, t.InvitationRefs i) ∧
    (∀ p ∈ t.planPrices.rows, t.PlanPriceRefs p) ∧
    (∀ p ∈ t.productPrices.rows, t.ProductPriceRefs p) ∧
    (∀ p ∈ t.localizedPrices.rows, t.LocalizedPriceRefs p) ∧
    (∀ c ∈ t.customers.rows, t.OwnerRefs c.userId c.orgId) ∧
    (∀ s ∈ t.subscriptions.rows, t.SubscriptionRefs s) ∧
    (∀ b ∈ t.creditBalances.rows, t.OwnerRefs b.userId b.orgId) ∧
    (∀ c ∈ t.creditTransactions.rows, t.OwnerRefs c.userId c.orgId)) ?_ ?_
  · constructor
    · rintro ⟨h₁, h₂, h₃, h₄, h₅, h₆, h₇, h₈, h₉, h₁₀⟩
      exact ⟨h₁, h₂, h₃, h₄, h₅, h₆, h₇, h₈, h₉, h₁₀⟩
    · intro h
      exact ⟨h.1, h.2, h.3, h.4, h.5, h.6, h.7, h.8, h.9, h.10⟩
  · unfold OrgRefs MemberRefs InvitationRefs PlanPriceRefs ProductPriceRefs LocalizedPriceRefs
      OwnerRefs SubscriptionRefs
    infer_instance

end Tables

/-- A customer of an org is no customer of a user. -/
theorem StripeCustomer.userId_eq_none {t : Tables} {c : StripeCustomer} {orgId : UUID}
    (hc : c ∈ t.customers.rows) (horg : c.orgId = some orgId) : c.userId = none := by
  have hone : oneOwner c.userId c.orgId := t.customers.check_of_mem hc
  unfold oneOwner at hone
  rw [horg] at hone
  cases huser : c.userId with
  | none => rfl
  | some userId => simp [huser] at hone

structure Db extends Tables where
  integral : toTables.Integral

namespace Db

theorem ext_tables {db db' : Db} (h : db.toTables = db'.toTables) : db = db' := by
  cases db
  cases db'
  congr

/-- The end of a transaction: the foreign keys are checked. -/
def commit (t : Tables) : Py Db :=
  if h : t.Integral then .ok ⟨t, h⟩
  else .error (.integrity "violates foreign key constraint")

theorem commit_eq_ok {t : Tables} {db : Db} : commit t = .ok db ↔ db.toTables = t := by
  unfold commit
  constructor
  · intro h
    split at h
    · cases h
      rfl
    · cases h
  · rintro rfl
    rw [dif_pos db.integral]

theorem commit_isOk {t : Tables} (h : t.Integral) : ∃ db, commit t = .ok db :=
  ⟨⟨t, h⟩, commit_eq_ok.mpr rfl⟩

/-! ## Queries -/

variable (db : Db)

/-- `DjangoStripeCustomerRepository.get_by_id`. -/
def customerById (id : UUID) : Option StripeCustomer := db.customers.find? (·.id == id)

/-- `DjangoStripeCustomerRepository.get_by_stripe_id`. -/
def customerByStripeId (stripeId : String) : Option StripeCustomer :=
  db.customers.find? (·.stripeId == stripeId)

/-- `DjangoStripeCustomerRepository.get_by_user_id`. -/
def customerByUserId (userId : UUID) : Option StripeCustomer :=
  db.customers.find? (·.userId == some userId)

/-- `DjangoStripeCustomerRepository.get_by_org_id`. -/
def customerByOrgId (orgId : UUID) : Option StripeCustomer :=
  db.customers.find? (·.orgId == some orgId)

/-- `DjangoPlanRepository.get_price_by_stripe_id`. -/
def getPriceByStripeId (stripePriceId : String) : Option PlanPrice :=
  db.planPrices.find? (·.stripePriceId == stripePriceId)

/-- `DjangoSubscriptionRepository.get_by_stripe_id`. -/
def subscriptionByStripeId (stripeId : String) : Option Subscription :=
  db.subscriptions.find? (·.stripeId == some stripeId)

/-- `queryset.first()` without an order: the row with the lowest key. -/
def first? {α : Type} (key : α → UUID) : List α → Option α
  | [] => none
  | a :: rest =>
      match first? key rest with
      | none => some a
      | some b => if key b < key a then some b else some a

/-- `queryset.latest("created_at")`. -/
def latest? : List Subscription → Option Subscription
  | [] => none
  | s :: rest =>
      match latest? rest with
      | none => some s
      | some s' => if s.createdAt < s'.createdAt then some s' else some s

def activeForCustomer (customerId : UUID) : List Subscription :=
  db.subscriptions.filter fun s => s.stripeCustomerId == some customerId && s.status.isActive

/-- `DjangoSubscriptionRepository._get_latest_active`. -/
def latestActive (customerId : UUID) : Option Subscription :=
  latest? (db.activeForCustomer customerId)

def userById (id : UUID) : Option User := db.users.find? (·.id == id)

def orgById (id : UUID) : Option Org := db.orgs.find? (·.id == id)

def memberOf (orgId userId : UUID) : Option OrgMember :=
  db.members.find? fun m => m.orgId == orgId && m.userId == userId

def planById (id : UUID) : Option Plan := db.plans.find? (·.id == id)

def productById (id : UUID) : Option Product := db.products.find? (·.id == id)

theorem first?_eq_pick? {α : Type} (key : α → UUID) (rows : List α) :
    first? key rows = pick? (fun a b => key a < key b) rows := by
  induction rows with
  | nil => rfl
  | cons a rest ih =>
      rw [first?, pick?, ih]
      cases pick? (fun a b => decide (key a < key b)) rest with
      | none => rfl
      | some b => simp only [decide_eq_true_eq]

theorem latest?_eq_pick? (rows : List Subscription) :
    latest? rows = pick? (fun s t => t.createdAt < s.createdAt) rows := by
  induction rows with
  | nil => rfl
  | cons s rest ih =>
      rw [latest?, pick?, ih]
      cases pick? (fun s t : Subscription => decide (t.createdAt < s.createdAt)) rest with
      | none => rfl
      | some t => simp only [decide_eq_true_eq]

theorem mem_of_first? {α : Type} {key : α → UUID} {rows : List α} {a : α}
    (h : first? key rows = some a) : a ∈ rows := by
  rw [first?_eq_pick?] at h
  exact mem_of_pick? h

theorem first?_eq_none {α : Type} {key : α → UUID} {rows : List α} :
    first? key rows = none ↔ rows = [] := by
  rw [first?_eq_pick?, pick?_eq_none]

theorem mem_of_latest? {rows : List Subscription} {s : Subscription}
    (h : latest? rows = some s) : s ∈ rows := by
  rw [latest?_eq_pick?] at h
  exact mem_of_pick? h

theorem latest?_eq_none {rows : List Subscription} : latest? rows = none ↔ rows = [] := by
  rw [latest?_eq_pick?, pick?_eq_none]

/-- Which row is the latest depends on the creation times only. -/
theorem latest?_map {f : Subscription → Subscription} (hf : ∀ s, (f s).createdAt = s.createdAt)
    (rows : List Subscription) : latest? (rows.map f) = (latest? rows).map f := by
  induction rows with
  | nil => rfl
  | cons s rest ih =>
      rw [List.map_cons, latest?, latest?, ih]
      cases latest? rest with
      | none => rfl
      | some s' =>
          simp only [Option.map_some, hf]
          split <;> rfl

theorem mem_activeForCustomer {db : Db} {customerId : UUID} {s : Subscription} :
    s ∈ db.activeForCustomer customerId ↔ s ∈ db.subscriptions.rows ∧
      s.stripeCustomerId = some customerId ∧ s.status.isActive = true := by
  simp [activeForCustomer, Table.filter]

theorem mem_of_latestActive {db : Db} {customerId : UUID} {s : Subscription}
    (h : db.latestActive customerId = some s) : s ∈ db.activeForCustomer customerId :=
  mem_of_latest? h

theorem subscriptionByStripeId_eq_some {db : Db} {stripeId : String} {s : Subscription} :
    db.subscriptionByStripeId stripeId = some s ↔
      s ∈ db.subscriptions.rows ∧ s.stripeId = some stripeId := by
  have hunique : ∀ a b : Subscription, (a.stripeId == some stripeId) = true →
      (b.stripeId == some stripeId) = true → Row.clash a b := by
    intro a b ha hb
    rw [beq_iff_eq] at ha hb
    exact Or.inr ⟨by rw [ha]; rfl, by rw [ha, hb]⟩
  simpa [subscriptionByStripeId] using Table.find?_eq_some_iff hunique

theorem subscriptionByStripeId_eq_none {db : Db} {stripeId : String} :
    db.subscriptionByStripeId stripeId = none ↔
      ∀ s ∈ db.subscriptions.rows, s.stripeId ≠ some stripeId := by
  simp [subscriptionByStripeId, Table.find?_eq_none]

theorem customerByStripeId_eq_some {db : Db} {stripeId : String} {c : StripeCustomer} :
    db.customerByStripeId stripeId = some c ↔
      c ∈ db.customers.rows ∧ c.stripeId = stripeId := by
  have hunique : ∀ a b : StripeCustomer, (a.stripeId == stripeId) = true →
      (b.stripeId == stripeId) = true → Row.clash a b := by
    intro a b ha hb
    rw [beq_iff_eq] at ha hb
    exact Or.inr (Or.inl (ha.trans hb.symm))
  simpa [customerByStripeId] using Table.find?_eq_some_iff hunique

theorem customerByUserId_eq_some {db : Db} {userId : UUID} {c : StripeCustomer} :
    db.customerByUserId userId = some c ↔ c ∈ db.customers.rows ∧ c.userId = some userId := by
  have hunique : ∀ a b : StripeCustomer, (a.userId == some userId) = true →
      (b.userId == some userId) = true → Row.clash a b := by
    intro a b ha hb
    rw [beq_iff_eq] at ha hb
    exact Or.inr (Or.inr (Or.inl ⟨by rw [ha]; rfl, ha.trans hb.symm⟩))
  simpa [customerByUserId] using Table.find?_eq_some_iff hunique

theorem customerByOrgId_eq_some {db : Db} {orgId : UUID} {c : StripeCustomer} :
    db.customerByOrgId orgId = some c ↔ c ∈ db.customers.rows ∧ c.orgId = some orgId := by
  have hunique : ∀ a b : StripeCustomer, (a.orgId == some orgId) = true →
      (b.orgId == some orgId) = true → Row.clash a b := by
    intro a b ha hb
    rw [beq_iff_eq] at ha hb
    exact Or.inr (Or.inr (Or.inr ⟨by rw [ha]; rfl, ha.trans hb.symm⟩))
  simpa [customerByOrgId] using Table.find?_eq_some_iff hunique

theorem customerById_eq_some {db : Db} {id : UUID} {c : StripeCustomer} :
    db.customerById id = some c ↔ c ∈ db.customers.rows ∧ c.id = id := by
  have hunique : ∀ a b : StripeCustomer, (a.id == id) = true → (b.id == id) = true →
      Row.clash a b := by
    intro a b ha hb
    rw [beq_iff_eq] at ha hb
    exact Or.inl (ha.trans hb.symm)
  simpa [customerById] using Table.find?_eq_some_iff hunique

theorem orgById_eq_some {db : Db} {id : UUID} {org : Org} :
    db.orgById id = some org ↔ org ∈ db.orgs.rows ∧ org.id = id := by
  have hunique : ∀ a b : Org, (a.id == id) = true → (b.id == id) = true → Row.clash a b := by
    intro a b ha hb
    rw [beq_iff_eq] at ha hb
    exact Or.inl (ha.trans hb.symm)
  simpa [orgById] using Table.find?_eq_some_iff hunique

theorem memberOf_eq_some {db : Db} {orgId userId : UUID} {m : OrgMember} :
    db.memberOf orgId userId = some m ↔
      m ∈ db.members.rows ∧ m.orgId = orgId ∧ m.userId = userId := by
  have hunique : ∀ a b : OrgMember, (a.orgId == orgId && a.userId == userId) = true →
      (b.orgId == orgId && b.userId == userId) = true → Row.clash a b := by
    intro a b ha hb
    simp only [Bool.and_eq_true, beq_iff_eq] at ha hb
    exact Or.inr (Or.inl ⟨ha.1.trans hb.1.symm, ha.2.trans hb.2.symm⟩)
  simpa [memberOf] using Table.find?_eq_some_iff hunique

theorem getPriceByStripeId_eq_some {db : Db} {stripePriceId : String} {p : PlanPrice} :
    db.getPriceByStripeId stripePriceId = some p ↔
      p ∈ db.planPrices.rows ∧ p.stripePriceId = stripePriceId := by
  have hunique : ∀ a b : PlanPrice, (a.stripePriceId == stripePriceId) = true →
      (b.stripePriceId == stripePriceId) = true → Row.clash a b := by
    intro a b ha hb
    rw [beq_iff_eq] at ha hb
    exact Or.inr (Or.inr (ha.trans hb.symm))
  simpa [getPriceByStripeId] using Table.find?_eq_some_iff hunique

end Db

end Saasmint
