import Saasmint.Library.Table
import Saasmint.Python.Value

/-!
# The rows of the database

One structure for each Django model, with the constraints its table declares:
`check` are the check constraints, `clash` says which two rows the primary key
and the unique constraints forbid.  `NULL`s never collide, and a conditional
unique constraint compares only rows that meet its condition.

`fits` is what the column types admit; a row that does not fit is a `DataError`,
not an `IntegrityError`.
-/

namespace Saasmint

open Relational

/-! ## Enumerations -/

inductive SubscriptionStatus
  | active | trialing | pastDue | canceled | incomplete | incompleteExpired | paused | unpaid
deriving DecidableEq, Repr

namespace SubscriptionStatus

def value : SubscriptionStatus → String
  | active => "active"
  | trialing => "trialing"
  | pastDue => "past_due"
  | canceled => "canceled"
  | incomplete => "incomplete"
  | incompleteExpired => "incomplete_expired"
  | paused => "paused"
  | unpaid => "unpaid"

def all : List SubscriptionStatus :=
  [active, trialing, pastDue, canceled, incomplete, incompleteExpired, paused, unpaid]

def ofValue? (text : String) : Option SubscriptionStatus := all.find? fun s => s.value == text

/-- `SubscriptionStatus(text)`. -/
def parse (text : String) : Py SubscriptionStatus :=
  match ofValue? text with
  | some status => .ok status
  | none => .error (.valueError ("'" ++ text ++ "' is not a valid SubscriptionStatus"))

/-- `ACTIVE_SUBSCRIPTION_STATUSES`. -/
def isActive : SubscriptionStatus → Bool
  | active | trialing | pastDue => true
  | _ => false

end SubscriptionStatus

inductive PlanContext
  | personal | team
deriving DecidableEq, Repr

inductive PlanTier
  | free | basic | pro
deriving DecidableEq, Repr

inductive PlanInterval
  | month | year
deriving DecidableEq, Repr

inductive OrgRole
  | owner | admin | member
deriving DecidableEq, Repr

theorem OrgRole.admin_ne_owner : OrgRole.admin ≠ .owner := nofun

inductive InvitationStatus
  | pending | accepted | expired | cancelled | declined
deriving DecidableEq, Repr

def PlanContext.value : PlanContext → String
  | personal => "personal"
  | team => "team"

/-- The member's name, lower-cased. -/
def PlanTier.name : PlanTier → String
  | free => "free"
  | basic => "basic"
  | pro => "pro"

def PlanInterval.value : PlanInterval → String
  | month => "month"
  | year => "year"

/-! ## Column types and constraints -/

/-- Equal, and not `NULL`. -/
def sameValue {α : Type} [DecidableEq α] (a b : Option α) : Prop := a.isSome ∧ a = b

instance {α : Type} [DecidableEq α] (a b : Option α) : Decidable (sameValue a b) :=
  inferInstanceAs (Decidable (_ ∧ _))

theorem sameValue_symm {α : Type} [DecidableEq α] {a b : Option α} (h : sameValue a b) :
    sameValue b a :=
  ⟨h.2 ▸ h.1, h.2.symm⟩

/-- Exactly one of the two owners is set. -/
def oneOwner {α β : Type} (a : Option α) (b : Option β) : Prop := a.isSome ≠ b.isSome

instance {α β : Type} (a : Option α) (b : Option β) : Decidable (oneOwner a b) :=
  inferInstanceAs (Decidable (_ ≠ _))

/-- `VARCHAR(n)`. -/
def fitsVarchar (n : ℕ) (text : String) : Bool := text.toList.length ≤ n

/-- A 32-bit integer column. -/
def fitsInteger (n : Int) : Bool := -2147483648 ≤ n ∧ n ≤ 2147483647

/-! ## Users and organizations -/

structure User where
  id : UUID
  email : String
  fullName : String
  preferredCurrency : Option String
deriving DecidableEq, Repr

instance : Row User where
  check _ := True
  clash a b := a.id = b.id ∨ lower a.email = lower b.email
  decidableCheck _ := inferInstanceAs (Decidable True)
  decidableClash _ _ := inferInstanceAs (Decidable (_ ∨ _))
  clash_symm h := h.imp Eq.symm Eq.symm

structure Org where
  id : UUID
  name : String
  slug : String
  createdById : Option UUID
  createdAt : Datetime
deriving DecidableEq, Repr

instance : Row Org where
  check _ := True
  clash a b := a.id = b.id ∨ a.slug = b.slug
  decidableCheck _ := inferInstanceAs (Decidable True)
  decidableClash _ _ := inferInstanceAs (Decidable (_ ∨ _))
  clash_symm h := h.imp Eq.symm Eq.symm

def Org.fits (org : Org) : Bool := fitsVarchar 255 org.name && fitsVarchar 255 org.slug

structure OrgMember where
  id : UUID
  orgId : UUID
  userId : UUID
  role : OrgRole
  isBilling : Bool
  joinedAt : Datetime
deriving DecidableEq, Repr

instance : Row OrgMember where
  check m := m.role = .owner → m.isBilling = true
  clash a b := a.id = b.id ∨ (a.orgId = b.orgId ∧ a.userId = b.userId) ∨
    (a.role = .owner ∧ b.role = .owner ∧ a.userId = b.userId)
  decidableCheck _ := inferInstanceAs (Decidable (_ → _))
  decidableClash _ _ := inferInstanceAs (Decidable (_ ∨ _ ∨ _))
  clash_symm h := by
    rcases h with h | ⟨horg, huser⟩ | ⟨ha, hb, huser⟩
    · exact Or.inl h.symm
    · exact Or.inr (Or.inl ⟨horg.symm, huser.symm⟩)
    · exact Or.inr (Or.inr ⟨hb, ha, huser.symm⟩)

structure Invitation where
  id : UUID
  orgId : UUID
  email : String
  role : OrgRole
  token : String
  status : InvitationStatus
  invitedById : Option UUID
  createdAt : Datetime
  expiresAt : Datetime
deriving DecidableEq, Repr

instance : Row Invitation where
  check _ := True
  clash a b := a.id = b.id ∨ a.token = b.token ∨
    (a.status = .pending ∧ b.status = .pending ∧ a.orgId = b.orgId ∧ a.email = b.email)
  decidableCheck _ := inferInstanceAs (Decidable True)
  decidableClash _ _ := inferInstanceAs (Decidable (_ ∨ _ ∨ _))
  clash_symm h := by
    rcases h with h | h | ⟨ha, hb, horg, hemail⟩
    · exact Or.inl h.symm
    · exact Or.inr (Or.inl h.symm)
    · exact Or.inr (Or.inr ⟨hb, ha, horg.symm, hemail.symm⟩)

/-! ## The catalog -/

structure Plan where
  id : UUID
  name : String
  description : String
  context : PlanContext
  tier : PlanTier
  interval : PlanInterval
  isActive : Bool
deriving DecidableEq, Repr

instance : Row Plan where
  check _ := True
  clash a b := a.id = b.id ∨ (a.isActive = true ∧ b.isActive = true ∧
    a.context = b.context ∧ a.tier = b.tier ∧ a.interval = b.interval)
  decidableCheck _ := inferInstanceAs (Decidable True)
  decidableClash _ _ := inferInstanceAs (Decidable (_ ∨ _))
  clash_symm h := by
    rcases h with h | ⟨ha, hb, hcontext, htier, hinterval⟩
    · exact Or.inl h.symm
    · exact Or.inr ⟨hb, ha, hcontext.symm, htier.symm, hinterval.symm⟩

structure PlanPrice where
  id : UUID
  planId : UUID
  stripePriceId : String
  amount : Int
deriving DecidableEq, Repr

instance : Row PlanPrice where
  check _ := True
  clash a b := a.id = b.id ∨ a.planId = b.planId ∨ a.stripePriceId = b.stripePriceId
  decidableCheck _ := inferInstanceAs (Decidable True)
  decidableClash _ _ := inferInstanceAs (Decidable (_ ∨ _ ∨ _))
  clash_symm h := h.imp Eq.symm (Or.imp Eq.symm Eq.symm)

structure Product where
  id : UUID
  name : String
  credits : Int
  isActive : Bool
deriving DecidableEq, Repr

instance : Row Product where
  check _ := True
  clash a b := a.id = b.id
  decidableCheck _ := inferInstanceAs (Decidable True)
  decidableClash _ _ := inferInstanceAs (Decidable (_ = _))
  clash_symm := Eq.symm

structure ProductPrice where
  id : UUID
  productId : UUID
  stripePriceId : String
  amount : Int
deriving DecidableEq, Repr

instance : Row ProductPrice where
  check _ := True
  clash a b := a.id = b.id ∨ a.productId = b.productId ∨ a.stripePriceId = b.stripePriceId
  decidableCheck _ := inferInstanceAs (Decidable True)
  decidableClash _ _ := inferInstanceAs (Decidable (_ ∨ _ ∨ _))
  clash_symm h := h.imp Eq.symm (Or.imp Eq.symm Eq.symm)

structure LocalizedPrice where
  id : UUID
  planPriceId : Option UUID
  productPriceId : Option UUID
  currency : String
  amountMinor : Int
  stripePriceId : Option String
  syncedAt : Datetime
deriving DecidableEq, Repr

instance : Row LocalizedPrice where
  check p := oneOwner p.planPriceId p.productPriceId
  clash a b := a.id = b.id ∨ (sameValue a.planPriceId b.planPriceId ∧ a.currency = b.currency) ∨
    (sameValue a.productPriceId b.productPriceId ∧ a.currency = b.currency) ∨
    sameValue a.stripePriceId b.stripePriceId
  decidableCheck _ := inferInstanceAs (Decidable (oneOwner _ _))
  decidableClash _ _ := inferInstanceAs (Decidable (_ ∨ _ ∨ _ ∨ _))
  clash_symm h := by
    rcases h with h | ⟨howner, hcurrency⟩ | ⟨howner, hcurrency⟩ | h
    · exact Or.inl h.symm
    · exact Or.inr (Or.inl ⟨sameValue_symm howner, hcurrency.symm⟩)
    · exact Or.inr (Or.inr (Or.inl ⟨sameValue_symm howner, hcurrency.symm⟩))
    · exact Or.inr (Or.inr (Or.inr (sameValue_symm h)))

/-! ## Customers and subscriptions -/

structure StripeCustomer where
  id : UUID
  stripeId : String
  userId : Option UUID
  orgId : Option UUID
  livemode : Bool
  createdAt : Datetime
deriving DecidableEq, Repr

instance : Row StripeCustomer where
  check c := oneOwner c.userId c.orgId
  clash a b := a.id = b.id ∨ a.stripeId = b.stripeId ∨ sameValue a.userId b.userId ∨
    sameValue a.orgId b.orgId
  decidableCheck _ := inferInstanceAs (Decidable (oneOwner _ _))
  decidableClash _ _ := inferInstanceAs (Decidable (_ ∨ _ ∨ _ ∨ _))
  clash_symm h :=
    h.imp Eq.symm (Or.imp Eq.symm (Or.imp sameValue_symm sameValue_symm))

def StripeCustomer.fits (c : StripeCustomer) : Bool := fitsVarchar 255 c.stripeId

/-- The local mirror of a Stripe subscription. -/
structure Subscription where
  id : UUID
  stripeId : Option String
  stripeCustomerId : Option UUID
  userId : Option UUID
  status : SubscriptionStatus
  planId : UUID
  seatLimit : Int
  trialEndsAt : Option Datetime
  currentPeriodStart : Datetime
  currentPeriodEnd : Datetime
  canceledAt : Option Datetime
  cancelAt : Option Datetime
  scheduledPlanId : Option UUID
  scheduledChangeAt : Option Datetime
  currency : String
  createdAt : Datetime
deriving DecidableEq, Repr

instance : Row Subscription where
  check s := s.userId.isSome ∨ s.stripeCustomerId.isSome
  clash a b := a.id = b.id ∨ sameValue a.stripeId b.stripeId
  decidableCheck _ := inferInstanceAs (Decidable (_ ∨ _))
  decidableClash _ _ := inferInstanceAs (Decidable (_ ∨ _))
  clash_symm h := h.imp Eq.symm sameValue_symm

def Subscription.fits (s : Subscription) : Bool :=
  (s.stripeId.all (fitsVarchar 255)) && fitsInteger s.seatLimit && fitsVarchar 3 s.currency

/-! ## Events and credits -/

structure StripeEvent where
  id : UUID
  stripeId : String
  type : String
  livemode : Bool
  payload : Json
  processedAt : Option Datetime
  error : Option String
  createdAt : Datetime

instance : Row StripeEvent where
  check _ := True
  clash a b := a.id = b.id ∨ a.stripeId = b.stripeId
  decidableCheck _ := inferInstanceAs (Decidable True)
  decidableClash _ _ := inferInstanceAs (Decidable (_ ∨ _))
  clash_symm h := h.imp Eq.symm Eq.symm

def StripeEvent.fits (e : StripeEvent) : Bool :=
  fitsVarchar 255 e.stripeId && fitsVarchar 255 e.type

structure CreditBalance where
  id : UUID
  userId : Option UUID
  orgId : Option UUID
  balance : Int
  createdAt : Datetime
  updatedAt : Datetime
deriving DecidableEq, Repr

instance : Row CreditBalance where
  check b := oneOwner b.userId b.orgId ∧ 0 ≤ b.balance
  clash a b := a.id = b.id ∨ sameValue a.userId b.userId ∨ sameValue a.orgId b.orgId
  decidableCheck _ := inferInstanceAs (Decidable (_ ∧ _))
  decidableClash _ _ := inferInstanceAs (Decidable (_ ∨ _ ∨ _))
  clash_symm h := h.imp Eq.symm (Or.imp sameValue_symm sameValue_symm)

def CreditBalance.fits (b : CreditBalance) : Bool := fitsInteger b.balance

structure CreditTransaction where
  id : UUID
  userId : Option UUID
  orgId : Option UUID
  amount : Int
  reason : String
  stripeSessionId : Option String
  createdAt : Datetime
deriving DecidableEq, Repr

instance : Row CreditTransaction where
  check t := oneOwner t.userId t.orgId ∧ t.amount ≠ 0
  clash a b := a.id = b.id ∨ sameValue a.stripeSessionId b.stripeSessionId
  decidableCheck _ := inferInstanceAs (Decidable (_ ∧ _))
  decidableClash _ _ := inferInstanceAs (Decidable (_ ∨ _))
  clash_symm h := h.imp Eq.symm sameValue_symm

def CreditTransaction.fits (t : CreditTransaction) : Bool :=
  fitsInteger t.amount && fitsVarchar 64 t.reason && t.stripeSessionId.all (fitsVarchar 255)

end Saasmint
