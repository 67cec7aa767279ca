import Saasmint.Billing.Payloads
import Saasmint.Python.Uuid

/-!
# The data export

`export_user_data` answers a user's right of access with everything that is stored about
them.  What it says of the profile goes through the domain object, which has some of the
columns of the row, and of the subscriptions it says the latest active one of the user's
own customer.

Two databases that differ in nothing but one user's data are compared: the export tells
them apart exactly when they differ in what goes through.
-/

namespace Saasmint

open Relational

/-! ## What is stored -/

/-- The columns of `users` beside those of `User`. -/
structure Profile where
  avatarUrl : Option String
  preferredLocale : String
  phonePrefix : Option String
  phone : Option String
  timezone : Option String
  jobTitle : Option String
  pronouns : Option String
  bio : Option String
  isVerified : Bool
  createdAt : Datetime
  updatedAt : Datetime
deriving DecidableEq, Repr

/-- The database, with the profiles of its users. -/
structure ProfileDb where
  db : Db
  profile : UUID → Profile

/-! ## What is exported -/

/-- `saasmint_core.domain.user.User`. -/
structure DomainUser where
  id : UUID
  email : String
  fullName : String
  avatarUrl : Option String
  preferredLocale : String
  preferredCurrency : Option String
  pronouns : Option String
  isVerified : Bool
  createdAt : Datetime
  updatedAt : Datetime
deriving DecidableEq, Repr

/-- What is exported of a customer. -/
structure ExportedCustomer where
  stripeId : String
  livemode : Bool
  createdAt : Datetime
deriving DecidableEq, Repr

/-- The result of `export_user_data`: its keys, the last two where they are set. -/
structure UserData where
  user : DomainUser
  stripeCustomer : Option ExportedCustomer
  subscription : Option Subscription
deriving DecidableEq

/-- pydantic's `EmailStr` is a parameter: an address, as it is normalised, or an error. -/
abbrev EmailStr := String → Py String

variable (emailStr : EmailStr)

/-- `DjangoUserRepository._to_domain`. -/
def DomainUser.ofRow (user : User) (profile : Profile) : Py DomainUser := do
  let email ← emailStr user.email
  return {
    id := user.id
    email
    fullName := user.fullName
    avatarUrl := profile.avatarUrl
    preferredLocale := profile.preferredLocale
    preferredCurrency := user.preferredCurrency
    pronouns := profile.pronouns
    isVerified := profile.isVerified
    createdAt := profile.createdAt
    updatedAt := profile.updatedAt }

/-- `DjangoUserRepository.get_by_id`. -/
def ProfileDb.getById (s : ProfileDb) (userId : UUID) : Py (Option DomainUser) :=
  match s.db.userById userId with
  | none => return none
  | some user => some <$> DomainUser.ofRow emailStr user (s.profile userId)

/-- `_load_user_and_customer`. -/
def ProfileDb.loadUserAndCustomer (s : ProfileDb) (userId : UUID) :
    Py (DomainUser × Option StripeCustomer) := do
  match ← s.getById emailStr userId with
  | none => throw (.userNotFound ("User " ++ uuidText userId ++ " not found"))
  | some user => return (user, s.db.customerByUserId userId)

/-- `export_user_data`. -/
def exportUserData (s : ProfileDb) (userId : UUID) : Py UserData := do
  let (user, customer) ← s.loadUserAndCustomer emailStr userId
  return {
    user
    stripeCustomer := customer.map fun c => ⟨c.stripeId, c.livemode, c.createdAt⟩
    subscription := customer.bind fun c => s.db.latestActive c.id }

variable {emailStr}

/-! ## Two databases that differ in one user's data -/

/-- An active subscription of the user: their own, or one of their customer. -/
def Db.IsActiveOf (db : Db) (userId : UUID) (sub : Subscription) : Prop :=
  sub.status.isActive = true ∧ (sub.userId = some userId ∨
    ∃ c ∈ db.customers.rows, c.userId = some userId ∧ sub.stripeCustomerId = some c.id)

/-- The databases are the same but for the personal data of one user: the columns of the
account that the user can set, and the user's active subscriptions. -/
structure SameBut (userId : UUID) (s t : ProfileDb) : Prop where
  tables : { t.db.toTables with
    users := s.db.users, subscriptions := s.db.subscriptions } = s.db.toTables
  users : ∀ id, id ≠ userId → t.db.userById id = s.db.userById id
  profiles : ∀ id, id ≠ userId → t.profile id = s.profile id
  isVerified : (t.profile userId).isVerified = (s.profile userId).isVerified
  createdAt : (t.profile userId).createdAt = (s.profile userId).createdAt
  updatedAt : (t.profile userId).updatedAt = (s.profile userId).updatedAt
  subscriptions : ∀ sub, ¬ s.db.IsActiveOf userId sub →
    (sub ∈ t.db.subscriptions.rows ↔ sub ∈ s.db.subscriptions.rows)

/-- The databases differ in the user's personal data. -/
def DiffersInPersonal (userId : UUID) (user user' : User) (s t : ProfileDb) : Prop :=
  user ≠ user' ∨ s.profile userId ≠ t.profile userId ∨
    ∃ sub, s.db.IsActiveOf userId sub ∧
      ¬ (sub ∈ t.db.subscriptions.rows ↔ sub ∈ s.db.subscriptions.rows)

/-- The databases differ in what the domain object has of the user, or in the latest
active subscription of the user's customer. -/
def DiffersInExported (emailStr : EmailStr) (userId : UUID) (user user' : User)
    (s t : ProfileDb) : Prop :=
  emailStr user.email ≠ emailStr user'.email ∨
  (∃ address, emailStr user.email = .ok address) ∧
    (user.fullName ≠ user'.fullName ∨ user.preferredCurrency ≠ user'.preferredCurrency ∨
    (s.profile userId).avatarUrl ≠ (t.profile userId).avatarUrl ∨
    (s.profile userId).preferredLocale ≠ (t.profile userId).preferredLocale ∨
    (s.profile userId).pronouns ≠ (t.profile userId).pronouns ∨
    ∃ c ∈ s.db.customers.rows, c.userId = some userId ∧
      s.db.latestActive c.id ≠ t.db.latestActive c.id)

section Export

variable {s t : ProfileDb} {userId : UUID} {user user' : User}

/-- The export of a user that there is, by the address that goes out. -/
def exported (s : ProfileDb) (userId : UUID) (user : User) (email : String) : UserData where
  user :=
    { id := user.id
      email
      fullName := user.fullName
      avatarUrl := (s.profile userId).avatarUrl
      preferredLocale := (s.profile userId).preferredLocale
      preferredCurrency := user.preferredCurrency
      pronouns := (s.profile userId).pronouns
      isVerified := (s.profile userId).isVerified
      createdAt := (s.profile userId).createdAt
      updatedAt := (s.profile userId).updatedAt }
  stripeCustomer := (s.db.customerByUserId userId).map fun c => ⟨c.stripeId, c.livemode, c.createdAt⟩
  subscription := (s.db.customerByUserId userId).bind fun c => s.db.latestActive c.id

theorem exportUserData_of_user (h : s.db.userById userId = some user) :
    exportUserData emailStr s userId = exported s userId user <$> emailStr user.email := by
  unfold exportUserData ProfileDb.loadUserAndCustomer ProfileDb.getById DomainUser.ofRow
  rw [h]
  dsimp only
  cases emailStr user.email <;> rfl

theorem SameBut.customers (h : SameBut userId s t) : t.db.customers = s.db.customers :=
  (congrArg Tables.customers h.tables :)

/-- Of a user with the address that goes out, everything else that is exported is the
same exactly when it is the same in both databases. -/
theorem exported_eq_iff (h : SameBut userId s t) (hid : user.id = user'.id) {email email' : String} :
    exported s userId user email = exported t userId user' email' ↔ email = email' ∧
      user.fullName = user'.fullName ∧ user.preferredCurrency = user'.preferredCurrency ∧
      (s.profile userId).avatarUrl = (t.profile userId).avatarUrl ∧
      (s.profile userId).preferredLocale = (t.profile userId).preferredLocale ∧
      (s.profile userId).pronouns = (t.profile userId).pronouns ∧
      ∀ c ∈ s.db.customers.rows, c.userId = some userId →
        s.db.latestActive c.id = t.db.latestActive c.id := by
  have hcustomer : t.db.customerByUserId userId = s.db.customerByUserId userId := by
    unfold Db.customerByUserId
    rw [h.customers]
  have hsubscription : ((s.db.customerByUserId userId).bind fun c => s.db.latestActive c.id) =
      ((s.db.customerByUserId userId).bind fun c => t.db.latestActive c.id) ↔
      ∀ c ∈ s.db.customers.rows, c.userId = some userId →
        s.db.latestActive c.id = t.db.latestActive c.id := by
    cases hfound : s.db.customerByUserId userId with
    | none =>
        refine iff_of_true rfl fun c hc hown => ?_
        rw [Db.customerByUserId_eq_some.mpr ⟨hc, hown⟩] at hfound
        cases hfound
    | some c =>
        constructor
        · intro hsame c' hc' hown
          rw [Db.customerByUserId_eq_some.mpr ⟨hc', hown⟩] at hfound
          cases hfound
          exact hsame
        · intro hsame
          have hfound' := Db.customerByUserId_eq_some.mp hfound
          exact hsame c hfound'.1 hfound'.2
  rw [exported, exported, hcustomer, h.isVerified, h.createdAt, h.updatedAt]
  simp only [UserData.mk.injEq, DomainUser.mk.injEq, hid, hsubscription, true_and, and_true]
  tauto

/-- Two databases that differ in nothing but a user's personal data give different exports
if and only if they differ in the exported part of it. -/
theorem exports_differ_iff (h : SameBut userId s t) (huser : s.db.userById userId = some user)
    (huser' : t.db.userById userId = some user') :
    exportUserData emailStr s userId ≠ exportUserData emailStr t userId ↔
      DiffersInExported emailStr userId user user' s t := by
  have hid : ∀ {db : Db} {u : User}, db.userById userId = some u → u.id = userId := by
    intro db u hfound
    exact beq_iff_eq.mp (Table.mem_of_find? hfound).2
  have hsame : user.id = user'.id := (hid huser).trans (hid huser').symm
  rw [exportUserData_of_user huser, exportUserData_of_user huser', DiffersInExported]
  cases hvalid : emailStr user.email with
  | error e =>
      cases hvalid' : emailStr user'.email with
      | error e' => simp
      | ok address' => simp
  | ok address =>
      cases hvalid' : emailStr user'.email with
      | error e' => simp
      | ok address' =>
          show ¬ Except.ok (exported s userId user address) =
            .ok (exported t userId user' address') ↔ _
          rw [Except.ok.injEq, exported_eq_iff h hsame]
          simp only [not_and_or, not_forall, ne_eq, Except.ok.injEq, exists_eq', true_and,
            exists_prop]

end Export

/-! ## A column that does not go through -/

def plainProfile : Profile where
  avatarUrl := none
  preferredLocale := "en"
  phonePrefix := none
  phone := none
  timezone := none
  jobTitle := none
  pronouns := none
  bio := none
  isVerified := true
  createdAt := 0
  updatedAt := 0

/-- The buyer's account. -/
def withBuyerProfile (profile : Profile) : ProfileDb where
  db := subscribedDb
  profile := Function.update (fun _ => plainProfile) buyer.id profile

theorem sameBut_withBuyerProfile {profile : Profile}
    (hverified : profile.isVerified = plainProfile.isVerified)
    (hcreated : profile.createdAt = plainProfile.createdAt)
    (hupdated : profile.updatedAt = plainProfile.updatedAt) :
    SameBut buyer.id (withBuyerProfile plainProfile) (withBuyerProfile profile) where
  tables := rfl
  users _ _ := rfl
  profiles id hid := by
    show Function.update (fun _ => plainProfile) buyer.id profile id =
      Function.update (fun _ => plainProfile) buyer.id plainProfile id
    rw [Function.update_of_ne hid, Function.update_of_ne hid]
  isVerified := by simpa [withBuyerProfile] using hverified
  createdAt := by simpa [withBuyerProfile] using hcreated
  updatedAt := by simpa [withBuyerProfile] using hupdated
  subscriptions _ _ := Iff.rfl

theorem userById_subscribedDb : subscribedDb.userById buyer.id = some buyer := by decide +kernel

/-- Pronouns are exported. -/
theorem exports_differ_pronouns :
    exportUserData .ok (withBuyerProfile plainProfile) buyer.id ≠
      exportUserData .ok (withBuyerProfile { plainProfile with pronouns := some "they" })
        buyer.id := by
  have hsame : SameBut buyer.id (withBuyerProfile plainProfile)
      (withBuyerProfile { plainProfile with pronouns := some "they" }) :=
    sameBut_withBuyerProfile rfl rfl rfl
  refine (exports_differ_iff hsame userById_subscribedDb userById_subscribedDb).mpr ?_
  refine Or.inr ⟨⟨buyer.email, rfl⟩, Or.inr (Or.inr (Or.inr (Or.inr (Or.inl ?_))))⟩
  decide +kernel

/-- A job title is not. -/
theorem not_exports_differ :
    ¬ ∀ (emailStr : EmailStr) (userId : UUID) (user user' : User) (s t : ProfileDb),
      SameBut userId s t → s.db.userById userId = some user → t.db.userById userId = some user' →
      DiffersInPersonal userId user user' s t →
      exportUserData emailStr s userId ≠ exportUserData emailStr t userId := by
  intro hclaim
  refine hclaim .ok buyer.id buyer buyer (withBuyerProfile plainProfile)
    (withBuyerProfile { plainProfile with jobTitle := some "engineer" })
    (sameBut_withBuyerProfile rfl rfl rfl) userById_subscribedDb userById_subscribedDb ?_ ?_
  · exact Or.inr (Or.inl (by decide +kernel))
  · decide +kernel

end Saasmint
