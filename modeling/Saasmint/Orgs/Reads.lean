import Saasmint.Billing.ActiveSubscriptions
import Saasmint.Billing.CreditBalances
import Saasmint.Billing.SubscriptionView
import Saasmint.Catalog.Display
import Saasmint.Orgs.Invitations

/-!
# Reading

The requests that only read: the orgs of a user, their members and pending invitations, the
invitation behind a token, the credits and the subscriptions.

Each is a few queries, and other requests may act between them.  A member list asks for the
caller's membership, for the number of rows, for the rows of the page, and then for the org of
every single row: the rows come without it.
-/

namespace Saasmint

open Atomic Relational
open RateSync (FloatArithmetic)

variable {σ F : Type}

/-! ## Pages -/

/-- The parameters of a page, where they are numbers. -/
structure PageQuery where
  limit : Option ℕ
  offset : Option ℕ

namespace PageQuery

/-- `get_limit`, by `_DEFAULT_PAGE_SIZE` and `_MAX_PAGE_SIZE`. -/
def size (q : PageQuery) : ℕ :=
  match q.limit with
  | none | some 0 => 50
  | some (n + 1) => min (n + 1) 100

/-- `get_offset`. -/
def start (q : PageQuery) : ℕ := q.offset.getD 0

end PageQuery

/-- `get_paginated_response`; a link is given by its offset. -/
structure Page (α : Type) where
  count : ℕ
  next : Option ℕ
  previous : Option ℕ
  results : List α

def PageQuery.page {α : Type} (q : PageQuery) (count : ℕ) (results : List α) : Page α where
  count := count
  next := if q.start + q.size < count then some (q.start + q.size) else none
  previous := if q.start = 0 then none else some (q.start - q.size)
  results := results

/-- `paginate_queryset`: the number of rows, and those of the page. -/
def Session.paginate {α : Type} (q : PageQuery) (count : Db → ℕ) (rows : Db → List α) :
    Session σ (ℕ × List α) := do
  let count ← select count
  if count = 0 ∨ count < q.start then return (count, [])
  else
    let page ← select fun db => ((rows db).drop q.start).take q.size
    return (count, page)

/-! ## Serializers -/

/-- `OrgSerializer`. -/
structure OrgEntry where
  id : UUID
  name : String
  slug : String
  createdAt : Datetime
deriving DecidableEq, Repr

def OrgEntry.of (org : Org) : OrgEntry := ⟨org.id, org.name, org.slug, org.createdAt⟩

/-- `_MemberUserSerializer`. -/
structure MemberUserEntry where
  id : UUID
  email : String
  fullName : String
deriving DecidableEq, Repr

def MemberUserEntry.of (user : User) : MemberUserEntry := ⟨user.id, user.email, user.fullName⟩

/-- `OrgMemberSerializer`. -/
structure MemberEntry where
  id : UUID
  org : OrgEntry
  user : MemberUserEntry
  role : OrgRole
  isBilling : Bool
  joinedAt : Datetime
deriving DecidableEq, Repr

def MemberEntry.of (m : OrgMember) (user : User) (org : Org) : MemberEntry :=
  ⟨m.id, .of org, .of user, m.role, m.isBilling, m.joinedAt⟩

/-- `_InvitedBySerializer`. -/
structure InvitedByEntry where
  id : UUID
  fullName : String
deriving DecidableEq, Repr

def InvitedByEntry.of (user : User) : InvitedByEntry := ⟨user.id, user.fullName⟩

/-- `PublicInvitationSerializer`. -/
structure PublicInvitationEntry where
  id : UUID
  org : OrgEntry
  role : OrgRole
  status : InvitationStatus
  invitedBy : Option InvitedByEntry
  createdAt : Datetime
  expiresAt : Datetime
deriving DecidableEq, Repr

/-- `InvitationSerializer`. -/
structure InvitationEntry extends PublicInvitationEntry where
  email : String
deriving DecidableEq, Repr

def PublicInvitationEntry.of (i : Invitation) (org : Org) (invitedBy : Option User) :
    PublicInvitationEntry where
  id := i.id
  org := .of org
  role := i.role
  status := i.status
  invitedBy := invitedBy.map InvitedByEntry.of
  createdAt := i.createdAt
  expiresAt := i.expiresAt

def InvitationEntry.of (i : Invitation) (org : Org) (invitedBy : Option User) : InvitationEntry where
  toPublicInvitationEntry := .of i org invitedBy
  email := i.email

/-- `SubscriptionSerializer`. -/
structure SubscriptionEntry (F : Type) where
  id : UUID
  status : SubscriptionStatus
  plan : PlanData F
  seatLimit : Int
  seatsUsed : ℕ
  trialEndsAt : Option Datetime
  currentPeriodStart : Datetime
  currentPeriodEnd : Datetime
  canceledAt : Option Datetime
  cancelAt : Option Datetime
  scheduledPlan : Option (PlanData F)
  scheduledChangeAt : Option Datetime
  currency : String
  createdAt : Datetime

/-! ## What is read -/

namespace Db

variable (db : Db)

/-- `Org.objects.filter(members__user=user)`. -/
def orgsOf (userId : UUID) : List Org :=
  db.orgs.filter fun o => db.members.rows.any fun m => m.orgId == o.id && m.userId == userId

/-- The members of an org with their users. -/
def membersWithUsers (orgId : UUID) : List (OrgMember × User) :=
  (db.membersOf orgId).filterMap fun m => (db.userById m.userId).map fun user => (m, user)

/-- An invitation with its org and whoever has sent it. -/
def withSender (i : Invitation) : Option (Invitation × Org × Option User) :=
  (db.orgById i.orgId).map fun org => (i, org, i.invitedById.bind db.userById)

/-- `get_seats_used`, of the annotated `org_member_count`; an org without members has none. -/
def seatsUsed (s : Subscription) : Option ℕ :=
  match db.customerOrg s with
  | none => some 1
  | some orgId => if db.membersOf orgId = [] then none else some (db.membersOf orgId).length

end Db

section Subscriptions

variable (float : FloatArithmetic F)

def nestedPlan (db : Db) (ctx : CurrencyContext) (planId : UUID) : Py (PlanData F) :=
  match db.planById planId with
  | some plan => planData float db ctx plan
  | none => .error (.doesNotExist "Plan matching query does not exist.")

/-- `SubscriptionSerializer.to_representation`; nothing stands for the `RuntimeError` of an
annotation that is missing. -/
def subscriptionEntry (db : Db) (ctx : CurrencyContext) (s : Subscription) :
    Py (Option (SubscriptionEntry F)) := do
  let plan ← nestedPlan float db ctx s.planId
  match db.seatsUsed s with
  | none => return none
  | some seatsUsed =>
      let scheduledPlan ← match s.scheduledPlanId with
        | none => pure none
        | some planId => some <$> nestedPlan float db ctx planId
      return some {
        id := s.id, status := s.status, plan, seatLimit := s.seatLimit, seatsUsed
        trialEndsAt := s.trialEndsAt, currentPeriodStart := s.currentPeriodStart
        currentPeriodEnd := s.currentPeriodEnd, canceledAt := s.canceledAt
        cancelAt := s.cancelAt, scheduledPlan, scheduledChangeAt := s.scheduledChangeAt
        currency := s.currency, createdAt := s.createdAt }

/-- A row that has been fetched, and what becomes of it. -/
abbrev Fetched (F : Type) := UUID × Py (Option (SubscriptionEntry F))

/-- The newest active subscription of the customer of an org, with what it refers to. -/
def fetchTeam (ctx : CurrencyContext) (orgId : UUID) (db : Db) : Option (Fetched F) :=
  (Db.latest? (db.activeTeamSubs orgId)).map fun s => (s.id, subscriptionEntry float db ctx s)

/-- The newest active subscription of the user, or of their own customer. -/
def fetchPersonal (ctx : CurrencyContext) (userId : UUID) (db : Db) : Option (Fetched F) :=
  (Db.latest? (db.personalSubscriptions userId)).map fun s =>
    (s.id, subscriptionEntry float db ctx s)

/-- All of them, up to the first that is not serialized. -/
def serializeAll : List (Fetched F) → Py (Option (List (SubscriptionEntry F)))
  | [] => .ok (some [])
  | fetched :: rest => do
      match ← fetched.2 with
      | none => return none
      | some data => (Option.map (data :: ·)) <$> serializeAll rest

end Subscriptions

/-! ## The requests -/

/-- Every role, where a view allows any. -/
def anyRole : List OrgRole := [.owner, .admin, .member]

namespace Session

/-- `OrgListView.get`; `collate` is the order of names. -/
def listOrgs (collate : String → String → Bool) (userId : UUID) (q : PageQuery) :
    Session σ (Page OrgEntry) := do
  let (count, orgs) ← paginate q (fun db => (db.orgsOf userId).length) fun db =>
    (db.orgsOf userId).insertionSort fun a b => collate a.name b.name
  return q.page count (orgs.map OrgEntry.of)

/-- `OrgDetailView.get`. -/
def getOrg (userId orgId : UUID) : Session σ OrgEntry := do
  let (org, _) ← getOrgAndMember userId orgId anyRole
  return .of org

/-- `OrgMemberSerializer` of the rows of a page; the org of each is fetched on its own. -/
def memberRows : List (OrgMember × User) → Session σ (List MemberEntry)
  | [] => return []
  | (m, user) :: rest => do
      let some org ← select fun db => db.orgById m.orgId
        | throw (.doesNotExist "Org matching query does not exist.")
      let rest ← memberRows rest
      return .of m user org :: rest

/-- `OrgMemberListView.get`. -/
def listMembers (userId orgId : UUID) (q : PageQuery) : Session σ (Page MemberEntry) := do
  let _ ← getOrgAndMember userId orgId anyRole
  let (count, rows) ← paginate q (fun db => (db.membersOf orgId).length) fun db =>
    (db.membersWithUsers orgId).insertionSort fun a b => a.1.joinedAt ≤ b.1.joinedAt
  let results ← memberRows rows
  return q.page count results

/-- `InvitationListCreateView.get`. -/
def listInvitations (userId orgId : UUID) (q : PageQuery) : Session σ (Page InvitationEntry) := do
  let _ ← getOrgAndMember userId orgId adminOrAbove
  let (count, rows) ← paginate q (fun db => (db.pendingOf orgId).length) fun db =>
    ((db.pendingOf orgId).filterMap db.withSender).insertionSort fun a b =>
      b.1.createdAt ≤ a.1.createdAt
  return q.page count (rows.map fun (i, org, invitedBy) => .of i org invitedBy)

/-- `InvitationDetailView.get`. -/
def getInvitation (token : String) : Session σ PublicInvitationEntry := do
  let some (i, org, invitedBy) ← select fun db => (db.pendingByToken token).bind db.withSender
    | throw (.notFound "No Invitation matches the given query.")
  return .of i org invitedBy

/-- `CreditBalanceView.get`. -/
def listCredits (userId : UUID) (context : Option String) : Session σ (List CreditEntry) := do
  let scope ← creditScope userId context
  creditEntries scope

variable (float : FloatArithmetic F)

/-- The subscription of the org of a membership, if there is one. -/
def fetchTeamOf (ctx : CurrencyContext) : Option OrgMember → Session σ (Option (Fetched F))
  | none => return none
  | some m => select (fetchTeam float ctx m.orgId)

/-- `_get_active_subscriptions_for_user`, with what is shown of the rows. -/
def fetchSubscriptions (ctx : CurrencyContext) (userId : UUID) : Session σ (List (Fetched F)) := do
  let membership ← select fun db => db.firstMembership userId
  let teamSub ← fetchTeamOf float ctx membership
  let latestPersonal ← select (fetchPersonal float ctx userId)
  let seen := teamSub.toList
  return seen ++ (latestPersonal.filter fun s => seen.all fun t => t.1 != s.1).toList

/-- `SubscriptionView.get`; nothing stands for the `RuntimeError`. -/
def listSubscriptions (currencies : Currencies) (user : User) (queryCurrency : Option String) :
    Session σ (Option (CatalogEnvelope (SubscriptionEntry F))) := do
  let ctx ← lift (currencyContext currencies queryCurrency (some user))
  let subs ← fetchSubscriptions float ctx user.id
  let data ← lift (serializeAll subs)
  return data.map catalogEnvelope

end Session

/-- A request that reads; but for the last, it is the caller's. -/
inductive ReadRequest
  | orgs (page : PageQuery)
  | org (orgId : UUID)
  | members (orgId : UUID) (page : PageQuery)
  | invitations (orgId : UUID) (page : PageQuery)
  | credits (context : Option String)
  | subscriptions (queryCurrency : Option String)
  | invitation (token : String)

inductive ReadAnswer (F : Type)
  | orgs (page : Page OrgEntry)
  | org (org : OrgEntry)
  | members (page : Page MemberEntry)
  | invitations (page : Page InvitationEntry)
  | credits (balances : List CreditEntry)
  | subscriptions (envelope : Option (CatalogEnvelope (SubscriptionEntry F)))
  | invitation (invitation : PublicInvitationEntry)

/-- What the views are given by the settings and by the database. -/
structure ReadSettings (F : Type) where
  float : FloatArithmetic F
  currencies : Currencies
  collate : String → String → Bool

def ReadRequest.session (settings : ReadSettings F) (caller : User) :
    ReadRequest → Session σ (ReadAnswer F)
  | orgs page => .orgs <$> Session.listOrgs settings.collate caller.id page
  | org orgId => .org <$> Session.getOrg caller.id orgId
  | members orgId page => .members <$> Session.listMembers caller.id orgId page
  | invitations orgId page => .invitations <$> Session.listInvitations caller.id orgId page
  | credits context => .credits <$> Session.listCredits caller.id context
  | subscriptions queryCurrency => .subscriptions <$>
      Session.listSubscriptions settings.float settings.currencies caller queryCurrency
  | invitation token => .invitation <$> Session.getInvitation token

end Saasmint
