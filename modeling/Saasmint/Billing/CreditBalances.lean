import Saasmint.Billing.Contexts
import Saasmint.Billing.Purchases

/-!
# The credits that are shown

`GET /credits/me/` asks for the caller's first membership and then, with one query, for the
balance rows of the caller and of that org; which row is whose is decided afterwards.

Purchases may be stored between the two queries.  What is shown is the ledger at the moment
of the second one (`credits_shown`): a balance that is listed is the sum of the owner's
transactions, and an owner who is left out either is not asked for or has nothing to show.
-/

namespace Saasmint

open Atomic Relational

variable {σ : Type}

/-! ## The view -/

/-- One of the `balances`. -/
structure CreditEntry where
  balance : Int
  scope : String
deriving DecidableEq, Repr

/-- What the first query and the parameter decide. -/
structure CreditScope where
  userId : UUID
  orgId : Option UUID
  context : Option PlanContext
deriving DecidableEq

/-- `CreditBalance.objects.filter(predicate)`. -/
def Db.creditRows (db : Db) (scope : CreditScope) : List CreditBalance :=
  db.creditBalances.filter fun b => b.userId == some scope.userId ||
    (scope.orgId.isSome && scope.context != some .personal && b.orgId == scope.orgId)

/-- `next((r.balance for r in rows if …), 0)`. -/
def balanceWhere (rows : List CreditBalance) (selected : CreditBalance → Bool) : Int :=
  ((rows.find? selected).map CreditBalance.balance).getD 0

/-- The entries, of the rows that were found. -/
def CreditScope.entries (scope : CreditScope) (rows : List CreditBalance) : List CreditEntry :=
  let ofUser := balanceWhere rows fun b => b.userId == some scope.userId
  let ofOrg := balanceWhere rows fun b => b.orgId == scope.orgId
  match scope.context with
  | some .personal => [⟨ofUser, "user"⟩]
  | some .team => [⟨ofOrg, "org"⟩]
  | none =>
      if scope.orgId.isSome then
        ⟨ofOrg, "org"⟩ :: if 0 < ofUser then [⟨ofUser, "user"⟩] else []
      else [⟨ofUser, "user"⟩]

namespace Session

/-- `CreditBalanceView.get`, up to the query for the rows. -/
def creditScope (userId : UUID) (context : Option String) : Session σ CreditScope := do
  let context ← lift (validateSubscriptionContext context)
  let membership ← select fun db => db.firstMembership userId
  let orgId := membership.map OrgMember.orgId
  if context = some .team ∧ orgId = none then
    throw (.notFound "Caller is not a member of any organization.")
  else return ⟨userId, orgId, context⟩

/-- The rest of it. -/
def creditEntries (scope : CreditScope) : Session σ (List CreditEntry) := do
  let rows ← select fun db => db.creditRows scope
  return scope.entries rows

end Session

/-! ## What the ledger says -/

/-- The entries, of the sums of the ledger. -/
def CreditScope.ledgerEntries (scope : CreditScope) (db : Db) : List CreditEntry :=
  let ofUser : CreditEntry := ⟨db.granted ⟨some scope.userId, none⟩, "user"⟩
  let ofOrg (orgId : UUID) : CreditEntry := ⟨db.granted ⟨none, some orgId⟩, "org"⟩
  match scope.context, scope.orgId with
  | some .personal, _ | none, none => [ofUser]
  | some .team, none => []
  | some .team, some orgId => [ofOrg orgId]
  | none, some orgId => ofOrg orgId :: if 0 < ofUser.balance then [ofUser] else []

/-- The scope is one of the caller's: an org they are a member of, or none at all, which no
team request ends with. -/
structure CreditScope.Of (scope : CreditScope) (db : Db) (userId : UUID) : Prop where
  user : scope.userId = userId
  member : ∀ orgId, scope.orgId = some orgId →
    ∃ m ∈ db.members.rows, m.userId = userId ∧ m.orgId = orgId
  team : scope.context = some .team → scope.orgId ≠ none

theorem creditScope_eq_ok {userId : UUID} {context : Option String} {scope : CreditScope}
    {w w' : World σ}
    (h : Fallible.exec (Session.creditScope userId context) w = (.ok scope, w')) :
    scope.Of w.db userId := by
  unfold Session.creditScope at h
  obtain ⟨context, -, h⟩ := Session.exec_lift_bind_eq_ok.mp h
  rw [Session.exec_select_bind] at h
  dsimp only at h
  split at h
  · cases h
  next hteam =>
      cases h
      refine ⟨rfl, fun orgId horg => ?_, fun hcontext hnone => hteam ⟨hcontext, hnone⟩⟩
      obtain ⟨m, hm, rfl⟩ := Option.map_eq_some_iff.mp horg
      obtain ⟨hmem, huser⟩ := mem_of_firstMembership hm
      exact ⟨m, hmem, huser, rfl⟩

/-! ## Whose row it is -/

section Rows

variable {db : Db} {scope : CreditScope}

/-- A balance row that is the user's is no org's. -/
theorem ofBalance_of_user {b : CreditBalance} {userId : UUID} (hb : b ∈ db.creditBalances.rows) :
    b.userId = some userId ↔ CreditOwner.ofBalance b = ⟨some userId, none⟩ := by
  have hone : oneOwner b.userId b.orgId := (db.creditBalances.check_of_mem hb).1
  unfold oneOwner at hone
  simp only [CreditOwner.ofBalance, CreditOwner.mk.injEq]
  refine ⟨fun huser => ⟨huser, ?_⟩, fun h => h.1⟩
  cases horg : b.orgId with
  | none => rfl
  | some orgId => simp [huser, horg] at hone

theorem ofBalance_of_org {b : CreditBalance} {orgId : UUID} (hb : b ∈ db.creditBalances.rows) :
    b.orgId = some orgId ↔ CreditOwner.ofBalance b = ⟨none, some orgId⟩ := by
  have hone : oneOwner b.userId b.orgId := (db.creditBalances.check_of_mem hb).1
  unfold oneOwner at hone
  simp only [CreditOwner.ofBalance, CreditOwner.mk.injEq]
  refine ⟨fun horg => ⟨?_, horg⟩, fun h => h.2⟩
  cases huser : b.userId with
  | none => rfl
  | some userId => simp [huser, horg] at hone

/-- What is selected among the rows that were found is the balance of its owner. -/
theorem balanceWhere_eq {owner : CreditOwner} {selected found : CreditBalance → Bool}
    (hselected : ∀ b ∈ db.creditBalances.rows,
      selected b = true ↔ CreditOwner.ofBalance b = owner)
    (hfound : ∀ b, selected b = true → found b = true) :
    balanceWhere (db.creditBalances.filter found) selected = db.credits owner := by
  unfold balanceWhere Db.credits creditsIn Table.filter
  rw [List.find?_filter, Table.find?, ← List.head?_filter, ← List.head?_filter]
  congr 3
  refine List.filter_congr fun b hb => ?_
  have howner := hselected b hb
  by_cases hb' : selected b = true
  · simp [hb', hfound b hb', howner.mp hb']
  · have hother : CreditOwner.ofBalance b ≠ owner := fun h => hb' (howner.mpr h)
    simp [hb', hother]

theorem userBalance_eq : balanceWhere (db.creditRows scope)
    (fun b => b.userId == some scope.userId) = db.credits ⟨some scope.userId, none⟩ := by
  refine balanceWhere_eq (fun b hb => ?_) fun b hb => ?_
  · rw [beq_iff_eq]
    exact ofBalance_of_user hb
  · rw [hb, Bool.true_or]

variable (db) in
theorem orgBalance_eq {orgId : UUID} (horg : scope.orgId = some orgId)
    (hcontext : scope.context ≠ some .personal) : balanceWhere (db.creditRows scope)
      (fun b => b.orgId == scope.orgId) = db.credits ⟨none, some orgId⟩ := by
  refine balanceWhere_eq (fun b hb => ?_) fun b hb => ?_
  · rw [horg, beq_iff_eq]
    exact ofBalance_of_org hb
  · rw [beq_iff_eq] at hb
    simp [hb, horg, hcontext]

/-- Where balances and ledger agree, the entries are those of the ledger. -/
theorem entries_eq (hledger : Ledger db) {userId : UUID} {db' : Db} (hscope : scope.Of db' userId) :
    scope.entries (db.creditRows scope) = scope.ledgerEntries db := by
  unfold CreditScope.entries CreditScope.ledgerEntries
  rw [userBalance_eq, hledger.balanced]
  cases hcontext : scope.context with
  | none =>
      cases horg : scope.orgId with
      | none => rfl
      | some orgId =>
          have hbalance := orgBalance_eq db horg (by simp [hcontext])
          rw [horg] at hbalance
          simp only [hbalance, hledger.balanced, Option.isSome_some, if_true]
  | some context =>
      cases context with
      | personal => rfl
      | team =>
          cases horg : scope.orgId with
          | none => exact absurd horg (hscope.team hcontext)
          | some orgId =>
              have hbalance := orgBalance_eq db horg (by simp [hcontext])
              rw [horg] at hbalance
              simp only [hbalance, hledger.balanced]

end Rows

/-! ## Among purchases -/

section Runs

variable {ι : Type} [DecidableEq ι]

/-- **The credits that are shown** are the ledger's, in every run of any number of purchases
and wherever in it the two queries are made. -/
theorem credits_shown (purchases : ι → Purchase σ) (w : World σ) (hledger : Ledger w.db)
    (first rest : List (Move ι)) {userId : UUID} {context : Option String} {scope : CreditScope}
    {entries : List CreditEntry} {w₁ w₂ : World σ}
    (hscope : Fallible.exec (Session.creditScope userId context)
      (Runs.run purchaseStep (purchasing w purchases) first).shared = (.ok scope, w₁))
    (hentries : Fallible.exec (Session.creditEntries scope)
      (Runs.run purchaseStep (purchasing w purchases) (first ++ rest)).shared = (.ok entries, w₂)) :
    scope.Of (Runs.run purchaseStep (purchasing w purchases) first).shared.db userId ∧
      entries = scope.ledgerEntries
        (Runs.run purchaseStep (purchasing w purchases) (first ++ rest)).shared.db := by
  have hof := creditScope_eq_ok hscope
  have hkept := (locks_purchasing purchases hledger (first ++ rest)).final.1.ledger
  refine ⟨hof, ?_⟩
  unfold Session.creditEntries at hentries
  rw [Session.exec_select_bind] at hentries
  cases hentries
  exact entries_eq hkept hof

end Runs

/-! ### Between two deliveries -/

/-- The buyer looks when the first delivery is stored and the second is still waiting. -/
theorem credits_shown_redelivered : ∃ entries w', Fallible.exec
    (Session.creditEntries ⟨buyer.id, none, none⟩)
      (Runs.run purchaseStep (purchasing ⟨creditsDb, (), []⟩ redelivered) overlapping).shared =
        (.ok entries, w') ∧ entries = CreditScope.ledgerEntries ⟨buyer.id, none, none⟩
      (Runs.run purchaseStep (purchasing ⟨creditsDb, (), []⟩ redelivered) overlapping).shared.db := by
  have hledger : Ledger creditsDb := Ledger.of_balanced fun _ => rfl
  have hscope : Fallible.exec (Session.creditScope buyer.id none) ⟨creditsDb, (), []⟩ =
      (.ok ⟨buyer.id, none, none⟩, ⟨creditsDb, (), []⟩) := rfl
  refine ⟨_, _, rfl, ?_⟩
  exact (credits_shown redelivered ⟨creditsDb, (), []⟩ hledger [] overlapping hscope rfl).2

end Saasmint
