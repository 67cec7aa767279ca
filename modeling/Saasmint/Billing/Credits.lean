import Saasmint.Orgs.Checkout

/-!
# Credits for product purchases

`grant_credits_for_session` is one transaction keyed by the checkout session:
the ledger row is inserted first, and a session that already has one is skipped
before the balance is touched.
-/

namespace Saasmint

open Relational Handler

variable {σ : Type}

/-- Who a balance or a transaction belongs to. -/
structure CreditOwner where
  userId : Option UUID
  orgId : Option UUID
deriving DecidableEq

def CreditOwner.ofBalance (b : CreditBalance) : CreditOwner := ⟨b.userId, b.orgId⟩

def newBalance (rt : Runtime σ) (owner : CreditOwner) : CreditBalance where
  id := rt.balanceId
  userId := owner.userId
  orgId := owner.orgId
  balance := 0
  createdAt := rt.now
  updatedAt := rt.now

def newTransaction (rt : Runtime σ) (stripeSessionId : String) (amount : Int) (reason : String)
    (owner : CreditOwner) : CreditTransaction where
  id := rt.transactionId
  userId := owner.userId
  orgId := owner.orgId
  amount := amount
  reason := reason
  stripeSessionId := some stripeSessionId
  createdAt := rt.now

/-- `CreditBalance.objects.get_or_create(owner, balance=0)` and the increment. -/
def addToBalance (rt : Runtime σ) (db : Db) (owner : CreditOwner) (amount : Int) :
    Py (Table CreditBalance) := do
  let balances ← match db.creditBalances.find? fun b => CreditOwner.ofBalance b == owner with
    | some _ => pure db.creditBalances
    | none => insertRow db.creditBalances (newBalance rt owner)
  if balances.rows.any fun b =>
      CreditOwner.ofBalance b == owner && !fitsInteger (b.balance + amount) then
    throw (.data "integer out of range")
  match balances.update? (fun b => CreditOwner.ofBalance b == owner)
      fun b => { b with balance := b.balance + amount, updatedAt := rt.now } with
  | some balances => pure balances
  | none => throw (.integrity "violates check constraint")

/-- `grant_credits_for_session`: whether credits were granted, and the database
after the transaction. -/
def grantCreditsForSession (rt : Runtime σ) (stripeSessionId : String) (amount : Int)
    (reason : String) (owner : CreditOwner) (db : Db) : Py (Bool × Db) := do
  if owner.userId.isNone = owner.orgId.isNone then
    throw (.valueError "Exactly one of user or org must be provided.")
  if amount ≤ 0 then
    throw (.valueError "grant_credits_for_session requires a positive amount.")
  let entry := newTransaction rt stripeSessionId amount reason owner
  if !entry.fits then throw (.data "value too long for column type")
  match db.creditTransactions.insert? entry with
  | none => return (false, db)
  | some transactions =>
      let balances ← addToBalance rt db owner amount
      let db ← Db.commit
        { db.toTables with creditTransactions := transactions, creditBalances := balances }
      return (true, db)

/-- What the transaction does when it commits: it skips a session, or it inserts the
ledger row and moves the balance. -/
theorem grantCreditsForSession_eq_ok {rt : Runtime σ} {stripeSessionId reason : String}
    {amount : Int} {owner : CreditOwner} {db db' : Db} {granted : Bool}
    (h : grantCreditsForSession rt stripeSessionId amount reason owner db = .ok (granted, db')) :
    oneOwner owner.userId owner.orgId ∧ 0 < amount ∧
      ((granted = false ∧ db' = db ∧ db.creditTransactions.insert?
          (newTransaction rt stripeSessionId amount reason owner) = none) ∨
        (granted = true ∧ db'.creditTransactions.rows = db.creditTransactions.rows ++
            [newTransaction rt stripeSessionId amount reason owner] ∧
          addToBalance rt db owner amount = .ok db'.creditBalances ∧
          db'.toTables = { db.toTables with
            creditTransactions := db'.creditTransactions
            creditBalances := db'.creditBalances })) := by
  unfold grantCreditsForSession at h
  simp only [throw_eq_error, error_bind] at h
  split at h
  next => cases h
  next howner =>
    split at h
    next => cases h
    next hamount =>
      have hone : oneOwner owner.userId owner.orgId := by
        intro hsame
        apply howner
        rw [← Option.not_isSome, ← Option.not_isSome, hsame]
      refine ⟨hone, by omega, ?_⟩
      split at h
      next => cases h
      next =>
        split at h
        next hinsert =>
          cases h
          exact Or.inl ⟨rfl, rfl, hinsert⟩
        next transactions hinsert =>
          obtain ⟨balances, hbalances, h⟩ := bind_eq_ok.mp h
          obtain ⟨db'', hcommit, h⟩ := bind_eq_ok.mp h
          cases h
          rw [Db.commit_eq_ok.mp hcommit]
          exact Or.inr ⟨rfl, Table.rows_insert? hinsert, hbalances, rfl⟩

/-- `on_product_checkout_completed`; an unknown product or owner is skipped. -/
def onProductCheckoutCompleted (rt : Runtime σ) (stripeSessionId : String)
    (productId userId : UUID) (orgId : Option UUID) : Handler σ Unit := do
  let some product ← query fun db => db.productById productId | return
  if product.credits ≤ 0 then return
  let reason := "purchase:" ++ product.name
  match orgId with
  | some orgId =>
      let some org ← query fun db => db.orgById orgId | return
      let _ ← transaction
        (grantCreditsForSession rt stripeSessionId product.credits reason ⟨none, some org.id⟩)
  | none =>
      let some user ← query fun db => db.userById userId | return
      let _ ← transaction
        (grantCreditsForSession rt stripeSessionId product.credits reason ⟨some user.id, none⟩)

/-- What a product purchase grants: the amount, the reason and the owner. -/
def productGrant (db : Db) (productId userId : UUID) (orgId : Option UUID) :
    Option (Int × String × CreditOwner) := do
  let product ← db.productById productId
  if product.credits ≤ 0 then none
  else
    let owner : CreditOwner ← match orgId with
      | some orgId => (db.orgById orgId).map fun org => ⟨none, some org.id⟩
      | none => (db.userById userId).map fun user => ⟨some user.id, none⟩
    return (product.credits, "purchase:" ++ product.name, owner)

/-- Alone, a product purchase is at most one grant. -/
theorem exec_onProductCheckoutCompleted (rt : Runtime σ) (stripeSessionId : String)
    (productId userId : UUID) (orgId : Option UUID) (w : World σ) :
    Atomic.Fallible.exec (onProductCheckoutCompleted rt stripeSessionId productId userId orgId) w =
      match productGrant w.db productId userId orgId with
      | none => (.ok (), w)
      | some (amount, reason, owner) => settle w
          ((fun outcome => ((), outcome.2)) <$>
            grantCreditsForSession rt stripeSessionId amount reason owner w.db) := by
  have hgrant : ∀ amount reason owner, Atomic.Fallible.exec (do
      let _ ← transaction (grantCreditsForSession rt stripeSessionId amount reason owner)) w =
        settle w ((fun outcome => ((), outcome.2)) <$>
          grantCreditsForSession rt stripeSessionId amount reason owner w.db) := by
    intro amount reason owner
    rw [Atomic.Fallible.exec_bind, exec_transaction]
    rcases grantCreditsForSession rt stripeSessionId amount reason owner w.db with e | ⟨_, _⟩
    · rfl
    · rfl
  unfold onProductCheckoutCompleted productGrant
  simp only [Atomic.Fallible.exec_bind, exec_query, Atomic.Fallible.resume_ok]
  cases w.db.productById productId with
  | none => rfl
  | some product =>
      simp only [Option.bind_eq_bind, Option.bind_some]
      by_cases hcredits : product.credits ≤ 0
      · rw [if_pos hcredits, if_pos hcredits]
        rfl
      · rw [if_neg hcredits, if_neg hcredits]
        cases orgId with
        | none =>
            simp only [Atomic.Fallible.exec_bind, exec_query, Atomic.Fallible.resume_ok]
            cases w.db.userById userId with
            | none => rfl
            | some user => exact hgrant _ _ _
        | some orgId =>
            simp only [Atomic.Fallible.exec_bind, exec_query, Atomic.Fallible.resume_ok]
            cases w.db.orgById orgId with
            | none => rfl
            | some org => exact hgrant _ _ _

end Saasmint
