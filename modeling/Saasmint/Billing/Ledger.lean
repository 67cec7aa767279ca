import Saasmint.Billing.Sessions
import Saasmint.Data.Sessions

/-!
# The credit ledger

`grant_credits_for_session` statement by statement: the ledger row is inserted
first and waits for any other run that is inserting one for the same session;
the balance row is then locked, or inserted and locked, before it is read.

`Ledger` says that the balances are the sums of the ledger.  `commit_grants`
connects the two levels: what a run stores when it commits is what the
transaction as one step would store in the database as it is then.
-/

namespace Saasmint

open Atomic Relational

variable {σ : Type}

/-! ## The ledger -/

def Db.creditBalanceOf (db : Db) (owner : CreditOwner) : Option CreditBalance :=
  db.creditBalances.find? fun b => CreditOwner.ofBalance b == owner

def CreditOwner.ofTransaction (t : CreditTransaction) : CreditOwner := ⟨t.userId, t.orgId⟩

/-- The balance of an owner; no row is no credits. -/
def creditsIn (balances : Table CreditBalance) (owner : CreditOwner) : Int :=
  ((balances.find? fun b => CreditOwner.ofBalance b == owner).map CreditBalance.balance).getD 0

def Db.credits (db : Db) (owner : CreditOwner) : Int := creditsIn db.creditBalances owner

/-- The sum of the owner's transactions. -/
def Db.granted (db : Db) (owner : CreditOwner) : Int :=
  ((db.creditTransactions.filter fun t => CreditOwner.ofTransaction t == owner).map
    CreditTransaction.amount).sum

/-- The transactions of a checkout session. -/
def Db.transactionsOf (db : Db) (stripeSessionId : String) : List CreditTransaction :=
  db.creditTransactions.filter fun t => t.stripeSessionId == some stripeSessionId

/-- Balances and ledger agree, a session is in the ledger at most once, and every
row has exactly one owner. -/
structure Ledger (db : Db) : Prop where
  balanced : ∀ owner, db.credits owner = db.granted owner
  once : ∀ stripeSessionId, (db.transactionsOf stripeSessionId).length ≤ 1
  balanceOwner : ∀ b ∈ db.creditBalances.rows, oneOwner b.userId b.orgId
  transactionOwner : ∀ t ∈ db.creditTransactions.rows, oneOwner t.userId t.orgId

/-- The constraints leave only the sums to be shown. -/
theorem Ledger.of_balanced {db : Db} (h : ∀ owner, db.credits owner = db.granted owner) :
    Ledger db where
  balanced := h
  once := by
    intro stripeSessionId
    have hpairs := db.creditTransactions.valid.2.filter
      fun t => t.stripeSessionId == some stripeSessionId
    unfold Db.transactionsOf Table.filter
    rcases hrows : db.creditTransactions.rows.filter
        (fun t => t.stripeSessionId == some stripeSessionId) with _ | ⟨t, _ | ⟨t', rest⟩⟩
    · rw [hrows]
      exact Nat.zero_le 1
    · rw [hrows]
      exact Nat.le_refl 1
    · rw [hrows] at hpairs
      have hmem : ∀ u ∈ t :: t' :: rest, u.stripeSessionId = some stripeSessionId := by
        intro u hu
        rw [← hrows] at hu
        exact beq_iff_eq.mp (List.mem_filter.mp hu).2
      have ht := hmem t (by simp)
      have ht' := hmem t' (by simp)
      have hclash : Row.clash t t' := Or.inr ⟨by rw [ht]; rfl, ht.trans ht'.symm⟩
      exact absurd hclash ((List.pairwise_cons.mp hpairs).1 t' (by simp))
  balanceOwner b hb := (db.creditBalances.check_of_mem hb).1
  transactionOwner t ht := (db.creditTransactions.check_of_mem ht).1

/-! ### Balances by owner -/

theorem CreditBalance.eq_of_owner {balances : Table CreditBalance} {a b : CreditBalance}
    (ha : a ∈ balances.rows) (hb : b ∈ balances.rows)
    (h : CreditOwner.ofBalance a = CreditOwner.ofBalance b) : a = b := by
  have hone : oneOwner a.userId a.orgId := (balances.check_of_mem ha).1
  simp only [CreditOwner.ofBalance, CreditOwner.mk.injEq] at h
  refine balances.eq_of_clash ha hb (Or.inr ?_)
  by_cases huser : a.userId.isSome
  · exact Or.inl ⟨huser, h.1⟩
  · refine Or.inr ⟨?_, h.2⟩
    unfold oneOwner at hone
    rw [Bool.not_eq_true] at huser
    rw [huser] at hone
    exact (Bool.not_eq_false _).mp hone.symm

theorem creditBalanceOf_eq_some {balances : Table CreditBalance} {owner : CreditOwner}
    {b : CreditBalance} :
    (balances.find? fun b => CreditOwner.ofBalance b == owner) = some b ↔
      b ∈ balances.rows ∧ CreditOwner.ofBalance b = owner := by
  constructor
  · intro h
    obtain ⟨hb, howner⟩ := Table.mem_of_find? h
    exact ⟨hb, beq_iff_eq.mp howner⟩
  · rintro ⟨hb, rfl⟩
    cases hfind : balances.find? fun a => CreditOwner.ofBalance a == CreditOwner.ofBalance b with
    | none => exact absurd (beq_self_eq_true _) (Table.find?_eq_none.mp hfind b hb)
    | some a =>
        obtain ⟨ha, howner⟩ := Table.mem_of_find? hfind
        rw [CreditBalance.eq_of_owner ha hb (beq_iff_eq.mp howner)]

/-! ## Statements -/

namespace Session

/-- `CreditBalance.objects.select_for_update().get(owner)`. -/
def getBalanceForUpdate (owner : CreditOwner) : Session σ (Option CreditBalance) :=
  lock (fun db => (db.creditBalanceOf owner).toList.map fun b => .balance b.id)
    fun db => db.creditBalanceOf owner

/-- `get_or_create(owner, defaults={"balance": 0})`: the row, and whether it is
new.  A run that loses the race to insert it finds the winner's. -/
def getOrCreateBalance (rt : Runtime σ) (owner : CreditOwner) :
    Session σ (Py (CreditBalance × Bool)) := do
  if let some balance ← getBalanceForUpdate owner then
    return .ok (balance, false)
  let balance := newBalance rt owner
  match ← insert [.balance balance.id, .balanceOf owner.userId owner.orgId]
      (fun db => db.creditBalances) balance with
  | .ok () => return .ok (balance, true)
  | .error (.integrity message) =>
      match ← getBalanceForUpdate owner with
      | some balance => return .ok (balance, false)
      | none => return .error (.integrity message)
  | .error e => return .error e

def insertIfNew (isNew : Bool) (balance : CreditBalance) (balances : Table CreditBalance) :
    Py (Table CreditBalance) :=
  if isNew then insertRow balances balance else .ok balances

/-- What the transaction has written when it commits: the ledger row, the balance
row if it is new, and the balance read under its lock plus the amount. -/
def storeGrant (rt : Runtime σ) (entry : CreditTransaction) (balance : CreditBalance)
    (isNew : Bool) (db : Db) : Py (Bool × Db) := do
  let transactions ← insertRow db.creditTransactions entry
  let balances ← insertIfNew isNew balance db.creditBalances
  match balances.update? (fun b => b.id == balance.id)
      fun b => { b with balance := balance.balance + entry.amount, updatedAt := rt.now } with
  | none => throw (.integrity "violates check constraint")
  | some balances =>
      let db ← Db.commit
        { db.toTables with creditTransactions := transactions, creditBalances := balances }
      return (true, db)

/-- `grant_credits_for_session`. -/
def grantCreditsForSession (rt : Runtime σ) (stripeSessionId : String) (amount : Int)
    (reason : String) (owner : CreditOwner) : Session σ Bool := do
  if owner.userId.isNone = owner.orgId.isNone then
    throw (.valueError "Exactly one of user or org must be provided.")
  if amount ≤ 0 then
    throw (.valueError "grant_credits_for_session requires a positive amount.")
  let entry := newTransaction rt stripeSessionId amount reason owner
  if !entry.fits then
    rollback (.error (.data "value too long for column type"))
  else
    match ← insert [.transaction entry.id, .checkoutSession stripeSessionId]
        (fun db => db.creditTransactions) entry with
    | .error (.integrity _) => rollback (.ok false)
    | .error e => rollback (.error e)
    | .ok () =>
        match ← getOrCreateBalance rt owner with
        | .error e => rollback (.error e)
        | .ok (balance, isNew) =>
            if !fitsInteger (balance.balance + amount) then
              rollback (.error (.data "integer out of range"))
            else commit (storeGrant rt entry balance isNew)

/-- `on_product_checkout_completed`. -/
def onProductCheckoutCompleted (rt : Runtime σ) (stripeSessionId : String)
    (productId userId : UUID) (orgId : Option UUID) : Session σ Unit := do
  let some product ← select fun db => db.productById productId | return
  if product.credits ≤ 0 then return
  let reason := "purchase:" ++ product.name
  match orgId with
  | some orgId =>
      let some org ← select fun db => db.orgById orgId | return
      let _ ← grantCreditsForSession rt stripeSessionId product.credits reason ⟨none, some org.id⟩
  | none =>
      let some user ← select fun db => db.userById userId | return
      let _ ← grantCreditsForSession rt stripeSessionId product.credits reason ⟨some user.id, none⟩

/-! ### Where a run writes -/

theorem quiet_getOrCreateBalance (rt : Runtime σ) (owner : CreditOwner) :
    (getOrCreateBalance rt owner).Quiet := by
  unfold getOrCreateBalance getBalanceForUpdate
  refine Fallible.quiet_bind (quiet_lock _ _) fun found => ?_
  cases found with
  | some balance => trivial
  | none =>
      refine Fallible.quiet_bind (quiet_insert _ _ _) fun inserted => ?_
      rcases inserted with e | ⟨⟩
      · cases e with
        | integrity message =>
            refine Fallible.quiet_bind (quiet_lock _ _) fun found => ?_
            cases found <;> trivial
        | _ => trivial
      · trivial

theorem writesLast_grantCreditsForSession (rt : Runtime σ) (stripeSessionId : String)
    (amount : Int) (reason : String) (owner : CreditOwner) :
    (grantCreditsForSession rt stripeSessionId amount reason owner).WritesLast Succeeds := by
  unfold grantCreditsForSession
  by_cases howner : owner.userId.isNone = owner.orgId.isNone
  · rw [if_pos howner]
    trivial
  rw [if_neg howner]
  by_cases hamount : amount ≤ 0
  · simp only [if_pos hamount]
    trivial
  simp only [if_neg hamount]
  by_cases hfits : (!(newTransaction rt stripeSessionId amount reason owner).fits) = true
  · simp only [if_pos hfits]
    exact (quiet_rollback _).writesLast
  simp only [if_neg hfits]
  refine Fallible.writesLast_bind (quiet_insert _ _ _) fun inserted => ?_
  rcases inserted with e | ⟨⟩
  · cases e <;> exact (quiet_rollback _).writesLast
  refine Fallible.writesLast_bind (quiet_getOrCreateBalance rt owner) fun locked => ?_
  rcases locked with e | ⟨balance, isNew⟩
  · exact (quiet_rollback _).writesLast
  dsimp only
  split
  · exact (quiet_rollback _).writesLast
  · exact writesLast_commit _

/-- A product checkout writes with its last statement, when it succeeds. -/
theorem writesLast_onProductCheckoutCompleted (rt : Runtime σ) (stripeSessionId : String)
    (productId userId : UUID) (orgId : Option UUID) :
    (onProductCheckoutCompleted rt stripeSessionId productId userId orgId).WritesLast
      Succeeds := by
  have hgrant : ∀ amount reason owner, (do
      let _ ← grantCreditsForSession rt stripeSessionId amount reason owner
      pure () : Session σ Unit).WritesLast Succeeds := fun amount reason owner =>
    (writesLast_grantCreditsForSession rt stripeSessionId amount reason owner).map _
      (fun _ _ => ⟨(), rfl⟩) fun e herror => by obtain ⟨_, hfalse⟩ := herror; cases hfalse
  unfold onProductCheckoutCompleted
  refine Fallible.writesLast_bind (quiet_select _) fun product => ?_
  cases product with
  | none => trivial
  | some product =>
      dsimp only
      split
      · trivial
      cases orgId with
      | some orgId =>
          refine Fallible.writesLast_bind (quiet_select _) fun org => ?_
          cases org with
          | none => trivial
          | some org => exact hgrant _ _ _
      | none =>
          refine Fallible.writesLast_bind (quiet_select _) fun user => ?_
          cases user with
          | none => trivial
          | some user => exact hgrant _ _ _

end Session

/-! ## One step of a grant -/

/-- The balances with a row for the owner. -/
def openBalance (rt : Runtime σ) (db : Db) (owner : CreditOwner) : Py (Table CreditBalance) :=
  match db.creditBalanceOf owner with
  | some _ => .ok db.creditBalances
  | none => insertRow db.creditBalances (newBalance rt owner)

/-- Adds to the owner's balance. -/
def increment (rt : Runtime σ) (owner : CreditOwner) (amount : Int)
    (balances : Table CreditBalance) : Py (Table CreditBalance) := do
  if balances.rows.any fun b =>
      CreditOwner.ofBalance b == owner && !fitsInteger (b.balance + amount) then
    throw (.data "integer out of range")
  match balances.update? (fun b => CreditOwner.ofBalance b == owner)
      fun b => { b with balance := b.balance + amount, updatedAt := rt.now } with
  | some balances => pure balances
  | none => throw (.integrity "violates check constraint")

theorem addToBalance_eq (rt : Runtime σ) (db : Db) (owner : CreditOwner) (amount : Int) :
    addToBalance rt db owner amount = openBalance rt db owner >>= increment rt owner amount := by
  unfold addToBalance openBalance Db.creditBalanceOf
  cases db.creditBalances.find? fun b => CreditOwner.ofBalance b == owner <;> rfl

theorem increment_eq_ok {rt : Runtime σ} {owner : CreditOwner} {amount : Int}
    {balances balances' : Table CreditBalance} :
    increment rt owner amount balances = .ok balances' ↔
      balances.rows.any (fun b =>
        CreditOwner.ofBalance b == owner && !fitsInteger (b.balance + amount)) = false ∧
      balances.update? (fun b => CreditOwner.ofBalance b == owner)
        (fun b => { b with balance := b.balance + amount, updatedAt := rt.now }) =
          some balances' := by
  unfold increment
  cases balances.rows.any fun b =>
    CreditOwner.ofBalance b == owner && !fitsInteger (b.balance + amount) with
  | true => simp
  | false =>
      cases balances.update? (fun b => CreditOwner.ofBalance b == owner)
        (fun b => { b with balance := b.balance + amount, updatedAt := rt.now }) <;> simp

/-! ### What a grant does to the sums -/

theorem openBalance_credits {rt : Runtime σ} {db : Db} {owner : CreditOwner}
    {balances : Table CreditBalance} (h : openBalance rt db owner = .ok balances) :
    (∃ b ∈ balances.rows, CreditOwner.ofBalance b = owner) ∧
      ∀ other, creditsIn balances other = db.credits other := by
  unfold openBalance at h
  cases hfind : db.creditBalanceOf owner with
  | some b =>
      rw [hfind] at h
      cases h
      exact ⟨⟨b, creditBalanceOf_eq_some.mp hfind⟩, fun other => rfl⟩
  | none =>
      rw [hfind] at h
      have hrows := insertRow_eq_ok h
      refine ⟨⟨newBalance rt owner, by simp [hrows], rfl⟩, fun other => ?_⟩
      have hnone : db.creditBalances.rows.find? (fun b => CreditOwner.ofBalance b == owner) =
          none := hfind
      unfold Db.credits creditsIn Table.find?
      rw [hrows, List.find?_append]
      by_cases hother : owner = other
      · subst hother
        rw [hnone]
        simp [CreditOwner.ofBalance, newBalance]
      · have hnew : CreditOwner.ofBalance (newBalance rt owner) ≠ other := hother
        simp [hnew]

theorem increment_credits {rt : Runtime σ} {owner : CreditOwner} {amount : Int}
    {balances balances' : Table CreditBalance}
    (h : increment rt owner amount balances = .ok balances')
    (hrow : ∃ b ∈ balances.rows, CreditOwner.ofBalance b = owner) (other : CreditOwner) :
    creditsIn balances' other = creditsIn balances other + if owner = other then amount else 0 := by
  obtain ⟨b, hb, hbowner⟩ := hrow
  have hrows := Table.rows_update? (increment_eq_ok.mp h).2
  have hkept : ((fun b => CreditOwner.ofBalance b == other) ∘ fun b : CreditBalance =>
      if CreditOwner.ofBalance b == owner then
        { b with balance := b.balance + amount, updatedAt := rt.now } else b) =
      fun b => CreditOwner.ofBalance b == other := by
    funext c
    simp only [Function.comp_apply]
    split <;> rfl
  unfold creditsIn Table.find?
  rw [hrows, List.find?_map, hkept]
  by_cases hother : owner = other
  · subst hother
    have hfound : balances.rows.find? (fun b => CreditOwner.ofBalance b == owner) = some b :=
      creditBalanceOf_eq_some.mpr ⟨hb, hbowner⟩
    simp [hfound, hbowner]
  · rw [if_neg hother, add_zero]
    cases hfound : balances.rows.find? fun b => CreditOwner.ofBalance b == other with
    | none => rfl
    | some c =>
        have hc : CreditOwner.ofBalance c = other := (creditBalanceOf_eq_some.mp hfound).2
        simp [hc, Ne.symm hother]

/-- A grant adds its amount to the owner's balance and to the owner's ledger. -/
theorem Ledger.grant {rt : Runtime σ} {stripeSessionId reason : String} {amount : Int}
    {owner : CreditOwner} {db db' : Db} (hledger : Ledger db)
    (h : grantCreditsForSession rt stripeSessionId amount reason owner db = .ok (true, db')) :
    Ledger db' := by
  obtain ⟨_, _, ⟨hfalse, _⟩ | ⟨_, hrows, hadd, _⟩⟩ := grantCreditsForSession_eq_ok h
  · cases hfalse
  · refine Ledger.of_balanced fun other => ?_
    rw [addToBalance_eq] at hadd
    obtain ⟨balances, hopen, hincrement⟩ := bind_eq_ok.mp hadd
    obtain ⟨hrow, hsame⟩ := openBalance_credits hopen
    have hgranted : db'.granted other = db.granted other + if owner = other then amount else 0 := by
      unfold Db.granted Table.filter
      rw [hrows, List.filter_append, List.map_append, List.sum_append]
      congr 1
      by_cases hother : owner = other
      · simp [CreditOwner.ofTransaction, newTransaction, hother]
      · have hentry : CreditOwner.ofTransaction
            (newTransaction rt stripeSessionId amount reason owner) ≠ other := hother
        simp [hentry, hother]
    calc db'.credits other
      _ = creditsIn balances other + if owner = other then amount else 0 :=
          increment_credits hincrement hrow other
      _ = db.granted other + if owner = other then amount else 0 := by
          rw [hsame, hledger.balanced]
      _ = db'.granted other := hgranted.symm

section Store

variable {rt : Runtime σ} {stripeSessionId reason : String} {amount : Int} {owner : CreditOwner}
variable {balance : CreditBalance} {db db' : Db}

/-- Selecting the owner's row by its owner or by its id is the same. -/
theorem map_owner_eq_map_id {balances : Table CreditBalance} (hb : balance ∈ balances.rows)
    (f g : CreditBalance → CreditBalance) (hfg : f balance = g balance) :
    (balances.rows.map fun b =>
      if CreditOwner.ofBalance b == CreditOwner.ofBalance balance then f b else b) =
      balances.rows.map fun b => if b.id == balance.id then g b else b := by
  refine List.map_congr_left fun b hmem => ?_
  by_cases howner : CreditOwner.ofBalance b = CreditOwner.ofBalance balance
  · obtain rfl := CreditBalance.eq_of_owner hmem hb howner
    simp [hfg]
  · have hid : b.id ≠ balance.id := by
      intro hid
      exact howner (by rw [balances.eq_of_clash hmem hb (Or.inl hid)])
    simp [howner, hid]

/-- The balance row a run has read or inserted is the owner's. -/
def HasBalance (rt : Runtime σ) (owner : CreditOwner) (balance : CreditBalance) (isNew : Bool)
    (db : Db) : Prop :=
  if isNew then balance = newBalance rt owner ∧ db.creditBalanceOf owner = none
  else db.creditBalanceOf owner = some balance

/-- With the row it read, a run gets the table the one-step grant starts from. -/
theorem HasBalance.stored {isNew : Bool} {balances : Table CreditBalance}
    (h : HasBalance rt owner balance isNew db)
    (hstored : Session.insertIfNew isNew balance db.creditBalances = .ok balances) :
    openBalance rt db owner = .ok balances ∧ balance ∈ balances.rows ∧ CreditOwner.ofBalance balance = owner := by
  cases isNew with
  | true =>
      obtain ⟨rfl, hnone⟩ := h
      have hrows := insertRow_eq_ok hstored
      unfold openBalance
      rw [hnone]
      refine ⟨hstored, ?_, rfl⟩
      rw [hrows]
      exact List.mem_append_right _ List.mem_cons_self
  | false =>
      have hsome : db.creditBalanceOf owner = some balance := h
      cases hstored
      have hfound := creditBalanceOf_eq_some.mp hsome
      unfold openBalance
      rw [hsome]
      exact ⟨rfl, hfound⟩

/-- What a run stores with the balance row it has locked is what the grant as one
step stores. -/
theorem grant_of_store {isNew granted : Bool} (hone : oneOwner owner.userId owner.orgId)
    (hamount : 0 < amount)
    (hfits : (newTransaction rt stripeSessionId amount reason owner).fits = true)
    (hsum : fitsInteger (balance.balance + amount) = true)
    (hbalance : HasBalance rt owner balance isNew db)
    (h : Session.storeGrant rt (newTransaction rt stripeSessionId amount reason owner) balance
      isNew db = .ok (granted, db')) :
    granted = true ∧
      grantCreditsForSession rt stripeSessionId amount reason owner db = .ok (true, db') := by
  unfold Session.storeGrant at h
  obtain ⟨transactions, htransactions, h⟩ := bind_eq_ok.mp h
  obtain ⟨balances, hstored, h⟩ := bind_eq_ok.mp h
  obtain ⟨hread, hmem, howner⟩ := hbalance.stored hstored
  have hinsert : db.creditTransactions.insert?
      (newTransaction rt stripeSessionId amount reason owner) = some transactions := by
    unfold insertRow at htransactions
    split at htransactions
    next table htable =>
        cases htransactions
        exact htable
    next => cases htransactions
  have hunique : ∀ b ∈ balances.rows, CreditOwner.ofBalance b = owner → b = balance :=
    fun b hb hb' => CreditBalance.eq_of_owner hb hmem (hb'.trans howner.symm)
  have hrange : balances.rows.any (fun b =>
      CreditOwner.ofBalance b == owner && !fitsInteger (b.balance + amount)) = false := by
    rw [List.any_eq_false]
    intro b hb hbad
    simp only [Bool.and_eq_true, beq_iff_eq, Bool.not_eq_true'] at hbad
    rw [hunique b hb hbad.1, hsum] at hbad
    exact absurd hbad.2 (by decide)
  have hupdate : balances.update? (fun b => CreditOwner.ofBalance b == owner)
      (fun b => { b with balance := b.balance + amount, updatedAt := rt.now }) =
      balances.update? (fun b => b.id == balance.id)
        fun b => { b with
          balance := balance.balance +
            (newTransaction rt stripeSessionId amount reason owner).amount
          updatedAt := rt.now } := by
    rw [← howner]
    exact congrArg Table.ofRows? (map_owner_eq_map_id hmem _ _ rfl)
  have hsome : owner.userId.isNone ≠ owner.orgId.isNone := by
    unfold oneOwner at hone
    rwa [← Option.not_isSome, ← Option.not_isSome, ne_eq, Bool.not_inj_iff]
  split at h
  next => cases h
  next balances' hbalances' =>
    obtain ⟨db'', hcommit, h⟩ := bind_eq_ok.mp h
    cases h
    have hadd : addToBalance rt db owner amount = .ok balances' := by
      rw [addToBalance_eq, hread]
      exact increment_eq_ok.mpr ⟨hrange, hupdate.trans hbalances'⟩
    refine ⟨rfl, ?_⟩
    unfold grantCreditsForSession
    simp only [if_neg hsome, if_neg (show ¬ amount ≤ 0 by omega), hfits, Bool.not_true,
      Bool.false_eq_true, if_false, hinsert, hadd, ok_bind, hcommit, pure_eq_ok]

end Store

end Saasmint
