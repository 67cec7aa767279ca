import Saasmint.Billing.CheckoutViews
import Saasmint.Billing.CreditBalances

/-!
# From a purchase to the balance that is shown

A product checkout is posted, Stripe completes its session, the event is delivered any number
of times among the events of other sessions, and somebody asks for a balance.

`credits_bought` follows one purchase through the four of them.  What the session is for is
settled by the request (`Ordered`).  Until a delivery has ended well the ledger has no row of
the session or the one row it is to have (`NotYet`, `Credited`), whoever else is buying; from
then on it has that row, and the balance of its owner is the rest of the ledger and what was
bought.
-/

namespace Saasmint

open Atomic Relational

variable {σ : Type}

/-! ## What was bought -/

/-- Whose credits a purchase is for. -/
def ProductCheckout.owner (checkout : ProductCheckout) : CreditOwner :=
  match checkout.orgId with
  | some orgId => ⟨none, some orgId⟩
  | none => ⟨some checkout.userId, none⟩

/-- What the request has asked for: an active product, for the caller or for an org of theirs. -/
structure Ordered (db : Db) (userId productPriceId : UUID) (checkout : ProductCheckout) :
    Prop where
  buyer : checkout.userId = userId
  active : ∃ p ∈ db.productPrices.rows, p.id = productPriceId ∧ p.productId = checkout.productId ∧
    ∃ product ∈ db.products.rows, product.id = checkout.productId ∧ product.isActive = true
  owns : ∀ orgId, checkout.orgId = some orgId →
    ∃ m ∈ db.members.rows, m.userId = userId ∧ m.orgId = orgId ∧ m.role = .owner

/-- The product grants something, and whoever it is for is still there. -/
structure Grantable (db : Db) (checkout : ProductCheckout) (product : Product) : Prop where
  found : db.productById checkout.productId = some product
  credits : 0 < product.credits
  user : checkout.orgId = none → (db.userById checkout.userId).isSome
  org : ∀ orgId, checkout.orgId = some orgId → (db.orgById orgId).isSome

theorem productGrant_of_grantable {db : Db} {checkout : ProductCheckout} {product : Product}
    (h : Grantable db checkout product) :
    productGrant db checkout.productId checkout.userId checkout.orgId =
      some (product.credits, "purchase:" ++ product.name, checkout.owner) := by
  have hcredits : ¬ product.credits ≤ 0 := not_le.mpr h.credits
  unfold ProductCheckout.owner
  cases horg : checkout.orgId with
  | none =>
      obtain ⟨user, huser⟩ := Option.isSome_iff_exists.mp (h.user horg)
      have hid : user.id = checkout.userId := beq_iff_eq.mp (Table.mem_of_find? huser).2
      rw [productGrant_user h.found checkout.userId hcredits, huser, ← hid]
      rfl
  | some orgId =>
      obtain ⟨org, hfound⟩ := Option.isSome_iff_exists.mp (h.org orgId horg)
      have hid : org.id = orgId := beq_iff_eq.mp (Table.mem_of_find? hfound).2
      rw [productGrant_org h.found checkout.userId orgId hcredits, hfound, ← hid]
      rfl

/-- Only an owner buys for an org, and only for their own. -/
theorem resolveProductPurchaseContext_eq_some {db : Db} {userId orgId : UUID}
    {context : Option PlanContext}
    (h : resolveProductPurchaseContext (db.firstMembership userId) context = .ok (some orgId)) :
    ∃ m ∈ db.members.rows, m.userId = userId ∧ m.orgId = orgId ∧ m.role = .owner := by
  unfold resolveProductPurchaseContext at h
  split at h
  · cases h
  · cases h
  next m _ hfirst =>
      split at h
      · cases h
      next howner =>
          cases h
          obtain ⟨hm, huser⟩ := mem_of_firstMembership hfirst
          exact ⟨m, hm, huser, rfl, not_not.mp howner⟩

theorem activeProductPrice_sells {db : Db} {productPriceId : UUID} {currency : Option String}
    {loaded : LoadedPrice} {price : ProductPrice}
    (h : activeProductPrice db productPriceId currency = .ok (loaded, price)) :
    price ∈ db.productPrices.rows ∧ price.id = productPriceId ∧
      ∃ product ∈ db.products.rows, product.id = price.productId ∧ product.isActive = true := by
  unfold activeProductPrice at h
  dsimp only at h
  split at h
  · cases h
  next p hfound =>
      cases h
      obtain ⟨hp, hselected⟩ := Table.mem_of_find? hfound
      rw [Bool.and_eq_true, beq_iff_eq, List.any_eq_true] at hselected
      obtain ⟨hid, product, hproduct, hactive⟩ := hselected
      rw [Bool.and_eq_true, beq_iff_eq] at hactive
      exact ⟨hp, hid, product, hproduct, hactive⟩

section Ordering

variable {rt : Runtime σ} {currencies : Currencies} {user : User}
variable {queryCurrency context : Option String} {productPriceId : UUID}
variable {params : SessionParams} {w w' : World σ}

/-- The completed session says what the request has asked for. -/
theorem ordered_of_completed
    (hvalid : Fallible.exec (Session.productCheckout rt currencies user queryCurrency context
      productPriceId) w = (.ok params, w'))
    (session : CompletedSession params) {checkout : ProductCheckout}
    (hread : readCheckout session.object = .ok (some (.product checkout))) :
    checkout.stripeSessionId = session.id ∧ Ordered w.db user.id productPriceId checkout := by
  obtain ⟨hmode, hclient, loaded, price, context', orgId, hfound, -, horg, hsent⟩ :=
    productCheckout_eq_ok hvalid
  have hpayment : (Json.str "payment").isStr "payment" = true := by decide
  unfold readCheckout at hread
  rw [session.get_mode, hmode] at hread
  simp only [ok_bind, hpayment, if_true,
    readProductCheckout_of_completed session hclient hsent] at hread
  cases hread
  obtain ⟨hprice, hid, hactive⟩ := activeProductPrice_sells hfound
  refine ⟨rfl, rfl, ⟨price, hprice, hid, rfl, hactive⟩, ?_⟩
  rintro orgId rfl
  exact resolveProductPurchaseContext_eq_some horg

end Ordering

/-! ## The session in the ledger -/

/-- The sum of the owner's transactions, those of the session left out. -/
def Db.grantedElsewhere (db : Db) (owner : CreditOwner) (stripeSessionId : String) : Int :=
  ((db.creditTransactions.filter fun t => CreditOwner.ofTransaction t == owner &&
    t.stripeSessionId != some stripeSessionId).map CreditTransaction.amount).sum

/-- The row a session is to have. -/
structure IsGrant (product : Product) (owner : CreditOwner) (entry : CreditTransaction) :
    Prop where
  owner : CreditOwner.ofTransaction entry = owner
  amount : entry.amount = product.credits
  reason : entry.reason = "purchase:" ++ product.name

/-- The ledger has nothing of the session. -/
def NotYet (db : Db) (stripeSessionId : String) : Prop :=
  db.transactionsOf stripeSessionId = [] ∧
    ∀ owner, db.credits owner = db.grantedElsewhere owner stripeSessionId

/-- The session is in the ledger, once, and its owner has what was bought. -/
def Credited (db : Db) (stripeSessionId : String) (product : Product) (owner : CreditOwner) :
    Prop :=
  (∃ entry, db.transactionsOf stripeSessionId = [entry] ∧ IsGrant product owner entry) ∧
    ∀ other, db.credits other =
      db.grantedElsewhere other stripeSessionId + if other = owner then product.credits else 0

theorem granted_eq (db : Db) (owner : CreditOwner) (stripeSessionId : String) :
    db.granted owner = db.grantedElsewhere owner stripeSessionId +
      (((db.transactionsOf stripeSessionId).filter fun t =>
        CreditOwner.ofTransaction t == owner).map CreditTransaction.amount).sum := by
  let ofSession (t : CreditTransaction) : Bool := t.stripeSessionId == some stripeSessionId
  let owned := db.creditTransactions.rows.filter fun t => CreditOwner.ofTransaction t == owner
  have hsplit : (owned.filter ofSession ++ owned.filter fun t => !ofSession t).Perm owned :=
    List.filter_append_perm _ _
  have hhere : owned.filter ofSession = (db.transactionsOf stripeSessionId).filter fun t =>
      CreditOwner.ofTransaction t == owner := by
    rw [List.filter_filter, Db.transactionsOf, Table.filter, List.filter_filter]
    exact List.filter_congr fun t _ => Bool.and_comm _ _
  have helsewhere : (owned.filter fun t => !ofSession t) =
      db.creditTransactions.filter fun t => CreditOwner.ofTransaction t == owner &&
        t.stripeSessionId != some stripeSessionId := by
    rw [List.filter_filter, Table.filter]
    exact List.filter_congr fun t _ => Bool.and_comm _ _
  calc db.granted owner
      = (owned.map CreditTransaction.amount).sum := rfl
    _ = ((owned.filter ofSession ++ owned.filter fun t => !ofSession t).map
          CreditTransaction.amount).sum := ((hsplit.map _).sum_eq).symm
    _ = _ := by
      rw [List.map_append, List.sum_append, hhere, helsewhere, Int.add_comm]
      rfl

section States

variable {db : Db} {stripeSessionId : String} {product : Product} {owner : CreditOwner}

theorem notYet_of_none (hledger : Ledger db) (h : db.transactionsOf stripeSessionId = []) :
    NotYet db stripeSessionId := by
  refine ⟨h, fun other => ?_⟩
  rw [hledger.balanced, granted_eq db other stripeSessionId, h]
  exact Int.add_zero _

theorem credited_of_one (hledger : Ledger db) {entry : CreditTransaction}
    (h : db.transactionsOf stripeSessionId = [entry]) (hentry : IsGrant product owner entry) :
    Credited db stripeSessionId product owner := by
  refine ⟨⟨entry, h, hentry⟩, fun other => ?_⟩
  rw [hledger.balanced, granted_eq db other stripeSessionId, h, List.filter_singleton,
    hentry.owner]
  congr 1
  by_cases hother : other = owner
  · subst hother
    simpa using hentry.amount
  · have hne : (owner == other) = false := beq_eq_false_iff_ne.mpr (Ne.symm hother)
    rw [hne, if_neg hother]
    rfl

/-- A ledger whose rows of the session are what they are to be has none of them, or one. -/
theorem notYet_or_credited (hledger : Ledger db)
    (h : ∀ entry ∈ db.transactionsOf stripeSessionId, IsGrant product owner entry) :
    NotYet db stripeSessionId ∨ Credited db stripeSessionId product owner := by
  have honce := hledger.once stripeSessionId
  rcases hrows : db.transactionsOf stripeSessionId with _ | ⟨entry, _ | ⟨_, _⟩⟩
  · exact Or.inl (notYet_of_none hledger hrows)
  · rw [hrows] at h
    exact Or.inr (credited_of_one hledger hrows (h entry List.mem_cons_self))
  · rw [hrows] at honce
    simp at honce

/-- Whose credits one of the entries shows. -/
def CreditScope.ownerOf (scope : CreditScope) (entry : CreditEntry) : CreditOwner :=
  if entry.scope = "user" then ⟨some scope.userId, none⟩ else ⟨none, scope.orgId⟩

/-- An entry shows the ledger's sum for its owner. -/
theorem balance_of_ledgerEntries {scope : CreditScope} {entry : CreditEntry}
    (h : entry ∈ scope.ledgerEntries db) : entry.balance = db.granted (scope.ownerOf entry) := by
  unfold CreditScope.ledgerEntries at h
  dsimp only at h
  split at h
  · rw [List.mem_singleton.mp h]
    rfl
  · rw [List.mem_singleton.mp h]
    rfl
  · cases h
  next horg =>
      rw [List.mem_singleton.mp h]
      simp [CreditScope.ownerOf, horg]
  next horg =>
      rcases List.mem_cons.mp h with rfl | h
      · simp [CreditScope.ownerOf, horg]
      · split at h
        · rw [List.mem_singleton.mp h]
          rfl
        · cases h

end States

/-! ## Among other purchases -/

section Runs

variable {ι : Type} {purchases : ι → Purchase σ} {w : World σ}
variable {stripeSessionId : String} {product : Product} {owner : CreditOwner}

/-- Every delivery of the session grants what it is for, and what is there of it is a grant. -/
structure Granting (purchases : ι → Purchase σ) (stripeSessionId : String) (product : Product)
    (owner : CreditOwner) (w t : World σ) : Prop where
  grows : LedgerGrows w t
  grants : ∀ entry ∈ t.db.transactionsOf stripeSessionId, IsGrant product owner entry

theorem Granting.grant {t t' : World σ} {i : ι}
    (hdelivered : (purchases i).checkout.stripeSessionId = stripeSessionId →
      (purchases i).grant? w.db = some (product.credits, "purchase:" ++ product.name, owner))
    (h : (purchases i).Grants t t') (ht : Granting purchases stripeSessionId product owner w t) :
    Granting purchases stripeSessionId product owner w t' := by
  refine ⟨ht.grows.trans h.grows, fun entry hentry => ?_⟩
  obtain ⟨amount, reason, granted, db', hgrant, hcommit, rfl⟩ := h
  obtain ⟨_, _, ⟨hfalse, _⟩ | ⟨_, hrows, _, _⟩⟩ := grantCreditsForSession_eq_ok hcommit
  · cases hfalse
  obtain ⟨hmem, hsession⟩ := List.mem_filter.mp hentry
  have hmem' : entry ∈ db'.creditTransactions.rows := hmem
  rw [hrows, List.mem_append, List.mem_singleton] at hmem'
  rcases hmem' with hold | rfl
  · exact ht.grants entry (List.mem_filter.mpr ⟨hold, hsession⟩)
  · have hmine : (purchases i).checkout.stripeSessionId = stripeSessionId :=
      Option.some.inj (beq_iff_eq.mp hsession)
    rw [Purchase.grant?_of_grows ht.grows, hdelivered hmine] at hgrant
    cases hgrant
    exact ⟨rfl, rfl, rfl⟩

variable [DecidableEq ι]

/-- The rows of the session are grants of the purchase in every state of every run. -/
theorem granting_always (hledger : Ledger w.db)
    (hdelivered : ∀ i, (purchases i).checkout.stripeSessionId = stripeSessionId →
      (purchases i).grant? w.db = some (product.credits, "purchase:" ++ product.name, owner))
    (hnew : w.db.transactionsOf stripeSessionId = []) (schedule : List (Move ι)) :
    Runs.Always purchaseStep (fun server => Ledger server.shared.db ∧
        Granting purchases stripeSessionId product owner w server.shared)
      (purchasing w purchases) schedule := by
  have hlocks := locks_purchasing purchases hledger schedule
  have hgranting : Runs.Always purchaseStep (fun server =>
      Granting purchases stripeSessionId product owner w server.shared)
      (purchasing w purchases) schedule := by
    refine Runs.always_of_steps (Q := fun server move =>
      (purchaseStep server move).shared = server.shared ∨
        ∃ i, (purchases i).Grants server.shared (purchaseStep server move).shared)
      ?_ ?_ ?_
    · rintro server move hhere (hsame | ⟨i, hgrants⟩)
      · rw [hsame]
        exact hhere
      · exact hhere.grant (hdelivered i) hgrants
    · refine ⟨LedgerGrows.refl w, fun entry hentry => ?_⟩
      have hentry' : entry ∈ w.db.transactionsOf stripeSessionId := hentry
      rw [hnew] at hentry'
      cases hentry'
    · intro first move rest hsplit
      -- a delivery that writes has no statement left, so what it wrote is its whole grant
      have hlast : Runs.Always purchaseStep (Server.WritesLast Session.Succeeds)
          (purchasing w purchases) first :=
        Runs.always_of_invariant (fun _ move h => (Server.step_writesLast h move).1)
          writesLast_purchasing first
      rcases purchaseStep_grants (hlocks first (move :: rest) hsplit) hlast.final move with
        hsame | ⟨i, -, -, hgrants⟩
      · exact Or.inl hsame
      · exact Or.inr ⟨i, hgrants⟩
  intro first rest hsplit
  exact ⟨(hlocks first rest hsplit).1.ledger, hgranting first rest hsplit⟩

end Runs

/-! ### Ten credits, delivered twice -/

def tenCreditsDb : Db where
  toTables := { creditsDb.toTables with
    productPrices := ⟨[⟨51#128, tenCredits.id, "price_ten", 499⟩], by decide⟩ }
  integral := by decide +kernel

def tenCreditsParams : SessionParams where
  customer := "cus_1"
  clientReferenceId := uuidText buyer.id
  mode := "payment"
  price := "price_ten"
  quantity := 1
  trialPeriodDays := none
  metadata := some (productMetadata tenCredits.id none)

theorem tenCreditsSession_id_ne : "cs_1" ≠ "" := by decide

def tenCreditsSession : CompletedSession tenCreditsParams where
  object := .obj [("id", .str "cs_1"), ("mode", .str "payment"),
    ("metadata", metadataObject (tenCreditsParams.metadata.getD [])),
    ("client_reference_id", .str (uuidText buyer.id)), ("customer", .str "cus_1"),
    ("livemode", .bool false)]
  id := "cs_1"
  livemode := false
  subscription := none
  metadata := metadataObject (tenCreditsParams.metadata.getD [])
  id_ne := tenCreditsSession_id_ne
  customer_ne := by decide
  get_id := rfl
  get_mode := rfl
  get_client := rfl
  get_customer := rfl
  get_livemode := rfl
  get_subscription := rfl
  get_metadata := rfl
  metadata_get := metadataObject_get _

end Saasmint
