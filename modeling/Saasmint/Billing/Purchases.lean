import Saasmint.Billing.Ledger

/-!
# Concurrent purchases

Any number of product-checkout webhooks run statement by statement against one
database: redeliveries of one session, sessions of one owner, runs that are
killed between two statements.

What a run has learned it may rely on: the owner's balance while it holds the
row, the absence of the session while it holds the index entry.  `Purchase.locks`
is the proof of one run among others, `ledger_kept` that of all of them.
-/

namespace Saasmint

open Atomic Relational

variable {σ : Type}

/-- One run of the webhook of a product checkout. -/
structure Purchase (σ : Type) where
  rt : Runtime σ
  checkout : ProductCheckout

namespace Purchase

def session (p : Purchase σ) : Session σ Unit :=
  Session.onProductCheckoutCompleted p.rt p.checkout.stripeSessionId p.checkout.productId
    p.checkout.userId p.checkout.orgId

/-- What the purchase grants, if it grants anything. -/
def grant? (p : Purchase σ) (db : Db) : Option (Int × String × CreditOwner) :=
  productGrant db p.checkout.productId p.checkout.userId p.checkout.orgId

/-- The purchase has been granted, in one step. -/
def Grants (p : Purchase σ) (w w' : World σ) : Prop :=
  ∃ amount reason owner db', p.grant? w.db = some (amount, reason, owner) ∧
    grantCreditsForSession p.rt p.checkout.stripeSessionId amount reason owner w.db =
      .ok (true, db') ∧
    w' = { w with db := db' }

/-- The ledger has a row of the session, or one with the id the run has drawn. -/
def Recorded (p : Purchase σ) (db : Db) : Prop :=
  ∃ t ∈ db.creditTransactions.rows,
    t.stripeSessionId = some p.checkout.stripeSessionId ∨ t.id = p.rt.transactionId

end Purchase

/-- What the purchases leave alone, and the ledger only grows. -/
structure LedgerGrows (w w' : World σ) : Prop where
  products : w'.db.products = w.db.products
  users : w'.db.users = w.db.users
  orgs : w'.db.orgs = w.db.orgs
  transactions : ∀ t ∈ w.db.creditTransactions.rows, t ∈ w'.db.creditTransactions.rows

theorem LedgerGrows.refl (w : World σ) : LedgerGrows w w := ⟨rfl, rfl, rfl, fun _ h => h⟩

theorem LedgerGrows.trans {w w' w'' : World σ} (h : LedgerGrows w w') (h' : LedgerGrows w' w'') :
    LedgerGrows w w'' :=
  ⟨h'.products.trans h.products, h'.users.trans h.users, h'.orgs.trans h.orgs,
    fun t ht => h'.transactions t (h.transactions t ht)⟩

namespace Purchase

variable {p : Purchase σ} {w w' : World σ}

theorem grant?_of_grows (h : LedgerGrows w w') : p.grant? w'.db = p.grant? w.db := by
  unfold grant? productGrant Db.productById Db.orgById Db.userById
  rw [h.products, h.users, h.orgs]

theorem Recorded.of_grows (h : LedgerGrows w w') (hp : p.Recorded w.db) : p.Recorded w'.db := by
  obtain ⟨t, ht, hkey⟩ := hp
  exact ⟨t, h.transactions t ht, hkey⟩

theorem Grants.grows (h : p.Grants w w') : LedgerGrows w w' := by
  obtain ⟨amount, reason, owner, db', _, hgrant, rfl⟩ := h
  obtain ⟨_, _, ⟨hfalse, _⟩ | ⟨_, hrows, _, hframe⟩⟩ := grantCreditsForSession_eq_ok hgrant
  · cases hfalse
  · have hproducts : db'.products = w.db.products := by rw [hframe]
    have husers : db'.users = w.db.users := by rw [hframe]
    have horgs : db'.orgs = w.db.orgs := by rw [hframe]
    refine ⟨hproducts, husers, horgs, fun t ht => ?_⟩
    show t ∈ db'.creditTransactions.rows
    rw [hrows]
    exact List.mem_append_left _ ht

theorem Grants.recorded (h : p.Grants w w') : p.Recorded w'.db := by
  obtain ⟨amount, reason, owner, db', _, hgrant, rfl⟩ := h
  obtain ⟨_, _, ⟨hfalse, _⟩ | ⟨_, hrows, _, _⟩⟩ := grantCreditsForSession_eq_ok hgrant
  · cases hfalse
  · refine ⟨newTransaction p.rt p.checkout.stripeSessionId amount reason owner, ?_, Or.inl rfl⟩
    show _ ∈ db'.creditTransactions.rows
    rw [hrows]
    exact List.mem_append_right _ List.mem_cons_self

end Purchase

/-! ## What a run's locks protect -/

section Frame

variable {rt : Runtime σ} {stripeSessionId reason : String} {amount : Int} {owner : CreditOwner}
variable {balance : CreditBalance} {isNew : Bool} {db db' : Db}

/-- The rows of the opened table other than the run's own are the stored ones, of
other owners. -/
theorem HasBalance.others {balances : Table CreditBalance}
    (hbalance : HasBalance rt owner balance isNew db)
    (hopen : openBalance rt db owner = .ok balances) :
    balance ∈ balances.rows ∧ CreditOwner.ofBalance balance = owner ∧
      (∀ b ∈ db.creditBalances.rows, b ∈ balances.rows) ∧
      ∀ b ∈ balances.rows, b.id ≠ balance.id → b ∈ db.creditBalances.rows := by
  unfold openBalance at hopen
  cases isNew with
  | true =>
      obtain ⟨rfl, hnone⟩ := hbalance
      rw [hnone] at hopen
      have hrows := insertRow_eq_ok hopen
      rw [hrows]
      refine ⟨by simp, rfl, fun b hb => List.mem_append_left _ hb, fun b hb hne => ?_⟩
      rcases List.mem_append.mp hb with hold | hnew
      · exact hold
      · rw [List.mem_singleton.mp hnew] at hne
        exact absurd rfl hne
  | false =>
      have hsome : db.creditBalanceOf owner = some balance := hbalance
      rw [hsome] at hopen
      cases hopen
      obtain ⟨hmem, howner⟩ := creditBalanceOf_eq_some.mp hsome
      exact ⟨hmem, howner, fun b hb => hb, fun b hb _ => hb⟩

/-- The increment leaves the other rows, and every row's id and owner. -/
theorem increment_rows {balances balances' : Table CreditBalance}
    (h : increment rt owner amount balances = .ok balances') :
    ∃ f : CreditBalance → CreditBalance, balances'.rows = balances.rows.map f ∧
      (∀ b, (f b).id = b.id ∧ CreditOwner.ofBalance (f b) = CreditOwner.ofBalance b) ∧
      ∀ b, CreditOwner.ofBalance b ≠ owner → f b = b := by
  refine ⟨_, Table.rows_update? (increment_eq_ok.mp h).2, fun b => ?_, fun b hb => ?_⟩
  · split <;> exact ⟨rfl, rfl⟩
  · rw [if_neg (by simpa using hb)]

theorem balances_same {balances' : Table CreditBalance}
    (hbalance : HasBalance rt owner balance isNew db)
    (h : addToBalance rt db owner amount = .ok balances') :
    (∀ id, id ≠ balance.id → SameRows (fun b => b.id = id) db.creditBalances balances') ∧
      ∀ userId orgId, (isNew = true → (⟨userId, orgId⟩ : CreditOwner) ≠ owner) →
        SameEntry (fun b => b.userId = userId ∧ b.orgId = orgId) db.creditBalances balances' := by
  rw [addToBalance_eq] at h
  obtain ⟨balances, hopen, hincrement⟩ := bind_eq_ok.mp h
  obtain ⟨hmem, howner, hstored, hother⟩ := hbalance.others hopen
  obtain ⟨f, hrows, hkept, hfix⟩ := increment_rows hincrement
  have hforeign : ∀ b ∈ balances.rows, b.id ≠ balance.id → f b = b := by
    intro b hb hne
    refine hfix b fun hsame => hne ?_
    rw [CreditBalance.eq_of_owner hb hmem (hsame.trans howner.symm)]
  constructor
  · intro id hid a ha
    rw [hrows, List.mem_map]
    have hne : a.id ≠ balance.id := fun hsame => hid (ha.symm.trans hsame)
    constructor
    · intro hdb
      exact ⟨a, hstored a hdb, hforeign a (hstored a hdb) hne⟩
    · rintro ⟨c, hc, rfl⟩
      rw [(hkept c).1] at hne
      rw [hforeign c hc hne]
      exact hother c hc hne
  · intro userId orgId hkey
    have hentry : ∀ b : CreditBalance, b.userId = userId ∧ b.orgId = orgId ↔
        CreditOwner.ofBalance b = ⟨userId, orgId⟩ := by
      intro b
      simp [CreditOwner.ofBalance]
    unfold SameEntry
    simp only [hentry, hrows]
    constructor
    · rintro ⟨b, hb, hbowner⟩
      exact ⟨f b, List.mem_map_of_mem (hstored b hb), (hkept b).2.trans hbowner⟩
    · rintro ⟨c, hc, hcowner⟩
      obtain ⟨b, hb, rfl⟩ := List.mem_map.mp hc
      rw [(hkept b).2] at hcowner
      by_cases hid : b.id = balance.id
      · cases isNew with
        | true =>
            have hsame : b = balance := balances.eq_of_clash hb hmem (Or.inl hid)
            rw [hsame, howner] at hcowner
            exact absurd hcowner.symm (hkey rfl)
        | false =>
            obtain ⟨hmine, hmyOwner⟩ := creditBalanceOf_eq_some.mp hbalance
            have hsame : b = balance := balances.eq_of_clash hb hmem (Or.inl hid)
            exact ⟨balance, hmine, hsame ▸ hcowner⟩
      · exact ⟨b, hother b hb hid, hcowner⟩

/-- A grant touches nothing but the rows and entries its run has locked. -/
theorem grant_same (hbalance : HasBalance rt owner balance isNew db)
    (h : grantCreditsForSession rt stripeSessionId amount reason owner db = .ok (true, db'))
    {k : Lock} (htransaction : k ≠ .transaction rt.transactionId)
    (hsession : k ≠ .checkoutSession stripeSessionId) (hid : k ≠ .balance balance.id)
    (howner : isNew = true → k ≠ .balanceOf owner.userId owner.orgId) : k.Same db db' := by
  obtain ⟨_, _, ⟨hfalse, _⟩ | ⟨_, hrows, hadd, hframe⟩⟩ := grantCreditsForSession_eq_ok h
  · cases hfalse
  obtain ⟨hbalances, hentries⟩ := balances_same hbalance hadd
  cases k with
  | balance id => exact hbalances id fun hsame => hid (by rw [hsame])
  | balanceOf userId orgId =>
      refine hentries userId orgId fun hnew hsame => howner hnew ?_
      rw [← hsame]
  | transaction id =>
      intro t ht
      have hne : t ≠ newTransaction rt stripeSessionId amount reason owner := by
        rintro rfl
        exact htransaction (by rw [← ht]; rfl)
      simp [hrows, hne]
  | checkoutSession other =>
      have hne : stripeSessionId ≠ other := fun hsame => hsession (by rw [hsame])
      show SameEntry _ _ _
      simp [SameEntry, hrows, newTransaction, hne, or_and_right, exists_or]
  | user | member | invitation | subscription =>
      intro a _
      rw [hframe]
  | email | membership | ownership | invitationToken | pendingInvitation =>
      show SameEntry _ _ _
      rw [hframe]
      exact Iff.rfl

end Frame

/-! ## One run among others -/

/-- A run relies on the catalog and on a ledger that only grows; it guarantees to
change nothing, or to be granted. -/
def Purchase.contract (p : Purchase σ) :
    Contract (Statement Label Lock (World σ)) (World σ) where
  assume _ _ := True
  rely := LedgerGrows
  guarantee w w' := w' = w ∨ p.Grants w w'
  rely_refl := LedgerGrows.refl
  rely_trans := LedgerGrows.trans
  guarantee_refl _ := Or.inl rfl

/-- What a run that has ended without an error leaves behind. -/
def Purchase.Ended (p : Purchase σ) {α : Type} (w : World σ) : Py α → Prop
  | .ok _ => p.grant? w.db = none ∨ p.Recorded w.db
  | .error _ => True

theorem Purchase.Ended.of_grows {p : Purchase σ} {w w' : World σ} {α : Type} {result : Py α}
    (h : LedgerGrows w w') (hended : p.Ended w result) : p.Ended w' result := by
  cases result with
  | error e => trivial
  | ok a =>
      refine hended.imp (fun hnone => ?_) (Purchase.Recorded.of_grows h)
      rw [Purchase.grant?_of_grows h]
      exact hnone

/-- A refused ledger row has a row of its session, or of its id. -/
theorem recorded_of_refused {p : Purchase σ} {amount : Int} {reason : String}
    {owner : CreditOwner} {db : Db} (hone : oneOwner owner.userId owner.orgId)
    (hamount : 0 < amount) {message : String}
    (h : (fun _ => ()) <$> insertRow db.creditTransactions
      (newTransaction p.rt p.checkout.stripeSessionId amount reason owner) =
        .error (.integrity message)) : p.Recorded db := by
  by_contra hnone
  have hcheck : Row.check (newTransaction p.rt p.checkout.stripeSessionId amount reason owner) :=
    ⟨hone, show amount ≠ 0 by omega⟩
  obtain ⟨table, hinsert⟩ := Table.insert?_isSome (t := db.creditTransactions) hcheck
    fun t ht hclash => hnone ⟨t, ht, by
      rcases hclash with hid | hsession
      · exact Or.inr hid
      · exact Or.inl hsession.2⟩
  unfold insertRow at h
  rw [hinsert] at h
  cases h

section Locks

variable {inv : World σ → Prop} {p : Purchase σ} {amount : Int} {reason : String}
variable {owner : CreditOwner} {w : World σ} {held : Lock → Prop}

/-- A run that holds the balance row it has read or inserted. -/
def HoldsBalance (rt : Runtime σ) (owner : CreditOwner) (held : Lock → Prop) (db : Db)
    (balance : CreditBalance) (isNew : Bool) : Prop :=
  HasBalance rt owner balance isNew db ∧ held (.balance balance.id) ∧
    (isNew = true → held (.balanceOf owner.userId owner.orgId))

/-- The row stays as it is while it is held. -/
theorem HoldsBalance.of_same {rt : Runtime σ} {balance : CreditBalance} {isNew : Bool}
    {w w' : World σ} (h : HoldsBalance rt owner held w.db balance isNew)
    (hheld : ∀ k, held k → SameLocked k w w') :
    HoldsBalance rt owner held w'.db balance isNew := by
  obtain ⟨hbalance, hrow, hentry⟩ := h
  refine ⟨?_, hrow, hentry⟩
  cases isNew with
  | true =>
      obtain ⟨rfl, hnone⟩ := hbalance
      refine ⟨rfl, ?_⟩
      have hsame : SameEntry (fun b => b.userId = owner.userId ∧ b.orgId = owner.orgId)
          w.db.creditBalances w'.db.creditBalances := hheld _ (hentry rfl)
      unfold Db.creditBalanceOf at hnone ⊢
      rw [Table.find?_eq_none] at hnone ⊢
      intro b hb hbowner
      have hkey : b.userId = owner.userId ∧ b.orgId = owner.orgId := by
        rw [beq_iff_eq] at hbowner
        rw [← hbowner]
        exact ⟨rfl, rfl⟩
      obtain ⟨a, ha, hakey⟩ := hsame.mpr ⟨b, hb, hkey⟩
      refine hnone a ha (beq_iff_eq.mpr ?_)
      simp [CreditOwner.ofBalance, hakey]
  | false =>
      obtain ⟨hmem, howner⟩ := creditBalanceOf_eq_some.mp hbalance
      have hsame : SameRows (fun b => b.id = balance.id) w.db.creditBalances
        w'.db.creditBalances := hheld _ hrow
      exact creditBalanceOf_eq_some.mpr ⟨(hsame balance rfl).mp hmem, howner⟩

/-- The outcome of `get_or_create`, with the locks it has left. -/
def BalanceLocked (rt : Runtime σ) (owner : CreditOwner) (held : Lock → Prop) (db : Db) :
    Py (Py (CreditBalance × Bool)) → Prop
  | .ok (.ok (balance, isNew)) => HoldsBalance rt owner held db balance isNew
  | _ => True

/-- What was locked before is as before, and still locked. -/
structure Continues (held : Lock → Prop) (w : World σ) (held' : Lock → Prop) (t : World σ) :
    Prop where
  grows : LedgerGrows w t
  same : ∀ k, held k → SameLocked k w t
  locked : ∀ k, held k → held' k

theorem Continues.step {held' : Lock → Prop} {t t' : World σ} (h : Continues held w held' t)
    (hgrows : LedgerGrows t t') (hsame : ∀ k, held' k → SameLocked k t t') (wants : List Lock) :
    Continues held w (fun k => held' k ∨ k ∈ wants) t' where
  grows := h.grows.trans hgrows
  same k hk := Lock.same_trans k (h.same k hk) (hsame k (h.locked k hk))
  locked k hk := Or.inl (h.locked k hk)

theorem Continues.refl (held : Lock → Prop) (w : World σ) : Continues held w held w :=
  ⟨LedgerGrows.refl w, fun k _ => Lock.same_refl k w.db, fun _ h => h⟩

/-- A balance row can only be inserted for an owner that has none. -/
theorem creditBalanceOf_of_inserted {rt : Runtime σ} {db : Db}
    (hone : oneOwner owner.userId owner.orgId)
    (h : (fun _ => ()) <$> insertRow db.creditBalances (newBalance rt owner) = .ok ()) :
    db.creditBalanceOf owner = none := by
  cases hfound : db.creditBalanceOf owner with
  | none => rfl
  | some b =>
      obtain ⟨hb, hbowner⟩ := creditBalanceOf_eq_some.mp hfound
      have hclash : Row.clash b (newBalance rt owner) := by
        have huser : b.userId = owner.userId := by rw [← hbowner]; rfl
        have horg : b.orgId = owner.orgId := by rw [← hbowner]; rfl
        by_cases hsome : owner.userId.isSome
        · exact Or.inr (Or.inl ⟨by rw [huser]; exact hsome, huser⟩)
        · refine Or.inr (Or.inr ⟨?_, horg⟩)
          unfold oneOwner at hone
          rw [Bool.not_eq_true] at hsome
          rw [hsome] at hone
          rw [horg]
          exact (Bool.not_eq_false _).mp hone.symm
      unfold insertRow at h
      rw [Table.insert?_eq_none hb hclash] at h
      cases h

/-- Once the row has been looked up under a lock, it is held if it was there. -/
theorem locks_found {held' : Lock → Prop} {t : World σ} {balance : CreditBalance}
    (ht : Continues held w held' t) (hfound : t.db.creditBalanceOf owner = some balance)
    (hheld : held' (.balance balance.id)) :
    (pure (.ok (balance, false)) : Session σ (Py (CreditBalance × Bool))).Locks inv p.contract
      SameLocked (fun held' t result => Continues held w held' t ∧
        BalanceLocked p.rt owner held' t.db result) held' t :=
  ⟨ht, hfound, hheld, fun hnew => by cases hnew⟩

/-- `get_or_create` ends with the owner's balance row under a lock. -/
theorem locks_getOrCreateBalance (hone : oneOwner owner.userId owner.orgId) :
    (Session.getOrCreateBalance p.rt owner).Locks inv p.contract SameLocked
      (fun held' t result => Continues held w held' t ∧
        BalanceLocked p.rt owner held' t.db result) held w := by
  unfold Session.getOrCreateBalance Session.getBalanceForUpdate Session.insert
  rw [Fallible.locks_bind, Session.locks_lock]
  intro t hgrows hsame _ _
  have ht := (Continues.refl held w).step hgrows hsame
    ((t.db.creditBalanceOf owner).toList.map fun b => .balance b.id)
  rw [Fallible.lockChain_ok]
  cases hfound : t.db.creditBalanceOf owner with
  | some balance =>
      rw [hfound] at ht
      exact locks_found ht hfound (Or.inr (by simp))
  | none =>
      rw [hfound] at ht
      rw [Fallible.locks_bind, Session.locks_lock]
      intro t₂ hgrows₂ hsame₂ _ _
      have ht₂ := ht.step hgrows₂ hsame₂ [.balance (newBalance p.rt owner).id,
        .balanceOf owner.userId owner.orgId]
      rw [Fallible.lockChain_ok]
      rcases hinsert : (fun _ => ()) <$> insertRow t₂.db.creditBalances (newBalance p.rt owner)
        with e | ⟨⟩
      · cases e with
        | integrity message =>
            rw [Fallible.locks_bind, Session.locks_lock]
            intro t₃ hgrows₃ hsame₃ _ _
            have ht₃ := ht₂.step hgrows₃ hsame₃
              ((t₃.db.creditBalanceOf owner).toList.map fun b => .balance b.id)
            rw [Fallible.lockChain_ok]
            cases hfound₃ : t₃.db.creditBalanceOf owner with
            | some balance =>
                rw [hfound₃] at ht₃
                exact locks_found ht₃ hfound₃ (Or.inr (by simp))
            | none =>
                rw [hfound₃] at ht₃
                exact ⟨ht₃, trivial⟩
        | _ => exact ⟨ht₂, trivial⟩
      · exact ⟨ht₂, ⟨rfl, creditBalanceOf_of_inserted hone hinsert⟩, Or.inr (by simp),
          fun _ => Or.inr (by simp)⟩

/-- A run that ends its transaction with an error has nothing to show. -/
theorem locks_rollback_error {α : Type} {t : World σ} {e : PyError} :
    (Session.rollback (.error e) : Session σ α).Locks inv p.contract SameLocked
      (fun _ t result => p.Ended t result) held t :=
  Session.locks_rollback.mpr fun _ _ _ _ _ => trivial

/-- The commit of a run that holds its ledger row and its balance row. -/
theorem locks_commit_grant {held' : Lock → Prop} {t : World σ} {balance : CreditBalance}
    {isNew : Bool} (hinv : ∀ t t', p.Grants t t' → inv t → inv t')
    (hgrant : p.grant? t.db = some (amount, reason, owner))
    (hone : oneOwner owner.userId owner.orgId) (hamount : 0 < amount)
    (hfits : (newTransaction p.rt p.checkout.stripeSessionId amount reason owner).fits = true)
    (hsum : fitsInteger (balance.balance + amount) = true)
    (hentry : held' (.transaction p.rt.transactionId))
    (hsession : held' (.checkoutSession p.checkout.stripeSessionId))
    (hholds : HoldsBalance p.rt owner held' t.db balance isNew) :
    (Session.commit (Session.storeGrant p.rt
      (newTransaction p.rt p.checkout.stripeSessionId amount reason owner) balance
        isNew)).Locks inv p.contract SameLocked (fun _ t result => p.Ended t result) held' t := by
  refine Session.locks_commitOn.mpr fun t' hgrows hsame ht' _ => ?_
  obtain ⟨hbalance, hrow, hbalanceEntry⟩ := hholds.of_same hsame
  rcases hstore : Session.storeGrant p.rt
      (newTransaction p.rt p.checkout.stripeSessionId amount reason owner) balance isNew t'.db
    with e | ⟨granted, db'⟩
  · exact ⟨ht', Or.inl rfl, fun k _ => Lock.same_refl k t'.db, trivial⟩
  · obtain ⟨rfl, hgranted⟩ := grant_of_store hone hamount hfits hsum hbalance hstore
    have hgrants : p.Grants t' { t' with db := db' } := by
      refine ⟨amount, reason, owner, db', ?_, hgranted, rfl⟩
      rw [Purchase.grant?_of_grows hgrows]
      exact hgrant
    refine ⟨hinv t' _ hgrants ht', Or.inr hgrants, fun k hk => ?_, Or.inr hgrants.recorded⟩
    refine grant_same hbalance hgranted ?_ ?_ ?_ ?_
    · rintro rfl
      exact hk hentry
    · rintro rfl
      exact hk hsession
    · rintro rfl
      exact hk hrow
    · rintro hnew rfl
      exact hk (hbalanceEntry hnew)

/-- A grant, statement by statement, is granted in one step or not at all. -/
theorem locks_grantCreditsForSession
    (hinv : ∀ t t', p.Grants t t' → inv t → inv t')
    (hgrant : p.grant? w.db = some (amount, reason, owner))
    (hone : oneOwner owner.userId owner.orgId) :
    (Session.grantCreditsForSession p.rt p.checkout.stripeSessionId amount reason
      owner).Locks inv p.contract SameLocked (fun _ t result => p.Ended t result)
        (fun _ => False) w := by
  unfold Session.grantCreditsForSession
  by_cases howner : owner.userId.isNone = owner.orgId.isNone
  · rw [if_pos howner]
    trivial
  rw [if_neg howner]
  by_cases hamount : amount ≤ 0
  · simp only [if_pos hamount]
    trivial
  simp only [if_neg hamount]
  cases hfits : (newTransaction p.rt p.checkout.stripeSessionId amount reason owner).fits with
  | false => exact locks_rollback_error
  | true =>
      simp only [Bool.not_true, Bool.false_eq_true, if_false]
      unfold Session.insert
      rw [Fallible.locks_bind, Session.locks_lock]
      intro t hgrows hsame ht _
      rw [Fallible.lockChain_ok]
      rcases hinsert : (fun _ => ()) <$> insertRow t.db.creditTransactions
          (newTransaction p.rt p.checkout.stripeSessionId amount reason owner) with e | ⟨⟩
      · cases e with
        | integrity message =>
            refine Session.locks_rollback.mpr fun t' hgrows' _ _ _ => Or.inr ?_
            exact (recorded_of_refused hone (by omega) hinsert).of_grows hgrows'
        | _ => exact locks_rollback_error
      · rw [Fallible.locks_bind]
        refine Fallible.Locks.mono (locks_getOrCreateBalance hone) ht ?_
        rintro held' t₁ result _ ⟨hcontinues, hlocked⟩
        rcases result with e | e | ⟨balance, isNew⟩
        · trivial
        · exact locks_rollback_error
        · rw [Fallible.lockChain_ok]
          dsimp only
          cases hsum : fitsInteger (balance.balance + amount) with
          | false => exact locks_rollback_error
          | true =>
              simp only [Bool.not_true, Bool.false_eq_true, if_false]
              have hgrows₁ := hgrows.trans hcontinues.grows
              refine locks_commit_grant hinv ?_ hone (by omega) hfits hsum
                (hcontinues.locked _ (Or.inr ?_)) (hcontinues.locked _ (Or.inr ?_)) hlocked
              · rw [Purchase.grant?_of_grows hgrows₁]
                exact hgrant
              · exact List.mem_cons_self
              · simp

/-- The grant that follows the lookups, and the result the webhook does not read. -/
theorem locks_granted (hinv : ∀ t t', p.Grants t t' → inv t → inv t') (hw : inv w)
    (hgrant : p.grant? w.db = some (amount, reason, owner))
    (hone : oneOwner owner.userId owner.orgId) :
    (do
      let _ ← Session.grantCreditsForSession p.rt p.checkout.stripeSessionId amount reason owner
      pure () : Session σ Unit).Locks inv p.contract SameLocked
        (fun _ t result => p.Ended t result) (fun _ => False) w := by
  rw [Fallible.locks_bind]
  refine Fallible.Locks.mono (locks_grantCreditsForSession hinv hgrant hone) hw ?_
  intro held t result _ hended
  cases result with
  | ok granted => exact hended
  | error e => trivial

theorem productGrant_org {db : Db} {productId : UUID} {product : Product}
    (hproduct : db.productById productId = some product) (userId orgId : UUID) (hcredits : ¬ product.credits ≤ 0) :
    productGrant db productId userId (some orgId) = (db.orgById orgId).map fun org =>
      (product.credits, "purchase:" ++ product.name, ⟨none, some org.id⟩) := by
  unfold productGrant
  rw [hproduct]
  simp only [Option.bind_eq_bind, Option.bind_some, if_neg hcredits]
  cases db.orgById orgId <;> rfl

theorem productGrant_user {db : Db} {productId : UUID} {product : Product}
    (hproduct : db.productById productId = some product) (userId : UUID) (hcredits : ¬ product.credits ≤ 0) :
    productGrant db productId userId none = (db.userById userId).map fun user =>
      (product.credits, "purchase:" ++ product.name, ⟨some user.id, none⟩) := by
  unfold productGrant
  rw [hproduct]
  simp only [Option.bind_eq_bind, Option.bind_some, if_neg hcredits]
  cases db.userById userId <;> rfl

theorem LedgerGrows.product {w w' : World σ} (h : LedgerGrows w w') {productId : UUID}
    {product : Product} (hproduct : w.db.productById productId = some product) :
    w'.db.productById productId = some product := by
  unfold Db.productById
  rw [h.products]
  exact hproduct

/-- A run among others: what it does, it does in one step. -/
theorem Purchase.locks (hinv : ∀ t t', p.Grants t t' → inv t → inv t') :
    p.session.Locks inv p.contract SameLocked (fun _ t result => p.Ended t result)
      (fun _ => False) w := by
  unfold Purchase.session Session.onProductCheckoutCompleted
  rw [Fallible.locks_bind, Session.locks_select]
  intro t hgrows _ ht _
  rw [Fallible.lockChain_ok]
  cases hproduct : t.db.productById p.checkout.productId with
  | none =>
      refine Or.inl ?_
      rw [Purchase.grant?, productGrant, hproduct]
      rfl
  | some product =>
      dsimp only
      by_cases hcredits : product.credits ≤ 0
      · rw [if_pos hcredits]
        refine Or.inl ?_
        rw [Purchase.grant?, productGrant, hproduct]
        exact if_pos hcredits
      · rw [if_neg hcredits]
        cases horg : p.checkout.orgId with
        | some orgId =>
            rw [Fallible.locks_bind, Session.locks_select]
            intro t₂ hgrows₂ _ ht₂ _
            rw [Fallible.lockChain_ok]
            have hgrant : p.grant? t₂.db = (t₂.db.orgById orgId).map fun org =>
                (product.credits, "purchase:" ++ product.name, ⟨none, some org.id⟩) := by
              rw [Purchase.grant?, horg]
              exact productGrant_org (LedgerGrows.product hgrows₂ hproduct) _ orgId hcredits
            cases hfound : t₂.db.orgById orgId with
            | none =>
                rw [hfound] at hgrant
                exact Or.inl hgrant
            | some org =>
                rw [hfound] at hgrant
                exact locks_granted hinv ht₂ hgrant (by simp [oneOwner])
        | none =>
            rw [Fallible.locks_bind, Session.locks_select]
            intro t₂ hgrows₂ _ ht₂ _
            rw [Fallible.lockChain_ok]
            have hgrant : p.grant? t₂.db = (t₂.db.userById p.checkout.userId).map fun user =>
                (product.credits, "purchase:" ++ product.name, ⟨some user.id, none⟩) := by
              rw [Purchase.grant?, horg]
              exact productGrant_user (LedgerGrows.product hgrows₂ hproduct) _ hcredits
            cases hfound : t₂.db.userById p.checkout.userId with
            | none =>
                rw [hfound] at hgrant
                exact Or.inl hgrant
            | some user =>
                rw [hfound] at hgrant
                exact locks_granted hinv ht₂ hgrant (by simp [oneOwner])

end Locks

/-! ## All runs -/

section Runs

variable {ι : Type} {purchases : ι → Purchase σ} {w : World σ}

/-- Any number of purchases, none of which has made a statement. -/
def purchasing (w : World σ) (purchases : ι → Purchase σ) :
    Server ι Label Lock (World σ) (Py Unit) :=
  Server.start w fun i => ExceptT.run (purchases i).session

/-- No two runs have drawn the same id, and none has drawn a stored one. -/
structure FreshIds (purchases : ι → Purchase σ) (db : Db) : Prop where
  distinct : ∀ i j, (purchases i).rt.transactionId = (purchases j).rt.transactionId → i = j
  unused : ∀ i, ∀ t ∈ db.creditTransactions.rows, t.id ≠ (purchases i).rt.transactionId

/-- A row with the id of a run is a row of its session. -/
def OwnIds (purchases : ι → Purchase σ) (db : Db) : Prop :=
  ∀ i, ∀ t ∈ db.creditTransactions.rows, t.id = (purchases i).rt.transactionId →
    t.stripeSessionId = some (purchases i).checkout.stripeSessionId

/-- What holds between any two statements of the runs. -/
structure Purchasing (purchases : ι → Purchase σ) (w t : World σ) : Prop where
  ledger : Ledger t.db
  grows : LedgerGrows w t
  ownIds : FreshIds purchases w.db → OwnIds purchases t.db

theorem Purchasing.start (h : Ledger w.db) : Purchasing purchases w w where
  ledger := h
  grows := LedgerGrows.refl w
  ownIds hfresh i t ht hid := absurd hid (hfresh.unused i t ht)

theorem Purchasing.grants {t t' : World σ} {i : ι} (h : (purchases i).Grants t t')
    (ht : Purchasing purchases w t) : Purchasing purchases w t' := by
  have hgrows := h.grows
  obtain ⟨amount, reason, owner, db', hgrant, hcommit, rfl⟩ := h
  refine ⟨ht.ledger.grant hcommit, ht.grows.trans hgrows, fun hfresh j t hmem hid => ?_⟩
  obtain ⟨_, _, ⟨hfalse, _⟩ | ⟨_, hrows, _, _⟩⟩ := grantCreditsForSession_eq_ok hcommit
  · cases hfalse
  have hmem' : t ∈ db'.creditTransactions.rows := hmem
  rw [hrows, List.mem_append, List.mem_singleton] at hmem'
  rcases hmem' with hold | rfl
  · exact ht.ownIds hfresh j t hold hid
  · have hsame : i = j := hfresh.distinct i j hid
    rw [← hsame]
    rfl

theorem writesLast_purchasing : (purchasing w purchases).WritesLast Session.Succeeds :=
  fun _ => Session.writesLast_onProductCheckoutCompleted _ _ _ _ _

/-- A run that has ended well has its session in the ledger, once. -/
theorem transactionsOf_of_ended {i : ι} {t : World σ} (ht : Purchasing purchases w t)
    (hfresh : FreshIds purchases w.db) (hended : (purchases i).Ended t (.ok ()))
    (hgrant : (purchases i).grant? w.db ≠ none) :
    (t.db.transactionsOf (purchases i).checkout.stripeSessionId).length = 1 := by
  have hone := ht.ledger.once (purchases i).checkout.stripeSessionId
  rcases hended with hnone | ⟨entry, hentry, hkey⟩
  · rw [Purchase.grant?_of_grows ht.grows] at hnone
    exact absurd hnone hgrant
  · have hsession : entry.stripeSessionId = some (purchases i).checkout.stripeSessionId := by
      rcases hkey with hkey | hid
      · exact hkey
      · exact ht.ownIds hfresh i entry hentry hid
    have hmem : entry ∈ t.db.transactionsOf (purchases i).checkout.stripeSessionId :=
      List.mem_filter.mpr ⟨hentry, beq_iff_eq.mpr hsession⟩
    have hpos := List.length_pos_of_mem hmem
    omega

theorem sound_purchases :
    Server.Sound (Purchasing purchases w) (fun i => (purchases i).contract) SameLocked
      (fun i t result => (purchases i).Ended t result) killed where
  same_refl k s := Lock.same_refl k s.db
  same_trans k _ _ _ h h' := Lock.same_trans k h h'
  compatible := by
    intro i j _ s t hguarantee
    rcases hguarantee with rfl | hgrants
    · exact LedgerGrows.refl _
    · exact hgrants.grows
  stable _ _ _ _ hgrows _ hended := hended.of_grows hgrows
  aborted _ _ _ := trivial

variable [DecidableEq ι]

abbrev purchaseStep : Server ι Label Lock (World σ) (Py Unit) → Move ι →
    Server ι Label Lock (World σ) (Py Unit) :=
  Server.step killed

theorem locks_purchasing (purchases : ι → Purchase σ) (hledger : Ledger w.db)
    (schedule : List (Move ι)) :
    Runs.Always purchaseStep
      (Server.Locks (Purchasing purchases w) (fun i => (purchases i).contract) SameLocked
        fun i t result => (purchases i).Ended t result)
      (purchasing w purchases) schedule := by
  have hstart : (purchasing w purchases).Locks (Purchasing purchases w)
      (fun i => (purchases i).contract) SameLocked
      fun i t result => (purchases i).Ended t result :=
    Server.locks_start (Purchasing.start hledger)
      fun i => Purchase.locks fun _ _ => Purchasing.grants
  exact Server.run_locks sound_purchases hstart
    (Server.respects_of_assume (fun _ _ _ => trivial) _ schedule)

/-- A statement that changes something ends its run, and grants. -/
theorem purchaseStep_grants {server : Server ι Label Lock (World σ) (Py Unit)}
    (hlocks : server.Locks (Purchasing purchases w) (fun i => (purchases i).contract) SameLocked
      fun i t result => (purchases i).Ended t result)
    (hlast : server.WritesLast Session.Succeeds) (move : Move ι) :
    (purchaseStep server move).shared = server.shared ∨
      ∃ i, move = .step i ∧ (purchaseStep server move).procs i = .done (.ok ()) ∧
        (purchases i).Grants server.shared (purchaseStep server move).shared := by
  have hruns : Runs.Steps purchaseStep (Server.Respects fun i => (purchases i).contract) server
      [move] := Server.respects_of_assume (fun _ _ _ => trivial) server [move]
  have hguarantee := (Server.step_locks sound_purchases hlocks (hruns [] move [] rfl)).2
  obtain ⟨-, hmoved⟩ : (purchaseStep server move).WritesLast Session.Succeeds ∧ _ :=
    Server.step_writesLast hlast move
  rcases hmoved with hsame | ⟨i, result, rfl, hdone, ⟨⟨⟩, rfl⟩⟩
  · exact Or.inl hsame
  · rcases hguarantee with hsame | ⟨j, hstep, hsame | hgrants⟩
    · exact Or.inl hsame
    · exact Or.inl hsame
    · obtain rfl : i = j := Move.step.inj hstep
      exact Or.inr ⟨i, rfl, hdone, hgrants⟩

/-- **The credit ledger.**  Under every schedule of any number of purchases, with
redeliveries and killed runs:

* balances and ledger agree in every state, and every row has one owner;
* a statement changes nothing, or it is the last of a run that ends well and
  stores that run's grant as a whole;
* a run that fails or is killed has changed nothing;
* a session whose run has ended well is in the ledger exactly once. -/
theorem ledger_kept (purchases : ι → Purchase σ) (w : World σ) (hledger : Ledger w.db)
    (schedule : List (Move ι)) :
    Runs.Always purchaseStep (fun server => Ledger server.shared.db) (purchasing w purchases)
        schedule ∧
      Runs.Steps purchaseStep
        (fun server move => (purchaseStep server move).shared = server.shared ∨
          ∃ i, move = .step i ∧ (purchaseStep server move).procs i = .done (.ok ()) ∧
            (purchases i).Grants server.shared (purchaseStep server move).shared)
        (purchasing w purchases) schedule ∧
      (∀ i e, (Runs.run purchaseStep (purchasing w purchases) schedule).procs i =
          .done (.error e) →
        Runs.Steps purchaseStep
          (fun server move => move = .step i →
            (purchaseStep server move).shared = server.shared)
          (purchasing w purchases) schedule) ∧
      (FreshIds purchases w.db → ∀ i,
        (Runs.run purchaseStep (purchasing w purchases) schedule).procs i = .done (.ok ()) →
        (purchases i).grant? w.db ≠ none →
        ((Runs.run purchaseStep (purchasing w purchases) schedule).shared.db.transactionsOf
          (purchases i).checkout.stripeSessionId).length = 1) := by
  have hlocks := locks_purchasing purchases hledger schedule
  refine ⟨hlocks.mono fun _ h => h.1.ledger, ?_, ?_, ?_⟩
  · intro first move rest hsplit
    have hlast : Runs.Always purchaseStep (Server.WritesLast Session.Succeeds)
        (purchasing w purchases) first :=
      Runs.always_of_invariant (fun _ move h => (Server.step_writesLast h move).1)
        writesLast_purchasing first
    exact purchaseStep_grants (hlocks first (move :: rest) hsplit) hlast.final move
  · intro i e hdone
    refine Server.unchanged_of_not_good writesLast_purchasing ?_ hdone
    rintro ⟨_, hfalse⟩
    cases hfalse
  · intro hfresh i hdone hgrant
    exact transactionsOf_of_ended hlocks.final.1 hfresh (hlocks.final.of_done hdone) hgrant

end Runs

/-! ### A session delivered twice -/

def tenCredits : Product where
  id := 50#128
  name := "Ten credits"
  credits := 10
  isActive := true

def creditsDb : Db where
  toTables := { sampleDb.toTables with products := ⟨[tenCredits], by decide⟩ }
  integral := by decide +kernel

/-- Two deliveries of one session. -/
def redelivered (i : Fin 2) : Purchase Unit where
  rt := sampleRuntime noStripe i 0
  checkout := ⟨"cs_1", tenCredits.id, buyer.id, none⟩

/-- The second run is at its insert when the first has made its own; it waits, and
finds the session in the ledger. -/
def overlapping : List (Move (Fin 2)) :=
  [.step 0, .step 1, .step 0, .step 0, .step 1, .step 1, .step 0, .step 0, .step 0, .step 0,
    .step 1, .step 1]

theorem ledger_kept_redelivered :
    Runs.Always purchaseStep (fun server => Ledger server.shared.db)
        (purchasing ⟨creditsDb, (), []⟩ redelivered) overlapping ∧
      ((Runs.run purchaseStep (purchasing ⟨creditsDb, (), []⟩ redelivered)
        overlapping).shared.db.transactionsOf "cs_1").length = 1 := by
  have hledger : Ledger creditsDb := Ledger.of_balanced fun _ => rfl
  have hfresh : FreshIds redelivered creditsDb := by
    constructor
    · decide
    · intro _ t ht
      cases ht
  have hgrant : (redelivered 0).grant? creditsDb ≠ none := by decide +kernel
  have hended : ((Runs.run purchaseStep (purchasing ⟨creditsDb, (), []⟩ redelivered)
      overlapping).procs 0).result? = some (.ok ()) := by decide +kernel
  have hkept := ledger_kept redelivered ⟨creditsDb, (), []⟩ hledger overlapping
  exact ⟨hkept.1, hkept.2.2.2 hfresh 0 (Program.result?_eq_some.mp hended) hgrant⟩

end Saasmint
