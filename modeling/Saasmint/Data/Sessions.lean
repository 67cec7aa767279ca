import Saasmint.Data.World
import Saasmint.Library.Locking

/-!
# Statements

A `Session` is a program over worlds that makes one statement at a time.  Inside
a transaction a statement locks the rows it writes or selects `FOR UPDATE`, and
the unique index entries of the rows it inserts; `commit` stores what the
transaction has written and `rollback` does not.  A statement outside a
transaction is `execute`: it waits for its locks like any other and commits at
once.

What a lock protects is `Lock.Same`: the rows it stands for.
-/

namespace Saasmint

open Atomic Relational

/-! ## Locks -/

/-- Rows, by their primary keys, and entries of unique indexes. -/
inductive Lock
  | user (id : UUID)
  | member (id : UUID)
  | invitation (id : UUID)
  | subscription (id : UUID)
  | balance (id : UUID)
  | transaction (id : UUID)
  | email (text : String)
  | membership (orgId userId : UUID)
  | ownership (userId : UUID)
  | invitationToken (text : String)
  | pendingInvitation (orgId : UUID) (email : String)
  | checkoutSession (stripeSessionId : String)
  | balanceOf (userId orgId : Option UUID)
deriving DecidableEq

/-- The two tables have the same rows among those `p` selects. -/
def SameRows {α : Type} [Row α] (p : α → Prop) (t t' : Table α) : Prop :=
  ∀ a, p a → (a ∈ t.rows ↔ a ∈ t'.rows)

/-- A row that `p` selects is in both tables, or in neither. -/
def SameEntry {α : Type} [Row α] (p : α → Prop) (t t' : Table α) : Prop :=
  (∃ a ∈ t.rows, p a) ↔ ∃ a ∈ t'.rows, p a

namespace Lock

/-- What the lock stands for is the same in both databases: the row, or that there
is a row with the key. -/
def Same : Lock → Db → Db → Prop
  | user id, db, db' => SameRows (fun u => u.id = id) db.users db'.users
  | member id, db, db' => SameRows (fun m => m.id = id) db.members db'.members
  | invitation id, db, db' => SameRows (fun i => i.id = id) db.invitations db'.invitations
  | subscription id, db, db' => SameRows (fun s => s.id = id) db.subscriptions db'.subscriptions
  | balance id, db, db' => SameRows (fun b => b.id = id) db.creditBalances db'.creditBalances
  | transaction id, db, db' =>
      SameRows (fun t => t.id = id) db.creditTransactions db'.creditTransactions
  | email text, db, db' => SameEntry (fun u => lower u.email = lower text) db.users db'.users
  | membership orgId userId, db, db' =>
      SameEntry (fun m => m.orgId = orgId ∧ m.userId = userId) db.members db'.members
  | ownership userId, db, db' =>
      SameEntry (fun m => m.userId = userId ∧ m.role = .owner) db.members db'.members
  | invitationToken text, db, db' =>
      SameEntry (fun i => i.token = text) db.invitations db'.invitations
  | pendingInvitation orgId address, db, db' =>
      SameEntry (fun i => i.orgId = orgId ∧ i.email = address ∧ i.status = .pending)
        db.invitations db'.invitations
  | checkoutSession stripeSessionId, db, db' =>
      SameEntry (fun t => t.stripeSessionId = some stripeSessionId)
        db.creditTransactions db'.creditTransactions
  | balanceOf userId orgId, db, db' =>
      SameEntry (fun b => b.userId = userId ∧ b.orgId = orgId)
        db.creditBalances db'.creditBalances

theorem same_refl (k : Lock) (db : Db) : k.Same db db := by
  cases k <;> first | exact fun _ _ => Iff.rfl | exact Iff.rfl

theorem same_trans (k : Lock) {db db' db'' : Db} (h : k.Same db db') (h' : k.Same db' db'') :
    k.Same db db'' := by
  cases k <;> first | exact fun a ha => (h a ha).trans (h' a ha) | exact Iff.trans h h'

end Lock

/-- `Lock.Same` of two worlds. -/
def SameLocked {σ : Type} (k : Lock) (w w' : World σ) : Prop := k.Same w.db w'.db

/-! ## Statements -/

/-- What a request has read and decided upon, when it writes. -/
inductive Basis
  | member (row : OrgMember)
  | invitation (row : Invitation)
  | memberCount (orgId : UUID) (count : ℕ)
deriving DecidableEq

/-- What was read is still so: the member is an owner if it was one, the invitation
has its status, nobody has joined. -/
def Basis.Current : Basis → Db → Prop
  | member row, db => ∀ m ∈ db.members.rows, m.id = row.id → (m.role = .owner ↔ row.role = .owner)
  | invitation row, db => ∀ i ∈ db.invitations.rows, i.id = row.id → i.status = row.status
  | memberCount orgId count, db => (db.members.filter fun m => m.orgId == orgId).length ≤ count

instance (basis : Basis) (db : Db) : Decidable (basis.Current db) := by
  cases basis <;> unfold Basis.Current <;> infer_instance

inductive Label
  | select
  | lock
  | commit (basis : List Basis)
  | execute (basis : List Basis)
  | rollback
  | stripe (call : StripeCall)
  | enqueue (task : Task)
deriving DecidableEq

/-- What a statement that writes is based on. -/
def Label.basis : Label → List Basis
  | commit basis | execute basis => basis
  | _ => []

def Label.call? : Label → Option StripeCall
  | stripe call => some call
  | _ => none

/-- The calls to Stripe among the statements of a run, each with the world it finds. -/
def stripeCalls {σ : Type} (log : List (Statement Label Lock (World σ) × World σ)) :
    List (StripeCall × World σ) :=
  log.filterMap fun (statement, w) => statement.label.call?.map fun call => (call, w)

/-- What the program of a killed connection sees. -/
def PyError.terminated : PyError :=
  .operational "terminating connection due to administrator command"

/-- What a killed run ends with. -/
abbrev killed : Py Unit := .error .terminated

abbrev Session (σ α : Type) := Fallible PyError (Statement Label Lock (World σ)) (World σ) α

namespace Session

variable {σ α β : Type}

/-- A step that makes no statement. -/
def lift (result : Py α) : Session σ α := Fallible.ofExcept result

/-- `SELECT`. -/
def select (f : Db → α) : Session σ α :=
  Fallible.observe ⟨.select, fun _ => [], false⟩ fun w => f w.db

/-- A statement of a transaction that locks what it selects or is about to write. -/
def lock (wants : Db → List Lock) (f : Db → α) : Session σ α :=
  Fallible.observe ⟨.lock, fun w => wants w.db, false⟩ fun w => f w.db

/-- `INSERT`: waits for whoever has locked a key of the row, and is refused if a
stored row has it. -/
def insert {ρ : Type} [Row ρ] (keys : List Lock) (table : Db → Table ρ) (row : ρ) :
    Session σ (Py Unit) :=
  lock (fun _ => keys) fun db => (fun _ => ()) <$> insertRow (table db) row

/-- Stores what the transaction has written. -/
def commitOn (basis : List Basis) (f : Db → Py (α × Db)) : Session σ α :=
  Fallible.atomic ⟨.commit basis, fun _ => [], true⟩ fun w => Handler.settle w (f w.db)

abbrev commit (f : Db → Py (α × Db)) : Session σ α := commitOn [] f

/-- A write outside a transaction. -/
def execute (basis : List Basis) (wants : Db → List Lock) (f : Db → Py (α × Db)) :
    Session σ α :=
  Fallible.atomic ⟨.execute basis, fun w => wants w.db, true⟩ fun w => Handler.settle w (f w.db)

/-- Ends the transaction without a write. -/
def rollback (result : Py α) : Session σ α :=
  Fallible.atomic ⟨.rollback, fun _ => [], true⟩ fun w => (result, w)

def callStripe (rt : Runtime σ) (call : StripeCall) : Session σ Json :=
  Fallible.atomic ⟨.stripe call, fun _ => [], false⟩ fun w =>
    ((rt.stripe.call call w.stripe).1, { w with stripe := (rt.stripe.call call w.stripe).2 })

/-- `task.delay(...)`. -/
def enqueue (rt : Runtime σ) (task : Task) : Session σ Unit :=
  Fallible.atomic ⟨.enqueue task, fun _ => [], false⟩ fun w =>
    if rt.brokerUp then (.ok (), { w with queue := w.queue ++ [task] })
    else (.error (.broker "broker connection refused"), w)

/-- The statements of a handler, whose writes are outside a transaction and based on
`basis`. -/
def statementOf (basis : List Basis) : Action → Statement Label Lock (World σ)
  | .query | .readSubscription => ⟨.select, fun _ => [], false⟩
  | .saveSubscription _ row => ⟨.execute basis, fun _ => [.subscription row.id], true⟩
  | .transaction => ⟨.execute basis, fun _ => [], true⟩
  | .stripe call => ⟨.stripe call, fun _ => [], false⟩
  | .enqueue task => ⟨.enqueue task, fun _ => [], false⟩

/-- A handler as a session. -/
def ofHandler (basis : List Basis) (p : Handler σ α) : Session σ α :=
  Fallible.relabel (statementOf basis) p

section OfHandler

variable (basis : List Basis)

@[simp] theorem ofHandler_pure (a : α) : ofHandler basis (pure a : Handler σ α) = pure a := rfl

@[simp] theorem ofHandler_throw (e : PyError) :
    ofHandler basis (throw e : Handler σ α) = throw e := rfl

@[simp] theorem ofHandler_bind (p : Handler σ α) (rest : α → Handler σ β) :
    ofHandler basis (p >>= rest) = ofHandler basis p >>= fun a => ofHandler basis (rest a) :=
  Fallible.relabel_bind _ p rest

@[simp] theorem ofHandler_lift (result : Py α) :
    ofHandler basis (Handler.lift result : Handler σ α) = lift result := rfl

@[simp] theorem ofHandler_query (f : Db → α) :
    ofHandler basis (Handler.query f : Handler σ α) = select f := rfl

@[simp] theorem ofHandler_readSubscription (f : Db → α) :
    ofHandler basis (Handler.readSubscription f : Handler σ α) = select f := rfl

@[simp] theorem ofHandler_saveSubscription (now : Datetime) (row : Subscription) :
    ofHandler basis (Handler.saveSubscription now row : Handler σ Unit) =
      execute basis (fun _ => [.subscription row.id]) fun db =>
        (fun db => ((), db)) <$> db.saveSubscription now row := rfl

@[simp] theorem ofHandler_callStripe (rt : Runtime σ) (call : StripeCall) :
    ofHandler basis (Handler.callStripe rt call) = callStripe rt call := rfl

/-- Alone, it is the handler. -/
theorem exec_ofHandler (p : Handler σ α) (w : World σ) :
    Fallible.exec (ofHandler basis p) w = Fallible.exec p w :=
  Fallible.exec_relabel _ p w

end OfHandler

/-! ## Running alone -/

variable (w : World σ)

@[simp] theorem exec_lift (result : Py α) :
    Fallible.exec (lift result : Session σ α) w = (result, w) := rfl

@[simp] theorem exec_select (f : Db → α) :
    Fallible.exec (select f : Session σ α) w = (.ok (f w.db), w) := rfl

theorem exec_select_bind (f : Db → α) (rest : α → Session σ β) :
    Fallible.exec (select f >>= rest) w = Fallible.exec (rest (f w.db)) w := rfl

theorem exec_lift_bind_eq_ok {result : Py α} {rest : α → Session σ β} {b : β} {s t : World σ} :
    Fallible.exec (lift result >>= rest) s = (.ok b, t) ↔
      ∃ a, result = .ok a ∧ Fallible.exec (rest a) s = (.ok b, t) := by
  rw [Fallible.exec_bind, exec_lift]
  cases result <;> simp

@[simp] theorem exec_lock (wants : Db → List Lock) (f : Db → α) :
    Fallible.exec (lock wants f : Session σ α) w = (.ok (f w.db), w) := rfl

@[simp] theorem exec_insert {ρ : Type} [Row ρ] (keys : List Lock) (table : Db → Table ρ)
    (row : ρ) : Fallible.exec (insert keys table row : Session σ (Py Unit)) w =
      (.ok ((fun _ => ()) <$> insertRow (table w.db) row), w) := rfl

@[simp] theorem exec_commitOn (basis : List Basis) (f : Db → Py (α × Db)) :
    Fallible.exec (commitOn basis f : Session σ α) w = Handler.settle w (f w.db) := rfl

@[simp] theorem exec_execute (basis : List Basis) (wants : Db → List Lock)
    (f : Db → Py (α × Db)) : Fallible.exec (execute basis wants f : Session σ α) w = Handler.settle w (f w.db) := rfl

@[simp] theorem exec_callStripe (rt : Runtime σ) (call : StripeCall) :
    Fallible.exec (callStripe rt call) w =
      ((rt.stripe.call call w.stripe).1,
        { w with stripe := (rt.stripe.call call w.stripe).2 }) := rfl

@[simp] theorem exec_enqueue (rt : Runtime σ) (task : Task) :
    Fallible.exec (enqueue rt task) w =
      if rt.brokerUp then (.ok (), { w with queue := w.queue ++ [task] })
      else (.error (.broker "broker connection refused"), w) := rfl

@[simp] theorem exec_rollback (result : Py α) :
    Fallible.exec (rollback result : Session σ α) w = (result, w) := rfl

section Ends

variable {post : Py α → World σ → Prop} {w : World σ}

@[simp] theorem ends_lift {result : Py α} :
    (lift result : Session σ α).Ends post w ↔ post result w := Iff.rfl

@[simp] theorem ends_select {f : Db → α} :
    (select f : Session σ α).Ends post w ↔ post (.ok (f w.db)) w := Iff.rfl

@[simp] theorem ends_lock {wants : Db → List Lock} {f : Db → α} :
    (lock wants f : Session σ α).Ends post w ↔ post (.ok (f w.db)) w := Iff.rfl

@[simp] theorem ends_rollback {result : Py α} :
    (rollback result : Session σ α).Ends post w ↔ post result w := Iff.rfl

/-- A write is stored, or refused without a trace. -/
theorem ends_commitOn {basis : List Basis} {f : Db → Py (α × Db)}
    (herror : ∀ e, post (.error e) w)
    (hok : ∀ a db, f w.db = .ok (a, db) → post (.ok a) { w with db := db }) :
    (commitOn basis f : Session σ α).Ends post w := by
  show post (Handler.settle w (f w.db)).1 (Handler.settle w (f w.db)).2
  rcases hf : f w.db with e | ⟨a, db⟩
  · exact herror e
  · exact hok a db hf

theorem ends_execute {basis : List Basis} {wants : Db → List Lock} {f : Db → Py (α × Db)}
    (herror : ∀ e, post (.error e) w)
    (hok : ∀ a db, f w.db = .ok (a, db) → post (.ok a) { w with db := db }) :
    (execute basis wants f : Session σ α).Ends post w :=
  @ends_commitOn σ α post w basis f herror hok

@[simp] theorem ends_callStripe {post : Py Json → World σ → Prop} {rt : Runtime σ}
    {call : StripeCall} : (callStripe rt call).Ends post w ↔
      post (rt.stripe.call call w.stripe).1
        { w with stripe := (rt.stripe.call call w.stripe).2 } := Iff.rfl

end Ends

section Calls

variable {w : World σ}

/-- Run alone from `w`, the session ends with its calls to Stripe, an outcome and a
world in `post`. -/
def Calls (post : List (StripeCall × World σ) → Py α → World σ → Prop) (p : Session σ α)
    (w : World σ) : Prop :=
  Fallible.Logs (fun log => post (stripeCalls log)) p w

/-- The postcondition of a first part, for `Calls`. -/
def FollowCalls (post : List (StripeCall × World σ) → Py β → World σ → Prop)
    (rest : α → Session σ β) (calls : List (StripeCall × World σ)) : Py α → World σ → Prop
  | .ok a, w => (rest a).Calls (fun more => post (calls ++ more)) w
  | .error e, w => post calls (.error e) w

@[simp] theorem calls_pure {post : List (StripeCall × World σ) → Py α → World σ → Prop} {a : α} :
    (pure a : Session σ α).Calls post w ↔ post [] (.ok a) w := Iff.rfl

@[simp] theorem calls_throw {post : List (StripeCall × World σ) → Py α → World σ → Prop}
    {e : PyError} : (throw e : Session σ α).Calls post w ↔ post [] (.error e) w := Iff.rfl

theorem calls_bind {post : List (StripeCall × World σ) → Py β → World σ → Prop}
    {p : Session σ α} {rest : α → Session σ β} :
    (p >>= rest).Calls post w ↔ p.Calls (FollowCalls post rest) w := by
  unfold Calls
  rw [Fallible.logs_bind]
  unfold Fallible.Logs
  cases (Fallible.exec p w).1 with
  | error e => rfl
  | ok a =>
      rw [Fallible.followLog_ok]
      unfold FollowCalls Calls Fallible.Logs stripeCalls
      simp only [List.filterMap_append]

theorem Calls.mono {post post' : List (StripeCall × World σ) → Py α → World σ → Prop}
    {p : Session σ α} (h : p.Calls post w)
    (himp : ∀ calls result t, post calls result t → post' calls result t) : p.Calls post' w :=
  Fallible.Logs.mono h fun _ => himp _

theorem calls_tryCatch {post : List (StripeCall × World σ) → Py α → World σ → Prop}
    {p : Session σ α} {handle : PyError → Session σ α} :
    (tryCatch p handle : Session σ α).Calls post w ↔ p.Calls (fun calls result t => match result with
      | .ok a => post calls (.ok a) t
      | .error e => (handle e).Calls (fun more => post (calls ++ more)) t) w := by
  unfold Calls
  rw [Fallible.logs_tryCatch]
  unfold Fallible.Logs
  cases (Fallible.exec p w).1 with
  | ok a => rfl
  | error e => simp only [stripeCalls, List.filterMap_append]

/-- The session calls nobody, whatever it finds. -/
def Silent (p : Session σ α) : Prop := ∀ w, stripeCalls (Fallible.trace p w) = []

/-- What is known of the end of a session that calls nobody is all there is. -/
theorem Silent.calls {post : List (StripeCall × World σ) → Py α → World σ → Prop}
    {p : Session σ α} (hp : p.Silent) (h : p.Ends (post []) w) : p.Calls post w := by
  show post (stripeCalls (Fallible.trace p w)) _ _
  rw [hp w]
  exact h

theorem silent_iff_calls {p : Session σ α} :
    p.Silent ↔ ∀ w, p.Calls (fun calls _ _ => calls = []) w := Iff.rfl

theorem silent_bind {p : Session σ α} {rest : α → Session σ β} (hp : p.Silent)
    (hrest : ∀ a, (rest a).Silent) : (p >>= rest).Silent := by
  refine silent_iff_calls.mpr fun w => calls_bind.mpr (hp.calls ?_)
  unfold Fallible.Ends
  cases (Fallible.exec p w).1 with
  | error e => exact (rfl : ([] : List (StripeCall × World σ)) = [])
  | ok a => exact hrest a _

theorem silent_pure (a : α) : (pure a : Session σ α).Silent := fun _ => rfl

theorem silent_throw (e : PyError) : (throw e : Session σ α).Silent := fun _ => rfl

theorem silent_lift (result : Py α) : (lift result : Session σ α).Silent := fun _ => rfl

theorem silent_select (f : Db → α) : (select f : Session σ α).Silent := fun _ => rfl

theorem silent_lock (wants : Db → List Lock) (f : Db → α) :
    (lock wants f : Session σ α).Silent := fun _ => rfl

theorem silent_commitOn (basis : List Basis) (f : Db → Py (α × Db)) :
    (commitOn basis f : Session σ α).Silent := fun _ => rfl

theorem silent_enqueue (rt : Runtime σ) (task : Task) : (enqueue rt task).Silent := fun _ => rfl

theorem calls_callStripe {post : List (StripeCall × World σ) → Py Json → World σ → Prop}
    {rt : Runtime σ} {call : StripeCall} : (callStripe rt call).Calls post w ↔
      post [(call, w)] (rt.stripe.call call w.stripe).1
        { w with stripe := (rt.stripe.call call w.stripe).2 } := Iff.rfl

end Calls

/-! ## Writing last -/

theorem quiet_lift (result : Py α) : (lift result : Session σ α).Quiet := trivial

theorem quiet_select (f : Db → α) : (select f : Session σ α).Quiet := Fallible.quiet_observe _ _

theorem quiet_lock (wants : Db → List Lock) (f : Db → α) : (lock wants f : Session σ α).Quiet :=
  Fallible.quiet_observe _ _

theorem quiet_insert {ρ : Type} [Row ρ] (keys : List Lock) (table : Db → Table ρ) (row : ρ) :
    (insert keys table row : Session σ (Py Unit)).Quiet :=
  quiet_lock _ _

theorem quiet_rollback (result : Py α) : (rollback result : Session σ α).Quiet :=
  fun _ => Or.inl ⟨rfl, trivial⟩

/-- The result is no error. -/
def Succeeds (result : Py α) : Prop := ∃ a, result = .ok a

/-- A commit that fails stores nothing. -/
theorem writesLast_commit (f : Db → Py (α × Db)) :
    (commit f : Session σ α).WritesLast Succeeds := by
  refine Fallible.writesLast_atomic fun w => ?_
  rcases f w.db with e | ⟨a, db⟩
  · exact Or.inl rfl
  · exact Or.inr ⟨a, rfl⟩

/-! ## Moving the database -/

/-- `rel`, of the databases of two worlds. -/
def OnDb (rel : Db → Db → Prop) (w w' : World σ) : Prop := rel w.db w'.db

section Moves

variable {rel : Db → Db → Prop}

theorem moves_of_quiet (hrefl : ∀ db, rel db db) {p : Session σ α} (hp : p.Quiet) :
    p.Moves (OnDb rel) :=
  hp.moves fun w => hrefl w.db

theorem moves_callStripe (hrefl : ∀ db, rel db db) (rt : Runtime σ) (call : StripeCall) :
    (callStripe rt call).Moves (OnDb rel) :=
  Fallible.moves_atomic fun w => hrefl w.db

theorem moves_commitOn (hrefl : ∀ db, rel db db) {basis : List Basis} {f : Db → Py (α × Db)}
    (h : ∀ db a db', f db = .ok (a, db') → rel db db') :
    (commitOn basis f : Session σ α).Moves (OnDb rel) := by
  refine Fallible.moves_atomic fun w => ?_
  rcases hf : f w.db with e | ⟨a, db⟩
  · exact hrefl w.db
  · exact h w.db a db hf

theorem moves_execute (hrefl : ∀ db, rel db db) {basis : List Basis} {wants : Db → List Lock}
    {f : Db → Py (α × Db)} (h : ∀ db a db', f db = .ok (a, db') → rel db db') :
    (execute basis wants f : Session σ α).Moves (OnDb rel) := by
  refine Fallible.moves_atomic fun w => ?_
  rcases hf : f w.db with e | ⟨a, db⟩
  · exact hrefl w.db
  · exact h w.db a db hf

end Moves

/-! ## Among others -/

section Locks

variable {inv : World σ → Prop} {contract : Contract (Statement Label Lock (World σ)) (World σ)}
variable {post : (Lock → Prop) → World σ → Py α → Prop} {held : Lock → Prop} {w : World σ}

section Same

variable {same : Lock → World σ → World σ → Prop}

@[simp] theorem locks_lift_same {result : Py α} :
    (lift result : Session σ α).Locks inv contract same post held w ↔ post held w result := Iff.rfl

theorem locks_select_same (hsame : ∀ k s, same k s s) {f : Db → α} :
    (select f : Session σ α).Locks inv contract same post held w ↔
      ∀ t, contract.rely w t → (∀ k, held k → same k w t) → inv t →
        contract.assume ⟨.select, fun _ => [], false⟩ t → post held t (.ok (f t.db)) := by
  unfold select
  rw [Fallible.locks_observe hsame]
  have hheld : heldAfter false held [] = held := by
    funext k
    simp [heldAfter]
  simp only [hheld]

theorem locks_lock_same (hsame : ∀ k s, same k s s) {wants : Db → List Lock} {f : Db → α} :
    (lock wants f : Session σ α).Locks inv contract same post held w ↔
      ∀ t, contract.rely w t → (∀ k, held k → same k w t) → inv t →
        contract.assume ⟨.lock, fun w => wants w.db, false⟩ t →
        post (fun k => held k ∨ k ∈ wants t.db) t (.ok (f t.db)) := by
  unfold lock
  rw [Fallible.locks_observe hsame]
  rfl

theorem locks_rollback_same (hsame : ∀ k s, same k s s) {result : Py α} :
    (rollback result : Session σ α).Locks inv contract same post held w ↔
      ∀ t, contract.rely w t → (∀ k, held k → same k w t) → inv t →
        contract.assume ⟨.rollback, fun _ => [], true⟩ t → post (fun _ => False) t result := by
  unfold rollback
  rw [Fallible.locks_atomic]
  simp only [List.not_mem_nil, not_false_eq_true, forall_const, heldAfter, if_true]
  constructor
  · intro h t hrely hheld ht hassume
    exact (h t hrely hheld ht hassume).2.2.2
  · intro h t hrely hheld ht hassume
    exact ⟨ht, contract.guarantee_refl t, fun k _ => hsame k t, h t hrely hheld ht hassume⟩

/-- A write among others that hold locks: stored, or refused without a trace. -/
theorem locks_commitOn_same (hsame : ∀ k s, same k s s) {basis : List Basis}
    {f : Db → Py (α × Db)}
    (herror : ∀ t e, inv t → post (fun _ => False) t (.error e))
    (hok : ∀ t a db, contract.rely w t → (∀ k, held k → same k w t) → inv t →
      contract.assume ⟨.commit basis, fun _ => [], true⟩ t → f t.db = .ok (a, db) →
      inv { t with db := db } ∧ contract.guarantee t { t with db := db } ∧
        (∀ k, ¬ held k → same k t { t with db := db }) ∧
          post (fun _ => False) { t with db := db } (.ok a)) :
    (commitOn basis f : Session σ α).Locks inv contract same post held w := by
  unfold commitOn
  rw [Fallible.locks_atomic]
  simp only [List.not_mem_nil, not_false_eq_true, forall_const, heldAfter, if_true]
  intro t hrely hheld ht hassume
  rcases hf : f t.db with e | ⟨a, db⟩
  · exact ⟨ht, contract.guarantee_refl t, fun k _ => hsame k t, herror t e ht⟩
  · exact hok t a db hrely hheld ht hassume hf

theorem locks_execute_same (hsame : ∀ k s, same k s s) {basis : List Basis}
    {wants : Db → List Lock} {f : Db → Py (α × Db)}
    (herror : ∀ t e, inv t → post (fun _ => False) t (.error e))
    (hok : ∀ t a db, contract.rely w t → (∀ k, held k → same k w t) → inv t →
      contract.assume ⟨.execute basis, fun w => wants w.db, true⟩ t → f t.db = .ok (a, db) →
      inv { t with db := db } ∧ contract.guarantee t { t with db := db } ∧
        (∀ k, ¬ held k → k ∉ wants t.db → same k t { t with db := db }) ∧
          post (fun _ => False) { t with db := db } (.ok a)) :
    (execute basis wants f : Session σ α).Locks inv contract same post held w := by
  unfold execute
  rw [Fallible.locks_atomic]
  simp only [heldAfter, if_true]
  intro t hrely hheld ht hassume
  rcases hf : f t.db with e | ⟨a, db⟩
  · exact ⟨ht, contract.guarantee_refl t, fun k _ _ => hsame k t, herror t e ht⟩
  · exact hok t a db hrely hheld ht hassume hf

end Same

@[simp] theorem locks_lift {result : Py α} :
    (lift result : Session σ α).Locks inv contract SameLocked post held w ↔
      post held w result := Iff.rfl

theorem locks_select {f : Db → α} :
    (select f : Session σ α).Locks inv contract SameLocked post held w ↔
      ∀ t, contract.rely w t → (∀ k, held k → SameLocked k w t) → inv t →
        contract.assume ⟨.select, fun _ => [], false⟩ t → post held t (.ok (f t.db)) :=
  locks_select_same fun k s => Lock.same_refl k s.db

theorem locks_lock {wants : Db → List Lock} {f : Db → α} :
    (lock wants f : Session σ α).Locks inv contract SameLocked post held w ↔
      ∀ t, contract.rely w t → (∀ k, held k → SameLocked k w t) → inv t →
        contract.assume ⟨.lock, fun w => wants w.db, false⟩ t →
        post (fun k => held k ∨ k ∈ wants t.db) t (.ok (f t.db)) :=
  locks_lock_same fun k s => Lock.same_refl k s.db

theorem locks_commitOn {basis : List Basis} {f : Db → Py (α × Db)} :
    (commitOn basis f : Session σ α).Locks inv contract SameLocked post held w ↔
      ∀ t, contract.rely w t → (∀ k, held k → SameLocked k w t) → inv t →
        contract.assume ⟨.commit basis, fun _ => [], true⟩ t →
        inv (Handler.settle t (f t.db)).2 ∧
          contract.guarantee t (Handler.settle t (f t.db)).2 ∧
          (∀ k, ¬ held k → SameLocked k t (Handler.settle t (f t.db)).2) ∧
          post (fun _ => False) (Handler.settle t (f t.db)).2 (Handler.settle t (f t.db)).1 := by
  unfold commitOn
  rw [Fallible.locks_atomic]
  simp only [List.not_mem_nil, not_false_eq_true, forall_const, heldAfter, if_true]

theorem locks_rollback {result : Py α} :
    (rollback result : Session σ α).Locks inv contract SameLocked post held w ↔
      ∀ t, contract.rely w t → (∀ k, held k → SameLocked k w t) → inv t →
        contract.assume ⟨.rollback, fun _ => [], true⟩ t → post (fun _ => False) t result :=
  locks_rollback_same fun k s => Lock.same_refl k s.db

end Locks

section Meets

variable {inv : World σ → Prop} {contract : Contract (Statement Label Lock (World σ)) (World σ)}
variable {post : World σ → Py α → Prop} {w : World σ}

@[simp] theorem meets_lift {result : Py α} :
    (lift result : Session σ α).Meets inv contract post w ↔ post w result := Iff.rfl

theorem meets_select {f : Db → α} : (select f : Session σ α).Meets inv contract post w ↔
    ∀ t, contract.rely w t → inv t → contract.assume ⟨.select, fun _ => [], false⟩ t →
      post t (.ok (f t.db)) :=
  Fallible.meets_observe

theorem meets_lock {wants : Db → List Lock} {f : Db → α} :
    (lock wants f : Session σ α).Meets inv contract post w ↔
      ∀ t, contract.rely w t → inv t → contract.assume ⟨.lock, fun w => wants w.db, false⟩ t →
        post t (.ok (f t.db)) :=
  Fallible.meets_observe

theorem meets_rollback {result : Py α} :
    (rollback result : Session σ α).Meets inv contract post w ↔
      ∀ t, contract.rely w t → inv t → contract.assume ⟨.rollback, fun _ => [], true⟩ t →
        post t result := by
  unfold rollback
  rw [Fallible.meets_atomic]
  refine forall₂_congr fun t _ => forall₂_congr fun ht _ => ?_
  exact ⟨fun h => h.2.2, fun h => ⟨ht, contract.guarantee_refl t, h⟩⟩

/-- A write among others: stored, or refused without a trace. -/
theorem meets_commitOn {basis : List Basis} {f : Db → Py (α × Db)}
    (herror : ∀ t e, contract.rely w t → inv t → post t (.error e))
    (hok : ∀ t a db, contract.rely w t → inv t →
      contract.assume ⟨.commit basis, fun _ => [], true⟩ t → f t.db = .ok (a, db) →
      inv { t with db := db } ∧ contract.guarantee t { t with db := db } ∧
        post { t with db := db } (.ok a)) :
    (commitOn basis f : Session σ α).Meets inv contract post w := by
  intro t hrely ht hassume
  show inv (Handler.settle t (f t.db)).2 ∧ contract.guarantee t (Handler.settle t (f t.db)).2 ∧
    post (Handler.settle t (f t.db)).2 (Handler.settle t (f t.db)).1
  rcases hf : f t.db with e | ⟨a, db⟩
  · exact ⟨ht, contract.guarantee_refl t, herror t e hrely ht⟩
  · exact hok t a db hrely ht hassume hf

theorem meets_execute {basis : List Basis} {wants : Db → List Lock} {f : Db → Py (α × Db)}
    (herror : ∀ t e, contract.rely w t → inv t → post t (.error e))
    (hok : ∀ t a db, contract.rely w t → inv t →
      contract.assume ⟨.execute basis, fun w => wants w.db, true⟩ t → f t.db = .ok (a, db) →
      inv { t with db := db } ∧ contract.guarantee t { t with db := db } ∧
        post { t with db := db } (.ok a)) :
    (execute basis wants f : Session σ α).Meets inv contract post w := by
  intro t hrely ht hassume
  show inv (Handler.settle t (f t.db)).2 ∧ contract.guarantee t (Handler.settle t (f t.db)).2 ∧
    post (Handler.settle t (f t.db)).2 (Handler.settle t (f t.db)).1
  rcases hf : f t.db with e | ⟨a, db⟩
  · exact ⟨ht, contract.guarantee_refl t, herror t e hrely ht⟩
  · exact hok t a db hrely ht hassume hf

end Meets

end Session

/-! ## Acting on what was read -/

/-- A statement that writes finds what it is based on as it was read. -/
def UpToDate {σ ι α : Type} [DecidableEq ι] (server : Server ι Label Lock (World σ) α) :
    Move ι → Prop
  | .step i =>
      match server.procs i with
      | .done _ => True
      | .act statement _ _ => ¬ server.Blocked i (statement.wants server.shared) →
          ∀ basis ∈ statement.label.basis, basis.Current server.shared.db
  | .abort _ => True

instance {σ ι α : Type} [DecidableEq ι] (server : Server ι Label Lock (World σ) α)
    (move : Move ι) : Decidable (UpToDate server move) := by
  unfold UpToDate
  split
  · split <;> infer_instance
  · infer_instance

/-- The contract of a request whose writes find what they are based on, among others that
move the world along `rely`. -/
def currentContract {σ : Type} (rely : World σ → World σ → Prop) (hrefl : ∀ w, rely w w)
    (htrans : ∀ {w w' w''}, rely w w' → rely w' w'' → rely w w'') :
    Contract (Statement Label Lock (World σ)) (World σ) where
  assume statement w := ∀ basis ∈ statement.label.basis, basis.Current w.db
  rely := rely
  guarantee := rely
  rely_refl := hrefl
  rely_trans := htrans
  guarantee_refl := hrefl

/-- What a statement is based on is as `current` says, when it is made. -/
def Finds {σ ι α : Type} [DecidableEq ι] (current : List Basis → Db → Prop)
    (server : Server ι Label Lock (World σ) α) : Move ι → Prop
  | .step i =>
      match server.procs i with
      | .done _ => True
      | .act statement _ _ => ¬ server.Blocked i (statement.wants server.shared) →
          current statement.label.basis server.shared.db
  | .abort _ => True

instance {σ ι α : Type} [DecidableEq ι] (current : List Basis → Db → Prop)
    [∀ basis db, Decidable (current basis db)] (server : Server ι Label Lock (World σ) α)
    (move : Move ι) : Decidable (Finds current server move) := by
  unfold Finds
  split
  · split <;> infer_instance
  · infer_instance

/-- A schedule whose statements find what they are based on respects contracts that assume
no more. -/
theorem respects_of_finds {σ ι α : Type} [DecidableEq ι] {current : List Basis → Db → Prop}
    {contract : ι → Contract (Statement Label Lock (World σ)) (World σ)}
    (hassume : ∀ i statement w, current statement.label.basis w.db →
      (contract i).assume statement w) {aborted : α}
    {server : Server ι Label Lock (World σ) α} {schedule : List (Move ι)}
    (h : Runs.Steps (Server.step aborted) (Finds current) server schedule) :
    Runs.Steps (Server.step aborted) (Server.Respects contract) server schedule := by
  intro first move rest hsplit
  have hmove := h first move rest hsplit
  cases move with
  | abort i => trivial
  | step i =>
      unfold Finds at hmove
      unfold Server.Respects
      dsimp only at hmove ⊢
      split at hmove
      next hdone => rw [hdone]; trivial
      next hact =>
          rw [hact]
          exact fun hfree => hassume i _ _ (hmove hfree)

/-- A schedule whose writes are up to date respects contracts that assume no more. -/
theorem respects_of_upToDate {σ ι α : Type} [DecidableEq ι]
    {contract : ι → Contract (Statement Label Lock (World σ)) (World σ)}
    (hassume : ∀ i statement w, (∀ basis ∈ statement.label.basis, basis.Current w.db) →
      (contract i).assume statement w) {aborted : α}
    {server : Server ι Label Lock (World σ) α} {schedule : List (Move ι)}
    (h : Runs.Steps (Server.step aborted) UpToDate server schedule) :
    Runs.Steps (Server.step aborted) (Server.Respects contract) server schedule := by
  have hfinds : Runs.Steps (Server.step aborted)
      (Finds fun bases db => ∀ basis ∈ bases, basis.Current db) server schedule := by
    intro first move rest hsplit
    have hmove := h first move rest hsplit
    cases move <;> exact hmove
  exact respects_of_finds hassume hfinds

end Saasmint
