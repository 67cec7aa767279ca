import Saasmint.Billing.CheckoutViews

/-!
# The customer that survives

`get_or_create_customer`, called by several requests for one user or org at the same time.
Looking up, creating at Stripe and saving are separate steps, and the repository's save is an
upsert by the owner: it overwrites the Stripe id of a row that another call has stored, and
the key of a row it inserts is drawn by the database layer, not the one of the value that is
saved and returned.

* `Stage` says what a call can be doing; `step_stages` that every step leads to one of these.
* `survives_iff`: the values returned are the stored row exactly if none of them was created
  by its call, which is known before the first step.
* `stripe_id_survives`: the Stripe ids agree if no call saves over another's row.
-/

namespace Saasmint

open Atomic Relational Handler

variable {σ : Type}

/-! ## The service -/

/-- Who a customer is created for. -/
inductive CustomerOwner
  | user (id : UUID)
  | org (id : UUID)
deriving DecidableEq

namespace CustomerOwner

def userId : CustomerOwner → Option UUID
  | user id => some id
  | org _ => none

def orgId : CustomerOwner → Option UUID
  | user _ => none
  | org id => some id

/-- The metadata of the customer at Stripe. -/
def scope : CustomerOwner → CustomerScope
  | user id => .user id
  | org id => .org id

end CustomerOwner

namespace Db

/-- `get_by_user_id` or `get_by_org_id`. -/
def customerOf (db : Db) : CustomerOwner → Option StripeCustomer
  | .user id => db.customerByUserId id
  | .org id => db.customerByOrgId id

/-- `DjangoStripeCustomerRepository.save`: the key and the creation time of a row that is
inserted are its own. -/
def upsertCustomer (db : Db) (rowId : UUID) (now : Datetime) (customer : StripeCustomer) : Py Db :=
  db.saveCustomer { customer with id := rowId, createdAt := now }

end Db

namespace Session

variable (rt : Runtime σ) (rowId : UUID) (owner : CustomerOwner)

/-- The save, which returns its argument.  A row that is inserted has the key `rowId`. -/
def saveNewCustomer (customer : StripeCustomer) : Session σ StripeCustomer :=
  execute [] (fun _ => []) fun db =>
    (fun db => (customer, db)) <$> db.upsertCustomer rowId rt.now customer

/-- The value that is built of a customer created at Stripe. -/
def newCustomer (created : Json) : Py StripeCustomer := do
  let stripeId ← created.attr "id"
  let livemode ← created.attr "livemode"
  return { id := rt.customerId, stripeId := stripeId.toStr, userId := owner.userId,
           orgId := owner.orgId, livemode := livemode.truthy, createdAt := rt.now }

def createCustomer : Session σ StripeCustomer := do
  let created ← callStripe rt (.customerCreate owner.scope)
  let customer ← lift (newCustomer rt owner created)
  saveNewCustomer rt rowId customer

/-- `get_or_create_customer`. -/
def getOrCreate : Session σ StripeCustomer := do
  match ← select fun db => db.customerOf owner with
  | some existing => return existing
  | none => createCustomer rt rowId owner

end Session

/-! ## Rows of an owner -/

namespace Db

variable {db db' : Db} {owner : CustomerOwner} {c row : StripeCustomer} {rowId : UUID} {now : Datetime}

theorem customerOf_eq_some : db.customerOf owner = some c ↔
    c ∈ db.customers.rows ∧ c.userId = owner.userId ∧ c.orgId = owner.orgId := by
  have hone : c ∈ db.customers.rows → oneOwner c.userId c.orgId := db.customers.check_of_mem
  cases owner with
  | user id =>
      refine customerByUserId_eq_some.trans (and_congr_right fun hc => ?_)
      constructor
      · intro huser
        have horg := hone hc
        unfold oneOwner at horg
        rw [huser] at horg
        refine ⟨huser, ?_⟩
        cases horgId : c.orgId with
        | none => rfl
        | some orgId => simp [horgId] at horg
      · exact And.left
  | org id =>
      constructor
      · intro h
        obtain ⟨hc, horg⟩ := Table.mem_of_find? h
        rw [beq_iff_eq] at horg
        exact ⟨hc, StripeCustomer.userId_eq_none hc horg, horg⟩
      · rintro ⟨hc, -, horg⟩
        refine Table.find?_eq_some _ hc (beq_iff_eq.mpr horg) fun b _ hb => ?_
        have hsame := horg.trans (beq_iff_eq.mp hb).symm
        exact Or.inr (Or.inr (Or.inr ⟨by rw [horg]; rfl, hsame⟩))

/-- The upsert selects the row of the owner. -/
theorem upsert_selects (huser : c.userId = owner.userId) (horg : c.orgId = owner.orgId)
    (hrow : row ∈ db.customers.rows) :
    (if c.userId.isSome then row.userId == c.userId else row.orgId == c.orgId) = true ↔
      db.customerOf owner = some row := by
  have hone : oneOwner row.userId row.orgId := db.customers.check_of_mem hrow
  rw [customerOf_eq_some, and_iff_right hrow, huser, horg]
  unfold oneOwner at hone
  cases owner with
  | user id =>
      show (row.userId == some id) = true ↔ row.userId = some id ∧ row.orgId = none
      rw [beq_iff_eq]
      refine ⟨fun h => ⟨h, ?_⟩, And.left⟩
      cases horgId : row.orgId with
      | none => rfl
      | some orgId => simp [h, horgId] at hone
  | org id =>
      show (row.orgId == some id) = true ↔ row.userId = none ∧ row.orgId = some id
      rw [beq_iff_eq]
      refine ⟨fun h => ⟨StripeCustomer.userId_eq_none hrow h, h⟩, And.right⟩

/-- After the save the owner has a row with the Stripe id that was saved, under the key it
had or a new one. -/
theorem customerOf_upsert (huser : c.userId = owner.userId) (horg : c.orgId = owner.orgId)
    (h : db.upsertCustomer rowId now c = .ok db') :
    ∃ row, db'.customerOf owner = some row ∧ row.stripeId = c.stripeId ∧
      ((db.customerOf owner = none ∧ row.id = rowId) ∨
        ∃ old, db.customerOf owner = some old ∧ row.id = old.id) := by
  unfold upsertCustomer saveCustomer at h
  split at h
  swap
  · cases h
  split at h
  swap
  · cases h
  next rows hrows =>
  rw [commit_eq_ok] at h
  have hmem : ∀ row, row ∈ db'.customers.rows ↔ row ∈ rows.rows := by
    intro row
    rw [h]
  have hstored := fun row => (hmem row).trans (Table.mem_upsert? hrows)
  cases hfound : db.customerOf owner with
  | some old =>
      have hold := (customerOf_eq_some.mp hfound).1
      refine ⟨{ c with id := old.id, createdAt := old.createdAt }, ?_, rfl, .inr ⟨old, rfl, rfl⟩⟩
      refine customerOf_eq_some.mpr ⟨(hstored _).mpr (.inr (.inl ⟨old, hold, ?_, rfl⟩)), huser, horg⟩
      exact (upsert_selects huser horg hold).mpr hfound
  | none =>
      refine ⟨{ c with id := rowId, createdAt := now }, ?_, rfl, .inl ⟨rfl, rfl⟩⟩
      refine customerOf_eq_some.mpr ⟨(hstored _).mpr (.inr (.inr ⟨rfl, fun b hb hselected => ?_⟩)),
        huser, horg⟩
      cases hfound.symm.trans ((upsert_selects huser horg hb).mp hselected)

end Db

/-! ## What a call can be doing -/

open Session

theorem newCustomer_eq_ok {rt : Runtime σ} {owner : CustomerOwner} {created : Json}
    {c : StripeCustomer}
    (h : newCustomer rt owner created = .ok c) :
    c.id = rt.customerId ∧ c.userId = owner.userId ∧ c.orgId = owner.orgId := by
  unfold newCustomer at h
  obtain ⟨stripeId, -, h⟩ := bind_eq_ok.mp h
  obtain ⟨livemode, -, h⟩ := bind_eq_ok.mp h
  cases h
  exact ⟨rfl, rfl, rfl⟩

section Pool

variable {ι : Type} [DecidableEq ι] (rt : ι → Runtime σ) (rowId : ι → UUID) (owner : CustomerOwner)

/-- The program of a session that returns a customer. -/
abbrev CustomerProgram (σ : Type) :=
  Program (Statement Label Lock (World σ)) (World σ) (Py StripeCustomer)

/-- The calls of some requests, before their first step. -/
def customerPool (w : World σ) :
    Pool ι (Statement Label Lock (World σ)) (World σ) (Py StripeCustomer) where
  shared := w
  procs i := ExceptT.run (getOrCreate (rt i) (rowId i) owner)

/-- A call has yet to look, has found nothing, is about to save what it has created, or has
ended. -/
inductive Stage (i : ι) : CustomerProgram σ → Prop
  | looking : Stage i (ExceptT.run (getOrCreate (rt i) (rowId i) owner))
  | missing : Stage i (ExceptT.run (createCustomer (rt i) (rowId i) owner))
  | saving (c : StripeCustomer) (hid : c.id = (rt i).customerId) (huser : c.userId = owner.userId)
      (horg : c.orgId = owner.orgId) : Stage i (ExceptT.run (saveNewCustomer (rt i) (rowId i) c))
  | ended (result : Py StripeCustomer) : Stage i (.done result)

/-- What a step of one call does: nothing to the rows and no value, a value that was found, or
a value that was saved. -/
inductive Turn (i : ι) (w w' : World σ) (p p' : CustomerProgram σ) : Prop
  | quiet (hdb : w'.db = w.db) (hstage : Stage rt rowId owner i p')
      (hvalue : ∀ c, p' = .done (.ok c) ↔ p = .done (.ok c))
  | finds (c : StripeCustomer) (hbusy : p.finished = false) (hdb : w'.db = w.db)
      (hfound : w.db.customerOf owner = some c) (hvalue : p' = .done (.ok c))
  | saves (c row : StripeCustomer)
      (hbusy : ∃ effect next, p = .act ⟨.execute [], fun _ => [], true⟩ effect next)
      (hid : c.id = (rt i).customerId) (hrow : w'.db.customerOf owner = some row)
      (hstripeId : row.stripeId = c.stripeId)
      (hkey : (w.db.customerOf owner = none ∧ row.id = rowId i) ∨
        ∃ old, w.db.customerOf owner = some old ∧ row.id = old.id)
      (hvalue : p' = .done (.ok c))

variable {rt rowId owner}

omit [DecidableEq ι] in
theorem Turn.stage {i : ι} {w w' : World σ} {p p' : CustomerProgram σ}
    (h : Turn rt rowId owner i w w' p p') : Stage rt rowId owner i p' := by
  cases h with
  | quiet _ hstage _ => exact hstage
  | finds c _ _ _ hvalue => exact hvalue ▸ .ended _
  | saves c _ _ _ _ _ _ hvalue => exact hvalue ▸ .ended _

theorem stage_update {i : ι} {procs : ι → CustomerProgram σ} {w w' : World σ} {p' : CustomerProgram σ}
    (h : ∀ j, Stage rt rowId owner j (procs j)) (hturn : Turn rt rowId owner i w w' (procs i) p') (j : ι) :
    Stage rt rowId owner j (Function.update procs i p' j) := by
  by_cases hj : j = i
  · subst hj
    rw [Function.update_self]
    exact hturn.stage
  · rw [Function.update_of_ne hj]
    exact h j

theorem step_getOrCreate {pool : Pool ι (Statement Label Lock (World σ)) (World σ) (Py StripeCustomer)}
    {i : ι} (h : pool.procs i = ExceptT.run (getOrCreate (rt i) (rowId i) owner)) :
    pool.step i = ⟨pool.shared, Function.update pool.procs i
      (match pool.shared.db.customerOf owner with
        | some c => .done (.ok c)
        | none => ExceptT.run (createCustomer (rt i) (rowId i) owner))⟩ := by
  have hact : pool.procs i = .act _ _ _ := h.trans rfl
  rw [Pool.step_act hact]
  congr 2

theorem step_createCustomer {pool : Pool ι (Statement Label Lock (World σ)) (World σ) (Py StripeCustomer)}
    {i : ι} (h : pool.procs i = ExceptT.run (createCustomer (rt i) (rowId i) owner)) :
    pool.step i = ⟨{ pool.shared with
        stripe := ((rt i).stripe.call (.customerCreate owner.scope) pool.shared.stripe).2 },
      Function.update pool.procs i
        (match ((rt i).stripe.call (.customerCreate owner.scope) pool.shared.stripe).1.bind
            (newCustomer (rt i) owner) with
          | .ok c => ExceptT.run (saveNewCustomer (rt i) (rowId i) c)
          | .error e => .done (.error e))⟩ := by
  have hact : pool.procs i = .act _ _ _ := h.trans rfl
  rw [Pool.step_act hact]
  congr 2
  dsimp only
  cases ((rt i).stripe.call (.customerCreate owner.scope) pool.shared.stripe).1 with
  | error e => rfl
  | ok created =>
      show ExceptT.run (Session.lift (newCustomer (rt i) owner created) >>=
          saveNewCustomer (rt i) (rowId i)) = match newCustomer (rt i) owner created with
        | .ok c => ExceptT.run (saveNewCustomer (rt i) (rowId i) c)
        | .error e => .done (.error e)
      cases newCustomer (rt i) owner created <;> rfl

theorem step_saveNewCustomer {pool : Pool ι (Statement Label Lock (World σ)) (World σ) (Py StripeCustomer)}
    {i : ι} {c : StripeCustomer}
    (h : pool.procs i = ExceptT.run (saveNewCustomer (rt i) (rowId i) c)) :
    pool.step i = match pool.shared.db.upsertCustomer (rowId i) (rt i).now c with
      | .ok db => ⟨{ pool.shared with db := db }, Function.update pool.procs i (.done (.ok c))⟩
      | .error e => ⟨pool.shared, Function.update pool.procs i (.done (.error e))⟩ := by
  have hact : pool.procs i = .act _ _ _ := h.trans rfl
  rw [Pool.step_act hact]
  dsimp only
  cases pool.shared.db.upsertCustomer (rowId i) (rt i).now c <;> rfl

theorem step_turn {pool : Pool ι (Statement Label Lock (World σ)) (World σ) (Py StripeCustomer)}
    {i : ι} (hstage : Stage rt rowId owner i (pool.procs i)) : ∃ w' p',
      pool.step i = ⟨w', Function.update pool.procs i p'⟩ ∧
      Turn rt rowId owner i pool.shared w' (pool.procs i) p' := by
  generalize hproc : pool.procs i = p at hstage
  cases hstage with
  | looking =>
      refine ⟨_, _, step_getOrCreate hproc, ?_⟩
      cases hfound : pool.shared.db.customerOf owner with
      | some c => exact .finds c rfl rfl hfound rfl
      | none => exact .quiet rfl .missing fun _ => iff_of_false nofun nofun
  | missing =>
      refine ⟨_, _, step_createCustomer hproc, .quiet rfl ?_ ?_⟩
      · split
        next c hcreated =>
          obtain ⟨created, -, hcustomer⟩ := bind_eq_ok.mp hcreated
          obtain ⟨hid, huser, horg⟩ := newCustomer_eq_ok hcustomer
          exact .saving c hid huser horg
        next e _ => exact .ended (.error e)
      · refine fun c => iff_of_false ?_ nofun
        split <;> nofun
  | saving c hid huser horg =>
      have hstep := step_saveNewCustomer hproc
      cases hsave : pool.shared.db.upsertCustomer (rowId i) (rt i).now c with
      | error e =>
          rw [hsave] at hstep
          exact ⟨_, _, hstep, .quiet rfl (.ended _) fun _ => iff_of_false nofun nofun⟩
      | ok db =>
          rw [hsave] at hstep
          obtain ⟨row, hrow, hstripeId, hkey⟩ := Db.customerOf_upsert huser horg hsave
          exact ⟨_, _, hstep, .saves c row ⟨_, _, rfl⟩ hid hrow hstripeId hkey rfl⟩
  | ended result =>
      refine ⟨_, _, (Pool.step_done hproc).trans ?_, .quiet rfl (.ended result) fun _ => Iff.rfl⟩
      rw [← hproc, Function.update_eq_self]

/-! ## The values that are returned -/

/-- Every value returned has the id and the Stripe id of the stored row. -/
def Survives (owner : CustomerOwner)
    (pool : Pool ι (Statement Label Lock (World σ)) (World σ) (Py StripeCustomer)) : Prop :=
  ∀ i c, pool.procs i = .done (.ok c) →
    ∃ row, pool.shared.db.customerOf owner = some row ∧ row.id = c.id ∧ row.stripeId = c.stripeId

/-- Where the owner had a customer, every call has found it or will. -/
structure HadCustomer (rt : ι → Runtime σ) (rowId : ι → UUID) (owner : CustomerOwner) (row : StripeCustomer)
    (pool : Pool ι (Statement Label Lock (World σ)) (World σ) (Py StripeCustomer)) : Prop where
  stored : pool.shared.db.customerOf owner = some row
  calls : ∀ i, pool.procs i = ExceptT.run (getOrCreate (rt i) (rowId i) owner) ∨
    pool.procs i = .done (.ok row)

theorem HadCustomer.step {row : StripeCustomer}
    {pool : Pool ι (Statement Label Lock (World σ)) (World σ) (Py StripeCustomer)}
    (h : HadCustomer rt rowId owner row pool) (i : ι) : HadCustomer rt rowId owner row (pool.step i) := by
  obtain hlooking | hdone := h.calls i
  · have hstep := step_getOrCreate hlooking
    rw [h.stored] at hstep
    rw [hstep]
    refine ⟨h.stored, fun j => ?_⟩
    by_cases hj : j = i
    · subst hj
      exact .inr (Function.update_self ..)
    · dsimp only
      rw [Function.update_of_ne hj]
      exact h.calls j
  · rw [Pool.step_done hdone]
    exact h

/-- Where the owner had none, either nobody has stored one, and no call has returned, or the
row has a key of its own and the call that has stored it has returned another. -/
structure HadNone (rt : ι → Runtime σ) (rowId : ι → UUID) (owner : CustomerOwner)
    (pool : Pool ι (Statement Label Lock (World σ)) (World σ) (Py StripeCustomer)) : Prop where
  stages : ∀ i, Stage rt rowId owner i (pool.procs i)
  created : (pool.shared.db.customerOf owner = none ∧ ∀ i c, pool.procs i ≠ .done (.ok c)) ∨
    ∃ row j k c, pool.shared.db.customerOf owner = some row ∧ row.id = rowId j ∧
      pool.procs k = .done (.ok c) ∧ c.id = (rt k).customerId

theorem HadNone.step
    {pool : Pool ι (Statement Label Lock (World σ)) (World σ) (Py StripeCustomer)}
    (h : HadNone rt rowId owner pool) (i : ι) : HadNone rt rowId owner (pool.step i) := by
  obtain ⟨w', p', hstep, hturn⟩ := step_turn (h.stages i)
  rw [hstep]
  refine ⟨stage_update h.stages hturn, ?_⟩
  -- a call that has returned stays where it is
  have hkeeps : ∀ {k c}, pool.procs k = .done (.ok c) → (pool.procs i).finished = false →
      Function.update pool.procs i p' k = .done (.ok c) := by
    intro k c hk hbusy
    refine (Function.update_of_ne ?_ _ _).trans hk
    rintro rfl
    rw [hk] at hbusy
    cases hbusy
  dsimp only
  cases hturn with
  | quiet hdb hstage hvalue =>
      have hsame : ∀ k c, Function.update pool.procs i p' k = .done (.ok c) ↔
          pool.procs k = .done (.ok c) := by
        intro k c
        by_cases hk : k = i
        · subst hk
          rw [Function.update_self]
          exact hvalue c
        · rw [Function.update_of_ne hk]
      simpa only [hdb, hsame, ne_eq] using h.created
  | finds c hbusy hdb hfound hvalue =>
      obtain ⟨hnone, -⟩ | ⟨row, j, k, c', hrow, hid, hk, hc⟩ := h.created
      · cases hnone.symm.trans hfound
      · exact .inr ⟨row, j, k, c', hdb ▸ hrow, hid, hkeeps hk hbusy, hc⟩
  | saves c row hbusy hid hrow hstripeId hkey hvalue =>
      have hmine : Function.update pool.procs i p' i = .done (.ok c) := by
        rw [Function.update_self, hvalue]
      obtain ⟨-, hrowId⟩ | ⟨old, hold, hrowId⟩ := hkey
      · exact .inr ⟨row, i, i, c, hrow, hrowId, hmine, hid⟩
      · obtain ⟨hnone, -⟩ | ⟨row', j, -, -, hrow', hid', -, -⟩ := h.created
        · cases hnone.symm.trans hold
        · obtain rfl := Option.some.inj (hold.symm.trans hrow')
          exact .inr ⟨row, j, i, c, hrow, hrowId.trans hid', hmine, hid⟩

/-- **The customer that is returned.**  The values returned are the stored row exactly if the
owner had a customer before the first step, as long as there is one at all. -/
theorem survives_iff (hfresh : ∀ i j, (rt i).customerId ≠ rowId j) (w : World σ) (schedule : List ι) :
    Survives owner ((customerPool rt rowId owner w).run schedule) ↔
      (w.db.customerOf owner).isSome ∨
        ∀ i c, ((customerPool rt rowId owner w).run schedule).procs i ≠ .done (.ok c) := by
  cases hbefore : w.db.customerOf owner with
  | some row =>
      have hstart : HadCustomer rt rowId owner row (customerPool rt rowId owner w) :=
        ⟨hbefore, fun i => .inl rfl⟩
      have hend := (Runs.always_of_invariant (fun _ i h => h.step i) hstart schedule).final
      refine iff_of_true (fun i c hc => ?_) (.inl rfl)
      obtain hlooking | hdone := hend.calls i
      · cases hlooking.symm.trans hc
      · cases hdone.symm.trans hc
        exact ⟨row, hend.stored, rfl, rfl⟩
  | none =>
      have hstart : HadNone rt rowId owner (customerPool rt rowId owner w) :=
        ⟨fun i => .looking, .inl ⟨hbefore, fun i c => nofun⟩⟩
      have hend := (Runs.always_of_invariant (fun _ i h => h.step i) hstart schedule).final
      constructor
      · intro hsurvives
        obtain ⟨-, hnobody⟩ | ⟨row, j, k, c, hrow, hid, hk, hc⟩ := hend.created
        · exact .inr hnobody
        · obtain ⟨row', hrow', hid', -⟩ := hsurvives k c hk
          obtain rfl := Option.some.inj (hrow.symm.trans hrow')
          exact absurd (hc.symm.trans (hid'.symm.trans hid)) (hfresh k j)
      · rintro (h | h)
        · cases h
        · exact fun i c hc => absurd hc (h i c)

/-! ## The Stripe ids -/

/-- A call saves where the owner has no row. -/
def SavesFirst (owner : CustomerOwner) (_ : ι) (statement : Statement Label Lock (World σ))
    (w : World σ) : Prop :=
  statement.label = .execute [] → w.db.customerOf owner = none

/-- The values returned have the Stripe id of the stored row. -/
structure SharesStripeId (rt : ι → Runtime σ) (rowId : ι → UUID) (owner : CustomerOwner)
    (pool : Pool ι (Statement Label Lock (World σ)) (World σ) (Py StripeCustomer)) : Prop where
  stages : ∀ i, Stage rt rowId owner i (pool.procs i)
  shared : ∀ i c, pool.procs i = .done (.ok c) →
    ∃ row, pool.shared.db.customerOf owner = some row ∧ row.stripeId = c.stripeId

theorem SharesStripeId.step
    {pool : Pool ι (Statement Label Lock (World σ)) (World σ) (Py StripeCustomer)} {i : ι}
    (h : SharesStripeId rt rowId owner pool) (hfinds : pool.Finds (SavesFirst owner) i) :
    SharesStripeId rt rowId owner (pool.step i) := by
  obtain ⟨w', p', hstep, hturn⟩ := step_turn (h.stages i)
  rw [hstep]
  refine ⟨stage_update h.stages hturn, fun k c hk => ?_⟩
  dsimp only at hk ⊢
  by_cases hki : k = i
  · subst hki
    rw [Function.update_self] at hk
    cases hturn with
    | quiet hdb hstage hvalue =>
        rw [hdb]
        exact h.shared k c ((hvalue c).mp hk)
    | finds found hbusy hdb hfound hvalue =>
        cases hvalue.symm.trans hk
        exact ⟨_, hdb ▸ hfound, rfl⟩
    | saves saved row hbusy hid hrow hstripeId hkey hvalue =>
        cases hvalue.symm.trans hk
        exact ⟨row, hrow, hstripeId⟩
  · rw [Function.update_of_ne hki] at hk
    obtain ⟨row, hrow, hsame⟩ := h.shared k c hk
    cases hturn with
    | quiet hdb hstage hvalue => exact ⟨row, hdb ▸ hrow, hsame⟩
    | finds found hbusy hdb hfound hvalue => exact ⟨row, hdb ▸ hrow, hsame⟩
    | saves saved row' hbusy hid hrow' hstripeId hkey hvalue =>
        -- another call has returned, so there is a row to save over
        obtain ⟨effect, next, hact⟩ := hbusy
        cases hrow.symm.trans ((Pool.finds_act hact).mp hfinds rfl)

/-- In a run in which no call saves over a row, the Stripe ids returned are that of the row. -/
theorem stripe_id_survives (w : World σ) {schedule : List ι}
    (h : Runs.Steps Pool.step (Pool.Finds (SavesFirst owner)) (customerPool rt rowId owner w) schedule)
    {i : ι} {c : StripeCustomer}
    (hreturned : ((customerPool rt rowId owner w).run schedule).procs i = .done (.ok c)) :
    ∃ row, ((customerPool rt rowId owner w).run schedule).shared.db.customerOf owner = some row ∧
      row.stripeId = c.stripeId := by
  have hstart : SharesStripeId rt rowId owner (customerPool rt rowId owner w) :=
    ⟨fun i => .looking, fun i c => nofun⟩
  have hend := (Runs.always_of_steps (fun _ _ hshares hfinds => hshares.step hfinds) hstart h).final
  exact hend.shared i c hreturned

end Pool

/-! ## Two calls for one user -/

/-- Stripe's answers to the two calls. -/
def createdAs (stripeId : String) (_ : StripeCall) : Py Json :=
  .ok (.obj [("id", .str stripeId), ("livemode", .bool false)])

def twoBuyersDb : Db where
  toTables := { sampleDb.toTables with customers := Table.empty }
  integral := by decide +kernel

def twoCalls (i : Bool) : Runtime Unit :=
  if i then sampleRuntime (createdAs "cus_a") 1 0 else sampleRuntime (createdAs "cus_b") 2 0

def twoRowIds (i : Bool) : UUID := if i then 90#128 else 91#128

def twoCallsPool : Pool Bool (Statement Label Lock (World Unit)) (World Unit) (Py StripeCustomer) :=
  customerPool twoCalls twoRowIds (.user buyer.id) ⟨twoBuyersDb, (), []⟩

/-- Both look before either saves. -/
def bothLookFirst : List Bool := [true, false, true, false, true, false]

/-- The second save overwrites the Stripe id that the first call has returned. -/
theorem overwritten_two_calls : ∃ c row, (twoCallsPool.run bothLookFirst).procs true = .done (.ok c) ∧
    (twoCallsPool.run bothLookFirst).shared.db.customerOf (.user buyer.id) = some row ∧
    row.stripeId ≠ c.stripeId := by
  have hreturned : ((twoCallsPool.run bothLookFirst).procs true).result?.map
      (Except.map StripeCustomer.stripeId) = some (.ok "cus_a") := by decide +kernel
  have hstored : ((twoCallsPool.run bothLookFirst).shared.db.customerOf (.user buyer.id)).map
      StripeCustomer.stripeId = some "cus_b" := by decide +kernel
  obtain ⟨result, hresult, hvalue⟩ := Option.map_eq_some_iff.mp hreturned
  obtain ⟨row, hrow, hrowId⟩ := Option.map_eq_some_iff.mp hstored
  rw [Program.result?_eq_some] at hresult
  cases result with
  | error e => cases hvalue
  | ok c =>
      refine ⟨c, row, hresult, hrow, ?_⟩
      rw [hrowId, Except.ok.inj hvalue]
      decide

theorem survives_two_calls : Survives (.user buyer.id) (twoCallsPool.run bothLookFirst) ↔
    (twoBuyersDb.customerOf (.user buyer.id)).isSome ∨
      ∀ i c, (twoCallsPool.run bothLookFirst).procs i ≠ .done (.ok c) :=
  survives_iff (by decide) ⟨twoBuyersDb, (), []⟩ bothLookFirst

theorem not_survives : ¬ ∀ (rt : Bool → Runtime Unit) (rowId : Bool → UUID) (owner : CustomerOwner)
    (w : World Unit) (schedule : List Bool), (∀ i j, (rt i).customerId ≠ rowId j) →
      Survives owner ((customerPool rt rowId owner w).run schedule) := by
  intro h
  obtain ⟨c, row, hreturned, hrow, hother⟩ := overwritten_two_calls
  have hsurvives := h twoCalls twoRowIds (.user buyer.id) ⟨twoBuyersDb, (), []⟩ bothLookFirst (by decide)
  obtain ⟨row', hrow', -, hsame⟩ := hsurvives true c hreturned
  obtain rfl := Option.some.inj (hrow.symm.trans hrow')
  exact hother hsame

end Saasmint
