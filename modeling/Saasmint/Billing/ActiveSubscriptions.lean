import Mathlib.Data.List.ReduceOption
import Saasmint.Billing.Resolvers

/-!
# The active subscription of a user

Two ways of looking for it.  The repository takes the newer result of two indexed queries;
the views ask one query, for rows that have the user's id or are on a customer of the
user.  Where no two rows were created at the same time, both find the same row.
-/

namespace Saasmint

open Atomic Handler Relational

variable {σ : Type}

/-! ## Queries -/

namespace Db

variable (db : Db) (userId : UUID)

/-- `stripe_customer__user_id=user_id`. -/
def billsUser (s : Subscription) : Bool :=
  db.customers.rows.any fun c => s.stripeCustomerId == some c.id && c.userId == some userId

/-- `base.filter(user_id=user_id)`. -/
def activeByUser : List Subscription :=
  db.subscriptions.filter fun s => s.status.isActive && s.userId == some userId

/-- `base.filter(stripe_customer__user_id=user_id)`. -/
def activeByCustomerUser : List Subscription :=
  db.subscriptions.filter fun s => s.status.isActive && db.billsUser userId s

/-- `base.filter(Q(user_id=user.id) | Q(stripe_customer__user_id=user.id))`. -/
def personalSubscriptions : List Subscription :=
  db.subscriptions.filter fun s => s.status.isActive && (s.userId == some userId || db.billsUser userId s)

variable {db userId}

theorem mem_personalSubscriptions {s : Subscription} : s ∈ db.personalSubscriptions userId ↔
    s ∈ db.activeByUser userId ∨ s ∈ db.activeByCustomerUser userId := by
  unfold personalSubscriptions activeByUser activeByCustomerUser Table.filter
  simp only [List.mem_filter, Bool.and_eq_true, Bool.or_eq_true]
  tauto

end Db

/-- `DjangoSubscriptionRepository.get_active_for_user`. -/
def getActiveForUser (userId : UUID) : Handler σ (Option Subscription) := do
  let byUser ← readSubscription fun db => Db.latest? (db.activeByUser userId)
  let byCustomer ← readSubscription fun db => Db.latest? (db.activeByCustomerUser userId)
  let candidates := [byUser, byCustomer].reduceOption
  return candidates.maxOn? Subscription.createdAt

/-! ## The newest of some rows -/

/-- The row is the newest, or there is none. -/
def IsNewest (rows : Set Subscription) : Option Subscription → Prop
  | none => rows = ∅
  | some s => s ∈ rows ∧ ∀ t ∈ rows, t.createdAt ≤ s.createdAt

section Newest

variable {rows more : Set Subscription} {found other : Option Subscription}

theorem isNewest_latest? (rows : List Subscription) :
    IsNewest {s | s ∈ rows} (Db.latest? rows) := by
  cases hlatest : Db.latest? rows with
  | none =>
      rw [Db.latest?_eq_none.mp hlatest]
      exact Set.eq_empty_of_forall_notMem fun _ => List.not_mem_nil
  | some s => exact ⟨Db.mem_of_latest? hlatest, Db.createdAt_le_of_latest? hlatest⟩

/-- Of rows created at different times, one is the newest. -/
theorem IsNewest.unique
    (hdistinct : ∀ s ∈ rows, ∀ t ∈ rows, s.createdAt = t.createdAt → s = t)
    (h : IsNewest rows found) (h' : IsNewest rows other) : found = other := by
  cases found with
  | none =>
      cases other with
      | none => rfl
      | some t => exact absurd (h ▸ h'.1) (Set.notMem_empty t)
  | some s =>
      cases other with
      | none => exact absurd (h' ▸ h.1) (Set.notMem_empty s)
      | some t => rw [hdistinct s h.1 t h'.1 (le_antisymm (h'.2 s h.1) (h.2 t h'.1))]

/-- The newer of two newest rows is the newest of all. -/
theorem IsNewest.union (h : IsNewest rows found) (h' : IsNewest more other) :
    IsNewest (rows ∪ more) ([found, other].reduceOption.maxOn? Subscription.createdAt) := by
  cases found with
  | none =>
      obtain rfl : rows = ∅ := h
      cases other with
      | none =>
          obtain rfl : more = ∅ := h'
          exact Set.union_empty ∅
      | some t =>
          rw [Set.empty_union, List.reduceOption_cons_of_none, List.reduceOption_cons_of_some,
            List.reduceOption_nil]
          simpa using h'
  | some s =>
      cases other with
      | none =>
          obtain rfl : more = ∅ := h'
          rw [Set.union_empty, List.reduceOption_cons_of_some, List.reduceOption_cons_of_none,
            List.reduceOption_nil]
          simpa using h
      | some t =>
          obtain ⟨hs, hnewest⟩ := h
          obtain ⟨ht, hnewest'⟩ := h'
          have hmax : [some s, some t].reduceOption.maxOn? Subscription.createdAt =
              some (if t.createdAt ≤ s.createdAt then s else t) := by
            rw [List.reduceOption_cons_of_some, List.reduceOption_cons_of_some,
              List.reduceOption_nil]
            simp [List.maxOn?_cons, maxOn_eq_if]
          rw [hmax]
          split
          next hle =>
            refine ⟨.inl hs, ?_⟩
            rintro r (hr | hr)
            · exact hnewest r hr
            · exact (hnewest' r hr).trans hle
          next hlt =>
            refine ⟨.inr ht, ?_⟩
            rintro r (hr | hr)
            · exact (hnewest r hr).trans (not_le.mp hlt).le
            · exact hnewest' r hr

end Newest

/-- The split lookup finds the row that the one query finds. -/
theorem get_active_for_user_eq (userId : UUID) (w : World σ)
    (hdistinct : ∀ s ∈ w.db.subscriptions.rows, ∀ t ∈ w.db.subscriptions.rows,
      s.createdAt = t.createdAt → s = t) :
    Fallible.exec (getActiveForUser userId) w =
      (.ok (Db.latest? (w.db.personalSubscriptions userId)), w) := by
  have hunion : {s | s ∈ w.db.personalSubscriptions userId} =
      {s | s ∈ w.db.activeByUser userId} ∪ {s | s ∈ w.db.activeByCustomerUser userId} :=
    Set.ext fun s => Db.mem_personalSubscriptions
  have hsplit := (isNewest_latest? (w.db.activeByUser userId)).union
    (isNewest_latest? (w.db.activeByCustomerUser userId))
  rw [← hunion] at hsplit
  have hsame := (isNewest_latest? (w.db.personalSubscriptions userId)).unique
    (fun s hs t ht => hdistinct s (List.mem_filter.mp hs).1 t (List.mem_filter.mp ht).1) hsplit
  show (Except.ok _, w) = _
  rw [hsame]

/-! ## Two subscriptions of one user -/

/-- The newer subscription is on the user's customer and lacks the user's id. -/
def splitDb : Db where
  toTables := { sampleDb.toTables with
    subscriptions := ⟨[{ buyerSubscription with stripeCustomerId := none, createdAt := 1 },
      { buyerSubscription with
        id := 41#128, stripeId := some "sub_2", userId := none, createdAt := 2 }], by decide⟩ }
  integral := by decide +kernel

theorem get_active_for_user_split :
    Fallible.exec (getActiveForUser buyer.id) (⟨splitDb, (), []⟩ : World Unit) =
      (.ok (Db.latest? (splitDb.personalSubscriptions buyer.id)), ⟨splitDb, (), []⟩) :=
  get_active_for_user_eq buyer.id ⟨splitDb, (), []⟩ (by decide +kernel)

end Saasmint
