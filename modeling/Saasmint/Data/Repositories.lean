import Saasmint.Data.Database

/-!
# Repository writes

`Db.saveSubscription` is `DjangoSubscriptionRepository.save`: an upsert keyed by
primary key that writes every column but `created_at`, which the database stamps
when the row is inserted.  What it stores is `mem_saveSubscription`; when it
succeeds, `saveSubscription_isOk`.
-/

namespace Saasmint

open Relational

/-- `INSERT`. -/
def insertRow {α : Type} [Row α] (table : Table α) (row : α) : Py (Table α) :=
  match table.insert? row with
  | some table => .ok table
  | none => .error (.integrity "duplicate key value violates unique constraint")

theorem insertRow_eq_ok {α : Type} [Row α] {table table' : Table α} {row : α}
    (h : insertRow table row = .ok table') : table'.rows = table.rows ++ [row] := by
  unfold insertRow at h
  split at h
  next hinsert =>
      cases h
      exact Table.rows_insert? hinsert
  next => cases h

namespace Db

/-- `DjangoSubscriptionRepository.save` at time `now`. -/
def saveSubscription (db : Db) (now : Datetime) (s : Subscription) : Py Db :=
  if s.fits then
    match db.subscriptions.upsert? (fun row => row.id == s.id)
        (fun row => { s with createdAt := row.createdAt }) { s with createdAt := now } with
    | some rows => commit { db.toTables with subscriptions := rows }
    | none => .error (.integrity "duplicate key value violates unique constraint")
  else .error (.data "value too long for column type")

/-- The database with another event table, which no foreign key involves. -/
def withEvents (db : Db) (events : Table StripeEvent) : Db where
  toTables := { db.toTables with events := events }
  integral := ⟨db.integral.1, db.integral.2, db.integral.3, db.integral.4, db.integral.5,
    db.integral.6, db.integral.7, db.integral.8, db.integral.9, db.integral.10⟩

@[simp] theorem withEvents_tables (db : Db) (events : Table StripeEvent) :
    (db.withEvents events).toTables = { db.toTables with events := events } := rfl

/-- `StripeEventModel.objects.filter(stripe_id=stripeId).update(...)`, which sets
neither of the unique columns. -/
def updateEvent (db : Db) (stripeId : String) (processedAt : Option Datetime → Option Datetime)
    (error : Option String) : Db :=
  db.withEvents <| db.events.rewrite
    (fun e => if e.stripeId = stripeId
      then { e with processedAt := processedAt e.processedAt, error := error } else e)
    (fun _ h => h) (fun a b h => by split at h <;> split at h <;> exact h)

/-- `DjangoStripeEventRepository.mark_processed`. -/
def markProcessed (db : Db) (now : Datetime) (stripeId : String) : Db :=
  db.updateEvent stripeId (fun _ => some now) none

/-- `DjangoStripeEventRepository.mark_failed`. -/
def markFailed (db : Db) (stripeId : String) (error : String) : Db :=
  db.updateEvent stripeId id (some error)

/-! ## What a save stores -/

variable {db db' : Db} {now : Datetime} {s : Subscription}

theorem saveSubscription_eq_ok (h : db.saveSubscription now s = .ok db') :
    s.fits = true ∧ ∃ rows, db.subscriptions.upsert? (fun row => row.id == s.id)
        (fun row => { s with createdAt := row.createdAt }) { s with createdAt := now } =
          some rows ∧
      db'.toTables = { db.toTables with subscriptions := rows } := by
  unfold saveSubscription at h
  split at h
  next hfits =>
      split at h
      next rows hrows => exact ⟨hfits, rows, hrows, commit_eq_ok.mp h⟩
      next => cases h
  next => cases h

/-- The tables other than the subscriptions are those before the save. -/
theorem saveSubscription_frame (h : db.saveSubscription now s = .ok db') :
    db'.toTables = { db.toTables with subscriptions := db'.subscriptions } := by
  obtain ⟨_, rows, _, htables⟩ := saveSubscription_eq_ok h
  rw [htables]

/-- A save keeps the other rows, and rewrites the row that has its key or
inserts one. -/
theorem mem_saveSubscription (h : db.saveSubscription now s = .ok db') {row : Subscription} :
    row ∈ db'.subscriptions.rows ↔
      (row ∈ db.subscriptions.rows ∧ row.id ≠ s.id) ∨
      (∃ old ∈ db.subscriptions.rows, old.id = s.id ∧
        row = { s with createdAt := old.createdAt }) ∨
      (row = { s with createdAt := now } ∧ ∀ old ∈ db.subscriptions.rows, old.id ≠ s.id) := by
  obtain ⟨_, rows, hrows, htables⟩ := saveSubscription_eq_ok h
  rw [htables]
  simpa using Table.mem_upsert? hrows

/-- The saved row is stored, with the creation time it has or gets. -/
theorem exists_saved (h : db.saveSubscription now s = .ok db') :
    ∃ createdAt, { s with createdAt := createdAt } ∈ db'.subscriptions.rows := by
  by_cases hany : ∃ old ∈ db.subscriptions.rows, old.id = s.id
  · obtain ⟨old, hold, hid⟩ := hany
    exact ⟨old.createdAt, (mem_saveSubscription h).mpr (Or.inr (Or.inl ⟨old, hold, hid, rfl⟩))⟩
  · have hnone : ∀ old ∈ db.subscriptions.rows, old.id ≠ s.id :=
      fun old hold hid => hany ⟨old, hold, hid⟩
    exact ⟨now, (mem_saveSubscription h).mpr (Or.inr (Or.inr ⟨rfl, hnone⟩))⟩

/-- A save of a stored row rewrites it where it stands. -/
theorem rows_saveSubscription_of_mem (h : db.saveSubscription now s = .ok db') {old : Subscription}
    (hold : old ∈ db.subscriptions.rows) (hid : old.id = s.id) :
    db'.subscriptions.rows = db.subscriptions.rows.map fun row =>
      if row.id = s.id then { s with createdAt := row.createdAt } else row := by
  obtain ⟨_, rows, hrows, htables⟩ := saveSubscription_eq_ok h
  rw [htables]
  refine (Table.rows_upsert?_of_any hrows hold (beq_iff_eq.mpr hid)).trans ?_
  refine List.map_congr_left fun row _ => ?_
  simp only [beq_iff_eq]

theorem rows_saveSubscription_of_new (h : db.saveSubscription now s = .ok db')
    (hnew : ∀ old ∈ db.subscriptions.rows, old.id ≠ s.id) :
    db'.subscriptions.rows = db.subscriptions.rows ++ [{ s with createdAt := now }] := by
  obtain ⟨_, rows, hrows, htables⟩ := saveSubscription_eq_ok h
  rw [htables]
  exact Table.rows_upsert?_of_none hrows (by simpa using hnew)

/-- Saving a row as it is stored changes nothing. -/
theorem saveSubscription_self (now : Datetime) (hs : s ∈ db.subscriptions.rows)
    (hfits : s.fits = true) : db.saveSubscription now s = .ok db := by
  have hupsert : db.subscriptions.upsert? (fun row => row.id == s.id)
      (fun row => { s with createdAt := row.createdAt }) { s with createdAt := now } =
        some db.subscriptions := by
    refine Table.upsert?_self _ hs (beq_self_eq_true _) fun row hrow hsame => ?_
    have heq : row = s := db.subscriptions.eq_of_clash hrow hs (Or.inl (beq_iff_eq.mp hsame))
    rw [heq]
  rw [saveSubscription, if_pos hfits, hupsert]
  exact commit_eq_ok.mpr rfl

/-- A save succeeds when no other row has its Stripe id. -/
theorem saveSubscription_isOk (hfits : s.fits = true) (hcheck : Row.check s)
    (hrefs : db.SubscriptionRefs s)
    (hunique : ∀ row ∈ db.subscriptions.rows, row.id ≠ s.id → ¬ sameValue row.stripeId s.stripeId) :
    ∃ db', db.saveSubscription now s = .ok db' := by
  have hupsert : ∃ rows, db.subscriptions.upsert? (fun row => row.id == s.id)
      (fun row => { s with createdAt := row.createdAt }) { s with createdAt := now } =
        some rows := by
    refine Table.upsert?_isSome ?_ ?_ ?_ ?_
    · intro a b ha hb
      rw [beq_iff_eq] at ha hb
      exact Or.inl (ha.trans hb.symm)
    · intro a _ _
      exact hcheck
    · rintro a _ b hb _ hbs (hid | hstripe)
      · exact hbs (beq_iff_eq.mpr hid.symm)
      · exact hunique b hb (by simpa using hbs) (sameValue_symm hstripe)
    · intro hnone
      refine ⟨hcheck, ?_⟩
      rintro a ha (hid | hstripe)
      · exact hnone a ha (beq_iff_eq.mpr hid)
      · exact hunique a ha (by simpa using hnone a ha) hstripe
  obtain ⟨rows, hrows⟩ := hupsert
  have hintegral : Tables.Integral { db.toTables with subscriptions := rows } := by
    refine ⟨db.integral.1, db.integral.2, db.integral.3, db.integral.4, db.integral.5,
      db.integral.6, db.integral.7, ?_, db.integral.9, db.integral.10⟩
    intro row hrow
    rcases (Table.mem_upsert? hrows).mp hrow with ⟨hold, _⟩ | ⟨old, _, _, rfl⟩ | ⟨rfl, _⟩
    · exact db.integral.subscriptions row hold
    · exact hrefs
    · exact hrefs
  obtain ⟨db', hdb'⟩ := commit_isOk hintegral
  refine ⟨db', ?_⟩
  rw [saveSubscription, if_pos hfits, hrows]
  exact hdb'

/-- A stored row can be saved again with another pending change. -/
theorem saveSubscription_pending_isOk (now : Datetime) {row : Subscription}
    (hrow : row ∈ db.subscriptions.rows)
    (hfits : row.fits = true) {planId : Option UUID} (changeAt : Option Datetime)
    (hplan : Refers planId Plan.id db.plans.rows) :
    ∃ db', db.saveSubscription now
      { row with scheduledPlanId := planId, scheduledChangeAt := changeAt } = .ok db' := by
  have hrefs := db.integral.subscriptions row hrow
  have hcheck : Row.check row := db.subscriptions.check_of_mem hrow
  refine saveSubscription_isOk hfits hcheck ⟨hrefs.1, hrefs.2.1, hrefs.2.2.1, hplan⟩ ?_
  intro other hother hid hsame
  have heq : other = row := db.subscriptions.eq_of_clash hother hrow (Or.inr hsame)
  exact hid (by rw [heq])

end Db

end Saasmint
