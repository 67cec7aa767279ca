import Saasmint.Billing.Payloads
import Saasmint.Mirror.Writers

/-!
# The representation invariant of the mirror

Any number of writers run concurrently over one table of subscription rows.
What each of them may rely on and must guarantee is a `Contract`: customers stay,
and a stored row keeps its id, its Stripe id and its creation time
for good (`Persists`).  Every disciplined program meets it, so every schedule
keeps the rows coherent.
-/

namespace Saasmint

open Atomic Relational

variable {σ : Type}

/-- What holds of every row in every reachable state. -/
structure Coherent (db : Db) : Prop where
  paired : ∀ s ∈ db.subscriptions.rows, s.Paired
  owner : ∀ s ∈ db.subscriptions.rows, ∃ c ∈ db.customers.rows,
    s.stripeCustomerId = some c.id ∧ s.userId = c.userId
  named : ∀ s ∈ db.subscriptions.rows, s.stripeId.isSome

/-- Every row of `db` is still there, with its keys and its creation time. -/
def Persists (db db' : Db) : Prop :=
  ∀ s ∈ db.subscriptions.rows, ∃ s' ∈ db'.subscriptions.rows,
    s'.id = s.id ∧ s'.stripeId = s.stripeId ∧ s'.createdAt = s.createdAt

theorem Persists.refl (db : Db) : Persists db db := fun s hs => ⟨s, hs, rfl, rfl, rfl⟩

theorem Persists.trans {a b c : Db} (hab : Persists a b) (hbc : Persists b c) :
    Persists a c := by
  intro s hs
  obtain ⟨s', hs', hid', hstripe', hcreated'⟩ := hab s hs
  obtain ⟨s'', hs'', hid'', hstripe'', hcreated''⟩ := hbc s' hs'
  exact ⟨s'', hs'', hid''.trans hid', hstripe''.trans hstripe', hcreated''.trans hcreated'⟩

/-- A save under the id of a stored row that keeps its Stripe id, or under a new
id, keeps every row. -/
theorem Persists.of_save {db db' : Db} {now : Datetime} {row : Subscription}
    (hkeys : ∀ old ∈ db.subscriptions.rows, old.id = row.id → row.stripeId = old.stripeId)
    (hsave : db.saveSubscription now row = .ok db') : Persists db db' := by
  intro s hs
  by_cases hid : s.id = row.id
  · refine ⟨{ row with createdAt := s.createdAt }, ?_, hid.symm, hkeys s hs hid, rfl⟩
    exact (Db.mem_saveSubscription hsave).mpr (Or.inr (Or.inl ⟨s, hs, hid, rfl⟩))
  · exact ⟨s, (Db.mem_saveSubscription hsave).mpr (Or.inl ⟨hs, hid⟩), rfl, rfl, rfl⟩

/-- There is a row for the Stripe subscription. -/
def Stored (stripeId : String) (db : Db) : Prop :=
  ∃ s ∈ db.subscriptions.rows, s.stripeId = some stripeId

theorem Stored.of_persists {stripeId : String} {db db' : Db} (h : Stored stripeId db)
    (hpersists : Persists db db') : Stored stripeId db' := by
  obtain ⟨s, hs, hstripe⟩ := h
  obtain ⟨s', hs', -, hsame, -⟩ := hpersists s hs
  exact ⟨s', hs', hsame.trans hstripe⟩

def Unused (id : UUID) (db : Db) : Prop := ∀ s ∈ db.subscriptions.rows, s.id ≠ id

/-! ## The contract -/

/-- A writer that inserts rows with id `freshId` only. -/
def mirrorContract (freshId : UUID) : Contract Action (World σ) where
  assume _ _ := True
  rely w w' := w.db.customers.rows ⊆ w'.db.customers.rows ∧ Persists w.db w'.db ∧
    (Unused freshId w.db → Unused freshId w'.db)
  guarantee w w' := w.db.customers.rows ⊆ w'.db.customers.rows ∧ Persists w.db w'.db ∧
    ∀ s ∈ w'.db.subscriptions.rows, s.id = freshId ∨ ∃ old ∈ w.db.subscriptions.rows,
      old.id = s.id
  rely_refl _ := ⟨fun _ h => h, Persists.refl _, id⟩
  rely_trans h h' := ⟨List.Subset.trans h.1 h'.1, h.2.1.trans h'.2.1, h'.2.2 ∘ h.2.2⟩
  guarantee_refl _ := ⟨fun _ h => h, Persists.refl _, fun s hs => Or.inr ⟨s, hs, rfl⟩⟩

/-- What a save owes the other writers: it rewrites a row of the same Stripe id, or
inserts one under the writer's own id. -/
theorem mirrorContract_save {freshId : UUID} {w : World σ} {db' : Db} {now : Datetime}
    {row : Subscription}
    (hkeys : ∀ old ∈ w.db.subscriptions.rows, old.id = row.id → row.stripeId = old.stripeId)
    (hid : row.id = freshId ∨ ∃ old ∈ w.db.subscriptions.rows, old.id = row.id)
    (hsave : w.db.saveSubscription now row = .ok db') :
    (mirrorContract freshId).guarantee w { w with db := db' } := by
  refine ⟨?_, Persists.of_save hkeys hsave, fun s hs => ?_⟩
  · rw [Db.saveSubscription_frame hsave]
    exact fun c hc => hc
  · rcases (Db.mem_saveSubscription hsave).mp hs with ⟨hold, -⟩ | ⟨old, hold, holdId, rfl⟩ | ⟨rfl, hnone⟩
    · exact Or.inr ⟨s, hold, rfl⟩
    · exact Or.inr ⟨old, hold, holdId⟩
    · refine hid.imp_right fun ⟨old, hold, holdId⟩ => ?_
      exact absurd holdId (hnone old hold)

/-- The keys of a mirrored row, whose lookup may be of an earlier database, are those
of a stored row of its Stripe id, or fresh. -/
theorem mirrorRow_keys {freshId : UUID} {seen db : Db} (hpersists : Persists seen db)
    (hunused : Unused freshId db) (now : Datetime) (stripeId : String) (customer : StripeCustomer)
    (planId : UUID) (fields : MirroredFields) :
    let row := mirrorRow freshId now stripeId customer planId
      (seen.subscriptionByStripeId stripeId) fields
    (∀ old ∈ db.subscriptions.rows, old.id = row.id → row.stripeId = old.stripeId) ∧
      (row.id = freshId ∨ ∃ old ∈ db.subscriptions.rows, old.id = row.id) := by
  intro row
  cases hfound : seen.subscriptionByStripeId stripeId with
  | none =>
      have hid : row.id = freshId := by simp [row, mirrorRow, hfound]
      exact ⟨fun old hold holdId => absurd (holdId.trans hid) (hunused old hold), Or.inl hid⟩
  | some existing =>
      obtain ⟨hmem, hstripe⟩ := Db.subscriptionByStripeId_eq_some.mp hfound
      obtain ⟨current, hcurrent, hid, hsame, -⟩ := hpersists existing hmem
      have hrow : row.id = current.id := by simp [row, mirrorRow, hfound, hid]
      refine ⟨fun old hold holdId => ?_, Or.inr ⟨current, hcurrent, hrow.symm⟩⟩
      have heq : old = current :=
        db.subscriptions.eq_of_clash hold hcurrent (Or.inl (holdId.trans hrow))
      rw [heq, hsame, hstripe]
      rfl

/-- Writers with different fresh ids may run together. -/
theorem mirrorContract_compatible {ι : Type} {freshId : ι → UUID}
    (hfresh : Function.Injective freshId) :
    Pool.Compatible fun i => mirrorContract (σ := σ) (freshId i) := by
  rintro i j hij w w' ⟨hcustomers, hpersists, hids⟩
  refine ⟨hcustomers, hpersists, fun hunused s hs => ?_⟩
  rcases hids s hs with hid | ⟨old, hold, hid⟩
  · rw [hid]
    exact fun h => hij (hfresh h.symm)
  · rw [← hid]
    exact hunused old hold

/-- What a writer's reads say about the current database. -/
structure Known (freshId : UUID) (reads : Reads) (w : World σ) : Prop where
  queried : ∀ db ∈ reads.queried, db.customers.rows ⊆ w.db.customers.rows
  read : ∀ db, reads.read = some db →
    db.customers.rows ⊆ w.db.customers.rows ∧ Coherent db ∧ Persists db w.db
  unused : reads.saved = false → Unused freshId w.db

theorem Known.of_rely {freshId : UUID} {reads : Reads} {w w' : World σ}
    (h : Known freshId reads w) (hrely : (mirrorContract freshId).rely w w') :
    Known freshId reads w' where
  queried db hdb := List.Subset.trans (h.queried db hdb) hrely.1
  read db hdb := by
    obtain ⟨hcustomers, hcoherent, hpersists⟩ := h.read db hdb
    exact ⟨List.Subset.trans hcustomers hrely.1, hcoherent, hpersists.trans hrely.2.1⟩
  unused hsaved := hrely.2.2 (h.unused hsaved)

/-! ## One save -/

/-- The saved row, if it is stored, belongs to one of the customers. -/
theorem Known.owner {freshId : UUID} {reads : Reads} {w : World σ} {row : Subscription}
    (h : Known freshId reads w) (hlinked : reads.Linked row) : ∃ c ∈ w.db.customers.rows,
      row.stripeCustomerId = some c.id ∧ row.userId = c.userId := by
  obtain ⟨db, hdb, c, hc, hcustomer, huser⟩ := hlinked
  exact ⟨c, h.queried db hdb hc, hcustomer, huser⟩

theorem save_of_revises {freshId : UUID} {reads : Reads} {w : World σ} {db db' : Db}
    {owned : Column → Bool} {old row : Subscription} {now : Datetime} (hcoherent : Coherent w.db)
    (hknown : Known freshId reads w) (hread : reads.read = some db)
    (hold : old ∈ db.subscriptions.rows) (hrevises : Revises owned old row)
    (hlinked : (row.stripeCustomerId = old.stripeCustomerId ∧ row.userId = old.userId) ∨
      reads.Linked row)
    (hsave : w.db.saveSubscription now row = .ok db') :
    Coherent db' ∧ (mirrorContract freshId).guarantee w { w with db := db' } := by
  obtain ⟨hcustomers, hcoherentRead, hpersists⟩ := hknown.read db hread
  -- the row that was read is still there, possibly with other values
  obtain ⟨current, hcurrent, hid, hstripe, -⟩ := hpersists old hold
  have hframe : db'.customers = w.db.customers := by rw [Db.saveSubscription_frame hsave]
  have hkeys : row.id = current.id ∧ row.stripeId = current.stripeId :=
    ⟨hrevises.id.trans hid.symm, hrevises.stripeId.trans hstripe.symm⟩
  have hmem : ∀ s, s ∈ db'.subscriptions.rows ↔
      (s ∈ w.db.subscriptions.rows ∧ s.id ≠ row.id) ∨
        ∃ c ∈ w.db.subscriptions.rows, c.id = row.id ∧ s = { row with createdAt := c.createdAt } := by
    intro s
    rw [Db.mem_saveSubscription hsave]
    refine or_congr_right (or_iff_left ?_)
    rintro ⟨-, hnone⟩
    exact hnone current hcurrent hkeys.1.symm
  have howner : ∃ c ∈ w.db.customers.rows, row.stripeCustomerId = some c.id ∧
      row.userId = c.userId := by
    rcases hlinked with ⟨hcustomer, huser⟩ | hlinked
    · obtain ⟨c, hc, hoc, hou⟩ := hcoherentRead.owner old hold
      exact ⟨c, hcustomers hc, hcustomer.trans hoc, huser.trans hou⟩
    · exact hknown.owner hlinked
  refine ⟨⟨?_, ?_, ?_⟩, mirrorContract_save ?_
    (Or.inr ⟨current, hcurrent, hkeys.1.symm⟩) hsave⟩
  · intro s hs
    rcases (hmem s).mp hs with ⟨hs, -⟩ | ⟨c, -, -, rfl⟩
    · exact hcoherent.paired s hs
    · exact hrevises.paired (hcoherentRead.paired old hold)
  · intro s hs
    rw [hframe]
    rcases (hmem s).mp hs with ⟨hs, -⟩ | ⟨c, -, -, rfl⟩
    · exact hcoherent.owner s hs
    · exact howner
  · intro s hs
    rcases (hmem s).mp hs with ⟨hs, -⟩ | ⟨c, -, -, rfl⟩
    · exact hcoherent.named s hs
    · rw [hkeys.2]
      exact hcoherent.named current hcurrent
  · intro s hs hsid
    have hsame : s = current := w.db.subscriptions.eq_of_clash hs hcurrent
      (Or.inl (hsid.trans hkeys.1))
    rw [hsame]
    exact hkeys.2

theorem save_of_insert {freshId : UUID} {reads : Reads} {w : World σ} {db' : Db}
    {row : Subscription} {now : Datetime} (hcoherent : Coherent w.db)
    (hknown : Known freshId reads w) (hfirst : reads.saved = false) (hid : row.id = freshId)
    (hstripe : row.stripeId.isSome) (hplan : row.scheduledPlanId = none)
    (hchange : row.scheduledChangeAt = none) (hlinked : reads.Linked row)
    (hsave : w.db.saveSubscription now row = .ok db') :
    Coherent db' ∧ (mirrorContract freshId).guarantee w { w with db := db' } := by
  have hunused : ∀ s ∈ w.db.subscriptions.rows, s.id ≠ row.id := by
    rw [hid]
    exact hknown.unused hfirst
  have hframe : db'.customers = w.db.customers := by rw [Db.saveSubscription_frame hsave]
  have hmem : ∀ s, s ∈ db'.subscriptions.rows ↔
      s ∈ w.db.subscriptions.rows ∨ s = { row with createdAt := now } := by
    intro s
    rw [Db.mem_saveSubscription hsave]
    constructor
    · rintro (⟨hs, -⟩ | ⟨old, hold, holdId, -⟩ | ⟨hs, -⟩)
      · exact Or.inl hs
      · exact absurd holdId (hunused old hold)
      · exact Or.inr hs
    · rintro (hs | hs)
      · exact Or.inl ⟨hs, hunused s hs⟩
      · exact Or.inr (Or.inr ⟨hs, hunused⟩)
  refine ⟨⟨?_, ?_, ?_⟩, mirrorContract_save (fun s hs hsid => absurd hsid (hunused s hs))
    (Or.inl hid) hsave⟩
  · intro s hs
    rcases (hmem s).mp hs with hs | rfl
    · exact hcoherent.paired s hs
    · exact iff_of_true hplan hchange
  · intro s hs
    rw [hframe]
    rcases (hmem s).mp hs with hs | rfl
    · exact hcoherent.owner s hs
    · exact hknown.owner hlinked
  · intro s hs
    rcases (hmem s).mp hs with hs | rfl
    · exact hcoherent.named s hs
    · exact hstripe

/-! ## Every action, every run -/

/-- An action that leaves the database alone keeps everything. -/
theorem keep_of_db_eq {freshId : UUID} {reads : Reads} {w w' : World σ}
    (hcoherent : Coherent w.db) (hknown : Known freshId reads w) (hdb : w'.db = w.db) :
    Coherent w'.db ∧ (mirrorContract freshId).guarantee w w' ∧ Known freshId reads w' := by
  refine ⟨hdb ▸ hcoherent, ⟨fun c hc => hdb ▸ hc, hdb ▸ Persists.refl _, ?_⟩, ?_⟩
  · rw [hdb]
    exact fun s hs => Or.inr ⟨s, hs, rfl⟩
  · exact ⟨hdb ▸ hknown.queried, hdb ▸ hknown.read, hdb ▸ hknown.unused⟩

/-- What an allowed action does to the invariant, to the guarantee and to what is
known. -/
theorem discipline_step {owned : Column → Bool} {freshId : UUID} (reads : Reads)
    (label : Action) (effect : World σ → World σ) (w : World σ) (hcoherent : Coherent w.db)
    (hknown : Known freshId reads w)
    (hallow : (discipline owned freshId).allow reads label effect) :
    Coherent (effect w).db ∧ (mirrorContract freshId).guarantee w (effect w) ∧
      Known freshId ((discipline owned freshId).track reads label w) (effect w) := by
  cases label with
  | transaction => exact hallow.elim
  | stripe call => exact keep_of_db_eq hcoherent hknown (hallow w)
  | enqueue task => exact keep_of_db_eq hcoherent hknown (hallow w)
  | query =>
      obtain ⟨hinv, hguarantee, hkeep⟩ := keep_of_db_eq hcoherent hknown (hallow w)
      refine ⟨hinv, hguarantee, ⟨?_, hkeep.read, hkeep.unused⟩⟩
      intro db hdb
      rcases List.mem_cons.mp hdb with rfl | hdb
      · rw [hallow w]
        exact fun c hc => hc
      · exact hkeep.queried db hdb
  | readSubscription =>
      obtain ⟨hinv, hguarantee, hkeep⟩ := keep_of_db_eq hcoherent hknown (hallow w)
      refine ⟨hinv, hguarantee, ⟨hkeep.queried, ?_, hkeep.unused⟩⟩
      intro db hdb
      cases hdb
      rw [hallow w]
      exact ⟨fun c hc => hc, hcoherent, Persists.refl _⟩
  | saveSubscription now row =>
      obtain ⟨rfl, hallowed⟩ := hallow
      cases hsave : w.db.saveSubscription now row with
      | error e =>
          have hsame : World.save now row w = w := by simp [World.save, hsave]
          rw [hsame]
          obtain ⟨hinv, hguarantee, hkeep⟩ := keep_of_db_eq hcoherent hknown (rfl : w.db = w.db)
          exact ⟨hinv, hguarantee, hkeep.queried, hkeep.read, nofun⟩
      | ok db' =>
          have hdone : World.save now row w = { w with db := db' } := by
            simp [World.save, hsave]
          rw [hdone]
          have hstep : Coherent db' ∧
              (mirrorContract freshId).guarantee w { w with db := db' } := by
            cases hallowed with
            | revise db old hread hold hrevises hlinked =>
                exact save_of_revises hcoherent hknown hread hold hrevises hlinked hsave
            | insert db hread hfirst hid hstripe hnew hplan hchange hlinked =>
                exact save_of_insert hcoherent hknown hfirst hid hstripe hplan hchange hlinked
                  hsave
          refine ⟨hstep.1, hstep.2, ?_, ?_, nofun⟩
          · exact fun db hdb => List.Subset.trans (hknown.queried db hdb) hstep.2.1
          · intro db hdb
            obtain ⟨hcustomers, hcoherentRead, hpersists⟩ := hknown.read db hdb
            exact ⟨List.Subset.trans hcustomers hstep.2.1, hcoherentRead,
              hpersists.trans hstep.2.2.1⟩

/-- A disciplined program meets the contract of its fresh id. -/
theorem Disciplined.meets {owned : Column → Bool} {freshId : UUID} {p : Handler σ Unit}
    (h : Disciplined owned freshId p Reads.start) {w : World σ} (hcoherent : Coherent w.db)
    (hunused : Unused freshId w.db) :
    Program.Meets (fun w => Coherent w.db) (mirrorContract freshId) (fun _ _ => True)
      (ExceptT.run p) w := by
  have hknown : Known freshId Reads.start w :=
    ⟨by simp [Reads.start], by simp [Reads.start], fun _ => hunused⟩
  refine Program.Meets.mono (Program.Obeys.meets ?_ discipline_step h hknown) hcoherent
    fun _ _ _ _ => trivial
  exact fun reads w w' hrely _ hknown => hknown.of_rely hrely

/-- The writers `writer i`, run concurrently over one world. -/
def writerPool {ι : Type} (rt : ι → Runtime σ) (writer : ι → Writer) (w : World σ) :
    Pool ι Action (World σ) (Py Unit) where
  shared := w
  procs i := ExceptT.run ((writer i).program (rt i))

/-- No two rows of a coherent database share a Stripe id. -/
theorem Coherent.stripeId_injective {db : Db} (h : Coherent db) {s s' : Subscription}
    (hs : s ∈ db.subscriptions.rows) (hs' : s' ∈ db.subscriptions.rows)
    (hsame : s'.stripeId = s.stripeId) : s = s' :=
  db.subscriptions.eq_of_clash hs hs' (Or.inr ⟨h.named s hs, hsame.symm⟩)

/-- In a later database the row of a Stripe id has the id and the creation time
it had. -/
theorem Persists.keys {db db' : Db} (h : Persists db db') (hcoherent : Coherent db')
    {s s' : Subscription} (hs : s ∈ db.subscriptions.rows) (hs' : s' ∈ db'.subscriptions.rows)
    (hsame : s'.stripeId = s.stripeId) : s'.id = s.id ∧ s'.createdAt = s.createdAt := by
  obtain ⟨t, ht, hid, hstripe, hcreated⟩ := h s hs
  have heq : t = s' := hcoherent.stripeId_injective ht hs' (hsame.trans hstripe.symm)
  rw [← heq]
  exact ⟨hid, hcreated⟩

section Runs

variable {ι : Type} {rt : ι → Runtime σ} {w : World σ}

theorem writerPool_meets (writer : ι → Writer) (hcoherent : Coherent w.db)
    (hunused : ∀ i, Unused (rt i).subscriptionId w.db) :
    (writerPool rt writer w).Meets (fun w => Coherent w.db)
      (fun i => mirrorContract (rt i).subscriptionId) fun _ _ _ => True :=
  ⟨hcoherent, fun i => ((writer i).disciplined (rt i)).meets hcoherent (hunused i)⟩

variable [DecidableEq ι]

theorem writerPool_run (hfresh : Function.Injective fun i => (rt i).subscriptionId)
    (writer : ι → Writer) (hcoherent : Coherent w.db)
    (hunused : ∀ i, Unused (rt i).subscriptionId w.db) (schedule : List ι) :
    ((writerPool rt writer w).run schedule).Meets (fun w => Coherent w.db)
      (fun i => mirrorContract (rt i).subscriptionId) fun _ _ _ => True :=
  Pool.run_meets (mirrorContract_compatible hfresh) (fun _ _ _ _ _ _ _ => trivial)
    (writerPool_meets writer hcoherent hunused)
    (Pool.respects_of_assume (fun _ _ _ => trivial) _ schedule)

/-- Every row the pool has stored stays, under its keys. -/
theorem writerPool_persists (hfresh : Function.Injective fun i => (rt i).subscriptionId)
    (writer : ι → Writer) (hcoherent : Coherent w.db)
    (hunused : ∀ i, Unused (rt i).subscriptionId w.db) (first second : List ι) :
    Persists ((writerPool rt writer w).run first).shared.db
      ((writerPool rt writer w).run (first ++ second)).shared.db := by
  have hguarantee : ∀ i (w w' : World σ),
      (mirrorContract (rt i).subscriptionId).guarantee w w' → Persists w.db w'.db :=
    fun _ _ _ h => h.2.1
  rw [Pool.run_append]
  refine Pool.run_related ?_ ?_ hguarantee (mirrorContract_compatible hfresh)
    (fun _ _ _ _ _ _ _ => trivial) (writerPool_run hfresh writer hcoherent hunused first)
    (Pool.respects_of_assume (fun _ _ _ => trivial) _ second)
  · exact fun w => Persists.refl w.db
  · exact fun h h' => h.trans h'

/-- The representation invariant: from an empty table, whichever writers run and
however their steps interleave, the pending columns of every row are empty
together, Stripe ids are unique, a row belongs to the user of its customer, and
the id and creation time of the row of a Stripe id never change. -/
theorem mirror_representation (hfresh : Function.Injective fun i => (rt i).subscriptionId)
    (writer : ι → Writer) (hempty : w.db.subscriptions.rows = []) (first second : List ι) :
    let reached := ((writerPool rt writer w).run first).shared.db
    let later := ((writerPool rt writer w).run (first ++ second)).shared.db
    (∀ s ∈ reached.subscriptions.rows,
      (s.scheduledPlanId = none ↔ s.scheduledChangeAt = none) ∧
        ∃ c ∈ reached.customers.rows, s.stripeCustomerId = some c.id ∧ s.userId = c.userId) ∧
    (reached.subscriptions.rows.Pairwise fun a b => a.stripeId ≠ b.stripeId) ∧
    ∀ s ∈ reached.subscriptions.rows, ∀ s' ∈ later.subscriptions.rows,
      s'.stripeId = s.stripeId → s'.id = s.id ∧ s'.createdAt = s.createdAt := by
  intro reached later
  have hcoherent : Coherent w.db := ⟨by simp [hempty], by simp [hempty], by simp [hempty]⟩
  have hunused : ∀ i, Unused (rt i).subscriptionId w.db := fun i => by simp [Unused, hempty]
  have hreached : Coherent reached := (writerPool_run hfresh writer hcoherent hunused first).1
  have hlater : Coherent later :=
    (writerPool_run hfresh writer hcoherent hunused (first ++ second)).1
  have hpersists : Persists reached later :=
    writerPool_persists hfresh writer hcoherent hunused first second
  refine ⟨fun s hs => ⟨hreached.paired s hs, hreached.owner s hs⟩, ?_, ?_⟩
  · refine reached.subscriptions.valid.2.imp_of_mem fun {a b} ha _ hclash hsame => ?_
    exact hclash (Or.inr ⟨hreached.named a ha, hsame⟩)
  · exact fun s hs s' hs' => hpersists.keys hlater hs hs'

/-- Two syncs of one new subscription that both find no row leave only one. -/
theorem mirror_representation_two_syncs :
    (((writerPool (fun i : Bool => sampleRuntime noStripe i.toNat 0)
      (fun _ => .sync (subscriptionObject "sub_1" "cus_1" "price_basic" .active 1 100))
      sampleWorld).run [false, true, false, true, false, true, false, true]
        ).shared.db.subscriptions.rows.Pairwise fun a b => a.stripeId ≠ b.stripeId) := by
  have hfresh : Function.Injective fun i : Bool =>
      (sampleRuntime noStripe i.toNat 0).subscriptionId := by
    unfold Function.Injective
    decide
  exact (mirror_representation hfresh _ rfl _ []).2.1

end Runs

end Saasmint
