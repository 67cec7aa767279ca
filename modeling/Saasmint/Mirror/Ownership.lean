import Saasmint.Library.Runs
import Saasmint.Mirror.Representation
import Saasmint.Billing.Payloads

/-!
# Who owns which column

Every writer saves a whole row, also the columns it does not own, from the copy
it read earlier.  An `Observed` pool runs the writers and keeps beside them the
row as its owners have left it: `owed` takes from every save the saving writer's
own columns and nothing else.

`settled_iff_current`: the stored row is the owed one all along a run exactly
when at every save the columns its writer does not own still hold what that
writer read.
-/

namespace Saasmint

open Atomic

variable {σ : Type}

/-! ## The owed row -/

/-- `stored` with the owned columns of `saved`. -/
def merge (owned : Column → Bool) (saved stored : Subscription) : Subscription where
  id := stored.id
  stripeId := stored.stripeId
  stripeCustomerId :=
    if owned .stripeCustomerId then saved.stripeCustomerId else stored.stripeCustomerId
  userId := if owned .userId then saved.userId else stored.userId
  status := if owned .status then saved.status else stored.status
  planId := if owned .planId then saved.planId else stored.planId
  seatLimit := if owned .seatLimit then saved.seatLimit else stored.seatLimit
  trialEndsAt := if owned .trialEndsAt then saved.trialEndsAt else stored.trialEndsAt
  currentPeriodStart :=
    if owned .currentPeriodStart then saved.currentPeriodStart else stored.currentPeriodStart
  currentPeriodEnd :=
    if owned .currentPeriodEnd then saved.currentPeriodEnd else stored.currentPeriodEnd
  canceledAt := if owned .canceledAt then saved.canceledAt else stored.canceledAt
  cancelAt := if owned .cancelAt then saved.cancelAt else stored.cancelAt
  scheduledPlanId :=
    if owned .scheduledPlanId then saved.scheduledPlanId else stored.scheduledPlanId
  scheduledChangeAt :=
    if owned .scheduledChangeAt then saved.scheduledChangeAt else stored.scheduledChangeAt
  currency := if owned .currency then saved.currency else stored.currency
  createdAt := stored.createdAt

theorem merge_agrees_saved {owned : Column → Bool} {c : Column} (h : owned c = true)
    (saved stored : Subscription) : c.Agrees (merge owned saved stored) saved := by
  cases c <;> simp [Column.Agrees, merge, h]

theorem merge_agrees_stored {owned : Column → Bool} {c : Column} (h : owned c = false)
    (saved stored : Subscription) : c.Agrees (merge owned saved stored) stored := by
  cases c <;> simp [Column.Agrees, merge, h]

/-! ## Observed pools -/

structure Observed (ι σ : Type) where
  pool : Pool ι Action (World σ) (Py Unit)
  reads : ι → Reads
  owed : Subscription

namespace Observed

variable {ι : Type} {rt : ι → Runtime σ} {writer : ι → Writer}

/-- Writer `i` is about to store `row` as the row of `id`. -/
def Saves (o : Observed ι σ) (i : ι) (id : UUID) (row : Subscription) : Prop :=
  row.id = id ∧ ∃ now effect next, o.pool.procs i = .act (.saveSubscription now row) effect next ∧
    ∃ db, o.pool.shared.db.saveSubscription now row = .ok db

/-- What the action of a writer leaves of the owed row. -/
def owe (owned : Column → Bool) (owed : Subscription) (db : Db) : Action → Subscription
  | .saveSubscription now row =>
      match db.saveSubscription now row with
      | .ok _ => if row.id = owed.id then merge owned row owed else owed
      | .error _ => owed
  | _ => owed

/-- Of the rows of a database with the owed id there is only one. -/
theorem stored_eq {db : Db} {id : UUID} {s s' : Subscription} (hs : s ∈ db.subscriptions.rows)
    (hid : s.id = id) (hs' : s' ∈ db.subscriptions.rows) (hid' : s'.id = id) : s = s' :=
  db.subscriptions.eq_of_clash hs hs' (Or.inl (hid.trans hid'.symm))

/-! ## What holds in every run -/

/-- The writers keep their discipline, and the row of the owed id keeps its Stripe
id and creation time wherever it is seen. -/
structure Tracks (rt : ι → Runtime σ) (writer : ι → Writer) (o : Observed ι σ) : Prop where
  obeys : o.pool.Obeys (fun i => discipline (writer i).owns (rt i).subscriptionId)
    (fun _ _ _ => True) o.reads
  fresh : ∀ i, (rt i).subscriptionId ≠ o.owed.id
  stored : ∃ s ∈ o.pool.shared.db.subscriptions.rows, s.id = o.owed.id ∧
    s.stripeId = o.owed.stripeId ∧ s.createdAt = o.owed.createdAt
  seen : ∀ i db, (o.reads i).read = some db → ∀ s ∈ db.subscriptions.rows, s.id = o.owed.id →
    s.stripeId = o.owed.stripeId

/-- What a writer saves as the owed row revises a row of that id it has read. -/
theorem Tracks.revises {o : Observed ι σ} (h : Tracks rt writer o) {i : ι} {now : Datetime} {row : Subscription}
    {effect : World σ → World σ} {next : World σ → Program Action (World σ) (Py Unit)}
    (hproc : o.pool.procs i = .act (.saveSubscription now row) effect next)
    (hid : row.id = o.owed.id) : effect = World.save now row ∧
      ∃ db seen, (o.reads i).read = some db ∧ seen ∈ db.subscriptions.rows ∧
        seen.id = o.owed.id ∧ Revises (writer i).owns seen row := by
  have hmine := h.obeys i
  rw [hproc] at hmine
  obtain ⟨⟨heffect, hallowed⟩, -⟩ := hmine
  refine ⟨heffect, ?_⟩
  cases hallowed with
  | revise db old hread hold hrevises _ =>
      exact ⟨db, old, hread, hold, hrevises.id.symm.trans hid, hrevises⟩
  | insert db _ _ hfresh => exact absurd (hfresh.symm.trans hid) (h.fresh i)

/-- The saved row has the keys of the owed one. -/
theorem Tracks.saved_keys {o : Observed ι σ} {i : ι} (h : Tracks rt writer o) {row : Subscription}
    (hsaves : o.Saves i o.owed.id row) : row.stripeId = o.owed.stripeId := by
  obtain ⟨hid, now, effect, next, hproc, -⟩ := hsaves
  obtain ⟨-, db, seen, hread, hseen, hseenId, hrevises⟩ := h.revises hproc hid
  exact hrevises.stripeId.trans (h.seen i db hread seen hseen hseenId)

/-- The writers before their first step, with `row` the stored row. -/
def start (rt : ι → Runtime σ) (writer : ι → Writer) (w : World σ) (row : Subscription) :
    Observed ι σ where
  pool := writerPool rt writer w
  reads _ := Reads.start
  owed := row

theorem start_tracks {w : World σ} {row : Subscription} (hrow : row ∈ w.db.subscriptions.rows)
    (hfresh : ∀ i, (rt i).subscriptionId ≠ row.id) : Tracks rt writer (start rt writer w row) where
  obeys i := (writer i).disciplined (rt i)
  fresh := hfresh
  stored := ⟨row, hrow, rfl, rfl, rfl⟩
  seen := by simp [start, Reads.start]

/-! ## Steps and runs -/

variable [DecidableEq ι]

def step (rt : ι → Runtime σ) (writer : ι → Writer) (o : Observed ι σ) (i : ι) :
    Observed ι σ where
  pool := o.pool.step i
  reads := o.pool.track (fun i => discipline (writer i).owns (rt i).subscriptionId) o.reads i
  owed :=
    match o.pool.procs i with
    | .done _ => o.owed
    | .act label _ _ => owe (writer i).owns o.owed o.pool.shared.db label

/-- The observed pool after the actions a schedule names. -/
def run (rt : ι → Runtime σ) (writer : ι → Writer) (o : Observed ι σ) (schedule : List ι) :
    Observed ι σ :=
  Runs.run (step rt writer) o schedule

/-- Observing a pool does not change its run. -/
theorem run_pool (o : Observed ι σ) (schedule : List ι) :
    (o.run rt writer schedule).pool = o.pool.run schedule := by
  induction schedule generalizing o with
  | nil => rfl
  | cons i rest ih => exact ih (o.step rt writer i)

/-- Every column holds what its owner saved last. -/
def Settled (o : Observed ι σ) : Prop := o.owed ∈ o.pool.shared.db.subscriptions.rows

/-- If writer `i` is about to store the row, what it read is still current in the
columns it does not own. -/
def Current (writer : ι → Writer) (o : Observed ι σ) (i : ι) : Prop :=
  ∀ row, o.Saves i o.owed.id row → ∀ db seen stored, (o.reads i).read = some db →
    seen ∈ db.subscriptions.rows → seen.id = o.owed.id →
    stored ∈ o.pool.shared.db.subscriptions.rows → stored.id = o.owed.id →
    ∀ c, (writer i).owns c = false → c.Agrees stored seen

section Step

variable {o : Observed ι σ} {i : ι}

theorem step_of_done {result : Py Unit} (h : o.pool.procs i = .done result) :
    o.step rt writer i = o := by
  have hpool : o.pool.step i = o.pool := Pool.step_done h
  simp only [step, hpool, Pool.track_done h, h]

/-- What a writer has read last, it had read before or reads now. -/
theorem read_step {j : ι} {db : Db} (h : ((o.step rt writer i).reads j).read = some db) :
    (o.reads j).read = some db ∨ db = o.pool.shared.db := by
  cases hproc : o.pool.procs i with
  | done result =>
      rw [step_of_done hproc] at h
      exact Or.inl h
  | act label effect next =>
      by_cases hj : j = i
      · subst hj
        simp only [step, Pool.track_act hproc, Function.update_self] at h
        cases label with
        | readSubscription =>
            cases h
            exact Or.inr rfl
        | _ => exact Or.inl h
      · simp only [step, Pool.track_act hproc, Function.update_of_ne hj] at h
        exact Or.inl h

/-- What a step does: nothing to the owed row, or a save that stores it anew. -/
theorem Tracks.step_cases (h : Tracks rt writer o) :
    ((∀ row, ¬ o.Saves i o.owed.id row) ∧ (o.step rt writer i).owed = o.owed ∧
      ∀ s, s.id = o.owed.id → (s ∈ (o.pool.step i).shared.db.subscriptions.rows ↔
        s ∈ o.pool.shared.db.subscriptions.rows)) ∨
    ∃ row, o.Saves i o.owed.id row ∧
      (o.step rt writer i).owed = merge (writer i).owns row o.owed ∧
      ∀ s, s.id = o.owed.id → (s ∈ (o.pool.step i).shared.db.subscriptions.rows ↔
        s = { row with createdAt := o.owed.createdAt }) := by
  obtain ⟨stored, hstored, hstoredId, -, hcreated⟩ := h.stored
  cases hproc : o.pool.procs i with
  | done result =>
      left
      refine ⟨?_, by rw [step_of_done hproc], ?_⟩
      · rintro row ⟨-, now, effect, next, hact, -⟩
        rw [hproc] at hact
        cases hact
      · rw [Pool.step_done hproc]
        exact fun s _ => Iff.rfl
  | act label effect next =>
      have hmine := h.obeys i
      rw [hproc] at hmine
      have hallow := hmine.1
      have hother : (∀ now row, label ≠ .saveSubscription now row) →
          (∀ w, (effect w).db = w.db) → (∀ row, ¬ o.Saves i o.owed.id row) ∧
          (o.step rt writer i).owed = o.owed ∧
          ∀ s, s.id = o.owed.id → (s ∈ (o.pool.step i).shared.db.subscriptions.rows ↔
            s ∈ o.pool.shared.db.subscriptions.rows) := by
        intro hlabel heffect
        refine ⟨?_, ?_, ?_⟩
        · rintro row ⟨-, now, effect', next', hact, -⟩
          rw [hproc] at hact
          cases hact
          exact hlabel now row rfl
        · simp only [step, hproc]
          cases label with
          | saveSubscription now row => exact absurd rfl (hlabel now row)
          | _ => rfl
        · rw [Pool.step_act hproc, heffect]
          exact fun s _ => Iff.rfl
      cases label with
      | transaction => exact hallow.elim
      | query => exact Or.inl (hother (by simp) hallow)
      | readSubscription => exact Or.inl (hother (by simp) hallow)
      | stripe call => exact Or.inl (hother (by simp) hallow)
      | enqueue task => exact Or.inl (hother (by simp) hallow)
      | saveSubscription now row =>
          obtain ⟨heffect, -⟩ := hallow
          cases hsave : o.pool.shared.db.saveSubscription now row with
          | error e =>
              left
              have hsame : World.save now row o.pool.shared = o.pool.shared := by
                simp [World.save, hsave]
              refine ⟨?_, by simp [step, hproc, owe, hsave], ?_⟩
              · rintro row' ⟨-, now', effect', next', hact, db', hok⟩
                rw [hproc] at hact
                cases hact
                rw [hsave] at hok
                cases hok
              · rw [Pool.step_act hproc, heffect, hsame]
                exact fun s _ => Iff.rfl
          | ok db' =>
              have hdone : (World.save now row o.pool.shared).db = db' := by
                simp [World.save, hsave]
              have hmem := @Db.mem_saveSubscription _ _ _ _ hsave
              rw [Pool.step_act hproc, heffect, hdone]
              by_cases hid : row.id = o.owed.id
              · right
                refine ⟨row, ⟨hid, now, effect, next, hproc, db', hsave⟩,
                  by simp [step, hproc, owe, hsave, hid], fun s hs => ?_⟩
                rw [hmem, ← hcreated]
                constructor
                · rintro (⟨-, hne⟩ | ⟨old, hold, holdId, rfl⟩ | ⟨-, hnone⟩)
                  · exact absurd (hs.trans hid.symm) hne
                  · rw [stored_eq hold (holdId.trans hid) hstored hstoredId]
                  · exact absurd (hstoredId.trans hid.symm) (hnone stored hstored)
                · rintro rfl
                  exact Or.inr (Or.inl ⟨stored, hstored, hstoredId.trans hid.symm, rfl⟩)
              · left
                refine ⟨?_, by simp [step, hproc, owe, hsave, hid], fun s hs => ?_⟩
                · rintro row' ⟨hid', now', effect', next', hact, -⟩
                  rw [hproc] at hact
                  cases hact
                  exact hid hid'
                · rw [hmem]
                  have hne : s.id ≠ row.id := by
                    rw [hs]
                    exact fun heq => hid heq.symm
                  constructor
                  · rintro (⟨hs', -⟩ | ⟨old, -, -, rfl⟩ | ⟨rfl, -⟩)
                    · exact hs'
                    · exact absurd rfl hne
                    · exact absurd rfl hne
                  · exact fun hs' => Or.inl ⟨hs', hne⟩

theorem owed_keys (h : Tracks rt writer o) :
    (o.step rt writer i).owed.id = o.owed.id ∧
      (o.step rt writer i).owed.stripeId = o.owed.stripeId ∧
      (o.step rt writer i).owed.createdAt = o.owed.createdAt := by
  rcases h.step_cases with ⟨-, howed, -⟩ | ⟨row, -, howed, -⟩
  · rw [howed]
    exact ⟨rfl, rfl, rfl⟩
  · rw [howed]
    exact ⟨rfl, rfl, rfl⟩

theorem Tracks.step (h : Tracks rt writer o) (i : ι) : Tracks rt writer (o.step rt writer i) := by
  obtain ⟨hid, hstripe, hcreated⟩ := owed_keys (i := i) h
  obtain ⟨stored, hstored, hstoredId, hstoredStripe, hstoredCreated⟩ := h.stored
  refine ⟨Pool.step_obeys h.obeys i, fun j => ?_, ?_, ?_⟩
  · rw [hid]
    exact h.fresh j
  · rw [hid, hstripe, hcreated]
    rcases h.step_cases with ⟨-, -, hrows⟩ | ⟨row, hsaves, -, hrows⟩
    · exact ⟨stored, (hrows stored hstoredId).mpr hstored, hstoredId, hstoredStripe,
        hstoredCreated⟩
    · have hkeys := h.saved_keys hsaves
      have hkept := (hrows { row with createdAt := o.owed.createdAt } hsaves.1).mpr rfl
      exact ⟨_, hkept, hsaves.1, hkeys, rfl⟩
  · intro j db hread s hs hsid
    rw [hid] at hsid
    rw [hstripe]
    rcases read_step hread with hread | rfl
    · exact h.seen j db hread s hs hsid
    · rw [stored_eq hs hsid hstored hstoredId]
      exact hstoredStripe

/-- A settled row stays so in a step exactly when the step's writer is current. -/
theorem settled_step (h : Tracks rt writer o) (hsettled : o.Settled) :
    (o.step rt writer i).Settled ↔ o.Current writer i := by
  have hkeys := owed_keys (i := i) h
  rcases h.step_cases with ⟨hno, howed, hrows⟩ | ⟨row, hsaves, howed, hrows⟩
  · refine iff_of_true ?_ fun row hsaves => absurd hsaves (hno row)
    show (o.step rt writer i).owed ∈ (o.pool.step i).shared.db.subscriptions.rows
    rw [howed]
    exact (hrows _ rfl).mpr hsettled
  · have hstep : (o.step rt writer i).Settled ↔
        merge (writer i).owns row o.owed = { row with createdAt := o.owed.createdAt } := by
      show (o.step rt writer i).owed ∈ (o.pool.step i).shared.db.subscriptions.rows ↔ _
      rw [hrows _ hkeys.1, howed]
    have hsaved := hsaves
    obtain ⟨hid, now, effect, next, hproc, -⟩ := hsaves
    obtain ⟨-, db, seen, hread, hseen, hseenId, hrevises⟩ := h.revises hproc hid
    rw [hstep]
    constructor
    · intro heq row' hsaves' db' seen' stored' hread' hseen' hseenId' hstored' hstoredId' c hc
      rw [hread] at hread'
      cases hread'
      rw [stored_eq hseen' hseenId' hseen hseenId,
        stored_eq hstored' hstoredId' hsettled rfl]
      have hmerged := merge_agrees_stored hc row o.owed
      rw [heq] at hmerged
      have hrow : c.Agrees { row with createdAt := o.owed.createdAt } row := by
        cases c <;> rfl
      exact hmerged.symm.trans (hrow.trans (hrevises.frame c hc))
    · intro hcurrent
      refine Subscription.eq_of_agrees hid.symm (h.saved_keys hsaved).symm rfl fun c => ?_
      have hrow : c.Agrees row { row with createdAt := o.owed.createdAt } := by
        cases c <;> rfl
      cases hc : (writer i).owns c with
      | true => exact (merge_agrees_saved hc row o.owed).trans hrow
      | false =>
          have hseenAgrees := hcurrent row hsaved db seen o.owed hread hseen hseenId hsettled rfl
            c hc
          exact (merge_agrees_stored hc row o.owed).trans
            (hseenAgrees.trans ((hrevises.frame c hc).symm.trans hrow))

end Step

/-- No lost update, exactly: the stored row is the owed one in every state of a
run if and only if every save of it in the run is made by a writer whose reads
are current in the columns it does not own. -/
theorem settled_iff_current {w : World σ} {row : Subscription}
    (hrow : row ∈ w.db.subscriptions.rows) (hfresh : ∀ i, (rt i).subscriptionId ≠ row.id)
    (schedule : List ι) :
    Runs.Always (step rt writer) Settled (start rt writer w row) schedule ↔
      Runs.Steps (step rt writer) (Current writer) (start rt writer w row) schedule :=
  Runs.always_iff_steps (Tracks rt writer) (fun _ i h => h.step i) (fun _ _ h hsettled => settled_step h hsettled)
    (start_tracks hrow hfresh) hrow

/-! ## A lost update -/

def Finished (o : Observed ι σ) : Prop := ∀ i, (o.pool.procs i).finished = true

/-- A cancellation and the sync of an upgrade to the pro plan. -/
def cancelAndUpgrade : Bool → Writer
  | false => .cancel buyerCustomer.id true
  | true => .sync (subscriptionObject "sub_1" "cus_1" "price_pro" .active 1 100)

def cancelAndUpgradeRuntime (i : Bool) : Runtime Unit := sampleRuntime modifiable i.toNat 0

/-- The run in which the upgrade is synced between the cancellation's read and its
save. -/
def overtaken : List Bool := [false, true, true, true, true, false, false]

def cancelAndUpgradeStart : Observed Bool Unit :=
  start cancelAndUpgradeRuntime cancelAndUpgrade subscribedWorld buyerSubscription

theorem overtaken_planId :
    let o := cancelAndUpgradeStart.run cancelAndUpgradeRuntime cancelAndUpgrade overtaken
    o.Finished ∧ o.owed.planId = proPlan.id ∧
      o.pool.shared.db.subscriptions.rows.map Subscription.planId = [basicPlan.id] := by
  refine ⟨?_, ?_, ?_⟩
  · unfold Finished
    decide +kernel
  · decide +kernel
  · decide +kernel

/-- The cancellation puts the old plan back. -/
theorem not_settled_of_overtaken :
    ¬ (cancelAndUpgradeStart.run cancelAndUpgradeRuntime cancelAndUpgrade overtaken).Settled := by
  intro hsettled
  obtain ⟨-, howed, hrows⟩ := overtaken_planId
  have hmem := List.mem_map_of_mem (f := Subscription.planId) hsettled
  rw [hrows, howed] at hmem
  revert hmem
  decide

/-- Not every run of the writers ends with every column as its owner saved it. -/
theorem not_always_settled : ¬ ∀ schedule : List Bool,
    (cancelAndUpgradeStart.run cancelAndUpgradeRuntime cancelAndUpgrade schedule).Finished →
    (cancelAndUpgradeStart.run cancelAndUpgradeRuntime cancelAndUpgrade schedule).Settled :=
  fun h => not_settled_of_overtaken (h overtaken overtaken_planId.1)

/-- In that run some save is made on stale reads. -/
theorem settled_iff_current_overtaken : ¬ Runs.Steps
    (step cancelAndUpgradeRuntime cancelAndUpgrade) (Current cancelAndUpgrade)
    cancelAndUpgradeStart overtaken := by
  have hrow : buyerSubscription ∈ subscribedWorld.db.subscriptions.rows := by decide
  have hfresh : ∀ i, (cancelAndUpgradeRuntime i).subscriptionId ≠ buyerSubscription.id := by
    decide
  intro hcurrent
  have hsettled := (settled_iff_current hrow hfresh overtaken).mpr hcurrent
  exact not_settled_of_overtaken hsettled.final

end Observed

end Saasmint
