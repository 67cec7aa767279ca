import Saasmint.Mirror.Writers
import Saasmint.Orgs.Accounts
import Saasmint.Orgs.Replay

/-!
# Complete operations

The operations that touch the orgs, their members and their invitations, each run
alone from its first statement to its last: team checkouts, the requests to members
and invitations, the deletion of an org by its owner or after its subscription has
ended, and the deletion of an account.

`OrgStep` says what an operation makes of the database, `OrgOperation.step` that it
does nothing else.  The properties of runs of operations are proved from these cases
and look at no program again.
-/

namespace Saasmint

open Atomic Relational

variable {σ : Type}

/-! ## Mirroring -/

/-- Subscriptions belong to the user their customer belongs to, if any. -/
def Tables.Linked (t : Tables) : Prop :=
  ∀ s ∈ t.subscriptions.rows, ∀ c ∈ t.customers.rows, s.stripeCustomerId = some c.id →
    s.userId = c.userId

/-- Only subscription rows have been written, and those linked as they should be. -/
structure MirrorWrites (db db' : Db) : Prop where
  frame : db'.toTables = { db.toTables with subscriptions := db'.subscriptions }
  linked : db.Linked → db'.Linked

theorem MirrorWrites.refl (db : Db) : MirrorWrites db db := ⟨rfl, id⟩

theorem MirrorWrites.trans {db db' db'' : Db} (h : MirrorWrites db db') (h' : MirrorWrites db' db'') :
    MirrorWrites db db'' := by
  refine ⟨?_, h'.linked ∘ h.linked⟩
  rw [h'.frame, h.frame]

/-- What a writer remembers is what the database it started from holds. -/
structure Remembers (db : Db) (reads : Reads) (w : World σ) : Prop where
  frame : w.db.toTables = { db.toTables with subscriptions := w.db.subscriptions }
  linked : db.Linked → w.db.Linked
  queried : ∀ seen ∈ reads.queried, seen.customers = db.customers
  read : ∀ seen ∈ reads.read, seen.customers = db.customers ∧ (db.Linked → seen.Linked)

theorem Remembers.start (w : World σ) : Remembers w.db Reads.start w :=
  ⟨rfl, id, nofun, nofun⟩

theorem Remembers.customers {db : Db} {reads : Reads} {w : World σ} (h : Remembers db reads w) :
    w.db.customers = db.customers := by
  rw [h.frame]

/-- A saved row is linked: it keeps the link of the row it revises, or has the one of a
customer that was looked up. -/
theorem Remembers.linked_of_allowed {db : Db} {reads : Reads} {w : World σ}
    {owned : Column → Bool} {freshId : UUID} {row : Subscription} (h : Remembers db reads w)
    (hdb : db.Linked) (hallowed : AllowedSave owned freshId reads row) :
    ∀ c ∈ db.customers.rows, row.stripeCustomerId = some c.id → row.userId = c.userId := by
  have hlooked : reads.Linked row → ∀ c ∈ db.customers.rows, row.stripeCustomerId = some c.id →
      row.userId = c.userId := by
    rintro ⟨seen, hseen, c', hc', hcustomer', huser'⟩ c hc hcustomer
    rw [h.queried seen hseen] at hc'
    have hsame : c' = c := db.customers.eq_of_clash hc' hc
      (Or.inl (Option.some.inj (hcustomer'.symm.trans hcustomer)))
    rw [huser', hsame]
  cases hallowed with
  | revise seen old hread hold hrevises hlinked =>
      rcases hlinked with ⟨hcustomer, huser⟩ | hlinked
      · intro c hc hrow
        obtain ⟨hcustomers, hseen⟩ := h.read seen hread
        rw [← hcustomers] at hc
        rw [huser]
        exact hseen hdb old hold c hc (hcustomer.symm.trans hrow)
      · exact hlooked hlinked
  | insert seen hread hfirst hid hstripe hnew hplan hchange hlinked => exact hlooked hlinked

theorem Remembers.save {db : Db} {reads : Reads} {w : World σ} {owned : Column → Bool}
    {freshId : UUID} {now : Datetime} {row : Subscription} (h : Remembers db reads w)
    (hallowed : AllowedSave owned freshId reads row) :
    Remembers db { reads with saved := true } (World.save now row w) := by
  unfold World.save
  cases hsave : w.db.saveSubscription now row with
  | error e => exact ⟨h.frame, h.linked, h.queried, h.read⟩
  | ok db' =>
      have hframe := Db.saveSubscription_frame hsave
      have hcustomers : db'.customers = w.db.customers := by rw [hframe]
      refine ⟨?_, fun hdb => ?_, h.queried, h.read⟩
      · show db'.toTables = _
        rw [hframe, h.frame]
        rfl
      · intro s hs c hc hcustomer
        replace hc : c ∈ db.customers.rows := by
          rw [← h.customers, ← hcustomers]
          exact hc
        have hrow := h.linked_of_allowed hdb hallowed c hc
        rcases (Db.mem_saveSubscription hsave).mp hs with ⟨hold, _⟩ | ⟨old, _, _, rfl⟩ | ⟨rfl, _⟩
        · rw [← h.customers] at hc
          exact h.linked hdb s hold c hc hcustomer
        · exact hrow hcustomer
        · exact hrow hcustomer

/-- Run alone, a program that keeps the discipline of the writers mirrors. -/
theorem Disciplined.mirrors {α : Type} {owned : Column → Bool} {freshId : UUID}
    {p : Handler σ α} (h : Disciplined owned freshId p Reads.start) (w : World σ) :
    MirrorWrites w.db (Fallible.exec p w).2.db := by
  have hstep : ∀ reads label (effect : World σ → World σ) t, Remembers w.db reads t →
      (discipline owned freshId).allow reads label effect →
      Remembers w.db ((discipline owned freshId).track reads label t) (effect t) := by
    intro reads label effect t hknow hallowed
    cases label with
    | saveSubscription now row =>
        obtain ⟨rfl, hallowed⟩ := hallowed
        exact hknow.save hallowed
    | transaction => exact hallowed.elim
    | query =>
        refine ⟨?_, ?_, ?_, hknow.read⟩
        · rw [hallowed t]
          exact hknow.frame
        · rw [hallowed t]
          exact hknow.linked
        · intro seen hseen
          rcases List.mem_cons.mp hseen with rfl | hseen
          · exact hknow.customers
          · exact hknow.queried seen hseen
    | readSubscription =>
        refine ⟨?_, ?_, hknow.queried, ?_⟩
        · rw [hallowed t]
          exact hknow.frame
        · rw [hallowed t]
          exact hknow.linked
        · intro seen hseen
          cases hseen
          exact ⟨hknow.customers, hknow.linked⟩
    | stripe call =>
        exact ⟨by rw [hallowed t]; exact hknow.frame, by rw [hallowed t]; exact hknow.linked,
          hknow.queried, hknow.read⟩
    | enqueue task =>
        exact ⟨by rw [hallowed t]; exact hknow.frame, by rw [hallowed t]; exact hknow.linked,
          hknow.queried, hknow.read⟩
  obtain ⟨reads, hknow, -⟩ := Program.Obeys.run hstep h (Remembers.start w)
  exact ⟨hknow.frame, hknow.linked⟩

/-! ## Team checkouts -/

/-- A team checkout has created its org. -/
structure Founded (rt : Runtime σ) (c : TeamCheckout) (db db' : Db) (user : User) (slug : String) :
    Prop where
  user_mem : user ∈ db.users.rows
  user_id : user.id = c.userId
  inserted : insertOrgWithOwner db (newOrg rt user c.orgName slug) (ownerMembership rt user)
    (some (orgCustomer rt c.stripeCustomerId c.livemode)) = .ok db'

section Handlers

open Handler

variable {w : World σ} {rt : Runtime σ}

/-- The org is known, or it is created, or nothing happens. -/
theorem ends_createOrgWithOwner {user : User} {orgName stripeCustomerId : String} {livemode : Bool}
    {post : Py (Org × OrgMember) → World σ → Prop} (hsame : ∀ result, post result w)
    (hcreated : ∀ slug result db, insertOrgWithOwner w.db (newOrg rt user orgName slug)
      (ownerMembership rt user) (some (orgCustomer rt stripeCustomerId livemode)) = .ok db →
      post result { w with db := db }) :
    (createOrgWithOwner rt user orgName (some stripeCustomerId) livemode).Ends post w := by
  unfold createOrgWithOwner
  simp only [Fallible.ends_bind]
  unfold Fallible.Ends
  rw [exec_alreadyCreated]
  cases knownTeam w.db user stripeCustomerId with
  | some already => exact hsame _
  | none =>
      simp only [Fallible.follow_ok, Fallible.ends_bind]
      unfold Fallible.Ends
      rw [exec_query]
      simp only [Fallible.follow_ok, Fallible.ends_bind]
      unfold Fallible.Ends
      rw [exec_transaction]
      cases hinsert : insertOrgWithOwner w.db (newOrg rt user orgName
          (generateUniqueSlug rt.slugify orgName (w.db.orgs.rows.map Org.slug)))
          (ownerMembership rt user) (some (orgCustomer rt stripeCustomerId livemode)) with
      | error e =>
          rw [Option.map_some, hinsert]
          exact hsame _
      | ok db =>
          rw [Option.map_some, hinsert]
          exact hcreated _ _ db hinsert

theorem ends_persistTeamSubscription (stripeSubscriptionId : String) :
    (persistTeamSubscription rt stripeSubscriptionId).Ends
      (fun _ w' => MirrorWrites w.db w'.db) w := by
  unfold persistTeamSubscription
  rw [Fallible.ends_bind]
  unfold Fallible.Ends
  rw [exec_callStripe]
  cases (rt.stripe.call (.subscriptionRetrieve stripeSubscriptionId) w.stripe).1 with
  | error e => exact MirrorWrites.refl _
  | ok sub =>
      exact (sync_disciplined rt sub rfl).mirrors
        { w with stripe := (rt.stripe.call (.subscriptionRetrieve stripeSubscriptionId) w.stripe).2 }

theorem ends_schedulePersonalCancel (userId : UUID) :
    (schedulePersonalCancelAtPeriodEnd rt userId).Ends (fun _ w' => MirrorWrites w.db w'.db) w := by
  unfold schedulePersonalCancelAtPeriodEnd
  rw [Fallible.ends_bind]
  unfold Fallible.Ends
  rw [exec_query]
  cases w.db.customerByUserId userId with
  | none => exact MirrorWrites.refl _
  | some customer =>
      rw [Fallible.follow_ok]
      dsimp only
      rw [Fallible.ends_tryCatch]
      have hcancel : (cancelSubscription rt customer.id true).Ends
          (fun _ w' => MirrorWrites w.db w'.db) w :=
        (cancel_disciplined rt customer.id true Reads.start).mirrors w
      refine hcancel.mono fun result t ht => ?_
      cases result with
      | ok _ => exact ht
      | error e => cases e <;> exact ht

/-- What a team checkout does once its org is there. -/
def TeamCheckout.mirrorPurchase (rt : Runtime σ) (c : TeamCheckout) : Handler σ Unit := do
  if let some stripeSubscriptionId := c.stripeSubscriptionId then
    persistTeamSubscription rt stripeSubscriptionId
  if !c.keepPersonalSubscription then
    schedulePersonalCancelAtPeriodEnd rt c.userId

theorem TeamCheckout.ends_mirrorPurchase (rt : Runtime σ) (c : TeamCheckout) (t : World σ) :
    (c.mirrorPurchase rt).Ends (fun _ w' => MirrorWrites t.db w'.db) t := by
  have hlast : ∀ r : World σ, (if !c.keepPersonalSubscription then
      schedulePersonalCancelAtPeriodEnd rt c.userId else pure () : Handler σ Unit).Ends
      (fun _ w' => MirrorWrites r.db w'.db) r := by
    intro r
    split
    · exact ends_schedulePersonalCancel c.userId
    · exact MirrorWrites.refl _
  unfold TeamCheckout.mirrorPurchase
  cases c.stripeSubscriptionId with
  | none => exact hlast t
  | some stripeSubscriptionId =>
      dsimp only
      rw [Fallible.ends_bind]
      refine (ends_persistTeamSubscription stripeSubscriptionId).mono fun result r hr => ?_
      cases result with
      | error e => exact hr
      | ok _ => exact (hlast r).mono fun _ w' hw' => hr.trans hw'

/-- A team checkout founds its org or finds it, and mirrors. -/
theorem TeamCheckout.ends_handle (rt : Runtime σ) (c : TeamCheckout) :
    (c.handle rt).Ends (fun _ w' => MirrorWrites w.db w'.db ∨
      ∃ user slug db, Founded rt c w.db db user slug ∧ MirrorWrites db w'.db) w := by
  unfold TeamCheckout.handle onTeamCheckoutCompleted
  rw [Fallible.ends_bind]
  unfold Fallible.Ends
  rw [exec_query]
  cases hfound : w.db.userById c.userId with
  | none => exact Or.inl (MirrorWrites.refl _)
  | some user =>
      obtain ⟨huser, hid⟩ := Table.mem_of_find? hfound
      rw [Fallible.follow_ok]
      dsimp only
      rw [Fallible.ends_bind]
      refine ends_createOrgWithOwner (fun result => ?_) fun slug result db hinsert => ?_
      · cases result with
        | error e => exact Or.inl (MirrorWrites.refl _)
        | ok created => exact (c.ends_mirrorPurchase rt w).mono fun _ w' hw' => Or.inl hw'
      · have hfounded : Founded rt c w.db db user slug := ⟨huser, beq_iff_eq.mp hid, hinsert⟩
        cases result with
        | error e => exact Or.inr ⟨user, slug, db, hfounded, MirrorWrites.refl _⟩
        | ok created =>
            rw [Fallible.follow_ok]
            refine (c.ends_mirrorPurchase rt { w with db := db }).mono fun _ w' hw' => ?_
            exact Or.inr ⟨user, slug, db, hfounded, hw'⟩

end Handlers

/-! ## Operations -/

inductive OrgOperation (σ : Type)
  | teamCheckout (rt : Runtime σ) (checkout : TeamCheckout)
  | mirror (rt : Runtime σ) (writer : Writer)
  | member (orgId : UUID) (request : MemberRequest)
  | invitation (request : InvitationRequest σ)
  | deleteOrg (rt : Runtime σ) (userId orgId : UUID)
  | subscriptionEnded (orgId : UUID)
  | deleteAccount (rt : Runtime σ) (userId : UUID)

/-- The world after a complete operation. -/
def OrgOperation.after (w : World σ) : OrgOperation σ → World σ
  | teamCheckout rt checkout => (Fallible.exec (checkout.handle rt) w).2
  | mirror rt writer => (Fallible.exec (writer.program rt) w).2
  | member orgId request => (Fallible.exec (request.session orgId) w).2
  | invitation request => (Fallible.exec request.session w).2
  | deleteOrg rt userId orgId => (Fallible.exec (Session.deleteOrgView rt userId orgId) w).2
  | subscriptionEnded orgId => (Fallible.exec (deleteOrgOnSubscriptionCancelTask orgId) w).2
  | deleteAccount rt userId => (Fallible.exec (Session.deleteAccount rt userId) w).2

/-- What an operation makes of the database. -/
inductive OrgStep (db : Db) : OrgOperation σ → Db → Prop
  | refused {operation : OrgOperation σ} : OrgStep db operation db
  | mirrored {operation : OrgOperation σ} {db' : Db} (mirrors : MirrorWrites db db') :
      OrgStep db operation db'
  | founded {rt : Runtime σ} {checkout : TeamCheckout} {user : User} {slug : String}
      {created db' : Db} (founded : Founded rt checkout db created user slug)
      (mirrors : MirrorWrites created db') : OrgStep db (.teamCheckout rt checkout) db'
  | member {orgId : UUID} {request : MemberRequest} {db' : Db}
      (step : MemberStep orgId db request db') : OrgStep db (.member orgId request) db'
  | invitation {request : InvitationRequest σ} {db' : Db} (step : InvitationStep db request db') :
      OrgStep db (.invitation request) db'
  | deleted {rt : Runtime σ} {userId orgId : UUID} {db' : Db} (owns : OwnsOrg db userId orgId)
      (deleted : db'.toTables = db.toTables.deleteOrgBatch [orgId]) :
      OrgStep db (.deleteOrg rt userId orgId) db'
  | ended {orgId : UUID} {db' : Db}
      (deleted : db'.toTables = db.toTables.deleteOrgBatch [orgId]) :
      OrgStep db (.subscriptionEnded orgId) db'
  | erased {rt : Runtime σ} {userId : UUID} {db' : Db} (stage : ℕ) (ended : stage ≠ 3)
      (erased : db'.toTables = db.toTables.erased userId stage) :
      OrgStep db (.deleteAccount rt userId) db'

theorem ends_deleteOrgOnSubscriptionCancelTask {w : World σ} (orgId : UUID) :
    (deleteOrgOnSubscriptionCancelTask orgId).Ends (fun result w' =>
      w' = w ∧ (w.db.orgById orgId = none ∨ ∃ e, result = .error e) ∨
        result = .ok () ∧ ∃ db, db.toTables = w.db.toTables.deleteOrgBatch [orgId] ∧
          w' = { w with db := db }) w := by
  unfold deleteOrgOnSubscriptionCancelTask
  rw [Fallible.ends_bind]
  unfold Fallible.Ends
  rw [Handler.exec_query]
  cases hfound : w.db.orgById orgId with
  | none => exact Or.inl ⟨rfl, Or.inl rfl⟩
  | some org =>
      have hid := (Db.orgById_eq_some.mp hfound).2
      rw [Fallible.follow_ok]
      dsimp only
      unfold Fallible.Ends
      rw [Handler.exec_transaction, hid, deleteOrgDbOnly_eq]
      cases hcommit : Db.commit (w.db.toTables.deleteOrgBatch [orgId]) with
      | error e => exact Or.inl ⟨rfl, Or.inr ⟨e, rfl⟩⟩
      | ok db => exact Or.inr ⟨rfl, db, Db.commit_eq_ok.mp hcommit, rfl⟩

/-- **Every complete operation makes its step.** -/
theorem OrgOperation.step (operation : OrgOperation σ) (w : World σ) :
    OrgStep w.db operation (operation.after w).db := by
  cases operation with
  | teamCheckout rt checkout =>
      rcases checkout.ends_handle (w := w) rt with hmirrors | hfounded
      · exact .mirrored hmirrors
      · obtain ⟨user, slug, created, hfounded, hmirrors⟩ := hfounded
        exact .founded hfounded hmirrors
  | mirror rt writer => exact .mirrored ((writer.disciplined rt).mirrors w)
  | member orgId request =>
      rcases request.ends (w := w) orgId with hsame | ⟨db', hstep, hw'⟩
      · rw [after, hsame]
        exact .refused
      · rw [after, hw']
        exact .member hstep
  | invitation request =>
      rcases request.ends (w := w) with hsame | ⟨db', hstep, hw'⟩
      · rw [after, hsame]
        exact .refused
      · rw [after, hw']
        exact .invitation hstep
  | deleteOrg rt userId orgId =>
      rcases Session.ends_deleteOrgView (w := w) rt userId orgId with ⟨_, hsame⟩ | ⟨howns, hdeleted⟩
      · rw [after, hsame]
        exact .refused
      · exact .deleted howns hdeleted.deleted
  | subscriptionEnded orgId =>
      rcases ends_deleteOrgOnSubscriptionCancelTask (w := w) orgId with
        ⟨hsame, _⟩ | ⟨_, db, hdb, hw'⟩
      · rw [after, hsame]
        exact .refused
      · rw [after, hw']
        exact .ended hdb
  | deleteAccount rt userId =>
      rcases (Session.calls_deleteAccount (w := w) rt userId).2 with ⟨_, hsame, _⟩ | herased
      · rw [after, hsame]
        exact .refused
      · obtain ⟨n, hended, hdb, _⟩ := herased.stage
        exact .erased n hended hdb

end Saasmint
