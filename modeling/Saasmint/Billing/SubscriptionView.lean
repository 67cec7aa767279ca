import Saasmint.Billing.ActiveSubscriptions
import Saasmint.Billing.Contexts
import Saasmint.Billing.StripeRequests
import Saasmint.Orgs.Replay

/-!
# The subscription that is shown after a change

`PATCH /subscriptions/me/` looks for a subscription twice: for the one to change, by the
org of the request, and for the one to answer with, by the user's first membership.

* `Revised` is what the change does to the rows: it rewrites the one that was found.
* `shown_eq_iff` compares the two queries on one database.
* `patch_answers_iff` puts them together: the answer is the row that was changed exactly
  if the second query had found it before, and the change has left it active.
-/

namespace Saasmint

open Atomic Relational Handler

variable {σ : Type}

/-! ## The view -/

/-- What `UpdateSubscriptionSerializer` lets through. -/
inductive SubscriptionPatch
  | toggle (cancelAtPeriodEnd : Bool)
  | change (change : SubscriptionChange)

namespace SubscriptionPatch

def planPriceId : SubscriptionPatch → Option UUID
  | toggle _ => none
  | change c => c.planPriceId

def seatLimit : SubscriptionPatch → Option Int
  | toggle _ => none
  | change c => c.seatLimit

end SubscriptionPatch

structure PatchRequest where
  user : User
  context : Option String
  currency : Option String
  patch : SubscriptionPatch

/-- `sub.stripe_customer.org_id`, if there is a customer. -/
def Db.customerOrg (db : Db) (s : Subscription) : Option UUID :=
  (s.stripeCustomerId.bind db.customerById).bind StripeCustomer.orgId

/-- The first of the user's active subscriptions that is, or is not, a team's. -/
def Db.shownSubscription (db : Db) (userId : UUID) (isTeam : Bool) : Option Subscription :=
  (db.activeSubscriptionsForUser userId).find? fun s => (db.customerOrg s).isSome == isTeam

namespace Session

/-- `_refetch_subscription_after_mutation`. -/
def refetchSubscriptionAfterMutation (userId : UUID) (isTeam : Bool) : Session σ Subscription := do
  let some sub ← select fun db => db.shownSubscription userId isTeam
    | throw (.notFound "No active subscription found.")
  return sub

/-- The change itself. -/
def applyPatch (rt : Runtime σ) (customer : StripeCustomer) (sub : Subscription)
    (stripeSubId : String) (planPrice : Option (LoadedPrice × Plan)) (orgId : Option UUID) :
    SubscriptionPatch → Session σ Unit
  | .toggle cancelAtPeriodEnd =>
      ofHandler [] (applyCancelToggle rt customer.id cancelAtPeriodEnd)
  | .change change =>
      match planPrice, change.seatLimit with
      | some (price, _), _ => applyPlanChange rt sub stripeSubId price change orgId
      | none, some seatLimit => applySeatOnly rt sub seatLimit orgId
      | none, none => return

/-- `SubscriptionView.patch`, without the mails about a cancellation. -/
def patchSubscription (rt : Runtime σ) (currencies : Currencies) (request : PatchRequest) :
    Session σ Subscription := do
  let orgId ← resolveMutationContext request.user.id request.context
  let planPrice ← requestedPrice request.patch.planPriceId
  lift (validateQuantityForPlan planPrice request.patch.seatLimit)
  let (customer, sub, stripeSubId) ← getCustomerAndPaidSubscription request.user.id orgId
  applyPatch rt customer sub stripeSubId planPrice orgId request.patch
  let _ ← lift (resolveBillingCurrency currencies request.currency request.user)
  refetchSubscriptionAfterMutation request.user.id orgId.isSome

end Session

/-! ## When the answer is the changed row -/

/-- What a request is about: an org or the user, the customer, and the customer's newest
active subscription. -/
structure PatchRequest.Targets (request : PatchRequest) (w : World σ) (orgId : Option UUID)
    (customer : StripeCustomer) (sub : Subscription) (stripeId : String) : Prop where
  context : Fallible.exec (Session.resolveMutationContext request.user.id request.context) w =
    (.ok orgId, w)
  subscription : Fallible.exec (Session.getCustomerAndPaidSubscription request.user.id orgId) w =
    (.ok (customer, sub, stripeId), w)

/-- The newest of the user's personal subscriptions is the newest of the customer's. -/
def NewestPersonalOf (db : Db) (userId : UUID) (customer : StripeCustomer) : Prop :=
  ∀ s, Db.latest? (db.personalSubscriptions userId) = some s → db.latestActive customer.id = some s

/-- For a team, the org of the request is that of the first membership, or there is no
subscription of the latter to be shown instead. -/
def ShownFor (db : Db) (userId : UUID) (customer : StripeCustomer) : Option UUID → Prop
  | none => NewestPersonalOf db userId customer
  | some orgId => ∀ first, db.firstMembership userId = some first → first.orgId = orgId ∨
      (db.activeTeamSubs first.orgId = [] ∧ NewestPersonalOf db userId customer)

/-- The status Stripe answers a toggle with, where it is a known one, is an active one. -/
def StaysActive (rt : Runtime σ) (sub : Subscription) (stripeId : String) (w : World σ) :
    SubscriptionPatch → Prop
  | .toggle cancelAtPeriodEnd => ∀ answer row,
      toggleAnswer rt sub stripeId w cancelAtPeriodEnd = .ok answer →
      mirrorCancelState sub answer = .ok row → row.status.isActive = true
  | .change _ => True

/-! ## The subscriptions that are shown -/

section Shown

variable {db : Db} {userId orgId : UUID} {s sub : Subscription}
  {customer : StripeCustomer} {isTeam : Bool}

theorem mem_activeSubscriptionsForUser (h : s ∈ db.activeSubscriptionsForUser userId) :
    db.teamSubscription userId = some s ∨ Db.latest? (db.personalSubscriptions userId) = some s := by
  unfold Db.activeSubscriptionsForUser at h
  rw [List.mem_append, Option.mem_toList, Option.mem_toList] at h
  exact h.imp id fun h => (Option.filter_eq_some_iff.mp h).1

theorem mem_of_teamSubscription (h : db.teamSubscription userId = some s) :
    ∃ first, db.firstMembership userId = some first ∧ s ∈ db.activeTeamSubs first.orgId := by
  obtain ⟨first, hfirst, hlatest⟩ := Option.bind_eq_some_iff.mp h
  exact ⟨first, hfirst, Db.mem_of_latest? hlatest⟩

/-- What is shown is active. -/
theorem active_of_mem (h : s ∈ db.activeSubscriptionsForUser userId) :
    s ∈ db.subscriptions.rows ∧ s.status.isActive = true := by
  obtain hteam | hpersonal := mem_activeSubscriptionsForUser h
  · obtain ⟨first, -, hs⟩ := mem_of_teamSubscription hteam
    obtain ⟨hmem, hselected⟩ := List.mem_filter.mp hs
    exact ⟨hmem, (Bool.and_eq_true_iff.mp hselected).1⟩
  · obtain ⟨hmem, hselected⟩ := List.mem_filter.mp (Db.mem_of_latest? hpersonal)
    exact ⟨hmem, (Bool.and_eq_true_iff.mp hselected).1⟩

theorem mem_of_shown (h : db.shownSubscription userId isTeam = some s) :
    s ∈ db.activeSubscriptionsForUser userId ∧ (db.customerOrg s).isSome = isTeam := by
  have hfound := List.find?_some h
  exact ⟨List.mem_of_find?_eq_some h, beq_iff_eq.mp hfound⟩

theorem customerOrg_of_team (h : s ∈ db.activeTeamSubs orgId) : db.customerOrg s = some orgId := by
  have hselected := (List.mem_filter.mp h).2
  rw [Bool.and_eq_true, List.any_eq_true] at hselected
  obtain ⟨-, c, hc, hcustomer⟩ := hselected
  rw [Bool.and_eq_true, beq_iff_eq, beq_iff_eq] at hcustomer
  rw [Db.customerOrg, hcustomer.1, Option.bind_some, Db.customerById_eq_some.mpr ⟨hc, rfl⟩,
    Option.bind_some, hcustomer.2]

/-- The team's subscription is shown before all others. -/
theorem shown_of_team (h : db.teamSubscription userId = some s) :
    db.shownSubscription userId true = some s := by
  obtain ⟨first, -, hs⟩ := mem_of_teamSubscription h
  unfold Db.shownSubscription Db.activeSubscriptionsForUser
  rw [h]
  dsimp only
  rw [Option.toList_some, List.singleton_append]
  refine List.find?_cons_of_pos ?_
  rw [customerOrg_of_team hs]
  rfl

/-- A personal subscription is shown where a team's cannot be. -/
theorem personal_of_shown (h : db.shownSubscription userId isTeam = some s)
    (hteam : isTeam = true → db.teamSubscription userId = none) :
    Db.latest? (db.personalSubscriptions userId) = some s := by
  obtain ⟨hmem, horg⟩ := mem_of_shown h
  refine (mem_activeSubscriptionsForUser hmem).resolve_left fun hfound => ?_
  obtain ⟨first, -, hs⟩ := mem_of_teamSubscription hfound
  rw [customerOrg_of_team hs] at horg
  cases hfound.symm.trans (hteam horg.symm)

theorem eq_iff_newestPersonalOf (hlatest : Db.latest? (db.personalSubscriptions userId) = some s)
    (hsub : db.latestActive customer.id = some sub) :
    s = sub ↔ NewestPersonalOf db userId customer := by
  constructor
  · rintro rfl t ht
    obtain rfl := Option.some.inj (hlatest.symm.trans ht)
    exact hsub
  · exact fun h => Option.some.inj ((h s hlatest).symm.trans hsub)

/-- What would be shown is the subscription of the request exactly under `ShownFor`. -/
theorem shown_eq_iff {scope : Option UUID} (hcustomer : db.billingCustomer userId scope = some customer)
    (hsub : db.latestActive customer.id = some sub)
    (hfirst : ∀ orgId, scope = some orgId → ∃ first, db.firstMembership userId = some first)
    (hshown : db.shownSubscription userId scope.isSome = some s) :
    s = sub ↔ ShownFor db userId customer scope := by
  cases scope with
  | none => exact eq_iff_newestPersonalOf (personal_of_shown hshown nofun) hsub
  | some orgId =>
      obtain ⟨first, hfirst⟩ := hfirst orgId rfl
      obtain ⟨hmem, horg⟩ := Table.mem_of_find? hcustomer
      have hteam := Db.activeTeamSubs_eq hmem (beq_iff_eq.mp horg)
      have hshows : ∀ {t}, Db.latest? (db.activeTeamSubs first.orgId) = some t → s = t := by
        intro t ht
        have hfound : db.teamSubscription userId = some t := by
          rw [Db.teamSubscription, hfirst, Option.bind_some, ht]
        exact Option.some.inj (hshown.symm.trans (shown_of_team hfound))
      have hiff : ShownFor db userId customer (some orgId) ↔ first.orgId = orgId ∨
          (db.activeTeamSubs first.orgId = [] ∧ NewestPersonalOf db userId customer) := by
        constructor
        · exact fun h => h first hfirst
        · rintro h other hother
          obtain rfl := Option.some.inj (hfirst.symm.trans hother)
          exact h
      rw [hiff]
      by_cases hsame : first.orgId = orgId
      · rw [hsame, hteam] at hshows
        exact iff_of_true (hshows hsub) (.inl hsame)
      · cases hlatest : Db.latest? (db.activeTeamSubs first.orgId) with
        | none =>
            have hempty := Db.latest?_eq_none.mp hlatest
            have hnone : db.teamSubscription userId = none := by
              rw [Db.teamSubscription, hfirst, Option.bind_some, hlatest]
            rw [eq_iff_newestPersonalOf (personal_of_shown hshown fun _ => hnone) hsub]
            simp [hsame, hempty]
        | some t =>
            obtain rfl := hshows hlatest
            have ht := Db.mem_of_latest? hlatest
            refine iff_of_false ?_ ?_
            · rintro rfl
              have hother := Db.mem_of_latestActive hsub
              rw [← hteam] at hother
              have horgs := (customerOrg_of_team ht).symm.trans (customerOrg_of_team hother)
              exact hsame (Option.some.inj horgs)
            · rintro (h | ⟨hempty, -⟩)
              · exact hsame h
              · rw [hempty] at ht
                cases ht

end Shown

/-! ## A row that is rewritten -/

/-- The rows after a save of `row`. -/
def revise (row r : Subscription) : Subscription :=
  if r.id = row.id then { row with createdAt := r.createdAt } else r

/-- The stored row `sub` has been rewritten to `row`, under the same keys. -/
structure Revised (db db' : Db) (sub row : Subscription) : Prop where
  stored : sub ∈ db.subscriptions.rows
  id : row.id = sub.id
  stripeId : row.stripeId = sub.stripeId
  stripeCustomerId : row.stripeCustomerId = sub.stripeCustomerId
  userId : row.userId = sub.userId
  rows : db'.subscriptions.rows = db.subscriptions.rows.map (revise row)
  frame : db'.toTables = { db.toTables with subscriptions := db'.subscriptions }

namespace Revised

variable {db db' : Db} {sub row r : Subscription} {userId : UUID}

theorem refl (hsub : sub ∈ db.subscriptions.rows) : Revised db db sub sub := by
  have hsame : ∀ r ∈ db.subscriptions.rows, revise sub r = r := by
    intro r hr
    unfold revise
    split
    next hid => rw [db.subscriptions.eq_of_clash hr hsub (Or.inl hid)]
    next => rfl
  exact ⟨hsub, rfl, rfl, rfl, rfl, ((List.map_congr_left hsame).trans (List.map_id _)).symm, rfl⟩

theorem of_save {now : Datetime} (hsub : sub ∈ db.subscriptions.rows) (hid : row.id = sub.id)
    (hstripeId : row.stripeId = sub.stripeId)
    (hcustomer : row.stripeCustomerId = sub.stripeCustomerId) (huser : row.userId = sub.userId)
    (hsave : db.saveSubscription now row = .ok db') : Revised db db' sub row :=
  ⟨hsub, hid, hstripeId, hcustomer, huser, Db.rows_saveSubscription_of_mem hsave hsub hid.symm,
    Db.saveSubscription_frame hsave⟩

theorem latest?_revise (rows : List Subscription) :
    Db.latest? (rows.map (revise row)) = (Db.latest? rows).map (revise row) := by
  refine Db.latest?_map (fun s => ?_) rows
  unfold revise
  split <;> rfl

variable (h : Revised db db' sub row)

include h

theorem customers : db'.customers = db.customers := by rw [h.frame]

theorem members : db'.members = db.members := by rw [h.frame]

/-- Every row keeps its keys and its owners. -/
theorem revise_keys (hr : r ∈ db.subscriptions.rows) : (revise row r).id = r.id ∧
    (revise row r).stripeId = r.stripeId ∧ (revise row r).stripeCustomerId = r.stripeCustomerId ∧
    (revise row r).userId = r.userId := by
  unfold revise
  split
  next hid =>
    obtain rfl : r = sub := db.subscriptions.eq_of_clash hr h.stored (Or.inl (hid.trans h.id))
    exact ⟨h.id, h.stripeId, h.stripeCustomerId, h.userId⟩
  next => exact ⟨rfl, rfl, rfl, rfl⟩

theorem filter_eq {p p' : Subscription → Bool}
    (hp : ∀ r ∈ db.subscriptions.rows, p' (revise row r) = p r) :
    db'.subscriptions.filter p' = (db.subscriptions.filter p).map (revise row) := by
  unfold Table.filter
  rw [h.rows, List.filter_map]
  exact congrArg (List.map (revise row)) (List.filter_congr hp)

theorem customerOrg_revise (hr : r ∈ db.subscriptions.rows) :
    db'.customerOrg (revise row r) = db.customerOrg r := by
  unfold Db.customerOrg Db.customerById
  rw [h.customers, (h.revise_keys hr).2.2.1]

section Active

variable (hactive : row.status.isActive = sub.status.isActive)

include hactive

theorem isActive_revise (hr : r ∈ db.subscriptions.rows) :
    (revise row r).status.isActive = r.status.isActive := by
  unfold revise
  split
  next hid =>
    obtain rfl : r = sub := db.subscriptions.eq_of_clash hr h.stored (Or.inl (hid.trans h.id))
    exact hactive
  next => rfl

theorem teamSubscription_eq : db'.teamSubscription userId =
    (db.teamSubscription userId).map (revise row) := by
  unfold Db.teamSubscription Db.firstMembership
  rw [h.members, Option.map_bind]
  congr 1
  funext membership
  rw [Function.comp_apply, ← latest?_revise, Db.activeTeamSubs, Db.activeTeamSubs, h.customers]
  congr 1
  refine h.filter_eq fun r hr => ?_
  obtain ⟨-, -, hcustomer, -⟩ := h.revise_keys hr
  rw [h.isActive_revise hactive hr, hcustomer]

theorem latest_personal_eq : Db.latest? (db'.personalSubscriptions userId) =
    (Db.latest? (db.personalSubscriptions userId)).map (revise row) := by
  rw [← latest?_revise, Db.personalSubscriptions, Db.personalSubscriptions]
  congr 1
  refine h.filter_eq fun r hr => ?_
  obtain ⟨-, -, hcustomer, huser⟩ := h.revise_keys hr
  unfold Db.billsUser
  rw [h.isActive_revise hactive hr, hcustomer, huser, h.customers]

theorem activeSubscriptionsForUser_eq : db'.activeSubscriptionsForUser userId =
    (db.activeSubscriptionsForUser userId).map (revise row) := by
  show (db'.teamSubscription userId).toList ++ ((Db.latest? (db'.personalSubscriptions userId)).filter _).toList =
    ((db.teamSubscription userId).toList ++ ((Db.latest? (db.personalSubscriptions userId)).filter _).toList).map _
  rw [h.teamSubscription_eq hactive, h.latest_personal_eq hactive]
  cases hpersonal : Db.latest? (db.personalSubscriptions userId) with
  | none => cases db.teamSubscription userId <;> rfl
  | some s =>
      have hs := (List.mem_filter.mp (Db.mem_of_latest? hpersonal)).1
      cases hteam : db.teamSubscription userId with
      | none => rfl
      | some t =>
          obtain ⟨first, -, ht⟩ := mem_of_teamSubscription hteam
          have ht := (List.mem_filter.mp ht).1
          simp only [Option.map_some, Option.filter_some, Option.toList_some, List.all_cons,
            List.all_nil, Bool.and_true, (h.revise_keys hs).1, (h.revise_keys ht).1]
          split <;> rfl

/-- What is shown after the change is what was shown before it, rewritten. -/
theorem shownSubscription_eq {isTeam : Bool} : db'.shownSubscription userId isTeam =
    (db.shownSubscription userId isTeam).map (revise row) := by
  unfold Db.shownSubscription
  rw [h.activeSubscriptionsForUser_eq hactive, List.find?_map]
  congr 1
  rw [← List.head?_filter, ← List.head?_filter]
  refine congrArg List.head? (List.filter_congr fun s hs => ?_)
  rw [Function.comp_apply, h.customerOrg_revise (active_of_mem hs).1]

end Active

/-- A row that is no longer active is not shown. -/
theorem ne_of_inactive (hinactive : row.status.isActive ≠ true) {isTeam : Bool} {s : Subscription}
    {stripeId : String} (hid : sub.stripeId = some stripeId)
    (hshown : db'.shownSubscription userId isTeam = some s) : s.stripeId ≠ some stripeId := by
  obtain ⟨hmem, hactive⟩ := active_of_mem (mem_of_shown hshown).1
  rw [h.rows] at hmem
  obtain ⟨r, hr, rfl⟩ := List.mem_map.mp hmem
  rw [(h.revise_keys hr).2.1]
  intro hsame
  have hclash : sameValue r.stripeId sub.stripeId := ⟨by rw [hsame]; rfl, hsame.trans hid.symm⟩
  obtain rfl : r = sub := db.subscriptions.eq_of_clash hr h.stored (Or.inr hclash)
  rw [revise, if_pos h.id.symm] at hactive
  exact hinactive hactive

end Revised

/-! ## The change -/

namespace Session

section Patch

variable {rt : Runtime σ} {w w' : World σ} {customer : StripeCustomer} {sub : Subscription}
  {stripeId : String} {planPrice : Option (LoadedPrice × Plan)} {orgId : Option UUID}

/-- The change names only the subscription that was looked up. -/
theorem about_applyPatch (hactive : w.db.latestActive customer.id = some sub)
    (hid : sub.stripeId = some stripeId) (patch : SubscriptionPatch) :
    (applyPatch rt customer sub stripeId planPrice orgId patch).About stripeId w := by
  cases patch with
  | toggle cancelAtPeriodEnd =>
      exact about_ofHandler (concerns_applyCancelToggle rt hactive hid cancelAtPeriodEnd)
  | change change =>
      dsimp only [applyPatch]
      split
      next price _ _ =>
        unfold applyPlanChange
        refine (Looks.select _).about_bind fun found _ => ?_
        refine (Looks.lift _).about_bind fun (newPriceId, newPriceAmount) _ => ?_
        have hchange : ∀ basis, (ofHandler basis (changePlan rt stripeId newPriceId (some newPriceAmount)
            change.prorate change.seatLimit)).About stripeId w :=
          fun basis => about_ofHandler ((Asks.changePlan stripeId rt _ _ _ _).concerns w)
        dsimp only
        split
        · exact (Looks.checkMemberCount _ _).about_bind fun basis _ => hchange basis
        · exact hchange []
      next seatLimit _ =>
        unfold applySeatOnly
        refine (Looks.select _).about_bind fun plan _ => ?_
        split
        · refine (Looks.lift _).about_bind fun _ _ => ?_
          refine (Looks.checkMemberCount _ _).about_bind fun basis _ => ?_
          exact about_ofHandler (concerns_updateSeatCount rt hid seatLimit w)
        · exact (Looks.throw _).silent.about w
      next => exact (Looks.pure _).silent.about w

/-- A change that succeeds leaves the row as it was, but for the seats; a toggle gives it the
status Stripe has answered. -/
theorem exec_applyPatch_eq_ok {patch : SubscriptionPatch}
    (hactive : w.db.latestActive customer.id = some sub) (hid : sub.stripeId = some stripeId)
    (h : Fallible.exec (applyPatch rt customer sub stripeId planPrice orgId patch) w = (.ok (), w')) :
    ∃ row, Revised w.db w'.db sub row ∧
      (row.status.isActive = true ↔ StaysActive rt sub stripeId w patch) := by
  have hmem := Db.mem_activeForCustomer.mp (Db.mem_of_latestActive hactive)
  cases patch with
  | toggle cancelAtPeriodEnd =>
      unfold applyPatch at h
      rw [exec_ofHandler] at h
      obtain ⟨answer, row, hanswer, hrow, hsave⟩ := exec_applyCancelToggle_eq_ok hactive hid h
      have hkeeps := mirrorCancelState_keeps hrow
      have hrevised : Revised w.db w'.db sub row := by
        refine Revised.of_save hmem.1 ?_ ?_ ?_ ?_ hsave <;> rw [hkeeps]
      refine ⟨row, hrevised, fun hstatus answer' row' hanswer' hrow' => ?_, fun hstays => ?_⟩
      · obtain rfl := Except.ok.inj (hanswer.symm.trans hanswer')
        obtain rfl := Except.ok.inj (hrow.symm.trans hrow')
        exact hstatus
      · exact hstays answer row hanswer hrow
  | change change =>
      have hsame : ∀ {db' : Db}, db' = w.db → ∃ row, Revised w.db db' sub row ∧
          (row.status.isActive = true ↔ StaysActive rt sub stripeId w (.change change)) := by
        rintro db' rfl
        exact ⟨sub, Revised.refl hmem.1, iff_of_true hmem.2.2 trivial⟩
      dsimp only [applyPatch] at h
      split at h
      next price _ _ =>
        unfold applyPlanChange at h
        obtain ⟨found, -, h⟩ := (Looks.select _).exec_bind_eq_ok h
        obtain ⟨⟨newPriceId, newPriceAmount⟩, -, h⟩ := (Looks.lift _).exec_bind_eq_ok h
        have hchange : ∀ {basis}, Fallible.exec (ofHandler basis (changePlan rt stripeId newPriceId
            (some newPriceAmount) change.prorate change.seatLimit)) w = (.ok (), w') →
            w'.db = w.db := by
          intro basis hexec
          rw [exec_ofHandler] at hexec
          have hkeeps := (Asks.changePlan stripeId rt newPriceId (some newPriceAmount) change.prorate
            change.seatLimit).keeps w
          rw [hexec] at hkeeps
          exact hkeeps
        dsimp only at h
        split at h
        · obtain ⟨basis, -, h⟩ := (Looks.checkMemberCount _ _).exec_bind_eq_ok h
          exact hsame (hchange h)
        · exact hsame (hchange h)
      next seatLimit _ =>
        unfold applySeatOnly at h
        obtain ⟨plan, -, h⟩ := (Looks.select _).exec_bind_eq_ok h
        split at h
        · obtain ⟨-, -, h⟩ := (Looks.lift _).exec_bind_eq_ok h
          obtain ⟨basis, -, h⟩ := (Looks.checkMemberCount _ _).exec_bind_eq_ok h
          rw [exec_ofHandler] at h
          obtain hkept | hsave := exec_updateSeatCount_eq_ok h
          · exact hsame hkept
          · exact ⟨{ sub with seatLimit := seatLimit }, Revised.of_save hmem.1 rfl rfl rfl rfl hsave,
              iff_of_true hmem.2.2 trivial⟩
        · cases h
      next =>
        cases h
        exact hsame rfl

theorem Looks.refetchSubscriptionAfterMutation (userId : UUID) (isTeam : Bool) :
    (refetchSubscriptionAfterMutation userId isTeam : Session σ _).Looks := by
  refine (Looks.select _).bind fun found => ?_
  split
  · exact Looks.pure _
  · exact Looks.throw _

theorem exec_refetch_eq_ok {userId : UUID} {isTeam : Bool} {shown : Subscription}
    (h : Fallible.exec (refetchSubscriptionAfterMutation userId isTeam) w = (.ok shown, w')) :
    w.db.shownSubscription userId isTeam = some shown := by
  unfold refetchSubscriptionAfterMutation at h
  obtain ⟨found, hfound, h⟩ := (Looks.select _).exec_bind_eq_ok h
  cases hfound
  dsimp only at h
  cases hshown : w.db.shownSubscription userId isTeam with
  | none =>
      rw [hshown] at h
      cases h
  | some s =>
      rw [hshown] at h
      cases h
      rfl

end Patch

end Session

/-- Whoever acts for a team has a membership. -/
theorem MutatesFor.firstMembership {w : World σ} {userId orgId : UUID} {context : Option String}
    (h : MutatesFor w userId context orgId) : ∃ first, w.db.firstMembership userId = some first := by
  obtain hnone | hteam := h.context
  · obtain ⟨first, hfirst, -⟩ := mutatesFor_none.mp hnone
    exact ⟨first, hfirst⟩
  · obtain ⟨m, hm, -⟩ := mutatesFor_team.mp hteam
    obtain ⟨hmem, huser, -⟩ := mem_of_billingMembership hm
    exact exists_firstMembership hmem huser

/-- **The answer to a change.**  A request that succeeds is about one subscription, names no
other to Stripe, and answers with its row exactly if that is what was shown before, and the
change has left it active. -/
theorem patch_answers_iff {rt : Runtime σ} {currencies : Currencies} {request : PatchRequest}
    {w w' : World σ} {shown : Subscription}
    (h : Fallible.exec (Session.patchSubscription rt currencies request) w = (.ok shown, w')) :
    ∃ orgId customer sub stripeId, request.Targets w orgId customer sub stripeId ∧
      (∀ entry ∈ stripeCalls (Fallible.trace (Session.patchSubscription rt currencies request) w),
        entry.1.Concerns stripeId) ∧
      (shown.stripeId = some stripeId ↔ ShownFor w.db request.user.id customer orgId ∧
        StaysActive rt sub stripeId w request.patch) := by
  have hcontext := Session.Looks.resolveMutationContext (σ := σ) request.user.id request.context
  have hprice := Session.Looks.requestedPrice (σ := σ) request.patch.planPriceId
  have hlookup := Session.Looks.getCustomerAndPaidSubscription (σ := σ) request.user.id
  have hrun := h
  unfold Session.patchSubscription at h
  obtain ⟨orgId, hresolved, h⟩ := hcontext.exec_bind_eq_ok h
  obtain ⟨planPrice, hplanPrice, h⟩ := hprice.exec_bind_eq_ok h
  obtain ⟨-, hvalid, h⟩ := (Session.Looks.lift _).exec_bind_eq_ok h
  obtain ⟨⟨customer, sub, stripeId⟩, hfound, h⟩ := (hlookup orgId).exec_bind_eq_ok h
  obtain ⟨-, hcustomer, hactive, hid⟩ := getCustomerAndPaidSubscription_eq_ok hfound
  obtain ⟨_, t, hchange, h⟩ := Fallible.exec_bind_eq_ok.mp h
  obtain ⟨_, -, h⟩ := (Session.Looks.lift _).exec_bind_eq_ok h
  obtain ⟨row, hrevised, hstatus⟩ := Session.exec_applyPatch_eq_ok hactive hid hchange
  refine ⟨orgId, customer, sub, stripeId, ⟨hresolved, hfound⟩, ?_, ?_⟩
  · have habout : (Session.patchSubscription rt currencies request).About stripeId w := by
      unfold Session.patchSubscription
      refine hcontext.about_bind fun orgId' hresolved' => ?_
      obtain rfl : orgId = orgId' := by simpa using hresolved.symm.trans hresolved'
      refine hprice.about_bind fun planPrice' _ => ?_
      refine (Session.Looks.lift _).about_bind fun _ _ => ?_
      refine (hlookup orgId).about_bind fun target hfound' => ?_
      obtain rfl : (customer, sub, stripeId) = target := by simpa using hfound.symm.trans hfound'
      refine Session.about_bind (Session.about_applyPatch hactive hid _) fun _ r _ => ?_
      refine (Session.Looks.lift _).about_bind fun _ _ => ?_
      exact (Session.Looks.refetchSubscriptionAfterMutation _ _).silent.about r
    exact habout
  · have hshown : t.db.shownSubscription request.user.id orgId.isSome = some shown :=
      Session.exec_refetch_eq_ok h
    have hmember : ∀ org, orgId = some org →
        ∃ first, w.db.firstMembership request.user.id = some first := by
      rintro org rfl
      have hmutates : MutatesFor w request.user.id request.context org := by
        rw [MutatesFor, hresolved]
      exact hmutates.firstMembership
    rw [← hstatus]
    by_cases hrow : row.status.isActive = true
    · have hsubActive := (Db.mem_activeForCustomer.mp (Db.mem_of_latestActive hactive)).2.2
      rw [hrevised.shownSubscription_eq (hrow.trans hsubActive.symm)] at hshown
      obtain ⟨before, hbefore, rfl⟩ := Option.map_eq_some_iff.mp hshown
      have hmem := (active_of_mem (mem_of_shown hbefore).1).1
      rw [and_iff_left hrow, ← shown_eq_iff hcustomer hactive hmember hbefore,
        (hrevised.revise_keys hmem).2.1]
      constructor
      · intro hsame
        have hclash : sameValue before.stripeId sub.stripeId :=
          ⟨by rw [hsame]; rfl, hsame.trans hid.symm⟩
        exact w.db.subscriptions.eq_of_clash hmem hrevised.stored (Or.inr hclash)
      · rintro rfl
        exact hid
    · exact iff_of_false (hrevised.ne_of_inactive hrow hid hshown) fun hboth => hrow hboth.2

/-! ## Two teams -/

/-- Both of the buyer's orgs have an active subscription. -/
def twoTeamsWorld : World Unit where
  db := ⟨memberOfTwoTables ⟨[teamRow 40#128 "sub_1" 1,
    { teamRow 41#128 "sub_2" 2 with stripeCustomerId := some 32#128 }], by decide⟩, by decide +kernel⟩
  stripe := ()
  queue := []

/-- Stripe's answer to a cancellation at the end of the period. -/
def cancellingStripe (_ : StripeCall) : Py Json :=
  .ok (.obj [("cancel_at", .int 100), ("canceled_at", .int 1), ("status", .str "active")])

def cancelTeam : PatchRequest := ⟨buyer, some "team", none, .toggle true⟩

/-- The cancellation of Acme's subscription, with what it answers. -/
theorem exec_cancelTeam : ∃ shown w', Fallible.exec (Session.patchSubscription
    (sampleRuntime cancellingStripe 0 0) ⟨["usd"], ["usd"]⟩ cancelTeam) twoTeamsWorld =
      (.ok shown, w') ∧ shown.stripeId = some "sub_2" := by
  have hanswer : ((Fallible.exec (Session.patchSubscription (sampleRuntime cancellingStripe 0 0)
      ⟨["usd"], ["usd"]⟩ cancelTeam) twoTeamsWorld).1.map Subscription.stripeId) =
        .ok (some "sub_2") := by
    decide +kernel
  rcases hexec : Fallible.exec (Session.patchSubscription (sampleRuntime cancellingStripe 0 0)
      ⟨["usd"], ["usd"]⟩ cancelTeam) twoTeamsWorld with ⟨e | shown, w'⟩
  · rw [hexec] at hanswer
    cases hanswer
  · rw [hexec] at hanswer
    exact ⟨shown, w', rfl, Except.ok.inj hanswer⟩

theorem targets_cancelTeam : cancelTeam.Targets twoTeamsWorld (some 50#128)
    ⟨31#128, "cus_2", none, some 50#128, false, 0⟩ (teamRow 40#128 "sub_1" 1) "sub_1" := by
  constructor
  · rfl
  · rfl

theorem patch_answers_two_teams : ∃ shown w', Fallible.exec (Session.patchSubscription
    (sampleRuntime cancellingStripe 0 0) ⟨["usd"], ["usd"]⟩ cancelTeam) twoTeamsWorld =
      (.ok shown, w') ∧ ∃ orgId customer sub stripeId,
    cancelTeam.Targets twoTeamsWorld orgId customer sub stripeId ∧
      (∀ entry ∈ stripeCalls (Fallible.trace (Session.patchSubscription
        (sampleRuntime cancellingStripe 0 0) ⟨["usd"], ["usd"]⟩ cancelTeam) twoTeamsWorld),
          entry.1.Concerns stripeId) ∧
      (shown.stripeId = some stripeId ↔ ShownFor twoTeamsWorld.db buyer.id customer orgId ∧
        StaysActive (sampleRuntime cancellingStripe 0 0) sub stripeId twoTeamsWorld (.toggle true)) := by
  obtain ⟨shown, w', hexec, -⟩ := exec_cancelTeam
  exact ⟨shown, w', hexec, patch_answers_iff hexec⟩

/-- The buyer cancels Acme's subscription and is answered with Beta's. -/
theorem not_patch_answers : ¬ ∀ (rt : Runtime Unit) (currencies : Currencies)
    (request : PatchRequest) (w w' : World Unit) (shown : Subscription) (orgId : Option UUID)
    (customer : StripeCustomer) (sub : Subscription) (stripeId : String),
    Fallible.exec (Session.patchSubscription rt currencies request) w = (.ok shown, w') →
    request.Targets w orgId customer sub stripeId → shown.stripeId = some stripeId := by
  intro h
  obtain ⟨shown, w', hexec, hother⟩ := exec_cancelTeam
  have hsame := h _ _ _ _ _ _ _ _ _ _ hexec targets_cancelTeam
  rw [hother] at hsame
  revert hsame
  decide

end Saasmint
