import Saasmint.Billing.BillingRequests
import Saasmint.Mirror.Writers

/-!
# Whose subscription is changed

A request about billing names no subscription and no customer.  It looks for a membership of
the caller, for the customer of the caller or of that org, and for the customer's active
subscription, and then asks Stripe for changes; in between, anything may happen.

`MayCall` and `MaySave` say what the request may ask for and store, given what it has seen:
what concerns a customer in scope (`InScope`), an active subscription of one (`Controls`), or
a schedule that Stripe has reported for such a subscription (`Attached`).  The scope of a
change is the caller, and the orgs of memberships with billing authority; that of a purchase
is the caller, and the orgs the caller owns.

The portal is opened for a customer in scope, and who is told of a cancellation can bill for
the org, or is the caller.
-/

namespace Saasmint

open Atomic Relational

variable {σ : Type}

/-! ## What is in scope -/

/-- The statements of a request, and the worlds they have found. -/
abbrev Past (σ : Type) := History (Statement Label Lock (World σ)) (World σ)

/-- The request has made such a statement in this world. -/
def Past.Made (seen : Past σ) (label : Label) (w : World σ) : Prop :=
  ∃ statement, (statement, w) ∈ seen ∧ statement.label = label

section Scope

variable (seen : Label → World σ → Prop) (userId : UUID)

/-- A membership of the caller, which carries the authority. -/
def Holds (carries : OrgMember → Prop) (orgId : UUID) : Prop :=
  ∃ w m, seen .select w ∧ m ∈ w.db.members.rows ∧ m.userId = userId ∧ m.orgId = orgId ∧ carries m

def Bills (m : OrgMember) : Prop := m.isBilling = true

def Owns (m : OrgMember) : Prop := m.role = .owner

/-- The caller's own customer, or that of an org in which the caller has the authority. -/
structure InScope (carries : OrgMember → Prop) (customer : StripeCustomer) : Prop where
  stored : ∃ w, seen .select w ∧ customer ∈ w.db.customers.rows
  scope : customer.userId = some userId ∨
    ∃ orgId, customer.orgId = some orgId ∧ Holds seen userId carries orgId

/-- An active subscription of a customer in scope, with its id at Stripe. -/
structure Controls (sub : Subscription) (stripeId : String) : Prop where
  stored : ∃ w, seen .select w ∧ sub ∈ w.db.subscriptions.rows
  active : sub.status.isActive = true
  customer : ∃ customer, sub.stripeCustomerId = some customer.id ∧
    InScope seen userId Bills customer
  stripeId : sub.stripeId = some stripeId

variable (rt : Runtime σ)

/-- Stripe has given the request this answer. -/
def Told (call : StripeCall) (answer : Json) : Prop :=
  ∃ w, seen (.stripe call) w ∧ (rt.stripe.call call w.stripe).1 = .ok answer

/-- Stripe has told the request of the schedule, when asked about the subscription. -/
inductive Attached (stripeId : String) : String → Prop
  | managing {sub value : Json} (told : Told seen rt (.subscriptionRetrieve stripeId) sub)
      (schedule : sub.attr "schedule" = .ok value ∨ safeGet sub "schedule" = .ok value) :
      Attached stripeId value.toStr
  | retrieved {scheduleId : String} {schedule value : Json} (attached : Attached stripeId scheduleId)
      (told : Told seen rt (.scheduleRetrieve scheduleId) schedule)
      (id : schedule.attr "id" = .ok value) : Attached stripeId value.toStr
  | created {sub subId schedule value : Json}
      (told : Told seen rt (.subscriptionRetrieve stripeId) sub) (reported : sub.item "id" = .ok subId)
      (made : Told seen rt (.scheduleCreate subId.toStr) schedule)
      (id : schedule.item "id" = .ok value) : Attached stripeId value.toStr

/-- A new Stripe customer is for the caller, or for an org of theirs. -/
def Creates : CustomerScope → Prop
  | .user id | .teamCheckout id => id = userId
  | .org orgId => Holds seen userId Owns orgId

/-- The Stripe customer is one in scope, or one that the request has created. -/
def Reaches (carries : OrgMember → Prop) (stripeCustomerId : String) : Prop :=
  (∃ customer, InScope seen userId carries customer ∧ customer.stripeId = stripeCustomerId) ∨
    ∃ scope answer value, Creates seen userId scope ∧ Told seen rt (.customerCreate scope) answer ∧
      answer.attr "id" = .ok value ∧ value.toStr = stripeCustomerId

/-- What the request may ask of Stripe. -/
def MayCall : StripeCall → Prop
  | .subscriptionRetrieve id | .subscriptionModify id _ => ∃ sub, Controls seen userId sub id
  | .scheduleCreate id => ∃ sub stripeId answer value, Controls seen userId sub stripeId ∧
      Told seen rt (.subscriptionRetrieve stripeId) answer ∧ answer.item "id" = .ok value ∧
      id = value.toStr
  | .scheduleRetrieve id | .scheduleRelease id | .scheduleModify id _ =>
      ∃ sub stripeId, Controls seen userId sub stripeId ∧ Attached seen rt stripeId id
  | .priceRetrieve _ => True
  | .customerCreate scope => Creates seen userId scope
  | .checkoutSessionCreate params => params.clientReferenceId = uuidText userId ∧
      Reaches seen userId rt Owns params.customer ∧
      ∀ text, ("org_id", text) ∈ params.metadata.getD [] →
        ∃ orgId, text = uuidText orgId ∧ Holds seen userId Owns orgId
  | _ => False

/-- The row of the subscription as before, but for what is mirrored of a change. -/
def MirrorsChange (sub row : Subscription) : Prop :=
  row = { sub with
    status := row.status, seatLimit := row.seatLimit, cancelAt := row.cancelAt
    canceledAt := row.canceledAt, scheduledPlanId := row.scheduledPlanId
    scheduledChangeAt := row.scheduledChangeAt }

/-- The world after a write, which leaves it alone when it fails. -/
def World.stored (f : Db → Py Db) (w : World σ) : World σ :=
  (Handler.settle w ((fun db => ((), db)) <$> f w.db)).2

/-- What the request may store. -/
inductive MaySave : (World σ → World σ) → Prop
  | subscription {sub row : Subscription} {stripeId : String} (controls : Controls seen userId sub stripeId)
      (mirrors : MirrorsChange sub row) :
      MaySave (World.stored fun db => db.saveSubscription rt.now row)
  | ownCustomer {customer : StripeCustomer} (user : customer.userId = some userId)
      (noOrg : customer.orgId = none) : MaySave (World.stored fun db => db.saveCustomer customer)
  | orgCustomer {customer : StripeCustomer} {orgId : UUID} (noUser : customer.userId = none)
      (org : customer.orgId = some orgId) (holds : Holds seen userId Owns orgId) :
      MaySave (World.stored fun db => db.saveCustomer customer)

/-- The request may take this action. -/
def Within : Label → (World σ → World σ) → Prop
  | .select, effect => effect = id
  | .stripe call, effect =>
      effect = (fun w => { w with stripe := (rt.stripe.call call w.stripe).2 }) ∧
        MayCall seen userId rt call
  | .execute _, effect => MaySave seen userId rt effect
  | _, _ => False

/-- What comes of a request is in scope. -/
def AnswersWithin (user : User) : BillingAnswer → Prop
  | .portal stripeCustomerId => Reaches seen user.id rt Bills stripeCustomerId
  | .cancelled recipients => recipients = [user.email] ∨ ∃ orgId, Holds seen user.id Bills orgId ∧
      ∃ w, seen .select w ∧ recipients = w.db.billingEmails orgId
  | _ => True

end Scope

/-! ## What has been seen stays seen -/

section Later

variable {seen seen' : Label → World σ → Prop} {userId : UUID} {carries : OrgMember → Prop}
  {rt : Runtime σ}

theorem Holds.later {orgId : UUID} (hsub : ∀ label w, seen label w → seen' label w)
    (h : Holds seen userId carries orgId) : Holds seen' userId carries orgId := by
  obtain ⟨w, m, hseen, hm⟩ := h
  exact ⟨w, m, hsub _ _ hseen, hm⟩

theorem InScope.later {customer : StripeCustomer} (hsub : ∀ label w, seen label w → seen' label w)
    (h : InScope seen userId carries customer) : InScope seen' userId carries customer := by
  obtain ⟨w, hseen, hstored⟩ := h.stored
  refine ⟨⟨w, hsub _ _ hseen, hstored⟩, h.scope.imp id ?_⟩
  rintro ⟨orgId, horg, hholds⟩
  exact ⟨orgId, horg, hholds.later hsub⟩

theorem Controls.later {sub : Subscription} {stripeId : String}
    (hsub : ∀ label w, seen label w → seen' label w) (h : Controls seen userId sub stripeId) :
    Controls seen' userId sub stripeId := by
  obtain ⟨w, hseen, hstored⟩ := h.stored
  obtain ⟨customer, hcustomer, hscope⟩ := h.customer
  exact ⟨⟨w, hsub _ _ hseen, hstored⟩, h.active, ⟨customer, hcustomer, hscope.later hsub⟩, h.stripeId⟩

theorem Told.later {call : StripeCall} {answer : Json}
    (hsub : ∀ label w, seen label w → seen' label w) (h : Told seen rt call answer) :
    Told seen' rt call answer := by
  obtain ⟨w, hseen, hanswer⟩ := h
  exact ⟨w, hsub _ _ hseen, hanswer⟩

theorem Attached.later {stripeId scheduleId : String}
    (hsub : ∀ label w, seen label w → seen' label w) (h : Attached seen rt stripeId scheduleId) :
    Attached seen' rt stripeId scheduleId := by
  induction h with
  | managing told schedule => exact .managing (told.later hsub) schedule
  | retrieved _ told id ih => exact .retrieved ih (told.later hsub) id
  | created told reported made id => exact .created (told.later hsub) reported (made.later hsub) id

theorem Creates.later {scope : CustomerScope} (hsub : ∀ label w, seen label w → seen' label w)
    (h : Creates seen userId scope) : Creates seen' userId scope := by
  cases scope with
  | user id => exact h
  | teamCheckout id => exact h
  | org orgId => exact Holds.later hsub h

theorem Reaches.later {stripeCustomerId : String} (hsub : ∀ label w, seen label w → seen' label w)
    (h : Reaches seen userId rt carries stripeCustomerId) :
    Reaches seen' userId rt carries stripeCustomerId := by
  rcases h with ⟨customer, hscope, hid⟩ | ⟨scope, answer, value, hcreates, told, hvalue, hid⟩
  · exact Or.inl ⟨customer, hscope.later hsub, hid⟩
  · exact Or.inr ⟨scope, answer, value, hcreates.later hsub, told.later hsub, hvalue, hid⟩

theorem MayCall.later {call : StripeCall} (hsub : ∀ label w, seen label w → seen' label w)
    (h : MayCall seen userId rt call) : MayCall seen' userId rt call := by
  have hcontrols : ∀ {id}, (∃ sub, Controls seen userId sub id) → ∃ sub, Controls seen' userId sub id :=
    fun ⟨sub, hsub'⟩ => ⟨sub, hsub'.later hsub⟩
  have hattached : ∀ {id}, (∃ sub stripeId, Controls seen userId sub stripeId ∧
      Attached seen rt stripeId id) → ∃ sub stripeId, Controls seen' userId sub stripeId ∧
        Attached seen' rt stripeId id :=
    fun ⟨sub, stripeId, hcontrols, h⟩ => ⟨sub, stripeId, hcontrols.later hsub, h.later hsub⟩
  cases call with
  | subscriptionRetrieve id => exact hcontrols h
  | subscriptionModify id update => exact hcontrols h
  | scheduleCreate id =>
      obtain ⟨sub, stripeId, answer, value, hcontrols, told, hid⟩ := h
      exact ⟨sub, stripeId, answer, value, hcontrols.later hsub, told.later hsub, hid⟩
  | scheduleRetrieve id => exact hattached h
  | scheduleRelease id => exact hattached h
  | scheduleModify id phases => exact hattached h
  | customerCreate scope => exact Creates.later hsub h
  | checkoutSessionCreate params =>
      obtain ⟨hclient, hreaches, horg⟩ := h
      refine ⟨hclient, hreaches.later hsub, fun text htext => ?_⟩
      obtain ⟨orgId, hid, hholds⟩ := horg text htext
      exact ⟨orgId, hid, hholds.later hsub⟩
  | priceRetrieve id => exact trivial
  | subscriptionCancel id => exact h
  | priceList lookupKeys => exact h
  | priceModify id active => exact h
  | priceCreate params => exact h
  | productCreate params => exact h
  | productModify id params => exact h
  | customerDelete id => exact h

theorem MaySave.later {effect : World σ → World σ} (hsub : ∀ label w, seen label w → seen' label w)
    (h : MaySave seen userId rt effect) : MaySave seen' userId rt effect := by
  cases h with
  | subscription controls mirrors => exact .subscription (controls.later hsub) mirrors
  | ownCustomer user noOrg => exact .ownCustomer user noOrg
  | orgCustomer noUser org holds => exact .orgCustomer noUser org (holds.later hsub)

theorem Within.later {label : Label} {effect : World σ → World σ}
    (hsub : ∀ label w, seen label w → seen' label w) (h : Within seen userId rt label effect) :
    Within seen' userId rt label effect := by
  cases label with
  | select => exact h
  | stripe call => exact ⟨h.1, h.2.later hsub⟩
  | execute basis => exact MaySave.later hsub h
  | lock => exact h
  | commit basis => exact h
  | rollback => exact h
  | enqueue task => exact h

theorem AnswersWithin.later {user : User} {answer : BillingAnswer}
    (hsub : ∀ label w, seen label w → seen' label w) (h : AnswersWithin seen rt user answer) :
    AnswersWithin seen' rt user answer := by
  cases answer with
  | portal stripeCustomerId => exact Reaches.later hsub h
  | cancelled recipients =>
      refine Or.imp id ?_ h
      rintro ⟨orgId, hholds, w, hmade, hrecipients⟩
      exact ⟨orgId, hholds.later hsub, w, hsub _ _ hmade, hrecipients⟩
  | checkout url => trivial
  | shown sub => trivial
  | released => trivial

theorem Past.Made.later {past past' : Past σ} {label : Label} {w : World σ} (h : past.Made label w)
    (hlater : past <:+ past') : past'.Made label w := by
  obtain ⟨statement, hmem, hlabel⟩ := h
  exact ⟨statement, hlater.subset hmem, hlabel⟩

end Later

/-! ## The discipline -/

/-- Every statement is within what the request has seen. -/
def billingLedger (rt : Runtime σ) (userId : UUID) :
    Monitor (Past σ) (Statement Label Lock (World σ)) (World σ) :=
  chronicle fun seen statement effect => Within (Past.Made seen) userId rt statement.label effect

section Rules

variable {α β : Type} {rt : Runtime σ} {userId : UUID} {seen : Past σ}

/-- The program stays in scope, and ends with `P`. -/
abbrev Session.StaysIn (p : Session σ α) (rt : Runtime σ) (userId : UUID)
    (P : Past σ → α → Prop) (seen : Past σ) : Prop :=
  p.Heeds (billingLedger rt userId) P seen

variable {P : Past σ → α → Prop}

theorem Session.StaysIn.bind {p : Session σ α} {rest : α → Session σ β}
    {P' : Past σ → β → Prop} (hp : p.StaysIn rt userId P seen)
    (hrest : ∀ seen' a, seen <:+ seen' → P seen' a → (rest a).StaysIn rt userId P' seen') :
    (p >>= rest).StaysIn rt userId P' seen :=
  Fallible.heeds_bind_later hp hrest

theorem stays_pure {a : α} (h : P seen a) : (pure a : Session σ α).StaysIn rt userId P seen :=
  Fallible.heeds_pure.mpr h

theorem stays_throw (e : PyError) : (throw e : Session σ α).StaysIn rt userId P seen :=
  Fallible.heeds_throw e

theorem stays_lift {result : Py α} (h : ∀ a, result = .ok a → P seen a) :
    (Session.lift result : Session σ α).StaysIn rt userId P seen := h

theorem stays_select {f : Db → α}
    (h : ∀ seen' w, seen <:+ seen' → Past.Made seen' .select w → P seen' (f w.db)) :
    (Session.select f : Session σ α).StaysIn rt userId P seen :=
  Fallible.heeds_observe rfl fun w => h _ w (List.suffix_cons _ _) ⟨_, List.mem_cons_self, rfl⟩

theorem stays_callStripe {P : Past σ → Json → Prop} {call : StripeCall}
    (hcall : MayCall (Past.Made seen) userId rt call)
    (h : ∀ seen' answer, seen <:+ seen' → Told (Past.Made seen') rt call answer → P seen' answer) :
    (Session.callStripe rt call).StaysIn rt userId P seen := by
  refine Fallible.heeds_atomic ⟨rfl, hcall⟩ fun w answer hanswer => ?_
  exact h _ answer (List.suffix_cons _ _) ⟨w, ⟨_, List.mem_cons_self, rfl⟩, hanswer⟩

theorem stays_execute {P : Past σ → Unit → Prop} {basis : List Basis} {wants : Db → List Lock}
    {f : Db → Py Db} (hsave : MaySave (Past.Made seen) userId rt (World.stored f))
    (h : ∀ seen', seen <:+ seen' → P seen' ()) :
    (Session.execute basis wants fun db => (fun db => ((), db)) <$> f db).StaysIn rt userId
      P seen :=
  Fallible.heeds_atomic hsave fun _ _ _ => h _ (List.suffix_cons _ _)

end Rules

/-! ## Stripe requests -/

section Services

open Session

variable {rt : Runtime σ} {userId : UUID} {seen : Past σ} {basis : List Basis}
  {sub : Subscription} {stripeId : String}

theorem Controls.after {seen' : Past σ} (h : Controls (Past.Made seen) userId sub stripeId)
    (hlater : seen <:+ seen') : Controls (Past.Made seen') userId sub stripeId :=
  h.later fun _ _ hmade => hmade.later hlater

theorem InScope.after {seen' : Past σ} {carries : OrgMember → Prop} {customer : StripeCustomer}
    (h : InScope (Past.Made seen) userId carries customer) (hlater : seen <:+ seen') :
    InScope (Past.Made seen') userId carries customer :=
  h.later fun _ _ hmade => hmade.later hlater

theorem Told.after {seen' : Past σ} {call : StripeCall} {answer : Json}
    (h : Told (Past.Made seen) rt call answer) (hlater : seen <:+ seen') :
    Told (Past.Made seen') rt call answer :=
  h.later fun _ _ hmade => hmade.later hlater

theorem Attached.after {seen' : Past σ} {scheduleId : String}
    (h : Attached (Past.Made seen) rt stripeId scheduleId) (hlater : seen <:+ seen') :
    Attached (Past.Made seen') rt stripeId scheduleId :=
  h.later fun _ _ hmade => hmade.later hlater

theorem stays_getActiveForCustomer {customerId : UUID}
    {P : Past σ → Option Subscription → Prop}
    (h : ∀ seen' found, seen <:+ seen' → (∀ sub ∈ found, ∃ w : World σ,
      Past.Made seen' .select w ∧ sub ∈ w.db.activeForCustomer customerId) → P seen' found) :
    (ofHandler basis (Handler.getActiveForCustomer customerId)).StaysIn rt userId P seen := by
  unfold Handler.getActiveForCustomer
  rw [ofHandler_bind, ofHandler_readSubscription]
  refine Session.StaysIn.bind (stays_select (P := fun seen' rows => ∃ w : World σ,
    Past.Made seen' .select w ∧ w.db.activeForCustomer customerId = rows)
    fun seen' w _ hmade => ⟨w, hmade, rfl⟩) ?_
  rintro seen' rows hlater ⟨w, hmade, hrows⟩
  split
  next =>
      rw [ofHandler_pure]
      exact stays_pure (h _ none hlater fun sub hsub => absurd hsub (Option.not_mem_none sub))
  next active =>
      rw [ofHandler_pure]
      refine stays_pure (h _ (some active) hlater fun sub hsub => ⟨w, hmade, ?_⟩)
      rw [hrows, ← Option.some.inj hsub]
      exact List.mem_singleton_self _
  next =>
      rw [ofHandler_readSubscription]
      refine stays_select fun seen'' w' hlater' hmade' => ?_
      exact h _ _ (hlater.trans hlater') fun sub hsub => ⟨w', hmade', Db.mem_of_latestActive hsub⟩

theorem stays_save {P : Past σ → Unit → Prop} {row : Subscription}
    (hcontrols : Controls (Past.Made seen) userId sub stripeId) (hmirrors : MirrorsChange sub row)
    (h : ∀ seen', seen <:+ seen' → P seen' ()) :
    (ofHandler basis (Handler.saveSubscription rt.now row)).StaysIn rt userId P seen := by
  rw [ofHandler_saveSubscription]
  exact stays_execute (.subscription hcontrols hmirrors) h

/-- The row that mirrors a cancellation is the one that was read, but for the state. -/
theorem mirrorsChange_of_cancel {row : Subscription} {answer : Json}
    (h : mirrorCancelState sub answer = .ok row) : MirrorsChange sub row := by
  unfold mirrorCancelState at h
  obtain ⟨_, _, h⟩ := bind_eq_ok.mp h
  obtain ⟨_, _, h⟩ := bind_eq_ok.mp h
  obtain ⟨_, _, h⟩ := bind_eq_ok.mp h
  obtain ⟨_, _, h⟩ := bind_eq_ok.mp h
  obtain ⟨_, _, h⟩ := bind_eq_ok.mp h
  cases h
  rfl

theorem stays_mirrorCancelState {answer : Json}
    (hcontrols : Controls (Past.Made seen) userId sub stripeId) :
    (ofHandler basis (mirrorCancelStateFromStripe rt sub answer)).StaysIn rt userId
      (fun _ _ => True) seen := by
  unfold mirrorCancelStateFromStripe
  rw [ofHandler_bind]
  refine Session.StaysIn.bind (stays_lift (P := fun _ row => MirrorsChange sub row)
    fun row hrow => mirrorsChange_of_cancel hrow) fun seen' row hlater hmirrors => ?_
  exact stays_save (hcontrols.after hlater) hmirrors fun _ _ => trivial

/-- Stripe is asked about a subscription, and told what to make of it. -/
theorem stays_onSubscription {call : StripeCall} (hcontrols : Controls (Past.Made seen) userId sub stripeId)
    (hcall : call = .subscriptionRetrieve stripeId ∨
      ∃ update, call = .subscriptionModify stripeId update) :
    (Session.callStripe rt call).StaysIn rt userId
      (fun seen' answer => Told (Past.Made seen') rt call answer) seen := by
  refine stays_callStripe ?_ fun _ _ _ told => told
  rcases hcall with rfl | ⟨update, rfl⟩
  · exact ⟨sub, hcontrols⟩
  · exact ⟨sub, hcontrols⟩

theorem stays_onSchedule {call : StripeCall} {scheduleId : String}
    (hcontrols : Controls (Past.Made seen) userId sub stripeId)
    (hattached : Attached (Past.Made seen) rt stripeId scheduleId)
    (hcall : call = .scheduleRetrieve scheduleId ∨ call = .scheduleRelease scheduleId ∨
      ∃ phases, call = .scheduleModify scheduleId phases) :
    (Session.callStripe rt call).StaysIn rt userId
      (fun seen' answer => Told (Past.Made seen') rt call answer) seen := by
  refine stays_callStripe ?_ fun _ _ _ told => told
  rcases hcall with rfl | rfl | ⟨phases, rfl⟩
  · exact ⟨sub, stripeId, hcontrols, hattached⟩
  · exact ⟨sub, stripeId, hcontrols, hattached⟩
  · exact ⟨sub, stripeId, hcontrols, hattached⟩

/-- What Stripe's answer says. -/
theorem stays_read (result : Py Json) : (Session.lift result : Session σ Json).StaysIn rt userId
    (fun _ value => result = .ok value) seen :=
  stays_lift fun _ h => h

theorem stays_releasePendingSchedule (hcontrols : Controls (Past.Made seen) userId sub stripeId) :
    (ofHandler basis (releasePendingSchedule rt stripeId)).StaysIn rt userId
      (fun _ _ => True) seen := by
  unfold releasePendingSchedule
  simp only [ofHandler_bind, ofHandler_callStripe, ofHandler_lift]
  refine (stays_onSubscription hcontrols (Or.inl rfl)).bind fun seen₁ answer hlater₁ told => ?_
  refine (stays_read _).bind fun seen₂ scheduleId hlater₂ hschedule => ?_
  have hcontrols₂ := hcontrols.after (hlater₁.trans hlater₂)
  have hattached : Attached (Past.Made seen₂) rt stripeId scheduleId.toStr :=
    .managing (told.after hlater₂) (Or.inl hschedule)
  split
  · simp only [ofHandler_bind, ofHandler_callStripe, ofHandler_lift]
    refine (stays_onSchedule hcontrols₂ hattached (Or.inl rfl)).bind
      fun seen₃ schedule hlater₃ told => ?_
    refine (stays_read _).bind fun seen₄ status hlater₄ _ => ?_
    split
    · simp only [ofHandler_bind, ofHandler_callStripe, ofHandler_lift]
      refine (stays_read _).bind fun seen₅ id hlater₅ hid => ?_
      have hlater := hlater₄.trans hlater₅
      have hreported : Attached (Past.Made seen₅) rt stripeId id.toStr :=
        .retrieved (hattached.after (hlater₃.trans hlater)) (told.after hlater) hid
      exact (stays_onSchedule (hcontrols₂.after (hlater₃.trans hlater)) hreported
        (Or.inr (Or.inl rfl))).bind fun _ _ _ _ => stays_pure trivial
    · exact stays_pure trivial
  · exact stays_pure trivial

/-! ### Changing the plan -/

theorem stays_pinningSchedule {answer : Json} (hcontrols : Controls (Past.Made seen) userId sub stripeId)
    (told : Told (Past.Made seen) rt (.subscriptionRetrieve stripeId) answer) :
    (ofHandler basis (pinningSchedule rt answer)).StaysIn rt userId
      (fun seen' scheduleId => Attached (Past.Made seen') rt stripeId scheduleId) seen := by
  unfold pinningSchedule
  simp only [ofHandler_bind, ofHandler_lift]
  refine (stays_read _).bind fun seen₁ existing hlater₁ hexisting => ?_
  split
  · exact stays_pure (.managing (told.after hlater₁) (Or.inr hexisting))
  · simp only [ofHandler_bind, ofHandler_lift, ofHandler_callStripe]
    refine (stays_read _).bind fun seen₂ id hlater₂ hid => ?_
    have told₂ := told.after (hlater₁.trans hlater₂)
    have hcontrols₂ := hcontrols.after (hlater₁.trans hlater₂)
    have hcall : MayCall (Past.Made seen₂) userId rt (.scheduleCreate id.toStr) :=
      ⟨sub, stripeId, answer, id, hcontrols₂, told₂, hid, rfl⟩
    refine (stays_callStripe hcall fun _ _ _ made => made).bind fun seen₃ schedule hlater₃ made => ?_
    refine (stays_read _).bind fun seen₄ value hlater₄ hvalue => stays_pure ?_
    exact .created (told₂.after (hlater₃.trans hlater₄)) hid (made.after hlater₄) hvalue

theorem stays_scheduleDowngrade {answer : Json} {newStripePriceId : String} {quantity : Int}
    (hcontrols : Controls (Past.Made seen) userId sub stripeId)
    (told : Told (Past.Made seen) rt (.subscriptionRetrieve stripeId) answer) :
    (ofHandler basis (scheduleDowngradeAtPeriodEnd rt answer newStripePriceId quantity)).StaysIn rt
      userId (fun _ _ => True) seen := by
  unfold scheduleDowngradeAtPeriodEnd
  simp only [ofHandler_bind, ofHandler_lift, ofHandler_callStripe]
  refine (stays_lift (P := fun _ _ => True) fun _ _ => trivial).bind fun seen₁ _ hlater₁ _ => ?_
  refine (stays_lift (P := fun _ _ => True) fun _ _ => trivial).bind fun seen₂ _ hlater₂ _ => ?_
  refine Session.StaysIn.bind (P := fun _ _ => True)
    (stays_callStripe trivial fun _ _ _ _ => trivial) fun seen₃ _ hlater₃ _ => ?_
  refine (stays_lift (P := fun _ _ => True) fun _ _ => trivial).bind fun seen₄ _ hlater₄ _ => ?_
  have hlater := hlater₁.trans (hlater₂.trans (hlater₃.trans hlater₄))
  split
  · exact stays_throw _
  · simp only [ofHandler_bind, ofHandler_callStripe]
    refine (stays_pinningSchedule (hcontrols.after hlater) (told.after hlater)).bind
      fun seen₅ scheduleId hlater₅ hattached => ?_
    exact (stays_onSchedule (hcontrols.after (hlater.trans hlater₅)) hattached
      (Or.inr (Or.inr ⟨_, rfl⟩))).bind fun _ _ _ _ => stays_pure trivial

theorem stays_releasedItem {answer : Json} {itemId : String}
    (hcontrols : Controls (Past.Made seen) userId sub stripeId)
    (told : Told (Past.Made seen) rt (.subscriptionRetrieve stripeId) answer) :
    (ofHandler basis (releasedItem rt answer stripeId itemId)).StaysIn rt userId
      (fun _ _ => True) seen := by
  unfold releasedItem
  simp only [ofHandler_bind, ofHandler_lift]
  refine (stays_read _).bind fun seen₁ existing hlater₁ hexisting => ?_
  split
  · simp only [ofHandler_bind, ofHandler_lift, ofHandler_callStripe]
    have hattached : Attached (Past.Made seen₁) rt stripeId existing.toStr :=
      .managing (told.after hlater₁) (Or.inr hexisting)
    refine (stays_onSchedule (hcontrols.after hlater₁) hattached (Or.inr (Or.inl rfl))).bind
      fun seen₂ _ hlater₂ _ => ?_
    refine (stays_onSubscription (hcontrols.after (hlater₁.trans hlater₂)) (Or.inl rfl)).bind
      fun _ _ _ _ => ?_
    exact (stays_read _).bind fun _ _ _ _ => (stays_read _).bind fun _ _ _ _ => stays_pure trivial
  · exact stays_pure trivial

theorem stays_changePlan {newStripePriceId : String} {newPriceAmount quantity : Option Int}
    {prorate : Bool} (hcontrols : Controls (Past.Made seen) userId sub stripeId) :
    (ofHandler basis (changePlan rt stripeId newStripePriceId newPriceAmount prorate
      quantity)).StaysIn rt userId (fun _ _ => True) seen := by
  unfold changePlan
  simp only [ofHandler_bind, ofHandler_lift, ofHandler_callStripe]
  refine (stays_onSubscription hcontrols (Or.inl rfl)).bind fun seen₁ answer hlater₁ told => ?_
  refine (stays_read _).bind fun seen₂ firstItem hlater₂ _ => ?_
  refine (stays_read _).bind fun seen₃ itemId hlater₃ _ => ?_
  refine (stays_lift (P := fun _ _ => True) fun _ _ => trivial).bind fun seen₄ _ hlater₄ _ => ?_
  refine (stays_lift (P := fun _ _ => True) fun _ _ => trivial).bind fun seen₅ _ hlater₅ _ => ?_
  have hlater := hlater₂.trans (hlater₃.trans (hlater₄.trans hlater₅))
  have hcontrols₅ := hcontrols.after (hlater₁.trans hlater)
  split
  · exact stays_scheduleDowngrade hcontrols₅ (told.after hlater)
  · unfold applyImmediatePlanChange
    simp only [ofHandler_bind, ofHandler_callStripe]
    refine (stays_releasedItem hcontrols₅ (told.after hlater)).bind fun seen₆ _ hlater₆ _ => ?_
    exact (stays_onSubscription (hcontrols₅.after hlater₆) (Or.inr ⟨_, rfl⟩)).bind
      fun _ _ _ _ => stays_pure trivial

theorem stays_updateSeatCount {quantity : Int}
    (hcontrols : Controls (Past.Made seen) userId sub stripeId) :
    (ofHandler basis (updateSeatCount rt sub quantity)).StaysIn rt userId
      (fun _ _ => True) seen := by
  unfold updateSeatCount
  rw [hcontrols.stripeId]
  dsimp only
  split
  · simp only [ofHandler_bind, ofHandler_throw]
    exact Session.StaysIn.bind (P := fun _ _ => False) (stays_throw _) fun _ _ _ h => h.elim
  · simp only [ofHandler_bind, ofHandler_lift, ofHandler_callStripe]
    refine (stays_onSubscription hcontrols (Or.inl rfl)).bind fun seen₁ answer hlater₁ told => ?_
    refine (stays_read _).bind fun seen₂ firstItem hlater₂ _ => ?_
    refine (stays_read _).bind fun seen₃ itemId hlater₃ _ => ?_
    refine (stays_read _).bind fun seen₄ _ hlater₄ _ => ?_
    refine (stays_lift (P := fun _ _ => True) fun _ _ => trivial).bind fun seen₅ _ hlater₅ _ => ?_
    have hlater := hlater₁.trans (hlater₂.trans (hlater₃.trans (hlater₄.trans hlater₅)))
    have hcontrols₅ := hcontrols.after hlater
    refine (stays_onSubscription hcontrols₅ (Or.inr ⟨_, rfl⟩)).bind fun seen₆ _ hlater₆ _ => ?_
    split
    · refine stays_save (hcontrols₅.after hlater₆) ?_ fun _ _ => trivial
      rw [← hcontrols.stripeId]
      rfl
    · exact stays_pure trivial

/-! ### Cancelling, resuming and releasing -/

variable {customer : StripeCustomer}

/-- The active subscription that a customer in scope is found to have. -/
theorem InScope.controls {w : World σ} (h : InScope (Past.Made seen) userId Bills customer)
    (hmade : Past.Made seen .select w) (hsub : sub ∈ w.db.activeForCustomer customer.id)
    (hid : sub.stripeId = some stripeId) : Controls (Past.Made seen) userId sub stripeId := by
  obtain ⟨hstored, hcustomer, hactive⟩ := Db.mem_activeForCustomer.mp hsub
  exact ⟨⟨w, hmade, hstored⟩, hactive, ⟨customer, hcustomer, h⟩, hid⟩

/-- The active subscription of a customer in scope, as far as it is found. -/
theorem stays_activeInScope (hscope : InScope (Past.Made seen) userId Bills customer) :
    (ofHandler basis (Handler.getActiveForCustomer customer.id)).StaysIn rt userId
      (fun seen' found => ∀ sub ∈ found, ∀ stripeId, sub.stripeId = some stripeId →
        Controls (Past.Made seen') userId sub stripeId) seen := by
  refine stays_getActiveForCustomer fun seen' found hlater hfound sub hsub stripeId hid => ?_
  obtain ⟨w, hmade, hactive⟩ := hfound sub hsub
  exact (hscope.after hlater).controls hmade hactive hid

theorem stays_cancelSubscription (hscope : InScope (Past.Made seen) userId Bills customer) :
    (ofHandler basis (cancelSubscription rt customer.id true)).StaysIn rt userId
      (fun _ _ => True) seen := by
  unfold cancelSubscription
  rw [ofHandler_bind]
  refine (stays_activeInScope hscope).bind fun seen₁ found hlater₁ hfound => ?_
  split
  next active =>
      split
      next stripeId hid =>
          have hcontrols := hfound active rfl stripeId hid
          have hrest : ∀ {seen'}, seen₁ <:+ seen' → (ofHandler basis (do
              let stripeSub ← Handler.callStripe rt
                (.subscriptionModify stripeId (.cancelAt "min_period_end"))
              mirrorCancelStateFromStripe rt active stripeSub)).StaysIn rt userId
                (fun _ _ => True) seen' := by
            intro seen' hlater
            simp only [ofHandler_bind, ofHandler_callStripe]
            exact (stays_onSubscription (hcontrols.after hlater) (Or.inr ⟨_, rfl⟩)).bind
              fun _ _ hlater' _ => stays_mirrorCancelState (hcontrols.after (hlater.trans hlater'))
          rw [if_pos rfl]
          dsimp only
          split
          · rw [ofHandler_bind]
            exact (stays_releasePendingSchedule hcontrols).bind fun _ _ hlater _ => hrest hlater
          · exact hrest (List.suffix_refl _)
      next => exact stays_throw _
  next => exact stays_throw _

theorem stays_resumeSubscription (hscope : InScope (Past.Made seen) userId Bills customer) :
    (ofHandler basis (resumeSubscription rt customer.id)).StaysIn rt userId
      (fun _ _ => True) seen := by
  unfold resumeSubscription
  rw [ofHandler_bind]
  refine (stays_activeInScope hscope).bind fun seen₁ found hlater₁ hfound => ?_
  split
  next active =>
      split
      next stripeId hid =>
          have hcontrols := hfound active rfl stripeId hid
          simp only [ofHandler_bind, ofHandler_callStripe]
          exact (stays_onSubscription hcontrols (Or.inr ⟨_, rfl⟩)).bind
            fun _ _ hlater _ => stays_mirrorCancelState (hcontrols.after hlater)
      next => exact stays_throw _
  next => exact stays_throw _

theorem stays_releaseForCustomer (hscope : InScope (Past.Made seen) userId Bills customer) :
    (ofHandler basis (releasePendingScheduleForCustomer rt customer.id)).StaysIn rt userId
      (fun _ _ => True) seen := by
  unfold releasePendingScheduleForCustomer
  rw [ofHandler_bind]
  refine (stays_activeInScope hscope).bind fun seen₁ found hlater₁ hfound => ?_
  split
  next active =>
      split
      next stripeId hid =>
          have hcontrols := hfound active rfl stripeId hid
          rw [ofHandler_bind]
          refine (stays_releasePendingSchedule hcontrols).bind fun seen₂ _ hlater₂ _ => ?_
          split
          · exact stays_save (hcontrols.after hlater₂) rfl fun _ _ => trivial
          · exact stays_pure trivial
      next => exact stays_throw _
  next => exact stays_throw _

end Services

/-! ## Views -/

section Views

open Session

variable {rt : Runtime σ} {userId : UUID} {seen : Past σ}

theorem Holds.after {seen' : Past σ} {carries : OrgMember → Prop} {orgId : UUID}
    (h : Holds (Past.Made seen) userId carries orgId) (hlater : seen <:+ seen') :
    Holds (Past.Made seen') userId carries orgId :=
  h.later fun _ _ hmade => hmade.later hlater

theorem stays_requireBillingAuthority (context : PlanContext) :
    (requireBillingAuthority userId context : Session σ (Option UUID)).StaysIn rt userId
      (fun seen' orgId? => ∀ orgId ∈ orgId?, Holds (Past.Made seen') userId Bills orgId) seen := by
  cases context with
  | personal => exact stays_pure fun orgId hnone => absurd hnone (Option.not_mem_none orgId)
  | team =>
      unfold requireBillingAuthority
      refine Session.StaysIn.bind (stays_select (P := fun seen' found => ∃ w : World σ,
        Past.Made seen' .select w ∧ w.db.billingMembership userId = found)
        fun _ w _ hmade => ⟨w, hmade, rfl⟩) ?_
      rintro seen₁ found hlater₁ ⟨w, hmade, hfound⟩
      cases found with
      | none => exact stays_throw _
      | some member =>
          obtain ⟨hm, huser, hbilling⟩ := mem_of_billingMembership hfound
          refine stays_pure fun orgId horg => ?_
          exact ⟨w, member, hmade, hm, huser, Option.some.inj horg, hbilling⟩

theorem stays_resolveMutationContext (context : Option String) :
    (resolveMutationContext userId context : Session σ (Option UUID)).StaysIn rt userId
      (fun seen' orgId? => ∀ orgId ∈ orgId?, Holds (Past.Made seen') userId Bills orgId) seen := by
  unfold resolveMutationContext
  refine (stays_lift (P := fun _ _ => True) fun _ _ => trivial).bind fun seen₁ explicit? _ _ => ?_
  cases explicit? with
  | some explicit => exact stays_requireBillingAuthority explicit
  | none =>
      refine Session.StaysIn.bind (stays_select (P := fun seen' found => ∃ w : World σ,
        Past.Made seen' .select w ∧ w.db.firstMembership userId = found)
        fun _ w _ hmade => ⟨w, hmade, rfl⟩) ?_
      rintro seen₂ found _ ⟨w, hmade, hfound⟩
      cases found with
      | none => exact stays_pure fun orgId hnone => absurd hnone (Option.not_mem_none orgId)
      | some member =>
          obtain ⟨hm, huser⟩ := mem_of_firstMembership hfound
          dsimp only
          split
          · exact Session.StaysIn.bind (P := fun _ _ => False) (stays_throw _)
              fun _ _ _ h => h.elim
          next hbilling =>
              have hbills : Bills member := Bool.not_eq_false _ |>.mp fun hno => hbilling (by rw [hno]; rfl)
              exact stays_pure fun orgId horg =>
                ⟨w, member, hmade, hm, huser, Option.some.inj horg, hbills⟩

/-- The customer that is found for a scope is in it. -/
theorem stays_resolveBillingCustomer {orgId? : Option UUID}
    (hholds : ∀ orgId ∈ orgId?, Holds (Past.Made seen) userId Bills orgId) :
    (resolveBillingCustomer userId orgId? : Session σ (Option StripeCustomer)).StaysIn rt userId
      (fun seen' found => ∀ customer ∈ found,
        InScope (Past.Made seen') userId Bills customer) seen := by
  cases orgId? with
  | none =>
      unfold resolveBillingCustomer
      refine stays_select fun seen' w _ hmade => ?_
      intro customer hcustomer
      obtain ⟨hstored, huser⟩ := Db.customerByUserId_eq_some.mp hcustomer
      exact ⟨⟨w, hmade, hstored⟩, Or.inl huser⟩
  | some orgId =>
      unfold resolveBillingCustomer
      refine stays_select fun seen' w hlater hmade => ?_
      intro customer hcustomer
      obtain ⟨hstored, horg⟩ := Db.customerByOrgId_eq_some.mp hcustomer
      exact ⟨⟨w, hmade, hstored⟩, Or.inr ⟨orgId, horg, (hholds orgId rfl).after hlater⟩⟩

theorem stays_getCustomerAndPaidSubscription {orgId? : Option UUID}
    (hholds : ∀ orgId ∈ orgId?, Holds (Past.Made seen) userId Bills orgId) :
    (getCustomerAndPaidSubscription userId orgId? :
      Session σ (StripeCustomer × Subscription × String)).StaysIn rt userId
      (fun seen' (customer, sub, stripeId) => InScope (Past.Made seen') userId Bills customer ∧
        Controls (Past.Made seen') userId sub stripeId) seen := by
  unfold getCustomerAndPaidSubscription
  refine (stays_resolveBillingCustomer hholds).bind fun seen₁ found _ hfound => ?_
  cases found with
  | none => exact stays_throw _
  | some customer =>
      have hscope := hfound customer rfl
      refine (stays_activeInScope hscope).bind fun seen₂ active? hlater₂ hactive => ?_
      cases active? with
      | none => exact stays_throw _
      | some sub =>
          dsimp only
          split
          next stripeId hid =>
              exact stays_pure ⟨hscope.after hlater₂, hactive sub rfl stripeId hid⟩
          next => exact stays_throw _

/-- Looking at the database, on the way. -/
theorem stays_look {α : Type} (f : Db → α) : (Session.select f : Session σ α).StaysIn rt userId
    (fun _ _ => True) seen :=
  stays_select fun _ _ _ _ => trivial

theorem stays_check {α : Type} (result : Py α) : (Session.lift result : Session σ α).StaysIn rt
    userId (fun _ _ => True) seen :=
  stays_lift fun _ _ => trivial

theorem stays_checkMemberCount (seatLimit : Int) (orgId? : Option UUID) :
    (checkMemberCount seatLimit orgId? : Session σ (List Basis)).StaysIn rt userId
      (fun _ _ => True) seen := by
  cases orgId? with
  | none => exact stays_pure trivial
  | some orgId =>
      unfold checkMemberCount Session.rejectSeatLimitBelowMemberCount
      refine Session.StaysIn.bind (P := fun _ _ => True) ?_ fun _ _ _ _ => stays_pure trivial
      refine (stays_look _).bind fun _ _ _ _ => ?_
      split
      · exact Session.StaysIn.bind (P := fun _ _ => False) (stays_throw _) fun _ _ _ h => h.elim
      · exact stays_pure trivial

theorem stays_applyPlanChange {sub : Subscription} {stripeId : String} {planPrice : LoadedPrice}
    {change : SubscriptionChange} {orgId? : Option UUID}
    (hcontrols : Controls (Past.Made seen) userId sub stripeId) :
    (applyPlanChange rt sub stripeId planPrice change orgId?).StaysIn rt userId
      (fun _ _ => True) seen := by
  unfold applyPlanChange
  refine (stays_look _).bind fun seen₁ found hlater₁ _ => ?_
  refine (stays_check _).bind fun seen₂ newPrice hlater₂ _ => ?_
  have hcontrols₂ := hcontrols.after (hlater₁.trans hlater₂)
  dsimp only
  split
  · exact (stays_checkMemberCount _ _).bind fun _ _ hlater _ =>
      stays_changePlan (hcontrols₂.after hlater)
  · exact stays_changePlan hcontrols₂

theorem stays_applySeatOnly {sub : Subscription} {stripeId : String} {seatLimit : Int}
    {orgId? : Option UUID} (hcontrols : Controls (Past.Made seen) userId sub stripeId) :
    (Session.applySeatOnly rt sub seatLimit orgId?).StaysIn rt userId (fun _ _ => True) seen := by
  unfold Session.applySeatOnly
  refine (stays_look _).bind fun seen₁ found hlater₁ _ => ?_
  cases found with
  | none => exact stays_throw _
  | some plan =>
      refine (stays_check _).bind fun seen₂ _ hlater₂ _ => ?_
      refine (stays_checkMemberCount _ _).bind fun seen₃ basis hlater₃ _ => ?_
      exact stays_updateSeatCount (hcontrols.after (hlater₁.trans (hlater₂.trans hlater₃)))

theorem stays_applyPatch {customer : StripeCustomer} {sub : Subscription} {stripeId : String}
    {planPrice : Option (LoadedPrice × Plan)} {orgId? : Option UUID} {patch : SubscriptionPatch}
    (hscope : InScope (Past.Made seen) userId Bills customer)
    (hcontrols : Controls (Past.Made seen) userId sub stripeId) :
    (applyPatch rt customer sub stripeId planPrice orgId? patch).StaysIn rt userId
      (fun _ _ => True) seen := by
  cases patch with
  | toggle cancelAtPeriodEnd =>
      cases cancelAtPeriodEnd with
      | true => exact stays_cancelSubscription hscope
      | false => exact stays_resumeSubscription hscope
  | change change =>
      cases planPrice with
      | some found => exact stays_applyPlanChange hcontrols
      | none =>
          unfold applyPatch
          dsimp only
          split
          next heq => cases heq
          · exact stays_applySeatOnly hcontrols
          · exact stays_pure trivial

theorem stays_refetch (userId' : UUID) (isTeam : Bool) :
    (refetchSubscriptionAfterMutation userId' isTeam : Session σ Subscription).StaysIn rt userId
      (fun _ _ => True) seen := by
  unfold refetchSubscriptionAfterMutation
  refine (stays_look _).bind fun _ found _ _ => ?_
  cases found with
  | none => exact stays_throw _
  | some sub => exact stays_pure trivial

theorem stays_requestedPrice (planPriceId : Option UUID) :
    (requestedPrice planPriceId : Session σ (Option (LoadedPrice × Plan))).StaysIn rt userId
      (fun _ _ => True) seen := by
  cases planPriceId with
  | none => exact stays_pure trivial
  | some id =>
      unfold requestedPrice
      exact (stays_look _).bind fun _ _ _ _ => (stays_check _).bind fun _ _ _ _ => stays_pure trivial

theorem stays_patchSubscription (currencies : Currencies) (request : PatchRequest) :
    (patchSubscription rt currencies request).StaysIn rt request.user.id
      (fun _ _ => True) seen := by
  unfold patchSubscription
  refine (stays_resolveMutationContext _).bind fun seen₁ orgId? hlater₁ hholds => ?_
  refine (stays_requestedPrice _).bind fun seen₂ planPrice hlater₂ _ => ?_
  refine (stays_check _).bind fun seen₃ _ hlater₃ _ => ?_
  refine (stays_getCustomerAndPaidSubscription fun orgId horg =>
    (hholds orgId horg).after (hlater₂.trans hlater₃)).bind ?_
  rintro seen₄ ⟨customer, sub, stripeId⟩ _ ⟨hscope, hcontrols⟩
  refine (stays_applyPatch hscope hcontrols).bind fun _ _ _ _ => ?_
  exact (stays_check _).bind fun _ _ _ _ => stays_refetch _ _

theorem stays_deleteScheduledChange (user : User) (context : Option String) :
    (deleteScheduledChange rt user context).StaysIn rt user.id (fun _ _ => True) seen := by
  unfold deleteScheduledChange
  refine (stays_resolveMutationContext _).bind fun seen₁ orgId? _ hholds => ?_
  refine (stays_getCustomerAndPaidSubscription hholds).bind ?_
  rintro seen₂ ⟨customer, sub, stripeId⟩ _ ⟨hscope, _⟩
  exact stays_releaseForCustomer hscope

/-- Who is told of a change: the user, or those who can bill for the org. -/
theorem stays_billingNoticeRecipients {user : User} {orgId? : Option UUID}
    (hholds : ∀ orgId ∈ orgId?, Holds (Past.Made seen) user.id Bills orgId) :
    (billingNoticeRecipients user orgId? : Session σ (List String)).StaysIn rt user.id
      (fun seen' recipients =>
        AnswersWithin (Past.Made seen') rt user (.cancelled recipients)) seen := by
  cases orgId? with
  | none => exact stays_pure (Or.inl rfl)
  | some orgId =>
      unfold billingNoticeRecipients
      refine stays_select fun seen' w hlater hmade => Or.inr ?_
      exact ⟨orgId, (hholds orgId rfl).after hlater, w, hmade, rfl⟩

theorem stays_deleteSubscription (currencies : Currencies) (user : User)
    (context currency : Option String) :
    (deleteSubscription rt currencies user context currency).StaysIn rt user.id
      (fun seen' recipients =>
        AnswersWithin (Past.Made seen') rt user (.cancelled recipients)) seen := by
  unfold deleteSubscription
  refine (stays_resolveMutationContext _).bind fun seen₁ orgId? _ hholds => ?_
  refine (stays_getCustomerAndPaidSubscription hholds).bind ?_
  rintro seen₂ ⟨customer, sub, stripeId⟩ hlater₂ ⟨hscope, _⟩
  refine (stays_cancelSubscription hscope).bind fun seen₃ _ hlater₃ _ => ?_
  refine (stays_billingNoticeRecipients fun orgId horg =>
    (hholds orgId horg).after (hlater₂.trans hlater₃)).bind fun seen₄ recipients _ htold => ?_
  dsimp only
  split
  · refine (stays_check _).bind fun seen₅ _ hlater₅ _ => ?_
    refine (stays_refetch _ _).bind fun seen₆ _ hlater₆ _ => ?_
    exact stays_pure (htold.later fun _ _ hmade => hmade.later (hlater₅.trans hlater₆))
  · exact stays_pure htold

/-! ### Customers -/

theorem Creates.after {seen' : Past σ} {scope : CustomerScope}
    (h : Creates (Past.Made seen) userId scope) (hlater : seen <:+ seen') :
    Creates (Past.Made seen') userId scope :=
  h.later fun _ _ hmade => hmade.later hlater

/-- The customer is found in scope, or created for the scope and stored. -/
theorem stays_getOrCreateCustomer {carries : OrgMember → Prop} {scope : CustomerScope}
    {userId? orgId? : Option UUID} (hcreates : Creates (Past.Made seen) userId scope)
    (hfound : ∀ seen' (w : World σ), seen <:+ seen' → Past.Made seen' .select w → ∀ customer ∈
      (match userId?, orgId? with
        | some userId, _ => w.db.customerByUserId userId
        | none, some orgId => w.db.customerByOrgId orgId
        | none, none => none : Option StripeCustomer),
      InScope (Past.Made seen') userId carries customer)
    (hsave : ∀ seen' (customer : StripeCustomer), seen <:+ seen' → customer.userId = userId? →
      customer.orgId = orgId? →
        MaySave (Past.Made seen') userId rt (World.stored fun db => db.saveCustomer customer)) :
    (getOrCreateCustomer rt scope userId? orgId?).StaysIn rt userId
      (fun seen' id => Reaches (Past.Made seen') userId rt carries id) seen := by
  unfold getOrCreateCustomer
  refine (stays_select (P := fun seen' found => ∀ customer ∈ found,
    InScope (Past.Made seen') userId carries customer) fun seen' w hlater hmade =>
      hfound seen' w hlater hmade).bind fun seen₁ existing hlater₁ hexisting => ?_
  cases existing with
  | some customer => exact stays_pure (Or.inl ⟨customer, hexisting customer rfl, rfl⟩)
  | none =>
      have hcall : MayCall (Past.Made seen₁) userId rt (.customerCreate scope) :=
        hcreates.after hlater₁
      refine (stays_callStripe hcall fun _ _ _ told => told).bind fun seen₂ created hlater₂ told => ?_
      refine (stays_read _).bind fun seen₃ value hlater₃ hvalue => ?_
      refine (stays_check _).bind fun seen₄ livemode hlater₄ _ => ?_
      have hlater := hlater₁.trans (hlater₂.trans (hlater₃.trans hlater₄))
      refine (stays_execute (P := fun seen' _ => seen₄ <:+ seen') (hsave seen₄ _ hlater rfl rfl)
        fun _ h => h).bind fun seen₅ _ _ hlater₅ => stays_pure (Or.inr ?_)
      exact ⟨scope, created, value, hcreates.after (hlater.trans hlater₅),
        told.after (hlater₃.trans (hlater₄.trans hlater₅)), hvalue, rfl⟩

/-- The caller's own customer. -/
theorem stays_ownCustomer {carries : OrgMember → Prop} :
    (getOrCreateCustomer rt (.user userId) (some userId) none).StaysIn rt userId
      (fun seen' id => Reaches (Past.Made seen') userId rt carries id) seen := by
  refine stays_getOrCreateCustomer rfl (fun seen' w _ hmade customer hcustomer => ?_)
    fun seen' customer _ huser horg => .ownCustomer huser horg
  obtain ⟨hstored, huser⟩ := Db.customerByUserId_eq_some.mp hcustomer
  exact ⟨⟨w, hmade, hstored⟩, Or.inl huser⟩

/-- The customer of an org of the caller's. -/
theorem stays_orgCustomer {orgId : UUID} (hholds : Holds (Past.Made seen) userId Owns orgId) :
    (getOrCreateCustomer rt (.org orgId) none (some orgId)).StaysIn rt userId
      (fun seen' id => Reaches (Past.Made seen') userId rt Owns id) seen := by
  refine stays_getOrCreateCustomer hholds (fun seen' w hlater hmade customer hcustomer => ?_)
    fun seen' customer hlater huser horg => .orgCustomer huser horg (hholds.after hlater)
  obtain ⟨hstored, horg⟩ := Db.customerByOrgId_eq_some.mp hcustomer
  exact ⟨⟨w, hmade, hstored⟩, Or.inr ⟨orgId, horg, hholds.after hlater⟩⟩

theorem stays_portalCustomer (user : User) (context : PlanContext) :
    (portalCustomer rt user context).StaysIn rt user.id
      (fun seen' id => Reaches (Past.Made seen') user.id rt Bills id) seen := by
  cases context with
  | personal => exact stays_ownCustomer
  | team =>
      unfold portalCustomer
      refine (stays_requireBillingAuthority .team).bind fun seen₁ orgId? _ hholds => ?_
      refine (stays_resolveBillingCustomer hholds).bind fun seen₂ found _ hfound => ?_
      cases found with
      | none => exact stays_throw _
      | some customer => exact stays_pure (Or.inl ⟨customer, hfound customer rfl, rfl⟩)

theorem stays_openPortal (user : User) (context : Option String) :
    (openPortal rt user context).StaysIn rt user.id
      (fun seen' id => Reaches (Past.Made seen') user.id rt Bills id) seen := by
  unfold openPortal
  refine (stays_check _).bind fun seen₁ explicit? _ _ => ?_
  cases explicit? with
  | some explicit => exact stays_portalCustomer user explicit
  | none =>
      refine Session.StaysIn.bind (P := fun _ _ => True) ?_ fun _ context _ _ =>
        stays_portalCustomer user context
      unfold defaultSubscriptionContext
      exact (stays_look _).bind fun _ _ _ _ => stays_pure trivial

/-! ### Checkouts -/

theorem stays_productCustomer (user : User) {orgId? : Option UUID}
    (hholds : ∀ orgId ∈ orgId?, Holds (Past.Made seen) user.id Owns orgId) :
    (productCustomer rt orgId? user).StaysIn rt user.id
      (fun seen' id => Reaches (Past.Made seen') user.id rt Owns id) seen := by
  cases orgId? with
  | none => exact stays_ownCustomer
  | some orgId => exact stays_orgCustomer (hholds orgId rfl)

/-- The session that is to be created is for the caller, and for an org of theirs. -/
def ParamsWithin (seen : Past σ) (user : User) (rt : Runtime σ) (params : SessionParams) : Prop :=
  MayCall (Past.Made seen) user.id rt (.checkoutSessionCreate params)

theorem stays_planCustomer (isTeam : Bool) (user : User) :
    (planCustomer rt isTeam user).StaysIn rt user.id
      (fun seen' id => Reaches (Past.Made seen') user.id rt Owns id) seen := by
  cases isTeam with
  | false => exact stays_ownCustomer
  | true =>
      show (createTeamStripeCustomer rt user.id).StaysIn _ _ _ _
      unfold createTeamStripeCustomer
      have hcall : MayCall (Past.Made seen) user.id rt (.customerCreate (.teamCheckout user.id)) :=
        rfl
      refine (stays_callStripe hcall fun _ _ _ told => told).bind fun seen₁ created hlater₁ told => ?_
      refine (stays_read _).bind fun seen₂ value hlater₂ hvalue => stays_pure (Or.inr ?_)
      exact ⟨.teamCheckout user.id, created, value, rfl, told.after hlater₂, hvalue, rfl⟩

/-- A plan is bought for no org that is there already. -/
theorem not_mem_buildCheckoutMetadata {isTeam : Bool} {data : CheckoutData}
    {metadata : Option (List (String × String))} (h : buildCheckoutMetadata isTeam data = .ok metadata)
    (text : String) : ("org_id", text) ∉ metadata.getD [] := by
  unfold buildCheckoutMetadata at h
  split at h
  · split at h
    · cases h
    · cases h
      simp
  · cases h
    simp

theorem stays_planCheckout (currencies : Currencies) (user : User) (queryCurrency : Option String)
    (data : CheckoutData) : (planCheckout rt currencies user queryCurrency data).StaysIn rt user.id
      (fun seen' params => ParamsWithin seen' user rt params) seen := by
  unfold planCheckout
  refine (stays_check _).bind fun _ _ _ _ => (stays_look _).bind fun _ _ _ _ => ?_
  refine (stays_check _).bind fun _ found _ _ => (stays_check _).bind fun _ _ _ _ => ?_
  refine (stays_look _).bind fun _ stripePriceId _ _ => ?_
  refine Session.StaysIn.bind (P := fun _ _ => True) ?_ fun seen₁ _ _ _ => ?_
  · unfold validateContext validateTeamCheckout
    split
    · refine (stays_look _).bind fun _ owns _ _ => ?_
      dsimp only
      split
      · exact Session.StaysIn.bind (P := fun _ _ => False) (stays_throw _) fun _ _ _ h => h.elim
      · split
        · exact stays_throw _
        · exact stays_pure trivial
    · exact stays_pure trivial
  refine (stays_lift (P := fun _ metadata =>
    buildCheckoutMetadata (found.2.context == .team) data = .ok metadata) fun _ h => h).bind
      fun seen₂ metadata _ hmetadata => ?_
  refine (stays_planCustomer _ user).bind fun seen₃ customer _ hreaches => stays_pure ?_
  refine ⟨rfl, hreaches, fun text htext => ?_⟩
  exact absurd htext (not_mem_buildCheckoutMetadata hmetadata text)

theorem stays_productCheckout (currencies : Currencies) (user : User)
    (queryCurrency context : Option String) (productPriceId : UUID) :
    (productCheckout rt currencies user queryCurrency context productPriceId).StaysIn rt user.id
      (fun seen' params => ParamsWithin seen' user rt params) seen := by
  unfold productCheckout
  refine (stays_check _).bind fun _ context _ _ => ?_
  refine Session.StaysIn.bind (stays_select (P := fun seen' found => ∃ w : World σ,
    Past.Made seen' .select w ∧ w.db.firstMembership user.id = found)
    fun _ w _ hmade => ⟨w, hmade, rfl⟩) ?_
  rintro seen₁ membership _ ⟨w, hmade, hmembership⟩
  refine (stays_lift (P := fun seen' orgId? => ∀ orgId ∈ orgId?,
    Holds (Past.Made seen') user.id Owns orgId) fun orgId? horg orgId hsome => ?_).bind
      fun seen₂ orgId? _ hholds => ?_
  · have hbuys : BuysFor w.db user.id context orgId := by
      unfold BuysFor
      rw [hmembership, horg, Option.mem_def.mp hsome]
    obtain ⟨_, m, hfirst, howner, horgId⟩ := buysFor_iff.mp hbuys
    obtain ⟨hm, huser⟩ := mem_of_firstMembership hfirst
    exact ⟨w, m, hmade, hm, huser, horgId, howner⟩
  refine (stays_check _).bind fun _ _ hlater₃ _ => (stays_look _).bind fun _ _ hlater₄ _ => ?_
  refine (stays_check _).bind fun _ found hlater₅ _ => (stays_look _).bind fun seen₆ _ hlater₆ _ => ?_
  have hlater := hlater₃.trans (hlater₄.trans (hlater₅.trans hlater₆))
  refine (stays_productCustomer user fun orgId horg => (hholds orgId horg).after hlater).bind
    fun seen₇ customer hlater₇ hreaches => stays_pure ⟨rfl, hreaches, fun text htext => ?_⟩
  rcases List.mem_cons.mp htext with hproduct | horg
  · exact absurd (congrArg Prod.fst hproduct) (show "org_id" ≠ "product_id" by decide)
  · obtain ⟨pair, hpair, hsome⟩ := Option.map_eq_some_iff.mp (Option.mem_toList.mp horg)
    refine ⟨pair, ?_, (hholds pair hpair).after (hlater.trans hlater₇)⟩
    exact (congrArg Prod.snd hsome).symm

theorem stays_checkout (currencies : Currencies) (user : User) (checkout : Checkout) :
    (checkout.post rt currencies user).StaysIn rt user.id (fun _ _ => True) seen := by
  unfold Checkout.post
  refine Session.StaysIn.bind (P := fun seen' params => ParamsWithin seen' user rt params) ?_
    fun seen₁ params _ hparams => ?_
  · cases checkout with
    | plan queryCurrency data => exact stays_planCheckout currencies user queryCurrency data
    | product queryCurrency context productPriceId =>
        exact stays_productCheckout currencies user queryCurrency context productPriceId
  · exact (stays_callStripe hparams fun _ _ _ told => told).bind fun _ _ _ _ =>
      (stays_read _).bind fun _ _ _ _ => stays_pure trivial

/-- Every request stays in scope. -/
theorem BillingRequest.stays (rt : Runtime σ) (user : User) (request : BillingRequest)
    (seen : Past σ) : (request.session rt user).StaysIn rt user.id
      (fun seen' answer => AnswersWithin (Past.Made seen') rt user answer) seen := by
  cases request with
  | checkout currencies checkout =>
      exact (stays_checkout currencies user checkout).bind fun _ _ _ _ => stays_pure trivial
  | patch currencies context currency change =>
      exact (stays_patchSubscription currencies ⟨user, context, currency, change⟩).bind
        fun _ _ _ _ => stays_pure trivial
  | cancel currencies context currency =>
      exact (stays_deleteSubscription currencies user context currency).bind
        fun _ _ _ htold => stays_pure htold
  | releaseChange context =>
      exact (stays_deleteScheduledChange user context).bind fun _ _ _ _ => stays_pure trivial
  | portal context =>
      exact (stays_openPortal user context).bind fun _ _ _ hreaches => stays_pure hreaches

end Views

/-! ## Runs -/

/-- Who acts on the database and the Stripe account: a request about billing, or anything
else. -/
inductive Client (σ : Type)
  | billing (rt : Runtime σ) (user : User) (request : BillingRequest)
  | other (program : Session σ BillingAnswer)

def Client.session : Client σ → Session σ BillingAnswer
  | billing rt user request => request.session rt user
  | other program => program

section Runs

variable {ι : Type} [DecidableEq ι]

/-- Clients that have made no statement yet. -/
def billingClients (clients : ι → Client σ) (w : World σ) :
    Pool ι (Statement Label Lock (World σ)) (World σ) (Py BillingAnswer) where
  shared := w
  procs i := ExceptT.run (clients i).session

/-- The client has made such a statement, in a world that the run had reached. -/
def MadeIn (clients : ι → Client σ) (w : World σ) (schedule : List ι) (i : ι) (label : Label)
    (reached : World σ) : Prop :=
  ∃ statement, (billingClients clients w).Saw schedule i statement reached ∧ statement.label = label

/-- What a client is about to do, or has come to, is within what it has seen, if it is a
request about billing. -/
def Client.InScope (seen : Label → World σ → Prop) : Client σ →
    Program (Statement Label Lock (World σ)) (World σ) (Py BillingAnswer) → Prop
  | .billing rt user _, .act statement effect _ => Within seen user.id rt statement.label effect
  | .billing rt user _, .done (.ok answer) => AnswersWithin seen rt user answer
  | _, _ => True

/-- What is allowed of a client. -/
def Client.allows : Client σ → Past σ → Statement Label Lock (World σ) →
    (World σ → World σ) → Prop
  | .billing rt user _, seen, statement, effect =>
      Within (Past.Made seen) user.id rt statement.label effect
  | .other _, _, _, _ => True

theorem Client.obeys (client : Client σ) : (ExceptT.run client.session).Obeys
    (chronicle client.allows) (fun seen answer => client.InScope (Past.Made seen) (.done answer))
      [] := by
  cases client with
  | billing rt user request =>
      refine Fallible.Obeys.mono (request.stays rt user []) fun seen answer h => ?_
      cases answer with
      | ok answer => exact h answer rfl
      | error e => trivial
  | other program =>
      exact Program.obeys_of_allowed _ (fun _ _ _ => trivial) (fun _ _ => trivial) []

theorem Client.InScope.later {client : Client σ} {seen seen' : Label → World σ → Prop}
    {p : Program (Statement Label Lock (World σ)) (World σ) (Py BillingAnswer)}
    (hsub : ∀ label w, seen label w → seen' label w) (h : client.InScope seen p) :
    client.InScope seen' p := by
  cases client with
  | other program => trivial
  | billing rt user request =>
      cases p with
      | act statement effect next => exact Within.later hsub h
      | done answer =>
          cases answer with
          | ok answer => exact AnswersWithin.later hsub h
          | error e => trivial

end Runs

/-- The buyer cancels the subscription of a team. -/
def cancellingClients : Fin 1 → Client Unit := fun _ =>
  .billing (sampleRuntime cancellingStripe 0 0) buyer (.cancel ⟨["usd"], ["usd"]⟩ (some "team") none)

example : ∃ statement effect next,
    ((billingClients cancellingClients twoTeamsWorld).run [0, 0, 0, 0]).procs 0 =
      .act statement effect next ∧
    statement.label = .stripe (.subscriptionModify "sub_1" (.cancelAt "min_period_end")) :=
  ⟨_, _, _, rfl, rfl⟩

end Saasmint
