import Saasmint.Library.Transcripts
import Saasmint.Billing.PlanChanges

/-!
# What a plan change tells Stripe

The calls of `change_plan` and their answers, in order.  `PlanStep` is the grammar of
these conversations: which call may follow what has been said.  That a plan is changed
once, for how many seats, in which currency and on which item, is read off the grammar.

A downgrade is sent as two phases, one until the end of the period and one from there
on.  Both have the seats that are asked for.
-/

namespace Saasmint

open Atomic Handler

variable {σ : Type}

/-! ## Conversations -/

/-- A call and its answer. -/
abbrev Exchange := StripeCall × Py Json

def exchange? (rt : Runtime σ) : Action → World σ → Option Exchange
  | .stripe call, w => some (call, (rt.stripe.call call w.stripe).1)
  | _, _ => none

/-- What is said in a run alone. -/
def exchanges {α : Type} (rt : Runtime σ) (p : Handler σ α) (w : World σ) : List Exchange :=
  Fallible.transcript (exchange? rt) p w

namespace StripeCall

/-- It changes the plan, at once or by a schedule. -/
def changesPlan : StripeCall → Bool
  | subscriptionModify .. => true
  | scheduleModify .. => true
  | _ => false

/-- It begins a schedule or changes one. -/
def schedules : StripeCall → Bool
  | scheduleCreate _ => true
  | scheduleModify .. => true
  | _ => false

/-- The seats of the items that are sent. -/
def seats : StripeCall → List Int
  | subscriptionModify _ (.item _ _ quantity _) => [quantity]
  | scheduleModify _ phases => phases.map SchedulePhase.quantity
  | _ => []

end StripeCall

/-- The monitor under which a call needs what `allow` says of the conversation so far. -/
abbrev conversing (rt : Runtime σ) (allow : List Exchange → StripeCall → Prop) :
    Monitor (List Exchange) Action (World σ) :=
  .recall (exchange? rt) fun said action => ∀ call, action = .stripe call → allow said call

section Conversing

variable {α β : Type} {rt : Runtime σ} {allow : List Exchange → StripeCall → Prop}
  {post : List Exchange → Py α → Prop} {said : List Exchange}

theorem obeys_callStripe {call : StripeCall} {post : List Exchange → Py Json → Prop}
    (hallow : allow said call) (h : ∀ answer, post (said ++ [(call, answer)]) answer) :
    (callStripe rt call).Obeys (conversing rt allow) post said := by
  refine ⟨fun call' hcall => ?_, fun w => h (rt.stripe.call call w.stripe).1⟩
  cases hcall
  exact hallow

/-- A call that is followed by others: its failure ends the conversation. -/
theorem obeys_callStripe_bind {call : StripeCall} {rest : Json → Handler σ α}
    (hallow : allow said call) (herror : ∀ e, post (said ++ [(call, .error e)]) (.error e))
    (h : ∀ answer, (rest answer).Obeys (conversing rt allow) post (said ++ [(call, .ok answer)])) :
    (callStripe rt call >>= rest).Obeys (conversing rt allow) post said := by
  rw [Fallible.obeys_bind]
  apply obeys_callStripe hallow
  intro answer
  cases answer with
  | ok answer => exact h answer
  | error e => exact herror e

theorem obeys_lift_bind {result : Py β} {rest : β → Handler σ α}
    (herror : ∀ e, post said (.error e))
    (h : ∀ b, result = .ok b → (rest b).Obeys (conversing rt allow) post said) :
    (lift result >>= rest).Obeys (conversing rt allow) post said := by
  rw [Fallible.obeys_bind]
  cases result with
  | ok b => exact h b rfl
  | error e => exact herror e

/-- In a conversation every call is one that may follow what has been said. -/
theorem allowed_of_exchanges {p : Handler σ α} (h : p.Obeys (conversing rt allow) post []) {w : World σ}
    {before after : List Exchange} {entry : Exchange}
    (hsplit : exchanges rt p w = before ++ entry :: after) : allow before entry.1 := by
  obtain ⟨action, t, hnote, hallow⟩ := h.allowed hsplit
  cases action with
  | stripe call =>
      obtain rfl := Option.some.inj hnote
      exact hallow call rfl
  | query => cases hnote
  | readSubscription => cases hnote
  | saveSubscription now row => cases hnote
  | transaction => cases hnote
  | enqueue task => cases hnote

end Conversing

/-! ## What is read off a subscription -/

/-- The seats of the subscription. -/
def seatCount (sub : Json) : Py Int := do itemQuantity (← subscriptionItem sub)

def subscriptionItemId (sub : Json) : Py String := do
  return (← (← subscriptionItem sub).item "id").toStr

/-- The schedule that manages the subscription. -/
def attachedSchedule (sub : Json) : Py (Option String) := do
  let schedule ← safeGet sub "schedule"
  return if schedule.truthy then some schedule.toStr else none

/-- The currencies of the subscription and of the new price are known, and differ. -/
def CurrenciesDiffer (sub newPrice : Json) : Prop :=
  ∃ firstItem price current new, subscriptionItem sub = .ok firstItem ∧
    firstItem.item "price" = .ok price ∧ price.get "currency" = .ok current ∧
    newPrice.attr "currency" = .ok new ∧ currencyOf current ≠ "" ∧ currencyOf new ≠ "" ∧
    currencyOf current ≠ currencyOf new

/-! ## The grammar of a plan change -/

section Grammar

variable (stripeSubscriptionId newStripePriceId : String) (quantity : Option Int)

/-- Which call may follow what has been said. -/
inductive PlanStep : List Exchange → StripeCall → Prop
  | retrieve : PlanStep [] (.subscriptionRetrieve stripeSubscriptionId)
  -- at the end of the period
  | price {sub : Json} : PlanStep [(.subscriptionRetrieve stripeSubscriptionId, .ok sub)]
      (.priceRetrieve newStripePriceId)
  | create {sub newPrice : Json} {fromSubscription : String}
      (hcurrency : ¬ CurrenciesDiffer sub newPrice) :
      PlanStep [(.subscriptionRetrieve stripeSubscriptionId, .ok sub),
        (.priceRetrieve newStripePriceId, .ok newPrice)] (.scheduleCreate fromSubscription)
  | schedule {sub newPrice : Json} {created : List Exchange} {scheduleId : String}
      {phases : List SchedulePhase} (hcurrency : ¬ CurrenciesDiffer sub newPrice)
      (hcreated : ∀ entry ∈ created, ∃ fromSubscription, entry.1 = .scheduleCreate fromSubscription)
      (hseats : quantity = none → ∀ phase ∈ phases, seatCount sub = .ok phase.quantity) :
      PlanStep ((.subscriptionRetrieve stripeSubscriptionId, .ok sub) ::
        (.priceRetrieve newStripePriceId, .ok newPrice) :: created) (.scheduleModify scheduleId phases)
  -- at once
  | modify {sub : Json} {itemId : String} {seats : Int} {proration : String}
      (hfree : attachedSchedule sub = .ok none) (hitem : subscriptionItemId sub = .ok itemId)
      (hseats : quantity = none → seatCount sub = .ok seats) :
      PlanStep [(.subscriptionRetrieve stripeSubscriptionId, .ok sub)]
        (.subscriptionModify stripeSubscriptionId
          (.item itemId (some newStripePriceId) seats proration))
  | release {sub : Json} {schedule : String} (hattached : attachedSchedule sub = .ok (some schedule)) :
      PlanStep [(.subscriptionRetrieve stripeSubscriptionId, .ok sub)] (.scheduleRelease schedule)
  | again {sub released : Json} {schedule : String}
      (hattached : attachedSchedule sub = .ok (some schedule)) :
      PlanStep [(.subscriptionRetrieve stripeSubscriptionId, .ok sub),
        (.scheduleRelease schedule, .ok released)] (.subscriptionRetrieve stripeSubscriptionId)
  | modifyReleased {sub released sub' : Json} {schedule itemId : String} {seats : Int}
      {proration : String} (hattached : attachedSchedule sub = .ok (some schedule))
      (hitem : subscriptionItemId sub' = .ok itemId)
      (hseats : quantity = none → seatCount sub = .ok seats) :
      PlanStep [(.subscriptionRetrieve stripeSubscriptionId, .ok sub),
          (.scheduleRelease schedule, .ok released),
          (.subscriptionRetrieve stripeSubscriptionId, .ok sub')]
        (.subscriptionModify stripeSubscriptionId
          (.item itemId (some newStripePriceId) seats proration))

end Grammar

/-- A conversation that ends well has changed the plan. -/
def EndsWithChange (said : List Exchange) (result : Py Unit) : Prop :=
  result = .ok () → ∃ entry ∈ said, entry.1.changesPlan = true

/-! ## The conversation of a downgrade -/

/-- The phases of a downgrade: up to the end of the period, and from there on. -/
def downgradePhases (current : CurrentTerms) (newStripePriceId : String) (quantity : Int) :
    List SchedulePhase :=
  [⟨current.priceId, quantity, current.periodStart, some current.periodEnd⟩,
    ⟨newStripePriceId, quantity, current.periodEnd, none⟩]

section Downgrade

variable {rt : Runtime σ} {allow : List Exchange → StripeCall → Prop} {said : List Exchange}
  {sub newPrice firstItem : Json} {current : CurrentTerms}

theorem obeys_pinningSchedule {post : List Exchange → Py String → Prop}
    (hcreate : ∀ fromSubscription, allow said (.scheduleCreate fromSubscription))
    (h : ∀ created result,
      (∀ entry ∈ created, ∃ fromSubscription, entry.1 = .scheduleCreate fromSubscription) →
        post (said ++ created) result) :
    (pinningSchedule rt sub).Obeys (conversing rt allow) post said := by
  have hnone : ∀ result, post said result := by
    intro result
    simpa only [List.append_nil] using h [] result (fun _ hmem => absurd hmem List.not_mem_nil)
  have hone : ∀ fromSubscription answer result,
      post (said ++ [(.scheduleCreate fromSubscription, answer)]) result := by
    intro fromSubscription answer result
    refine h _ result fun entry hmem => ?_
    obtain rfl := List.mem_singleton.mp hmem
    exact ⟨fromSubscription, rfl⟩
  unfold pinningSchedule
  apply obeys_lift_bind (fun e => hnone _)
  intro existing _
  split
  · exact hnone _
  · apply obeys_lift_bind (fun e => hnone _)
    intro id _
    apply obeys_callStripe_bind (hcreate _) (fun e => hone _ _ _)
    intro schedule
    exact obeys_lift_bind (fun e => hone _ _ _) fun _ _ => hone _ _ _

theorem currency_of_readCurrentTerms (h : readCurrentTerms sub firstItem = .ok current) :
    ∃ price currency, firstItem.item "price" = .ok price ∧ price.get "currency" = .ok currency ∧
      current.currency = currencyOf currency := by
  unfold readCurrentTerms at h
  obtain ⟨periodEnd, -, h⟩ := bind_eq_ok.mp h
  obtain ⟨periodStart, -, h⟩ := bind_eq_ok.mp h
  obtain ⟨price, hprice, h⟩ := bind_eq_ok.mp h
  obtain ⟨priceId, -, h⟩ := bind_eq_ok.mp h
  obtain ⟨price', hprice', h⟩ := bind_eq_ok.mp h
  obtain ⟨currency, hcurrency, h⟩ := bind_eq_ok.mp h
  cases h
  exact ⟨price', currency, hprice', hcurrency, rfl⟩

/-- The guard lets a new price pass unless the currencies are known to differ. -/
theorem not_currenciesDiffer {new : Json} (hitem : subscriptionItem sub = .ok firstItem)
    (hcurrent : readCurrentTerms sub firstItem = .ok current)
    (hnew : newPrice.attr "currency" = .ok new)
    (hguard : ¬ (current.currency ≠ "" ∧ currencyOf new ≠ "" ∧
      current.currency ≠ currencyOf new)) : ¬ CurrenciesDiffer sub newPrice := by
  rintro ⟨firstItem', price', old', new', hitem', hprice', hold', hnew', hold, hnewNe, hne⟩
  obtain rfl := Except.ok.inj (hitem.symm.trans hitem')
  obtain rfl := Except.ok.inj (hnew.symm.trans hnew')
  obtain ⟨price, old, hprice, hold'', hcurrency⟩ := currency_of_readCurrentTerms hcurrent
  obtain rfl := Except.ok.inj (hprice.symm.trans hprice')
  obtain rfl := Except.ok.inj (hold''.symm.trans hold')
  rw [hcurrency] at hguard
  exact hguard ⟨hold, hnewNe, hne⟩

/-- What a downgrade says: it asks for the new price, begins a schedule if there is none
and sends the phases. -/
theorem obeys_scheduleDowngrade {newStripePriceId : String} {quantity : Int}
    {post : List Exchange → Py Unit → Prop}
    (hprice : allow said (.priceRetrieve newStripePriceId))
    (hcreate : ∀ newPrice fromSubscription, ¬ CurrenciesDiffer sub newPrice →
      allow (said ++ [(.priceRetrieve newStripePriceId, .ok newPrice)])
        (.scheduleCreate fromSubscription))
    (hmodify : ∀ newPrice created scheduleId firstItem current,
      ¬ CurrenciesDiffer sub newPrice →
      (∀ entry ∈ created, ∃ fromSubscription, entry.1 = .scheduleCreate fromSubscription) →
      subscriptionItem sub = .ok firstItem → readCurrentTerms sub firstItem = .ok current →
      allow (said ++ [(.priceRetrieve newStripePriceId, .ok newPrice)] ++ created)
        (.scheduleModify scheduleId (downgradePhases current newStripePriceId quantity)))
    (herror : ∀ said' e, post said' (.error e))
    (hok : ∀ said' scheduleId phases answer,
      post (said' ++ [(.scheduleModify scheduleId phases, answer)]) (.ok ())) :
    (scheduleDowngradeAtPeriodEnd rt sub newStripePriceId quantity).Obeys (conversing rt allow)
      post said := by
  have hphases : ∀ newPrice firstItem current, ¬ CurrenciesDiffer sub newPrice →
      subscriptionItem sub = .ok firstItem → readCurrentTerms sub firstItem = .ok current →
      Fallible.Obeys (conversing rt allow) post (do
        let scheduleId ← pinningSchedule rt sub
        let _ ← callStripe rt (.scheduleModify scheduleId
          (downgradePhases current newStripePriceId quantity)))
        (said ++ [(.priceRetrieve newStripePriceId, .ok newPrice)]) := by
    intro newPrice firstItem current hcurrency hitem hcurrent
    rw [Fallible.obeys_bind]
    apply obeys_pinningSchedule (fun _ => hcreate _ _ hcurrency)
    intro created result hcreated
    cases result with
    | error e => exact herror _ e
    | ok scheduleId =>
        apply obeys_callStripe_bind (hmodify _ _ _ _ _ hcurrency hcreated hitem hcurrent)
          (fun e => herror _ e)
        exact fun answer => hok _ _ _ _
  unfold scheduleDowngradeAtPeriodEnd
  apply obeys_lift_bind (fun e => herror _ e)
  intro firstItem hitem
  apply obeys_lift_bind (fun e => herror _ e)
  intro current hcurrent
  apply obeys_callStripe_bind hprice (fun e => herror _ e)
  intro newPrice
  apply obeys_lift_bind (fun e => herror _ e)
  intro new hnew
  dsimp only
  split
  · exact herror _ _
  next hguard =>
    exact hphases _ _ _ (not_currenciesDiffer hitem hcurrent hnew hguard) hitem hcurrent

end Downgrade

/-! ## The conversation of a plan change -/

section PlanChange

variable {rt : Runtime σ} {stripeSubscriptionId newStripePriceId : String} {quantity : Option Int}
  {sub firstItem idValue : Json} {currentQuantity : Int}

theorem seatCount_of_item (hitem : subscriptionItem sub = .ok firstItem)
    (hquantity : itemQuantity firstItem = .ok currentQuantity) :
    seatCount sub = .ok currentQuantity := by
  rw [seatCount, hitem, ok_bind, hquantity]

theorem subscriptionItemId_of_item (hitem : subscriptionItem sub = .ok firstItem)
    (hid : firstItem.item "id" = .ok idValue) : subscriptionItemId sub = .ok idValue.toStr := by
  rw [subscriptionItemId, hitem, ok_bind, hid]
  rfl

theorem attachedSchedule_of_get {existing : Json} (h : safeGet sub "schedule" = .ok existing) :
    attachedSchedule sub = .ok (if existing.truthy then some existing.toStr else none) := by
  rw [attachedSchedule, h]
  rfl

theorem seats_of_omitted (hseats : seatCount sub = .ok currentQuantity)
    (h : quantity = none) : seatCount sub = .ok (quantity.getD currentQuantity) := by
  rw [h]
  exact hseats

theorem obeys_applyImmediatePlanChange {prorate : Bool} {seats : Int}
    (hitem : subscriptionItem sub = .ok firstItem) (hid : firstItem.item "id" = .ok idValue)
    (hseats : quantity = none → seatCount sub = .ok seats) :
    (applyImmediatePlanChange rt sub stripeSubscriptionId idValue.toStr newStripePriceId prorate
      seats).Obeys (conversing rt (PlanStep stripeSubscriptionId newStripePriceId quantity))
      EndsWithChange [(.subscriptionRetrieve stripeSubscriptionId, .ok sub)] := by
  -- the change itself, once the item is known
  have hmodify : ∀ (said : List Exchange) (itemId proration : String),
      PlanStep stripeSubscriptionId newStripePriceId quantity said
        (.subscriptionModify stripeSubscriptionId
          (.item itemId (some newStripePriceId) seats proration)) →
      Fallible.Obeys (conversing rt (PlanStep stripeSubscriptionId newStripePriceId quantity))
        EndsWithChange (do
          let _ ← callStripe rt (.subscriptionModify stripeSubscriptionId
            (.item itemId (some newStripePriceId) seats proration))) said := by
    intro said itemId proration hstep
    apply obeys_callStripe_bind hstep (fun e => nofun)
    exact fun answer _ => ⟨_, List.mem_append_right _ (List.mem_singleton.mpr rfl), rfl⟩
  unfold applyImmediatePlanChange releasedItem
  rw [Fallible.obeys_bind]
  apply obeys_lift_bind (fun e => nofun)
  intro existing hexisting
  have hattached := attachedSchedule_of_get hexisting
  by_cases htruthy : existing.truthy = true
  · rw [if_pos htruthy] at hattached ⊢
    apply obeys_callStripe_bind (.release hattached) (fun e => nofun)
    intro released
    apply obeys_callStripe_bind (.again hattached) (fun e => nofun)
    intro sub'
    apply obeys_lift_bind (fun e => nofun)
    intro firstItem' hitem'
    apply obeys_lift_bind (fun e => nofun)
    intro idValue' hid'
    exact hmodify _ _ _
      (.modifyReleased hattached (subscriptionItemId_of_item hitem' hid') hseats)
  · rw [if_neg htruthy] at hattached ⊢
    exact hmodify _ _ _ (.modify hattached (subscriptionItemId_of_item hitem hid) hseats)

variable (rt stripeSubscriptionId newStripePriceId quantity) in
theorem obeys_changePlan (newPriceAmount : Option Int) (prorate : Bool) :
    (changePlan rt stripeSubscriptionId newStripePriceId newPriceAmount prorate quantity).Obeys
      (conversing rt (PlanStep stripeSubscriptionId newStripePriceId quantity))
      EndsWithChange [] := by
  unfold changePlan
  apply obeys_callStripe_bind .retrieve (fun e => nofun)
  intro sub
  apply obeys_lift_bind (fun e => nofun)
  intro firstItem hitem
  apply obeys_lift_bind (fun e => nofun)
  intro idValue hid
  apply obeys_lift_bind (fun e => nofun)
  intro currentQuantity hquantity
  have hseats := seatCount_of_item hitem hquantity
  apply obeys_lift_bind (fun e => nofun)
  intro downgrade _
  dsimp only
  split
  · apply obeys_scheduleDowngrade .price
    · exact fun newPrice fromSubscription hcurrency => .create hcurrency
    · intro newPrice created scheduleId firstItem' current hcurrency hcreated _ _
      refine .schedule hcurrency hcreated fun homitted phase hphase => ?_
      have hquantity' : phase.quantity = quantity.getD currentQuantity := by
        rw [downgradePhases, List.mem_cons, List.mem_singleton] at hphase
        obtain rfl | rfl := hphase <;> rfl
      rw [hquantity']
      exact seats_of_omitted hseats homitted
    · exact fun _ _ => nofun
    · exact fun _ _ _ _ _ => ⟨_, List.mem_append_right _ (List.mem_singleton.mpr rfl), rfl⟩
  · exact obeys_applyImmediatePlanChange hitem hid (seats_of_omitted hseats)

end PlanChange

/-! ## What is read off the grammar -/

/-- A conversation that changes a plan as it should be changed. -/
structure WellFormedChange (stripeSubscriptionId newStripePriceId : String) (quantity : Option Int)
    (log : List Exchange) (result : Py Unit) : Prop where
  /-- If it is finished, there is one change: at once, or by a schedule. -/
  one_path : result = .ok () → (log.countP fun entry => entry.1.changesPlan) = 1
  /-- Where no quantity is asked for, every item has the seats the subscription had. -/
  seats : quantity = none → ∀ entry ∈ log, ∀ seats ∈ entry.1.seats, ∃ sub rest,
    log = (.subscriptionRetrieve stripeSubscriptionId, .ok sub) :: rest ∧ seatCount sub = .ok seats
  /-- The new price is asked for before a schedule is touched, -/
  priced : ∀ before entry after, log = before ++ entry :: after → entry.1.schedules = true →
    ∃ newPrice, (.priceRetrieve newStripePriceId, .ok newPrice) ∈ before
  /-- and if it has another currency, none is, and the change fails. -/
  guarded : ∀ sub rest newPrice,
    log = (.subscriptionRetrieve stripeSubscriptionId, .ok sub) :: rest →
    (.priceRetrieve newStripePriceId, .ok newPrice) ∈ log → CurrenciesDiffer sub newPrice →
    result ≠ .ok () ∧ ∀ entry ∈ log, entry.1.schedules = false
  /-- The item that is modified is that of the subscription as it was read last, and what
  managed the subscription had been released by then. -/
  item : ∀ before id update answer after,
    log = before ++ (.subscriptionModify id update, answer) :: after →
    ∃ earlier sub itemId seats proration,
      before = earlier ++ [(.subscriptionRetrieve stripeSubscriptionId, .ok sub)] ∧
      subscriptionItemId sub = .ok itemId ∧ id = stripeSubscriptionId ∧
      update = .item itemId (some newStripePriceId) seats proration ∧
      ∀ first rest schedule,
        log = (.subscriptionRetrieve stripeSubscriptionId, .ok first) :: rest →
        attachedSchedule first = .ok (some schedule) →
        ∃ released, (.scheduleRelease schedule, .ok released) ∈ earlier

section Reading

variable {stripeSubscriptionId newStripePriceId : String} {quantity : Option Int}
  {said log before after : List Exchange} {entry : Exchange} {call : StripeCall}

/-- Nothing follows a change of the plan. -/
theorem PlanStep.unchanged (h : PlanStep stripeSubscriptionId newStripePriceId quantity said call) :
    ∀ entry ∈ said, entry.1.changesPlan = false := by
  cases h with
  | schedule hcurrency hcreated hseats =>
      intro entry hmem
      rw [List.mem_cons, List.mem_cons] at hmem
      obtain rfl | rfl | hmem := hmem
      · rfl
      · rfl
      · obtain ⟨fromSubscription, hcall⟩ := hcreated entry hmem
        rw [hcall]
        rfl
  | _ => simp [StripeCall.changesPlan]

/-- A schedule is touched after the price has been asked for, and found fit. -/
theorem PlanStep.checked (h : PlanStep stripeSubscriptionId newStripePriceId quantity said call)
    (hcall : call.schedules = true) :
    ∃ sub newPrice more, said = (.subscriptionRetrieve stripeSubscriptionId, .ok sub) ::
      (.priceRetrieve newStripePriceId, .ok newPrice) :: more ∧ ¬ CurrenciesDiffer sub newPrice := by
  cases h with
  | create hcurrency => exact ⟨_, _, _, rfl, hcurrency⟩
  | schedule hcurrency hcreated hseats => exact ⟨_, _, _, rfl, hcurrency⟩
  | _ => cases hcall

/-- The price is asked for second. -/
theorem PlanStep.second (h : PlanStep stripeSubscriptionId newStripePriceId quantity said
    (.priceRetrieve newStripePriceId)) :
    ∃ sub, said = [(.subscriptionRetrieve stripeSubscriptionId, .ok sub)] := by
  cases h with
  | price => exact ⟨_, rfl⟩

theorem PlanStep.seats (h : PlanStep stripeSubscriptionId newStripePriceId quantity said call)
    (homitted : quantity = none) {seats : Int} (hseats : seats ∈ call.seats) :
    ∃ sub rest, said = (.subscriptionRetrieve stripeSubscriptionId, .ok sub) :: rest ∧
      seatCount sub = .ok seats := by
  cases h with
  | schedule hcurrency hcreated hphases =>
      obtain ⟨phase, hphase, rfl⟩ := List.mem_map.mp hseats
      exact ⟨_, _, rfl, hphases homitted phase hphase⟩
  | modify hfree hitem hmodify =>
      obtain rfl := List.mem_singleton.mp hseats
      exact ⟨_, _, rfl, hmodify homitted⟩
  | modifyReleased hattached hitem hmodify =>
      obtain rfl := List.mem_singleton.mp hseats
      exact ⟨_, _, rfl, hmodify homitted⟩
  | _ => exact absurd hseats List.not_mem_nil

variable (hlog : ∀ before entry after, log = before ++ entry :: after →
  PlanStep stripeSubscriptionId newStripePriceId quantity before entry.1)
include hlog

theorem count_changes (h : ∃ entry ∈ log, entry.1.changesPlan = true) :
    (log.countP fun entry => entry.1.changesPlan) = 1 := by
  obtain ⟨entry, hmem, hchange⟩ := h
  obtain ⟨before, after, rfl⟩ := List.append_of_mem hmem
  have hbefore : (before.countP fun entry => entry.1.changesPlan) = 0 := by
    rw [List.countP_eq_zero]
    intro earlier hearlier
    rw [(hlog before entry after rfl).unchanged earlier hearlier]
    exact Bool.false_ne_true
  have hafter : (after.countP fun entry => entry.1.changesPlan) = 0 := by
    rw [List.countP_eq_zero]
    intro later hlater hlaterChange
    obtain ⟨between, rest, rfl⟩ := List.append_of_mem hlater
    have hstep := hlog (before ++ entry :: between) later rest (by simp)
    have hunchanged := hstep.unchanged entry (List.mem_append_right _ List.mem_cons_self)
    rw [hchange] at hunchanged
    cases hunchanged
  rw [List.countP_append, List.countP_cons, hbefore, hafter, if_pos hchange]

/-- If the currencies differ, no call touches a schedule. -/
theorem untouched_of_differ {sub newPrice : Json} {rest : List Exchange}
    (hfirst : log = (.subscriptionRetrieve stripeSubscriptionId, .ok sub) :: rest)
    (hprice : (.priceRetrieve newStripePriceId, .ok newPrice) ∈ log)
    (hdiffer : CurrenciesDiffer sub newPrice) : ∀ entry ∈ log, entry.1.schedules = false := by
  intro entry hmem
  by_contra hschedules
  obtain ⟨before, after, hsplit⟩ := List.append_of_mem hmem
  obtain ⟨sub', newPrice', more, rfl, hfit⟩ :=
    (hlog before entry after hsplit).checked (Bool.not_eq_false _ ▸ hschedules)
  obtain ⟨before', after', hsplit'⟩ := List.append_of_mem hprice
  obtain ⟨sub'', rfl⟩ := (hlog before' _ after' hsplit').second
  -- all three say how the conversation begins
  have hsame := hfirst.symm.trans hsplit
  have hsame' := hsplit'.symm.trans hsplit
  simp only [List.cons_append, List.nil_append, List.cons.injEq, Prod.mk.injEq, true_and,
    Except.ok.injEq] at hsame hsame'
  obtain ⟨rfl, -⟩ := hsame
  obtain ⟨-, rfl, -⟩ := hsame'
  exact hfit hdiffer

/-- A change at once does not ask for the price. -/
theorem not_modified_of_priced {answer : Py Json}
    (hprice : (.priceRetrieve newStripePriceId, answer) ∈ log) {id : String}
    {update : SubscriptionUpdate} {answer' : Py Json} :
    (.subscriptionModify id update, answer') ∉ log := by
  intro hmodify
  obtain ⟨before, after, hsplit⟩ := List.append_of_mem hprice
  obtain ⟨sub, rfl⟩ := (hlog before _ after hsplit).second
  obtain ⟨before', after', hsplit'⟩ := List.append_of_mem hmodify
  have hsame := hsplit.symm.trans hsplit'
  generalize hcall : StripeCall.subscriptionModify id update = call at hsplit' hsame
  have hstep := hlog before' (call, answer') after' hsplit'
  subst hcall
  -- the second call is the one or the other
  cases hstep with
  | modify hfree hitem hseats => simp at hsame
  | modifyReleased hattached hitem hseats => simp at hsame

theorem modified_item {id : String} {update : SubscriptionUpdate} {answer : Py Json}
    (hsplit : log = before ++ (.subscriptionModify id update, answer) :: after) :
    ∃ earlier sub itemId seats proration,
      before = earlier ++ [(.subscriptionRetrieve stripeSubscriptionId, .ok sub)] ∧
      subscriptionItemId sub = .ok itemId ∧ id = stripeSubscriptionId ∧
      update = .item itemId (some newStripePriceId) seats proration ∧
      ∀ first rest schedule,
        log = (.subscriptionRetrieve stripeSubscriptionId, .ok first) :: rest →
        attachedSchedule first = .ok (some schedule) →
        ∃ released, (.scheduleRelease schedule, .ok released) ∈ earlier := by
  generalize hcall : StripeCall.subscriptionModify id update = call at hsplit
  have hstep := hlog before (call, answer) after hsplit
  subst hcall
  cases hstep with
  | @modify sub itemId seats proration hfree hitem hseats =>
      refine ⟨[], sub, itemId, seats, proration, rfl, hitem, rfl, rfl, ?_⟩
      intro first rest schedule hfirst hattached
      obtain ⟨hsame, -⟩ := List.cons.inj (hsplit.symm.trans hfirst)
      obtain rfl : sub = first := by simpa using hsame
      cases hfree.symm.trans hattached
  | @modifyReleased sub released sub' schedule itemId seats proration hattached hitem hseats =>
      refine ⟨[_, _], sub', itemId, seats, proration, rfl, hitem, rfl, rfl, ?_⟩
      intro first rest schedule' hfirst hattached'
      obtain ⟨hsame, -⟩ := List.cons.inj (hsplit.symm.trans hfirst)
      obtain rfl : sub = first := by simpa using hsame
      obtain rfl : schedule = schedule' := by simpa using hattached.symm.trans hattached'
      exact ⟨released, List.mem_cons_of_mem _ List.mem_cons_self⟩

end Reading

/-- A period field is the item's, or the subscription's where the item has none. -/
inductive PeriodField (sub firstItem : Json) (field : String) (value : Int) : Prop
  | item {found : Json} (h : firstItem.item field = .ok found) (hvalue : found.asInt? = some value)
  | subscription {found : Json}
      (hnone : ∀ missing, firstItem.item field = .ok missing → missing = .null)
      (h : sub.item field = .ok found) (hvalue : found.asInt? = some value)

/-- The phase is the current period of the subscription, with its price and its seats. -/
def ChargedNow (sub : Json) (phase : SchedulePhase) : Prop :=
  ∃ firstItem price priceId periodEnd, subscriptionItem sub = .ok firstItem ∧
    firstItem.item "price" = .ok price ∧ price.item "id" = .ok priceId ∧
    phase.price = priceId.toStr ∧ itemQuantity firstItem = .ok phase.quantity ∧
    PeriodField sub firstItem "current_period_start" phase.startDate ∧
    phase.endDate = some periodEnd ∧ PeriodField sub firstItem "current_period_end" periodEnd

/-- Nothing changes before the end of the period, and from there on what is asked for. -/
def ChangesAtPeriodEnd (sub : Json) (newStripePriceId : String) (quantity : Int)
    (phases : List SchedulePhase) : Prop :=
  ∃ now later, phases = [now, later] ∧ ChargedNow sub now ∧ now.endDate = some later.startDate ∧
    later.price = newStripePriceId ∧ later.quantity = quantity ∧ later.endDate = none

section Phases

variable {sub firstItem : Json} {current : CurrentTerms} {newStripePriceId : String}
  {quantity : Int}

theorem safeGet_eq_ok {value found : Json} {key : String} (h : safeGet value key = .ok found) :
    value.item key = .ok found ∨
      found = .null ∧ ∀ missing, value.item key = .ok missing → missing = .null := by
  unfold safeGet at h
  split at h
  next hnull =>
    refine .inr ⟨(Except.ok.inj h).symm, fun missing hmissing => ?_⟩
    cases value <;> cases hnull
    cases hmissing
  next =>
    cases hitem : value.item key with
    | ok stored =>
        rw [hitem] at h
        exact .inl h
    | error e =>
        rw [hitem] at h
        cases e with
        | keyError key' => exact .inr ⟨(Except.ok.inj h).symm, nofun⟩
        | _ => cases h

/-- An integer is read, of the item or of the subscription. -/
theorem readPeriodField_eq_ok {field : String} {value : Int}
    (h : readPeriodField sub firstItem field = .ok value) :
    ∃ stored found, safeGet firstItem field = .ok stored ∧
      (if stored.isNull then safeGet sub field else .ok stored) = .ok found ∧
      found.asInt? = some value := by
  unfold readPeriodField at h
  obtain ⟨stored, hstored, h⟩ := bind_eq_ok.mp h
  dsimp only at h
  have hfound : ∃ found, (if stored.isNull then safeGet sub field else .ok stored) = .ok found ∧
      found.asInt? = some value := by
    by_cases hnull : stored.isNull = true
    all_goals
      simp only [hnull, if_true, if_false, Bool.false_eq_true] at h ⊢
      obtain ⟨found, hfound, h⟩ := bind_eq_ok.mp h
      refine ⟨found, hfound, ?_⟩
      split at h
      next timestamp hint =>
        obtain rfl := Except.ok.inj h
        exact hint
      next =>
        obtain ⟨id, -, h⟩ := bind_eq_ok.mp h
        cases h
  obtain ⟨found, hfound, hint⟩ := hfound
  exact ⟨stored, found, hstored, hfound, hint⟩

theorem periodField_of_read {field : String} {value : Int}
    (h : readPeriodField sub firstItem field = .ok value) :
    PeriodField sub firstItem field value := by
  obtain ⟨stored, found, hstored, hfound, hvalue⟩ := readPeriodField_eq_ok h
  have hint : found ≠ .null := by
    rintro rfl
    cases hvalue
  obtain hitem | ⟨rfl, hnone⟩ := safeGet_eq_ok hstored
  · split at hfound
    next hnull =>
      have hmissing : ∀ missing, firstItem.item field = .ok missing → missing = .null := by
        intro missing hmissing
        obtain rfl := Except.ok.inj (hitem.symm.trans hmissing)
        cases stored <;> cases hnull
        rfl
      obtain hsub | ⟨hnull', -⟩ := safeGet_eq_ok hfound
      · exact .subscription hmissing hsub hvalue
      · exact absurd hnull' hint
    next =>
      obtain rfl := Except.ok.inj hfound
      exact .item hitem hvalue
  · obtain hsub | ⟨hnull', -⟩ := safeGet_eq_ok hfound
    · exact .subscription hnone hsub hvalue
    · exact absurd hnull' hint

/-- With the seats there are, the first phase is what is charged now. -/
theorem chargedNow_of_read {periodEnd : Option Int} (hitem : subscriptionItem sub = .ok firstItem)
    (hcurrent : readCurrentTerms sub firstItem = .ok current)
    (hseats : itemQuantity firstItem = .ok quantity) (hend : periodEnd = some current.periodEnd) :
    ChargedNow sub ⟨current.priceId, quantity, current.periodStart, periodEnd⟩ := by
  unfold readCurrentTerms at hcurrent
  obtain ⟨periodEnd, hperiodEnd, h⟩ := bind_eq_ok.mp hcurrent
  obtain ⟨periodStart, hperiodStart, h⟩ := bind_eq_ok.mp h
  obtain ⟨price, hprice, h⟩ := bind_eq_ok.mp h
  obtain ⟨priceId, hpriceId, h⟩ := bind_eq_ok.mp h
  obtain ⟨price', hprice', h⟩ := bind_eq_ok.mp h
  obtain ⟨currency, hcurrency, h⟩ := bind_eq_ok.mp h
  cases h
  exact ⟨firstItem, price, priceId, periodEnd, hitem, hprice, hpriceId, rfl, hseats,
    periodField_of_read hperiodStart, hend, periodField_of_read hperiodEnd⟩

theorem ChargedNow.seats {phase : SchedulePhase} (h : ChargedNow sub phase) :
    seatCount sub = .ok phase.quantity := by
  obtain ⟨firstItem, price, priceId, periodEnd, hitem, -, -, -, hseats, -⟩ := h
  exact seatCount_of_item hitem hseats

/-- What is sent for a downgrade: the phases of the subscription that was read. -/
theorem sent_phases {rt : Runtime σ} {w : World σ} {scheduleId : String}
    {phases : List SchedulePhase} {answer : Py Json}
    (hsent : (.scheduleModify scheduleId phases, answer) ∈
      exchanges rt (scheduleDowngradeAtPeriodEnd rt sub newStripePriceId quantity) w) :
    ∃ firstItem current, subscriptionItem sub = .ok firstItem ∧
      readCurrentTerms sub firstItem = .ok current ∧
      phases = downgradePhases current newStripePriceId quantity := by
  have hobeys : (scheduleDowngradeAtPeriodEnd rt sub newStripePriceId quantity).Obeys
      (conversing rt fun _ call => ∀ scheduleId phases, call = .scheduleModify scheduleId phases →
        ∃ firstItem current, subscriptionItem sub = .ok firstItem ∧
          readCurrentTerms sub firstItem = .ok current ∧
          phases = downgradePhases current newStripePriceId quantity) (fun _ _ => True) [] := by
    apply obeys_scheduleDowngrade nofun
    · exact fun _ _ _ => nofun
    · intro newPrice created scheduleId firstItem current _ _ hitem hcurrent scheduleId' phases hcall
      cases hcall
      exact ⟨firstItem, current, hitem, hcurrent, rfl⟩
    · exact fun _ _ => trivial
    · exact fun _ _ _ _ => trivial
  obtain ⟨before, after, hsplit⟩ := List.append_of_mem hsent
  exact allowed_of_exchanges hobeys hsplit scheduleId phases rfl

end Phases

/-- A subscription with five seats, in its period. -/
def fiveSeats : Json :=
  .obj [("id", .str "sub_1"), ("schedule", .str "sub_sched_1"),
    ("items", .obj [("data", .arr [.obj [("id", .str "si_1"), ("quantity", .int 5),
      ("price", .obj [("id", .str "price_pro"), ("currency", .str "usd")]),
      ("current_period_start", .int 100), ("current_period_end", .int 200)]])])]

/-- Prices are in USD, and schedules can be modified. -/
def acceptsSchedules : StripeCall → Py Json
  | .priceRetrieve id => .ok (.obj [("id", .str id), ("currency", .str "usd")])
  | .scheduleModify id _ => .ok (.obj [("id", .str id)])
  | _ => .error (.connection "connection refused")

/-- The phases, for a number of seats. -/
def proToBasic (quantity : Int) : List SchedulePhase :=
  [⟨"price_pro", quantity, 100, some 200⟩, ⟨"price_basic", quantity, 200, none⟩]

theorem sent_fiveSeats (quantity : Int) :
    (StripeCall.scheduleModify "sub_sched_1" (proToBasic quantity),
        (.ok (.obj [("id", .str "sub_sched_1")]) : Py Json)) ∈
      exchanges (sampleRuntime acceptsSchedules 0 0)
        (scheduleDowngradeAtPeriodEnd (sampleRuntime acceptsSchedules 0 0) fiveSeats "price_basic"
          quantity) sampleWorld := by
  exact List.mem_cons_of_mem _ List.mem_cons_self

end Saasmint
