import Saasmint.Billing.PlanChanges

/-!
# The two readers of the billing period

The mirror reads the period of a subscription with `_extract_period_window`, the
downgrade scheduler with `_read_period_field`, once for each end.  Both look at the item
first and fall back to the subscription.  They part where the item has the key with a
null: for the mirror the null is the item's value, for the scheduler there is none.

`SubscriptionPayload.period` says what both should read.  `readPeriod_toOption` and
`extractPeriodWindow_toOption` say what they do read.
-/

namespace Saasmint

/-- A subscription of Stripe, with its first item. -/
structure SubscriptionPayload where
  fields : List (String × Json)
  firstItem : List (String × Json)
  first : subscriptionItem (.obj fields) = .ok (.obj firstItem)

namespace SubscriptionPayload

variable (payload : SubscriptionPayload)

def sub : Json := .obj payload.fields

def item : Json := .obj payload.firstItem

/-- The item's value, unless that is missing or null; otherwise the subscription's. -/
def periodValue (field : String) : Json :=
  match (payload.firstItem.lookup field).filter fun value => !value.isNull with
  | some value => value
  | none => (payload.fields.lookup field).getD .null

/-- The start and the end of the period, if both are integers. -/
def period : Option (Int × Int) :=
  (payload.periodValue "current_period_start").asInt?.bind fun periodStart =>
    (payload.periodValue "current_period_end").asInt?.map fun periodEnd => (periodStart, periodEnd)

/-- The item has the key, with a null. -/
def NullAtItem (field : String) : Prop :=
  (payload.firstItem.lookup field).any Json.isNull = true

instance (field : String) : Decidable (payload.NullAtItem field) :=
  inferInstanceAs (Decidable (_ = true))

end SubscriptionPayload

/-- The period as `_schedule_downgrade_at_period_end` reads it. -/
def readPeriod (sub firstItem : Json) : Py (Int × Int) := do
  let periodEnd ← readPeriodField sub firstItem "current_period_end"
  let periodStart ← readPeriodField sub firstItem "current_period_start"
  return (periodStart, periodEnd)

/-- Both readers read the period, or both fail because there is none. -/
structure PeriodReadersAgree (payload : SubscriptionPayload) (stripeSubId : String) : Prop where
  mirror : (extractPeriodWindow payload.sub payload.item stripeSubId).toOption = payload.period
  scheduler : (readPeriod payload.sub payload.item).toOption = payload.period

variable {payload : SubscriptionPayload} {field stripeSubId : String}

/-! ## The scheduler -/

theorem safeGet_obj (fields : List (String × Json)) :
    safeGet (.obj fields) field = .ok ((fields.lookup field).getD .null) := by
  have hnull : ¬ (Json.obj fields).isNull = true := Bool.false_ne_true
  unfold safeGet Json.item
  rw [if_neg hnull]
  dsimp only
  cases fields.lookup field <;> rfl

theorem Json.isNull_eq_true {value : Json} : value.isNull = true ↔ value = .null := by
  cases value <;> simp [Json.isNull]

theorem periodValue_of_null (h : ((payload.firstItem.lookup field).getD .null).isNull = true) :
    payload.periodValue field = (payload.fields.lookup field).getD .null := by
  unfold SubscriptionPayload.periodValue
  cases hitem : payload.firstItem.lookup field with
  | none => rfl
  | some value =>
      rw [hitem, Option.getD_some] at h
      rw [Option.filter_some, h]
      rfl

theorem periodValue_of_not_null
    (h : ((payload.firstItem.lookup field).getD .null).isNull = false) :
    payload.periodValue field = (payload.firstItem.lookup field).getD .null := by
  unfold SubscriptionPayload.periodValue
  cases hitem : payload.firstItem.lookup field with
  | none =>
      rw [hitem] at h
      cases h
  | some value =>
      rw [hitem, Option.getD_some] at h
      rw [Option.filter_some, h]
      rfl

/-- One field, as the scheduler reads it. -/
theorem readPeriodField_toOption :
    (readPeriodField payload.sub payload.item field).toOption =
      (payload.periodValue field).asInt? := by
  unfold readPeriodField SubscriptionPayload.item SubscriptionPayload.sub
  rw [safeGet_obj, ok_bind]
  dsimp only
  cases hnull : ((payload.firstItem.lookup field).getD .null).isNull with
  | true =>
      rw [periodValue_of_null hnull, if_pos rfl, safeGet_obj, ok_bind]
      cases ((payload.fields.lookup field).getD .null).asInt? with
      | some timestamp => rfl
      | none => cases (Json.obj payload.fields).item "id" <;> rfl
  | false =>
      rw [periodValue_of_not_null hnull, if_neg Bool.false_ne_true, pure_eq_ok, ok_bind]
      cases ((payload.firstItem.lookup field).getD .null).asInt? with
      | some timestamp => rfl
      | none => cases (Json.obj payload.fields).item "id" <;> rfl

theorem readPeriod_toOption :
    (readPeriod payload.sub payload.item).toOption = payload.period := by
  have hstart : _ = (payload.periodValue "current_period_start").asInt? := readPeriodField_toOption
  have hend : _ = (payload.periodValue "current_period_end").asInt? := readPeriodField_toOption
  unfold readPeriod SubscriptionPayload.period
  rw [← hstart, ← hend]
  cases readPeriodField payload.sub payload.item "current_period_end" with
  | error e => cases readPeriodField payload.sub payload.item "current_period_start" <;> rfl
  | ok periodEnd => cases readPeriodField payload.sub payload.item "current_period_start" <;> rfl

/-! ## The mirror -/

/-- A field as the mirror reads it. -/
theorem mirrorField_eq (h : ¬ payload.NullAtItem field) :
    (payload.firstItem.lookup field).getD ((payload.fields.lookup field).getD .null) =
      payload.periodValue field := by
  unfold SubscriptionPayload.NullAtItem at h
  unfold SubscriptionPayload.periodValue
  cases hitem : payload.firstItem.lookup field with
  | none => rfl
  | some value =>
      rw [hitem, Option.any_some, Bool.not_eq_true] at h
      rw [Option.filter_some, h]
      rfl

theorem mirrorField_of_null (h : payload.NullAtItem field) :
    (payload.firstItem.lookup field).getD ((payload.fields.lookup field).getD .null) = .null := by
  unfold SubscriptionPayload.NullAtItem at h
  cases hitem : payload.firstItem.lookup field with
  | none =>
      rw [hitem] at h
      cases h
  | some value =>
      rw [hitem, Option.any_some, Json.isNull_eq_true] at h
      rw [h]
      rfl

theorem asInt?_of_isNull {value : Json} (h : value.isNull = true) : value.asInt? = none := by
  rw [Json.isNull_eq_true.mp h]
  rfl

/-- What the mirror makes of the values it has found. -/
theorem extractPeriodWindow_eq {fields firstItem : List (String × Json)} {periodStart periodEnd : Json}
    (hstart : (firstItem.lookup "current_period_start").getD
      ((fields.lookup "current_period_start").getD .null) = periodStart)
    (hend : (firstItem.lookup "current_period_end").getD
      ((fields.lookup "current_period_end").getD .null) = periodEnd) :
    (extractPeriodWindow (.obj fields) (.obj firstItem) stripeSubId).toOption =
      periodStart.asInt?.bind fun s => periodEnd.asInt?.map fun e => (s, e) := by
  unfold extractPeriodWindow Json.get Json.getD
  simp only [ok_bind, hstart, hend]
  cases hnullStart : periodStart.isNull with
  | true =>
      rw [asInt?_of_isNull hnullStart]
      rfl
  | false =>
      cases hnullEnd : periodEnd.isNull with
      | true =>
          rw [asInt?_of_isNull hnullEnd]
          cases periodStart.asInt? <;> rfl
      | false =>
          cases periodStart.asInt? with
          | none => rfl
          | some s => cases periodEnd.asInt? <;> rfl

/-- The mirror reads the period unless the item has a null for one of its ends. -/
theorem extractPeriodWindow_toOption :
    (extractPeriodWindow payload.sub payload.item stripeSubId).toOption =
      if payload.NullAtItem "current_period_start" ∨ payload.NullAtItem "current_period_end" then none
      else payload.period := by
  refine (extractPeriodWindow_eq rfl rfl).trans ?_
  split
  next hnull =>
      rcases hnull with hstart | hend
      · rw [mirrorField_of_null hstart]
        rfl
      · rw [mirrorField_of_null hend]
        cases Json.asInt? _ <;> rfl
  next hnull =>
      rw [not_or] at hnull
      rw [mirrorField_eq hnull.1, mirrorField_eq hnull.2]
      rfl

/-! ## Both -/

/-- **The readers agree** on a payload exactly if it has no period, or its item has no null
for an end of it. -/
theorem periodReadersAgree_iff (payload : SubscriptionPayload) (stripeSubId : String) :
    PeriodReadersAgree payload stripeSubId ↔
      payload.period = none ∨ (¬ payload.NullAtItem "current_period_start" ∧
        ¬ payload.NullAtItem "current_period_end") := by
  constructor
  · intro h
    have hmirror := h.mirror
    rw [extractPeriodWindow_toOption] at hmirror
    split at hmirror
    next => exact Or.inl hmirror.symm
    next hnull => exact Or.inr (not_or.mp hnull)
  · intro h
    refine ⟨?_, readPeriod_toOption⟩
    rw [extractPeriodWindow_toOption]
    split
    next hnull => exact (h.resolve_right fun hnot => (not_or.mpr hnot) hnull).symm
    next => rfl

/-- A payload of the older kind whose item spells out a null. -/
def nullStartPayload : SubscriptionPayload where
  fields := [("id", .str "sub_1"), ("current_period_start", .int 1700000000),
    ("items", .obj [("data", .arr [.obj [("current_period_start", .null),
      ("current_period_end", .int 1702592000)]])])]
  firstItem := [("current_period_start", .null), ("current_period_end", .int 1702592000)]
  first := rfl

theorem not_periodReadersAgree : ¬ PeriodReadersAgree nullStartPayload "sub_1" := by
  intro h
  have hmirror : none = some ((1700000000 : Int), (1702592000 : Int)) := h.mirror
  cases hmirror

end Saasmint
