import Saasmint.Orgs.Creation

/-!
# What a checkout session asks for

`_on_checkout_completed` decodes a session and calls at most one of two
callbacks.  `readCheckout` is the decoding alone, and `onCheckoutCompleted_eq`
says that the handler is that decoding followed by the callback.
-/

namespace Saasmint

open Atomic Handler

variable {σ : Type}

/-- What `_on_product_checkout_completed` passes on. -/
structure ProductCheckout where
  stripeSessionId : String
  productId : UUID
  userId : UUID
  orgId : Option UUID
deriving DecidableEq

def ProductCheckout.handle (rt : Runtime σ) (c : ProductCheckout) : Handler σ Unit :=
  onProductCheckoutCompleted rt c.stripeSessionId c.productId c.userId c.orgId

/-- The session is one of a product purchase, with these contents. -/
def readProductCheckout (sessionData : Json) : Py (Option ProductCheckout) := do
  let sessionId ← sessionData.get "id"
  if !sessionId.truthy then return none
  let metadata := (← sessionData.get "metadata").orElse (.obj [])
  let productRef ← metadata.get "product_id"
  if !productRef.truthy then return none
  let clientRef ← sessionData.get "client_reference_id"
  if !clientRef.truthy then return none
  let some productId ← uuidOrMalformed productRef | return none
  let some userId ← uuidOrMalformed clientRef | return none
  let orgRef ← metadata.get "org_id"
  if orgRef.truthy then
    let some orgId ← uuidOrMalformed orgRef | return none
    return some { stripeSessionId := sessionId.toStr, productId, userId, orgId := some orgId }
  else return some { stripeSessionId := sessionId.toStr, productId, userId, orgId := none }

/-- The callbacks of a completed checkout, with their arguments. -/
inductive Callback
  | team (c : TeamCheckout)
  | product (c : ProductCheckout)
deriving DecidableEq

def Callback.handle (rt : Runtime σ) : Callback → Handler σ Unit
  | team c => c.handle rt
  | product c => c.handle rt

/-- The callback a session leads to, if any. -/
def readCheckout (sessionData : Json) : Py (Option Callback) := do
  let mode ← sessionData.get "mode"
  if mode.isStr "payment" then (Option.map .product) <$> readProductCheckout sessionData
  else (Option.map .team) <$> readTeamCheckout sessionData

theorem productCheckoutCompleted_eq (rt : Runtime σ) (sessionData : Json) :
    productCheckoutCompleted rt sessionData = (do
      match ← lift (readProductCheckout sessionData) with
      | none => return
      | some c => c.handle rt) := by
  unfold productCheckoutCompleted readProductCheckout
  rcases sessionData.get "id" with e | sessionId
  · rfl
  simp only [lift_ok_bind, ok_bind]
  split
  · rfl
  rcases sessionData.get "metadata" with e | metadata
  · rfl
  simp only [lift_ok_bind, ok_bind]
  rcases (metadata.orElse (.obj [])).get "product_id" with e | productRef
  · rfl
  simp only [lift_ok_bind, ok_bind]
  split
  · rfl
  rcases sessionData.get "client_reference_id" with e | clientRef
  · rfl
  simp only [lift_ok_bind, ok_bind]
  split
  · rfl
  rcases uuidOrMalformed productRef with e | _ | productId
  · rfl
  · rfl
  simp only [lift_ok_bind, ok_bind]
  rcases uuidOrMalformed clientRef with e | _ | userId
  · rfl
  · rfl
  simp only [lift_ok_bind, ok_bind]
  rcases (metadata.orElse (.obj [])).get "org_id" with e | orgRef
  · rfl
  simp only [lift_ok_bind, ok_bind]
  split
  · rcases uuidOrMalformed orgRef with e | _ | orgId
    · rfl
    · rfl
    · rfl
  · rfl

theorem subscriptionCheckout_eq (rt : Runtime σ) {sessionData mode : Json}
    (hmode : sessionData.get "mode" = .ok mode) (hsubscription : ¬ mode.isStr "payment" = true) :
    (do
      let metadata := (← lift (sessionData.get "metadata")).orElse (.obj [])
      let orgName ← lift (metadata.get "org_name")
      if !orgName.truthy then return
      let clientRef ← lift (sessionData.get "client_reference_id")
      if !clientRef.truthy then return
      let userId ← lift (uuidOf clientRef)
      let stripeCustomerId ← lift (sessionData.get "customer")
      if !stripeCustomerId.truthy then return
      let subscriptionId ← lift (sessionData.get "subscription")
      let livemode ← lift (sessionData.getD "livemode" (.bool false))
      let keepPersonalSubscription :=
        (← lift (metadata.get "keep_personal_subscription")).isStr "true"
      onTeamCheckoutCompleted rt userId orgName.toStr stripeCustomerId.toStr livemode.truthy
        (if subscriptionId.isNull then none else some subscriptionId.toStr)
        keepPersonalSubscription) = (do
      match ← lift (Option.map Callback.team <$> readTeamCheckout sessionData) with
      | none => return
      | some callback => callback.handle rt) := by
  unfold readTeamCheckout
  rw [hmode]
  simp only [ok_bind, if_neg hsubscription]
  rcases sessionData.get "metadata" with e | metadata
  · rfl
  simp only [lift_ok_bind, ok_bind]
  rcases (metadata.orElse (.obj [])).get "org_name" with e | orgName
  · rfl
  simp only [lift_ok_bind, ok_bind]
  split
  · rfl
  rcases sessionData.get "client_reference_id" with e | clientRef
  · rfl
  simp only [lift_ok_bind, ok_bind]
  split
  · rfl
  rcases uuidOf clientRef with e | userId
  · rfl
  rcases sessionData.get "customer" with e | customer
  · rfl
  simp only [lift_ok_bind, ok_bind]
  split
  · rfl
  rcases sessionData.get "subscription" with e | subscription
  · rfl
  rcases sessionData.getD "livemode" (.bool false) with e | livemode
  · rfl
  rcases (metadata.orElse (.obj [])).get "keep_personal_subscription" with e | keep
  · rfl
  · rfl

theorem onCheckoutCompleted_eq (rt : Runtime σ) (sessionData : Json) :
    onCheckoutCompleted rt sessionData = (do
      match ← lift (readCheckout sessionData) with
      | none => return
      | some callback => callback.handle rt) := by
  unfold onCheckoutCompleted readCheckout
  rcases hmode : sessionData.get "mode" with e | mode
  · rfl
  simp only [lift_ok_bind, ok_bind]
  by_cases hpayment : mode.isStr "payment" = true
  · rw [if_pos hpayment, if_pos hpayment, productCheckoutCompleted_eq]
    rcases readProductCheckout sessionData with e | _ | c
    · rfl
    · rfl
    · rfl
  · rw [if_neg hpayment, if_neg hpayment]
    exact subscriptionCheckout_eq rt hmode hpayment

end Saasmint
