import Saasmint.Data.World

/-!
# Deleting an org

`_delete_org_db_only` and the task that runs it after a team subscription has
ended.  Deleting a user or an org deletes what refers to it, in the order the
models declare: customers take their subscriptions along, and the creator of an
org or of an invitation is only cleared.
-/

namespace Saasmint

open Relational Handler

variable {σ : Type}

namespace Tables

/-- Deletes the selected customers and, with them, their subscriptions. -/
def deleteCustomers (t : Tables) (gone : StripeCustomer → Bool) : Tables :=
  let ids := (t.customers.filter gone).map StripeCustomer.id
  { t with
    customers := t.customers.delete gone
    subscriptions := t.subscriptions.delete fun s => s.stripeCustomerId.any ids.contains }

/-- `User.objects.filter(id__in=ids).delete()`. -/
def deleteUsers (t : Tables) (ids : List UUID) : Tables :=
  let gone (id : Option UUID) : Bool := id.any ids.contains
  let keep (id : Option UUID) : Option UUID := if gone id then none else id
  let t := t.deleteCustomers fun c => gone c.userId
  { t with
    users := t.users.delete fun u => ids.contains u.id
    subscriptions := t.subscriptions.delete fun s => gone s.userId
    members := t.members.delete fun m => ids.contains m.userId
    orgs := t.orgs.rewrite (fun o => { o with createdById := keep o.createdById })
      (fun _ h => h) (fun _ _ h => h)
    invitations := t.invitations.rewrite (fun i => { i with invitedById := keep i.invitedById })
      (fun _ h => h) (fun _ _ h => h)
    creditBalances := t.creditBalances.delete fun b => gone b.userId
    creditTransactions := t.creditTransactions.delete fun c => gone c.userId }

/-- `org.delete()`. -/
def deleteOrg (t : Tables) (orgId : UUID) : Tables :=
  let t := t.deleteCustomers fun c => c.orgId == some orgId
  { t with
    orgs := t.orgs.delete fun o => o.id == orgId
    members := t.members.delete fun m => m.orgId == orgId
    invitations := t.invitations.delete fun i => i.orgId == orgId
    creditBalances := t.creditBalances.delete fun b => b.orgId == some orgId
    creditTransactions := t.creditTransactions.delete fun c => c.orgId == some orgId }

/-- Pending invitations of the org become cancelled ones. -/
def cancelInvitations (t : Tables) (orgId : UUID) : Tables :=
  { t with
    invitations := t.invitations.rewrite
      (fun i => if i.orgId = orgId ∧ i.status = .pending then { i with status := .cancelled }
        else i)
      (fun _ _ => trivial)
      (fun a b h => by
        rcases h with h | h | ⟨ha, hb, horg, hemail⟩
        · refine Or.inl ?_
          split at h <;> split at h <;> exact h
        · refine Or.inr (Or.inl ?_)
          split at h <;> split at h <;> exact h
        · split at ha
          next => cases ha
          next hna =>
              split at hb
              next => cases hb
              next hnb =>
                  rw [if_neg hna, if_neg hnb] at horg hemail
                  exact Or.inr (Or.inr ⟨ha, hb, horg, hemail⟩)) }

/-- `_personal_subs_outer_ref_qs`: the user is paying for a plan of their own. -/
def hasPersonalSub (t : Tables) (userId : UUID) : Bool :=
  t.subscriptions.rows.any fun s => s.userId == some userId && s.status.isActive &&
    t.customers.rows.any fun c => s.stripeCustomerId == some c.id && c.userId == some userId

/-- The members of the org with no other membership and no personal subscription. -/
def deletableUserIds (t : Tables) (orgId : UUID) : List UUID :=
  ((t.members.filter fun m => m.orgId == orgId).map OrgMember.userId).filter fun userId =>
    !(t.members.rows.any fun m => m.userId == userId && m.orgId != orgId) &&
      !t.hasPersonalSub userId

end Tables

/-- `_delete_org_db_only`. -/
def deleteOrgDbOnly (db : Db) (orgId : UUID) : Py Db :=
  let t := db.toTables.cancelInvitations orgId
  Db.commit ((t.deleteUsers (t.deletableUserIds orgId)).deleteOrg orgId)

/-- `delete_org_on_subscription_cancel_task`; an org that is gone is no error. -/
def deleteOrgOnSubscriptionCancelTask (orgId : UUID) : Handler σ Unit := do
  let some org ← query fun db => db.orgById orgId | return
  transaction fun db => (fun db => ((), db)) <$> deleteOrgDbOnly db org.id

/-- Cancels one after the other and collects the failures; a subscription that is
gone already is none. -/
def cancelStripeSubs (rt : Runtime σ) : List String → Handler σ (List PyError)
  | [] => return []
  | subId :: rest => do
      let failures ← tryCatch (do let _ ← callStripe rt (.subscriptionCancel subId); return [])
        fun
        | .stripe (some "resource_missing") _ => return []
        | .stripe code message => return [.stripe code message]
        | e => throw e
      return failures ++ (← cancelStripeSubs rt rest)

/-- `cancel_stripe_subs_task`. -/
def cancelStripeSubsTask (rt : Runtime σ) (stripeSubIds : List String) : Handler σ Unit := do
  match ← cancelStripeSubs rt stripeSubIds with
  | [] => return
  | failure :: _ => throw failure

end Saasmint
