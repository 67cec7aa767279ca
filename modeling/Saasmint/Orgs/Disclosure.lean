import Saasmint.Catalog.Deployment
import Saasmint.Library.Isolation
import Saasmint.Orgs.Reads

/-!
# What is disclosed to whom

`LooksSame` says when two databases look the same to a caller: the ids that orgs have, the
caller's own memberships, credits and subscription, the catalog, and of the orgs in which they
have been found what a member sees, or an administrator.  Of an invitation, whoever holds its
token sees all but the address.

Being found is an event of the request: the membership is looked up first, and may be gone
when the list is read.  A caller's `Standing` is what the queries of the request have come
across so far, and `reads_isolated` is the isolation of the orgs in these terms: in any two
runs, whatever else happens in them, a request is answered alike if each of its queries finds
databases that look the same.
-/

namespace Saasmint

open Atomic Relational
open RateSync (FloatArithmetic)

variable {σ F : Type}

/-! ## Who is where -/

/-- The orgs in which a caller has been found, and those they have been found to administer. -/
structure Standing where
  member : UUID → Prop
  admin : UUID → Prop

/-- Nothing has been looked up. -/
def Standing.start : Standing := ⟨fun _ => False, fun _ => False⟩

/-- After a query that finds the database. -/
def Standing.after (k : Standing) (userId : UUID) (db : Db) : Standing where
  member orgId := k.member orgId ∨ ∃ m ∈ db.members.rows, m.orgId = orgId ∧ m.userId = userId
  admin orgId := k.admin orgId ∨
    ∃ m ∈ db.members.rows, m.orgId = orgId ∧ m.userId = userId ∧ m.role ∈ adminOrAbove

/-! ## What they see -/

/-- All that a list of invitations shows of a row. -/
def Invitation.hidden (i : Invitation) : Invitation := { i with token := "" }

/-- All that is shown of a subscription. -/
def Subscription.hidden (s : Subscription) : Subscription :=
  { s with stripeId := none, stripeCustomerId := none, userId := none }

def Db.shown (db : Db) (s : Subscription) : Subscription × Option ℕ := (s.hidden, db.seatsUsed s)

def Db.orgEntry (db : Db) (orgId : UUID) : Option OrgEntry := (db.orgById orgId).map OrgEntry.of

def Db.memberUser (db : Db) (userId : UUID) : Option MemberUserEntry :=
  (db.userById userId).map MemberUserEntry.of

def Db.sender (db : Db) (i : Invitation) : Option InvitedByEntry :=
  (i.invitedById.bind db.userById).map InvitedByEntry.of

/-- What the holder of a token is shown. -/
def Db.offer (db : Db) (token : String) : Option PublicInvitationEntry :=
  ((db.pendingByToken token).bind db.withSender).map fun (i, org, invitedBy) =>
    .of i org invitedBy

/-- The catalogs are the same. -/
structure SameCatalog (db db' : Db) : Prop where
  plans : db.plans = db'.plans
  planPrices : db.planPrices = db'.planPrices
  localizedPrices : db.localizedPrices = db'.localizedPrices

/-- The databases look the same to a caller of this standing who holds these tokens. -/
structure LooksSame (userId : UUID) (tokens : List String) (k : Standing) (db db' : Db) : Prop where
  /-- A request for an org is refused in one way if there is the org, in another if not. -/
  exist : ∀ orgId, (db.orgById orgId).isSome = (db'.orgById orgId).isSome
  memberships : (db.members.filter fun m => m.userId == userId) =
    db'.members.filter fun m => m.userId == userId
  orgs : (db.orgsOf userId).map OrgEntry.of = (db'.orgsOf userId).map OrgEntry.of
  credits : db.credits ⟨some userId, none⟩ = db'.credits ⟨some userId, none⟩
  personal : (Db.latest? (db.personalSubscriptions userId)).map db.shown =
    (Db.latest? (db'.personalSubscriptions userId)).map db'.shown
  catalog : SameCatalog db db'
  offers : ∀ token ∈ tokens, db.offer token = db'.offer token
  org : ∀ orgId, k.member orgId → db.orgEntry orgId = db'.orgEntry orgId
  members : ∀ orgId, k.member orgId → db.membersOf orgId = db'.membersOf orgId
  users : ∀ orgId, k.member orgId → ∀ m ∈ db.membersOf orgId,
    db.memberUser m.userId = db'.memberUser m.userId
  orgCredits : ∀ orgId, k.member orgId →
    db.credits ⟨none, some orgId⟩ = db'.credits ⟨none, some orgId⟩
  team : ∀ orgId, k.member orgId → (Db.latest? (db.activeTeamSubs orgId)).map db.shown =
    (Db.latest? (db'.activeTeamSubs orgId)).map db'.shown
  pending : ∀ orgId, k.admin orgId →
    (db.pendingOf orgId).map Invitation.hidden = (db'.pendingOf orgId).map Invitation.hidden
  senders : ∀ orgId, k.admin orgId → ∀ i ∈ db.pendingOf orgId, db.sender i = db'.sender i

/-- A caller with the tokens, who learns from the databases they find. -/
def onlooker (userId : UUID) (tokens : List String) : Reader Standing (World σ) where
  learn k w := k.after userId w.db
  same k w w' := LooksSame userId tokens k w.db w'.db

/-! ## Rows that look the same -/

section Rows

variable {α β γ : Type}

/-- What is made of rows depends on what is seen of them. -/
theorem filterMap_eq_of_map_eq {seen : α → γ} {f g : α → Option β} {xs ys : List α}
    (h : xs.map seen = ys.map seen)
    (hsame : ∀ x ∈ xs, ∀ y ∈ ys, seen x = seen y → f x = g y) :
    xs.filterMap f = ys.filterMap g := by
  induction xs generalizing ys with
  | nil =>
      cases ys with
      | nil => rfl
      | cons y ys => cases h
  | cons x xs ih =>
      cases ys with
      | nil => cases h
      | cons y ys =>
          obtain ⟨hhead, htail⟩ := List.cons.inj h
          have hrest : xs.filterMap f = ys.filterMap g := ih htail fun a ha b hb =>
            hsame a (List.mem_cons_of_mem _ ha) b (List.mem_cons_of_mem _ hb)
          rw [List.filterMap_cons, List.filterMap_cons, hrest,
            hsame x List.mem_cons_self y List.mem_cons_self hhead]

theorem map_page {seen : α → γ} {xs ys : List α} (h : xs.map seen = ys.map seen) (start size : ℕ) :
    ((xs.drop start).take size).map seen = ((ys.drop start).take size).map seen := by
  rw [List.map_take, List.map_drop, h, List.map_take, List.map_drop]

end Rows

section Looking

variable {userId orgId : UUID} {tokens : List String} {k : Standing} {db db' : Db}

theorem LooksSame.memberOf (h : LooksSame userId tokens k db db') :
    db.memberOf orgId userId = db'.memberOf orgId userId := by
  have hfind : ∀ db : Db, db.memberOf orgId userId =
      (db.members.filter fun m => m.userId == userId).find? fun m => m.orgId == orgId := by
    intro db
    unfold Db.memberOf Table.find? Table.filter
    rw [List.find?_filter]
    congr 1
    funext m
    rw [Bool.and_comm, Bool.decide_and, Bool.decide_eq_true, Bool.decide_eq_true]
  rw [hfind, hfind, h.memberships]

theorem LooksSame.firstMembership (h : LooksSame userId tokens k db db') :
    db.firstMembership userId = db'.firstMembership userId := by
  unfold Db.firstMembership
  rw [h.memberships]

/-- The members with their users, as they are shown. -/
theorem LooksSame.membersWithUsers (h : LooksSame userId tokens k db db') (horg : k.member orgId) :
    ((db.membersWithUsers orgId).map fun p => (p.1, MemberUserEntry.of p.2)) =
      (db'.membersWithUsers orgId).map fun p => (p.1, MemberUserEntry.of p.2) := by
  unfold Db.membersWithUsers
  rw [List.map_filterMap, List.map_filterMap, h.members orgId horg]
  refine List.filterMap_congr fun m hm => ?_
  have huser := h.users orgId horg m (h.members orgId horg ▸ hm)
  unfold Db.memberUser at huser
  have hpair : ∀ user : Option User,
      (user.map fun user => (m, user)).map (fun p => (p.1, MemberUserEntry.of p.2)) =
        (user.map MemberUserEntry.of).map fun entry => (m, entry) := by
    intro user
    cases user <;> rfl
  rw [hpair, hpair, huser]

/-- The invitations with their orgs and senders, as they are shown. -/
theorem LooksSame.invitations (h : LooksSame userId tokens k db db') (horg : k.member orgId)
    (hadmin : k.admin orgId) :
    (((db.pendingOf orgId).filterMap db.withSender).map fun (i, org, invitedBy) =>
      InvitationEntry.of i org invitedBy) =
      ((db'.pendingOf orgId).filterMap db'.withSender).map fun (i, org, invitedBy) =>
        InvitationEntry.of i org invitedBy := by
  rw [List.map_filterMap, List.map_filterMap]
  refine filterMap_eq_of_map_eq (h.pending orgId hadmin) fun i hi i' hi' hseen => ?_
  have hsender := h.senders orgId hadmin i hi
  have hentry := h.org orgId horg
  have horg_i : i.orgId = orgId :=
    beq_iff_eq.mp (Bool.and_eq_true_iff.mp (List.mem_filter.mp hi).2).1
  simp only [Invitation.hidden, Invitation.mk.injEq] at hseen
  obtain ⟨hid, horgs, hemail, hrole, -, hstatus, hinvited, hcreated, hexpires⟩ := hseen
  unfold Db.sender at hsender
  unfold Db.orgEntry at hentry
  rw [hinvited] at hsender
  unfold Db.withSender
  rw [← horgs, horg_i, hinvited]
  have hshow : ∀ (j : Invitation) (org : Option Org) (invitedBy : Option User),
      ((org.map fun org => (j, org, invitedBy)).map fun (i, org, invitedBy) =>
        InvitationEntry.of i org invitedBy) =
        (org.map OrgEntry.of).map fun entry => (⟨⟨j.id, entry, j.role, j.status,
          invitedBy.map InvitedByEntry.of, j.createdAt, j.expiresAt⟩, j.email⟩ :
            InvitationEntry) := by
    intro j org invitedBy
    cases org <;> rfl
  rw [hshow, hshow, hentry, hsender, hid, hemail, hrole, hstatus, hcreated, hexpires]

/-! ### Credits -/

theorem entries_congr {scope : CreditScope}
    (huser : db.credits ⟨some scope.userId, none⟩ = db'.credits ⟨some scope.userId, none⟩)
    (horg : ∀ orgId, scope.orgId = some orgId →
      db.credits ⟨none, some orgId⟩ = db'.credits ⟨none, some orgId⟩)
    (hteam : scope.context = some .team → scope.orgId ≠ none) :
    scope.entries (db.creditRows scope) = scope.entries (db'.creditRows scope) := by
  unfold CreditScope.entries
  rw [userBalance_eq, userBalance_eq, huser]
  cases hcontext : scope.context with
  | none =>
      cases hscope : scope.orgId with
      | none => rfl
      | some orgId =>
          have hbalance := orgBalance_eq db hscope (by simp [hcontext])
          have hbalance' := orgBalance_eq db' hscope (by simp [hcontext])
          rw [hscope] at hbalance hbalance'
          simp only [hbalance, hbalance', horg orgId hscope]
  | some context =>
      cases context with
      | personal => rfl
      | team =>
          cases hscope : scope.orgId with
          | none => exact absurd hscope (hteam hcontext)
          | some orgId =>
              have hbalance := orgBalance_eq db hscope (by simp [hcontext])
              have hbalance' := orgBalance_eq db' hscope (by simp [hcontext])
              rw [hscope] at hbalance hbalance'
              simp only [hbalance, hbalance', horg orgId hscope]

/-! ### Subscriptions -/

variable (float : FloatArithmetic F)

theorem planData_congr (h : SameCatalog db db') (ctx : CurrencyContext) (plan : Plan) :
    planData float db ctx plan = planData float db' ctx plan := by
  unfold planData itemPrice priceData localizedPricesPrefetch Db.priceOf Db.priceOfPlan
  rw [h.planPrices, h.localizedPrices]

theorem nestedPlan_congr (h : SameCatalog db db') (ctx : CurrencyContext) (planId : UUID) :
    nestedPlan float db ctx planId = nestedPlan float db' ctx planId := by
  unfold nestedPlan Db.planById
  rw [h.plans]
  simp only [planData_congr float h]

theorem subscriptionEntry_congr (h : SameCatalog db db') (ctx : CurrencyContext)
    {s s' : Subscription} (hshown : db.shown s = db'.shown s') :
    subscriptionEntry float db ctx s = subscriptionEntry float db' ctx s' := by
  obtain ⟨hrow, hseats⟩ := Prod.mk.inj hshown
  simp only [Subscription.hidden, Subscription.mk.injEq] at hrow
  obtain ⟨hid, -, -, -, hstatus, hplan, hlimit, htrial, hstart, hend, hcanceled, hcancel, hscheduled,
    hchange, hcurrency, hcreated⟩ := hrow
  unfold subscriptionEntry
  simp only [nestedPlan_congr float h, hid, hstatus, hplan, hlimit, htrial, hstart, hend, hcanceled,
    hcancel, hscheduled, hchange, hcurrency, hcreated, hseats]

/-- What is fetched depends on what is shown. -/
theorem fetched_congr (h : SameCatalog db db') (ctx : CurrencyContext)
    {found found' : Option Subscription} (hshown : found.map db.shown = found'.map db'.shown) :
    (found.map fun s => (s.id, subscriptionEntry float db ctx s)) =
      found'.map fun s => (s.id, subscriptionEntry float db' ctx s) := by
  cases found with
  | none =>
      cases found' with
      | none => rfl
      | some s' => cases hshown
  | some s =>
      cases found' with
      | none => cases hshown
      | some s' =>
          have hsame : db.shown s = db'.shown s' := Option.some.inj hshown
          have hid : s.id = s'.id := congrArg (fun p => p.1.id) hsame
          rw [Option.map_some, Option.map_some, hid, subscriptionEntry_congr float h ctx hsame]

end Looking

/-! ## Requests -/

namespace Session

variable {userId orgId : UUID} {tokens : List String} {k : Standing}

theorem alike_lift {α : Type} (result : Py α) :
    (lift result : Session σ α).Alike (onlooker userId tokens) (fun _ => Eq) k (lift result) := by
  cases result <;> rfl

theorem alike_select {α β : Type} {R : Standing → α → β → Prop} {f : Db → α} {g : Db → β}
    (h : ∀ db db', LooksSame userId tokens (k.after userId db) db db' →
      R (k.after userId db) (f db) (g db')) :
    (select f : Session σ α).Alike (onlooker userId tokens) R k (select g) :=
  Fallible.alike_observe fun w w' hsame => h w.db w'.db hsame

/-- The same refusal; or the same org is shown to a member, whose role is known. -/
theorem alike_getOrgAndMember (allowedRoles : List OrgRole) :
    (getOrgAndMember userId orgId allowedRoles : Session σ (Org × OrgMember)).Alike
      (onlooker userId tokens) (fun k a b => OrgEntry.of a.1 = OrgEntry.of b.1 ∧
        k.member orgId ∧ (allowedRoles = adminOrAbove → k.admin orgId)) k
      (getOrgAndMember userId orgId allowedRoles) := by
  unfold getOrgAndMember
  refine Fallible.Alike.bind (R := fun k a b =>
    a.map (fun p => (OrgEntry.of p.1, p.2)) = b.map (fun p => (OrgEntry.of p.1, p.2)) ∧
      ∀ p, a = some p → k.member orgId ∧ (p.2.role ∈ adminOrAbove → k.admin orgId))
    (alike_select fun db db' h => ⟨?_, ?_⟩) ?_
  · unfold Db.orgAndMember
    -- the caller's own membership looks the same; where there is one, so does the org
    rw [← h.memberOf]
    cases hmember : db.memberOf orgId userId with
    | none => rfl
    | some m =>
        obtain ⟨hm, horg, huser⟩ := Db.memberOf_eq_some.mp hmember
        have hentry := h.org orgId (Or.inr ⟨m, hm, horg, huser⟩)
        unfold Db.orgEntry at hentry
        have hpair : ∀ org : Option Org, (org.bind fun org => some (org, m)).map
            (fun p => (OrgEntry.of p.1, p.2)) =
              (org.map OrgEntry.of).map fun entry => (entry, m) := by
          intro org
          cases org <;> rfl
        rw [← horg] at hentry
        refine (hpair (db.orgById m.orgId)).trans (.trans ?_ (hpair (db'.orgById m.orgId)).symm)
        rw [hentry]
  · rintro ⟨org, m⟩ hfound
    obtain ⟨hm, horg, huser, -, -⟩ := Db.orgAndMember_eq_some.mp hfound
    exact ⟨Or.inr ⟨m, hm, horg, huser⟩, fun hrole => Or.inr ⟨m, hm, horg, huser, hrole⟩⟩
  · rintro k a b ⟨hsame, hstanding⟩
    cases a with
    | none =>
        cases b with
        | some p => cases hsame
        | none =>
            -- a second query tells a 403 from a 404, and shows that the org exists
            refine Fallible.Alike.bind (R := fun _ => Eq)
              (alike_select fun db db' h => h.exist orgId) ?_
            rintro k found _ rfl
            cases found with
            | true => exact Fallible.alike_throw _
            | false => exact Fallible.alike_throw _
    | some p =>
        cases b with
        | none => cases hsame
        | some q =>
            obtain ⟨org, m⟩ := p
            obtain ⟨org', m'⟩ := q
            obtain ⟨hentry, rfl⟩ := Prod.mk.inj (Option.some.inj hsame)
            obtain ⟨hmember, hadmin⟩ := hstanding _ rfl
            dsimp only
            split
            next hallowed =>
                refine Fallible.alike_pure ⟨hentry, hmember, fun hroles => hadmin ?_⟩
                rw [← hroles]
                exact List.contains_iff_mem.mp hallowed
            next => exact Fallible.alike_throw _

/-- A page of rows that look the same; what the reader had learned before still holds. -/
theorem alike_paginate {α β : Type} {q : PageQuery} {count : Db → ℕ} {rows : Db → List α}
    (seen : α → β) {P : Standing → Prop} (hP : ∀ k db, P k → P (k.after userId db)) (hk : P k)
    {Q : α → Prop} (hQ : ∀ db, ∀ a ∈ rows db, Q a)
    (hcount : ∀ k db db', P k → LooksSame userId tokens k db db' → count db = count db')
    (hrows : ∀ k db db', P k → LooksSame userId tokens k db db' →
      (rows db).map seen = (rows db').map seen) :
    (paginate q count rows : Session σ (ℕ × List α)).Alike (onlooker userId tokens)
      (fun k a b => P k ∧ a.1 = b.1 ∧ (∀ x ∈ a.2, Q x) ∧ a.2.map seen = b.2.map seen) k
      (paginate q count rows) := by
  unfold paginate
  refine Fallible.Alike.bind (R := fun k a b => P k ∧ a = b)
    (alike_select fun db db' h => ⟨hP k db hk, hcount _ db db' (hP k db hk) h⟩) ?_
  rintro k n _ ⟨hk, rfl⟩
  split
  · exact Fallible.alike_pure ⟨hk, rfl, fun _ h => absurd h List.not_mem_nil, rfl⟩
  · refine Fallible.Alike.bind
      (R := fun k a b => P k ∧ (∀ x ∈ a, Q x) ∧ a.map seen = b.map seen)
      (alike_select fun db db' h => ⟨hP k db hk, fun x hx => ?_, ?_⟩) fun k a b hab =>
        Fallible.alike_pure ⟨hab.1, rfl, hab.2⟩
    · exact hQ db x (List.mem_of_mem_drop (List.mem_of_mem_take hx))
    · exact map_page (hrows _ db db' (hP k db hk) h) _ _

theorem alike_listOrgs (collate : String → String → Bool) (q : PageQuery) :
    (listOrgs collate userId q : Session σ (Page OrgEntry)).Alike (onlooker userId tokens)
      (fun _ => Eq) k (listOrgs collate userId q) := by
  unfold listOrgs
  refine Fallible.Alike.bind (alike_paginate OrgEntry.of
    (P := fun _ => True) (Q := fun _ => True) (fun _ _ _ => trivial) trivial
    (fun _ _ _ => trivial) ?_ ?_) ?_
  · intro k db db' _ h
    simpa using congrArg List.length h.orgs
  · intro k db db' _ h
    have hsort : ∀ db : Db, ((db.orgsOf userId).insertionSort fun a b => collate a.name b.name).map
        OrgEntry.of = ((db.orgsOf userId).map OrgEntry.of).insertionSort fun a b =>
          collate a.name b.name :=
      fun db => List.map_insertionSort _ _ _ _ fun _ _ _ _ => Iff.rfl
    rw [hsort, hsort, h.orgs]
  · rintro k ⟨count, orgs⟩ ⟨_, orgs'⟩ ⟨-, rfl, -, hsame⟩
    refine Fallible.alike_pure ?_
    dsimp only at hsame ⊢
    rw [hsame]

theorem alike_getOrg :
    (getOrg userId orgId : Session σ OrgEntry).Alike (onlooker userId tokens) (fun _ => Eq) k
      (getOrg userId orgId) := by
  unfold getOrg
  exact (alike_getOrgAndMember anyRole).bind fun k a b h => Fallible.alike_pure h.1

/-- The org of each row is looked up when the row is written. -/
theorem alike_memberRows {rows rows' : List (OrgMember × User)}
    (hsame : rows.map (fun p => (p.1, MemberUserEntry.of p.2)) =
      rows'.map fun p => (p.1, MemberUserEntry.of p.2))
    (horg : ∀ p ∈ rows, p.1.orgId = orgId) (hk : k.member orgId) :
    (memberRows rows : Session σ (List MemberEntry)).Alike (onlooker userId tokens) (fun _ => Eq) k
      (memberRows rows') := by
  induction rows generalizing rows' k with
  | nil =>
      cases rows' with
      | nil => exact Fallible.alike_pure rfl
      | cons p rows' => cases hsame
  | cons p rows ih =>
      cases rows' with
      | nil => cases hsame
      | cons p' rows' =>
          obtain ⟨m, user⟩ := p
          obtain ⟨m', user'⟩ := p'
          obtain ⟨hhead, htail⟩ := List.cons.inj hsame
          obtain ⟨rfl, huser⟩ := Prod.mk.inj hhead
          have hm : m.orgId = orgId := horg _ List.mem_cons_self
          unfold memberRows
          refine Fallible.Alike.bind (R := fun k a b =>
            k.member orgId ∧ a.map OrgEntry.of = b.map OrgEntry.of)
            (alike_select fun db db' h => ⟨Or.inl hk, hm ▸ h.org orgId (Or.inl hk)⟩) ?_
          rintro k a b ⟨hk, hentry⟩
          cases a with
          | none =>
              cases b with
              | none => exact Fallible.alike_throw _
              | some org' => cases hentry
          | some org =>
              cases b with
              | none => cases hentry
              | some org' =>
                  have hentry : OrgEntry.of org = OrgEntry.of org' := Option.some.inj hentry
                  refine (ih htail (fun p hp => horg p (List.mem_cons_of_mem _ hp)) hk).bind ?_
                  rintro k entries _ rfl
                  refine Fallible.alike_pure ?_
                  unfold MemberEntry.of
                  rw [huser, hentry]

theorem alike_listMembers (q : PageQuery) :
    (listMembers userId orgId q : Session σ (Page MemberEntry)).Alike (onlooker userId tokens)
      (fun _ => Eq) k (listMembers userId orgId q) := by
  unfold listMembers
  refine (alike_getOrgAndMember anyRole).bind ?_
  rintro k _ _ ⟨-, hk, -⟩
  refine Fallible.Alike.bind (alike_paginate
    (fun p => (p.1, MemberUserEntry.of p.2)) (P := fun k => k.member orgId)
    (Q := fun p => p.1.orgId = orgId) (fun _ _ => Or.inl) hk ?_ ?_ ?_) ?_
  · intro db p hp
    rw [List.mem_insertionSort] at hp
    obtain ⟨m, hm, hp⟩ := List.mem_filterMap.mp hp
    obtain ⟨user, -, rfl⟩ := Option.map_eq_some_iff.mp hp
    exact beq_iff_eq.mp (List.mem_filter.mp hm).2
  · intro k db db' hk h
    rw [h.members orgId hk]
  · intro k db db' hk h
    have hsort : ∀ rows : List (OrgMember × User),
        (rows.insertionSort fun a b => a.1.joinedAt ≤ b.1.joinedAt).map
          (fun p => (p.1, MemberUserEntry.of p.2)) =
          (rows.map fun p => (p.1, MemberUserEntry.of p.2)).insertionSort fun a b =>
            a.1.joinedAt ≤ b.1.joinedAt :=
      fun rows => List.map_insertionSort _ _ _ _ fun _ _ _ _ => Iff.rfl
    rw [hsort, hsort, h.membersWithUsers hk]
  · rintro k ⟨count, rows⟩ ⟨_, rows'⟩ ⟨hk, rfl, horg, hsame⟩
    refine (alike_memberRows hsame horg hk).bind ?_
    rintro k entries _ rfl
    exact Fallible.alike_pure rfl

theorem alike_listInvitations (q : PageQuery) :
    (listInvitations userId orgId q : Session σ (Page InvitationEntry)).Alike
      (onlooker userId tokens) (fun _ => Eq) k (listInvitations userId orgId q) := by
  unfold listInvitations
  refine (alike_getOrgAndMember adminOrAbove).bind ?_
  rintro k _ _ ⟨-, hmember, hadmin⟩
  let seen (found : Invitation × Org × Option User) : InvitationEntry :=
    .of found.1 found.2.1 found.2.2
  refine Fallible.Alike.bind (alike_paginate seen
    (P := fun k => k.member orgId ∧ k.admin orgId) (Q := fun _ => True)
    (fun _ _ h => ⟨Or.inl h.1, Or.inl h.2⟩) ⟨hmember, hadmin rfl⟩ (fun _ _ _ => trivial) ?_ ?_) ?_
  · intro k db db' hk h
    simpa using congrArg List.length (h.pending orgId hk.2)
  · intro k db db' hk h
    have hsort : ∀ rows : List (Invitation × Org × Option User),
        (rows.insertionSort fun a b => b.1.createdAt ≤ a.1.createdAt).map seen =
          (rows.map seen).insertionSort fun a b => b.createdAt ≤ a.createdAt :=
      fun rows => List.map_insertionSort _ _ _ _ fun _ _ _ _ => Iff.rfl
    rw [hsort, hsort]
    exact congrArg _ (h.invitations hk.1 hk.2)
  · rintro k ⟨count, rows⟩ ⟨_, rows'⟩ ⟨-, rfl, -, hsame⟩
    exact Fallible.alike_pure (congrArg (q.page count) hsame)

theorem alike_getInvitation {token : String} (htoken : token ∈ tokens) :
    (getInvitation token : Session σ PublicInvitationEntry).Alike (onlooker userId tokens)
      (fun _ => Eq) k (getInvitation token) := by
  unfold getInvitation
  refine Fallible.Alike.bind (R := fun _ a b =>
    a.map (fun (i, org, invitedBy) => PublicInvitationEntry.of i org invitedBy) =
      b.map fun (i, org, invitedBy) => PublicInvitationEntry.of i org invitedBy)
    (alike_select fun db db' h => h.offers token htoken) ?_
  rintro k a b hsame
  cases a with
  | none =>
      cases b with
      | none => exact Fallible.alike_throw _
      | some _ => cases hsame
  | some _ =>
      cases b with
      | none => cases hsame
      | some _ => exact Fallible.alike_pure (Option.some.inj hsame)

theorem alike_listCredits (context : Option String) :
    (listCredits userId context : Session σ (List CreditEntry)).Alike (onlooker userId tokens)
      (fun _ => Eq) k (listCredits userId context) := by
  unfold listCredits
  refine Fallible.Alike.bind (R := fun k a b => a = b ∧ a.userId = userId ∧
    (∀ orgId, a.orgId = some orgId → k.member orgId) ∧
      (a.context = some .team → a.orgId ≠ none)) ?_ ?_
  · unfold creditScope
    refine (alike_lift _).bind ?_
    rintro k context _ rfl
    refine Fallible.Alike.bind (R := fun k a b => a = b ∧ ∀ m, a = some m → k.member m.orgId)
      (alike_select fun db db' h => ⟨h.firstMembership, fun m hm => ?_⟩) ?_
    · obtain ⟨hmem, huser⟩ := mem_of_firstMembership hm
      exact Or.inr ⟨m, hmem, rfl, huser⟩
    · rintro k membership _ ⟨rfl, hmember⟩
      dsimp only
      split
      next => exact Fallible.alike_throw _
      next hteam =>
          refine Fallible.alike_pure ⟨rfl, rfl, fun orgId horg => ?_, fun hcontext hnone =>
            hteam ⟨hcontext, hnone⟩⟩
          obtain ⟨m, hm, rfl⟩ := Option.map_eq_some_iff.mp horg
          exact hmember m hm
  · rintro k scope _ ⟨rfl, huser, horg, hteam⟩
    unfold creditEntries
    refine Fallible.Alike.bind (R := fun _ a b => scope.entries a = scope.entries b)
      (alike_select fun db db' h => entries_congr ?_ (fun orgId h' => ?_) hteam) ?_
    · rw [huser]
      exact h.credits
    · exact h.orgCredits orgId (Or.inl (horg orgId h'))
    · exact fun k a b hsame => Fallible.alike_pure hsame

theorem alike_fetchSubscriptions (float : FloatArithmetic F) (ctx : CurrencyContext) :
    (fetchSubscriptions float ctx userId : Session σ (List (Fetched F))).Alike
      (onlooker userId tokens) (fun _ => Eq) k (fetchSubscriptions float ctx userId) := by
  unfold fetchSubscriptions
  refine Fallible.Alike.bind (R := fun k a b => a = b ∧ ∀ m, a = some m → k.member m.orgId)
    (alike_select fun db db' h => ⟨h.firstMembership, fun m hm => ?_⟩) ?_
  · obtain ⟨hmem, huser⟩ := mem_of_firstMembership hm
    exact Or.inr ⟨m, hmem, rfl, huser⟩
  rintro k membership _ ⟨rfl, hmember⟩
  refine Fallible.Alike.bind (R := fun _ => Eq) ?_ ?_
  · cases membership with
    | none => exact Fallible.alike_pure rfl
    | some m =>
        exact alike_select fun db db' h =>
          fetched_congr float h.catalog ctx (h.team m.orgId (Or.inl (hmember m rfl)))
  · rintro k teamSub _ rfl
    refine Fallible.Alike.bind (R := fun _ => Eq)
      (alike_select fun db db' h => fetched_congr float h.catalog ctx h.personal) ?_
    rintro k latestPersonal _ rfl
    exact Fallible.alike_pure rfl

theorem alike_listSubscriptions (float : FloatArithmetic F) (currencies : Currencies) (user : User)
    (queryCurrency : Option String) :
    (listSubscriptions float currencies user queryCurrency :
        Session σ (Option (CatalogEnvelope (SubscriptionEntry F)))).Alike (onlooker user.id tokens)
      (fun _ => Eq) k (listSubscriptions float currencies user queryCurrency) := by
  unfold listSubscriptions
  refine (alike_lift _).bind ?_
  rintro k ctx _ rfl
  refine (alike_fetchSubscriptions float ctx).bind ?_
  rintro k subs _ rfl
  refine (alike_lift _).bind ?_
  rintro k data _ rfl
  exact Fallible.alike_pure rfl

end Session

/-- The tokens a request presents. -/
def ReadRequest.tokens : ReadRequest → List String
  | invitation token => [token]
  | _ => []

theorem ReadRequest.alike (settings : ReadSettings F) (caller : User) (request : ReadRequest)
    (k : Standing) : (request.session settings caller : Session σ (ReadAnswer F)).Alike
      (onlooker caller.id request.tokens) (fun _ => Eq) k (request.session settings caller) := by
  have hsame : ∀ {α : Type} (f : α → ReadAnswer F), ∀ (_ : Standing) (a b : α), a = b → f a = f b :=
    fun f _ _ _ h => congrArg f h
  cases request with
  | orgs page => exact (Session.alike_listOrgs settings.collate page).map (hsame _)
  | org orgId => exact Session.alike_getOrg.map (hsame _)
  | members orgId page => exact (Session.alike_listMembers page).map (hsame _)
  | invitations orgId page => exact (Session.alike_listInvitations page).map (hsame _)
  | credits context => exact (Session.alike_listCredits context).map (hsame _)
  | subscriptions queryCurrency =>
      exact (Session.alike_listSubscriptions settings.float settings.currencies caller
        queryCurrency).map (hsame _)
  | invitation token =>
      exact (Session.alike_getInvitation List.mem_cons_self).map (hsame _)

/-! ## In any two runs -/

section Runs

variable {ι ι' : Type} [DecidableEq ι] [DecidableEq ι']

/-- **Orgs are isolated.**  A request that reads runs in two runs, each of them among any other
programs.  If every one of its queries finds databases that look the same to the caller, who
stands in the orgs in which the queries so far have found them, then it is answered in one run
as it is in the other: with the same data, or the same error. -/
theorem reads_isolated (settings : ReadSettings F) (caller : User) (request : ReadRequest)
    {pool : Pool ι (Statement Label Lock (World σ)) (World σ) (Py (ReadAnswer F))}
    {pool' : Pool ι' (Statement Label Lock (World σ)) (World σ) (Py (ReadAnswer F))}
    {i : ι} {i' : ι'} (hi : pool.procs i = ExceptT.run (request.session settings caller))
    (hi' : pool'.procs i' = ExceptT.run (request.session settings caller))
    {schedule : List ι} {schedule' : List ι'}
    (hsame : (onlooker caller.id request.tokens).SameAll .start (pool.found i schedule)
      (pool'.found i' schedule')) (answer : Py (ReadAnswer F)) :
    (pool.run schedule).procs i = .done answer ↔
      (pool'.run schedule').procs i' = .done answer := by
  refine Pool.run_alike (k := Standing.start) ?_ hsame answer
  rw [hi, hi']
  refine Program.Alike.mono ?_ (request.alike settings caller .start)
  intro k result result' hresults
  cases result with
  | ok a =>
      cases result' with
      | ok b => exact congrArg _ hresults
      | error e => exact hresults.elim
  | error e =>
      cases result' with
      | ok b => exact hresults.elim
      | error e' => exact congrArg _ hresults

end Runs

/-! ### A member list next to another org -/

def stranger : User := { buyer with id := 2#128, email := "stranger@example.com" }

def acmeMembership : OrgMember := ⟨60#128, 50#128, buyer.id, .member, false, 0⟩

/-- Another org next to the buyer's, with its members. -/
def besideTables (beside : Org) (members : List OrgMember)
    (horgs : Valid [⟨50#128, "Acme", "acme", none, 0⟩, beside])
    (hmembers : Valid (acmeMembership :: members)) : Tables :=
  { sampleDb.toTables with
    users := ⟨[buyer, stranger], by decide⟩
    orgs := ⟨[⟨50#128, "Acme", "acme", none, 0⟩, beside], horgs⟩
    members := ⟨acmeMembership :: members, hmembers⟩ }

def besideBeta : Db where
  toTables := besideTables ⟨51#128, "Beta", "beta", none, 0⟩
    [⟨61#128, 51#128, stranger.id, .owner, true, 0⟩] (by decide) (by decide)
  integral := by decide +kernel

def besideGamma : Db where
  toTables := besideTables ⟨51#128, "Gamma", "gamma", some stranger.id, 7⟩ [] (by decide) (by decide)
  integral := by decide +kernel

theorem looksSame_beside {k : Standing} (hk : ∀ orgId, k.member orgId → orgId = 50#128)
    (hadmin : ∀ orgId, ¬ k.admin orgId) : LooksSame buyer.id [] k besideBeta besideGamma where
  exist orgId := by
    by_cases hacme : 50#128 = orgId
    · subst hacme
      rfl
    · by_cases hbeside : 51#128 = orgId
      · subst hbeside
        rfl
      · have h₁ : (50#128 == orgId) = false := beq_eq_false_iff_ne.mpr hacme
        have h₂ : (51#128 == orgId) = false := beq_eq_false_iff_ne.mpr hbeside
        simp [Db.orgById, Table.find?, besideBeta, besideGamma, besideTables, h₁, h₂]
  memberships := by decide +kernel
  orgs := by decide +kernel
  credits := rfl
  personal := by decide +kernel
  catalog := ⟨rfl, rfl, rfl⟩
  offers := nofun
  org orgId h := by
    obtain rfl := hk orgId h
    rfl
  members orgId h := by
    obtain rfl := hk orgId h
    decide +kernel
  users orgId h := by
    obtain rfl := hk orgId h
    decide +kernel
  orgCredits orgId h := rfl
  team orgId h := by
    obtain rfl := hk orgId h
    decide +kernel
  pending orgId h := absurd h (hadmin orgId)
  senders orgId h := absurd h (hadmin orgId)

/-- In neither database is the buyer in another org, or an administrator. -/
theorem after_beside {k : Standing} (hk : ∀ orgId, k.member orgId → orgId = 50#128)
    (hadmin : ∀ orgId, ¬ k.admin orgId) :
    (∀ orgId, (k.after buyer.id besideBeta).member orgId → orgId = 50#128) ∧
      ∀ orgId, ¬ (k.after buyer.id besideBeta).admin orgId := by
  have hrow : ∀ m ∈ besideBeta.members.rows, m.userId = buyer.id → m = acmeMembership := by
    decide +kernel
  constructor
  · rintro orgId (h | ⟨m, hm, rfl, huser⟩)
    · exact hk orgId h
    · rw [hrow m hm huser]
      rfl
  · rintro orgId (h | ⟨m, hm, -, huser, hrole⟩)
    · exact hadmin orgId h
    · rw [hrow m hm huser] at hrole
      exact absurd hrole (by decide)

def plainSettings : ReadSettings ℚ := ⟨exactArithmetic, usdOnly, fun a b => a ≤ b⟩

/-- The buyer asks for the members of Acme, and nobody else does anything. -/
def asking (db : Db) : Pool Unit (Statement Label Lock (World Unit)) (World Unit)
    (Py (ReadAnswer ℚ)) where
  shared := ⟨db, (), []⟩
  procs _ := ExceptT.run
    ((ReadRequest.members 50#128 ⟨none, none⟩).session plainSettings buyer)

/-- The membership, the number of rows, the page, and the org of its only row. -/
def fourQueries : List Unit := [(), (), (), ()]

theorem reads_isolated_beside : ∃ page,
    ((asking besideBeta).run fourQueries).procs () = .done (.ok (.members page)) ∧
      ((asking besideGamma).run fourQueries).procs () = .done (.ok (.members page)) := by
  have hsame : (onlooker buyer.id []).SameAll .start ((asking besideBeta).found () fourQueries)
      ((asking besideGamma).found () fourQueries) := by
    have h₀ := after_beside (k := .start) nofun nofun
    have h₁ := after_beside h₀.1 h₀.2
    have h₂ := after_beside h₁.1 h₁.2
    have h₃ := after_beside h₂.1 h₂.2
    exact ⟨looksSame_beside h₀.1 h₀.2, looksSame_beside h₁.1 h₁.2, looksSame_beside h₂.1 h₂.2,
      looksSame_beside h₃.1 h₃.2, trivial⟩
  refine ⟨_, rfl, ?_⟩
  exact (reads_isolated plainSettings buyer (.members 50#128 ⟨none, none⟩) rfl rfl hsame _).mp rfl

end Saasmint
