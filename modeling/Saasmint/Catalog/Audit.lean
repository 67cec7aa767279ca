import Saasmint.Catalog.SampleAccount

/-!
# Auditing the Stripe catalog

`audit_stripe_catalog --archive` archives the active products of a Stripe account that no
local row owns, except those that are still subscribed to.  To see whether a product is, it
lists the active prices of the product and, for each that recurs, the subscriptions in
status `active`.  Customers can also be on an archived price, and a subscription that is
trialing or past due is in use as well.

Stripe answers by `AuditApi`: whatever order its lists are in, and whichever calls fail, a
list that it returns is the one of the account.
-/

namespace Saasmint

open Atomic Relational

/-! ## The account -/

structure AccountProduct where
  id : String
  name : String
  metadata : List (String × String)
  active : Bool
deriving DecidableEq

instance : Row AccountProduct where
  check _ := True
  clash a b := a.id = b.id
  decidableCheck _ := inferInstanceAs (Decidable True)
  decidableClash _ _ := inferInstanceAs (Decidable (_ = _))
  clash_symm := Eq.symm

def AccountProduct.archive (id : String) (p : AccountProduct) : AccountProduct :=
  if p.id = id then { p with active := false } else p

theorem AccountProduct.archive_id (id : String) (p : AccountProduct) : (p.archive id).id = p.id := by
  unfold archive
  split <;> rfl

structure AccountPrice where
  id : String
  product : String
  active : Bool
  /-- The interval, of a price that recurs. -/
  recurring : Option PlanInterval
deriving DecidableEq

/-- A subscription, with the prices of its items. -/
structure AccountSubscription where
  id : String
  status : SubscriptionStatus
  prices : List String
deriving DecidableEq

structure StripeAccount where
  products : Table AccountProduct
  prices : List AccountPrice
  subscriptions : List AccountSubscription

namespace StripeAccount

variable (account : StripeAccount)

/-- The product is subscribed to, on any of its prices. -/
def InUse (productId : String) : Prop :=
  ∃ price ∈ account.prices, price.product = productId ∧
    ∃ s ∈ account.subscriptions, s.status.isActive = true ∧ price.id ∈ s.prices

/-- A subscription that the listing by a price finds. -/
def Listed (priceId : String) (s : AccountSubscription) : Prop :=
  s ∈ account.subscriptions ∧ s.status = .active ∧ priceId ∈ s.prices

/-- The command finds a subscription on the product. -/
def Seen (productId : String) : Prop :=
  ∃ price ∈ account.prices, price.product = productId ∧ price.active = true ∧
    price.recurring.isSome = true ∧ ∃ s, account.Listed price.id s

/-- `stripe.Product.modify(id, active=False)`. -/
def archive (id : String) : StripeAccount :=
  { account with
    products := account.products.rewrite (AccountProduct.archive id) (fun _ h => h) fun a b h => by
      change (a.archive id).id = (b.archive id).id at h
      rwa [AccountProduct.archive_id, AccountProduct.archive_id] at h }

@[simp] theorem prices_archive (id : String) : (account.archive id).prices = account.prices := rfl

@[simp] theorem subscriptions_archive (id : String) :
    (account.archive id).subscriptions = account.subscriptions := rfl

@[simp] theorem rows_archive (id : String) : (account.archive id).products.rows =
    account.products.rows.map (AccountProduct.archive id) := rfl

end StripeAccount

/-! ## Stripe -/

/-- How Stripe answers the calls of the command, in any state of the account. -/
structure AuditApi where
  /-- `Product.list(active=True, limit=100).auto_paging_iter()`. -/
  productList : StripeAccount → Py (List AccountProduct)
  /-- `Price.list(product=product, active=True, limit=100).auto_paging_iter()`. -/
  priceList : StripeAccount → String → Py (List AccountPrice)
  /-- `Subscription.list(price=price, status="active", limit=1)`. -/
  subscriptionList : StripeAccount → String → Py (List AccountSubscription)
  /-- `Product.modify(id, active=False)`. -/
  productModify : StripeAccount → String → Py Unit × StripeAccount
  mem_productList : ∀ account listed, productList account = .ok listed →
    ∀ p, p ∈ listed ↔ p ∈ account.products.rows ∧ p.active = true
  mem_priceList : ∀ account product listed, priceList account product = .ok listed →
    ∀ p, p ∈ listed ↔ p ∈ account.prices ∧ p.product = product ∧ p.active = true
  mem_subscriptionList : ∀ account price page, subscriptionList account price = .ok page →
    (∀ s ∈ page, account.Listed price s) ∧ (page = [] → ∀ s, ¬ account.Listed price s)
  /-- A call that fails may have been carried out. -/
  productModify_archives : ∀ account id, (productModify account id).2 = account.archive id ∨
    ((productModify account id).2 = account ∧ ∃ e, (productModify account id).1 = .error e)

inductive AuditCall
  | productList
  | priceList (product : String)
  | subscriptionList (price : String)
  | productModify (id : String)

abbrev Audit (α : Type) := Fallible PyError AuditCall StripeAccount α

/-! ## The command -/

/-- `md.get("local_plan_id") or md.get("local_product_id")`. -/
def metadataLocalId (md : List (String × String)) : Option String :=
  match (md.lookup "local_plan_id").filter (· ≠ "") with
  | some id => some id
  | none => md.lookup "local_product_id"

/-- The product belongs to a local row. -/
def ownedLocally (localPlanIds localProductIds : List String) (md : List (String × String)) : Bool :=
  (md.lookup "kind" == some "plan" && (metadataLocalId md).any (localPlanIds.contains ·)) ||
    (md.lookup "kind" == some "product" && (metadataLocalId md).any (localProductIds.contains ·))

/-- The strays among the products, each with its metadata, and the number of the others. -/
def partitionProducts (localPlanIds localProductIds : List String) :
    List AccountProduct → List (AccountProduct × List (String × String)) × ℕ
  | [] => ([], 0)
  | sp :: rest =>
      let (strays, owned) := partitionProducts localPlanIds localProductIds rest
      if ownedLocally localPlanIds localProductIds sp.metadata then (strays, owned + 1)
      else ((sp, sp.metadata) :: strays, owned)

namespace Audit

variable (api : AuditApi)

/-- `_classify_products`. -/
def classifyProducts (localPlanIds localProductIds : List String) :
    Audit (List (AccountProduct × List (String × String)) × ℕ) := do
  let listed ← Fallible.atomic .productList fun account => (api.productList account, account)
  return partitionProducts localPlanIds localProductIds listed

/-- The inner loop of `_archive_strays`, with its `break`. -/
def hasActiveSub : List AccountPrice → Audit Bool
  | [] => return false
  | price :: prices =>
      if price.recurring.isNone then hasActiveSub prices
      else do
        let subs ← Fallible.atomic (.subscriptionList price.id) fun account =>
          (api.subscriptionList account price.id, account)
        if subs = [] then hasActiveSub prices else return true

def archiveStray (sp : AccountProduct) : Audit Unit := do
  let prices ← Fallible.atomic (.priceList sp.id) fun account =>
    (api.priceList account sp.id, account)
  if ← hasActiveSub api prices then return
  Fallible.atomic (.productModify sp.id) fun account => api.productModify account sp.id

/-- `_archive_strays`. -/
def archiveStrays (strays : List (AccountProduct × List (String × String))) : Audit Unit :=
  strays.forM fun stray => archiveStray api stray.1

/-- `Command.handle`. -/
def handle (apiKey : String) (archive : Bool) (db : Db) : Audit Unit := do
  if apiKey = "" then return
  let localPlanIds := db.plans.rows.map fun plan => uuidText plan.id
  let localProductIds := db.products.rows.map fun product => uuidText product.id
  let (strays, _) ← classifyProducts api localPlanIds localProductIds
  if strays = [] then return
  if archive = false then return
  archiveStrays api strays

end Audit

/-- No local row owns the product. -/
def Db.Stray (db : Db) (p : AccountProduct) : Prop :=
  ownedLocally (db.plans.rows.map fun plan => uuidText plan.id)
    (db.products.rows.map fun product => uuidText product.id) p.metadata = false

/-- Whatever the command is called with and however Stripe answers, it leaves the products
that are in use as they are. -/
def AuditSafe (db : Db) (account : StripeAccount) : Prop :=
  ∀ (api : AuditApi) (apiKey : String) (archive : Bool), ∀ p ∈ account.products.rows,
    p.active = true → account.InUse p.id →
      p ∈ (Fallible.exec (Audit.handle api apiKey archive db) account).2.products.rows

/-- Where a stray product is in use, the command finds a subscription on it. -/
def SeesUse (db : Db) (account : StripeAccount) : Prop :=
  ∀ p ∈ account.products.rows, p.active = true → db.Stray p → account.InUse p.id →
    account.Seen p.id

/-! ## What the command reads -/

section Reads

variable {localPlanIds localProductIds : List String} {account : StripeAccount} {api : AuditApi}

theorem mem_partitionProducts {listed : List AccountProduct} {sp : AccountProduct} :
    (∃ md, (sp, md) ∈ (partitionProducts localPlanIds localProductIds listed).1) ↔
      sp ∈ listed ∧ ownedLocally localPlanIds localProductIds sp.metadata = false := by
  induction listed with
  | nil => simp [partitionProducts]
  | cons first rest ih =>
      unfold partitionProducts
      dsimp only
      cases howned : ownedLocally localPlanIds localProductIds first.metadata with
      | true =>
          rw [if_pos rfl, ih, List.mem_cons]
          refine ⟨fun h => ⟨Or.inr h.1, h.2⟩, fun h => ⟨h.1.resolve_left ?_, h.2⟩⟩
          rintro rfl
          rw [howned] at h
          cases h.2
      | false =>
          rw [if_neg Bool.false_ne_true]
          constructor
          · rintro ⟨md, hmem⟩
            rcases List.mem_cons.mp hmem with hfirst | hrest
            · cases hfirst
              exact ⟨List.mem_cons_self, howned⟩
            · obtain ⟨hlisted, hstray⟩ := ih.mp ⟨md, hrest⟩
              exact ⟨List.mem_cons_of_mem _ hlisted, hstray⟩
          · rintro ⟨hmem, hstray⟩
            rcases List.mem_cons.mp hmem with rfl | hrest
            · exact ⟨_, List.mem_cons_self⟩
            · obtain ⟨md, hmd⟩ := ih.mpr ⟨hrest, hstray⟩
              exact ⟨md, List.mem_cons_of_mem _ hmd⟩

/-- If the search ends, it says whether a subscription is listed on one of the prices. -/
theorem ends_hasActiveSub (prices : List AccountPrice) :
    (Audit.hasActiveSub api prices).Ends (fun result t => t = account ∧ ∀ found, result = .ok found →
      (found = true ↔ ∃ price ∈ prices, price.recurring.isSome = true ∧
        ∃ s, account.Listed price.id s)) account := by
  induction prices with
  | nil =>
      refine ⟨rfl, fun found hfound => ?_⟩
      obtain rfl := Except.ok.inj hfound
      simp
  | cons price prices ih =>
      have hlater : ¬ (price.recurring.isSome = true ∧ ∃ s, account.Listed price.id s) →
          (Audit.hasActiveSub api prices).Ends (fun result t => t = account ∧
            ∀ found, result = .ok found → (found = true ↔ ∃ p ∈ price :: prices,
              p.recurring.isSome = true ∧ ∃ s, account.Listed p.id s)) account := by
        intro hnot
        refine ih.mono fun result t h => ⟨h.1, fun found hfound => ?_⟩
        rw [h.2 found hfound, List.exists_mem_cons_iff, or_iff_right hnot]
      unfold Audit.hasActiveSub
      cases hrecurring : price.recurring with
      | none =>
          refine hlater ?_
          rw [hrecurring]
          rintro ⟨h, -⟩
          cases h
      | some interval =>
          rw [if_neg (by simp), Fallible.ends_bind, Fallible.ends_atomic]
          dsimp only
          cases hpage : api.subscriptionList account price.id with
          | error e => exact ⟨rfl, fun found hfound => by cases hfound⟩
          | ok page =>
              obtain ⟨hlisted, hnone⟩ := api.mem_subscriptionList account price.id page hpage
              rw [Fallible.follow_ok]
              cases page with
              | nil =>
                  rw [if_pos rfl]
                  exact hlater fun ⟨_, s, hs⟩ => hnone rfl s hs
              | cons s page =>
                  rw [if_neg (List.cons_ne_nil s page)]
                  refine ⟨rfl, fun found hfound => ?_⟩
                  obtain rfl := Except.ok.inj hfound
                  refine iff_of_true rfl ⟨price, List.mem_cons_self, ?_, s, hlisted s List.mem_cons_self⟩
                  rw [hrecurring]
                  rfl

/-- The prices that are gone through are the active ones of the product. -/
theorem seen_iff {product : String} {prices : List AccountPrice}
    (h : api.priceList account product = .ok prices) : account.Seen product ↔
      ∃ price ∈ prices, price.recurring.isSome = true ∧ ∃ s, account.Listed price.id s := by
  have hmem := api.mem_priceList account product prices h
  unfold StripeAccount.Seen
  constructor
  · rintro ⟨price, hprice, hproduct, hactive, hrest⟩
    exact ⟨price, (hmem price).mpr ⟨hprice, hproduct, hactive⟩, hrest⟩
  · rintro ⟨price, hprice, hrest⟩
    obtain ⟨hstored, hproduct, hactive⟩ := (hmem price).mp hprice
    exact ⟨price, hstored, hproduct, hactive, hrest⟩

end Reads

/-! ## Products in use stay -/

/-- The account as it was, except that products that are not in use may be archived. -/
structure KeepsUse (account after : StripeAccount) : Prop where
  prices : after.prices = account.prices
  subscriptions : after.subscriptions = account.subscriptions
  products : ∀ p ∈ account.products.rows, p.active = true → account.InUse p.id →
    p ∈ after.products.rows

section Keeps

variable {account t : StripeAccount} {api : AuditApi}

theorem seen_congr {productId : String} (hprices : t.prices = account.prices)
    (hsubscriptions : t.subscriptions = account.subscriptions) :
    t.Seen productId ↔ account.Seen productId := by
  unfold StripeAccount.Seen StripeAccount.Listed
  rw [hprices, hsubscriptions]

theorem KeepsUse.refl (account : StripeAccount) : KeepsUse account account :=
  ⟨rfl, rfl, fun _ hp _ _ => hp⟩

theorem KeepsUse.archive (h : KeepsUse account t) {id : String} (hid : ¬ account.InUse id) :
    KeepsUse account (t.archive id) := by
  refine ⟨h.prices, h.subscriptions, fun p hp hactive huse => ?_⟩
  rw [StripeAccount.rows_archive]
  refine List.mem_map.mpr ⟨p, h.products p hp hactive huse, if_neg ?_⟩
  rintro rfl
  exact hid huse

/-- A product is archived only if the command sees no subscription on it. -/
theorem ends_archiveStray {sp : AccountProduct} (hsees : account.InUse sp.id → account.Seen sp.id)
    (h : KeepsUse account t) :
    (Audit.archiveStray api sp).Ends (fun _ t' => KeepsUse account t') t := by
  unfold Audit.archiveStray
  rw [Fallible.ends_bind, Fallible.ends_atomic]
  dsimp only
  cases hlisted : api.priceList t sp.id with
  | error e => exact h
  | ok prices =>
      rw [Fallible.follow_ok]
      refine Fallible.Ends.keep ((ends_hasActiveSub prices).mono fun result t' hended => ?_)
      obtain ⟨rfl, hfound⟩ := hended
      refine ⟨h, fun found hresult => ?_⟩
      cases found with
      | true => exact h
      | false =>
          have hunseen : ¬ account.Seen sp.id := by
            rw [← seen_congr h.prices h.subscriptions, seen_iff hlisted, ← hfound false hresult]
            exact Bool.false_ne_true
          show (Fallible.atomic _ _).Ends _ _
          rw [Fallible.ends_atomic]
          rcases api.productModify_archives t' sp.id with harchived | ⟨hsame, -⟩
          · rw [harchived]
            exact h.archive fun huse => hunseen (hsees huse)
          · rw [hsame]
            exact h

theorem auditSafe_of_seesUse {db : Db} (hsees : SeesUse db account) : AuditSafe db account := by
  intro api apiKey archive p hp hactive huse
  suffices hkeeps : (Audit.handle api apiKey archive db).Ends (fun _ t => KeepsUse account t) account from
    hkeeps.products p hp hactive huse
  have hstart := KeepsUse.refl account
  unfold Audit.handle Audit.classifyProducts
  split
  next => exact hstart
  next =>
    rw [Fallible.ends_bind, Fallible.ends_bind, Fallible.ends_atomic]
    dsimp only
    cases hlisted : api.productList account with
    | error e => exact hstart
    | ok listed =>
        rw [Fallible.follow_ok, Fallible.ends_pure, Fallible.follow_ok]
        split
        next => exact hstart
        next =>
          split
          next => exact hstart
          next =>
            refine Fallible.ends_forM (fun stray hstray t ht => ends_archiveStray ?_ ht) hstart
            obtain ⟨hmem, howned⟩ := mem_partitionProducts.mp ⟨stray.2, hstray⟩
            obtain ⟨hstored, hstrayActive⟩ := (api.mem_productList account listed hlisted _).mp hmem
            exact hsees stray.1 hstored hstrayActive howned

end Keeps

/-! ## An account that answers every call -/

/-- Stripe with lists in the order of the account, where no call fails. -/
def storedApi : AuditApi where
  productList account := .ok (account.products.filter AccountProduct.active)
  priceList account product := .ok (account.prices.filter fun p => p.product == product && p.active)
  subscriptionList account price := .ok ((account.subscriptions.filter fun s =>
    s.status == .active && s.prices.contains price).take 1)
  productModify account id := (.ok (), account.archive id)
  mem_productList account listed h p := by
    obtain rfl := Except.ok.inj h
    exact List.mem_filter
  mem_priceList account product listed h p := by
    obtain rfl := Except.ok.inj h
    simp [List.mem_filter]
  mem_subscriptionList account price page h := by
    obtain rfl := Except.ok.inj h
    have hlisted : ∀ s, s ∈ (account.subscriptions.filter fun s =>
        s.status == .active && s.prices.contains price) ↔ account.Listed price s := by
      intro s
      simp [List.mem_filter, StripeAccount.Listed]
    refine ⟨fun s hs => (hlisted s).mp (List.mem_of_mem_take hs), fun hnone s hs => ?_⟩
    rw [List.take_eq_nil_iff, or_iff_right Nat.one_ne_zero] at hnone
    have hmem := (hlisted s).mpr hs
    rw [hnone] at hmem
    cases hmem
  productModify_archives _ _ := Or.inl rfl

section Stored

variable {account t : StripeAccount}

theorem exec_hasActiveSub_stored (prices : List AccountPrice) (t : StripeAccount) :
    ∃ found, Fallible.exec (Audit.hasActiveSub storedApi prices) t = (.ok found, t) ∧
      (found = true ↔ ∃ price ∈ prices, price.recurring.isSome = true ∧ ∃ s, t.Listed price.id s) := by
  have hends : ∃ found, Fallible.exec (Audit.hasActiveSub storedApi prices) t = (.ok found, t) := by
    induction prices with
    | nil => exact ⟨false, rfl⟩
    | cons price prices ih =>
        unfold Audit.hasActiveSub
        split
        next => exact ih
        next =>
          rw [Fallible.exec_bind, Fallible.exec_atomic]
          show ∃ found, Fallible.exec (if _ = [] then _ else _) t = _
          split
          next => exact ih
          next => exact ⟨true, rfl⟩
  obtain ⟨found, hfound⟩ := hends
  have hended : (Audit.hasActiveSub storedApi prices).Ends _ t := ends_hasActiveSub prices
  unfold Fallible.Ends at hended
  rw [hfound] at hended
  exact ⟨found, hfound, hended.2 found rfl⟩

/-- A stray is archived, unless a subscription on it is seen. -/
theorem exec_archiveStray_stored (sp : AccountProduct) (t : StripeAccount) :
    (t.Seen sp.id ∧ Fallible.exec (Audit.archiveStray storedApi sp) t = (.ok (), t)) ∨
      (¬ t.Seen sp.id ∧
        Fallible.exec (Audit.archiveStray storedApi sp) t = (.ok (), t.archive sp.id)) := by
  have hlisted : storedApi.priceList t sp.id =
      .ok (t.prices.filter fun p => p.product == sp.id && p.active) := rfl
  obtain ⟨found, hexec, hfound⟩ := exec_hasActiveSub_stored
    (t.prices.filter fun p => p.product == sp.id && p.active) t
  have hstray : Fallible.exec (Audit.archiveStray storedApi sp) t =
      if found then (.ok (), t) else (.ok (), t.archive sp.id) := by
    unfold Audit.archiveStray
    rw [Fallible.exec_bind, Fallible.exec_atomic, hlisted, Fallible.resume_ok, Fallible.exec_bind, hexec,
      Fallible.resume_ok]
    cases found <;> rfl
  rw [seen_iff hlisted, ← hfound, hstray]
  cases found with
  | true => exact Or.inl ⟨rfl, rfl⟩
  | false => exact Or.inr ⟨Bool.false_ne_true, rfl⟩

/-- The products that are active after the loop were there before it, and the command has
seen a subscription on each stray among them. -/
theorem exec_archiveStrays_stored (strays : List (AccountProduct × List (String × String)))
    (t : StripeAccount) :
    ∃ t', Fallible.exec (Audit.archiveStrays storedApi strays) t = (.ok (), t') ∧
      ∀ p ∈ t'.products.rows, p.active = true → p ∈ t.products.rows ∧
        ∀ stray ∈ strays, stray.1.id = p.id → t.Seen p.id := by
  induction strays generalizing t with
  | nil => exact ⟨t, rfl, fun p hp _ => ⟨hp, List.forall_mem_nil _⟩⟩
  | cons stray strays ih =>
      have hloop : ∀ r, Fallible.exec (Audit.archiveStray storedApi stray.1) t = (.ok (), r) →
          Fallible.exec (Audit.archiveStrays storedApi (stray :: strays)) t =
            Fallible.exec (Audit.archiveStrays storedApi strays) r := by
        intro r hr
        show Fallible.exec (Audit.archiveStray storedApi stray.1 >>= fun _ =>
          Audit.archiveStrays storedApi strays) t = _
        rw [Fallible.exec_bind, hr, Fallible.resume_ok]
      rcases exec_archiveStray_stored stray.1 t with ⟨hseen, hexec⟩ | ⟨-, hexec⟩
      · obtain ⟨t', hrest, hkept⟩ := ih t
        refine ⟨t', (hloop t hexec).trans hrest, fun p hp hactive => ?_⟩
        obtain ⟨hstored, hstrays⟩ := hkept p hp hactive
        refine ⟨hstored, List.forall_mem_cons.mpr ⟨?_, hstrays⟩⟩
        intro hid
        rwa [← hid]
      · obtain ⟨t', hrest, hkept⟩ := ih (t.archive stray.1.id)
        refine ⟨t', (hloop _ hexec).trans hrest, fun p hp hactive => ?_⟩
        obtain ⟨hstored, hstrays⟩ := hkept p hp hactive
        -- an active row of the account is not the one that was archived
        rw [StripeAccount.rows_archive, List.mem_map] at hstored
        obtain ⟨q, hq, rfl⟩ := hstored
        unfold AccountProduct.archive at hactive hstrays ⊢
        split at hactive
        next => cases hactive
        next hne =>
          rw [if_neg hne] at hstrays ⊢
          refine ⟨hq, List.forall_mem_cons.mpr ⟨fun hid => absurd hid.symm hne, fun other hother hid => ?_⟩⟩
          exact (seen_congr rfl rfl).mp (hstrays other hother hid)

theorem exec_handle_stored (db : Db) (account : StripeAccount) :
    Fallible.exec (Audit.handle storedApi "sk" true db) account =
      Fallible.exec (Audit.archiveStrays storedApi (partitionProducts
        (db.plans.rows.map fun plan => uuidText plan.id)
        (db.products.rows.map fun product => uuidText product.id)
        (account.products.filter AccountProduct.active)).1) account := by
  unfold Audit.handle Audit.classifyProducts
  rw [if_neg (by decide), Fallible.exec_bind, Fallible.exec_bind, Fallible.exec_atomic]
  show Fallible.exec (if _ = [] then _ else _) account = _
  split
  next hnone =>
    rw [hnone]
    rfl
  next => rfl

theorem seesUse_of_auditSafe {db : Db} (hsafe : AuditSafe db account) : SeesUse db account := by
  intro p hp hactive hstray huse
  have hkept := hsafe storedApi "sk" true p hp hactive huse
  have hlisted : p ∈ account.products.filter AccountProduct.active := List.mem_filter.mpr ⟨hp, hactive⟩
  obtain ⟨md, hmd⟩ := mem_partitionProducts.mpr ⟨hlisted, hstray⟩
  obtain ⟨t', hexec, hrows⟩ := exec_archiveStrays_stored _ account
  rw [exec_handle_stored, hexec] at hkept
  exact (hrows p hkept hactive).2 (p, md) hmd rfl

end Stored

/-! ## When the audit is safe -/

/-- **The audit is safe** exactly if the command finds a subscription on every stray product
that is in use: one in status `active`, on an active price that recurs. -/
theorem auditSafe_iff (db : Db) (account : StripeAccount) :
    AuditSafe db account ↔ SeesUse db account :=
  ⟨seesUse_of_auditSafe, auditSafe_of_seesUse⟩

/-- A product of an earlier catalog, with a customer on the price before the last. -/
def repricedAccount : StripeAccount where
  products := ⟨[⟨"prod_old", "Basic", [("kind", "plan"), ("local_plan_id", "gone")], true⟩], by decide⟩
  prices := [⟨"price_2024", "prod_old", false, some .month⟩,
    ⟨"price_2025", "prod_old", true, some .month⟩]
  subscriptions := [⟨"sub_1", .active, ["price_2024"]⟩]

theorem not_auditSafe : ¬ AuditSafe (shopDb "Basic" 999 "price_basic") repricedAccount := by
  intro hsafe
  have hkept := hsafe storedApi "sk" true
    ⟨"prod_old", "Basic", [("kind", "plan"), ("local_plan_id", "gone")], true⟩
    List.mem_cons_self rfl ⟨_, List.mem_cons_self, rfl, _, List.mem_cons_self, rfl, List.mem_cons_self⟩
  rw [exec_handle_stored] at hkept
  revert hkept
  decide

end Saasmint
