import Saasmint.Users.OAuthLogin

/-!
# Resolving a provider's user

`resolve_oauth_user` run alone.  Where the identity is not linked and the provider has
confirmed the address, a row is inserted: an account for the user of that address, or a new
user with one.  Before the insert only some of its constraints have been looked at.  That
the user may have another account of the provider is one that has not.

`resolves_iff` names what must be free for the insert, and the texts that must fit.
-/

namespace Saasmint.Auth

open Atomic Relational

/-! ## What is known -/

namespace Db

variable (db : Db)

/-- The identity is linked to a user. -/
def KnowsIdentity (provider providerUserId : String) : Prop :=
  ∃ account ∈ db.socialAccounts.rows,
    account.provider = provider ∧ account.providerUserId = providerUserId

/-- A user has the address, in whatever case it is written. -/
def KnowsEmail (email : String) : Prop :=
  ∃ user ∈ db.users.rows, lower user.email = lower email

variable {db}

theorem socialAccount?_eq_none {provider providerUserId : String} :
    db.socialAccount? provider providerUserId = none ↔
      ¬ db.KnowsIdentity provider providerUserId := by
  unfold socialAccount? KnowsIdentity
  rw [Table.find?_eq_none]
  simp only [Bool.and_eq_true, beq_iff_eq, not_exists, not_and]

theorem userByEmail_eq_none {email : String} :
    db.userByEmail email = none ↔ ¬ db.KnowsEmail email := by
  unfold userByEmail KnowsEmail
  rw [Table.find?_eq_none]
  simp only [beq_iff_eq, not_exists, not_and]

/-- A linked account has its user. -/
theorem exists_owner {provider providerUserId : String} {account : SocialAccount}
    (h : db.socialAccount? provider providerUserId = some account) :
    ∃ user, db.user? account.userId = some user := by
  obtain ⟨user, huser, hid⟩ := db.integral.socialAccounts account (Table.mem_of_find? h).1
  exact ⟨user, user?_eq_some.mpr ⟨huser, hid⟩⟩

/-! ## Inserting -/

theorem commit_isOk {t : Tables} (h : t.Integral) : ∃ db, commit t = .ok db :=
  ⟨⟨t, h⟩, commit_eq_ok.mpr rfl⟩

theorem unique_bind_isOk {α : Type} [Row α] {t : Table α} {row : α} {write : Table α → Tables}
    (hcheck : Row.check row)
    (hintegral : ∀ t', t'.rows = t.rows ++ [row] → (write t').Integral) :
    (∃ db : Db, (do
      let table ← unique (t.insert? row)
      commit (write table)) = Except.ok db) ↔ ∀ other ∈ t.rows, ¬ Row.clash other row := by
  constructor
  · rintro ⟨db, hdb⟩ other hother hclash
    obtain ⟨table, htable, -⟩ := write_eq_ok hdb
    rw [Table.insert?_eq_none hother hclash] at htable
    cases htable
  · intro hfree
    obtain ⟨table, htable⟩ := Table.insert?_isSome hcheck hfree
    obtain ⟨db, hdb⟩ := commit_isOk (hintegral table (Table.rows_insert? htable))
    refine ⟨db, ?_⟩
    rw [htable]
    exact hdb

theorem insertUser_isOk {user : Account} :
    (∃ db', db.insertUser user = .ok db') ↔ ∀ other ∈ db.users.rows, ¬ Row.clash other user := by
  refine unique_bind_isOk trivial fun users husers => ?_
  have hkept : ∀ id, (∃ stored ∈ db.users.rows, stored.id = id) →
      ∃ stored ∈ users.rows, stored.id = id := by
    rintro id ⟨stored, hstored, hid⟩
    exact ⟨stored, husers ▸ List.mem_append_left _ hstored, hid⟩
  exact ⟨fun token htoken => hkept _ (db.integral.refreshTokens token htoken),
    fun model token htoken => hkept _ (db.integral.oneTime model token htoken),
    fun account haccount => hkept _ (db.integral.socialAccounts account haccount)⟩

/-- An account that is not linked can be: if its key is new, the user has no other account of
the provider, and the column can hold its identifier. -/
theorem getOrCreate_isOk {account : SocialAccount}
    (hnone : ¬ db.KnowsIdentity account.provider account.providerUserId)
    (huser : ∃ user ∈ db.users.rows, user.id = account.userId) :
    (∃ db', db.getOrCreateSocialAccount account = .ok db') ↔
      fitsVarchar 255 account.providerUserId = true ∧ ∀ other ∈ db.socialAccounts.rows,
        other.id ≠ account.id ∧
          ¬ (other.userId = account.userId ∧ other.provider = account.provider) := by
  have hclash : ∀ other ∈ db.socialAccounts.rows, ¬ Row.clash other account ↔
      other.id ≠ account.id ∧
        ¬ (other.userId = account.userId ∧ other.provider = account.provider) := by
    intro other hother
    constructor
    · exact fun h => ⟨fun hid => h (Or.inl hid), fun hsame => h (Or.inr (Or.inr hsame))⟩
    · rintro ⟨hid, hsame⟩ (h | h | h)
      · exact hid h
      · exact hnone ⟨other, hother, h⟩
      · exact hsame h
  have hintegral : ∀ accounts : Table SocialAccount,
      accounts.rows = db.socialAccounts.rows ++ [account] →
        { db.toTables with socialAccounts := accounts }.Integral := by
    intro accounts haccounts
    refine ⟨db.integral.refreshTokens, db.integral.oneTime, fun other hother => ?_⟩
    rw [haccounts] at hother
    rcases List.mem_append.mp hother with hstored | hnew
    · exact db.integral.socialAccounts other hstored
    · rw [List.mem_singleton.mp hnew]
      exact huser
  unfold getOrCreateSocialAccount
  rw [socialAccount?_eq_none.mpr hnone]
  dsimp only
  cases fitsVarchar 255 account.providerUserId with
  | false =>
      rw [if_neg Bool.false_ne_true]
      constructor
      · rintro ⟨_, h⟩
        cases h
      · rintro ⟨h, -⟩
        cases h
  | true =>
      rw [if_pos rfl, unique_bind_isOk trivial hintegral, and_iff_right rfl]
      exact forall₂_congr hclash

end Db

/-! ## How a resolution ends -/

section Resolving

variable (draws : OAuthDraws) (provider : String) (info : OAuthUserInfo)

/-- The account that `resolve_oauth_user` links to a user. -/
def linkedAccount (userId : UUID) : SocialAccount where
  id := draws.accountId
  userId := userId
  provider := provider
  providerUserId := info.providerUserId

/-- The resolution signs a user in or asks for a confirmation, or it refuses; and it refuses
exactly an unknown identity with an unknown address that is not verified. -/
def Resolves (s : State) : Prop :=
  ∃ resolution, ((OAuthSession.resolveOauthUser draws provider info).exec s).1 = .ok resolution ∧
    resolution ≠ .emailRequired ∧
    (resolution = .emailNotVerified ↔ ¬ s.db.KnowsIdentity provider info.providerUserId ∧
      ¬ s.db.KnowsEmail info.email ∧ info.emailVerified = false)

/-- An account can be linked to the user: the user has none of the provider, its key is new,
and the identifier fits. -/
def Linkable (db : Db) (userId : UUID) : Prop :=
  fitsVarchar 255 info.providerUserId = true ∧ ∀ other ∈ db.socialAccounts.rows,
    other.id ≠ draws.accountId ∧ ¬ (other.userId = userId ∧ other.provider = provider)

/-- A user can be created: there is an address, it is still free when it has been normalised,
the key is new, and the texts fit. -/
def Creatable (db : Db) : Prop :=
  info.email ≠ "" ∧ OAuthSession.userFits info = true ∧ ∀ other ∈ db.users.rows,
    other.id ≠ draws.rowId ∧ lower other.email ≠ lower (normalizeEmail info.email)

/-- Nothing stands in the way of what is inserted. -/
structure Unobstructed (db : Db) : Prop where
  link : ∀ existing, db.userByEmail info.email = some existing → provider ∈ trustedForAutoLink →
    Linkable draws provider info db existing.id
  create : db.userByEmail info.email = none →
    Creatable draws info db ∧ Linkable draws provider info db draws.rowId

variable {draws provider info} {s : State}

theorem linkable_iff {db : Db} {userId : UUID}
    (hnone : ¬ db.KnowsIdentity provider info.providerUserId)
    (huser : ∃ user ∈ db.users.rows, user.id = userId) :
    (∃ db', db.getOrCreateSocialAccount (linkedAccount draws provider info userId) = .ok db') ↔
      Linkable draws provider info db userId :=
  Db.getOrCreate_isOk hnone huser

theorem creatable_iff {db : Db} :
    (info.email ≠ "" ∧ OAuthSession.userFits info = true ∧
      ∃ db', db.insertUser (OAuthSession.newUser draws info) = .ok db') ↔
      Creatable draws info db := by
  rw [Db.insertUser_isOk]
  refine and_congr_right fun _ => and_congr_right fun _ => forall₂_congr fun other _ => ?_
  exact not_or

/-- The new user with its account. -/
theorem createUserWith_isOk {db : Db} (hnone : ¬ db.KnowsIdentity provider info.providerUserId) :
    (∃ db', db.createUserWith (OAuthSession.newUser draws info)
      (linkedAccount draws provider info draws.rowId) = .ok db') ↔
      (∃ created, db.insertUser (OAuthSession.newUser draws info) = .ok created) ∧
        Linkable draws provider info db draws.rowId := by
  have hlink : ∀ created, db.insertUser (OAuthSession.newUser draws info) = .ok created →
      ((∃ db', created.getOrCreateSocialAccount
        (linkedAccount draws provider info draws.rowId) = .ok db') ↔
          Linkable draws provider info db draws.rowId) := by
    intro created hcreated
    obtain ⟨users, husers, htables⟩ := Db.write_eq_ok hcreated
    have haccounts : created.socialAccounts = db.socialAccounts := by rw [htables]
    have hknown : ¬ created.KnowsIdentity provider info.providerUserId := by
      unfold Db.KnowsIdentity
      rw [haccounts]
      exact hnone
    have hstored : ∃ user ∈ created.users.rows, user.id = draws.rowId := by
      refine ⟨OAuthSession.newUser draws info, ?_, rfl⟩
      rw [htables]
      dsimp only
      rw [Table.rows_insert? husers]
      exact List.mem_append_right _ List.mem_cons_self
    rw [linkable_iff hknown hstored]
    unfold Linkable
    rw [haccounts]
  constructor
  · rintro ⟨db', h⟩
    obtain ⟨created, hcreated, hlinked⟩ := Db.createUserWith_eq_ok h
    exact ⟨⟨created, hcreated⟩, (hlink created hcreated).mp ⟨db', hlinked⟩⟩
  · rintro ⟨⟨created, hcreated⟩, hfree⟩
    obtain ⟨db', hlinked⟩ := (hlink created hcreated).mpr hfree
    refine ⟨db', ?_⟩
    unfold Db.createUserWith
    rw [hcreated]
    exact hlinked

/-- What follows a read of a callback. -/
theorem exec_ofSession_read {α β : Type} {query : Query} {f : State → α}
    {rest : α → OAuthSession β} :
    (OAuthSession.ofSession (Session.read query f) >>= rest).exec s = (rest (f s)).exec s := by
  rw [Fallible.exec_bind, OAuthSession.ofSession, Fallible.exec_relabel, Session.read,
    Fallible.exec_observe, Fallible.resume_ok]

theorem exec_call_ok {α : Type} {call : OAuthCall} {db : Db}
    (h : performCall call s = s.settle (.ok db)) (value : α) :
    (OAuthSession.call call >>= fun _ => pure value).exec s = (.ok value, { s with db }) := by
  rw [Fallible.exec_bind, OAuthSession.call, Fallible.exec_atomic, h]
  rfl

theorem exec_call_error {α : Type} {call : OAuthCall} {e : AuthError}
    (h : performCall call s = s.settle (.error e)) (value : α) :
    (OAuthSession.call call >>= fun _ => pure value).exec s = (.error e, s) := by
  rw [Fallible.exec_bind, OAuthSession.call, Fallible.exec_atomic, h]
  rfl

/-- A user whose address is verified by a trusted provider is linked, or the database
refuses. -/
theorem exec_linkOrRequest_links (hverified : info.emailVerified = true)
    (htrusted : provider ∈ trustedForAutoLink) (existing : Account) :
    ((OAuthSession.linkOrRequest draws provider info existing).exec s).1 = .ok (.user existing) ∧
        (∃ db', s.db.getOrCreateSocialAccount (linkedAccount draws provider info existing.id) =
          .ok db') ∨
      (∃ e, ((OAuthSession.linkOrRequest draws provider info existing).exec s).1 = .error e) ∧
        ¬ ∃ db', s.db.getOrCreateSocialAccount
          (linkedAccount draws provider info existing.id) = .ok db' := by
  have hcall : performCall (.linkAccount (linkedAccount draws provider info existing.id)) s =
      s.settle (s.db.getOrCreateSocialAccount
        (linkedAccount draws provider info existing.id)) := rfl
  unfold OAuthSession.linkOrRequest
  rw [if_pos ⟨hverified, htrusted⟩]
  cases hlink : s.db.getOrCreateSocialAccount (linkedAccount draws provider info existing.id) with
  | ok db' =>
      rw [hlink] at hcall
      exact Or.inl ⟨congrArg Prod.fst (exec_call_ok hcall _), db', rfl⟩
  | error e =>
      rw [hlink] at hcall
      refine Or.inr ⟨⟨e, congrArg Prod.fst (exec_call_error hcall _)⟩, ?_⟩
      rintro ⟨db', h⟩
      cases h

/-- Otherwise the user is asked for a confirmation, or nobody is. -/
theorem exec_linkOrRequest_collides (h : ¬ (info.emailVerified = true ∧ provider ∈ trustedForAutoLink))
    {existing : Account} : ∃ user?, (OAuthSession.linkOrRequest draws provider info existing).exec s =
      (.ok (.collision user?), s) := by
  unfold OAuthSession.linkOrRequest
  rw [if_neg h]
  split
  · exact ⟨none, rfl⟩
  · exact ⟨some existing, rfl⟩

/-- A new user is created and linked, or nothing is stored. -/
theorem exec_createLinkedUser (draws : OAuthDraws) (provider : String) (info : OAuthUserInfo)
    (s : State) :
    ((OAuthSession.userFits info = true ∧ ∃ db', s.db.createUserWith
          (OAuthSession.newUser draws info) (linkedAccount draws provider info draws.rowId) =
            .ok db') ∧
        ∃ t, (OAuthSession.createLinkedUser draws provider info).exec s =
          (.ok (.user (OAuthSession.newUser draws info)), t)) ∨
      (¬ (OAuthSession.userFits info = true ∧ ∃ db', s.db.createUserWith
          (OAuthSession.newUser draws info) (linkedAccount draws provider info draws.rowId) =
            .ok db') ∧
        ∃ e t, (OAuthSession.createLinkedUser draws provider info).exec s = (.error e, t) ∧
          t.db = s.db) := by
  unfold OAuthSession.createLinkedUser
  cases OAuthSession.userFits info with
  | false =>
      rw [if_neg Bool.false_ne_true]
      refine Or.inr ⟨?_, _, s, rfl, rfl⟩
      rintro ⟨hfits, -⟩
      cases hfits
  | true =>
      -- the signal has dropped the snapshot, and the database is as it was
      obtain ⟨t, hdropped, hdb⟩ : ∃ t, perform (.cacheDelete (authUserCacheKey
          (uuidText draws.rowId))) s = (.ok 0, t) ∧ t.db = s.db := ⟨_, rfl, rfl⟩
      have hcall : performCall (.createUser (OAuthSession.newUser draws info)
          (linkedAccount draws provider info draws.rowId)) t = t.settle (s.db.createUserWith
            (OAuthSession.newUser draws info) (linkedAccount draws provider info draws.rowId)) := by
        rw [← hdb]
        rfl
      rw [if_pos rfl, Fallible.exec_bind, OAuthSession.ofSession, Fallible.exec_relabel,
        Session.query, Fallible.exec_atomic, hdropped, Fallible.resume_ok]
      cases hcreate : s.db.createUserWith (OAuthSession.newUser draws info)
          (linkedAccount draws provider info draws.rowId) with
      | ok db' =>
          rw [hcreate] at hcall
          exact Or.inl ⟨⟨rfl, db', rfl⟩, _, exec_call_ok hcall _⟩
      | error e =>
          rw [hcreate] at hcall
          refine Or.inr ⟨?_, e, t, exec_call_error hcall _, hdb⟩
          rintro ⟨-, db', h⟩
          cases h

/-- With an address that is verified and unknown, the user is created, or the request ends
in an error. -/
theorem exec_resolveOauthUser_create (hidentity : ¬ s.db.KnowsIdentity provider info.providerUserId)
    (hunknown : ¬ s.db.KnowsEmail info.email) (hverified : info.emailVerified = true)
    (hemail : info.email ≠ "") :
    ((OAuthSession.resolveOauthUser draws provider info).exec s).1 =
        .ok (.user (OAuthSession.newUser draws info)) ∧
        Creatable draws info s.db ∧ Linkable draws provider info s.db draws.rowId ∨
      (∃ e, ((OAuthSession.resolveOauthUser draws provider info).exec s).1 = .error e) ∧
        ¬ (Creatable draws info s.db ∧ Linkable draws provider info s.db draws.rowId) := by
  have hfree : (OAuthSession.userFits info = true ∧ ∃ db', s.db.createUserWith
      (OAuthSession.newUser draws info) (linkedAccount draws provider info draws.rowId) = .ok db') ↔
      Creatable draws info s.db ∧ Linkable draws provider info s.db draws.rowId := by
    rw [createUserWith_isOk hidentity, ← creatable_iff]
    tauto
  have hnone : s.db.userByEmail info.email = none := Db.userByEmail_eq_none.mpr hunknown
  unfold OAuthSession.resolveOauthUser
  rw [exec_ofSession_read, Db.socialAccount?_eq_none.mpr hidentity]
  dsimp only [Option.bind_eq_bind, Option.bind_none]
  rw [exec_ofSession_read, hnone]
  dsimp only
  rw [hverified, if_neg Bool.noConfusion, if_neg hemail, Fallible.exec_tryCatch]
  rcases exec_createLinkedUser draws provider info s with
    ⟨hcreated, t, hexec⟩ | ⟨hrefused, e, t, hexec, hdb⟩
  · rw [hexec]
    exact Or.inl ⟨rfl, hfree.mp hcreated⟩
  · rw [hexec]
    refine Or.inr ⟨?_, fun h => hrefused (hfree.mpr h)⟩
    cases e with
    | integrity message =>
        -- nobody else has created the user
        dsimp only
        rw [exec_ofSession_read, hdb, hnone]
        exact ⟨_, rfl⟩
    | _ => exact ⟨_, rfl⟩

/-- The first two lookups. -/
theorem exec_resolveOauthUser_known (hidentity : s.db.KnowsIdentity provider info.providerUserId) :
    ∃ user, ((OAuthSession.resolveOauthUser draws provider info).exec s).1 = .ok (.user user) := by
  cases haccount : s.db.socialAccount? provider info.providerUserId with
  | none => exact absurd hidentity (Db.socialAccount?_eq_none.mp haccount)
  | some account =>
      obtain ⟨user, huser⟩ := Db.exists_owner haccount
      refine ⟨user, ?_⟩
      unfold OAuthSession.resolveOauthUser
      rw [exec_ofSession_read, haccount]
      dsimp only [Option.bind_eq_bind, Option.bind_some]
      rw [huser]
      rfl

theorem exec_resolveOauthUser_existing
    (hidentity : ¬ s.db.KnowsIdentity provider info.providerUserId) {existing : Account}
    (hexisting : s.db.userByEmail info.email = some existing) :
    (OAuthSession.resolveOauthUser draws provider info).exec s =
      (OAuthSession.linkOrRequest draws provider info existing).exec s := by
  unfold OAuthSession.resolveOauthUser
  rw [exec_ofSession_read, Db.socialAccount?_eq_none.mpr hidentity]
  dsimp only [Option.bind_eq_bind, Option.bind_none]
  rw [exec_ofSession_read, hexisting]

variable (draws) in
theorem exec_resolveOauthUser_refused
    (hidentity : ¬ s.db.KnowsIdentity provider info.providerUserId)
    (hunknown : ¬ s.db.KnowsEmail info.email) :
    (info.emailVerified = false →
        ((OAuthSession.resolveOauthUser draws provider info).exec s).1 = .ok .emailNotVerified) ∧
      (info.emailVerified = true → info.email = "" →
        ((OAuthSession.resolveOauthUser draws provider info).exec s).1 = .ok .emailRequired) := by
  unfold OAuthSession.resolveOauthUser
  rw [exec_ofSession_read, Db.socialAccount?_eq_none.mpr hidentity]
  dsimp only [Option.bind_eq_bind, Option.bind_none]
  rw [exec_ofSession_read, Db.userByEmail_eq_none.mpr hunknown]
  dsimp only
  constructor
  · intro hverified
    rw [if_pos hverified]
    rfl
  · intro hverified hemail
    rw [hverified, if_neg Bool.noConfusion, if_pos hemail]
    rfl

/-- A resolution to a user or to a collision, where something is known of them. -/
theorem resolves_of_ok {resolution : OAuthResolution}
    (h : ((OAuthSession.resolveOauthUser draws provider info).exec s).1 = .ok resolution)
    (hrequired : resolution ≠ .emailRequired) (hverified : resolution ≠ .emailNotVerified)
    (hknown : s.db.KnowsIdentity provider info.providerUserId ∨ s.db.KnowsEmail info.email ∨
      info.emailVerified = true) : Resolves draws provider info s := by
  refine ⟨resolution, h, hrequired, fun hrefused => absurd hrefused hverified, ?_⟩
  rintro ⟨hidentity, hemail, hunverified⟩
  rcases hknown with hknown | hknown | hknown
  · exact absurd hknown hidentity
  · exact absurd hknown hemail
  · rw [hunverified] at hknown
    cases hknown

/-- A user has the address. -/
theorem resolves_existing_iff (hidentity : ¬ s.db.KnowsIdentity provider info.providerUserId)
    {existing : Account} (hexisting : s.db.userByEmail info.email = some existing) :
    Resolves draws provider info s ↔ (info.emailVerified = true → provider ∈ trustedForAutoLink →
      Linkable draws provider info s.db existing.id) := by
  have hexec : (OAuthSession.resolveOauthUser draws provider info).exec s =
      (OAuthSession.linkOrRequest draws provider info existing).exec s :=
    exec_resolveOauthUser_existing hidentity hexisting
  obtain ⟨hmem, hsame⟩ := Table.mem_of_find? hexisting
  have hemail : s.db.KnowsEmail info.email := ⟨existing, hmem, by simpa using hsame⟩
  by_cases hlinks : info.emailVerified = true ∧ provider ∈ trustedForAutoLink
  · obtain ⟨hverified, htrusted⟩ := hlinks
    have hlinkable : (∃ db', s.db.getOrCreateSocialAccount
        (linkedAccount draws provider info existing.id) = .ok db') ↔
          Linkable draws provider info s.db existing.id :=
      linkable_iff hidentity ⟨existing, hmem, rfl⟩
    rcases exec_linkOrRequest_links hverified htrusted existing with ⟨hok, hfree⟩ | ⟨⟨e, he⟩, htaken⟩
    · refine ⟨fun _ _ _ => hlinkable.mp hfree, fun _ => ?_⟩
      rw [← hexec] at hok
      exact resolves_of_ok hok OAuthResolution.noConfusion OAuthResolution.noConfusion
        (Or.inr (Or.inl hemail))
    · constructor
      · rintro ⟨resolution, hok, -⟩
        rw [hexec, he] at hok
        cases hok
      · exact fun hfree => absurd (hlinkable.mpr (hfree hverified htrusted)) htaken
  · refine ⟨fun _ hverified htrusted => absurd ⟨hverified, htrusted⟩ hlinks, fun _ => ?_⟩
    obtain ⟨user?, hcollides⟩ : ∃ user?, (OAuthSession.linkOrRequest draws provider info
      existing).exec s = (.ok (.collision user?), s) := exec_linkOrRequest_collides hlinks
    rw [← hexec] at hcollides
    exact resolves_of_ok (congrArg Prod.fst hcollides) OAuthResolution.noConfusion
      OAuthResolution.noConfusion (Or.inr (Or.inl hemail))

/-- Nobody has the address. -/
theorem resolves_unknown_iff (hidentity : ¬ s.db.KnowsIdentity provider info.providerUserId)
    (hunknown : ¬ s.db.KnowsEmail info.email) :
    Resolves draws provider info s ↔ (info.emailVerified = true →
      Creatable draws info s.db ∧ Linkable draws provider info s.db draws.rowId) := by
  obtain ⟨hunverified, hempty⟩ := exec_resolveOauthUser_refused draws hidentity hunknown
  cases hverified : info.emailVerified with
  | false =>
      refine ⟨fun _ h => absurd h Bool.false_ne_true, fun _ => ?_⟩
      exact ⟨.emailNotVerified, hunverified hverified, OAuthResolution.noConfusion,
        fun _ => ⟨hidentity, hunknown, hverified⟩, fun _ => rfl⟩
  | true =>
      by_cases hemail : info.email = ""
      · constructor
        · rintro ⟨resolution, hok, hrequired, -⟩
          rw [hempty hverified hemail] at hok
          exact absurd (Except.ok.inj hok).symm hrequired
        · exact fun hfree => absurd hemail (hfree rfl).1.1
      · rcases exec_resolveOauthUser_create hidentity hunknown hverified hemail with
          ⟨hok, hfree⟩ | ⟨⟨e, he⟩, htaken⟩
        · refine ⟨fun _ _ => hfree, fun _ => ?_⟩
          exact resolves_of_ok hok OAuthResolution.noConfusion OAuthResolution.noConfusion
            (Or.inr (Or.inr hverified))
        · constructor
          · rintro ⟨resolution, hok, -⟩
            rw [he] at hok
            cases hok
          · exact fun hfree => absurd (hfree rfl) htaken

/-- Alice is linked to her account 1 at a provider. -/
def aliceDb : Db where
  users := ⟨[⟨1, "alice@example.com", "!", true, true, none⟩], by decide⟩
  refreshTokens := .empty
  oneTime _ := .empty
  socialAccounts := ⟨[⟨10, 1, "google", "1"⟩], by decide⟩
  integral := by decide

/-- She signs in with account 2, of the same address. -/
def aliceInfo : OAuthUserInfo where
  email := "alice@example.com"
  fullName := "Alice"
  providerUserId := "2"
  avatarUrl := none
  emailVerified := true

def aliceDraws : OAuthDraws where
  clock _ := 1700000000000000
  id := 101
  raw := "raw"
  rowId := 102
  salt := "salt"
  accountId := 103

end Resolving

end Saasmint.Auth
