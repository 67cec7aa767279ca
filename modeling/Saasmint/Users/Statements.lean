import Saasmint.Library.Monitor
import Saasmint.Python.Uuid
import Saasmint.Users.Tables

/-!
# Database and cache statements

An auth request is a program that makes one `Query` at a time, each of them a statement
that commits at once, a transaction seen at its commit, or an access to the shared cache.
A query says everything about what it does to the state: `perform`.

Beside the database and the cache, a `State` has a record that the code does not have.
`Lineage` numbers the sessions in the order in which they were opened and says to which
session each refresh token belongs: a login opens a session, and the successor of a token
stays in the token's session.  `cutoff` is how many sessions had been opened when the
tokens of the user were last revoked by a password change, and `changes` counts how often
`password_changed_at` of a user has been stamped.  What a program reads of the record it
only hands on to the record.
-/

namespace Saasmint.Auth

open Atomic Relational

/-! ## The record of sessions -/

/-- How a refresh token comes about: with a new session, or as the successor of a token
that was read with its session and its user's cutoff. -/
inductive Origin
  | login
  | rotation (session cutoff : ℕ)
deriving DecidableEq, Repr

structure Lineage where
  opened : ℕ
  sessionOf : UUID → ℕ
  cutoff : UUID → ℕ

namespace Lineage

/-- All tokens stored at the outset count as tokens of session 0. -/
def start : Lineage where
  opened := 1
  sessionOf _ := 0
  cutoff _ := 0

/-- A token has been inserted. -/
def record (lineage : Lineage) (id : UUID) : Origin → Lineage
  | .login => { lineage with
      opened := lineage.opened + 1
      sessionOf := Function.update lineage.sessionOf id lineage.opened }
  | .rotation session _ => { lineage with
      sessionOf := Function.update lineage.sessionOf id session }

/-- The user's tokens have been revoked by a password change. -/
def close (lineage : Lineage) (userId : UUID) : Lineage :=
  { lineage with cutoff := Function.update lineage.cutoff userId lineage.opened }

end Lineage

structure State where
  db : Db
  /-- The cached snapshots of users, by cache key. -/
  cache : String → Option Account
  lineage : Lineage
  changes : UUID → ℕ

/-- A state of which nothing has been recorded. -/
def State.start (db : Db) (cache : String → Option Account) : State :=
  ⟨db, cache, .start, fun _ => 0⟩

/-- `AUTH_USER_CACHE_KEY.format(user_id)`. -/
def authUserCacheKey (userId : String) : String := "auth_user:" ++ userId

theorem authUserCacheKey_inj {text text' : String}
    (h : authUserCacheKey text = authUserCacheKey text') : text = text' :=
  (String.append_right_inj "auth_user:").mp h

theorem uuidText_inj {id id' : UUID} (h : uuidText id = uuidText id') : id = id' := by
  have hparse := parseUuid_uuidText id
  rw [h, parseUuid_uuidText] at hparse
  exact (Except.ok.inj hparse).symm

/-! ## Saving users -/

inductive UserField
  | email | password | isActive | isVerified | passwordChangedAt
deriving DecidableEq, Repr

/-- The stored row with the named fields of the given one. -/
def Account.assign (fields : List UserField) (given stored : Account) : Account where
  id := stored.id
  email := if .email ∈ fields then given.email else stored.email
  password := if .password ∈ fields then given.password else stored.password
  isActive := if .isActive ∈ fields then given.isActive else stored.isActive
  isVerified := if .isVerified ∈ fields then given.isVerified else stored.isVerified
  passwordChangedAt :=
    if .passwordChangedAt ∈ fields then given.passwordChangedAt else stored.passwordChangedAt

@[simp] theorem Account.assign_id (fields : List UserField) (given stored : Account) :
    (given.assign fields stored).id = stored.id := rfl

namespace Db

def insertUser (db : Db) (user : Account) : Except AuthError Db := do
  let users ← unique (db.users.insert? user)
  commit { db.toTables with users }

/-- `user.save(update_fields=fields)`; with `none` it is `user.save()`, which inserts a row
that is not there. -/
def saveUser (db : Db) (user : Account) : Option (List UserField) → Except AuthError Db
  | some fields =>
      if db.users.rows.any fun stored => stored.id == user.id then do
        let users ← unique (db.users.update? (fun stored => stored.id == user.id)
          (user.assign fields))
        commit { db.toTables with users }
      else .error (.database "Save with update_fields did not affect any rows.")
  | none => do
      let users ← unique (db.users.upsert? (fun stored => stored.id == user.id)
        (fun _ => user) user)
      commit { db.toTables with users }

/-- `SocialAccount.objects.get_or_create(…)`. -/
def getOrCreateSocialAccount (db : Db) (account : SocialAccount) : Except AuthError Db :=
  match db.socialAccount? account.provider account.providerUserId with
  | some _ => .ok db
  | none =>
      if fitsVarchar 255 account.providerUserId then do
        let socialAccounts ← unique (db.socialAccounts.insert? account)
        commit { db.toTables with socialAccounts }
      else .error (.database "value too long for type character varying(255)")

/-- A save writes users only. -/
theorem saveUser_writes {db db' : Db} {user : Account} {fields? : Option (List UserField)}
    (h : db.saveUser user fields? = .ok db') :
    ∃ users, db'.toTables = { db.toTables with users } := by
  cases fields? with
  | none =>
      obtain ⟨users, _, hdb⟩ := write_eq_ok h
      exact ⟨users, hdb⟩
  | some fields =>
      unfold saveUser at h
      dsimp only at h
      split at h
      · obtain ⟨users, _, hdb⟩ := write_eq_ok h
        exact ⟨users, hdb⟩
      · cases h

/-- The account is there already, or it is inserted. -/
theorem getOrCreate_eq_ok {db db' : Db} {account : SocialAccount}
    (h : db.getOrCreateSocialAccount account = .ok db') :
    db' = db ∨ ∃ table, db.socialAccounts.insert? account = some table ∧
      db'.toTables = { db.toTables with socialAccounts := table } := by
  unfold getOrCreateSocialAccount at h
  split at h
  · exact Or.inl (Except.ok.inj h).symm
  · split at h
    · exact Or.inr (write_eq_ok h)
    · cases h

/-- The transaction of the confirm-link view: the account is linked and the user is
marked verified, where there is something to do. -/
def link (db : Db) (account? : Option SocialAccount) (user : Account) : Except AuthError Db := do
  let linked ← account?.elim (.ok db) db.getOrCreateSocialAccount
  if user.isVerified then .ok linked
  else linked.saveUser { user with isVerified := true } (some [.isVerified])

/-- First the account is linked, then the user is saved if that is due. -/
theorem link_steps {db db' : Db} {account? : Option SocialAccount} {user : Account}
    (h : db.link account? user = .ok db') :
    ∃ linked, account?.elim (.ok db) db.getOrCreateSocialAccount = .ok linked ∧
      ((user.isVerified = true ∧ db' = linked) ∨ (user.isVerified = false ∧
        linked.saveUser { user with isVerified := true } (some [.isVerified]) = .ok db')) := by
  unfold link at h
  rcases hlinked : account?.elim (Except.ok db) db.getOrCreateSocialAccount with e | linked
  · rw [hlinked] at h
    cases h
  · rw [hlinked] at h
    change (if user.isVerified then Except.ok linked else _) = Except.ok db' at h
    refine ⟨linked, rfl, ?_⟩
    split at h
    next hverified => exact Or.inl ⟨hverified, (Except.ok.inj h).symm⟩
    next hverified => exact Or.inr ⟨Bool.eq_false_of_not_eq_true hverified, h⟩

end Db

/-! ## Queries -/

inductive Query
  /-- A read of which no more is said. -/
  | select
  | selectRefreshToken (tokenHash : String)
  | selectOneTimeToken (model : OneTimeModel) (tokenHash : String)
  /-- `User.objects.get(id=id, is_active=True)` of an authentication. -/
  | selectActiveUser (id : UUID)
  | insertRefreshToken (token : RefreshToken) (origin : Origin)
  /-- `rt.save(update_fields=["revoked_at"])` of a rotation. -/
  | revokeToken (id : UUID) (now : Datetime)
  /-- The `UPDATE` of a logout. -/
  | revokeHash (tokenHash : String) (now : Datetime)
  /-- The mass revocation of a rotation that was given a revoked token. -/
  | revokeReused (userId : UUID) (now : Datetime)
  /-- `revoke_all_refresh_tokens`, of a password change. -/
  | revokeAll (userId : UUID) (now : Datetime)
  | insertOneTimeToken (model : OneTimeModel) (token : OneTimeToken model)
  /-- The conditional `UPDATE` of `_consume_one_time_token`. -/
  | useOneTimeToken (model : OneTimeModel) (tokenHash : String) (now : Datetime)
  /-- The `UPDATE` that withdraws what is pending before a new token is created. -/
  | invalidateOneTimeTokens (model : OneTimeModel) (userId : UUID) (now : Datetime)
  | insertUser (user : Account)
  | saveUser (user : Account) (fields? : Option (List UserField))
  | commitLink (account? : Option SocialAccount) (user : Account)
  | deleteUser (id : UUID)
  | deleteRefreshTokens (ids : List UUID)
  | deleteOneTimeTokens (model : OneTimeModel) (ids : List UUID)
  | cacheGet (key : String)
  | cacheSet (key : String) (user : Account)
  | cacheDelete (key : String)

namespace State

variable (s : State)

/-- A write that the database may refuse. -/
def settle : Except AuthError Db → Except AuthError ℕ × State
  | .ok db => (.ok 1, { s with db })
  | .error e => (.error e, s)

/-- An insert of a refresh token. -/
def recording (id : UUID) (origin : Origin) : Except AuthError Db → Except AuthError ℕ × State
  | .ok db => (.ok 1, { s with db, lineage := s.lineage.record id origin })
  | .error e => (.error e, s)

/-- The record after a save of the named fields. -/
def changesAfter (id : UUID) (fields? : Option (List UserField)) : UUID → ℕ :=
  if fields?.elim false (.passwordChangedAt ∈ ·)
    then Function.update s.changes id (s.changes id + 1) else s.changes

/-- A save of a user. -/
def saving (id : UUID) (fields? : Option (List UserField)) :
    Except AuthError Db → Except AuthError ℕ × State
  | .ok db => (.ok 1, { s with db, changes := s.changesAfter id fields? })
  | .error e => (.error e, s)

/-- An `UPDATE refresh_tokens SET revoked_at = now WHERE …`, with the rows it changes. -/
def revoking (selected : RefreshToken → Bool) (now : Datetime) : ℕ × State :=
  (s.db.refreshTokens.rows.countP selected, { s with db := s.db.revoke selected now })

/-- An `UPDATE … SET used_at = now WHERE …`, with the rows it changes. -/
def marking {model : OneTimeModel} (selected : OneTimeToken model → Bool) (now : Datetime) :
    ℕ × State :=
  ((s.db.oneTime model).rows.countP selected, { s with db := s.db.use model selected now })

end State

/-- The rows a redemption at `now` uses. -/
def redeemable (model : OneTimeModel) (tokenHash : String) (now : Datetime)
    (token : OneTimeToken model) : Bool :=
  token.tokenHash == tokenHash && token.usedAt.isNone && decide (now < token.expiresAt)

/-- What a query does to the state; its result is the number of rows it changes. -/
def perform : Query → State → Except AuthError ℕ × State
  | .select, s | .selectRefreshToken _, s | .selectOneTimeToken _ _, s
  | .selectActiveUser _, s | .cacheGet _, s => (.ok 0, s)
  | .insertRefreshToken token origin, s =>
      s.recording token.id origin (s.db.insertRefreshToken token)
  | .revokeToken id now, s =>
      if s.db.refreshTokens.rows.any fun token => token.id == id then
        (.ok 1, (s.revoking (fun token => token.id == id) now).2)
      else (.error (.database "Save with update_fields did not affect any rows."), s)
  | .revokeHash tokenHash now, s =>
      let (count, s) := s.revoking
        (fun token => token.tokenHash == tokenHash && token.revokedAt.isNone) now
      (.ok count, s)
  | .revokeReused userId now, s =>
      let (count, s) := s.revoking
        (fun token => token.userId == userId && token.revokedAt.isNone) now
      (.ok count, s)
  | .revokeAll userId now, s =>
      let (count, s) := s.revoking
        (fun token => token.userId == userId && token.revokedAt.isNone) now
      (.ok count, { s with lineage := s.lineage.close userId })
  | .insertOneTimeToken _ token, s => s.settle (s.db.insertOneTimeToken token)
  | .useOneTimeToken model tokenHash now, s =>
      let (count, s) := s.marking (redeemable model tokenHash now) now
      (.ok count, s)
  | .invalidateOneTimeTokens model userId now, s =>
      let (count, s) := s.marking
        (fun token : OneTimeToken model => token.userId == userId && token.usedAt.isNone) now
      (.ok count, s)
  | .insertUser user, s => s.settle (s.db.insertUser user)
  | .saveUser user fields?, s => s.saving user.id fields? (s.db.saveUser user fields?)
  | .commitLink account? user, s => s.settle (s.db.link account? user)
  | .deleteUser id, s => s.settle (s.db.deleteUser id)
  | .deleteRefreshTokens ids, s =>
      s.settle (s.db.deleteRefreshTokens fun token => token.id ∈ ids)
  | .deleteOneTimeTokens model ids, s =>
      s.settle (s.db.deleteOneTimeTokens model fun token => token.id ∈ ids)
  | .cacheSet key user, s => (.ok 0, { s with cache := Function.update s.cache key (some user) })
  | .cacheDelete key, s => (.ok 0, { s with cache := Function.update s.cache key none })

/-- What a query leaves. -/
def effect (query : Query) (s : State) : State := (perform query s).2

/-- A write that may be refused leaves what holds before it, or what holds of what it has
written. -/
theorem of_settle {P : State → Prop} {s : State} {result : Except AuthError Db} (hs : P s)
    (h : ∀ db, result = .ok db → P { s with db }) : P (s.settle result).2 := by
  cases result with
  | ok db => exact h db rfl
  | error e => exact hs

/-! ### Queries that only read -/

theorem effect_select : effect .select = id := rfl

theorem effect_selectRefreshToken (tokenHash : String) :
    effect (.selectRefreshToken tokenHash) = id := rfl

theorem effect_selectOneTimeToken (model : OneTimeModel) (tokenHash : String) :
    effect (.selectOneTimeToken model tokenHash) = id := rfl

theorem effect_selectActiveUser (userId : UUID) : effect (.selectActiveUser userId) = id := rfl

theorem effect_cacheGet (key : String) : effect (.cacheGet key) = id := rfl

/-! ### Inserting a refresh token -/

theorem effect_insertRefreshToken_ok {token : RefreshToken} {origin : Origin} {s : State} {db : Db}
    (h : s.db.insertRefreshToken token = .ok db) : effect (.insertRefreshToken token origin) s =
      { s with db, lineage := s.lineage.record token.id origin } := by
  show (s.recording token.id origin (s.db.insertRefreshToken token)).2 = _
  rw [h]
  rfl

theorem effect_insertRefreshToken_error {token : RefreshToken} {origin : Origin} {s : State}
    {e : AuthError} (h : s.db.insertRefreshToken token = .error e) :
    effect (.insertRefreshToken token origin) s = s := by
  show (s.recording token.id origin (s.db.insertRefreshToken token)).2 = _
  rw [h]
  rfl

/-! ### Saving a user -/

theorem effect_saveUser_ok {user : Account} {fields? : Option (List UserField)} {s : State} {db : Db}
    (h : s.db.saveUser user fields? = .ok db) : effect (.saveUser user fields?) s =
      { s with db, changes := s.changesAfter user.id fields? } := by
  show (s.saving user.id fields? (s.db.saveUser user fields?)).2 = _
  rw [h]
  rfl

theorem effect_saveUser_error {user : Account} {fields? : Option (List UserField)} {s : State}
    {e : AuthError} (h : s.db.saveUser user fields? = .error e) :
    effect (.saveUser user fields?) s = s := by
  show (s.saving user.id fields? (s.db.saveUser user fields?)).2 = _
  rw [h]
  rfl

/-! ## Programs -/

abbrev Session (α : Type) := Fallible AuthError Query State α

namespace Session

/-- Makes a query; the result is the number of rows it changes. -/
def query (query : Query) : Session ℕ := Fallible.atomic query (perform query)

/-- Makes a query that only reads. -/
def read {α : Type} (query : Query) (f : State → α) : Session α := Fallible.observe query f

end Session

end Saasmint.Auth
