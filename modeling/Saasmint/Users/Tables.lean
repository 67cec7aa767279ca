import Saasmint.Data.Database

/-!
# The tables of the auth backend

The rows the auth code reads and writes: the columns of `users` that matter to it, the
refresh tokens, the three kinds of one-time tokens and the linked provider accounts.
Tokens are stored by the hash of the text their holder has; the hash is unique in its
table.

`Db` also satisfies the foreign keys to `users`.  Revoking and using tokens leaves the
keys alone and is total; everything else goes through `Db.commit`.
-/

namespace Saasmint.Auth

open Relational

/-! ## Rows -/

/-- The columns of `users` that the auth code reads. -/
structure Account where
  id : UUID
  email : String
  password : String
  isActive : Bool
  isVerified : Bool
  passwordChangedAt : Option Datetime
deriving DecidableEq, Repr

instance : Row Account where
  check _ := True
  clash a b := a.id = b.id ∨ lower a.email = lower b.email
  decidableCheck _ := inferInstanceAs (Decidable True)
  decidableClash _ _ := inferInstanceAs (Decidable (_ ∨ _))
  clash_symm h := h.imp Eq.symm Eq.symm

structure RefreshToken where
  id : UUID
  userId : UUID
  tokenHash : String
  expiresAt : Datetime
  revokedAt : Option Datetime
deriving DecidableEq, Repr

instance : Row RefreshToken where
  check _ := True
  clash a b := a.id = b.id ∨ a.tokenHash = b.tokenHash
  decidableCheck _ := inferInstanceAs (Decidable True)
  decidableClash _ _ := inferInstanceAs (Decidable (_ ∨ _))
  clash_symm h := h.imp Eq.symm Eq.symm

/-- Unrevoked and unexpired. -/
def RefreshToken.Live (token : RefreshToken) (now : Datetime) : Prop :=
  token.revokedAt = none ∧ now < token.expiresAt

/-- The models that `_create_one_time_token` and `_consume_one_time_token` serve. -/
inductive OneTimeModel
  | emailVerification | passwordReset | socialLink
deriving DecidableEq, Repr

/-- The account at an OAuth provider that a link request is bound to. -/
structure Identity where
  provider : String
  providerUserId : String
  fullName : String
  avatarUrl : Option String
deriving DecidableEq, Repr

namespace OneTimeModel

/-- The columns a model has beside those of `_OneTimeToken`. -/
def Detail : OneTimeModel → Type
  | emailVerification | passwordReset => Unit
  | socialLink => Identity

instance (model : OneTimeModel) : DecidableEq model.Detail :=
  match model with
  | emailVerification | passwordReset => inferInstanceAs (DecidableEq Unit)
  | socialLink => inferInstanceAs (DecidableEq Identity)

/-- The name of the token in messages. -/
def label : OneTimeModel → String
  | emailVerification => "verification"
  | passwordReset => "reset"
  | socialLink => "link"

/-- `EMAIL_VERIFICATION_LIFETIME`, `PASSWORD_RESET_LIFETIME`, `SOCIAL_LINK_LIFETIME`, in
microseconds. -/
def lifetime : OneTimeModel → Int
  | emailVerification => 24 * 60 * 60 * 1000000
  | passwordReset => 10 * 60 * 1000000
  | socialLink => 15 * 60 * 1000000

end OneTimeModel

structure OneTimeToken (model : OneTimeModel) where
  id : UUID
  userId : UUID
  tokenHash : String
  expiresAt : Datetime
  usedAt : Option Datetime
  detail : model.Detail
deriving DecidableEq

variable {model : OneTimeModel}

instance : Row (OneTimeToken model) where
  check _ := True
  clash a b := a.id = b.id ∨ a.tokenHash = b.tokenHash
  decidableCheck _ := inferInstanceAs (Decidable True)
  decidableClash _ _ := inferInstanceAs (Decidable (_ ∨ _))
  clash_symm h := h.imp Eq.symm Eq.symm

structure SocialAccount where
  id : UUID
  userId : UUID
  provider : String
  providerUserId : String
deriving DecidableEq, Repr

instance : Row SocialAccount where
  check _ := True
  clash a b := a.id = b.id ∨ (a.provider = b.provider ∧ a.providerUserId = b.providerUserId) ∨
    (a.userId = b.userId ∧ a.provider = b.provider)
  decidableCheck _ := inferInstanceAs (Decidable True)
  decidableClash _ _ := inferInstanceAs (Decidable (_ ∨ _ ∨ _))
  clash_symm h := h.imp Eq.symm (Or.imp (And.imp Eq.symm Eq.symm) (And.imp Eq.symm Eq.symm))

/-! ## Errors -/

/-- The exceptions that end an auth request. -/
inductive AuthError
  | authenticationFailed (detail code : String)
  | invalidCredentials
  | accountDeactivated
  | invalidPassword
  | emailAlreadyExists
  | integrity (message : String)
  | database (message : String)
  | validation (message : String)
deriving DecidableEq, Repr

/-! ## The database -/

structure Tables where
  users : Table Account
  refreshTokens : Table RefreshToken
  oneTime : (model : OneTimeModel) → Table (OneTimeToken model)
  socialAccounts : Table SocialAccount

namespace Tables

/-- Every token and every linked account belongs to a stored user. -/
structure Integral (t : Tables) : Prop where
  refreshTokens : ∀ token ∈ t.refreshTokens.rows, ∃ user ∈ t.users.rows, user.id = token.userId
  oneTime : ∀ model, ∀ token ∈ (t.oneTime model).rows,
    ∃ user ∈ t.users.rows, user.id = token.userId
  socialAccounts : ∀ account ∈ t.socialAccounts.rows,
    ∃ user ∈ t.users.rows, user.id = account.userId

instance (t : Tables) : Decidable t.Integral := by
  refine @decidable_of_iff _
    ((∀ token ∈ t.refreshTokens.rows, ∃ user ∈ t.users.rows, user.id = token.userId) ∧
    ((∀ token ∈ (t.oneTime .emailVerification).rows, ∃ user ∈ t.users.rows, user.id = token.userId) ∧
    (∀ token ∈ (t.oneTime .passwordReset).rows, ∃ user ∈ t.users.rows, user.id = token.userId) ∧
    (∀ token ∈ (t.oneTime .socialLink).rows, ∃ user ∈ t.users.rows, user.id = token.userId)) ∧
    (∀ account ∈ t.socialAccounts.rows, ∃ user ∈ t.users.rows, user.id = account.userId)) ?_
    inferInstance
  refine ⟨fun ⟨hrefresh, ⟨hverify, hreset, hlink⟩, hsocial⟩ => ⟨hrefresh, fun model => ?_, hsocial⟩,
    fun h => ⟨h.1, ⟨h.2 _, h.2 _, h.2 _⟩, h.3⟩⟩
  cases model with
  | emailVerification => exact hverify
  | passwordReset => exact hreset
  | socialLink => exact hlink

end Tables

structure Db extends Tables where
  integral : toTables.Integral

namespace Db

/-- The foreign keys are checked. -/
def commit (t : Tables) : Except AuthError Db :=
  if h : t.Integral then .ok ⟨t, h⟩
  else .error (.integrity "violates foreign key constraint")

theorem commit_eq_ok {t : Tables} {db : Db} : commit t = .ok db ↔ db.toTables = t := by
  unfold commit
  constructor
  · intro h
    split at h
    · cases h
      rfl
    · cases h
  · rintro rfl
    rw [dif_pos db.integral]

/-- A write to one table that its constraints may refuse. -/
def unique {α : Type} : Option α → Except AuthError α
  | some table => .ok table
  | none => .error (.integrity "duplicate key value violates unique constraint")

/-- A write to one table that is committed: the table is valid, and the others are what
they were. -/
theorem write_eq_ok {α : Type} {table? : Option α} {write : α → Tables} {db : Db}
    (h : (do
      let table ← unique table?
      commit (write table)) = Except.ok db) :
    ∃ table, table? = some table ∧ db.toTables = write table := by
  cases table? with
  | none => cases h
  | some table => exact ⟨table, rfl, commit_eq_ok.mp h⟩

/-! ### Reading -/

def user? (db : Db) (id : UUID) : Option Account := db.users.find? fun user => user.id == id

/-- `email__iexact`. -/
def userByEmail (db : Db) (email : String) : Option Account :=
  db.users.find? fun user => lower user.email == lower email

def refreshToken? (db : Db) (tokenHash : String) : Option RefreshToken :=
  db.refreshTokens.find? fun token => token.tokenHash == tokenHash

def oneTimeToken? (db : Db) (model : OneTimeModel) (tokenHash : String) :
    Option (OneTimeToken model) :=
  (db.oneTime model).find? fun token => token.tokenHash == tokenHash

def socialAccount? (db : Db) (provider providerUserId : String) : Option SocialAccount :=
  db.socialAccounts.find? fun account =>
    account.provider == provider && account.providerUserId == providerUserId

theorem user?_eq_some {db : Db} {id : UUID} {user : Account} :
    db.user? id = some user ↔ user ∈ db.users.rows ∧ user.id = id := by
  unfold user?
  rw [Table.find?_eq_some_iff]
  · simp
  · intro a b ha hb
    exact Or.inl ((beq_iff_eq.mp ha).trans (beq_iff_eq.mp hb).symm)

theorem refreshToken?_eq_some {db : Db} {tokenHash : String} {token : RefreshToken} :
    db.refreshToken? tokenHash = some token ↔
      token ∈ db.refreshTokens.rows ∧ token.tokenHash = tokenHash := by
  unfold refreshToken?
  rw [Table.find?_eq_some_iff]
  · simp
  · intro a b ha hb
    exact Or.inr ((beq_iff_eq.mp ha).trans (beq_iff_eq.mp hb).symm)

theorem oneTimeToken?_eq_some {db : Db} {tokenHash : String} {token : OneTimeToken model} :
    db.oneTimeToken? model tokenHash = some token ↔
      token ∈ (db.oneTime model).rows ∧ token.tokenHash = tokenHash := by
  unfold oneTimeToken?
  rw [Table.find?_eq_some_iff]
  · simp
  · intro a b ha hb
    exact Or.inr ((beq_iff_eq.mp ha).trans (beq_iff_eq.mp hb).symm)

theorem refreshToken_eq_of_hash {db : Db} {a b : RefreshToken} (ha : a ∈ db.refreshTokens.rows)
    (hb : b ∈ db.refreshTokens.rows) (hhash : a.tokenHash = b.tokenHash) : a = b :=
  db.refreshTokens.eq_of_clash ha hb (Or.inr hhash)

theorem oneTimeToken_eq_of_hash {db : Db} {a b : OneTimeToken model}
    (ha : a ∈ (db.oneTime model).rows) (hb : b ∈ (db.oneTime model).rows)
    (hhash : a.tokenHash = b.tokenHash) : a = b :=
  (db.oneTime model).eq_of_clash ha hb (Or.inr hhash)

end Db

/-! ## Writing -/

/-- The token with `revoked_at` set, if it is among those selected. -/
def RefreshToken.revoke (selected : RefreshToken → Bool) (now : Datetime) (token : RefreshToken) :
    RefreshToken :=
  { token with revokedAt := if selected token then some now else token.revokedAt }

/-- The token with `used_at` set, if it is among those selected. -/
def OneTimeToken.use (selected : OneTimeToken model → Bool) (now : Datetime)
    (token : OneTimeToken model) : OneTimeToken model :=
  { token with usedAt := if selected token then some now else token.usedAt }

namespace RefreshToken

variable {selected : RefreshToken → Bool} {now : Datetime} {token : RefreshToken}

@[simp] theorem revoke_id : (token.revoke selected now).id = token.id := rfl

@[simp] theorem revoke_userId : (token.revoke selected now).userId = token.userId := rfl

@[simp] theorem revoke_tokenHash : (token.revoke selected now).tokenHash = token.tokenHash := rfl

@[simp] theorem revoke_expiresAt : (token.revoke selected now).expiresAt = token.expiresAt := rfl

theorem revoke_of_not_selected (h : selected token = false) : token.revoke selected now = token := by
  simp [revoke, h]

/-- What is unrevoked after a revocation was not selected by it. -/
theorem revokedAt_revoke_eq_none :
    (token.revoke selected now).revokedAt = none ↔
      token.revokedAt = none ∧ selected token = false := by
  unfold revoke
  by_cases h : selected token = true
  · simp [h]
  · simp [h]

end RefreshToken

namespace OneTimeToken

variable {selected : OneTimeToken model → Bool} {now : Datetime} {token : OneTimeToken model}

@[simp] theorem use_id : (token.use selected now).id = token.id := rfl

@[simp] theorem use_userId : (token.use selected now).userId = token.userId := rfl

@[simp] theorem use_tokenHash : (token.use selected now).tokenHash = token.tokenHash := rfl

@[simp] theorem use_expiresAt : (token.use selected now).expiresAt = token.expiresAt := rfl

theorem use_of_not_selected (h : selected token = false) : token.use selected now = token := by
  simp [use, h]

theorem use_of_selected (h : selected token = true) :
    token.use selected now = { token with usedAt := some now } := by
  simp [use, h]

end OneTimeToken

namespace Db

/-- `UPDATE refresh_tokens SET revoked_at = now WHERE …`. -/
def revoke (db : Db) (selected : RefreshToken → Bool) (now : Datetime) : Db where
  users := db.users
  refreshTokens := db.refreshTokens.rewrite (RefreshToken.revoke selected now)
    (fun _ h => h) fun _ _ h => h
  oneTime := db.oneTime
  socialAccounts := db.socialAccounts
  integral := ⟨by simpa [Table.rewrite] using db.integral.refreshTokens, db.integral.oneTime,
    db.integral.socialAccounts⟩

/-- `UPDATE … SET used_at = now WHERE …`, on the table of one model. -/
def use (db : Db) (model : OneTimeModel) (selected : OneTimeToken model → Bool) (now : Datetime) :
    Db where
  users := db.users
  refreshTokens := db.refreshTokens
  oneTime := Function.update db.oneTime model ((db.oneTime model).rewrite
    (OneTimeToken.use selected now) (fun _ h => h) fun _ _ h => h)
  socialAccounts := db.socialAccounts
  integral := by
    refine ⟨db.integral.refreshTokens, fun other => ?_, db.integral.socialAccounts⟩
    by_cases hother : other = model
    · subst hother
      simpa [Table.rewrite] using db.integral.oneTime other
    · simpa [Function.update_of_ne hother] using db.integral.oneTime other

variable {db : Db} {now : Datetime}

@[simp] theorem rows_refreshTokens_revoke {selected : RefreshToken → Bool} :
    (db.revoke selected now).refreshTokens.rows =
      db.refreshTokens.rows.map (RefreshToken.revoke selected now) := rfl

@[simp] theorem users_revoke {selected : RefreshToken → Bool} :
    (db.revoke selected now).users = db.users := rfl

@[simp] theorem oneTime_revoke {selected : RefreshToken → Bool} :
    (db.revoke selected now).oneTime = db.oneTime := rfl

@[simp] theorem users_use {selected : OneTimeToken model → Bool} :
    (db.use model selected now).users = db.users := rfl

@[simp] theorem refreshTokens_use {selected : OneTimeToken model → Bool} :
    (db.use model selected now).refreshTokens = db.refreshTokens := rfl

@[simp] theorem rows_oneTime_use {selected : OneTimeToken model → Bool} :
    ((db.use model selected now).oneTime model).rows =
      (db.oneTime model).rows.map (OneTimeToken.use selected now) := by
  simp [use, Table.rewrite]

theorem oneTime_use_of_ne {other : OneTimeModel} (h : other ≠ model)
    {selected : OneTimeToken model → Bool} :
    (db.use model selected now).oneTime other = db.oneTime other := by
  simp [use, Function.update_of_ne h]

def insertRefreshToken (db : Db) (token : RefreshToken) : Except AuthError Db := do
  let refreshTokens ← unique (db.refreshTokens.insert? token)
  commit { db.toTables with refreshTokens }

def insertOneTimeToken (db : Db) (token : OneTimeToken model) : Except AuthError Db := do
  let table ← unique ((db.oneTime model).insert? token)
  commit { db.toTables with oneTime := Function.update db.oneTime model table }

/-- Deletes the rows of one model of which `selected` holds. -/
def deleteOneTimeTokens (db : Db) (model : OneTimeModel) (selected : OneTimeToken model → Bool) :
    Except AuthError Db :=
  commit { db.toTables with
    oneTime := Function.update db.oneTime model ((db.oneTime model).delete selected) }

def deleteRefreshTokens (db : Db) (selected : RefreshToken → Bool) : Except AuthError Db :=
  commit { db.toTables with refreshTokens := db.refreshTokens.delete selected }

/-- `user.delete()`, with everything that belongs to the user. -/
def deleteUser (db : Db) (id : UUID) : Except AuthError Db :=
  commit
    { users := db.users.delete fun user => user.id == id
      refreshTokens := db.refreshTokens.delete fun token => token.userId == id
      oneTime := fun model => (db.oneTime model).delete fun token => token.userId == id
      socialAccounts := db.socialAccounts.delete fun account => account.userId == id }

/-- What is stored after an insert: what was there before, and a row that nothing stored
has the key or the hash of. -/
theorem insertRefreshToken_eq_ok {db' : Db} {token : RefreshToken}
    (h : db.insertRefreshToken token = .ok db') :
    db'.refreshTokens.rows = db.refreshTokens.rows ++ [token] ∧ db'.users = db.users ∧
      db'.oneTime = db.oneTime := by
  obtain ⟨table, htable, hdb⟩ := write_eq_ok h
  rw [hdb]
  exact ⟨Table.rows_insert? htable, rfl, rfl⟩

theorem ne_of_insertRefreshToken {db' : Db} {token : RefreshToken}
    (h : db.insertRefreshToken token = .ok db') {stored : RefreshToken}
    (hstored : stored ∈ db.refreshTokens.rows) :
    stored.id ≠ token.id ∧ stored.tokenHash ≠ token.tokenHash := by
  have hrows := (insertRefreshToken_eq_ok h).1
  have hvalid := db'.refreshTokens.valid.2
  rw [hrows, List.pairwise_append] at hvalid
  have hclash := hvalid.2.2 stored hstored token (List.mem_singleton_self token)
  exact not_or.mp hclash

theorem insertOneTimeToken_eq_ok {db' : Db} {token : OneTimeToken model}
    (h : db.insertOneTimeToken token = .ok db') :
    (db'.oneTime model).rows = (db.oneTime model).rows ++ [token] ∧
      (∀ other, other ≠ model → db'.oneTime other = db.oneTime other) ∧
      db'.refreshTokens = db.refreshTokens ∧ db'.users = db.users := by
  obtain ⟨table, htable, hdb⟩ := write_eq_ok h
  rw [hdb]
  refine ⟨?_, fun other hother => Function.update_of_ne hother _ _, rfl, rfl⟩
  show (Function.update db.oneTime model table model).rows = _
  rw [Function.update_self]
  exact Table.rows_insert? htable

end Db

end Saasmint.Auth
