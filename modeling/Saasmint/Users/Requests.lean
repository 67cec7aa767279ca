import Saasmint.Users.Tokens

/-!
# Auth requests

The views of `auth_views.py`, each a program over the statements it makes.  None of them
runs in a transaction, but for the confirm-link view and the creation of a user, whose
writes are seen at their commit.

What a view answers with is a `Response`; `redeem` is the token helper by itself, whose
answer is the row it has consumed.
-/

namespace Saasmint.Auth

open Atomic Relational

inductive Response (τ : Type)
  /-- A pair of tokens for a user. -/
  | tokens (user : Account) (access : τ) (refresh : String)
  /-- 200 or 204, without content that matters. -/
  | done
  /-- 400 `password_required`. -/
  | passwordRequired
  /-- 409 `social_account_collision`. -/
  | socialAccountCollision
  | redeemed (model : OneTimeModel) (token : OneTimeToken model)
deriving DecidableEq

/-- `has_usable_password()`. -/
def Account.hasUsablePassword (user : Account) : Bool := !user.password.startsWith "!"

variable {τ : Type} (crypto : Crypto τ)

namespace Session

/-! ## Users -/

/-- `user.save(update_fields=…)`: the row, then the signal that drops the snapshot. -/
def saveUser (user : Account) (fields : List UserField) : Session Unit := do
  let _ ← query (.saveUser user (some fields))
  let _ ← query (.cacheDelete (authUserCacheKey (uuidText user.id)))

/-- `user.check_password(raw)`: the user if it is the password, whose hash is renewed
when it is a weak one. -/
def checkPassword (draws : Draws) (user : Account) (raw : String) : Session (Option Account) :=
  if crypto.verifyPassword raw user.password then
    if crypto.mustUpdate user.password then do
      let renewed := { user with password := crypto.makePassword draws.salt raw }
      saveUser renewed [.password]
      return some renewed
    else return some user
  else return none

/-- `_token_response(user, refresh)`. -/
def tokenResponse (user : Account) (refresh : String) (now : Datetime) : Response τ :=
  .tokens user (createAccessToken crypto user now) refresh

/-- A new session: its refresh token, and the answer. -/
def openSession (draws : Draws) (user : Account) (now mintedAt : Datetime) :
    Session (Response τ) := do
  let refresh ← createRefreshToken crypto draws user now
  return tokenResponse crypto user refresh mintedAt

/-- The end of a password change and of a reset: the new password is stored, every
refresh token of the user is revoked, and a new session is opened. -/
def setPassword (draws : Draws) (user : Account) (password : String) (verify : Bool) :
    Session (Response τ) := do
  let changed := { user with
    password := crypto.makePassword draws.salt password
    passwordChangedAt := some (draws.clock 1)
    isVerified := user.isVerified || verify }
  saveUser changed (if verify && !user.isVerified
    then [.password, .passwordChangedAt, .isVerified] else [.password, .passwordChangedAt])
  revokeAllRefreshTokens changed (draws.clock 2)
  openSession crypto draws changed (draws.clock 3) (draws.clock 4)

/-! ## Views -/

/-- `_register_user`, of a normalised address. -/
def register (draws : Draws) (email password : String) : Session (Response τ) := do
  if ← read .select fun s => (s.db.userByEmail email).isSome then throw .emailAlreadyExists
  else do
    let user : Account :=
      { id := draws.rowId
        email
        password := crypto.makePassword draws.salt password
        isActive := true
        isVerified := false
        passwordChangedAt := none }
    -- the signal fires inside the transaction, before its commit
    let _ ← query (.cacheDelete (authUserCacheKey (uuidText user.id)))
    let _ ← tryCatch (query (.insertUser user)) fun
      | .integrity _ => throw .emailAlreadyExists
      | e => throw e
    let _ ← createOneTimeToken crypto draws .emailVerification () user (draws.clock 0)
    openSession crypto draws user (draws.clock 1) (draws.clock 2)

/-- The fields that `VerifyEmailView.post` sets, and the user with them. -/
def verified (salt : String) (user : Account) (password? : Option String) :
    Option (Account × List UserField) :=
  let flag := if user.isVerified then [] else [UserField.isVerified]
  if user.hasUsablePassword then some ({ user with isVerified := true }, flag)
  else
    match password?.filter (· ≠ "") with
    | none => none
    | some password => some
        ({ user with isVerified := true, password := crypto.makePassword salt password },
          .password :: flag)

def verifyEmail (draws : Draws) (rawToken : String) (password? : Option String) :
    Session (Response τ) := do
  let (_, user) ← consumeOneTimeToken crypto .emailVerification rawToken (draws.clock 0)
  match verified crypto draws.salt user password? with
  | none => return .passwordRequired
  | some (user, fields) =>
      if fields ≠ [] then saveUser user fields
      openSession crypto draws user (draws.clock 1) (draws.clock 2)

def resendVerification (draws : Draws) (email : String) : Session (Response τ) := do
  match ← read .select fun s =>
      (s.db.userByEmail email).filter fun user => user.isActive && !user.isVerified with
  | none => return .done
  | some user =>
      let _ ← query (.invalidateOneTimeTokens .emailVerification user.id (draws.clock 0))
      let _ ← createOneTimeToken crypto draws .emailVerification () user (draws.clock 1)
      return .done

/-- `LoginView.post`, with the model backend's `authenticate`, which rejects inactive
users. -/
def login (draws : Draws) (email password : String) : Session (Response τ) := do
  match ← read .select fun s => s.db.users.find? fun user => user.email == email with
  | none => throw .invalidCredentials
  | some user =>
      match ← checkPassword crypto draws user password with
      | none => throw .invalidCredentials
      | some user =>
          if user.isActive = false then throw .invalidCredentials
          else if user.isVerified = false then throw .invalidCredentials
          else openSession crypto draws user (draws.clock 0) (draws.clock 1)

def refresh (draws : Draws) (rawToken : String) : Session (Response τ) := do
  let (user, newRefresh) ← rotateRefreshToken crypto draws rawToken
  return tokenResponse crypto user newRefresh (draws.clock 3)

def logout (draws : Draws) (rawToken : String) : Session (Response τ) := do
  revokeRefreshToken crypto rawToken (draws.clock 0)
  return .done

def forgotPassword (draws : Draws) (email : String) : Session (Response τ) := do
  match ← read .select fun s => (s.db.userByEmail email).filter (·.isActive) with
  | none => return .done
  | some user =>
      let _ ← createOneTimeToken crypto draws .passwordReset () user (draws.clock 0)
      return .done

def resetPassword (draws : Draws) (rawToken password : String) : Session (Response τ) := do
  let (_, user) ← consumeOneTimeToken crypto .passwordReset rawToken (draws.clock 0)
  setPassword crypto draws user password true

/-- `ChangePasswordView.post`, of the user the bearer token authenticates. -/
def changePassword (draws : Draws) (bearer : τ) (currentPassword newPassword : String) :
    Session (Response τ) := do
  let user ← authenticate crypto bearer (draws.clock 0)
  match ← checkPassword crypto draws user currentPassword with
  | none => throw .invalidPassword
  | some user => setPassword crypto draws user newPassword false

/-- `OAuthCallbackView.get`, of a provider account that is linked to a user. -/
def socialSignIn (draws : Draws) (provider providerUserId : String) : Session (Response τ) := do
  match ← read .select fun s => do
      let account ← s.db.socialAccount? provider providerUserId
      s.db.user? account.userId with
  | none => return .done
  | some user =>
      if user.isActive = false then throw .accountDeactivated
      else openSession crypto draws user (draws.clock 0) (draws.clock 1)

/-- `OAuthCallbackView.get`, where the address is that of an active user and the account
must not be linked without proof. -/
def requestLink (draws : Draws) (email : String) (identity : Identity) :
    Session (Response τ) := do
  match ← read .select fun s => (s.db.userByEmail email).filter (·.isActive) with
  | none => return .done
  | some user =>
      let _ ← query (.invalidateOneTimeTokens .socialLink user.id (draws.clock 0))
      let _ ← createOneTimeToken crypto draws .socialLink identity user (draws.clock 1)
      return .done

/-- `OAuthConfirmLinkView.post`. -/
def confirmLink (draws : Draws) (rawToken : String) : Session (Response τ) := do
  let (request, user) ← consumeOneTimeToken crypto .socialLink rawToken (draws.clock 0)
  let identity : Identity := request.detail
  let existing ← read .select fun s =>
    s.db.socialAccount? identity.provider identity.providerUserId
  if existing.any fun account => account.userId != user.id then return .socialAccountCollision
  else do
    let account? : Option SocialAccount := if existing.isSome then none else some
      { id := draws.rowId
        userId := user.id
        provider := identity.provider
        providerUserId := identity.providerUserId }
    -- the signal fires inside the transaction, before its commit
    if user.isVerified = false then
      let _ ← query (.cacheDelete (authUserCacheKey (uuidText user.id)))
    let _ ← query (.commitLink account? user)
    openSession crypto draws { user with isVerified := true } (draws.clock 1) (draws.clock 2)

def redeem (draws : Draws) (model : OneTimeModel) (rawToken : String) :
    Session (Response τ) := do
  let (token, _) ← consumeOneTimeToken crypto model rawToken (draws.clock 0)
  return .redeemed model token

end Session

/-! ## Requests -/

inductive Request (τ : Type)
  | register (email password : String)
  | verifyEmail (rawToken : String) (password? : Option String)
  | resendVerification (email : String)
  | login (email password : String)
  | refresh (rawToken : String)
  | logout (rawToken : String)
  | forgotPassword (email : String)
  | resetPassword (rawToken password : String)
  | changePassword (bearer : τ) (currentPassword newPassword : String)
  | socialSignIn (provider providerUserId : String)
  | requestLink (email : String) (identity : Identity)
  | confirmLink (rawToken : String)
  | redeem (model : OneTimeModel) (rawToken : String)

def Request.session (draws : Draws) : Request τ → Session (Response τ)
  | .register email password => Session.register crypto draws email password
  | .verifyEmail rawToken password? => Session.verifyEmail crypto draws rawToken password?
  | .resendVerification email => Session.resendVerification crypto draws email
  | .login email password => Session.login crypto draws email password
  | .refresh rawToken => Session.refresh crypto draws rawToken
  | .logout rawToken => Session.logout crypto draws rawToken
  | .forgotPassword email => Session.forgotPassword crypto draws email
  | .resetPassword rawToken password => Session.resetPassword crypto draws rawToken password
  | .changePassword bearer currentPassword newPassword =>
      Session.changePassword crypto draws bearer currentPassword newPassword
  | .socialSignIn provider providerUserId =>
      Session.socialSignIn crypto draws provider providerUserId
  | .requestLink email identity => Session.requestLink crypto draws email identity
  | .confirmLink rawToken => Session.confirmLink crypto draws rawToken
  | .redeem model rawToken => Session.redeem crypto draws model rawToken

/-- The one-time token that a request presents. -/
def Request.presents : Request τ → Option (OneTimeModel × String)
  | .verifyEmail rawToken _ => some (.emailVerification, crypto.sha256 rawToken)
  | .resetPassword rawToken _ => some (.passwordReset, crypto.sha256 rawToken)
  | .confirmLink rawToken => some (.socialLink, crypto.sha256 rawToken)
  | .redeem model rawToken => some (model, crypto.sha256 rawToken)
  | _ => none

/-- Whether a request is a password change or a password reset. -/
def Request.changesPassword : Request τ → Bool
  | .resetPassword _ _ | .changePassword _ _ _ => true
  | _ => false

/-! ## Maintenance -/

namespace Session

/-- One round of the loop of `_delete_expired_rows`, over refresh tokens: the keys of at
most 10 000 expired rows, and their deletion. -/
def deleteExpiredRefreshTokens (now : Datetime) : Session (Response τ) := do
  let ids ← read .select fun s => ((s.db.refreshTokens.filter fun token =>
    decide (token.expiresAt < now)).map RefreshToken.id).take 10000
  if ids = [] then return .done
  else do
    let _ ← query (.deleteRefreshTokens ids)
    return .done

/-- The same over the tokens of one model. -/
def deleteExpiredOneTimeTokens (model : OneTimeModel) (now : Datetime) :
    Session (Response τ) := do
  let ids ← read .select fun s => (((s.db.oneTime model).filter fun token =>
    decide (token.expiresAt < now)).map OneTimeToken.id).take 10000
  if ids = [] then return .done
  else do
    let _ ← query (.deleteOneTimeTokens model ids)
    return .done

/-- `user.delete()`: the signal fires inside the transaction, before its commit. -/
def deleteUser (id : UUID) : Session (Response τ) := do
  let _ ← query (.cacheDelete (authUserCacheKey (uuidText id)))
  let _ ← query (.deleteUser id)
  return .done

end Session

/-- Whatever touches the tables of the auth backend. -/
inductive Operation (τ : Type)
  | view (request : Request τ)
  | deleteExpiredRefreshTokens (now : Datetime)
  | deleteExpiredOneTimeTokens (model : OneTimeModel) (now : Datetime)
  | deleteUser (id : UUID)

def Operation.session (draws : Draws) : Operation τ → Session (Response τ)
  | .view request => request.session crypto draws
  | .deleteExpiredRefreshTokens now => Session.deleteExpiredRefreshTokens now
  | .deleteExpiredOneTimeTokens model now => Session.deleteExpiredOneTimeTokens model now
  | .deleteUser id => Session.deleteUser id

end Saasmint.Auth
