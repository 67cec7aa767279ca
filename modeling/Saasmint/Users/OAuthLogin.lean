import Saasmint.Orgs.Invitations
import Saasmint.Users.Requests

/-!
# OAuth logins

The callback of an OAuth provider, with `resolve_oauth_user`.  What the provider answers
to the exchange of the code is data: its `OAuthUserInfo`, or a failure.

Beside the statements of the other auth requests a callback makes two of its own, each of
them seen as a whole: the transaction that creates a user with the account that is linked
to it, and the `get_or_create` that links an account to a user who is there.
-/

namespace Saasmint.Auth

open Atomic Relational

variable {τ : Type}

/-! ## Providers -/

/-- `PROVIDERS`. -/
def providers : List String := ["google", "github", "microsoft"]

/-- `TRUSTED_FOR_AUTO_LINK`. -/
def trustedForAutoLink : List String := ["google", "github", "microsoft"]

/-- `_FORWARDABLE_OAUTH_ERRORS`. -/
def forwardableOauthErrors : List String :=
  ["access_denied", "server_error", "temporarily_unavailable", "invalid_request"]

structure OAuthUserInfo where
  email : String
  fullName : String
  providerUserId : String
  avatarUrl : Option String
  emailVerified : Bool
deriving DecidableEq, Repr

/-- How `exchange_code` fails: with an `OAuthError` or an error of the transport, or on an
answer it cannot read. -/
inductive ExchangeFailure
  | exchange
  | payload
deriving DecidableEq, Repr

/-- The error the view redirects with. -/
def ExchangeFailure.code : ExchangeFailure → String
  | exchange => "exchange_failed"
  | payload => "provider_error"

/-- What a callback is given: the provider of its path, its query parameters, the state
that the session had, and what the exchange of the code comes to. -/
structure OAuthCallback where
  provider : String
  code : Option String
  state : Option String
  error : Option String
  oauthState : Option String
  exchanged : Except ExchangeFailure OAuthUserInfo
deriving DecidableEq

/-- What the provider says of the user, or the error the browser is sent away with before
that is known. -/
def OAuthCallback.userInfo (request : OAuthCallback) : Except String OAuthUserInfo :=
  if request.provider ∉ providers then .error "invalid_provider"
  else
    match request.error.filter (· ≠ "") with
    | some error =>
        .error (if error ∈ forwardableOauthErrors then error else "exchange_failed")
    | none =>
        if request.state.getD "" = "" ∨ request.state ≠ request.oauthState then
          .error "invalid_state"
        else if request.code.getD "" = "" then .error "missing_code"
        else request.exchanged.mapError ExchangeFailure.code

/-! ## Statements -/

inductive OAuthCall
  | statement (query : Query)
  /-- The transaction that creates a user and links an account to it. -/
  | createUser (user : Account) (account : SocialAccount)
  /-- The `get_or_create` of `_link_or_request`. -/
  | linkAccount (account : SocialAccount)

/-- The user is created, and the account linked where it is not linked already. -/
def Db.createUserWith (db : Db) (user : Account) (account : SocialAccount) :
    Except AuthError Db := do
  let created ← db.insertUser user
  created.getOrCreateSocialAccount account

theorem Db.createUserWith_eq_ok {db db' : Db} {user : Account} {account : SocialAccount}
    (h : db.createUserWith user account = .ok db') : ∃ created, db.insertUser user = .ok created ∧
      created.getOrCreateSocialAccount account = .ok db' := by
  unfold createUserWith at h
  rcases hinsert : db.insertUser user with e | created
  · rw [hinsert] at h
    cases h
  · rw [hinsert] at h
    exact ⟨created, rfl, h⟩

/-- What a call does to the state. -/
def performCall : OAuthCall → State → Except AuthError ℕ × State
  | .statement query, s => perform query s
  | .createUser user account, s => s.settle (s.db.createUserWith user account)
  | .linkAccount account, s => s.settle (s.db.getOrCreateSocialAccount account)

abbrev OAuthSession (α : Type) := Fallible AuthError OAuthCall State α

/-- The draws of a callback; it may also create an account. -/
structure OAuthDraws extends Draws where
  accountId : UUID

/-- Where the browser is sent. -/
inductive Redirect (τ : Type)
  /-- To the error page. -/
  | error (code : String)
  | linkEmailSent
  /-- With a code for a pair of tokens for a user. -/
  | signedIn (user : Account) (access : τ) (refresh : String)
deriving DecidableEq

/-- How `resolve_oauth_user` ends. -/
inductive OAuthResolution
  | user (user : Account)
  | collision (existingUser : Option Account)
  /-- With an `OAuthEmailNotVerifiedError`. -/
  | emailNotVerified
  /-- With the `ValueError` of `create_user`. -/
  | emailRequired

namespace OAuthSession

/-- The statements of an auth request, made by a callback. -/
def ofSession {α : Type} (p : Session α) : OAuthSession α := Fallible.relabel .statement p

def call (call : OAuthCall) : OAuthSession ℕ := Fallible.atomic call (performCall call)

/-- `_link_or_request`. -/
def linkOrRequest (draws : OAuthDraws) (provider : String) (info : OAuthUserInfo)
    (existing : Account) : OAuthSession OAuthResolution := do
  if info.emailVerified = true ∧ provider ∈ trustedForAutoLink then
    let _ ← call (.linkAccount
      { id := draws.accountId
        userId := existing.id
        provider
        providerUserId := info.providerUserId })
    return .user existing
  else if existing.isActive = false then return .collision none
  else return .collision (some existing)

/-- The user that `resolve_oauth_user` creates, verified and without a usable password. -/
def newUser (draws : OAuthDraws) (info : OAuthUserInfo) : Account where
  id := draws.rowId
  email := normalizeEmail info.email
  password := "!" ++ draws.salt
  isActive := true
  isVerified := true
  passwordChangedAt := none

/-- The columns of the new user can hold what the provider says. -/
@[irreducible] def userFits (info : OAuthUserInfo) : Bool :=
  fitsVarchar 254 (normalizeEmail info.email) && fitsVarchar 255 info.fullName

/-- The transaction of `resolve_oauth_user`. -/
def createLinkedUser (draws : OAuthDraws) (provider : String) (info : OAuthUserInfo) :
    OAuthSession OAuthResolution := do
  if userFits info then
    -- the signal fires inside the transaction, before its commit
    let _ ← ofSession (Session.query (.cacheDelete (authUserCacheKey (uuidText draws.rowId))))
    let _ ← call (.createUser (newUser draws info)
      { id := draws.accountId
        userId := draws.rowId
        provider
        providerUserId := info.providerUserId })
    return .user (newUser draws info)
  else throw (.database "value too long for type character varying")

def resolveOauthUser (draws : OAuthDraws) (provider : String) (info : OAuthUserInfo) :
    OAuthSession OAuthResolution := do
  match ← ofSession (Session.read .select fun s => do
      let account ← s.db.socialAccount? provider info.providerUserId
      s.db.user? account.userId) with
  | some user => return .user user
  | none =>
      match ← ofSession (Session.read .select fun s => s.db.userByEmail info.email) with
      | some existing => linkOrRequest draws provider info existing
      | none =>
          if info.emailVerified = false then return .emailNotVerified
          else if info.email = "" then return .emailRequired
          else
            tryCatch (createLinkedUser draws provider info) fun
              | .integrity _ => do
                  match ← ofSession (Session.read .select fun s =>
                      s.db.userByEmail info.email) with
                  | some existing => linkOrRequest draws provider info existing
                  | none => throw (.database "User matching query does not exist.")
              | e => throw e

variable (crypto : Crypto τ)

/-- The link request of an active user is withdrawn, and a new one sent. -/
def requestConfirmation (draws : OAuthDraws) (provider : String) (info : OAuthUserInfo)
    (existing : Account) : Session Unit := do
  let _ ← Session.query (.invalidateOneTimeTokens .socialLink existing.id (draws.clock 0))
  let identity : Identity :=
    { provider
      providerUserId := info.providerUserId
      fullName := info.fullName
      avatarUrl := info.avatarUrl }
  let _ ← Session.createOneTimeToken crypto draws.toDraws .socialLink identity existing
    (draws.clock 1)

/-- `OAuthCallbackView.get`. -/
def callback (draws : OAuthDraws) (request : OAuthCallback) : OAuthSession (Redirect τ) := do
  match request.userInfo with
  | .error code => return .error code
  | .ok info =>
      match ← resolveOauthUser draws request.provider info with
      | .emailNotVerified => return .error "email_not_verified"
      | .emailRequired => return .error "account_deactivated"
      | .collision none => return .linkEmailSent
      | .collision (some existing) =>
          ofSession (requestConfirmation crypto draws request.provider info existing)
          return .linkEmailSent
      | .user user =>
          if user.isActive = false then return .error "account_deactivated"
          else
            let refresh ← ofSession (Session.createRefreshToken crypto draws.toDraws user
              (draws.clock 0))
            return .signedIn user (createAccessToken crypto user (draws.clock 1)) refresh

end OAuthSession

/-! ## Requests -/

/-- A callback, or another auth request. -/
inductive OAuthRequest (τ : Type)
  | callback (request : OAuthCallback)
  | view (request : Request τ)

/-- What an OAuth request answers with. -/
inductive OAuthAnswer (τ : Type)
  | redirect (redirect : Redirect τ)
  | response (response : Response τ)
deriving DecidableEq

def OAuthRequest.session (crypto : Crypto τ) (draws : OAuthDraws) :
    OAuthRequest τ → OAuthSession (OAuthAnswer τ)
  | .callback request => do return .redirect (← OAuthSession.callback crypto draws request)
  | .view request => do
      return .response (← OAuthSession.ofSession (request.session crypto draws.toDraws))

variable {ι : Type}

/-- Requests that have made no call yet. -/
def signingIn (crypto : Crypto τ) (requests : ι → OAuthRequest τ × OAuthDraws) (s : State) :
    Pool ι OAuthCall State (Except AuthError (OAuthAnswer τ)) where
  shared := s
  procs i := ExceptT.run ((requests i).1.session crypto (requests i).2)

end Saasmint.Auth
