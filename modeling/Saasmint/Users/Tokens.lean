import Saasmint.Users.Statements

/-!
# Tokens

The functions of `authentication.py`: how access tokens, refresh tokens and one-time
tokens are made, and what is checked when one is presented.

The hash of a token, the hashing of passwords and the signing of access tokens are the
fields of a `Crypto`.  What a request draws, the readings of its clock and what it
generates at random, are its `Draws`.
-/

namespace Saasmint.Auth

open Atomic Relational

/-! ## Parameters -/

/-- The claims of an access token; the instants are in microseconds. -/
structure Payload where
  sub : String
  email : String
  type : String
  iat : Datetime
  exp : Datetime
  pwdIat : Int
deriving DecidableEq, Repr

inductive JwtError
  | expiredSignature
  | invalidToken
deriving DecidableEq, Repr

/-- What the code leaves to libraries; `τ` is the type of signed access tokens. -/
structure Crypto (τ : Type) where
  /-- `hashlib.sha256(raw.encode()).hexdigest()`. -/
  sha256 : String → String
  /-- `make_password`, of a salt and a password. -/
  makePassword : String → String → String
  /-- Whether a password is the one of a stored hash. -/
  verifyPassword : String → String → Bool
  /-- Whether a stored hash is weaker than the hashes made today. -/
  mustUpdate : String → Bool
  /-- `jwt.encode(payload, settings.JWT_SIGNING_KEY, algorithm="HS256")`. -/
  jwtEncode : Payload → τ
  /-- `jwt.decode` at an instant: the claims of the token. -/
  jwtDecode : Datetime → τ → Except JwtError (List (String × Json))

/-- A datetime claim, as it is encoded: in whole seconds. -/
def numericDate (instant : Datetime) : Int := instant / 1000000

/-- What decoding at an instant makes of the claims that were encoded: `iat` and `exp` are
checked, in this order. -/
def Payload.decoded (payload : Payload) (now : Datetime) :
    Except JwtError (List (String × Json)) :=
  if now < numericDate payload.iat * 1000000 then .error .invalidToken
  else if numericDate payload.exp * 1000000 ≤ now then .error .expiredSignature
  else .ok
    [("sub", .str payload.sub), ("email", .str payload.email), ("type", .str payload.type),
      ("iat", .int (numericDate payload.iat)), ("exp", .int (numericDate payload.exp)),
      ("pwd_iat", .int payload.pwdIat)]

/-- The documented behaviour of the signing library: what was encoded with the key is
decoded. -/
def Crypto.Decodes {τ : Type} (crypto : Crypto τ) : Prop :=
  ∀ payload now, crypto.jwtDecode now (crypto.jwtEncode payload) = payload.decoded now

/-- What a request draws: its successive readings of the clock, the key and the text of
the token it creates, the key of the other row it may create, and a salt. -/
structure Draws where
  clock : ℕ → Datetime
  id : UUID
  raw : String
  rowId : UUID
  salt : String

/-- `ACCESS_TOKEN_LIFETIME`. -/
def accessTokenLifetime : Int := 15 * 60 * 1000000

/-- `REFRESH_TOKEN_LIFETIME`. -/
def refreshTokenLifetime : Int := 7 * 24 * 60 * 60 * 1000000

/-- `int(instant.timestamp())`. -/
def wholeSecond (instant : Datetime) : Int := instant.tdiv 1000000

/-- `int(pwd_changed.timestamp()) if pwd_changed else 0`. -/
def Account.pwdIat (user : Account) : Int := user.passwordChangedAt.elim 0 wholeSecond

variable {τ : Type} (crypto : Crypto τ)

/-! ## Access tokens -/

def createAccessToken (user : Account) (now : Datetime) : τ :=
  crypto.jwtEncode
    { sub := uuidText user.id
      email := user.email
      type := "access"
      iat := now
      exp := now + accessTokenLifetime
      pwdIat := user.pwdIat }

/-- The last check of `authenticate`: the token is no older than the password of the user
it was decided upon. -/
def checkPwdIat (payload : List (String × Json)) (user : Account) : Except AuthError Account :=
  let pwdIat := (((payload.lookup "pwd_iat").getD (.int 0)).asInt?).getD 0
  if pwdIat < user.pwdIat then .error (.authenticationFailed "Token invalidated." "token_revoked")
  else .ok user

/-- The claims of a token that are checked before the user is looked up: its `sub`. -/
def subject (now : Datetime) (token : τ) : Except AuthError (String × List (String × Json)) :=
  match crypto.jwtDecode now token with
  | .error .expiredSignature => .error (.authenticationFailed "Token has expired." "token_expired")
  | .error .invalidToken => .error (.authenticationFailed "Invalid token." "invalid_token")
  | .ok payload =>
      if ¬ ((payload.lookup "type").getD .null).isStr "access" then
        .error (.authenticationFailed "Invalid token type." "invalid_token")
      else
        match payload.lookup "sub" with
        | some (.str sub) =>
            if sub = "" then
              .error (.authenticationFailed "Token missing 'sub' claim." "invalid_token")
            else .ok (sub, payload)
        | _ => .error (.authenticationFailed "Token missing 'sub' claim." "invalid_token")

def parseUserId (text : String) : Except AuthError UUID :=
  match parseUuid text with
  | .ok id => .ok id
  | .error _ => .error (.validation ("“" ++ text ++ "” is not a valid UUID."))

def Db.activeUser? (db : Db) (id : UUID) : Option Account := (db.user? id).filter (·.isActive)

namespace Session

/-- The user a `sub` stands for: the cached snapshot, or the stored row, which is then
cached. -/
def authUser (sub : String) : Session Account := do
  match ← read (.cacheGet (authUserCacheKey sub)) fun s => s.cache (authUserCacheKey sub) with
  | some user => return user
  | none =>
      let id ← Fallible.ofExcept (parseUserId sub)
      match ← read (.selectActiveUser id) fun s => s.db.activeUser? id with
      | none => throw (.authenticationFailed "User not found." "user_not_found")
      | some user =>
          let _ ← query (.cacheSet (authUserCacheKey sub) user)
          return user

/-- `JWTAuthentication.authenticate`, of the bearer token of a request. -/
def authenticate (token : τ) (now : Datetime) : Session Account := do
  let (sub, payload) ← Fallible.ofExcept (subject crypto now token)
  let user ← authUser sub
  Fallible.ofExcept (checkPwdIat payload user)

/-! ## Refresh tokens -/

/-- A refresh token that was found, with its user; the record adds the session of the
token and the cutoff of the user. -/
structure Found where
  token : RefreshToken
  user : Account
  session : ℕ
  cutoff : ℕ

end Session

/-- `RefreshToken.objects.select_related("user").get(token_hash=…)`. -/
def State.found? (s : State) (tokenHash : String) : Option Session.Found := do
  let token ← s.db.refreshToken? tokenHash
  let user ← s.db.user? token.userId
  return ⟨token, user, s.lineage.sessionOf token.id, s.lineage.cutoff token.userId⟩

/-- A token that is found is stored, and its user with it. -/
theorem State.found?_eq_some {s : State} {tokenHash : String} {found : Session.Found} :
    s.found? tokenHash = some found ↔
      (found.token ∈ s.db.refreshTokens.rows ∧ found.token.tokenHash = tokenHash) ∧
      (found.user ∈ s.db.users.rows ∧ found.user.id = found.token.userId) ∧
      found.session = s.lineage.sessionOf found.token.id ∧
      found.cutoff = s.lineage.cutoff found.token.userId := by
  unfold State.found?
  simp only [Option.bind_eq_bind, Option.bind_eq_some_iff, Option.pure_def, Option.some.injEq,
    Db.refreshToken?_eq_some, Db.user?_eq_some]
  obtain ⟨token, user, session, cutoff⟩ := found
  constructor
  · rintro ⟨token', htoken, user', huser, hfound⟩
    cases hfound
    exact ⟨htoken, huser, rfl, rfl⟩
  · intro ⟨htoken, huser, hsession, hcutoff⟩
    dsimp only at hsession hcutoff
    subst hsession hcutoff
    exact ⟨token, htoken, user, huser, rfl⟩

namespace Session

/-- `create_refresh_token`, at an instant; the result is the raw token. -/
def createRefreshToken (draws : Draws) (user : Account) (now : Datetime)
    (origin : Origin := .login) : Session String := do
  let _ ← query (.insertRefreshToken
    { id := draws.id
      userId := user.id
      tokenHash := crypto.sha256 draws.raw
      expiresAt := now + refreshTokenLifetime
      revokedAt := none } origin)
  return draws.raw

def rotateRefreshToken (draws : Draws) (rawToken : String) : Session (Account × String) := do
  let tokenHash := crypto.sha256 rawToken
  match ← read (.selectRefreshToken tokenHash) fun s => s.found? tokenHash with
  | none => throw (.authenticationFailed "Invalid refresh token." "invalid_token")
  | some found =>
      if found.token.revokedAt ≠ none then do
        -- the mass revocation is committed, although the call fails
        let _ ← query (.revokeReused found.user.id (draws.clock 0))
        throw (.authenticationFailed "Token has been revoked." "token_revoked")
      else if found.token.expiresAt ≤ draws.clock 0 then
        throw (.authenticationFailed "Refresh token has expired." "token_expired")
      else if found.user.isActive = false then
        throw (.authenticationFailed "User not found." "user_not_found")
      else do
        let _ ← query (.revokeToken found.token.id (draws.clock 1))
        let raw ← createRefreshToken crypto draws found.user (draws.clock 2)
          (.rotation found.session found.cutoff)
        return (found.user, raw)

def revokeRefreshToken (rawToken : String) (now : Datetime) : Session Unit := do
  let _ ← query (.revokeHash (crypto.sha256 rawToken) now)

def revokeAllRefreshTokens (user : Account) (now : Datetime) : Session Unit := do
  let _ ← query (.revokeAll user.id now)

/-! ## One-time tokens -/

/-- `_create_one_time_token` and `create_social_link_token`. -/
def createOneTimeToken (draws : Draws) (model : OneTimeModel) (detail : model.Detail)
    (user : Account) (now : Datetime) : Session String := do
  let _ ← query (.insertOneTimeToken model
    { id := draws.id
      userId := user.id
      tokenHash := crypto.sha256 draws.raw
      expiresAt := now + model.lifetime
      usedAt := none
      detail })
  return draws.raw

end Session

/-- `model_class.objects.select_related("user").filter(token_hash=…).first()`. -/
def Db.oneTimeTokenWithUser? (db : Db) (model : OneTimeModel) (tokenHash : String) :
    Option (OneTimeToken model × Account) := do
  let token ← db.oneTimeToken? model tokenHash
  let user ← db.user? token.userId
  return (token, user)

/-- `str.capitalize`, of a lower-case word. -/
def capitalize (word : String) : String :=
  match word.toList with
  | [] => ""
  | c :: cs => String.ofList (c.toUpper :: cs)

namespace Session

/-- `_consume_one_time_token`: the row, as the caller sees it, and its user. -/
def consumeOneTimeToken (model : OneTimeModel) (rawToken : String) (now : Datetime) :
    Session (OneTimeToken model × Account) := do
  let tokenHash := crypto.sha256 rawToken
  match ← read (.selectOneTimeToken model tokenHash) fun s =>
      s.db.oneTimeTokenWithUser? model tokenHash with
  | none => throw (.authenticationFailed ("Invalid " ++ model.label ++ " token.") "invalid_token")
  | some (token, user) =>
      if token.usedAt ≠ none then
        throw (.authenticationFailed (capitalize model.label ++ " token has already been used.")
          "token_used")
      else if token.expiresAt ≤ now then
        throw (.authenticationFailed (capitalize model.label ++ " token has expired.")
          "token_expired")
      else do
        let updated ← query (.useOneTimeToken model tokenHash now)
        if updated = 0 then
          throw (.authenticationFailed (capitalize model.label ++ " token has already been used.")
            "token_used")
        else if user.isActive = false then
          throw (.authenticationFailed "User not found." "user_not_found")
        else return ({ token with usedAt := some now }, user)

end Session

end Saasmint.Auth
