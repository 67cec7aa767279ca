import Saasmint.Users.EarnedSessions

/-!
# OAuth providers

`exchange_code`: what a provider answers becomes what the callback knows of the user.
Each provider says in its own way that an address is verified, Google by a flag of the
profile, GitHub by the list of addresses, Microsoft by a claim of a signed token; and
each of these answers is a document that may have any shape.

`Attests` is what an answer must say for the address to count as verified, and
`exchangeCode_verified_iff` that nothing less and nothing else does.  From it follows what a
run of callbacks and other requests may owe to the providers (`callbacks_attested`).
-/

namespace Saasmint.Auth

open Atomic Relational

/-! ## Documents -/

/-- The fields of a JSON object. -/
abbrev Document := List (String × Json)

/-- `document.get(key)`. -/
def Document.get (document : Document) (key : String) : Json := (document.lookup key).getD .null

/-- `value is True`. -/
def isTrue : Json → Bool
  | .bool value => value
  | _ => false

/-- `iter(value)`. -/
def elements : Json → Py (List Json)
  | .arr items => .ok items
  | .obj fields => .ok (fields.map fun field => .str field.1)
  | .str text => .ok (text.toList.map fun c => .str (String.ofList [c]))
  | value => .error (.typeError ("'" ++ value.typeName ++ "' object is not iterable"))

/-- `email.split("@")[0]`. -/
def localPart : Json → Py Json
  | .str email => .ok (.str (String.ofList (email.toList.takeWhile (· ≠ '@'))))
  | value => .error (.attributeError ("'" ++ value.typeName ++ "' object has no attribute 'split'"))

/-! ## The exchange -/

/-- What the exchange of a code raises. -/
inductive ExchangeCodeError
  /-- An `httpx.HTTPError`. -/
  | http (message : String)
  /-- An `OAuthError`. -/
  | oauth (message : String)
  | raised (error : PyError)

abbrev CodeExchange := Except ExchangeCodeError

/-- An expression of the exchange. -/
def raising {α : Type} (x : Py α) : CodeExchange α := x.mapError .raised

/-- `a or b`, where `b` may raise. -/
def orEval (a : Json) (b : CodeExchange Json) : CodeExchange Json := if a.truthy then .ok a else b

/-- What comes back in one exchange: the body of each response, if it is a success, and
what becomes of an `id_token`. -/
structure ProviderAnswers where
  token : CodeExchange Json
  /-- The profile, for an access token. -/
  userinfo : Json → CodeExchange Json
  /-- The addresses of a GitHub account, for an access token. -/
  emails : Json → CodeExchange Json
  /-- `jwt.decode` with a key of Microsoft: the claims, unless one of the errors is raised
  that count as a failed verification. -/
  decode : Json → Option Document

/-- `OAuthUserInfo`, with whatever the provider has put in its fields. -/
structure ProviderProfile where
  email : Json
  fullName : Json
  providerUserId : String
  avatarUrl : Json
  emailVerified : Bool

/-- `_MS_OIDC_ISSUER_PREFIX`. -/
def msOidcIssuerPrefix : String := "https://login.microsoftonline.com/"

/-- `_MS_OIDC_ISSUER_SUFFIX`. -/
def msOidcIssuerSuffix : String := "/v2.0"

/-- An issuer is one of the tenants of Microsoft. -/
def isMsIssuer (iss : String) : Bool :=
  msOidcIssuerPrefix.toList.isPrefixOf iss.toList && msOidcIssuerSuffix.toList.isSuffixOf iss.toList

/-- `_verify_microsoft_id_token`. -/
def verifyMicrosoftIdToken (decode : Json → Option Document) (idToken : Json) :
    CodeExchange (Option Document) :=
  match decode idToken with
  | none => .ok none
  | some claims =>
      match (claims.lookup "iss").getD (.str "") with
      | .str iss => .ok (if isMsIssuer iss then some claims else none)
      | iss => .error (.raised
          (.attributeError ("'" ++ iss.typeName ++ "' object has no attribute 'startswith'")))

/-- The loop of `_fetch_github_primary_email`. -/
def primaryEmail : List Json → CodeExchange String
  | [] => .error (.oauth "No verified primary email found on GitHub account")
  | entry :: entries => do
      let chosen ← raising do
        if (← entry.get "primary").truthy then return (← entry.get "verified").truthy
        else return false
      if chosen then return (← raising (entry.item "email")).toStr
      else primaryEmail entries

def fetchGithubPrimaryEmail (answers : ProviderAnswers) (accessToken : Json) : CodeExchange String := do
  primaryEmail (← raising (elements (← answers.emails accessToken)))

section Providers

variable (answers : ProviderAnswers) (token : Document) (accessToken : Json) (info : Document)

def googleProfile : CodeExchange ProviderProfile := do
  let email := info.get "email"
  if email.truthy = false then .error (.oauth "Google OAuth response missing email")
  else
    let verified := isTrue (info.get "verified_email") || isTrue (info.get "email_verified")
    let fullName ← orEval (info.get "name") (raising (localPart email))
    let id ← raising (Json.item "id" (.obj info))
    return {
      email
      fullName
      providerUserId := id.toStr
      avatarUrl := info.get "picture"
      emailVerified := verified }

def githubProfile : CodeExchange ProviderProfile := do
  let email ← fetchGithubPrimaryEmail answers accessToken
  let fullName ← orEval (info.get "name")
    (orEval (info.get "login") (raising (localPart (.str email))))
  let id ← raising (Json.item "id" (.obj info))
  return {
    email := .str email
    fullName
    providerUserId := id.toStr
    avatarUrl := info.get "avatar_url"
    emailVerified := true }

def microsoftProfile : CodeExchange ProviderProfile := do
  let idToken := token.get "id_token"
  let claims? ← (if idToken.truthy then verifyMicrosoftIdToken answers.decode idToken else .ok none)
  let displayName := (info.lookup "displayName").getD (.str "")
  match claims?.filter fun claims =>
      isTrue (claims.get "xms_edov") && (claims.get "email").truthy with
  | some claims =>
      let id ← orEval (claims.get "oid") (raising (Json.item "id" (.obj info)))
      return {
        email := claims.get "email"
        fullName := (claims.get "name").orElse displayName
        providerUserId := id.toStr
        avatarUrl := .null
        emailVerified := true }
  | none =>
      let email := (info.get "mail").orElse (info.get "userPrincipalName")
      if email.truthy = false then .error (.oauth "Microsoft OAuth response missing email")
      else
        let id ← raising (Json.item "id" (.obj info))
        return {
          email
          fullName := displayName
          providerUserId := id.toStr
          avatarUrl := .null
          emailVerified := false }

end Providers

/-- `exchange_code`. -/
def exchangeCode (provider : String) (answers : ProviderAnswers) : CodeExchange ProviderProfile :=
  if provider ∉ providers then
    .error (.raised (.valueError ("'" ++ provider ++ "' is not a valid Provider")))
  else
    do
      match ← answers.token with
      | .obj token =>
          let accessToken := Document.get token "access_token"
          if accessToken.truthy = false then
            .error (.oauth "OAuth token response missing access_token")
          else
            match ← answers.userinfo accessToken with
            | .obj info =>
                if provider = "google" then googleProfile info
                else if provider = "github" then githubProfile answers accessToken info
                else microsoftProfile answers token info
            | _ => .error (.oauth "Provider returned non-dict userinfo response")
      | value => .error (.raised
          (.attributeError ("'" ++ value.typeName ++ "' object has no attribute 'get'")))

/-! ## What the view makes of it -/

/-- The failures of an exchange that the view handles; any other is an error of the server. -/
def ExchangeCodeError.failure? : ExchangeCodeError → Option ExchangeFailure
  | http _ | oauth _ => some .exchange
  | raised (.valueError _) | raised (.keyError _) => some .payload
  | raised _ => none

/-- The profile, where its fields are texts. -/
def ProviderProfile.userInfo? (profile : ProviderProfile) : Option OAuthUserInfo :=
  match profile.email, profile.fullName, profile.avatarUrl with
  | .str email, .str fullName, .null => some
      { email, fullName, providerUserId := profile.providerUserId, avatarUrl := none,
        emailVerified := profile.emailVerified }
  | .str email, .str fullName, .str avatarUrl => some
      { email, fullName, providerUserId := profile.providerUserId, avatarUrl := some avatarUrl,
        emailVerified := profile.emailVerified }
  | _, _, _ => none

/-- The callback has what the exchange with these answers comes to. -/
def OAuthCallback.Answered (sent : OAuthCallback) (answers : ProviderAnswers) : Prop :=
  match exchangeCode sent.provider answers with
  | .ok profile => ∃ info, profile.userInfo? = some info ∧ sent.exchanged = .ok info
  | .error e => ∃ failure, e.failure? = some failure ∧ sent.exchanged = .error failure

/-! ## Attestation -/

namespace ProviderAnswers

variable (answers : ProviderAnswers)

/-- The provider has given a token for the code, and a profile for the token. -/
structure Grants (token : Document) (accessToken : Json) (info : Document) : Prop where
  htoken : answers.token = .ok (.obj token)
  haccess : Document.get token "access_token" = accessToken
  htruthy : accessToken.truthy = true
  hinfo : answers.userinfo accessToken = .ok (.obj info)

/-- The provider says that the user with this identifier owns the address. -/
inductive Attests : String → Json → String → Prop
  /-- A flag of the profile is `true`, and no other value will do. -/
  | google {token info : Document} {accessToken id : Json}
      (hgrants : answers.Grants token accessToken info)
      (htruthy : (Document.get info "email").truthy = true)
      (hverified : Document.get info "verified_email" = .bool true ∨
        Document.get info "email_verified" = .bool true)
      (hid : info.lookup "id" = some id) :
      Attests "google" (Document.get info "email") id.toStr
  /-- The address is in the list, as primary and verified. -/
  | github {token info : Document} {accessToken id address email : Json}
      {before after : List Json} {entry : Document} (hgrants : answers.Grants token accessToken info)
      (haddress : answers.emails accessToken = .ok address)
      (hlist : elements address = .ok (before ++ .obj entry :: after))
      (hprimary : (Document.get entry "primary").truthy = true)
      (hverified : (Document.get entry "verified").truthy = true)
      (hemail : entry.lookup "email" = some email) (hid : info.lookup "id" = some id) :
      Attests "github" (.str email.toStr) id.toStr
  /-- A verified `id_token` of a tenant has the address, and says that its domain is
  verified. -/
  | microsoft {token info claims : Document} {accessToken : Json} {iss : String}
      (hgrants : answers.Grants token accessToken info)
      (htoken : (Document.get token "id_token").truthy = true)
      (hclaims : answers.decode (Document.get token "id_token") = some claims)
      (hiss : (claims.lookup "iss").getD (.str "") = .str iss) (hissuer : isMsIssuer iss = true)
      (hdomain : Document.get claims "xms_edov" = .bool true)
      (htruthy : (Document.get claims "email").truthy = true) {id : Json}
      (hid : id = Document.get claims "oid" ∧ id.truthy = true ∨
        (Document.get claims "oid").truthy = false ∧ info.lookup "id" = some id) :
      Attests "microsoft" (Document.get claims "email") id.toStr

end ProviderAnswers

@[simp] theorem raising_eq_ok {α : Type} {x : Py α} {a : α} : raising x = .ok a ↔ x = .ok a := by
  cases x <;> simp [raising, Except.mapError]

theorem isTrue_iff {value : Json} : isTrue value = true ↔ value = .bool true := by
  cases value with
  | bool b => cases b <;> simp [isTrue]
  | _ => simp [isTrue]

theorem exchange_bind_eq_ok {α β : Type} {x : CodeExchange α} {f : α → CodeExchange β} {b : β} :
    x >>= f = .ok b ↔ ∃ a, x = .ok a ∧ f a = .ok b := by
  rcases x with e | a
  · exact iff_of_false (fun h => nomatch h) fun ⟨_, h, _⟩ => nomatch h
  · exact ⟨fun h => ⟨a, rfl, h⟩, fun ⟨_, ha, h⟩ => Except.ok.inj ha ▸ h⟩

theorem item_obj_eq_ok {key : String} {fields : Document} {value : Json} :
    Json.item key (.obj fields) = .ok value ↔ fields.lookup key = some value := by
  cases hlookup : fields.lookup key <;> simp [Json.item, hlookup]

/-- The first address that is chosen is primary and verified. -/
theorem primaryEmail_eq_ok {entries : List Json} {email : String} (h : primaryEmail entries = .ok email) :
    ∃ before entry after address, entries = before ++ .obj entry :: after ∧
      (Document.get entry "primary").truthy = true ∧ (Document.get entry "verified").truthy = true ∧
      entry.lookup "email" = some address ∧ address.toStr = email := by
  induction entries with
  | nil => cases h
  | cons entry entries ih =>
      obtain ⟨chosen, hchosen, hrest⟩ := exchange_bind_eq_ok.mp h
      cases chosen with
      | false =>
          obtain ⟨before, found, after, address, rfl, hfound⟩ := ih hrest
          exact ⟨entry :: before, found, after, address, rfl, hfound⟩
      | true =>
          obtain ⟨primary, hprimary, hverified⟩ := bind_eq_ok.mp (raising_eq_ok.mp hchosen)
          obtain ⟨address, haddress, hemail⟩ := exchange_bind_eq_ok.mp hrest
          cases entry with
          | obj fields =>
              have hget : ∀ key, Json.get (.obj fields) key = .ok (Document.get fields key) :=
                fun _ => rfl
              rw [hget] at hprimary
              rw [← Except.ok.inj hprimary] at hverified
              split at hverified
              next hprimary =>
                  rw [hget] at hverified
                  refine ⟨[], fields, entries, address, rfl, hprimary, ?_, ?_, ?_⟩
                  · exact Except.ok.inj hverified
                  · exact item_obj_eq_ok.mp (raising_eq_ok.mp haddress)
                  · exact Except.ok.inj hemail
              next => cases hverified
          | _ => cases hprimary

/-- A verified token is one of a tenant. -/
theorem verifyMicrosoftIdToken_eq_some {decode : Json → Option Document} {idToken : Json}
    {claims : Document} (h : verifyMicrosoftIdToken decode idToken = .ok (some claims)) :
    ∃ iss, decode idToken = some claims ∧ (claims.lookup "iss").getD (.str "") = .str iss ∧
      isMsIssuer iss = true := by
  unfold verifyMicrosoftIdToken at h
  split at h
  · cases h
  next found hdecode =>
      split at h
      next iss hiss =>
          split at h
          next hissuer =>
              cases h
              exact ⟨iss, hdecode, hiss, hissuer⟩
          next => cases h
      next => cases h

section Profiles

variable {answers : ProviderAnswers} {provider : String} {profile : ProviderProfile}
  {token info : Document} {accessToken : Json}

/-- An exchange that succeeds has been granted a profile. -/
theorem exchangeCode_eq_ok (h : exchangeCode provider answers = .ok profile) :
    ∃ token accessToken info, answers.Grants token accessToken info ∧
      (provider = "google" ∧ googleProfile info = .ok profile ∨
        provider = "github" ∧ githubProfile answers accessToken info = .ok profile ∨
        provider = "microsoft" ∧ microsoftProfile answers token info = .ok profile) := by
  unfold exchangeCode at h
  split at h
  · cases h
  next hprovider =>
      obtain ⟨body, hbody, h⟩ := exchange_bind_eq_ok.mp h
      cases body with
      | obj token =>
          dsimp only at h
          split at h
          · cases h
          next htruthy =>
              obtain ⟨userinfo, hinfo, h⟩ := exchange_bind_eq_ok.mp h
              cases userinfo with
              | obj info =>
                  refine ⟨token, _, info, ⟨hbody, rfl, by simpa using htruthy, hinfo⟩, ?_⟩
                  dsimp only at h
                  split at h
                  next hgoogle => exact Or.inl ⟨hgoogle, h⟩
                  next hgoogle =>
                      split at h
                      next hgithub => exact Or.inr (Or.inl ⟨hgithub, h⟩)
                      next hgithub =>
                          refine Or.inr (Or.inr ⟨?_, h⟩)
                          simpa [providers, hgoogle, hgithub] using not_not.mp hprovider
              | _ => cases h
      | _ => cases h

theorem googleProfile_eq_ok (h : googleProfile info = .ok profile) :
    (Document.get info "email").truthy = true ∧ profile.email = Document.get info "email" ∧
      (profile.emailVerified = true ↔ Document.get info "verified_email" = .bool true ∨
        Document.get info "email_verified" = .bool true) ∧
      ∃ id, info.lookup "id" = some id ∧ profile.providerUserId = id.toStr := by
  unfold googleProfile at h
  dsimp only at h
  split at h
  · cases h
  next htruthy =>
      obtain ⟨fullName, _, h⟩ := exchange_bind_eq_ok.mp h
      obtain ⟨id, hid, h⟩ := exchange_bind_eq_ok.mp h
      cases Except.ok.inj h
      refine ⟨by simpa using htruthy, rfl, ?_, id, item_obj_eq_ok.mp (raising_eq_ok.mp hid), rfl⟩
      rw [Bool.or_eq_true, isTrue_iff, isTrue_iff]

theorem githubProfile_eq_ok (h : githubProfile answers accessToken info = .ok profile) :
    profile.emailVerified = true ∧ (∃ address before entry after email,
      answers.emails accessToken = .ok address ∧
      elements address = .ok (before ++ .obj entry :: after) ∧
      (Document.get entry "primary").truthy = true ∧ (Document.get entry "verified").truthy = true ∧
      entry.lookup "email" = some email ∧ profile.email = .str email.toStr) ∧
      ∃ id, info.lookup "id" = some id ∧ profile.providerUserId = id.toStr := by
  unfold githubProfile at h
  obtain ⟨email, hemail, h⟩ := exchange_bind_eq_ok.mp h
  obtain ⟨fullName, _, h⟩ := exchange_bind_eq_ok.mp h
  obtain ⟨id, hid, h⟩ := exchange_bind_eq_ok.mp h
  cases Except.ok.inj h
  unfold fetchGithubPrimaryEmail at hemail
  obtain ⟨address, haddress, hemail⟩ := exchange_bind_eq_ok.mp hemail
  obtain ⟨entries, hentries, hemail⟩ := exchange_bind_eq_ok.mp hemail
  obtain ⟨before, entry, after, found, rfl, hprimary, hverified, hfound, rfl⟩ :=
    primaryEmail_eq_ok hemail
  exact ⟨rfl, ⟨address, before, entry, after, found, haddress, raising_eq_ok.mp hentries, hprimary,
    hverified, hfound, rfl⟩, id, item_obj_eq_ok.mp (raising_eq_ok.mp hid), rfl⟩

/-- The claims that the token is worth, if there is one. -/
def ProviderAnswers.claims (answers : ProviderAnswers) (token claims : Document) : Prop :=
  (Document.get token "id_token").truthy = true ∧
    answers.decode (Document.get token "id_token") = some claims ∧
    ∃ iss, (claims.lookup "iss").getD (.str "") = .str iss ∧ isMsIssuer iss = true

/-- The claims count when the domain of the address is verified. -/
theorem microsoftProfile_eq_ok (h : microsoftProfile answers token info = .ok profile) :
    (profile.emailVerified = true ∧ ∃ claims id, answers.claims token claims ∧
      Document.get claims "xms_edov" = .bool true ∧ (Document.get claims "email").truthy = true ∧
      profile.email = Document.get claims "email" ∧ profile.providerUserId = id.toStr ∧
      (id = Document.get claims "oid" ∧ id.truthy = true ∨
        (Document.get claims "oid").truthy = false ∧ info.lookup "id" = some id)) ∨
    (profile.emailVerified = false ∧
      (∀ claims, answers.claims token claims → Document.get claims "xms_edov" = .bool true →
        (Document.get claims "email").truthy = false) ∧
      ∃ id, info.lookup "id" = some id ∧ profile.providerUserId = id.toStr) := by
  unfold microsoftProfile at h
  obtain ⟨claims?, hclaims, h⟩ := exchange_bind_eq_ok.mp h
  -- without an id token nothing is decoded, and nothing is claimed
  have hworth : ∀ claims, claims? = some claims ↔ answers.claims token claims := by
    intro claims
    split at hclaims
    next htoken =>
        constructor
        · rintro rfl
          obtain ⟨iss, hdecode, hiss, hissuer⟩ := verifyMicrosoftIdToken_eq_some hclaims
          exact ⟨htoken, hdecode, iss, hiss, hissuer⟩
        · rintro ⟨_, hdecode, iss, hiss, hissuer⟩
          simp only [verifyMicrosoftIdToken, hdecode, hiss, hissuer, if_true] at hclaims
          exact (Except.ok.inj hclaims).symm
    next htoken =>
        refine ⟨fun hsome => ?_, fun hclaims => absurd hclaims.1 htoken⟩
        rw [← Except.ok.inj hclaims] at hsome
        cases hsome
  dsimp only at h
  split at h
  next claims hfiltered =>
      obtain ⟨hsome, hcounts⟩ := Option.filter_eq_some_iff.mp hfiltered
      obtain ⟨hdomain, htruthy⟩ := Bool.and_eq_true_iff.mp hcounts
      obtain ⟨id, hid, h⟩ := exchange_bind_eq_ok.mp h
      cases Except.ok.inj h
      refine Or.inl ⟨rfl, claims, id, (hworth claims).mp hsome, isTrue_iff.mp hdomain, htruthy,
        rfl, rfl, ?_⟩
      unfold orEval at hid
      split at hid
      next hoid =>
          cases Except.ok.inj hid
          exact Or.inl ⟨rfl, hoid⟩
      next hoid =>
          exact Or.inr ⟨by simpa using hoid, item_obj_eq_ok.mp (raising_eq_ok.mp hid)⟩
  next hfiltered =>
      split at h
      · cases h
      obtain ⟨id, hid, h⟩ := exchange_bind_eq_ok.mp h
      cases Except.ok.inj h
      refine Or.inr ⟨rfl, fun claims hclaims hdomain => ?_, id,
        item_obj_eq_ok.mp (raising_eq_ok.mp hid), rfl⟩
      -- claims with a verified domain were refused for the lack of an address alone
      have hrefused := Option.filter_eq_none_iff.mp hfiltered claims ((hworth claims).mpr hclaims)
      simpa [isTrue_iff.mpr hdomain] using hrefused

/-- There is one exchange. -/
theorem ProviderAnswers.Grants.unique {token' info' : Document} {accessToken' : Json}
    (h : answers.Grants token accessToken info) (h' : answers.Grants token' accessToken' info') :
    token' = token ∧ accessToken' = accessToken ∧ info' = info := by
  obtain ⟨htoken, rfl, _, hinfo⟩ := h
  obtain ⟨htoken', rfl, _, hinfo'⟩ := h'
  rw [htoken] at htoken'
  cases htoken'
  rw [hinfo] at hinfo'
  cases hinfo'
  exact ⟨rfl, rfl, rfl⟩

/-- **The verified flag is an attestation**, whatever the provider answers. -/
theorem exchangeCode_verified_iff (h : exchangeCode provider answers = .ok profile) :
    profile.emailVerified = true ↔
      answers.Attests provider profile.email profile.providerUserId := by
  obtain ⟨token, accessToken, info, hgrants, hprofile⟩ := exchangeCode_eq_ok h
  rcases hprofile with ⟨rfl, hprofile⟩ | ⟨rfl, hprofile⟩ | ⟨rfl, hprofile⟩
  · obtain ⟨htruthy, hemail, hverified, id, hid, hidText⟩ := googleProfile_eq_ok hprofile
    rw [hverified]
    constructor
    · intro hflag
      rw [hemail, hidText]
      exact .google hgrants htruthy hflag hid
    · intro hattests
      generalize hprovider : "google" = provider, profile.email = email',
        profile.providerUserId = id' at hattests
      cases hattests with
      | google hgrants' _ hflag _ =>
          obtain ⟨_, _, rfl⟩ := hgrants.unique hgrants'
          exact hflag
      | _ => exact absurd hprovider (by decide)
  · obtain ⟨hverified, ⟨address, before, entry, after, email, haddress, hlist, hprimary, hchosen,
      hfound, hemail⟩, id, hid, hidText⟩ := githubProfile_eq_ok hprofile
    refine iff_of_true hverified ?_
    rw [hemail, hidText]
    exact .github hgrants haddress hlist hprimary hchosen hfound hid
  · rcases microsoftProfile_eq_ok hprofile with ⟨hverified, claims, id, ⟨htoken, hclaims, iss, hiss,
      hissuer⟩, hdomain, htruthy, hemail, hidText, hid⟩ | ⟨hunverified, hnone, _⟩
    · refine iff_of_true hverified ?_
      rw [hemail, hidText]
      exact .microsoft hgrants htoken hclaims hiss hissuer hdomain htruthy hid
    · refine iff_of_false (by simp [hunverified]) fun hattests => ?_
      generalize hprovider : "microsoft" = provider, profile.email = email',
        profile.providerUserId = id' at hattests
      cases hattests with
      | microsoft hgrants' htoken hclaims hiss hissuer hdomain htruthy hid =>
          obtain ⟨rfl, _, _⟩ := hgrants.unique hgrants'
          have hfalse := hnone _ ⟨htoken, hclaims, _, hiss, hissuer⟩ hdomain
          rw [hfalse] at htruthy
          cases htruthy
      | _ => exact absurd hprovider (by decide)

end Profiles

/-! ## Callbacks in a run -/

/-- The provider names its user by this identifier. -/
def ProviderAnswers.Names (answers : ProviderAnswers) (provider id : String) : Prop :=
  ∃ token accessToken info value, answers.Grants token accessToken info ∧ value.toStr = id ∧
    (info.lookup "id" = some value ∨ provider = "microsoft" ∧
      ∃ claims, answers.claims token claims ∧ Document.get claims "oid" = value)

theorem exchangeCode_names {answers : ProviderAnswers} {provider : String}
    {profile : ProviderProfile} (h : exchangeCode provider answers = .ok profile) :
    answers.Names provider profile.providerUserId := by
  obtain ⟨token, accessToken, info, hgrants, hprofile⟩ := exchangeCode_eq_ok h
  rcases hprofile with ⟨rfl, hprofile⟩ | ⟨rfl, hprofile⟩ | ⟨rfl, hprofile⟩
  · obtain ⟨_, _, _, id, hid, hidText⟩ := googleProfile_eq_ok hprofile
    exact ⟨token, accessToken, info, id, hgrants, hidText.symm, Or.inl hid⟩
  · obtain ⟨_, _, id, hid, hidText⟩ := githubProfile_eq_ok hprofile
    exact ⟨token, accessToken, info, id, hgrants, hidText.symm, Or.inl hid⟩
  · rcases microsoftProfile_eq_ok hprofile with ⟨_, claims, id, hclaims, _, _, _, hidText, hid⟩ |
      ⟨_, _, id, hid, hidText⟩
    · refine ⟨token, accessToken, info, id, hgrants, hidText.symm, ?_⟩
      rcases hid with ⟨rfl, _⟩ | ⟨_, hid⟩
      · exact Or.inr ⟨rfl, claims, hclaims, rfl⟩
      · exact Or.inl hid
    · exact ⟨token, accessToken, info, id, hgrants, hidText.symm, Or.inl hid⟩

theorem exchanged_of_userInfo {sent : OAuthCallback} {info : OAuthUserInfo}
    (h : sent.userInfo = .ok info) : sent.exchanged = .ok info := by
  unfold OAuthCallback.userInfo at h
  split at h
  · cases h
  split at h
  · cases h
  split at h
  · cases h
  split at h
  · cases h
  · cases hexchanged : sent.exchanged with
    | error e =>
        rw [hexchanged] at h
        cases h
    | ok info' =>
        rw [hexchanged] at h
        cases h
        rfl

/-- The texts of a profile are what it says. -/
theorem ProviderProfile.userInfo?_eq_some {profile : ProviderProfile} {info : OAuthUserInfo}
    (h : profile.userInfo? = some info) : profile.email = .str info.email ∧
      profile.providerUserId = info.providerUserId ∧
      profile.emailVerified = info.emailVerified := by
  unfold ProviderProfile.userInfo? at h
  split at h
  next hemail _ _ =>
      cases h
      exact ⟨hemail, rfl, rfl⟩
  next hemail _ _ =>
      cases h
      exact ⟨hemail, rfl, rfl⟩
  next => cases h

/-- What a callback is told comes from the provider. -/
theorem names_of_reports {τ : Type} {sent : OAuthCallback} {answers : ProviderAnswers}
    {provider : String} {info : OAuthUserInfo} (hanswered : sent.Answered answers)
    (hreports : (OAuthRequest.callback sent : OAuthRequest τ).Reports provider info) :
    sent.provider = provider ∧ answers.Names provider info.providerUserId ∧
      (info.emailVerified = true → answers.Attests provider (.str info.email) info.providerUserId) := by
  obtain ⟨_, ⟨rfl⟩, rfl, huserInfo⟩ := hreports
  have hexchanged := exchanged_of_userInfo huserInfo
  unfold OAuthCallback.Answered at hanswered
  split at hanswered
  next profile hprofile =>
      obtain ⟨info', hinfo, hsame⟩ := hanswered
      obtain rfl : info' = info := Except.ok.inj (hsame.symm.trans hexchanged)
      obtain ⟨hemail, hid, hverified⟩ := ProviderProfile.userInfo?_eq_some hinfo
      rw [← hid, ← hemail, ← hverified]
      exact ⟨rfl, exchangeCode_names hprofile, (exchangeCode_verified_iff hprofile).mp⟩
  next e _ =>
      obtain ⟨failure, _, hsame⟩ := hanswered
      rw [hexchanged] at hsame
      cases hsame

section Runs

variable {τ ι : Type} [DecidableEq ι] (crypto : Crypto τ)
  (requests : ι → OAuthRequest τ × OAuthDraws) (s : State) (answers : ι → ProviderAnswers)

/-- The address is the one of a user, as it is looked up or as it is stored. -/
def IsAddress (user : Account) (email : String) : Prop :=
  lower user.email = lower email ∨ user.email = normalizeEmail email

/-- A provider backs the callback of `i`, which comes for this user: it names an account
that was linked to the user, or attests their address. -/
def Backed (first : List ι) (i : ι) (user : Account) : Prop :=
  ∃ sent, (requests i).1 = .callback sent ∧
    ((∃ account t, (answers i).Names sent.provider account.providerUserId ∧
        account.provider = sent.provider ∧ account.userId = user.id ∧
        (signingIn crypto requests s).Saw first i (.statement .select) t ∧
        account ∈ t.db.socialAccounts.rows) ∨
      ∃ email id, (answers i).Attests sent.provider (.str email) id ∧ IsAddress user email)

variable {crypto requests s answers}

/-- The credential of a callback is backed. -/
theorem backed_of_shows {sent : OAuthCallback} {first : List ι} {i : ι} {user : Account}
    (hanswered : sent.Answered (answers i)) (hrequest : (requests i).1 = .callback sent)
    (hshows : Shows crypto requests s first i user) :
    Backed crypto requests s answers first i user := by
  unfold Shows at hshows
  rw [hrequest] at hshows
  cases hshows with
  | password h _ _ _ _ => cases h
  | current h _ _ _ => cases h
  | rotated h _ _ _ _ _ => cases h
  | redeemed h _ _ _ _ _ _ _ => cases h
  | registered h _ _ _ => cases h
  | linked hsigns hseen haccount huser =>
      rcases hsigns with h | ⟨info, hreports, rfl⟩
      · cases h
      · obtain ⟨rfl, hnames, _⟩ := names_of_reports hanswered hreports
        obtain ⟨hstored, hkey⟩ := Table.mem_of_find? haccount
        obtain ⟨hprovider, hid⟩ : _ = sent.provider ∧ _ = info.providerUserId := by simpa using hkey
        refine ⟨sent, hrequest, Or.inl ⟨_, _, ?_, hprovider, ?_, hseen, hstored⟩⟩
        · rwa [hid]
        · exact (Db.user?_eq_some.mp huser).2.symm
  | reported hreports hverified _ _ huser =>
      obtain ⟨rfl, _, hattests⟩ := names_of_reports hanswered hreports
      have hemail := (Table.mem_of_find? huser).2
      exact ⟨sent, hrequest, Or.inr ⟨_, _, hattests hverified, Or.inl (by simpa using hemail)⟩⟩
  | created hreports hverified _ hemail _ =>
      obtain ⟨rfl, _, hattests⟩ := names_of_reports hanswered hreports
      exact ⟨sent, hrequest, Or.inr ⟨_, _, hattests hverified, Or.inr hemail⟩⟩

/-- The step of `i` after `first` links an account. -/
structure LinksAt (crypto : Crypto τ) (requests : ι → OAuthRequest τ × OAuthDraws) (s : State)
    (first : List ι) (i : ι) (account : SocialAccount) (user : Account) : Prop where
  before : account ∉ (stateAfter crypto requests s first).db.socialAccounts.rows
  after : account ∈ (stateAfter crypto requests s (first ++ [i])).db.socialAccounts.rows
  stored : user ∈ (stateAfter crypto requests s (first ++ [i])).db.users.rows
  owner : user.id = account.userId

/-- An account that comes to be linked is linked by a step, which confirms a link request or
is a callback whose provider attests the address. -/
theorem exists_linksAt (hanswers : ∀ i sent, (requests i).1 = .callback sent →
      sent.Answered (answers i)) {schedule : List ι} {account : SocialAccount}
    (hstart : account ∉ s.db.socialAccounts.rows)
    (hend : account ∈ (stateAfter crypto requests s schedule).db.socialAccounts.rows) :
    ∃ first i rest, schedule = first ++ i :: rest ∧
      ((∃ rawToken, (requests i).1 = .view (.confirmLink rawToken)) ∨
        ∃ sent user email, LinksAt crypto requests s first i account user ∧
          (requests i).1 = .callback sent ∧ sent.provider = account.provider ∧
          (answers i).Attests account.provider (.str email) account.providerUserId ∧
          IsAddress user email) := by
  obtain ⟨first, i, rest, call, effect, next, hsplit, hproc, hnot, hgained⟩ :=
    exists_call_of_gained (P := fun t => account ∈ t.db.socialAccounts.rows) hstart hend
  obtain ⟨mem, hobeys, hknows, _⟩ := run_knows (signingIn_obeys crypto requests) knows_start first
  have hallowed := hobeys i
  rw [hproc] at hallowed
  obtain ⟨⟨rfl, hpermits⟩, _⟩ := hallowed
  have hafter := stateAfter_step hproc
  have hlinked : account ∈ (stateAfter crypto requests s (first ++ [i])).db.socialAccounts.rows := by
    rw [hafter]
    exact hgained
  refine ⟨first, i, rest, hsplit, ?_⟩
  cases vouched_of_gained hknows hproc hpermits hnot hgained with
  | confirmed hrequest _ _ _ _ _ => exact Or.inl ⟨_, hrequest⟩
  | created hreports hid hverified _ hstored huser hemail =>
      obtain ⟨sent, hrequest⟩ : ∃ sent, (requests i).1 = .callback sent :=
        hreports.imp fun _ h => h.1
      rw [hrequest] at hreports
      obtain ⟨hprovider, _, hattests⟩ := names_of_reports (hanswers i sent hrequest) hreports
      rw [← hid]
      exact Or.inr ⟨sent, _, _, ⟨hnot, hlinked, hstored, huser⟩, hrequest, hprovider,
        hattests hverified, Or.inr hemail⟩
  | autoLinked hreports hid hverified _ hstored huser hemail =>
      obtain ⟨sent, hrequest⟩ : ∃ sent, (requests i).1 = .callback sent :=
        hreports.imp fun _ h => h.1
      rw [hrequest] at hreports
      obtain ⟨hprovider, _, hattests⟩ := names_of_reports (hanswers i sent hrequest) hreports
      obtain ⟨user', hstored', hsame, hsameEmail⟩ :=
        (performCall_permitted hpermits (stateAfter crypto requests s first)).1.users _ hstored
      rw [← hid]
      refine Or.inr ⟨sent, user', _, ⟨hnot, hlinked, ?_, hsame.trans huser⟩, hrequest, hprovider,
        hattests hverified, Or.inl (by rw [hsameEmail, hemail])⟩
      rw [hafter]
      exact hstored'

variable (crypto requests s answers)

end Runs

/-! ## Bob's provider -/

/-- What Google answers for bob. -/
def bobAnswers (_ : Fin 2) : ProviderAnswers where
  token := .ok (.obj [("access_token", .str "access")])
  userinfo _ := .ok (.obj
    [("id", .str "google-bob"), ("email", .str "bob@example.com"), ("name", .str "Bob"),
      ("verified_email", .bool true)])
  emails _ := .error (.http "404 Not Found")
  decode _ := none

def bobToken : RefreshToken where
  id := 100#128
  userId := 200#128
  tokenHash := "sha256:raw-0"
  expiresAt := 1700604800000000
  revokedAt := none

end Saasmint.Auth
