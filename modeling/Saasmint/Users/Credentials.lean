import Saasmint.Library.Histories
import Saasmint.Users.LinkedAccounts

/-!
# Credentials

What a request can present for a user, and what it has to have seen for it to count: a
password against the stored hash, a refresh token that is live, a one-time token that the
request itself uses up, an account at a provider that is linked, an address that a trusted
provider has verified, or a registration of its own (`Credential`).

No request opens a session for a user, or saves a user's password or verification, before
it has presented a credential of that user (`earns_request`).
-/

namespace Saasmint.Auth

open Atomic Relational Auth.Session

variable {τ : Type}

/-! ## What is presented -/

/-- The request signs in with this account at this provider. -/
def OAuthRequest.SignsIn (request : OAuthRequest τ) (provider providerUserId : String) : Prop :=
  request = .view (.socialSignIn provider providerUserId) ∨
    ∃ info, request.Reports provider info ∧ info.providerUserId = providerUserId

/-- A credential of the user, whose row is the one that was read; `seen` says which calls
the request has made, and what states they have found. -/
inductive Credential (crypto : Crypto τ) (draws : Draws) (seen : OAuthCall → State → Prop)
    (request : OAuthRequest τ) (user : Account) : Prop
  /-- The password of the stored user. -/
  | password {email raw : String} {s : State} (hrequest : request = .view (.login email raw))
      (hseen : seen (.statement .select) s) (hstored : user ∈ s.db.users.rows)
      (hemail : user.email = email) (hcorrect : crypto.verifyPassword raw user.password = true)
  /-- An access token and the current password. -/
  | current {bearer : τ} {raw newPassword sub : String} {claims : List (String × Json)}
      {s : State} (hrequest : request = .view (.changePassword bearer raw newPassword))
      (hbearer : subject crypto (draws.clock 0) bearer = .ok (sub, claims))
      (hread : (seen (.statement (.cacheGet (authUserCacheKey sub))) s ∧
          s.cache (authUserCacheKey sub) = some user) ∨
        ∃ id, parseUserId sub = .ok id ∧ seen (.statement (.selectActiveUser id)) s ∧
          s.db.activeUser? id = some user)
      (hcorrect : crypto.verifyPassword raw user.password = true)
  /-- A refresh token of the user that is stored and live. -/
  | rotated {raw : String} {token : RefreshToken} {s : State}
      (hrequest : request = .view (.refresh raw))
      (hseen : seen (.statement (.selectRefreshToken (crypto.sha256 raw))) s)
      (hstored : token ∈ s.db.refreshTokens.rows) (hhash : token.tokenHash = crypto.sha256 raw)
      (hlive : token.Live (draws.clock 0)) (huser : s.db.user? token.userId = some user)
  /-- A one-time token of the user, which this request uses up. -/
  | redeemed {view : Request τ} {model : OneTimeModel} {tokenHash : String}
      {token : OneTimeToken model} {s t : State} (hrequest : request = .view view)
      (hpresents : view.presents crypto = some (model, tokenHash))
      (hseen : seen (.statement (.selectOneTimeToken model tokenHash)) s)
      (hstored : token ∈ (s.db.oneTime model).rows) (hhash : token.tokenHash = tokenHash)
      (huser : s.db.user? token.userId = some user)
      (hused : seen (.statement (.useOneTimeToken model tokenHash (draws.clock 0))) t)
      (hredeemable : ∃ row ∈ (t.db.oneTime model).rows,
        redeemable model tokenHash (draws.clock 0) row = true)
  /-- The account of a registration, which this request has created. -/
  | registered {email raw : String} {s : State}
      (hrequest : request = .view (.register email raw))
      (hseen : seen (.statement (.insertUser user)) s) (hemail : user.email = email)
      (hcreated : ∃ db, s.db.insertUser user = .ok db)
  /-- The account at a provider, which is linked to the user. -/
  | linked {provider providerUserId : String} {account : SocialAccount} {s : State}
      (hsigns : request.SignsIn provider providerUserId) (hseen : seen (.statement .select) s)
      (haccount : s.db.socialAccount? provider providerUserId = some account)
      (huser : s.db.user? account.userId = some user)
  /-- The address of the user, which a trusted provider reports as verified. -/
  | reported {provider : String} {info : OAuthUserInfo} {s : State}
      (hreports : request.Reports provider info) (hverified : info.emailVerified = true)
      (htrusted : provider ∈ trustedForAutoLink) (hseen : seen (.statement .select) s)
      (huser : s.db.userByEmail info.email = some user)
  /-- The account that this request has created for an address a provider has verified. -/
  | created {provider : String} {info : OAuthUserInfo} {account : SocialAccount} {s : State}
      (hreports : request.Reports provider info) (hverified : info.emailVerified = true)
      (hseen : seen (.createUser user account) s) (hemail : user.email = normalizeEmail info.email)
      (hcreated : ∃ db, s.db.createUserWith user account = .ok db)

theorem Credential.mono {crypto : Crypto τ} {draws : Draws} {seen seen' : OAuthCall → State → Prop}
    {request : OAuthRequest τ} {user : Account} (hsub : ∀ call s, seen call s → seen' call s)
    (h : Credential crypto draws seen request user) :
    Credential crypto draws seen' request user := by
  cases h with
  | password hrequest hseen hstored hemail hcorrect =>
      exact .password hrequest (hsub _ _ hseen) hstored hemail hcorrect
  | current hrequest hbearer hread hcorrect =>
      rcases hread with ⟨hseen, hcached⟩ | ⟨id, hid, hseen, hfound⟩
      · exact .current hrequest hbearer (Or.inl ⟨hsub _ _ hseen, hcached⟩) hcorrect
      · exact .current hrequest hbearer (Or.inr ⟨id, hid, hsub _ _ hseen, hfound⟩) hcorrect
  | rotated hrequest hseen hstored hhash hlive huser =>
      exact .rotated hrequest (hsub _ _ hseen) hstored hhash hlive huser
  | redeemed hrequest hpresents hseen hstored hhash huser hused hredeemable =>
      exact .redeemed hrequest hpresents (hsub _ _ hseen) hstored hhash huser (hsub _ _ hused)
        hredeemable
  | registered hrequest hseen hemail hcreated =>
      exact .registered hrequest (hsub _ _ hseen) hemail hcreated
  | linked hsigns hseen haccount huser => exact .linked hsigns (hsub _ _ hseen) haccount huser
  | reported hreports hverified htrusted hseen huser =>
      exact .reported hreports hverified htrusted (hsub _ _ hseen) huser
  | created hreports hverified hseen hemail hcreated =>
      exact .created hreports hverified (hsub _ _ hseen) hemail hcreated

/-! ## What has to be earned -/

namespace OAuthRequest

variable (crypto : Crypto τ) (draws : Draws) (request : OAuthRequest τ)

/-- Who is let in: a login also asks for the verification. -/
def Admits (user : Account) : Prop :=
  match request with
  | .view (.login _ _) => user.isActive = true ∧ user.isVerified = true
  | .view (.changePassword _ _ _) => True
  | _ => user.isActive = true

/-- The request presents a one-time token. -/
def Redeems : Prop := ∃ view, request = .view view ∧ (view.presents crypto).isSome = true

/-- A call that opens a session or saves a user needs a credential; to mark a user as
verified takes a one-time token. -/
def Earns (seen : OAuthCall → State → Prop) : OAuthCall → Prop
  | .statement (.insertRefreshToken token _) => token.tokenHash = crypto.sha256 draws.raw ∧
      ∃ user, Credential crypto draws seen request user ∧ user.id = token.userId ∧
        request.Admits user
  | .statement (.saveUser user (some fields)) => (∃ read,
      Credential crypto draws seen request read ∧ read.id = user.id) ∧
        (∀ field ∈ fields, field ∈ savable) ∧
          (.isVerified ∈ fields → user.isVerified = true ∧ request.Redeems crypto)
  | .statement (.commitLink _ user) =>
      Credential crypto draws seen request user ∧ request.Redeems crypto
  | .statement (.insertUser user) =>
      user.isVerified = false ∧ ∃ raw, request = .view (.register user.email raw)
  | .statement (.saveUser _ none) | .statement (.deleteUser _)
  | .statement (.deleteRefreshTokens _) | .statement (.deleteOneTimeTokens _ _) => False
  | .createUser user account => ∃ info, request.Reports account.provider info ∧
      info.emailVerified = true ∧ user.email = normalizeEmail info.email
  | _ => True

/-- What a request has seen, as a history. -/
abbrev Of (seen : History OAuthCall State) (call : OAuthCall) (s : State) : Prop := (call, s) ∈ seen

def ledger : Monitor (History OAuthCall State) OAuthCall State :=
  chronicle fun seen call action =>
    action = (fun s => (performCall call s).2) ∧ request.Earns crypto draws (Of seen) call

end OAuthRequest

/-- A query that needs no credential. -/
def Query.free : Query → Bool
  | insertRefreshToken _ _ | saveUser _ _ | commitLink _ _ | insertUser _ => false
  | deleteUser _ | deleteRefreshTokens _ | deleteOneTimeTokens _ _ => false
  | _ => true

section Rules

variable {crypto : Crypto τ} {draws : Draws} {request : OAuthRequest τ}
  {seen : History OAuthCall State} {α : Type}

theorem earns_of_free {q : Query} (hq : q.free = true) :
    request.Earns crypto draws (OAuthRequest.Of seen) (.statement q) := by
  cases q with
  | insertRefreshToken token origin => cases hq
  | saveUser user fields? => cases hq
  | commitLink account? user => cases hq
  | insertUser user => cases hq
  | deleteUser id => cases hq
  | deleteRefreshTokens ids => cases hq
  | deleteOneTimeTokens model ids => cases hq
  | _ => trivial

/-- The credential of a user that a request holds, after what it has seen. -/
abbrev Held (crypto : Crypto τ) (draws : Draws) (request : OAuthRequest τ)
    (seen : History OAuthCall State) (user : Account) : Prop :=
  Credential crypto draws (OAuthRequest.Of seen) request user

/-- A credential is held for good. -/
theorem Held.later {user : Account} {seen' : History OAuthCall State}
    (h : Held crypto draws request seen user) (hlater : seen <:+ seen') :
    Held crypto draws request seen' user :=
  h.mono fun _ _ hmem => hlater.subset hmem

/-- The program earns what it does. -/
abbrev Session.EarnsIn (p : Session α) (crypto : Crypto τ) (draws : Draws)
    (request : OAuthRequest τ) (P : History OAuthCall State → α → Prop)
    (seen : History OAuthCall State) : Prop :=
  p.Heeds ((request.ledger crypto draws).comap .statement) P seen

variable {P : History OAuthCall State → α → Prop}

theorem earns_query {q : Query} {P : History OAuthCall State → ℕ → Prop}
    (hq : request.Earns crypto draws (OAuthRequest.Of seen) (.statement q))
    (h : ∀ s count, (perform q s).1 = .ok count → P ((.statement q, s) :: seen) count) :
    (query q).EarnsIn crypto draws request P seen :=
  Fallible.heeds_atomic ⟨rfl, hq⟩ h

theorem earns_read {q : Query} {f : State → α} (hread : effect q = id) (hq : q.free = true)
    (h : ∀ s, P ((.statement q, s) :: seen) (f s)) :
    (Session.read q f).EarnsIn crypto draws request P seen :=
  Fallible.heeds_observe ⟨hread.symm, earns_of_free hq⟩ h

theorem earns_select {f : State → α} (h : ∀ s, P ((.statement .select, s) :: seen) (f s)) :
    (Session.read .select f).EarnsIn crypto draws request P seen :=
  earns_read effect_select rfl h

theorem Session.EarnsIn.bind {β : Type} {p : Session α} {rest : α → Session β}
    {P' : History OAuthCall State → β → Prop} (hp : p.EarnsIn crypto draws request P seen)
    (hrest : ∀ seen a, P seen a → (rest a).EarnsIn crypto draws request P' seen) :
    (p >>= rest).EarnsIn crypto draws request P' seen :=
  Fallible.heeds_bind.mpr (Fallible.Heeds.mono hp hrest)

theorem earns_pure {a : α} (h : P seen a) :
    (pure a : Session α).EarnsIn crypto draws request P seen :=
  Fallible.heeds_pure.mpr h

theorem earns_throw (e : AuthError) : (throw e : Session α).EarnsIn crypto draws request P seen :=
  Fallible.heeds_throw e

/-- A query without a credential, before the rest. -/
theorem earns_free {q : Query} (hq : q.free = true) {rest : ℕ → Session α}
    (hrest : ∀ s count, (perform q s).1 = .ok count →
      (rest count).EarnsIn crypto draws request P ((.statement q, s) :: seen)) :
    (query q >>= rest).EarnsIn crypto draws request P seen :=
  Fallible.heeds_bind.mpr (Fallible.heeds_atomic ⟨rfl, earns_of_free hq⟩ hrest)

end Rules

/-! ## The token functions -/

section Functions

variable {crypto : Crypto τ} {draws : Draws} {request : OAuthRequest τ}
  {seen : History OAuthCall State}

theorem earns_saveUser {P : History OAuthCall State → Unit → Prop} {user read : Account}
    {fields : List UserField} (hheld : Held crypto draws request seen read)
    (hid : read.id = user.id) (hfields : ∀ field ∈ fields, field ∈ savable)
    (hverifies : .isVerified ∈ fields → user.isVerified = true ∧ request.Redeems crypto)
    (h : ∀ seen', seen <:+ seen' → P seen' ()) :
    (Session.saveUser user fields).EarnsIn crypto draws request P seen := by
  unfold Session.saveUser
  refine Session.EarnsIn.bind (P := fun seen' _ => seen <:+ seen') ?_ fun seen' _ hlater => ?_
  · exact earns_query ⟨⟨read, hheld, hid⟩, hfields, hverifies⟩ fun s _ _ => List.suffix_cons _ _
  · refine earns_free rfl fun s _ _ => earns_pure (h _ ?_)
    exact hlater.trans (List.suffix_cons _ _)

/-- The password of a user is a credential of theirs, if it is one where it is checked. -/
theorem earns_checkPassword {P : History OAuthCall State → Option Account → Prop}
    {user : Account} {raw : String}
    (hheld : crypto.verifyPassword raw user.password = true → Held crypto draws request seen user)
    (hnone : P seen none)
    (hsome : ∀ seen' (checked : Account), Held crypto draws request seen' user →
      checked.id = user.id → checked.isActive = user.isActive →
        checked.isVerified = user.isVerified → P seen' (some checked)) :
    (checkPassword crypto draws user raw).EarnsIn crypto draws request P seen := by
  unfold checkPassword
  split
  next hcorrect =>
      have hmine := hheld hcorrect
      split
      · refine Session.EarnsIn.bind (P := fun seen' _ => seen <:+ seen') ?_
          fun seen' _ hlater => ?_
        · exact earns_saveUser hmine rfl (by simp [savable]) (by simp) fun seen' hlater => hlater
        · exact earns_pure (hsome _ _ (hmine.later hlater) rfl rfl rfl)
      · exact earns_pure (hsome _ user hmine rfl rfl rfl)
  next => exact earns_pure hnone

theorem earns_createRefreshToken {user read : Account} {now : Datetime} {origin : Origin}
    (hheld : Held crypto draws request seen read) (hid : read.id = user.id)
    (hadmits : request.Admits read) :
    (createRefreshToken crypto draws user now origin).EarnsIn crypto draws request
      (fun _ _ => True) seen := by
  unfold createRefreshToken
  refine Session.EarnsIn.bind (P := fun _ _ => True) ?_ fun _ _ _ => earns_pure trivial
  exact earns_query ⟨rfl, read, hheld, hid, hadmits⟩ fun _ _ _ => trivial

theorem earns_openSession {user read : Account} {now mintedAt : Datetime}
    (hheld : Held crypto draws request seen read) (hid : read.id = user.id)
    (hadmits : request.Admits read) :
    (openSession crypto draws user now mintedAt).EarnsIn crypto draws request
      (fun _ _ => True) seen := by
  unfold openSession
  exact (earns_createRefreshToken hheld hid hadmits).bind fun _ _ _ => earns_pure trivial

theorem earns_setPassword {user read : Account} {password : String} {verify : Bool}
    (hheld : Held crypto draws request seen read) (hid : read.id = user.id)
    (hadmits : request.Admits read) (hverify : verify = true → request.Redeems crypto) :
    (setPassword crypto draws user password verify).EarnsIn crypto draws request
      (fun _ _ => True) seen := by
  unfold setPassword revokeAllRefreshTokens
  refine Session.EarnsIn.bind (P := fun seen' _ => seen <:+ seen') ?_ fun seen' _ hlater => ?_
  · refine earns_saveUser hheld hid ?_ ?_ fun seen' hlater => hlater
    · split <;> simp [savable]
    · split
      next hflag =>
          obtain ⟨hverifies, _⟩ : verify = true ∧ user.isVerified = false := by simpa using hflag
          exact fun _ => ⟨by simp [hverifies], hverify hverifies⟩
      next => simp
  · rw [bind_assoc]
    refine earns_free rfl fun s _ _ => earns_openSession ?_ hid hadmits
    exact hheld.later (hlater.trans (List.suffix_cons _ _))

theorem earns_createOneTimeToken {model : OneTimeModel} {detail : model.Detail} {user : Account}
    {now : Datetime} : (createOneTimeToken crypto draws model detail user now).EarnsIn crypto draws
      request (fun seen' _ => seen <:+ seen') seen := by
  unfold createOneTimeToken
  exact earns_free rfl fun _ _ _ => earns_pure (List.suffix_cons _ _)

/-- A one-time token that has been consumed is a credential of its user. -/
theorem earns_consume {view : Request τ} {model : OneTimeModel} {rawToken : String}
    {P : History OAuthCall State → OneTimeToken model × Account → Prop}
    (hrequest : request = .view view)
    (hpresents : view.presents crypto = some (model, crypto.sha256 rawToken))
    (h : ∀ seen' token user, Held crypto draws request seen' user → user.isActive = true →
      P seen' (token, user)) :
    (consumeOneTimeToken crypto model rawToken (draws.clock 0)).EarnsIn crypto draws request
      P seen := by
  unfold consumeOneTimeToken
  refine Session.EarnsIn.bind (earns_read (effect_selectOneTimeToken _ _) rfl
    (P := fun seen' found => ∃ s : State,
      (OAuthCall.statement (.selectOneTimeToken model (crypto.sha256 rawToken)), s) ∈ seen' ∧
        found = s.db.oneTimeTokenWithUser? model (crypto.sha256 rawToken)) ?_) ?_
  · exact fun s => ⟨s, List.mem_cons_self, rfl⟩
  rintro seen found ⟨s, hseen, rfl⟩
  cases hfound : s.db.oneTimeTokenWithUser? model (crypto.sha256 rawToken) with
  | none => exact earns_throw _
  | some found =>
      obtain ⟨token, user⟩ := found
      obtain ⟨hlooked, huser⟩ : s.db.oneTimeToken? model (crypto.sha256 rawToken) = some token ∧
          s.db.user? token.userId = some user := by
        unfold Db.oneTimeTokenWithUser? at hfound
        simp only [Option.bind_eq_bind, Option.bind_eq_some_iff, Option.pure_def,
          Option.some.injEq, Prod.mk.injEq] at hfound
        obtain ⟨_, hlooked, _, huser, rfl, rfl⟩ := hfound
        exact ⟨hlooked, huser⟩
      obtain ⟨hstored, hhash⟩ := Db.oneTimeToken?_eq_some.mp hlooked
      dsimp only
      split
      · exact earns_throw _
      split
      · exact earns_throw _
      refine earns_free rfl fun t count hcount => ?_
      split
      · exact earns_throw _
      next hupdated =>
        split
        · exact earns_throw _
        next hactive =>
          have hredeemable : ∃ row ∈ (t.db.oneTime model).rows,
              redeemable model (crypto.sha256 rawToken) (draws.clock 0) row = true := by
            have hsame : (t.db.oneTime model).rows.countP
              (redeemable model (crypto.sha256 rawToken) (draws.clock 0)) = count :=
                Except.ok.inj hcount
            exact List.countP_pos_iff.mp (by omega)
          refine earns_pure (h _ _ _ ?_ (by simpa using hactive))
          exact .redeemed hrequest hpresents (List.mem_cons_of_mem _ hseen) hstored hhash huser
            List.mem_cons_self hredeemable

/-- A registration whose user has been inserted. -/
theorem earns_insertUser {α : Type} {user : Account} {raw : String}
    {handle : AuthError → Session ℕ} {rest : ℕ → Session α} {P : History OAuthCall State → α → Prop}
    (hrequest : request = .view (.register user.email raw)) (hnew : user.isVerified = false)
    (hhandle : ∀ later e, (handle e).EarnsIn crypto draws request
      (fun later _ => Held crypto draws request later user) later)
    (hrest : ∀ later count, Held crypto draws request later user →
      (rest count).EarnsIn crypto draws request P later) :
    (tryCatch (query (.insertUser user)) handle >>= rest).EarnsIn crypto draws request P seen := by
  refine Session.EarnsIn.bind (Fallible.heeds_tryAtomic ⟨rfl, hnew, raw, hrequest⟩ (fun t count hcount => ?_)
    fun t e _ => hhandle _ e) hrest
  rcases hinsert : t.db.insertUser user with e | db
  · change (State.settle t (t.db.insertUser user)).1 = .ok count at hcount
    rw [hinsert] at hcount
    cases hcount
  · exact .registered hrequest List.mem_cons_self rfl ⟨db, hinsert⟩

/-- The user that a bearer token stands for was read, in one way or the other. -/
theorem earns_authenticate {bearer : τ} {raw newPassword : String}
    {P : History OAuthCall State → Account → Prop}
    (hrequest : request = .view (.changePassword bearer raw newPassword))
    (h : ∀ seen' user, (crypto.verifyPassword raw user.password = true →
      Held crypto draws request seen' user) → P seen' user) :
    (authenticate crypto bearer (draws.clock 0)).EarnsIn crypto draws request P seen := by
  unfold authenticate authUser
  refine Session.EarnsIn.bind (P := fun seen' a => seen' = seen ∧
    subject crypto (draws.clock 0) bearer = .ok a) ?_ ?_
  · exact fun a ha => ⟨rfl, ha⟩
  rintro seen' ⟨sub, claims⟩ ⟨rfl, hbearer⟩
  dsimp only
  -- either read leaves a user of whom the password would be a credential
  refine Session.EarnsIn.bind (P := fun seen' user =>
    crypto.verifyPassword raw user.password = true → Held crypto draws request seen' user) ?_
      fun seen' user hheld => ?_
  · refine Session.EarnsIn.bind (earns_read (effect_cacheGet _) rfl (P := fun seen' cached =>
      ∃ s : State, (OAuthCall.statement (.cacheGet (authUserCacheKey sub)), s) ∈ seen' ∧
        cached = s.cache (authUserCacheKey sub)) ?_) ?_
    · exact fun s => ⟨s, List.mem_cons_self, rfl⟩
    rintro seen' cached ⟨s, hseen, rfl⟩
    cases hcached : s.cache (authUserCacheKey sub) with
    | some user =>
        exact earns_pure fun hcorrect =>
          .current hrequest hbearer (Or.inl ⟨hseen, hcached⟩) hcorrect
    | none =>
        dsimp only
        refine Session.EarnsIn.bind (P := fun seen'' id => seen'' = seen' ∧
          parseUserId sub = .ok id) ?_ ?_
        · exact fun a ha => ⟨rfl, ha⟩
        rintro _ id ⟨rfl, hid⟩
        refine Session.EarnsIn.bind (earns_read (effect_selectActiveUser _) rfl
          (P := fun seen' found => ∃ s : State,
            (OAuthCall.statement (.selectActiveUser id), s) ∈ seen' ∧
              found = s.db.activeUser? id) ?_) ?_
        · exact fun s => ⟨s, List.mem_cons_self, rfl⟩
        rintro seen' found ⟨s, hseen, rfl⟩
        cases hfound : s.db.activeUser? id with
        | none => exact earns_throw _
        | some user =>
            dsimp only
            refine earns_free rfl fun _ _ _ => earns_pure fun hcorrect => ?_
            exact .current hrequest hbearer
              (Or.inr ⟨id, hid, List.mem_cons_of_mem _ hseen, hfound⟩) hcorrect
  · intro user' hok
    obtain rfl : user = user' := by
      unfold checkPwdIat at hok
      dsimp only at hok
      split at hok
      · cases hok
      · exact Except.ok.inj hok
    exact h _ _ hheld

/-- A refresh token that is rotated was live. -/
theorem earns_rotate {rawToken : String} (hrequest : request = .view (.refresh rawToken)) :
    (rotateRefreshToken crypto draws rawToken).EarnsIn crypto draws request
      (fun _ _ => True) seen := by
  unfold rotateRefreshToken
  refine Session.EarnsIn.bind (earns_read (effect_selectRefreshToken _) rfl
    (P := fun seen' found => ∃ s : State,
      (OAuthCall.statement (.selectRefreshToken (crypto.sha256 rawToken)), s) ∈ seen' ∧
        found = s.found? (crypto.sha256 rawToken)) ?_) ?_
  · exact fun s => ⟨s, List.mem_cons_self, rfl⟩
  rintro seen found ⟨s, hseen, rfl⟩
  cases hfound : s.found? (crypto.sha256 rawToken) with
  | none => exact earns_throw _
  | some found =>
      obtain ⟨⟨hstored, hhash⟩, huser, _⟩ := State.found?_eq_some.mp hfound
      dsimp only
      split
      · exact earns_free rfl fun _ _ _ => earns_throw _
      next hrevoked =>
        split
        · exact earns_throw _
        next hexpired =>
          split
          · exact earns_throw _
          next hactive =>
            have hlive : found.token.Live (draws.clock 0) :=
              ⟨not_not.mp hrevoked, not_le.mp hexpired⟩
            have hheld : Held crypto draws request seen found.user :=
              .rotated hrequest hseen hstored hhash hlive (Db.user?_eq_some.mpr huser)
            have hadmits : request.Admits found.user := by
              subst hrequest
              simpa [OAuthRequest.Admits] using hactive
            refine earns_free rfl fun _ _ _ => ?_
            refine Session.EarnsIn.bind ?_ fun _ _ (_ : True) => earns_pure trivial
            exact earns_createRefreshToken (hheld.later (List.suffix_cons _ _)) rfl hadmits

end Functions

/-! ## The views -/

section Views

variable {crypto : Crypto τ} {draws : Draws} {seen : History OAuthCall State}

theorem earns_register (email password : String) :
    (register crypto draws email password).EarnsIn crypto draws
      (.view (.register email password)) (fun _ _ => True) seen := by
  unfold register
  refine (earns_select (P := fun _ _ => True) fun _ => trivial).bind fun before _ _ => ?_
  split
  · exact earns_throw _
  refine earns_free rfl fun s _ _ => ?_
  refine earns_insertUser rfl rfl (fun later e => ?_) fun later count hheld => ?_
  · split <;> exact Fallible.heeds_throw _
  · refine earns_createOneTimeToken.bind fun _ _ hlater => ?_
    exact earns_openSession (hheld.later hlater) rfl rfl

theorem earns_verifyEmail (rawToken : String) (password? : Option String) :
    (verifyEmail crypto draws rawToken password?).EarnsIn crypto draws
      (.view (.verifyEmail rawToken password?)) (fun _ _ => True) seen := by
  unfold verifyEmail
  refine Session.EarnsIn.bind (earns_consume rfl rfl (P := fun later found =>
    Held crypto draws (.view (.verifyEmail rawToken password?)) later found.2 ∧
      found.2.isActive = true) fun later token user hheld hactive => ⟨hheld, hactive⟩) ?_
  rintro later ⟨token, user⟩ ⟨hheld, hactive⟩
  dsimp only
  cases hverified : verified crypto draws.salt user password? with
  | none => exact earns_pure trivial
  | some outcome =>
      obtain ⟨changed, fields⟩ := outcome
      obtain ⟨hid, hflag, hfields⟩ : user.id = changed.id ∧ changed.isVerified = true ∧
          ∀ field ∈ fields, field ∈ savable := by
        unfold verified at hverified
        dsimp only at hverified
        split at hverified
        · cases hverified
          exact ⟨rfl, rfl, by split <;> simp [savable]⟩
        · split at hverified
          · cases hverified
          · cases hverified
            exact ⟨rfl, rfl, by split <;> simp [savable]⟩
      dsimp only
      split
      · refine Session.EarnsIn.bind (earns_saveUser hheld hid hfields
          (fun _ => ⟨hflag, _, rfl, rfl⟩) (P := fun saved _ => later <:+ saved) fun _ hlater => hlater) fun _ _ hlater => ?_
        exact earns_openSession (hheld.later hlater) hid hactive
      · exact earns_openSession hheld hid hactive

theorem earns_resendVerification (email : String) :
    (resendVerification crypto draws email : Session (Response τ)).EarnsIn crypto draws
      (.view (.resendVerification email)) (fun _ _ => True) seen := by
  unfold resendVerification
  refine (earns_select (P := fun _ _ => True) fun _ => trivial).bind fun _ user? _ => ?_
  cases user? with
  | none => exact earns_pure trivial
  | some user =>
      refine earns_free rfl fun _ _ _ => ?_
      exact earns_createOneTimeToken.bind fun _ _ _ => earns_pure trivial

theorem earns_login (email password : String) :
    (login crypto draws email password).EarnsIn crypto draws (.view (.login email password))
      (fun _ _ => True) seen := by
  unfold login
  refine Session.EarnsIn.bind (earns_select (P := fun later user? => ∃ s : State,
    (OAuthCall.statement .select, s) ∈ later ∧
      user? = s.db.users.find? fun user => user.email == email) ?_) ?_
  · exact fun s => ⟨s, List.mem_cons_self, rfl⟩
  rintro later user? ⟨s, hseen, rfl⟩
  cases hfound : s.db.users.find? fun user => user.email == email with
  | none => exact earns_throw _
  | some user =>
      obtain ⟨hstored, hemail⟩ := Table.mem_of_find? hfound
      refine Session.EarnsIn.bind (earns_checkPassword
        (P := fun checkedAt checked? => ∀ checked ∈ checked?,
          Held crypto draws (.view (.login email password)) checkedAt user ∧
            checked.id = user.id ∧ checked.isActive = user.isActive ∧
              checked.isVerified = user.isVerified) ?_ ?_ ?_) ?_
      · exact fun hcorrect => .password rfl hseen hstored (by simpa using hemail) hcorrect
      · exact fun checked hchecked => nomatch hchecked
      · rintro checkedAt checked hheld hid hactive hverified _ ⟨⟩
        exact ⟨hheld, hid, hactive, hverified⟩
      intro checkedAt checked? hchecked
      cases checked? with
      | none => exact earns_throw _
      | some checked =>
          obtain ⟨hheld, hid, hactive, hverified⟩ := hchecked checked rfl
          dsimp only
          split
          · exact earns_throw _
          next hisActive =>
            split
            · exact earns_throw _
            next hisVerified =>
              refine earns_openSession hheld hid.symm ⟨?_, ?_⟩
              · rw [← hactive]
                simpa using hisActive
              · rw [← hverified]
                simpa using hisVerified

theorem earns_refresh (rawToken : String) :
    (refresh crypto draws rawToken).EarnsIn crypto draws (.view (.refresh rawToken))
      (fun _ _ => True) seen := by
  unfold refresh
  exact (earns_rotate rfl).bind fun _ _ _ => earns_pure trivial

theorem earns_logout (rawToken : String) :
    (logout crypto draws rawToken : Session (Response τ)).EarnsIn crypto draws
      (.view (.logout rawToken)) (fun _ _ => True) seen := by
  unfold logout revokeRefreshToken
  rw [bind_assoc]
  exact earns_free rfl fun _ _ _ => earns_pure trivial

theorem earns_forgotPassword (email : String) :
    (forgotPassword crypto draws email : Session (Response τ)).EarnsIn crypto draws
      (.view (.forgotPassword email)) (fun _ _ => True) seen := by
  unfold forgotPassword
  refine (earns_select (P := fun _ _ => True) fun _ => trivial).bind fun _ user? _ => ?_
  cases user? with
  | none => exact earns_pure trivial
  | some user => exact earns_createOneTimeToken.bind fun _ _ _ => earns_pure trivial

theorem earns_resetPassword (rawToken password : String) :
    (resetPassword crypto draws rawToken password).EarnsIn crypto draws
      (.view (.resetPassword rawToken password)) (fun _ _ => True) seen := by
  unfold resetPassword
  refine Session.EarnsIn.bind (earns_consume rfl rfl (P := fun later found =>
    Held crypto draws (.view (.resetPassword rawToken password)) later found.2 ∧
      found.2.isActive = true) fun later token user hheld hactive => ⟨hheld, hactive⟩) ?_
  rintro later ⟨token, user⟩ ⟨hheld, hactive⟩
  exact earns_setPassword hheld rfl hactive fun _ => ⟨_, rfl, rfl⟩

theorem earns_changePassword (bearer : τ) (currentPassword newPassword : String) :
    (changePassword crypto draws bearer currentPassword newPassword).EarnsIn crypto draws
      (.view (.changePassword bearer currentPassword newPassword)) (fun _ _ => True) seen := by
  unfold changePassword
  refine Session.EarnsIn.bind (earns_authenticate rfl (P := fun later user =>
    crypto.verifyPassword currentPassword user.password = true → Held crypto draws
      (.view (.changePassword bearer currentPassword newPassword)) later user)
    fun _ _ hheld => hheld) fun later user hheld => ?_
  refine Session.EarnsIn.bind (earns_checkPassword hheld (P := fun checkedAt checked? =>
    ∀ checked ∈ checked?, ∃ read, Held crypto draws
      (.view (.changePassword bearer currentPassword newPassword)) checkedAt read ∧
        read.id = checked.id) ?_ ?_) ?_
  · exact fun checked hchecked => nomatch hchecked
  · rintro checkedAt checked hheld hid _ _ _ ⟨⟩
    exact ⟨user, hheld, hid.symm⟩
  intro checkedAt checked? hchecked
  cases checked? with
  | none => exact earns_throw _
  | some checked =>
      obtain ⟨read, hheld, hid⟩ := hchecked checked rfl
      exact earns_setPassword hheld hid trivial nofun

theorem earns_socialSignIn (provider providerUserId : String) :
    (socialSignIn crypto draws provider providerUserId).EarnsIn crypto draws
      (.view (.socialSignIn provider providerUserId)) (fun _ _ => True) seen := by
  unfold socialSignIn
  refine Session.EarnsIn.bind (earns_select (P := fun later user? => ∃ s : State,
    (OAuthCall.statement .select, s) ∈ later ∧ user? = (do
      let account ← s.db.socialAccount? provider providerUserId
      s.db.user? account.userId)) ?_) ?_
  · exact fun s => ⟨s, List.mem_cons_self, rfl⟩
  rintro later user? ⟨s, hseen, hfound⟩
  cases user? with
  | none => exact earns_pure trivial
  | some user =>
      obtain ⟨account, haccount, huser⟩ := Option.bind_eq_some_iff.mp hfound.symm
      dsimp only
      split
      · exact earns_throw _
      next hactive =>
        refine earns_openSession (.linked (Or.inl rfl) hseen haccount huser) rfl ?_
        simpa [OAuthRequest.Admits] using hactive

theorem earns_requestLink (email : String) (identity : Identity) :
    (requestLink crypto draws email identity : Session (Response τ)).EarnsIn crypto draws
      (.view (.requestLink email identity)) (fun _ _ => True) seen := by
  unfold requestLink
  refine (earns_select (P := fun _ _ => True) fun _ => trivial).bind fun _ user? _ => ?_
  cases user? with
  | none => exact earns_pure trivial
  | some user =>
      refine earns_free rfl fun _ _ _ => ?_
      exact earns_createOneTimeToken.bind fun _ _ _ => earns_pure trivial

theorem earns_confirmLink (rawToken : String) :
    (confirmLink crypto draws rawToken).EarnsIn crypto draws (.view (.confirmLink rawToken))
      (fun _ _ => True) seen := by
  unfold confirmLink
  refine Session.EarnsIn.bind (earns_consume rfl rfl (P := fun later found =>
    Held crypto draws (.view (.confirmLink rawToken)) later found.2 ∧ found.2.isActive = true)
    fun later token user hheld hactive => ⟨hheld, hactive⟩) ?_
  rintro consumed ⟨token, user⟩ ⟨hheld, hactive⟩
  dsimp only
  have hcommit : ∀ later, consumed <:+ later → ∀ account?,
      (do
        let _ ← query (.commitLink account? user)
        openSession crypto draws { user with isVerified := true } (draws.clock 1)
          (draws.clock 2) : Session (Response τ)).EarnsIn crypto draws
            (.view (.confirmLink rawToken)) (fun _ _ => True) later := by
    intro later hlater account?
    have hmine := hheld.later hlater
    refine Session.EarnsIn.bind (P := fun committed _ => later <:+ committed) ?_
      fun _ _ hcommitted => ?_
    · exact earns_query ⟨hmine, _, rfl, rfl⟩ fun _ _ _ => List.suffix_cons _ _
    · exact earns_openSession (hmine.later hcommitted) rfl hactive
  refine Session.EarnsIn.bind (earns_select (P := fun later _ => consumed <:+ later)
    fun _ => List.suffix_cons _ _) fun later existing hlater => ?_
  split
  · exact earns_pure trivial
  · split
    · exact earns_free rfl fun _ _ _ => hcommit _ (hlater.trans (List.suffix_cons _ _)) _
    · exact hcommit _ hlater _

theorem earns_redeem (model : OneTimeModel) (rawToken : String) :
    (redeem crypto draws model rawToken : Session (Response τ)).EarnsIn crypto draws
      (.view (.redeem model rawToken)) (fun _ _ => True) seen := by
  unfold redeem
  refine Session.EarnsIn.bind (earns_consume rfl rfl (P := fun _ _ => True)
    fun _ _ _ _ _ => trivial) ?_
  exact fun _ _ _ => earns_pure trivial

theorem earns_view (view : Request τ) : (view.session crypto draws).EarnsIn crypto draws
    (.view view) (fun _ _ => True) seen := by
  cases view with
  | register email password => exact earns_register email password
  | verifyEmail rawToken password? => exact earns_verifyEmail rawToken password?
  | resendVerification email => exact earns_resendVerification email
  | login email password => exact earns_login email password
  | refresh rawToken => exact earns_refresh rawToken
  | logout rawToken => exact earns_logout rawToken
  | forgotPassword email => exact earns_forgotPassword email
  | resetPassword rawToken password => exact earns_resetPassword rawToken password
  | changePassword bearer currentPassword newPassword =>
      exact earns_changePassword bearer currentPassword newPassword
  | socialSignIn provider providerUserId => exact earns_socialSignIn provider providerUserId
  | requestLink email identity => exact earns_requestLink email identity
  | confirmLink rawToken => exact earns_confirmLink rawToken
  | redeem model rawToken => exact earns_redeem model rawToken

end Views

/-! ## Callbacks -/

section Callbacks

variable {crypto : Crypto τ} {draws : OAuthDraws} {sent : OAuthCallback} {info : OAuthUserInfo}
  {seen : History OAuthCall State}

/-- The user that a callback resolves to is one it holds a credential of. -/
def ResolvesHeld (crypto : Crypto τ) (draws : OAuthDraws) (sent : OAuthCallback)
    (seen : History OAuthCall State) (resolution : OAuthResolution) : Prop :=
  ∀ user, resolution = .user user → Held crypto draws.toDraws (.callback sent) seen user

theorem earns_linkOrRequest {existing : Account} {s : State} (hinfo : sent.userInfo = .ok info)
    (hseen : (OAuthCall.statement .select, s) ∈ seen)
    (hexisting : s.db.userByEmail info.email = some existing) :
    (OAuthSession.linkOrRequest draws sent.provider info existing).Heeds
      (OAuthRequest.ledger crypto draws.toDraws (.callback sent)) (ResolvesHeld crypto draws sent)
      seen := by
  unfold OAuthSession.linkOrRequest
  split
  next htrusted =>
      refine Fallible.heeds_bind.mpr (Fallible.heeds_atomic ⟨rfl, trivial⟩ fun t _ _ => ?_)
      refine Fallible.heeds_pure.mpr fun user huser => ?_
      rw [← OAuthResolution.user.inj huser]
      exact .reported ⟨sent, rfl, rfl, hinfo⟩ htrusted.1 htrusted.2
        (List.mem_cons_of_mem _ hseen) hexisting
  next =>
      split <;> exact Fallible.heeds_pure.mpr fun user huser => nomatch huser

theorem earns_createLinkedUser (hinfo : sent.userInfo = .ok info)
    (hverified : info.emailVerified = true) :
    (OAuthSession.createLinkedUser draws sent.provider info).Heeds
      (OAuthRequest.ledger crypto draws.toDraws (.callback sent)) (ResolvesHeld crypto draws sent)
      seen := by
  unfold OAuthSession.createLinkedUser
  have hreports : (OAuthRequest.callback sent : OAuthRequest τ).Reports sent.provider info :=
    ⟨sent, rfl, rfl, hinfo⟩
  cases OAuthSession.userFits info with
  | false =>
      rw [if_neg Bool.false_ne_true]
      exact Fallible.heeds_throw _
  | true =>
      rw [if_pos rfl]
      refine Fallible.heeds_bind.mpr (Fallible.heeds_relabel.mpr ?_)
      refine Fallible.heeds_atomic ⟨rfl, trivial⟩ fun _ _ _ => ?_
      refine Fallible.heeds_bind.mpr (Fallible.heeds_atomic
        ⟨rfl, info, hreports, hverified, rfl⟩ fun t count hcount => ?_)
      refine Fallible.heeds_pure.mpr fun user huser => ?_
      rw [← OAuthResolution.user.inj huser]
      rcases hcreated : t.db.createUserWith (OAuthSession.newUser draws info)
          { id := draws.accountId
            userId := draws.rowId
            provider := sent.provider
            providerUserId := info.providerUserId } with e | db
      · change (State.settle t (t.db.createUserWith _ _)).1 = .ok count at hcount
        rw [hcreated] at hcount
        cases hcount
      · exact .created hreports hverified List.mem_cons_self rfl ⟨db, hcreated⟩

/-- The user of the reported address is read, and then resolved to. -/
theorem earns_existing (hinfo : sent.userInfo = .ok info) {otherwise : OAuthSession OAuthResolution}
    (hnone : ∀ later, otherwise.Heeds (OAuthRequest.ledger crypto draws.toDraws (.callback sent))
      (ResolvesHeld crypto draws sent) later) :
    (do
      match ← OAuthSession.ofSession (Session.read .select fun s => s.db.userByEmail info.email) with
      | some existing => OAuthSession.linkOrRequest draws sent.provider info existing
      | none => otherwise : OAuthSession OAuthResolution).Heeds
        (OAuthRequest.ledger crypto draws.toDraws (.callback sent)) (ResolvesHeld crypto draws sent)
        seen := by
  refine Fallible.heeds_bind.mpr (Fallible.heeds_relabel.mpr ?_)
  refine Fallible.heeds_observe ⟨rfl, trivial⟩ fun s => ?_
  cases hexisting : s.db.userByEmail info.email with
  | none => exact hnone _
  | some existing => exact earns_linkOrRequest hinfo List.mem_cons_self hexisting

theorem earns_resolveOauthUser (hinfo : sent.userInfo = .ok info) :
    (OAuthSession.resolveOauthUser draws sent.provider info).Heeds
      (OAuthRequest.ledger crypto draws.toDraws (.callback sent)) (ResolvesHeld crypto draws sent)
      seen := by
  unfold OAuthSession.resolveOauthUser
  refine Fallible.heeds_bind.mpr (Fallible.heeds_relabel.mpr ?_)
  refine Fallible.heeds_observe ⟨rfl, trivial⟩ fun s => ?_
  split
  next user hlinked =>
      obtain ⟨account, haccount, huser⟩ := Option.bind_eq_some_iff.mp hlinked
      refine Fallible.heeds_pure.mpr fun user' huser' => ?_
      rw [← OAuthResolution.user.inj huser']
      have hsigns : (OAuthRequest.callback sent : OAuthRequest τ).SignsIn sent.provider
          info.providerUserId := Or.inr ⟨info, ⟨sent, rfl, rfl, hinfo⟩, rfl⟩
      exact .linked hsigns List.mem_cons_self haccount huser
  refine earns_existing hinfo fun later => ?_
  split
  · exact Fallible.heeds_pure.mpr fun user huser => nomatch huser
  next hverified =>
      split
      · exact Fallible.heeds_pure.mpr fun user huser => nomatch huser
      refine Fallible.heeds_tryCatch
        (earns_createLinkedUser hinfo (by simpa using hverified)) fun m e => ?_
      cases e with
      | integrity message => exact earns_existing hinfo fun _ => Fallible.heeds_throw _
      | _ => exact Fallible.heeds_throw _

theorem earns_callback : (OAuthSession.callback crypto draws sent).Heeds
    (OAuthRequest.ledger crypto draws.toDraws (.callback sent)) (fun _ _ => True) seen := by
  unfold OAuthSession.callback
  cases hinfo : sent.userInfo with
  | error code => exact Fallible.heeds_pure.mpr trivial
  | ok info =>
      dsimp only
      refine Fallible.heeds_bind.mpr ((earns_resolveOauthUser hinfo).mono
        fun later resolution hresolves => ?_)
      cases resolution with
      | emailNotVerified => exact Fallible.heeds_pure.mpr trivial
      | emailRequired => exact Fallible.heeds_pure.mpr trivial
      | collision existing? =>
          cases existing? with
          | none => exact Fallible.heeds_pure.mpr trivial
          | some existing =>
              have hrequests : (OAuthSession.requestConfirmation crypto draws sent.provider info
                  existing).EarnsIn crypto draws.toDraws (.callback sent) (fun _ _ => True)
                    later := by
                unfold OAuthSession.requestConfirmation
                refine earns_free rfl fun _ _ _ => ?_
                exact earns_createOneTimeToken.bind fun _ _ _ => earns_pure trivial
              refine Fallible.heeds_bind.mpr (Fallible.heeds_relabel.mpr ?_)
              exact hrequests.mono fun _ _ _ => Fallible.heeds_pure.mpr trivial
      | user user =>
          dsimp only
          split
          · exact Fallible.heeds_pure.mpr trivial
          next hactive =>
            have hadmits : (OAuthRequest.callback sent : OAuthRequest τ).Admits user := by
              simpa [OAuthRequest.Admits] using hactive
            have hopens : (Session.createRefreshToken crypto draws.toDraws user (draws.clock 0)
                .login).EarnsIn crypto draws.toDraws (.callback sent) (fun _ _ => True) later :=
              earns_createRefreshToken (hresolves user rfl) rfl hadmits
            refine Fallible.heeds_bind.mpr (Fallible.heeds_relabel.mpr ?_)
            exact Fallible.Heeds.mono hopens fun _ _ _ => Fallible.heeds_pure.mpr trivial

end Callbacks

/-- **Every request** earns what it does: before it opens a session for a user or saves
them, it has presented a credential of theirs. -/
theorem earns_request (crypto : Crypto τ) (draws : OAuthDraws) (request : OAuthRequest τ) :
    (request.session crypto draws).Heeds (request.ledger crypto draws.toDraws)
      (fun _ _ => True) [] := by
  cases request with
  | callback sent =>
      refine Fallible.heeds_bind.mpr (earns_callback.mono fun _ _ _ => ?_)
      exact Fallible.heeds_pure.mpr trivial
  | view view =>
      refine Fallible.heeds_bind.mpr (Fallible.heeds_relabel.mpr ?_)
      exact (earns_view view).mono fun _ _ _ => Fallible.heeds_pure.mpr trivial

end Saasmint.Auth
