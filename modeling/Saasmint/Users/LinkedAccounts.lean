import Saasmint.Users.Accounts
import Saasmint.Users.OAuthLogin
import Saasmint.Users.OneTime
import Saasmint.Users.Saves

/-!
# Where linked accounts come from

Three calls link an account: the creation of a user by a callback, the link of a callback
to a user who is there, and the confirmation of a link request.  Each of them says whom it
links from what its request has read before: the user of the address that the provider
reported, or the link request that was presented (`OAuthRequest.Permits`).  Others may act
between the reading and the link, but no request deletes a user or a link request, or
changes what was read of them (`Remembers`).
-/

namespace Saasmint.Auth

open Atomic Relational Auth.Session

variable {τ ι : Type}

/-! ## What a request knows when it links -/

/-- The provider reports the user to the request, a callback of the provider. -/
def OAuthRequest.Reports (request : OAuthRequest τ) (provider : String)
    (info : OAuthUserInfo) : Prop :=
  ∃ sent, request = .callback sent ∧ sent.provider = provider ∧ sent.userInfo = .ok info

/-- The address that is reported. -/
def OAuthRequest.email? : OAuthRequest τ → Option String
  | .callback sent => sent.userInfo.toOption.map OAuthUserInfo.email
  | .view _ => none

/-- The account at a provider that a link request is bound to. -/
def OneTimeToken.identity (token : OneTimeToken .socialLink) : Identity := token.detail

/-- The columns of users that requests save. -/
def savable : List UserField := [.password, .passwordChangedAt, .isVerified]

structure LinkMemory where
  /-- The user that was last read by the reported address. -/
  existing : Option Account
  /-- The link request that was read. -/
  request : Option (OneTimeToken .socialLink)

namespace OAuthRequest

variable (crypto : Crypto τ) (request : OAuthRequest τ)

def track (mem : LinkMemory) : OAuthCall → State → LinkMemory
  | .statement .select, s => { mem with existing := request.email?.bind s.db.userByEmail }
  | .statement (.selectOneTimeToken .socialLink tokenHash), s =>
      { mem with request := s.db.oneTimeToken? .socialLink tokenHash }
  | _, _ => mem

/-- A user who is created with the account is created for a reported address that the
provider has verified; a user who is there is linked by a trusted provider who has
verified their address, or by confirming a link request of theirs. -/
def Permits (mem : LinkMemory) : OAuthCall → Prop
  | .createUser user account => user.id = account.userId ∧ ∃ info,
      request.Reports account.provider info ∧ info.providerUserId = account.providerUserId ∧
        info.emailVerified = true ∧ user.email = normalizeEmail info.email
  | .linkAccount account => ∃ info user, request.Reports account.provider info ∧
      info.providerUserId = account.providerUserId ∧ info.emailVerified = true ∧
        account.provider ∈ trustedForAutoLink ∧ mem.existing = some user ∧
          user.id = account.userId ∧ lower user.email = lower info.email
  | .statement (.commitLink none _) => True
  | .statement (.commitLink (some account) _) => ∃ rawToken token,
      request = .view (.confirmLink rawToken) ∧ mem.request = some token ∧
        token.tokenHash = crypto.sha256 rawToken ∧ token.userId = account.userId ∧
          token.identity.provider = account.provider ∧
            token.identity.providerUserId = account.providerUserId
  | .statement query => query.Saves savable

def discipline : Monitor LinkMemory OAuthCall State where
  track := request.track
  allow mem call action := action = (fun s => (performCall call s).2) ∧ request.Permits crypto mem call

end OAuthRequest

/-! ## Requests keep to it -/

section Keeps

variable {crypto : Crypto τ} {request : OAuthRequest τ} {mem : LinkMemory}

/-- A request that links nothing may do whatever else it does. -/
theorem permits_of_saves {q : Query} (hq : q.Saves savable) :
    request.Permits crypto mem (.statement q) := by
  cases q with
  | commitLink account? user => exact hq.elim
  | _ => exact hq

theorem heeds_of_saves {α : Type} {p : Session α} (hp : p.Saves savable) :
    p.Heeds ((request.discipline crypto).comap .statement) (fun _ _ => True) mem := by
  have hallow : ∀ mem mem' q action, (restraint savable).allow mem q action →
      ((request.discipline crypto).comap .statement).allow mem' q action := by
    intro _ mem' q action h
    exact ⟨h.1, permits_of_saves h.2⟩
  have hobeys := Program.Obeys.transfer hallow hp mem
  exact Fallible.Obeys.mono hobeys fun _ _ _ _ _ => trivial

/-- The read of a link request is remembered, and it is the one that is consumed. -/
theorem heeds_consumeLink (rawToken : String) (now : Datetime) :
    (consumeOneTimeToken crypto .socialLink rawToken now).Heeds
      ((request.discipline crypto).comap .statement) (fun m (token, user) => ∃ stored,
        m.request = some stored ∧ stored.tokenHash = crypto.sha256 rawToken ∧
          user.id = stored.userId ∧ token = { stored with usedAt := some now }) mem := by
  unfold consumeOneTimeToken
  refine Fallible.heeds_bind.mpr (Fallible.heeds_observe ⟨rfl, trivial⟩ fun s => ?_)
  cases hfound : s.db.oneTimeTokenWithUser? .socialLink (crypto.sha256 rawToken) with
  | none => exact Fallible.heeds_throw _
  | some found =>
      obtain ⟨token, user⟩ := found
      obtain ⟨hlooked, huser⟩ : s.db.oneTimeToken? .socialLink (crypto.sha256 rawToken) = some token ∧
          s.db.user? token.userId = some user := by
        unfold Db.oneTimeTokenWithUser? at hfound
        simp only [Option.bind_eq_bind, Option.bind_eq_some_iff, Option.pure_def,
          Option.some.injEq, Prod.mk.injEq] at hfound
        obtain ⟨_, hlooked, _, huser, rfl, rfl⟩ := hfound
        exact ⟨hlooked, huser⟩
      dsimp only
      split
      · exact Fallible.heeds_throw _
      split
      · exact Fallible.heeds_throw _
      refine Fallible.heeds_bind.mpr (Fallible.heeds_atomic ⟨rfl, trivial⟩ fun t count _ => ?_)
      split
      · exact Fallible.heeds_throw _
      split
      · exact Fallible.heeds_throw _
      · refine Fallible.heeds_pure.mpr ⟨token, hlooked, ?_, (Db.user?_eq_some.mp huser).2, rfl⟩
        exact (Db.oneTimeToken?_eq_some.mp hlooked).2

theorem heeds_confirmLink (draws : Draws) (rawToken : String) :
    (Session.confirmLink crypto draws rawToken).Heeds
      ((OAuthRequest.discipline crypto (.view (.confirmLink rawToken))).comap .statement)
      (fun _ _ => True) mem := by
  unfold Session.confirmLink
  refine Fallible.heeds_bind.mpr ((heeds_consumeLink rawToken _).mono ?_)
  rintro m ⟨token, user⟩ ⟨stored, hmem, hhash, huser, rfl⟩
  dsimp only at huser ⊢
  refine Fallible.heeds_bind.mpr (Fallible.heeds_observe ⟨rfl, trivial⟩ fun s => ?_)
  split
  · exact Fallible.heeds_pure.mpr trivial
  have hopen : ∀ mem user now instant, (openSession crypto draws user now instant).Heeds
      ((OAuthRequest.discipline crypto (.view (.confirmLink rawToken))).comap .statement)
      (fun _ _ => True) mem := fun _ _ _ _ => heeds_of_saves (saves_openSession crypto draws _ _ _)
  -- the account that is linked is the one the request was bound to
  have hpermits : ∀ account?, (∀ account ∈ account?, account.userId = user.id ∧
      account.provider = stored.identity.provider ∧
        account.providerUserId = stored.identity.providerUserId) →
      OAuthRequest.Permits crypto (.view (.confirmLink rawToken))
        (OAuthRequest.track (.view (.confirmLink rawToken) : OAuthRequest τ) m
          (.statement .select) s) (.statement (.commitLink account? user)) := by
    intro account? haccount
    cases account? with
    | none => trivial
    | some account =>
        obtain ⟨howner, hprovider, hid⟩ := haccount account rfl
        exact ⟨rawToken, stored, rfl, hmem, hhash, (howner.trans huser).symm, hprovider.symm,
          hid.symm⟩
  have haccount : ∀ account ∈ (if (s.db.socialAccount? stored.identity.provider
      stored.identity.providerUserId).isSome then none else some
        ({ id := draws.rowId
           userId := user.id
           provider := stored.identity.provider
           providerUserId := stored.identity.providerUserId } : SocialAccount)),
      account.userId = user.id ∧ account.provider = stored.identity.provider ∧
        account.providerUserId = stored.identity.providerUserId := by
    intro account haccount
    split at haccount
    · cases haccount
    · cases haccount
      exact ⟨rfl, rfl, rfl⟩
  split
  · refine Fallible.heeds_bind.mpr (Fallible.heeds_atomic ⟨rfl, trivial⟩ fun _ _ _ => ?_)
    refine Fallible.heeds_bind.mpr (Fallible.heeds_atomic ⟨rfl, hpermits _ haccount⟩ fun _ _ _ => ?_)
    exact hopen _ _ _ _
  · refine Fallible.heeds_bind.mpr (Fallible.heeds_atomic ⟨rfl, hpermits _ haccount⟩ fun _ _ _ => ?_)
    exact hopen _ _ _ _

/-! ### Callbacks -/

section Callbacks

variable (draws : OAuthDraws) {sent : OAuthCallback} {info : OAuthUserInfo}
  (hinfo : sent.userInfo = .ok info)

include hinfo

theorem heeds_linkOrRequest {existing : Account} (hexisting : mem.existing = some existing)
    (hemail : lower existing.email = lower info.email) :
    (OAuthSession.linkOrRequest draws sent.provider info existing).Heeds
      (OAuthRequest.discipline crypto (.callback sent)) (fun _ _ => True) mem := by
  unfold OAuthSession.linkOrRequest
  split
  next hlinks =>
      have hpermits : OAuthRequest.Permits crypto (.callback sent) mem (.linkAccount
          { id := draws.accountId
            userId := existing.id
            provider := sent.provider
            providerUserId := info.providerUserId }) :=
        ⟨info, existing, ⟨sent, rfl, rfl, hinfo⟩, rfl, hlinks.1, hlinks.2, hexisting, rfl, hemail⟩
      refine Fallible.heeds_bind.mpr (Fallible.heeds_atomic ⟨rfl, hpermits⟩ fun _ _ _ => ?_)
      exact Fallible.heeds_pure.mpr trivial
  next =>
      split
      · exact Fallible.heeds_pure.mpr trivial
      · exact Fallible.heeds_pure.mpr trivial

theorem heeds_createLinkedUser (hverified : info.emailVerified = true) :
    (OAuthSession.createLinkedUser draws sent.provider info).Heeds
      (OAuthRequest.discipline crypto (.callback sent)) (fun _ _ => True) mem := by
  unfold OAuthSession.createLinkedUser
  cases OAuthSession.userFits info with
  | false =>
      rw [if_neg Bool.false_ne_true]
      exact Fallible.heeds_throw _
  | true =>
      rw [if_pos rfl]
      refine Fallible.heeds_bind.mpr (Fallible.heeds_relabel.mpr ?_)
      refine Fallible.heeds_atomic ⟨rfl, trivial⟩ fun _ _ _ => ?_
      refine Fallible.heeds_bind.mpr (Fallible.heeds_atomic ⟨rfl, rfl, info, ?_⟩ fun _ _ _ => ?_)
      · exact ⟨⟨sent, rfl, rfl, hinfo⟩, rfl, hverified, rfl⟩
      · exact Fallible.heeds_pure.mpr trivial

/-- The user of the reported address is read, and then linked to. -/
theorem heeds_existing {otherwise : OAuthSession OAuthResolution}
    (hnone : ∀ mem, otherwise.Heeds (OAuthRequest.discipline crypto (.callback sent))
      (fun _ _ => True) mem) :
    (do
      match ← OAuthSession.ofSession (Session.read .select fun s => s.db.userByEmail info.email) with
      | some existing => OAuthSession.linkOrRequest draws sent.provider info existing
      | none => otherwise : OAuthSession OAuthResolution).Heeds
        (OAuthRequest.discipline crypto (.callback sent)) (fun _ _ => True) mem := by
  refine Fallible.heeds_bind.mpr (Fallible.heeds_relabel.mpr ?_)
  refine Fallible.heeds_observe ⟨rfl, trivial⟩ fun s => ?_
  cases hexisting : s.db.userByEmail info.email with
  | none => exact hnone _
  | some existing =>
      refine heeds_linkOrRequest draws hinfo ?_ (by simpa using (Table.mem_of_find? hexisting).2)
      show (OAuthRequest.email? (.callback sent : OAuthRequest τ)).bind s.db.userByEmail = _
      simp [OAuthRequest.email?, hinfo, Except.toOption, hexisting]

theorem heeds_resolveOauthUser :
    (OAuthSession.resolveOauthUser draws sent.provider info).Heeds
      (OAuthRequest.discipline crypto (.callback sent)) (fun _ _ => True) mem := by
  unfold OAuthSession.resolveOauthUser
  refine Fallible.heeds_bind.mpr (Fallible.heeds_relabel.mpr ?_)
  refine Fallible.heeds_observe ⟨rfl, trivial⟩ fun s => ?_
  split
  · exact Fallible.heeds_pure.mpr trivial
  refine heeds_existing draws hinfo fun mem => ?_
  split
  · exact Fallible.heeds_pure.mpr trivial
  next hverified =>
      split
      · exact Fallible.heeds_pure.mpr trivial
      refine Fallible.heeds_tryCatch
        (heeds_createLinkedUser draws hinfo (by simpa using hverified)) fun m e => ?_
      cases e with
      | integrity message =>
          exact heeds_existing draws hinfo fun mem => Fallible.heeds_throw _
      | _ => exact Fallible.heeds_throw _

end Callbacks

theorem heeds_callback (draws : OAuthDraws) (sent : OAuthCallback) :
    (OAuthSession.callback crypto draws sent).Heeds
      (OAuthRequest.discipline crypto (.callback sent)) (fun _ _ => True) mem := by
  unfold OAuthSession.callback
  cases hinfo : sent.userInfo with
  | error code => exact Fallible.heeds_pure.mpr trivial
  | ok info =>
      dsimp only
      refine Fallible.heeds_bind.mpr ((heeds_resolveOauthUser draws hinfo).mono
        fun m resolution _ => ?_)
      cases resolution with
      | emailNotVerified => exact Fallible.heeds_pure.mpr trivial
      | emailRequired => exact Fallible.heeds_pure.mpr trivial
      | collision existing? =>
          cases existing? with
          | none => exact Fallible.heeds_pure.mpr trivial
          | some existing =>
              have hsaves : (OAuthSession.requestConfirmation crypto draws sent.provider info
                  existing).Saves savable :=
                saves_query_bind trivial fun _ =>
                  (saves_createOneTimeToken crypto draws.toDraws _ _ _ _).bind fun _ => saves_pure _
              refine Fallible.heeds_bind.mpr (Fallible.heeds_relabel.mpr ?_)
              exact (heeds_of_saves hsaves).mono fun _ _ _ => Fallible.heeds_pure.mpr trivial
      | user user =>
          dsimp only
          split
          · exact Fallible.heeds_pure.mpr trivial
          refine Fallible.heeds_bind.mpr (Fallible.heeds_relabel.mpr ?_)
          exact (heeds_of_saves (saves_createRefreshToken crypto draws.toDraws _ _ _)).mono
            fun _ _ _ => Fallible.heeds_pure.mpr trivial

/-- **Every request** links as its discipline permits. -/
theorem heeds_request (draws : OAuthDraws) (request : OAuthRequest τ) (mem : LinkMemory) :
    (request.session crypto draws).Heeds (request.discipline crypto) (fun _ _ => True) mem := by
  cases request with
  | callback sent =>
      refine Fallible.heeds_bind.mpr ((heeds_callback draws sent).mono fun _ _ _ => ?_)
      exact Fallible.heeds_pure.mpr trivial
  | view request =>
      refine Fallible.heeds_bind.mpr (Fallible.heeds_relabel.mpr ?_)
      refine Fallible.Heeds.mono ?_ fun _ _ (_ : True) => Fallible.heeds_pure.mpr trivial
      by_cases hconfirms : request.confirmsLink = false
      · refine heeds_of_saves ((saves_request crypto draws.toDraws request hconfirms).mono ?_)
        cases request <;> simp [Request.saves, savable]
      · cases request with
        | confirmLink rawToken => exact heeds_confirmLink draws.toDraws rawToken
        | _ => exact absurd rfl hconfirms

end Keeps

/-! ## What a call leaves of what was read -/

/-- The account that a call links. -/
def OAuthCall.links? : OAuthCall → Option SocialAccount
  | .createUser _ account | .linkAccount account
  | .statement (.commitLink (some account) _) => some account
  | _ => none

/-- Users keep their address, link requests what they were made with, and linked accounts
everything. -/
structure Remembers (s s' : State) : Prop where
  users : ∀ user ∈ s.db.users.rows,
    ∃ user' ∈ s'.db.users.rows, user'.id = user.id ∧ user'.email = user.email
  requests : ∀ token ∈ (s.db.oneTime .socialLink).rows,
    ∃ token' ∈ (s'.db.oneTime .socialLink).rows, token'.unused = token.unused
  accounts : ∀ account ∈ s.db.socialAccounts.rows, account ∈ s'.db.socialAccounts.rows

theorem Remembers.refl (s : State) : Remembers s s :=
  ⟨fun user h => ⟨user, h, rfl, rfl⟩, fun token h => ⟨token, h, rfl⟩, fun _ h => h⟩

theorem Remembers.trans {r s t : State} (h : Remembers r s) (h' : Remembers s t) :
    Remembers r t := by
  refine ⟨fun user huser => ?_, fun token htoken => ?_, fun account haccount =>
    h'.accounts account (h.accounts account haccount)⟩
  · obtain ⟨user', huser', hid, hemail⟩ := h.users user huser
    obtain ⟨user'', huser'', hid', hemail'⟩ := h'.users user' huser'
    exact ⟨user'', huser'', hid'.trans hid, hemail'.trans hemail⟩
  · obtain ⟨token', htoken', hsame⟩ := h.requests token htoken
    obtain ⟨token'', htoken'', hsame'⟩ := h'.requests token' htoken'
    exact ⟨token'', htoken'', hsame'.trans hsame⟩

section Writes

variable {s : State} {db : Db}

theorem rows_insertUser {user : Account} (h : s.db.insertUser user = .ok db) :
    db.users.rows = s.db.users.rows ++ [user] ∧ db.oneTime = s.db.oneTime ∧
      db.socialAccounts = s.db.socialAccounts := by
  obtain ⟨users, htable, hdb⟩ := Db.write_eq_ok h
  rw [hdb]
  exact ⟨Table.rows_insert? htable, rfl, rfl⟩

theorem rows_getOrCreate {account : SocialAccount}
    (h : s.db.getOrCreateSocialAccount account = .ok db) :
    db.users = s.db.users ∧ db.oneTime = s.db.oneTime ∧
      (db.socialAccounts.rows = s.db.socialAccounts.rows ∨
        db.socialAccounts.rows = s.db.socialAccounts.rows ++ [account]) := by
  obtain rfl | ⟨table, htable, hdb⟩ := Db.getOrCreate_eq_ok h
  · exact ⟨rfl, rfl, Or.inl rfl⟩
  · rw [hdb]
    exact ⟨rfl, rfl, Or.inr (Table.rows_insert? htable)⟩

theorem remembers_getOrCreate {account : SocialAccount}
    (h : s.db.getOrCreateSocialAccount account = .ok db) : Remembers s { s with db } := by
  obtain ⟨husers, honeTime, haccounts⟩ := rows_getOrCreate h
  refine ⟨fun user huser => ⟨user, ?_, rfl, rfl⟩, fun token htoken => ⟨token, ?_, rfl⟩,
    fun account' haccount' => ?_⟩
  · show user ∈ db.users.rows
    rwa [husers]
  · show token ∈ (db.oneTime .socialLink).rows
    rwa [honeTime]
  · show account' ∈ db.socialAccounts.rows
    rcases haccounts with hrows | hrows
    · rwa [hrows]
    · rw [hrows]
      exact List.mem_append_left _ haccount'

theorem remembers_insertUser {user : Account} (h : s.db.insertUser user = .ok db) :
    Remembers s { s with db } := by
  obtain ⟨hrows, honeTime, haccounts⟩ := rows_insertUser h
  refine ⟨fun user' huser' => ⟨user', ?_, rfl, rfl⟩, fun token htoken => ⟨token, ?_, rfl⟩,
    fun account haccount => ?_⟩
  · show user' ∈ db.users.rows
    rw [hrows]
    exact List.mem_append_left _ huser'
  · show token ∈ (db.oneTime .socialLink).rows
    rwa [honeTime]
  · show account ∈ db.socialAccounts.rows
    rwa [haccounts]

theorem remembers_saveUser {user : Account} {fields : List UserField}
    (hemail : UserField.email ∉ fields) (h : s.db.saveUser user (some fields) = .ok db) :
    Remembers s { s with db } := by
  obtain ⟨users, hdb⟩ := Db.saveUser_writes h
  refine ⟨fun stored hstored => ?_, fun token htoken => ⟨token, ?_, rfl⟩,
    fun account haccount => ?_⟩
  · refine ⟨if stored.id == user.id then user.assign fields stored else stored, ?_, ?_, ?_⟩
    · show _ ∈ db.users.rows
      rw [(Db.saveUser_eq_ok h).1]
      exact List.mem_map_of_mem hstored
    · split <;> rfl
    · split
      · simp [Account.assign, hemail]
      · rfl
  · show token ∈ (db.oneTime .socialLink).rows
    rwa [hdb]
  · show account ∈ db.socialAccounts.rows
    rwa [hdb]

/-- The confirmation of a link: the account is linked, then the user may be saved. -/
theorem remembers_link {account? : Option SocialAccount} {user : Account}
    (h : s.db.link account? user = .ok db) : Remembers s { s with db } := by
  obtain ⟨linked, hlinked, hsteps⟩ := Db.link_steps h
  have hfirst : Remembers s { s with db := linked } := by
    cases account? with
    | none =>
        rw [← Except.ok.inj hlinked]
        exact .refl s
    | some account => exact remembers_getOrCreate hlinked
  obtain ⟨_, rfl⟩ | ⟨_, hsave⟩ := hsteps
  · exact hfirst
  · have hemail : UserField.email ∉ [UserField.isVerified] := by decide
    have hsecond := remembers_saveUser (s := { s with db := linked }) hemail hsave
    exact hfirst.trans hsecond

/-- What a confirmation links. -/
theorem rows_link {account? : Option SocialAccount} {user : Account}
    (h : s.db.link account? user = .ok db) :
    db.socialAccounts.rows = s.db.socialAccounts.rows ∨ ∃ account, account? = some account ∧
      db.socialAccounts.rows = s.db.socialAccounts.rows ++ [account] := by
  obtain ⟨linked, hlinked, hsteps⟩ := Db.link_steps h
  have hsame : db.socialAccounts = linked.socialAccounts := by
    obtain ⟨_, rfl⟩ | ⟨_, hsave⟩ := hsteps
    · rfl
    · obtain ⟨users, hdb⟩ := Db.saveUser_writes hsave
      rw [hdb]
  rw [hsame]
  cases account? with
  | none =>
      rw [← Except.ok.inj hlinked]
      exact Or.inl rfl
  | some account =>
      rcases (rows_getOrCreate hlinked).2.2 with hrows | hrows
      · exact Or.inl hrows
      · exact Or.inr ⟨account, rfl, hrows⟩

end Writes

theorem socialAccounts_effect {q : Query} (hq : q.Saves savable) (s : State) :
    (effect q s).db.socialAccounts = s.db.socialAccounts := by
  have hsettle : ∀ {result : Except AuthError Db},
      (∀ db, result = .ok db → db.socialAccounts = s.db.socialAccounts) →
        (s.settle result).2.db.socialAccounts = s.db.socialAccounts :=
    fun h => of_settle (P := fun t => t.db.socialAccounts = s.db.socialAccounts) rfl h
  cases q with
  | insertRefreshToken token origin =>
      rcases hinsert : s.db.insertRefreshToken token with e | db
      · rw [effect_insertRefreshToken_error hinsert]
      · obtain ⟨table, _, hdb⟩ := Db.write_eq_ok hinsert
        rw [effect_insertRefreshToken_ok hinsert, hdb]
  | revokeToken id now =>
      show (if _ then _ else _ : Except AuthError ℕ × State).2.db.socialAccounts = _
      split <;> rfl
  | insertOneTimeToken model token =>
      refine hsettle fun db h => ?_
      obtain ⟨table, _, hdb⟩ := Db.write_eq_ok h
      rw [hdb]
  | insertUser user => exact hsettle fun db h => (rows_insertUser h).2.2
  | saveUser user fields? =>
      rcases hsave : s.db.saveUser user fields? with e | db
      · rw [effect_saveUser_error hsave]
      · obtain ⟨users, hdb⟩ := Db.saveUser_writes hsave
        rw [effect_saveUser_ok hsave, hdb]
  | commitLink account? user => exact hq.elim
  | deleteUser id => exact hq.elim
  | deleteRefreshTokens ids => exact hq.elim
  | deleteOneTimeTokens model ids => exact hq.elim
  | _ => rfl

theorem remembers_effect {q : Query} (hq : q.Saves savable) (s : State) :
    Remembers s (effect q s) := by
  have haccounts := socialAccounts_effect hq s
  have hcalm : q.calm = true → q.deletes = false → Remembers s (effect q s) := by
    intro hcalm hdeletes
    refine ⟨fun user huser => ⟨user, ?_, rfl, rfl⟩, fun token htoken => ?_,
      fun account haccount => ?_⟩
    · rwa [(alike_effect hcalm s).1]
    · obtain ⟨token', htoken', hsame, _⟩ :=
        keepsUsed_of_touches (touches_oneTime .socialLink q s) hdeletes token htoken
      exact ⟨token', htoken', hsame⟩
    · rwa [haccounts]
  have halike : ∀ {t : State}, t.db = s.db → Remembers s t := by
    intro t ht
    obtain ⟨husers, hrequests, haccounts⟩ := Remembers.refl s
    exact ⟨by rwa [ht], by rwa [ht], by rwa [ht]⟩
  cases q with
  | insertUser user =>
      show Remembers s (s.settle (s.db.insertUser user)).2
      rcases hinsert : s.db.insertUser user with e | db
      · exact .refl s
      · exact remembers_insertUser hinsert
  | saveUser user fields? =>
      cases fields? with
      | none => exact hq.elim
      | some fields =>
          have hemail : UserField.email ∉ fields := fun h => by
            simpa [savable] using hq .email h
          rcases hsave : s.db.saveUser user (some fields) with e | db
          · rw [effect_saveUser_error hsave]
            exact .refl s
          · rw [effect_saveUser_ok hsave]
            obtain ⟨husers, hrequests, haccounts⟩ := remembers_saveUser hemail hsave
            exact ⟨husers, hrequests, haccounts⟩
  | commitLink account? user => exact hq.elim
  | deleteUser id => exact hq.elim
  | deleteRefreshTokens ids => exact hq.elim
  | deleteOneTimeTokens model ids => exact hq.elim
  | cacheSet key user => exact halike rfl
  | cacheDelete key => exact halike rfl
  | _ => exact hcalm rfl rfl

/-- A call links nothing, or the account it names. -/
def Links (account? : Option SocialAccount) (s t : State) : Prop :=
  t.db.socialAccounts.rows = s.db.socialAccounts.rows ∨ ∃ account, account? = some account ∧
    t.db.socialAccounts.rows = s.db.socialAccounts.rows ++ [account]

/-- What a request may do next forgets nothing that has been read, and links an account
only as the call says. -/
theorem performCall_permitted {crypto : Crypto τ} {request : OAuthRequest τ} {mem : LinkMemory}
    {call : OAuthCall} (hpermits : request.Permits crypto mem call) (s : State) :
    Remembers s (performCall call s).2 ∧ Links call.links? s (performCall call s).2 := by
  have hsettle : ∀ {account? : Option SocialAccount} {result : Except AuthError Db},
      (∀ db, result = .ok db → Remembers s { s with db } ∧ Links account? s { s with db }) →
        Remembers s (s.settle result).2 ∧ Links account? s (s.settle result).2 :=
    fun {account?} _ h =>
      of_settle (P := fun t => Remembers s t ∧ Links account? s t) ⟨.refl s, Or.inl rfl⟩ h
  have hgetOrCreate : ∀ {account : SocialAccount} {t : State} {db : Db},
      t.db.getOrCreateSocialAccount account = .ok db →
        t.db.socialAccounts = s.db.socialAccounts → Links (some account) s { s with db } := by
    intro account t db h hsame
    rcases (rows_getOrCreate h).2.2 with hrows | hrows
    · exact Or.inl (hrows.trans (congrArg Table.rows hsame))
    · exact Or.inr ⟨account, rfl, by rw [hrows, hsame]⟩
  cases call with
  | createUser user account =>
      refine hsettle fun db h => ?_
      obtain ⟨created, hinsert, hcreate⟩ := Db.createUserWith_eq_ok h
      have hsecond := remembers_getOrCreate (s := { s with db := created }) hcreate
      refine ⟨(remembers_insertUser hinsert).trans hsecond, ?_⟩
      exact hgetOrCreate (t := { s with db := created }) hcreate (rows_insertUser hinsert).2.2
  | linkAccount account =>
      exact hsettle fun db h => ⟨remembers_getOrCreate h, hgetOrCreate h rfl⟩
  | statement q =>
      by_cases hq : q.Saves savable
      · refine ⟨remembers_effect hq s, Or.inl ?_⟩
        exact congrArg Table.rows (socialAccounts_effect hq s)
      · cases q with
        | commitLink account? user =>
            have hlinks : (OAuthCall.statement (.commitLink account? user)).links? = account? := by
              cases account? <;> rfl
            rw [hlinks]
            exact hsettle fun db h => ⟨remembers_link h, rows_link h⟩
        | _ => exact absurd hpermits hq

/-- Among what requests do, only the creation of a link request brings one about. -/
theorem inserted_of_gained {crypto : Crypto τ} {request : OAuthRequest τ} {mem : LinkMemory}
    {call : OAuthCall} (hpermits : request.Permits crypto mem call) {s : State}
    {token : OneTimeToken .socialLink}
    (hnot : ¬ ∃ row ∈ (s.db.oneTime .socialLink).rows, row.unused = token.unused)
    (hgained : ∃ row ∈ ((performCall call s).2.db.oneTime .socialLink).rows,
      row.unused = token.unused) :
    ∃ row, call = .statement (.insertOneTimeToken .socialLink row) ∧ row.unused = token.unused := by
  have hsame : (performCall call s).2.db.oneTime ≠ s.db.oneTime := by
    intro hsame
    rw [hsame] at hgained
    exact hnot hgained
  cases call with
  | createUser user account =>
      refine absurd (of_settle (P := fun t => t.db.oneTime = s.db.oneTime) rfl fun db h => ?_) hsame
      obtain ⟨created, hinsert, hcreate⟩ := Db.createUserWith_eq_ok h
      exact (rows_getOrCreate (s := { s with db := created }) hcreate).2.1.trans
        (rows_insertUser hinsert).2.1
  | linkAccount account =>
      exact absurd (of_settle (P := fun t => t.db.oneTime = s.db.oneTime) rfl
        fun db h => (rows_getOrCreate h).2.1) hsame
  | statement q =>
      have hdeletes : q.deletes = false := by
        cases q with
        | deleteUser id => exact hpermits.elim
        | deleteRefreshTokens ids => exact hpermits.elim
        | deleteOneTimeTokens model ids => exact hpermits.elim
        | _ => rfl
      obtain ⟨row, hrow, hunused⟩ := hgained
      have huse : ∀ {selected : OneTimeToken .socialLink → Bool} {now : Datetime},
          row ∈ (s.db.oneTime .socialLink).rows.map (.use selected now) → False := by
        intro selected now hmap
        obtain ⟨stored, hstored, rfl⟩ := List.mem_map.mp hmap
        exact hnot ⟨stored, hstored, hunused⟩
      cases touches_oneTime .socialLink q s with
      | nothing hrows => exact absurd ⟨row, hrows ▸ hrow, hunused⟩ hnot
      | use hrows => exact (huse (hrows ▸ hrow)).elim
      | invalidate hrows => exact (huse (hrows ▸ hrow)).elim
      | @insert inserted hrows =>
          rcases List.mem_append.mp (hrows ▸ hrow) with hold | hnew
          · exact absurd ⟨row, hold, hunused⟩ hnot
          · rw [List.mem_singleton.mp hnew] at hunused
            exact ⟨inserted, rfl, hunused⟩
      | delete hq =>
          rw [hq] at hdeletes
          cases hdeletes

/-! ## Runs -/

/-- What requests have read of users and of link requests is still stored. -/
structure Knows (s : State) (mem : ι → LinkMemory) : Prop where
  existing : ∀ i user, (mem i).existing = some user →
    ∃ user' ∈ s.db.users.rows, user'.id = user.id ∧ user'.email = user.email
  request : ∀ i token, (mem i).request = some token →
    ∃ token' ∈ (s.db.oneTime .socialLink).rows, token'.unused = token.unused

theorem Knows.remember {s t : State} {mem : ι → LinkMemory} (h : Knows s mem)
    (hremembers : Remembers s t) : Knows t mem := by
  refine ⟨fun i user huser => ?_, fun i token htoken => ?_⟩
  · obtain ⟨user', huser', hid, hemail⟩ := h.existing i user huser
    obtain ⟨user'', huser'', hid', hemail'⟩ := hremembers.users user' huser'
    exact ⟨user'', huser'', hid'.trans hid, hemail'.trans hemail⟩
  · obtain ⟨token', htoken', hsame⟩ := h.request i token htoken
    obtain ⟨token'', htoken'', hsame'⟩ := hremembers.requests token' htoken'
    exact ⟨token'', htoken'', hsame'.trans hsame⟩

/-- What is read is there. -/
theorem Knows.track [DecidableEq ι] {s : State} {mem : ι → LinkMemory} (h : Knows s mem) (i : ι)
    (request : OAuthRequest τ) (call : OAuthCall) :
    Knows s (Function.update mem i (request.track (mem i) call s)) := by
  have hmine : ∀ m : LinkMemory,
      (∀ user, m.existing = some user →
        ∃ user' ∈ s.db.users.rows, user'.id = user.id ∧ user'.email = user.email) →
      (∀ token, m.request = some token →
        ∃ token' ∈ (s.db.oneTime .socialLink).rows, token'.unused = token.unused) →
      Knows s (Function.update mem i m) := by
    intro m hexisting hrequest
    refine ⟨fun j => ?_, fun j => ?_⟩
    · by_cases hj : j = i
      · subst hj
        rwa [Function.update_self]
      · rw [Function.update_of_ne hj]
        exact h.existing j
    · by_cases hj : j = i
      · subst hj
        rwa [Function.update_self]
      · rw [Function.update_of_ne hj]
        exact h.request j
  unfold OAuthRequest.track
  split
  · refine hmine _ (fun user huser => ?_) (h.request i)
    obtain ⟨email, _, hfound⟩ := Option.bind_eq_some_iff.mp huser
    exact ⟨user, (Table.mem_of_find? hfound).1, rfl, rfl⟩
  · refine hmine _ (h.existing i) fun token htoken => ?_
    exact ⟨token, (Db.oneTimeToken?_eq_some.mp htoken).1, rfl⟩
  · exact hmine _ (h.existing i) (h.request i)

section Runs

variable [DecidableEq ι] (crypto : Crypto τ) (requests : ι → OAuthRequest τ × OAuthDraws) (s : State)

/-- The state after the steps of `schedule`. -/
def stateAfter (schedule : List ι) : State := ((signingIn crypto requests s).run schedule).shared

/-- The link request was stored from the start, or a step before inserted it; it has been
used or withdrawn at most. -/
def MintedBefore (first : List ι) (token : OneTimeToken .socialLink) : Prop :=
  (∃ row ∈ (s.db.oneTime .socialLink).rows, row.unused = token.unused) ∨
    ∃ earlier j later row effect next, first = earlier ++ j :: later ∧
      ((signingIn crypto requests s).run earlier).procs j =
        .act (.statement (.insertOneTimeToken .socialLink row)) effect next ∧
      row.unused = token.unused

/-- Why the step of `i` after `first` may link the account. -/
inductive Vouched (first : List ι) (i : ι) (account : SocialAccount) : Prop
  /-- It creates the user, for an address that the provider reports as verified. -/
  | created {user : Account} {info : OAuthUserInfo}
      (hreports : (requests i).1.Reports account.provider info)
      (hid : info.providerUserId = account.providerUserId)
      (hverified : info.emailVerified = true)
      (hfresh : ∀ other ∈ (stateAfter crypto requests s first).db.users.rows,
        other.id ≠ account.userId)
      (hstored : user ∈ (stateAfter crypto requests s (first ++ [i])).db.users.rows)
      (huser : user.id = account.userId) (hemail : user.email = normalizeEmail info.email)
  /-- The provider is trusted and reports the address of the user as verified. -/
  | autoLinked {user : Account} {info : OAuthUserInfo}
      (hreports : (requests i).1.Reports account.provider info)
      (hid : info.providerUserId = account.providerUserId)
      (hverified : info.emailVerified = true) (htrusted : account.provider ∈ trustedForAutoLink)
      (hstored : user ∈ (stateAfter crypto requests s first).db.users.rows)
      (huser : user.id = account.userId) (hemail : lower user.email = lower info.email)
  /-- It confirms a link request for this user and this account at the provider. -/
  | confirmed {rawToken : String} {token : OneTimeToken .socialLink}
      (hrequest : (requests i).1 = .view (.confirmLink rawToken))
      (htoken : token.tokenHash = crypto.sha256 rawToken)
      (hminted : MintedBefore crypto requests s first token)
      (huser : token.userId = account.userId)
      (hprovider : token.identity.provider = account.provider)
      (hid : token.identity.providerUserId = account.providerUserId)

variable {crypto requests s}

/-- After any steps, what has been read is known, and nothing of the start is forgotten. -/
theorem run_knows {pool : Pool ι OAuthCall State (Except AuthError (OAuthAnswer τ))}
    {post : ι → LinkMemory → Except AuthError (OAuthAnswer τ) → Prop} {mem : ι → LinkMemory}
    (hobeys : pool.Obeys (fun i => (requests i).1.discipline crypto) post mem)
    (hknows : Knows pool.shared mem) (schedule : List ι) :
    ∃ mem', (pool.run schedule).Obeys (fun i => (requests i).1.discipline crypto) post mem' ∧
      Knows (pool.run schedule).shared mem' ∧
        Remembers pool.shared (pool.run schedule).shared := by
  have hstep : ∀ (t : State) (mem : ι → LinkMemory) i (call : OAuthCall) (effect : State → State),
      Knows t mem ∧ Remembers pool.shared t →
      ((requests i).1.discipline crypto).allow (mem i) call effect → True →
      Knows (effect t) (Function.update mem i
        (((requests i).1.discipline crypto).track (mem i) call t)) ∧
          Remembers pool.shared (effect t) := by
    rintro t mem i call effect ⟨hknows, hremembers⟩ ⟨rfl, hpermits⟩ -
    obtain ⟨hkept, _⟩ := performCall_permitted hpermits t
    exact ⟨(hknows.track i _ call).remember hkept, hremembers.trans hkept⟩
  have hfinds : Runs.Steps Pool.step (Pool.Finds fun _ _ _ => True) pool schedule :=
    Pool.finds_of_always (fun _ _ _ => trivial) pool schedule
  exact Pool.run_obeys hstep hobeys ⟨hknows, .refl _⟩ hfinds

variable (crypto requests) in
omit [DecidableEq ι] in
theorem signingIn_obeys : (signingIn crypto requests s).Obeys
    (fun i => (requests i).1.discipline crypto) (fun _ _ _ => True) fun _ => ⟨none, none⟩ :=
  fun i => Fallible.Obeys.mono (heeds_request (requests i).2 (requests i).1 _) fun _ _ _ => trivial

omit [DecidableEq ι] in
theorem knows_start : Knows s fun _ : ι => ⟨none, none⟩ := ⟨fun _ _ => nofun, fun _ _ => nofun⟩

/-- What holds at the end of a run and not at its start was brought about by a call. -/
theorem exists_call_of_gained {P : State → Prop} {schedule : List ι} (hstart : ¬ P s)
    (hend : P (stateAfter crypto requests s schedule)) :
    ∃ first i rest call effect next, schedule = first ++ i :: rest ∧
      ((signingIn crypto requests s).run first).procs i = .act call effect next ∧
      ¬ P (stateAfter crypto requests s first) ∧
      P (effect (stateAfter crypto requests s first)) := by
  have hshared : ¬ P (signingIn crypto requests s).shared := hstart
  exact Pool.exists_act_of_gained hshared hend

/-- A link request that is stored in a run was minted in it, or before. -/
theorem mintedBefore_of_stored {first : List ι} {token : OneTimeToken .socialLink}
    (h : ∃ row ∈ ((stateAfter crypto requests s first).db.oneTime .socialLink).rows,
      row.unused = token.unused) : MintedBefore crypto requests s first token := by
  by_cases hstart : ∃ row ∈ (s.db.oneTime .socialLink).rows, row.unused = token.unused
  · exact Or.inl hstart
  · obtain ⟨earlier, j, later, call, effect, next, hsplit, hproc, hnot, hgained⟩ :=
      exists_call_of_gained (P := fun t => ∃ row ∈ (t.db.oneTime .socialLink).rows, row.unused = token.unused) hstart h
    obtain ⟨mem, hobeys, _, _⟩ :=
      run_knows (signingIn_obeys crypto requests) knows_start earlier
    have hallowed := hobeys j
    rw [hproc] at hallowed
    obtain ⟨⟨rfl, hpermits⟩, _⟩ := hallowed
    obtain ⟨row, rfl, hunused⟩ := inserted_of_gained hpermits hnot hgained
    exact Or.inr ⟨earlier, j, later, row, _, next, hsplit, hproc, hunused⟩

/-- A call that may come next and brings an account about is vouched for. -/
theorem vouched_of_gained {first : List ι} {i : ι} {account : SocialAccount} {call : OAuthCall}
    {next : State → Program OAuthCall State (Except AuthError (OAuthAnswer τ))}
    {mem : ι → LinkMemory} (hknows : Knows (stateAfter crypto requests s first) mem)
    (hproc : ((signingIn crypto requests s).run first).procs i =
      .act call (fun t => (performCall call t).2) next)
    (hpermits : (requests i).1.Permits crypto (mem i) call)
    (hnot : account ∉ (stateAfter crypto requests s first).db.socialAccounts.rows)
    (hgained : account ∈ (performCall call
      (stateAfter crypto requests s first)).2.db.socialAccounts.rows) :
    Vouched crypto requests s first i account := by
  -- the account is the one that the call names
  have hlinks : call.links? = some account := by
    rcases (performCall_permitted hpermits (stateAfter crypto requests s first)).2 with
      hrows | ⟨linked, hlinks, hrows⟩
    · rw [hrows] at hgained
      exact absurd hgained hnot
    · rw [hrows] at hgained
      rcases List.mem_append.mp hgained with hold | hnew
      · exact absurd hold hnot
      · rw [hlinks, List.mem_singleton.mp hnew]
  cases call with
  | createUser user linked =>
      obtain rfl : linked = account := Option.some.inj hlinks
      obtain ⟨huser, info, hreports, hid, hverified, hemail⟩ := hpermits
      have hafter : stateAfter crypto requests s (first ++ [i]) =
          (performCall (.createUser user linked) (stateAfter crypto requests s first)).2 := by
        unfold stateAfter
        rw [Pool.run_append, Pool.run_cons, Pool.run_nil, Pool.step_act hproc]
      rcases hcreate : (stateAfter crypto requests s first).db.createUserWith user linked
        with e | db
      · have hsame : (performCall (.createUser user linked)
            (stateAfter crypto requests s first)).2 = stateAfter crypto requests s first := by
          show (State.settle _ (Db.createUserWith _ user linked)).2 = _
          rw [hcreate]
          rfl
        rw [hsame] at hgained
        exact absurd hgained hnot
      · obtain ⟨created, hinsert, hgetOrCreate⟩ := Db.createUserWith_eq_ok hcreate
        have husers : (stateAfter crypto requests s (first ++ [i])).db.users = db.users := by
          rw [hafter]
          show (State.settle _ (Db.createUserWith _ user linked)).2.db.users = _
          rw [hcreate]
          rfl
        have hstored : user ∈
            (stateAfter crypto requests s (first ++ [i])).db.users.rows := by
          rw [husers, (rows_getOrCreate (s := { stateAfter crypto requests s first with
            db := created }) hgetOrCreate).1, (rows_insertUser hinsert).1]
          exact List.mem_append_right _ (List.mem_singleton_self user)
        refine .created hreports hid hverified (fun other hother hsame => ?_) hstored huser hemail
        have hnone := (Db.user?_insertUser hinsert).1
        exact Table.find?_eq_none.mp hnone other hother (by simp [hsame, huser])
  | linkAccount linked =>
      obtain rfl : linked = account := Option.some.inj hlinks
      obtain ⟨info, user, hreports, hid, hverified, htrusted, hmem, huser, hemail⟩ := hpermits
      obtain ⟨stored, hstored, hsame, hsameEmail⟩ := hknows.existing i user hmem
      exact .autoLinked hreports hid hverified htrusted hstored (hsame.trans huser)
        (by rw [hsameEmail, hemail])
  | statement q =>
      cases q with
      | commitLink account? user =>
          cases account? with
          | none => cases hlinks
          | some linked =>
              obtain rfl : linked = account := Option.some.inj hlinks
              obtain ⟨rawToken, token, hrequest, hmem, hhash, huser, hprovider, hid⟩ := hpermits
              exact .confirmed hrequest hhash
                (mintedBefore_of_stored (hknows.request i token hmem)) huser hprovider hid
      | _ => cases hlinks

variable (crypto requests s)

end Runs

end Saasmint.Auth
