import Saasmint.Users.Accounts
import Saasmint.Users.OneTime
import Saasmint.Users.Resolving

/-!
# Failed redemptions

The three endpoints that redeem a one-time token, each run alone.  They use the token
first, in a statement that commits, and look at the rest afterwards: whether the user is
active, whether a password is given or the account is still free, whether the rows they
insert have their place.  What is refused then has used the token up.

`costless_iff` lists what is looked at too late.  `costless_of_consume` is the argument for
an endpoint: before the token is used nothing has changed, and afterwards it stays used.
-/

namespace Saasmint.Auth

open Atomic Relational

variable {τ : Type}

/-- A request to an endpoint that redeems a token. -/
inductive Redemption
  /-- The serializer refuses the request. -/
  | invalid (model : OneTimeModel) (rawToken : String) (error : AuthError)
  | verifyEmail (rawToken : String) (password? : Option String)
  | resetPassword (rawToken password : String)
  | confirmLink (rawToken : String)

namespace Redemption

/-- The model of the token that is presented. -/
def model : Redemption → OneTimeModel
  | invalid model _ _ => model
  | verifyEmail _ _ => .emailVerification
  | resetPassword _ _ => .passwordReset
  | confirmLink _ => .socialLink

def rawToken : Redemption → String
  | invalid _ rawToken _ | verifyEmail rawToken _ | resetPassword rawToken _
  | confirmLink rawToken => rawToken

def session (crypto : Crypto τ) (draws : Draws) : Redemption → Session (Response τ)
  | invalid _ _ error => throw error
  | verifyEmail rawToken password? => Session.verifyEmail crypto draws rawToken password?
  | resetPassword rawToken password => Session.resetPassword crypto draws rawToken password
  | confirmLink rawToken => Session.confirmLink crypto draws rawToken

end Redemption

/-- The response is an error. -/
def IsError : Except AuthError (Response τ) → Prop
  | .error _ | .ok .passwordRequired | .ok .socialAccountCollision => True
  | .ok _ => False

/-- The user has a row. -/
def Db.Stores (db : Db) (userId : UUID) : Prop := ∃ user ∈ db.users.rows, user.id = userId

/-- A redemption at this instant would use the token up. -/
def Db.Redeemable (db : Db) (model : OneTimeModel) (tokenHash : String) (now : Datetime) : Prop :=
  ∃ token ∈ (db.oneTime model).rows, redeemable model tokenHash now token = true

/-- No user, with the password, no session and no linked account has changed. -/
structure Db.SameRest (db db' : Db) : Prop where
  users : db'.users = db.users
  refreshTokens : db'.refreshTokens = db.refreshTokens
  socialAccounts : db'.socialAccounts = db.socialAccounts

/-- The presented token is as redeemable as before, and nothing else has changed. -/
def Unspent (model : OneTimeModel) (tokenHash : String) (s t : State) : Prop :=
  (∀ now, t.db.Redeemable model tokenHash now ↔ s.db.Redeemable model tokenHash now) ∧
    s.db.SameRest t.db

/-- If a session ends in an error, it has cost nothing. -/
def Session.Costless (p : Session (Response τ)) (model : OneTimeModel) (tokenHash : String)
    (s : State) : Prop :=
  IsError (p.exec s).1 → Unspent model tokenHash s (p.exec s).2

/-- The token is found with its user, and it can be used. -/
def Presented (crypto : Crypto τ) (draws : Draws) (model : OneTimeModel) (rawToken : String)
    (s : State) (token : OneTimeToken model) (user : Account) : Prop :=
  s.db.oneTimeTokenWithUser? model (crypto.sha256 rawToken) = some (token, user) ∧
    token.usedAt = none ∧ draws.clock 0 < token.expiresAt

/-- The state once the token has been used. -/
def State.consumed (s : State) (model : OneTimeModel) (tokenHash : String) (now : Datetime) : State :=
  { s with db := s.db.use model (redeemable model tokenHash now) now }

/-! ## Using the token -/

section Consuming

variable {model : OneTimeModel} {crypto : Crypto τ} {draws : Draws} {rawToken : String} {s : State} {now : Datetime}

theorem oneTimeTokenWithUser?_eq_some {tokenHash : String} {token : OneTimeToken model}
    {user : Account} (h : s.db.oneTimeTokenWithUser? model tokenHash = some (token, user)) :
    (token ∈ (s.db.oneTime model).rows ∧ token.tokenHash = tokenHash) ∧
      user ∈ s.db.users.rows ∧ user.id = token.userId := by
  unfold Db.oneTimeTokenWithUser? at h
  simp only [Option.bind_eq_bind, Option.bind_eq_some_iff, Option.pure_def, Option.some.injEq] at h
  obtain ⟨found, hfound, owner, howner, hpair⟩ := h
  cases hpair
  exact ⟨Db.oneTimeToken?_eq_some.mp hfound, Db.user?_eq_some.mp howner⟩

theorem redeemable_of_presented {token : OneTimeToken model} {user : Account}
    (h : Presented crypto draws model rawToken s token user) :
    token ∈ (s.db.oneTime model).rows ∧
      redeemable model (crypto.sha256 rawToken) (draws.clock 0) token = true := by
  obtain ⟨hfound, hunused, hexpiry⟩ := h
  obtain ⟨⟨hmem, hhash⟩, -⟩ := oneTimeTokenWithUser?_eq_some hfound
  refine ⟨hmem, ?_⟩
  unfold redeemable
  rw [hhash, hunused, beq_self_eq_true, decide_eq_true hexpiry]
  rfl

/-- The user of a token has a row. -/
theorem stores_of_presented {token : OneTimeToken model} {user : Account}
    (h : Presented crypto draws model rawToken s token user) : s.db.Stores user.id :=
  ⟨user, (oneTimeTokenWithUser?_eq_some h.1).2.1, rfl⟩

/-- Without a token that can be used, nothing is written. -/
theorem exec_consume_refused
    (h : ∀ token user, ¬ Presented crypto draws model rawToken s token user) :
    ∃ e, (Session.consumeOneTimeToken crypto model rawToken (draws.clock 0)).exec s =
      (.error e, s) := by
  unfold Session.consumeOneTimeToken
  dsimp only
  rw [Fallible.exec_bind, Session.read, Fallible.exec_observe, Fallible.resume_ok]
  cases hfound : s.db.oneTimeTokenWithUser? model (crypto.sha256 rawToken) with
  | none => exact ⟨_, rfl⟩
  | some found =>
      obtain ⟨token, user⟩ := found
      dsimp only
      by_cases hused : token.usedAt = none
      · by_cases hexpiry : draws.clock 0 < token.expiresAt
        · exact absurd ⟨hfound, hused, hexpiry⟩ (h token user)
        · rw [if_neg (not_not.mpr hused), if_pos (not_lt.mp hexpiry)]
          exact ⟨_, rfl⟩
      · rw [if_pos hused]
        exact ⟨_, rfl⟩

/-- A token that can be used is used, whether or not its user is active. -/
theorem exec_consume {token : OneTimeToken model} {user : Account}
    (h : Presented crypto draws model rawToken s token user) :
    (Session.consumeOneTimeToken crypto model rawToken (draws.clock 0)).exec s =
      (if user.isActive = false then
          .error (.authenticationFailed "User not found." "user_not_found")
        else .ok ({ token with usedAt := some (draws.clock 0) }, user),
        s.consumed model (crypto.sha256 rawToken) (draws.clock 0)) := by
  obtain ⟨hmem, hredeemable⟩ := redeemable_of_presented h
  obtain ⟨hfound, hunused, hexpiry⟩ := h
  have hcount : (s.db.oneTime model).rows.countP
      (redeemable model (crypto.sha256 rawToken) (draws.clock 0)) ≠ 0 :=
    (List.countP_pos_iff.mpr ⟨token, hmem, hredeemable⟩).ne'
  unfold Session.consumeOneTimeToken
  dsimp only
  rw [Fallible.exec_bind, Session.read, Fallible.exec_observe, Fallible.resume_ok, hfound]
  dsimp only
  rw [if_neg (not_not.mpr hunused), if_neg (not_le.mpr hexpiry), Fallible.exec_bind, Session.query,
    Fallible.exec_atomic]
  dsimp only [perform, State.marking]
  rw [Fallible.resume_ok, if_neg hcount]
  split <;> rfl

/-- Once it is used, it is never redeemable again. -/
theorem not_redeemable_consumed {token : OneTimeToken model} {user : Account}
    (h : Presented crypto draws model rawToken s token user) {t : State}
    (ht : t.db.oneTime = (s.consumed model (crypto.sha256 rawToken) (draws.clock 0)).db.oneTime) :
    ¬ t.db.Redeemable model (crypto.sha256 rawToken) now := by
  obtain ⟨hmem, hredeemable⟩ := redeemable_of_presented h
  rintro ⟨row, hrow, hagain⟩
  rw [ht] at hrow
  change row ∈ ((s.db.use model _ _).oneTime model).rows at hrow
  rw [Db.rows_oneTime_use] at hrow
  obtain ⟨old, hold, rfl⟩ := List.mem_map.mp hrow
  obtain ⟨hhash, hunused, -⟩ := usedAt_of_redeemable hagain
  have hsame : old = token := by
    refine Db.oneTimeToken_eq_of_hash hold hmem ?_
    rw [OneTimeToken.use_tokenHash] at hhash
    rw [hhash, (usedAt_of_redeemable hredeemable).1]
  rw [hsame, OneTimeToken.use_of_selected hredeemable] at hunused
  cases hunused

/-- What a session comes to in a state: it leaves the one-time tokens alone, and it is not an
error exactly under a condition. -/
def Session.Comes (p : Session (Response τ)) (accepts : Prop) (s : State) : Prop :=
  ∃ result t, p.exec s = (result, t) ∧ t.db.oneTime = s.db.oneTime ∧ (¬ IsError result ↔ accepts)

/-- What an endpoint does after the token is used decides. -/
theorem costless_of_consume {rest : OneTimeToken model × Account → Session (Response τ)}
    {Accepts : OneTimeToken model → Account → Prop}
    (hrest : ∀ token user (c : State), c.db.Stores user.id → s.db.SameRest c.db →
      (rest ({ token with usedAt := some (draws.clock 0) }, user)).Comes (Accepts token user) c) :
    Session.Costless (Session.consumeOneTimeToken crypto model rawToken (draws.clock 0) >>= rest)
        model (crypto.sha256 rawToken) s ↔
      ∀ token user, Presented crypto draws model rawToken s token user →
        user.isActive = true ∧ Accepts token user := by
  have hconsumed : ∀ token user, Presented crypto draws model rawToken s token user →
      (rest ({ token with usedAt := some (draws.clock 0) }, user)).Comes (Accepts token user)
        (s.consumed model (crypto.sha256 rawToken) (draws.clock 0)) := by
    intro token user hpresented
    have huser : s.db.Stores user.id := stores_of_presented hpresented
    exact hrest token user _ huser ⟨rfl, rfl, rfl⟩
  unfold Session.Costless
  constructor
  · intro hcostless token user hpresented
    have hredeemable : s.db.Redeemable model (crypto.sha256 rawToken) (draws.clock 0) :=
      ⟨token, redeemable_of_presented hpresented⟩
    obtain ⟨result, t, hexec, hkept, haccepts⟩ := hconsumed token user hpresented
    rw [Fallible.exec_bind, exec_consume hpresented] at hcostless
    cases hactive : user.isActive with
    | false =>
        rw [if_pos hactive, Fallible.resume_error] at hcostless
        obtain ⟨hsame, -⟩ := hcostless trivial
        exact absurd ((hsame _).mpr hredeemable) (not_redeemable_consumed hpresented rfl)
    | true =>
        rw [if_neg (by rw [hactive]; exact Bool.noConfusion), Fallible.resume_ok, hexec]
          at hcostless
        refine ⟨rfl, haccepts.mp fun herror => ?_⟩
        obtain ⟨hsame, -⟩ := hcostless herror
        exact absurd ((hsame _).mpr hredeemable) (not_redeemable_consumed hpresented hkept)
  · intro hall
    by_cases hpresented : ∃ token user, Presented crypto draws model rawToken s token user
    · obtain ⟨token, user, hpresented⟩ := hpresented
      obtain ⟨hactive, haccepted⟩ := hall token user hpresented
      obtain ⟨result, t, hexec, hkept, haccepts⟩ := hconsumed token user hpresented
      rw [Fallible.exec_bind, exec_consume hpresented,
        if_neg (by rw [hactive]; exact Bool.noConfusion), Fallible.resume_ok, hexec]
      exact fun herror => absurd herror (haccepts.mpr haccepted)
    · obtain ⟨e, hexec⟩ := exec_consume_refused fun token user h => hpresented ⟨token, user, h⟩
      intro _
      rw [Fallible.exec_bind, hexec, Fallible.resume_error]
      exact ⟨fun _ => Iff.rfl, rfl, rfl, rfl⟩

end Consuming

/-! ## What is written afterwards -/

/-- The key and the hash of the refresh token that is drawn are new. -/
def FreshSession (crypto : Crypto τ) (draws : Draws) (db : Db) : Prop :=
  ∀ other ∈ db.refreshTokens.rows, other.id ≠ draws.id ∧ other.tokenHash ≠ crypto.sha256 draws.raw

namespace Db

variable {db : Db}

theorem insertRefreshToken_isOk {token : RefreshToken} (huser : db.Stores token.userId) :
    (∃ db', db.insertRefreshToken token = .ok db') ↔
      ∀ other ∈ db.refreshTokens.rows, ¬ Row.clash other token := by
  refine unique_bind_isOk trivial fun tokens htokens => ?_
  refine ⟨fun other hother => ?_, db.integral.oneTime, db.integral.socialAccounts⟩
  rw [htokens] at hother
  rcases List.mem_append.mp hother with hstored | hnew
  · exact db.integral.refreshTokens other hstored
  · rw [List.mem_singleton.mp hnew]
    exact huser

/-- A save that leaves the address alone is not refused. -/
theorem saveUser_isOk {user : Account} {fields : List UserField} (huser : db.Stores user.id)
    (hemail : .email ∉ fields) : ∃ db', db.saveUser user (some fields) = .ok db' := by
  have hassign : ∀ stored : Account, (user.assign fields stored).email = stored.email :=
    fun _ => if_neg hemail
  obtain ⟨users, husers⟩ : ∃ users, db.users.update? (fun stored => stored.id == user.id)
      (user.assign fields) = some users := by
    refine Table.update?_isSome _ (fun _ _ => trivial) fun a b hclash => ?_
    have hid : ∀ stored : Account, (if (stored.id == user.id) = true then user.assign fields stored
        else stored).id = stored.id := by
      intro stored
      split <;> rfl
    have hsame : ∀ stored : Account, (if (stored.id == user.id) = true
        then user.assign fields stored else stored).email = stored.email := by
      intro stored
      split
      · exact hassign stored
      · rfl
    change _ = _ ∨ lower _ = lower _ at hclash
    rwa [hid, hid, hsame, hsame] at hclash
  have hkept : ∀ id, db.Stores id → ∃ stored ∈ users.rows, stored.id = id := by
    rintro id ⟨stored, hstored, hid⟩
    rw [Table.rows_update? husers]
    refine ⟨_, List.mem_map_of_mem hstored, ?_⟩
    split
    · exact hid
    · exact hid
  have hintegral : { db.toTables with users }.Integral :=
    ⟨fun token htoken => hkept _ (db.integral.refreshTokens token htoken),
      fun model token htoken => hkept _ (db.integral.oneTime model token htoken),
      fun account haccount => hkept _ (db.integral.socialAccounts account haccount)⟩
  have hany : (db.users.rows.any fun stored => stored.id == user.id) = true := by
    obtain ⟨stored, hstored, hid⟩ := huser
    exact List.any_eq_true.mpr ⟨stored, hstored, beq_iff_eq.mpr hid⟩
  obtain ⟨db', hdb⟩ := commit_isOk hintegral
  refine ⟨db', ?_⟩
  unfold saveUser
  dsimp only
  rw [if_pos hany, husers]
  exact hdb

theorem stores_saveUser {db' : Db} {user : Account} {fields : List UserField}
    (h : db.saveUser user (some fields) = .ok db') {userId : UUID} (huser : db.Stores userId) :
    db'.Stores userId := by
  obtain ⟨stored, hstored, hid⟩ := huser
  unfold Stores
  rw [(saveUser_eq_ok h).1]
  refine ⟨_, List.mem_map_of_mem hstored, ?_⟩
  split
  · exact hid
  · exact hid

/-- A link is refused only with its account. -/
theorem link_isOk {account? : Option SocialAccount} {user : Account} (huser : db.Stores user.id) :
    (∃ db', db.link account? user = .ok db') ↔
      ∀ account, account? = some account → ∃ db', db.getOrCreateSocialAccount account = .ok db' := by
  constructor
  · rintro ⟨db', h⟩ account rfl
    obtain ⟨linked, hlinked, -⟩ := link_steps h
    exact ⟨linked, hlinked⟩
  · intro haccount
    obtain ⟨linked, hlinked, hstored⟩ : ∃ linked,
        account?.elim (Except.ok db) db.getOrCreateSocialAccount = .ok linked ∧
          linked.Stores user.id := by
      cases account? with
      | none => exact ⟨db, rfl, huser⟩
      | some account =>
          obtain ⟨linked, hlinked⟩ := haccount account rfl
          refine ⟨linked, hlinked, ?_⟩
          obtain rfl | ⟨_, _, hdb⟩ := getOrCreate_eq_ok hlinked
          · exact huser
          · unfold Stores
            rw [hdb]
            exact huser
    unfold link
    rw [hlinked]
    change ∃ db', (if user.isVerified then Except.ok linked else _) = Except.ok db'
    cases user.isVerified with
    | true => exact ⟨linked, rfl⟩
    | false => exact saveUser_isOk hstored (by decide)

theorem stores_link {db' : Db} {account? : Option SocialAccount} {user : Account}
    (h : db.link account? user = .ok db') {userId : UUID} (huser : db.Stores userId) :
    db'.Stores userId := by
  rcases link_eq_ok h with ⟨-, husers⟩ | ⟨-, linked, husers, hsave⟩
  · unfold Stores
    rwa [husers]
  · refine stores_saveUser hsave ?_
    unfold Stores
    rwa [husers]

end Db

section Writing

variable {crypto : Crypto τ} {draws : Draws} {rawToken : String} {s : State} {user : Account}

/-- A session is opened if its refresh token has its place. -/
theorem comes_openSession (huser : s.db.Stores user.id) (now mintedAt : Datetime) :
    (Session.openSession crypto draws user now mintedAt).Comes (FreshSession crypto draws s.db)
      s := by
  -- the row as it is inserted
  obtain ⟨token, htoken, hid, howner, hhash⟩ : ∃ token : RefreshToken,
      Session.createRefreshToken crypto draws user now =
        (do let _ ← Session.query (.insertRefreshToken token .login); return draws.raw) ∧
      token.id = draws.id ∧ token.userId = user.id ∧ token.tokenHash = crypto.sha256 draws.raw :=
    ⟨_, rfl, rfl, rfl, rfl⟩
  have hfree : (∃ db', s.db.insertRefreshToken token = .ok db') ↔
      FreshSession crypto draws s.db := by
    rw [Db.insertRefreshToken_isOk (howner ▸ huser)]
    unfold FreshSession
    rw [← hid, ← hhash]
    exact forall₂_congr fun other _ => not_or
  have hperform : perform (.insertRefreshToken token .login) s =
      s.recording token.id .login (s.db.insertRefreshToken token) := rfl
  unfold Session.openSession
  rw [htoken]
  cases hinsert : s.db.insertRefreshToken token with
  | ok db' =>
      rw [hinsert] at hperform
      refine ⟨.ok (Session.tokenResponse crypto user draws.raw mintedAt),
        { s with db := db', lineage := s.lineage.record token.id .login }, ?_,
        (Db.insertRefreshToken_eq_ok hinsert).2.2, ?_⟩
      · rw [Fallible.exec_bind, Fallible.exec_bind, Session.query, Fallible.exec_atomic, hperform]
        rfl
      · exact ⟨fun _ => hfree.mp ⟨db', hinsert⟩, fun _ herror => herror⟩
  | error e =>
      rw [hinsert] at hperform
      refine ⟨.error e, s, ?_, rfl, ?_⟩
      · rw [Fallible.exec_bind, Fallible.exec_bind, Session.query, Fallible.exec_atomic, hperform]
        rfl
      · refine ⟨fun h => absurd trivial h, fun h => ?_⟩
        obtain ⟨db', hdb⟩ := hfree.mpr h
        rw [hinsert] at hdb
        cases hdb

theorem Session.Comes.congr {p : Session (Response τ)} {accepts accepts' : Prop}
    (h : accepts ↔ accepts') (hcomes : p.Comes accepts s) : p.Comes accepts' s := by
  rwa [← h]

/-- What is left of a session after a step that succeeds. -/
theorem Session.Comes.of_step {α : Type} {step : Session α} {rest : α → Session (Response τ)}
    {a : α} {t : State} {accepts : Prop} (hexec : step.exec s = (.ok a, t))
    (hkept : t.db.oneTime = s.db.oneTime) (hrest : (rest a).Comes accepts t) :
    (step >>= rest).Comes accepts s := by
  obtain ⟨result, u, hresult, hkept', haccepts⟩ := hrest
  refine ⟨result, u, ?_, hkept'.trans hkept, haccepts⟩
  rw [Fallible.exec_bind, hexec, Fallible.resume_ok]
  exact hresult

theorem exec_saveUser {fields : List UserField} (huser : s.db.Stores user.id)
    (hemail : .email ∉ fields) : ∃ t, (Session.saveUser user fields).exec s = (.ok (), t) ∧
      t.db.Stores user.id ∧ t.db.oneTime = s.db.oneTime ∧
        t.db.refreshTokens = s.db.refreshTokens := by
  obtain ⟨db, hdb⟩ := Db.saveUser_isOk huser hemail
  have hperform : perform (.saveUser user (some fields)) s =
      s.saving user.id (some fields) (s.db.saveUser user (some fields)) := rfl
  rw [hdb] at hperform
  refine ⟨State.drop { s with db, changes := s.changesAfter user.id (some fields) } user.id, ?_,
    Db.stores_saveUser hdb huser, (Db.sameTokens_saveUser hdb).2, (Db.sameTokens_saveUser hdb).1⟩
  have hsave : (Session.query (.saveUser user (some fields))).exec s =
      (.ok 1, { s with db, changes := s.changesAfter user.id (some fields) }) := by
    rw [Session.query, Fallible.exec_atomic, hperform]
    rfl
  unfold Session.saveUser
  rw [Fallible.exec_bind, hsave, Fallible.resume_ok]
  rfl

theorem freshSession_congr {db db' : Db} (h : db'.refreshTokens = db.refreshTokens) :
    FreshSession crypto draws db' ↔ FreshSession crypto draws db := by
  unfold FreshSession
  rw [h]

/-- A revocation keeps the keys and the hashes. -/
theorem freshSession_revoke {db : Db} {selected : RefreshToken → Bool} {now : Datetime} :
    FreshSession crypto draws (db.revoke selected now) ↔ FreshSession crypto draws db := by
  unfold FreshSession
  rw [Db.rows_refreshTokens_revoke, List.forall_mem_map]
  rfl

/-! ## The endpoints -/

/-- What `VerifyEmailView.post` saves is the user, without the address. -/
theorem verified_eq_some {salt : String} {password? : Option String} {saved : Account}
    {fields : List UserField} (h : Session.verified crypto salt user password? = some (saved, fields)) :
    saved.id = user.id ∧ .email ∉ fields := by
  have hflag : UserField.email ∉ if user.isVerified then [] else [UserField.isVerified] := by
    split <;> decide
  unfold Session.verified at h
  dsimp only at h
  split at h
  · cases h
    exact ⟨rfl, hflag⟩
  · split at h
    · cases h
    · cases h
      refine ⟨rfl, fun hmem => ?_⟩
      rcases List.mem_cons.mp hmem with hpassword | hmem
      · cases hpassword
      · exact hflag hmem

/-- The user has a password, or the request sets one. -/
def HasPassword (user : Account) (password? : Option String) : Prop :=
  user.hasUsablePassword = true ∨ ∃ password, password? = some password ∧ password ≠ ""

theorem verified_eq_none {salt : String} {password? : Option String} :
    Session.verified crypto salt user password? = none ↔ ¬ HasPassword user password? := by
  unfold Session.verified HasPassword
  dsimp only
  cases user.hasUsablePassword with
  | true => simp
  | false =>
      rw [if_neg Bool.false_ne_true]
      cases password? with
      | none => simp
      | some password =>
          by_cases hempty : password = ""
          · subst hempty
            refine iff_of_true rfl ?_
            simp
          · have hkept : (some password).filter (· ≠ "") = some password := by
              simpa using hempty
            rw [hkept]
            simp [hempty]

theorem costless_verifyEmail {password? : Option String} :
    Session.Costless (Session.verifyEmail crypto draws rawToken password?) .emailVerification
        (crypto.sha256 rawToken) s ↔
      ∀ token user, Presented crypto draws .emailVerification rawToken s token user →
        user.isActive = true ∧ HasPassword user password? ∧ FreshSession crypto draws s.db := by
  unfold Session.verifyEmail
  refine costless_of_consume fun token user c huser hsame => ?_
  rw [← freshSession_congr hsame.refreshTokens]
  dsimp only
  cases hverified : Session.verified crypto draws.salt user password? with
  | none =>
      refine ⟨_, _, rfl, rfl, fun h => absurd trivial h, fun h => ?_⟩
      exact absurd h.1 (verified_eq_none.mp hverified)
  | some saved =>
      obtain ⟨saved, fields⟩ := saved
      obtain ⟨hid, hemail⟩ := verified_eq_some hverified
      have hpassword : HasPassword user password? := by
        by_contra hnot
        rw [verified_eq_none.mpr hnot] at hverified
        cases hverified
      dsimp only
      rw [and_iff_right hpassword]
      by_cases hfields : fields = []
      · rw [if_neg (not_not.mpr hfields)]
        exact comes_openSession (hid ▸ huser) _ _
      · rw [if_pos hfields]
        obtain ⟨t, hsave, hstored, hkept, hrefresh⟩ := exec_saveUser (hid ▸ huser) hemail
        refine .of_step hsave hkept ?_
        rw [← freshSession_congr hrefresh]
        exact comes_openSession hstored _ _

/-- A new password is stored, everybody is signed out, and a session is opened. -/
theorem comes_setPassword (huser : s.db.Stores user.id) (password : String) (verify : Bool) :
    (Session.setPassword crypto draws user password verify).Comes
      (FreshSession crypto draws s.db) s := by
  obtain ⟨changed, fields, hset, hid, hemail⟩ : ∃ changed : Account, ∃ fields,
      Session.setPassword crypto draws user password verify = (do
        Session.saveUser changed fields
        Session.revokeAllRefreshTokens changed (draws.clock 2)
        Session.openSession crypto draws changed (draws.clock 3) (draws.clock 4)) ∧
      changed.id = user.id ∧ UserField.email ∉ fields := by
    refine ⟨_, _, rfl, rfl, ?_⟩
    split <;> decide
  rw [hset]
  obtain ⟨t, hsave, hstored, honeTime, hrefresh⟩ : ∃ t, (Session.saveUser changed fields).exec s =
      (.ok (), t) ∧ t.db.Stores changed.id ∧ t.db.oneTime = s.db.oneTime ∧
        t.db.refreshTokens = s.db.refreshTokens := exec_saveUser (hid ▸ huser) hemail
  refine .of_step hsave honeTime ?_
  have hrevoke : ∃ selected now, (Session.revokeAllRefreshTokens changed (draws.clock 2)).exec t =
      (.ok (), { t with
        db := t.db.revoke selected now
        lineage := t.lineage.close changed.id }) := ⟨_, _, rfl⟩
  obtain ⟨selected, now, hrevoke⟩ := hrevoke
  refine .of_step hrevoke rfl ?_
  have hfresh : FreshSession crypto draws (t.db.revoke selected now) ↔
      FreshSession crypto draws t.db := freshSession_revoke
  rw [← freshSession_congr hrefresh, ← hfresh]
  have hkept : (t.db.revoke selected now).Stores changed.id := hstored
  generalize t.db.revoke selected now = db at hkept ⊢
  exact comes_openSession hkept _ _

theorem costless_resetPassword {password : String} :
    Session.Costless (Session.resetPassword crypto draws rawToken password) .passwordReset
        (crypto.sha256 rawToken) s ↔
      ∀ token user, Presented crypto draws .passwordReset rawToken s token user →
        user.isActive = true ∧ FreshSession crypto draws s.db := by
  unfold Session.resetPassword
  refine costless_of_consume fun token user c huser hsame => ?_
  rw [← freshSession_congr hsame.refreshTokens]
  exact comes_setPassword huser password true

/-- The account of the token can be linked to its user: nobody else has it, or, if nobody has
it, the new row fits. -/
@[mk_iff]
structure Confirmable (draws : Draws) (identity : Identity) (userId : UUID) (db : Db) : Prop where
  owner : ∀ account ∈ db.socialAccounts.rows, account.provider = identity.provider →
    account.providerUserId = identity.providerUserId → account.userId = userId
  free : ¬ db.KnowsIdentity identity.provider identity.providerUserId →
    fitsVarchar 255 identity.providerUserId = true ∧ ∀ other ∈ db.socialAccounts.rows,
      other.id ≠ draws.rowId ∧ ¬ (other.userId = userId ∧ other.provider = identity.provider)

/-- The account is linked and a session is opened. -/
theorem comes_commitLink (account? : Option SocialAccount) (huser : s.db.Stores user.id)
    (now mintedAt : Datetime) :
    (Session.query (.commitLink account? user) >>= fun _ => Session.openSession crypto draws
      { user with isVerified := true } now mintedAt).Comes
        ((∃ db', s.db.link account? user = .ok db') ∧ FreshSession crypto draws s.db) s := by
  have hperform : perform (.commitLink account? user) s = s.settle (s.db.link account? user) := rfl
  cases hlink : s.db.link account? user with
  | ok db =>
      rw [hlink] at hperform
      have hquery : (Session.query (.commitLink account? user)).exec s = (.ok 1, { s with db }) := by
        rw [Session.query, Fallible.exec_atomic, hperform]
        rfl
      have hstored : db.Stores user.id := Db.stores_link hlink huser
      refine .of_step hquery (Db.sameTokens_link hlink).2 ?_
      rw [and_iff_right ⟨db, rfl⟩, ← freshSession_congr (Db.sameTokens_link hlink).1]
      exact comes_openSession hstored _ _
  | error e =>
      rw [hlink] at hperform
      refine ⟨.error e, s, ?_, rfl, fun h => absurd trivial h, ?_⟩
      · rw [Fallible.exec_bind, Session.query, Fallible.exec_atomic, hperform]
        rfl
      · rintro ⟨⟨db, hdb⟩, -⟩
        cases hdb

theorem confirmable_congr {identity : Identity} {userId : UUID} {db db' : Db}
    (h : db'.socialAccounts = db.socialAccounts) :
    Confirmable draws identity userId db' ↔ Confirmable draws identity userId db := by
  rw [confirmable_iff, confirmable_iff]
  unfold Db.KnowsIdentity
  rw [h]

/-- Where the account has a row, the view asks whose it is. -/
theorem confirmable_known {identity : Identity} {userId : UUID} {db : Db} {existing : SocialAccount}
    (h : db.socialAccount? identity.provider identity.providerUserId = some existing) :
    Confirmable draws identity userId db ↔ existing.userId = userId := by
  obtain ⟨hmem, hfound⟩ := Table.mem_of_find? h
  simp only [Bool.and_eq_true, beq_iff_eq] at hfound
  obtain ⟨hprovider, hid⟩ := hfound
  constructor
  · exact fun hconfirm => hconfirm.owner existing hmem hprovider hid
  · intro howner
    refine ⟨fun account haccount hprovider' hid' => ?_, fun hnone => ?_⟩
    · have hclash : Row.clash account existing :=
        Or.inr (Or.inl ⟨hprovider'.trans hprovider.symm, hid'.trans hid.symm⟩)
      rw [db.socialAccounts.eq_of_clash haccount hmem hclash]
      exact howner
    · exact absurd ⟨existing, hmem, hprovider, hid⟩ hnone

/-- Where it has none, one is inserted. -/
theorem confirmable_unknown {identity : Identity} {account : SocialAccount} {db : Db}
    (h : db.socialAccount? identity.provider identity.providerUserId = none)
    (huser : db.Stores account.userId) (hid : account.id = draws.rowId)
    (hprovider : account.provider = identity.provider)
    (hproviderId : account.providerUserId = identity.providerUserId) :
    Confirmable draws identity account.userId db ↔
      ∃ db', db.getOrCreateSocialAccount account = .ok db' := by
  have hnone := Db.socialAccount?_eq_none.mp h
  rw [← hprovider, ← hproviderId] at hnone
  rw [Db.getOrCreate_isOk hnone huser, hid, hprovider, hproviderId]
  rw [hprovider, hproviderId] at hnone
  constructor
  · exact fun hconfirm => hconfirm.free hnone
  · intro hfree
    exact ⟨fun other hother hprovider hid => absurd ⟨other, hother, hprovider, hid⟩ hnone,
      fun _ => hfree⟩

theorem costless_confirmLink :
    Session.Costless (Session.confirmLink crypto draws rawToken) .socialLink
        (crypto.sha256 rawToken) s ↔
      ∀ token user, Presented crypto draws .socialLink rawToken s token user →
        user.isActive = true ∧
          Confirmable draws token.detail user.id s.db ∧ FreshSession crypto draws s.db := by
  unfold Session.confirmLink
  refine costless_of_consume fun token user c huser hsame => ?_
  refine .congr (and_congr (confirmable_congr hsame.socialAccounts)
    (freshSession_congr hsame.refreshTokens)) ?_
  generalize (token.detail : Identity) = identity
  dsimp only
  refine .of_step (Fallible.exec_observe _ _ _) rfl ?_
  have hdropped : (Session.query (.cacheDelete (authUserCacheKey (uuidText user.id)))).exec c =
      (.ok 0, c.drop user.id) := rfl
  have hstored : (c.drop user.id).db.Stores user.id := huser
  cases hexisting : c.db.socialAccount? identity.provider identity.providerUserId with
  | some existing =>
      have hlink : (∃ db', c.db.link none user = .ok db') ↔ True :=
        iff_true_intro ((Db.link_isOk huser).mpr (by simp))
      refine .congr (and_congr_left' (confirmable_known hexisting).symm) ?_
      by_cases howner : existing.userId = user.id
      · rw [if_neg (by simpa using howner), if_pos Option.isSome_some]
        refine .congr (and_congr_left' (hlink.trans (iff_true_intro howner).symm)) ?_
        split
        · refine .of_step hdropped rfl ?_
          exact comes_commitLink none hstored _ _
        · exact comes_commitLink none huser _ _
      · rw [if_pos (by simpa using howner)]
        exact ⟨_, _, rfl, rfl, fun h => absurd trivial h, fun h => absurd h.1 howner⟩
  | none =>
      obtain ⟨account, haccount⟩ : ∃ account : SocialAccount, account =
          { id := draws.rowId
            userId := user.id
            provider := identity.provider
            providerUserId := identity.providerUserId } := ⟨_, rfl⟩
      have hlink : (∃ db', c.db.link (some account) user = .ok db') ↔
          Confirmable draws identity user.id c.db := by
        rw [Db.link_isOk huser]
        simp only [Option.some.injEq, forall_eq']
        subst haccount
        exact (confirmable_unknown hexisting huser rfl rfl rfl).symm
      refine .congr (and_congr_left' hlink) ?_
      dsimp only [Option.any_none, Option.isSome_none]
      rw [if_neg Bool.false_ne_true, if_neg Bool.false_ne_true, ← haccount]
      split
      · refine .of_step hdropped rfl ?_
        exact comes_commitLink (some account) hstored _ _
      · exact comes_commitLink (some account) huser _ _

end Writing

/-! ## Every endpoint -/

/-- What must hold of the state and the request for it not to burn a token.  Each of the views
looks at this only after the token is used. -/
def Redemption.Admits (crypto : Crypto τ) (draws : Draws) (s : State) : Redemption → Prop
  | .invalid _ _ _ => True
  | .verifyEmail rawToken password? => ∀ token user,
      Presented crypto draws .emailVerification rawToken s token user →
        user.isActive = true ∧ HasPassword user password? ∧ FreshSession crypto draws s.db
  | .resetPassword rawToken _ => ∀ token user,
      Presented crypto draws .passwordReset rawToken s token user →
        user.isActive = true ∧ FreshSession crypto draws s.db
  | .confirmLink rawToken => ∀ token user,
      Presented crypto draws .socialLink rawToken s token user →
        user.isActive = true ∧
          Confirmable draws token.detail user.id s.db ∧ FreshSession crypto draws s.db

/-- **A failed redemption costs nothing** exactly if the request is not one that uses a token
up first and is refused then. -/
theorem costless_iff (crypto : Crypto τ) (draws : Draws) (request : Redemption) (s : State) :
    Session.Costless (request.session crypto draws) request.model
        (crypto.sha256 request.rawToken) s ↔ request.Admits crypto draws s := by
  cases request with
  | invalid model rawToken error =>
      exact iff_of_true (fun _ => ⟨fun _ => Iff.rfl, rfl, rfl, rfl⟩) trivial
  | verifyEmail rawToken password? => exact costless_verifyEmail
  | resetPassword rawToken password => exact costless_resetPassword
  | confirmLink rawToken => exact costless_confirmLink

/-! ## A password that is asked for too late -/

/-- Bob has accepted an invitation and has no password yet. -/
def invited : Account where
  id := 3#128
  email := "bob@example.com"
  password := "!unusable"
  isActive := true
  isVerified := false
  passwordChangedAt := none

def mailedToken : OneTimeToken .emailVerification where
  id := 4#128
  userId := invited.id
  tokenHash := "sha256:mailed"
  expiresAt := 1700086400000000
  usedAt := none
  detail := ()

def invitedDb : Db where
  users := ⟨[invited], by decide⟩
  refreshTokens := .empty
  oneTime
    | .emailVerification => ⟨[mailedToken], by decide⟩
    | .passwordReset => .empty
    | .socialLink => .empty
  socialAccounts := .empty
  integral := by decide

/-- He follows the link of the mail; he is asked for a password, and his link is of no use to
give it. -/
theorem not_costless : ¬ Session.Costless
    ((Redemption.verifyEmail "mailed" none).session sampleCrypto (sampleDraws 1))
    .emailVerification "sha256:mailed" (.start invitedDb fun _ => none) := by
  have hpassword : ¬ HasPassword invited none := by
    have hunusable : invited.hasUsablePassword = false := by decide +kernel
    rintro (husable | ⟨_, hgiven, -⟩)
    · rw [hunusable] at husable
      cases husable
    · cases hgiven
  intro hcostless
  obtain ⟨-, hgiven, -⟩ := costless_verifyEmail.mp hcostless mailedToken invited
    ⟨rfl, rfl, by decide⟩
  exact hpassword hgiven

end Saasmint.Auth
