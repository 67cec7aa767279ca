import Saasmint.Users.Requests

/-!
# What requests do to accounts

The second of the last password change of a user is `State.pwdIat?`.  Most statements
leave the users, their cached snapshots and the record of password changes alone
(`Alike`); the others are described here by what they do to the stored user of a key.

`Upheld` lists what it takes for a property of states to survive every request that does
not stamp `password_changed_at`, run alone: the requests are gone through once
(`ensures_request`), for any such property, together with what is known of the user a
request answers for.
-/

namespace Saasmint.Auth

open Atomic Relational Auth.Session

variable {τ : Type}

/-! ## Statements that leave accounts alone -/

/-- The same users, snapshots and password changes. -/
def Alike (s t : State) : Prop :=
  t.db.users = s.db.users ∧ t.cache = s.cache ∧ t.changes = s.changes

/-- Whether a query touches neither users nor their snapshots. -/
def Query.calm : Query → Bool
  | insertUser _ | saveUser _ _ | commitLink _ _ | deleteUser _ => false
  | cacheSet _ _ | cacheDelete _ => false
  | _ => true

theorem alike_settle {s : State} {result : Except AuthError Db}
    (h : ∀ db, result = .ok db → db.users = s.db.users) : Alike s (s.settle result).2 :=
  of_settle (P := Alike s) ⟨rfl, rfl, rfl⟩ fun db hdb => ⟨h db hdb, rfl, rfl⟩

theorem alike_effect {q : Query} (hq : q.calm = true) (s : State) : Alike s (effect q s) := by
  cases q with
  | insertRefreshToken token origin =>
      rcases hinsert : s.db.insertRefreshToken token with e | db
      · rw [effect_insertRefreshToken_error hinsert]
        exact ⟨rfl, rfl, rfl⟩
      · rw [effect_insertRefreshToken_ok hinsert]
        exact ⟨(Db.insertRefreshToken_eq_ok hinsert).2.1, rfl, rfl⟩
  | revokeToken id now =>
      have heffect : effect (.revokeToken id now) s = (perform (.revokeToken id now) s).2 := rfl
      rw [heffect, perform]
      split <;> exact ⟨rfl, rfl, rfl⟩
  | insertOneTimeToken model token =>
      exact alike_settle fun db h => (Db.insertOneTimeToken_eq_ok h).2.2.2
  | deleteRefreshTokens ids =>
      refine alike_settle fun db h => ?_
      rw [Db.commit_eq_ok.mp h]
  | deleteOneTimeTokens model ids =>
      refine alike_settle fun db h => ?_
      rw [Db.commit_eq_ok.mp h]
  | insertUser user => cases hq
  | saveUser user fields? => cases hq
  | commitLink account? user => cases hq
  | deleteUser id => cases hq
  | cacheSet key user => cases hq
  | cacheDelete key => cases hq
  | _ => exact ⟨rfl, rfl, rfl⟩

/-! ## The stored user of a key -/

/-- The second of the user's last password change, as it is stored. -/
def State.pwdIat? (s : State) (id : UUID) : Option Int := (s.db.user? id).map Account.pwdIat

/-- The user is stored with the same password change. -/
def Current (user : Account) (s : State) : Prop := s.pwdIat? user.id = some user.pwdIat

theorem current_of_mem {user : Account} {s : State} (h : user ∈ s.db.users.rows) :
    Current user s := by
  have hfound : s.db.user? user.id = some user := Db.user?_eq_some.mpr ⟨h, rfl⟩
  rw [Current, State.pwdIat?, hfound]
  rfl

theorem user?_congr {db db' : Db} (h : db'.users = db.users) (id : UUID) :
    db'.user? id = db.user? id := by
  unfold Db.user?
  rw [h]

theorem Current.alike {user : Account} {s t : State} (h : Current user s) (halike : Alike s t) :
    Current user t := by
  rw [Current, State.pwdIat?, user?_congr halike.1]
  exact h

namespace Db

variable {db db' : Db} {user : Account} {fields : List UserField}

/-- A save of named fields rewrites the row of the user, which is there. -/
theorem saveUser_eq_ok (h : db.saveUser user (some fields) = .ok db') :
    db'.users.rows = db.users.rows.map (fun stored =>
        if stored.id == user.id then user.assign fields stored else stored) ∧
      ∃ stored, db.user? user.id = some stored := by
  unfold saveUser at h
  dsimp only at h
  split at h
  next hany =>
    obtain ⟨stored, hstored, hid⟩ := List.any_eq_true.mp hany
    obtain ⟨users, htable, hdb⟩ := write_eq_ok h
    rw [hdb]
    exact ⟨Table.rows_update? htable, stored,
      user?_eq_some.mpr ⟨hstored, beq_iff_eq.mp hid⟩⟩
  next => cases h

/-- The stored users after a save. -/
theorem user?_saveUser (h : db.saveUser user (some fields) = .ok db') (id : UUID) :
    db'.user? id =
      if id = user.id then (db.user? id).map (user.assign fields) else db.user? id := by
  have hfind : db'.user? id = (db.user? id).map fun stored =>
      if stored.id == user.id then user.assign fields stored else stored := by
    unfold user? Table.find?
    rw [(saveUser_eq_ok h).1, List.find?_map]
    congr 1
    refine congrArg (fun p => List.find? p db.users.rows) (funext fun stored => ?_)
    simp only [Function.comp_apply]
    split <;> rfl
  rw [hfind]
  cases hstored : db.user? id with
  | none => simp
  | some stored =>
      have hid := (user?_eq_some.mp hstored).2
      by_cases hsame : id = user.id
      · simp [hsame, hid.trans hsame]
      · simp [hsame, hid]

/-- The stored users after an insert, whose key was not there. -/
theorem user?_insertUser (h : db.insertUser user = .ok db') :
    db.user? user.id = none ∧
      ∀ id, db'.user? id = if id = user.id then some user else db.user? id := by
  obtain ⟨users, htable, hdb⟩ := write_eq_ok h
  have hrows : db'.users.rows = db.users.rows ++ [user] := by
    rw [hdb]
    exact Table.rows_insert? htable
  have hnone : db.user? user.id = none := by
    have hvalid := db'.users.valid.2
    rw [hrows, List.pairwise_append] at hvalid
    refine Table.find?_eq_none.mpr fun stored hstored hid => ?_
    have hclash := hvalid.2.2 stored hstored user (List.mem_singleton_self user)
    exact hclash (Or.inl (beq_iff_eq.mp hid))
  refine ⟨hnone, fun id => ?_⟩
  have hfind : db'.user? id = (db.user? id).or ([user].find? fun stored => stored.id == id) := by
    unfold user? Table.find?
    rw [hrows, List.find?_append]
  rw [hfind]
  by_cases hid : id = user.id
  · simp [hid, hnone]
  · simp [hid, Ne.symm hid]

end Db

/-- The password changes that are stored after a save. -/
theorem pwdIat?_saved {s t : State} {user : Account} {fields : List UserField}
    (h : s.db.saveUser user (some fields) = .ok t.db) (id : UUID) :
    t.pwdIat? id = if id = user.id ∧ .passwordChangedAt ∈ fields then some user.pwdIat
      else s.pwdIat? id := by
  unfold State.pwdIat?
  rw [Db.user?_saveUser h]
  by_cases hid : id = user.id
  · obtain ⟨stored, hstored⟩ := (Db.saveUser_eq_ok h).2
    rw [if_pos hid, hid, hstored]
    by_cases hfield : UserField.passwordChangedAt ∈ fields
    · simp [hfield, Account.assign, Account.pwdIat]
    · simp [hfield, Account.assign, Account.pwdIat]
  · simp [hid]

/-- A save that does not stamp leaves the password changes alone. -/
theorem pwdIat?_unstamped {s t : State} {user : Account} {fields : List UserField}
    (h : s.db.saveUser user (some fields) = .ok t.db) (hfields : .passwordChangedAt ∉ fields) :
    t.pwdIat? = s.pwdIat? := by
  funext id
  rw [pwdIat?_saved h, if_neg fun hboth => hfields hboth.2]

/-- A link that is committed leaves the users alone, or saves the user as verified. -/
theorem Db.link_eq_ok {db db' : Db} {account? : Option SocialAccount} {user : Account}
    (h : db.link account? user = .ok db') :
    (user.isVerified = true ∧ db'.users = db.users) ∨
      (user.isVerified = false ∧ ∃ linked : Db, linked.users = db.users ∧
        linked.saveUser { user with isVerified := true } (some [.isVerified]) = .ok db') := by
  obtain ⟨linked, hlinked, hsteps⟩ := link_steps h
  have husers : linked.users = db.users := by
    cases account? with
    | none => rw [← Except.ok.inj hlinked]
    | some account =>
        obtain rfl | ⟨_, _, hdb⟩ := getOrCreate_eq_ok hlinked
        · rfl
        · rw [hdb]
  obtain ⟨hverified, rfl⟩ | ⟨hverified, hsave⟩ := hsteps
  · exact Or.inl ⟨hverified, husers⟩
  · exact Or.inr ⟨hverified, linked, husers, hsave⟩

/-! ## What requests uphold -/

/-- The state without the cached snapshot of a user. -/
def State.drop (s : State) (id : UUID) : State :=
  { s with cache := Function.update s.cache (authUserCacheKey (uuidText id)) none }

/-- A property that survives whatever a request does without stamping
`password_changed_at`. -/
structure Upheld (inv : State → Prop) : Prop where
  alike : ∀ {s t}, inv s → Alike s t → inv t
  drop : ∀ {s} id, inv s → inv (s.drop id)
  /-- The stored row of an active user is cached. -/
  fill : ∀ {s sub id user}, inv s → parseUserId sub = .ok id → s.db.activeUser? id = some user →
    inv { s with cache := Function.update s.cache (authUserCacheKey sub) (some user) }
  /-- A user is saved, and the snapshot dropped. -/
  save : ∀ {s db} {user : Account} {fields}, inv s → .passwordChangedAt ∉ fields →
    s.db.saveUser user (some fields) = .ok db → inv (State.drop { s with db } user.id)
  /-- A user is inserted, and the snapshot dropped. -/
  insert : ∀ {s db} {user : Account}, inv s → s.db.insertUser user = .ok db →
    inv (State.drop { s with db } user.id)

/-- Run alone from `s`, the program ends with `inv`, and where it succeeds with a result
and a state in `post`. -/
def Session.Ensures {α : Type} (inv : State → Prop) (post : α → State → Prop) (p : Session α)
    (s : State) : Prop :=
  p.Ends (fun result t => inv t ∧ ∀ a, result = .ok a → post a t) s

section Rules

variable {α β : Type} {inv : State → Prop} {s : State} {post : α → State → Prop}

theorem ensures_pure {a : α} (hs : inv s) (h : post a s) :
    (pure a : Session α).Ensures inv post s := by
  refine ⟨hs, fun b hb => ?_⟩
  rwa [← Except.ok.inj hb]

theorem ensures_throw (e : AuthError) (hs : inv s) : (throw e : Session α).Ensures inv post s :=
  ⟨hs, nofun⟩

theorem ensures_ofExcept {result : Except AuthError α} (hs : inv s)
    (h : ∀ a, result = .ok a → post a s) : Session.Ensures inv post (Fallible.ofExcept result) s :=
  ⟨hs, h⟩

theorem Session.Ensures.bind {mid : α → State → Prop} {post : β → State → Prop} {p : Session α}
    {rest : α → Session β} (h : p.Ensures inv mid s)
    (hrest : ∀ a t, inv t → mid a t → (rest a).Ensures inv post t) :
    (p >>= rest).Ensures inv post s := by
  unfold Ensures
  rw [Fallible.ends_bind]
  refine Fallible.Ends.mono h fun result t ⟨ht, hmid⟩ => ?_
  cases result with
  | ok a => exact hrest a t ht (hmid a rfl)
  | error e => exact ⟨ht, nofun⟩

theorem Session.Ensures.mono {post' : α → State → Prop} {p : Session α}
    (h : p.Ensures inv post s) (himp : ∀ a t, post a t → post' a t) : p.Ensures inv post' s :=
  ⟨h.1, fun a ha => himp a _ (h.2 a ha)⟩

/-- A read hands on what it finds. -/
theorem ensures_read (q : Query) (f : State → α) (hs : inv s) :
    (Session.read q f).Ensures inv (fun a t => t = s ∧ a = f s) s := by
  refine ⟨hs, fun a ha => ⟨rfl, ?_⟩⟩
  exact (Except.ok.inj ha).symm

theorem ensures_calm (hinv : Upheld inv) {q : Query} (hq : q.calm = true) (hs : inv s) :
    (query q).Ensures inv (fun _ t => Alike s t) s :=
  ⟨hinv.alike hs (alike_effect hq s), fun _ _ => alike_effect hq s⟩

end Rules

/-! ### The token functions -/

section Functions

variable {inv : State → Prop} (hinv : Upheld inv) {s : State} (crypto : Crypto τ) (draws : Draws)

/-- A token pair that is answered has an access token of that instant, for a user who is
stored with the same password change. -/
def Mints (crypto : Crypto τ) (instant : Datetime) (response : Response τ) (s : State) : Prop :=
  ∀ user access refresh, response = .tokens user access refresh →
    access = createAccessToken crypto user instant ∧ Current user s

include hinv

theorem ensures_authUser (sub : String) (hs : inv s) :
    (authUser sub).Ensures inv (fun _ _ => True) s := by
  unfold authUser
  refine (ensures_read _ _ hs).bind fun cached t ht _ => ?_
  cases cached with
  | some user => exact ensures_pure ht trivial
  | none =>
      have hid : Session.Ensures inv (fun id u => parseUserId sub = .ok id)
          (Fallible.ofExcept (parseUserId sub)) t := ensures_ofExcept ht fun _ h => h
      refine hid.bind fun id u hu hparse => ?_
      refine (ensures_read _ _ hu).bind fun user? v hv ⟨hsame, hfound⟩ => ?_
      subst hsame
      cases user? with
      | none => exact ensures_throw _ hv
      | some user =>
          have hfill : (query (.cacheSet (authUserCacheKey sub) user)).Ensures inv
              (fun _ _ => True) v := ⟨hinv.fill hv hparse hfound.symm, fun _ _ => trivial⟩
          exact hfill.bind fun _ w hw _ => ensures_pure hw trivial

theorem ensures_authenticate (token : τ) (now : Datetime) (hs : inv s) :
    (authenticate crypto token now).Ensures inv (fun _ _ => True) s := by
  have hsubject : Session.Ensures inv (fun _ _ => True)
      (Fallible.ofExcept (subject crypto now token)) s := ensures_ofExcept hs fun _ _ => trivial
  unfold authenticate
  refine hsubject.bind fun claims t ht _ => ?_
  refine (ensures_authUser hinv claims.1 ht).bind fun user u hu _ => ?_
  exact ensures_ofExcept hu fun _ _ => trivial

theorem ensures_saveUser (user : Account) {fields : List UserField}
    (hfields : .passwordChangedAt ∉ fields) (hs : inv s) :
    (Session.saveUser user fields).Ensures inv (fun _ t => t.pwdIat? = s.pwdIat?) s := by
  unfold Session.saveUser Ensures
  rw [Fallible.ends_bind]
  rcases hsave : s.db.saveUser user (some fields) with e | db
  · have hquery : perform (.saveUser user (some fields)) s = (.error e, s) := by
      rw [perform, hsave]
      rfl
    refine Fallible.ends_atomic.mpr ?_
    rw [hquery]
    exact ⟨hs, nofun⟩
  · have hquery : perform (.saveUser user (some fields)) s = (.ok 1, { s with db }) := by
      rw [perform, hsave]
      simp [State.saving, State.changesAfter, hfields]
    refine Fallible.ends_atomic.mpr ?_
    rw [hquery]
    exact ⟨hinv.save hs hfields hsave, fun _ _ => pwdIat?_unstamped hsave hfields⟩

/-- The user of a checked password is the one that was given, but for the hash. -/
theorem ensures_checkPassword (user : Account) (raw : String) (hs : inv s) :
    (checkPassword crypto draws user raw).Ensures inv (fun checked? t =>
      t.pwdIat? = s.pwdIat? ∧ ∀ checked, checked? = some checked →
        checked.id = user.id ∧ checked.pwdIat = user.pwdIat) s := by
  unfold checkPassword
  split
  · split
    · refine (ensures_saveUser hinv _ (by decide) hs).bind fun _ t ht hsame => ?_
      refine ensures_pure ht ⟨hsame, fun checked hchecked => ?_⟩
      cases hchecked
      exact ⟨rfl, rfl⟩
    · refine ensures_pure hs ⟨rfl, fun checked hchecked => ?_⟩
      cases hchecked
      exact ⟨rfl, rfl⟩
  · exact ensures_pure hs ⟨rfl, nofun⟩

theorem ensures_createRefreshToken (user : Account) (now : Datetime) (origin : Origin)
    (hs : inv s) : (createRefreshToken crypto draws user now origin).Ensures inv
      (fun _ t => Alike s t) s := by
  unfold createRefreshToken
  exact (ensures_calm hinv rfl hs).bind fun _ t ht halike => ensures_pure ht halike

theorem ensures_createOneTimeToken (model : OneTimeModel) (detail : model.Detail) (user : Account)
    (now : Datetime) (hs : inv s) :
    (createOneTimeToken crypto draws model detail user now).Ensures inv (fun _ t => Alike s t) s := by
  unfold createOneTimeToken
  exact (ensures_calm hinv rfl hs).bind fun _ t ht halike => ensures_pure ht halike

theorem ensures_openSession {user : Account} (now mintedAt : Datetime) (hs : inv s)
    (hcurrent : Current user s) :
    (openSession crypto draws user now mintedAt).Ensures inv (Mints crypto mintedAt) s := by
  unfold openSession
  refine (ensures_createRefreshToken hinv crypto draws user now .login hs).bind
    fun refresh t ht halike => ensures_pure ht ?_
  intro answered access raw hresponse
  cases hresponse
  exact ⟨rfl, hcurrent.alike halike⟩

/-- The user of a one-time token that is consumed is stored as it was read. -/
theorem ensures_consume (model : OneTimeModel) (rawToken : String) (now : Datetime) (hs : inv s) :
    (consumeOneTimeToken crypto model rawToken now).Ensures inv
      (fun found t => Current found.2 t) s := by
  unfold consumeOneTimeToken
  refine (ensures_read _ _ hs).bind fun found? t ht ⟨hsame, hfound⟩ => ?_
  subst hsame
  cases found? with
  | none => exact ensures_throw _ ht
  | some found =>
      obtain ⟨token, user⟩ := found
      have hcurrent : Current user t := by
        have hread := hfound.symm
        unfold Db.oneTimeTokenWithUser? at hread
        simp only [Option.bind_eq_bind, Option.bind_eq_some_iff, Option.pure_def,
          Option.some.injEq, Prod.mk.injEq] at hread
        obtain ⟨_, _, _, huser, _, rfl⟩ := hread
        exact current_of_mem (Db.user?_eq_some.mp huser).1
      dsimp only
      split
      · exact ensures_throw _ ht
      split
      · exact ensures_throw _ ht
      refine (ensures_calm hinv rfl ht).bind fun updated u hu halike => ?_
      split
      · exact ensures_throw _ hu
      split
      · exact ensures_throw _ hu
      · exact ensures_pure hu (hcurrent.alike halike)

/-- The user of a refresh token that is rotated is stored as it was read. -/
theorem ensures_rotate (rawToken : String) (hs : inv s) :
    (rotateRefreshToken crypto draws rawToken).Ensures inv
      (fun answer t => Current answer.1 t) s := by
  unfold rotateRefreshToken
  refine (ensures_read _ _ hs).bind fun found? t ht ⟨hsame, hfound⟩ => ?_
  subst hsame
  cases found? with
  | none => exact ensures_throw _ ht
  | some found =>
      have hcurrent : Current found.user t :=
        current_of_mem (State.found?_eq_some.mp hfound.symm).2.1.1
      dsimp only
      split
      · exact (ensures_calm hinv rfl ht).bind fun _ u hu _ => ensures_throw _ hu
      split
      · exact ensures_throw _ ht
      split
      · exact ensures_throw _ ht
      refine (ensures_calm hinv rfl ht).bind fun _ u hu halike => ?_
      refine (ensures_createRefreshToken hinv crypto draws found.user _ _ hu).bind
        fun raw v hv halike' => ensures_pure hv ?_
      exact (hcurrent.alike halike).alike halike'

end Functions

/-! ### Requests -/

/-- The reading of the clock at which a request makes its access token. -/
def Request.mintedAt (draws : Draws) : Request τ → Datetime
  | .login _ _ | .socialSignIn _ _ => draws.clock 1
  | .register _ _ | .verifyEmail _ _ | .confirmLink _ => draws.clock 2
  | .refresh _ => draws.clock 3
  | .resetPassword _ _ | .changePassword _ _ _ => draws.clock 4
  | _ => draws.clock 0

section Requests

variable {inv : State → Prop} (hinv : Upheld inv) {s : State} (crypto : Crypto τ) (draws : Draws)

include hinv

theorem ensures_register (email password : String) (hs : inv s) :
    (register crypto draws email password).Ensures inv (Mints crypto (draws.clock 2)) s := by
  unfold register
  refine (ensures_read _ _ hs).bind fun registered t ht _ => ?_
  split
  · exact ensures_throw _ ht
  let user : Account :=
    { id := draws.rowId
      email
      password := crypto.makePassword draws.salt password
      isActive := true
      isVerified := false
      passwordChangedAt := none }
  have hdrop : (query (.cacheDelete (authUserCacheKey (uuidText user.id)))).Ensures inv
      (fun _ u => u = t.drop user.id) t := ⟨hinv.drop user.id ht, fun _ _ => rfl⟩
  refine hdrop.bind fun _ u hu hdropped => ?_
  subst hdropped
  -- a failed insert changes nothing, and whatever handles it may only refuse
  have hinsert : ∀ handler : AuthError → Session ℕ,
      (∀ e u, inv u → (handler e).Ensures inv (fun _ v => Current user v) u) →
      (tryCatch (query (.insertUser user)) handler).Ensures inv (fun _ v => Current user v)
        (t.drop user.id) := by
    intro handler hhandler
    unfold Ensures
    rw [Fallible.ends_tryCatch]
    refine Fallible.ends_atomic.mpr ?_
    rcases hinsert : t.db.insertUser user with e | db
    · have hquery : perform (.insertUser user) (t.drop user.id) = (.error e, t.drop user.id) := by
        have hsame : (t.drop user.id).db = t.db := rfl
        rw [perform, hsame, hinsert]
        rfl
      rw [hquery]
      exact hhandler e _ hu
    · have hquery : perform (.insertUser user) (t.drop user.id) =
          (.ok 1, State.drop { t with db } user.id) := by
        have hsame : (t.drop user.id).db = t.db := rfl
        rw [perform, hsame, hinsert]
        rfl
      rw [hquery]
      refine ⟨hinv.insert ht hinsert, fun _ _ => ?_⟩
      have hstored := (Db.user?_insertUser hinsert).2 user.id
      rw [if_pos rfl] at hstored
      exact current_of_mem (Db.user?_eq_some.mp hstored).1
  refine (hinsert _ fun e u hu => ?_).bind fun _ v hv hcurrent => ?_
  · split
    · exact ensures_throw _ hu
    · exact ensures_throw _ hu
  refine (ensures_createOneTimeToken hinv crypto draws _ _ _ _ hv).bind
    fun _ w hw halike => ?_
  exact ensures_openSession hinv crypto draws _ _ hw (hcurrent.alike halike)

theorem ensures_verifyEmail (rawToken : String) (password? : Option String) (hs : inv s) :
    (verifyEmail crypto draws rawToken password?).Ensures inv (Mints crypto (draws.clock 2)) s := by
  unfold verifyEmail
  refine (ensures_consume hinv crypto _ rawToken _ hs).bind fun found t ht hcurrent => ?_
  obtain ⟨token, user⟩ := found
  dsimp only at hcurrent ⊢
  cases hverified : verified crypto draws.salt user password? with
  | none => exact ensures_pure ht nofun
  | some result =>
      obtain ⟨saved, fields⟩ := result
      -- neither the key nor the password change is among the fields that are set
      obtain ⟨hid, hpwd, hfields⟩ : saved.id = user.id ∧ saved.pwdIat = user.pwdIat ∧
          .passwordChangedAt ∉ fields := by
        have hflag : UserField.passwordChangedAt ∉
            (if user.isVerified then [] else [UserField.isVerified]) := by
          split <;> decide
        unfold verified at hverified
        dsimp only at hverified
        split at hverified
        · cases hverified
          exact ⟨rfl, rfl, hflag⟩
        · split at hverified
          · cases hverified
          · cases hverified
            exact ⟨rfl, rfl, by simp⟩
      have hsaved : Current saved t := by
        rw [Current, hid, hpwd]
        exact hcurrent
      dsimp only
      split
      · refine (ensures_saveUser hinv saved hfields ht).bind fun _ u hu hsame => ?_
        refine ensures_openSession hinv crypto draws _ _ hu ?_
        rw [Current, hsame]
        exact hsaved
      · exact ensures_openSession hinv crypto draws _ _ ht hsaved

theorem ensures_login (email password : String) (hs : inv s) :
    (login crypto draws email password).Ensures inv (Mints crypto (draws.clock 1)) s := by
  unfold login
  refine (ensures_read _ _ hs).bind fun user? t ht ⟨hsame, hfound⟩ => ?_
  subst hsame
  cases user? with
  | none => exact ensures_throw _ ht
  | some user =>
      have hcurrent : Current user t := current_of_mem (Table.mem_of_find? hfound.symm).1
      refine (ensures_checkPassword hinv crypto draws user password ht).bind
        fun checked? u hu ⟨hsame, hchecked⟩ => ?_
      cases checked? with
      | none => exact ensures_throw _ hu
      | some checked =>
          obtain ⟨hid, hpwd⟩ := hchecked checked rfl
          dsimp only
          split
          · exact ensures_throw _ hu
          split
          · exact ensures_throw _ hu
          · refine ensures_openSession hinv crypto draws _ _ hu ?_
            rw [Current, hsame, hid, hpwd]
            exact hcurrent

theorem ensures_refresh (rawToken : String) (hs : inv s) :
    (refresh crypto draws rawToken).Ensures inv (Mints crypto (draws.clock 3)) s := by
  unfold refresh
  refine (ensures_rotate hinv crypto draws rawToken hs).bind fun answer t ht hcurrent => ?_
  refine ensures_pure ht fun user access raw hresponse => ?_
  cases hresponse
  exact ⟨rfl, hcurrent⟩

theorem ensures_socialSignIn (provider providerUserId : String) (hs : inv s) :
    (socialSignIn crypto draws provider providerUserId).Ensures inv
      (Mints crypto (draws.clock 1)) s := by
  unfold socialSignIn
  refine (ensures_read _ _ hs).bind fun user? t ht ⟨hsame, hfound⟩ => ?_
  subst hsame
  cases user? with
  | none => exact ensures_pure ht nofun
  | some user =>
      have hcurrent : Current user t := by
        obtain ⟨account, _, huser⟩ := Option.bind_eq_some_iff.mp hfound.symm
        exact current_of_mem (Db.user?_eq_some.mp huser).1
      dsimp only
      split
      · exact ensures_throw _ ht
      · exact ensures_openSession hinv crypto draws _ _ ht hcurrent

theorem ensures_resendVerification (email : String) (instant : Datetime) (hs : inv s) :
    (resendVerification crypto draws email : Session (Response τ)).Ensures inv
      (Mints crypto instant) s := by
  unfold resendVerification
  refine (ensures_read _ _ hs).bind fun user? t ht _ => ?_
  cases user? with
  | none => exact ensures_pure ht nofun
  | some user =>
      refine (ensures_calm hinv rfl ht).bind fun _ u hu _ => ?_
      exact (ensures_createOneTimeToken hinv crypto draws _ _ _ _ hu).bind
        fun _ v hv _ => ensures_pure hv nofun

theorem ensures_forgotPassword (email : String) (instant : Datetime) (hs : inv s) :
    (forgotPassword crypto draws email : Session (Response τ)).Ensures inv
      (Mints crypto instant) s := by
  unfold forgotPassword
  refine (ensures_read _ _ hs).bind fun user? t ht _ => ?_
  cases user? with
  | none => exact ensures_pure ht nofun
  | some user =>
      exact (ensures_createOneTimeToken hinv crypto draws _ _ _ _ ht).bind
        fun _ u hu _ => ensures_pure hu nofun

theorem ensures_requestLink (email : String) (identity : Identity) (instant : Datetime)
    (hs : inv s) : (requestLink crypto draws email identity : Session (Response τ)).Ensures inv
      (Mints crypto instant) s := by
  unfold requestLink
  refine (ensures_read _ _ hs).bind fun user? t ht _ => ?_
  cases user? with
  | none => exact ensures_pure ht nofun
  | some user =>
      refine (ensures_calm hinv rfl ht).bind fun _ u hu _ => ?_
      exact (ensures_createOneTimeToken hinv crypto draws _ _ _ _ hu).bind
        fun _ v hv _ => ensures_pure hv nofun

theorem ensures_redeem (model : OneTimeModel) (rawToken : String) (instant : Datetime)
    (hs : inv s) : (redeem crypto draws model rawToken : Session (Response τ)).Ensures inv
      (Mints crypto instant) s := by
  unfold redeem
  exact (ensures_consume hinv crypto model rawToken _ hs).bind
    fun found t ht _ => ensures_pure ht nofun

/-- A link that is committed, after the snapshot has been dropped where the user is saved. -/
theorem ensures_link {user : Account} (account? : Option SocialAccount) (instant now : Datetime)
    (hs : inv s) (hcurrent : Current user s) :
    ((do
      if user.isVerified = false then
        let _ ← query (.cacheDelete (authUserCacheKey (uuidText user.id)))
      let _ ← query (.commitLink account? user)
      openSession crypto draws { user with isVerified := true } now instant) :
        Session (Response τ)).Ensures inv (Mints crypto instant) s := by
  have hopen : ∀ t, inv t → t.pwdIat? = s.pwdIat? →
      (openSession crypto draws { user with isVerified := true } now instant).Ensures inv
        (Mints crypto instant) t := by
    intro t ht hsame
    refine ensures_openSession hinv crypto draws _ _ ht ?_
    rw [Current, hsame]
    exact hcurrent
  by_cases hverified : user.isVerified = false
  · rw [if_pos hverified]
    have hdrop : (query (.cacheDelete (authUserCacheKey (uuidText user.id)))).Ensures inv
        (fun _ t => t = s.drop user.id) s := ⟨hinv.drop user.id hs, fun _ _ => rfl⟩
    refine hdrop.bind fun _ t ht hdropped => ?_
    subst hdropped
    have hlink : (query (.commitLink account? user)).Ensures inv
        (fun _ u => u.pwdIat? = s.pwdIat?) (s.drop user.id) := by
      rcases hcommit : s.db.link account? user with e | db
      · have hquery : perform (.commitLink account? user) (s.drop user.id) =
            (.error e, s.drop user.id) := by
          have hsame : (s.drop user.id).db = s.db := rfl
          rw [perform, hsame, hcommit]
          rfl
        refine Fallible.ends_atomic.mpr ?_
        rw [hquery]
        exact ⟨ht, nofun⟩
      · have hquery : perform (.commitLink account? user) (s.drop user.id) =
            (.ok 1, State.drop { s with db } user.id) := by
          have hsame : (s.drop user.id).db = s.db := rfl
          rw [perform, hsame, hcommit]
          rfl
        obtain ⟨hnot, _⟩ | ⟨_, linked, husers, hsave⟩ := Db.link_eq_ok hcommit
        · exact absurd hnot (by simp [hverified])
        · have hlinked : inv { s with db := linked } :=
            hinv.alike hs ⟨husers, rfl, rfl⟩
          have hunstamped : UserField.passwordChangedAt ∉ [UserField.isVerified] := by decide
          have hkept : State.pwdIat? { s with db := linked } = s.pwdIat? := by
            funext id
            exact congrArg (Option.map Account.pwdIat) (user?_congr husers id)
          refine Fallible.ends_atomic.mpr ?_
          rw [hquery]
          have hdropped : inv (State.drop { ({ s with db := linked } : State) with db }
              ({ user with isVerified := true } : Account).id) :=
            hinv.save hlinked hunstamped hsave
          refine ⟨hdropped, fun _ _ => ?_⟩
          have hsaved : State.pwdIat? { s with db } = State.pwdIat? { s with db := linked } :=
            pwdIat?_unstamped hsave hunstamped
          exact hsaved.trans hkept
    exact hlink.bind fun _ u hu hsame => hopen u hu hsame
  · rw [if_neg hverified]
    have hlink : (query (.commitLink account? user)).Ensures inv (fun _ t => Alike s t) s := by
      have halike : Alike s (effect (.commitLink account? user) s) := by
        refine alike_settle fun db hcommit => ?_
        obtain ⟨_, husers⟩ | ⟨hnot, _⟩ := Db.link_eq_ok hcommit
        · exact husers
        · exact absurd hnot hverified
      exact ⟨hinv.alike hs halike, fun _ _ => halike⟩
    refine hlink.bind fun _ t ht halike => hopen t ht ?_
    funext id
    exact congrArg (Option.map Account.pwdIat) (user?_congr halike.1 id)

theorem ensures_confirmLink (rawToken : String) (hs : inv s) :
    (confirmLink crypto draws rawToken).Ensures inv (Mints crypto (draws.clock 2)) s := by
  unfold confirmLink
  refine (ensures_consume hinv crypto .socialLink rawToken _ hs).bind
    fun found t ht hcurrent => ?_
  obtain ⟨token, user⟩ := found
  dsimp only at hcurrent ⊢
  refine (ensures_read _ _ ht).bind fun existing u hu ⟨hsame, _⟩ => ?_
  subst hsame
  split
  · exact ensures_pure hu nofun
  · exact ensures_link hinv crypto draws _ _ _ hu hcurrent

/-- **Every request that is no password change** leaves what is upheld, and mints an
access token only for a user who is stored with the same password change. -/
theorem ensures_request {request : Request τ} (hplain : request.changesPassword = false)
    (hs : inv s) : (request.session crypto draws).Ensures inv
      (Mints crypto (request.mintedAt draws)) s := by
  cases request with
  | register email password => exact ensures_register hinv crypto draws email password hs
  | verifyEmail rawToken password? =>
      exact ensures_verifyEmail hinv crypto draws rawToken password? hs
  | resendVerification email => exact ensures_resendVerification hinv crypto draws email _ hs
  | login email password => exact ensures_login hinv crypto draws email password hs
  | refresh rawToken => exact ensures_refresh hinv crypto draws rawToken hs
  | logout rawToken =>
      show Ensures inv _ (logout crypto draws rawToken : Session (Response τ)) s
      unfold logout revokeRefreshToken
      refine Ensures.bind ((ensures_calm hinv rfl hs).bind fun _ t ht _ => ensures_pure ht trivial)
        fun _ t ht (_ : True) => ensures_pure ht nofun
  | forgotPassword email => exact ensures_forgotPassword hinv crypto draws email _ hs
  | resetPassword rawToken password => cases hplain
  | changePassword bearer currentPassword newPassword => cases hplain
  | socialSignIn provider providerUserId =>
      exact ensures_socialSignIn hinv crypto draws provider providerUserId hs
  | requestLink email identity => exact ensures_requestLink hinv crypto draws email identity _ hs
  | confirmLink rawToken => exact ensures_confirmLink hinv crypto draws rawToken hs
  | redeem model rawToken => exact ensures_redeem hinv crypto draws model rawToken _ hs

end Requests

end Saasmint.Auth
