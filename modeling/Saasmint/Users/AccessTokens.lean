import Saasmint.Users.Accounts
import Saasmint.Users.PasswordChange

/-!
# Access tokens and password changes

An access token carries the second of the last password change its user had when it was
minted, and `JWTAuthentication` compares it with the second of the change the user has
now.  A run of requests keeps a journal of the access tokens it has answered with, each
with the number of password changes its user had seen (`Minted`).

As long as every change of a user falls in a later second than the one before
(`FindsEarlier`), a token with fewer changes carries an earlier second, and is refused;
a token with as many carries the stored second, and is accepted (`Sound`).  Two changes
in one second leave the tokens between them valid.
-/

namespace Saasmint.Auth

open Atomic Relational Auth.Session

variable {τ : Type}

/-! ## Runs -/

/-- An access token that was answered. -/
structure Minted (τ : Type) where
  token : τ
  userId : UUID
  /-- When it was made. -/
  instant : Datetime
  /-- The password changes of the user until then. -/
  changes : ℕ
deriving DecidableEq

structure Journal (τ : Type) where
  state : State
  minted : List (Minted τ)

/-- Nothing is cached, and no token has been minted. -/
def Journal.start (db : Db) : Journal τ := ⟨.start db fun _ => none, []⟩

/-- What happens, one thing after another: requests, authentications by a bearer token,
and snapshots that leave the cache. -/
inductive Visit (τ : Type)
  | serve (request : Request τ) (draws : Draws)
  | authenticate (token : τ) (now : Datetime)
  | evict (key : String)

/-- The tokens that an answer adds to the journal. -/
def mintedBy (instant : Datetime) (s : State) : Except AuthError (Response τ) → List (Minted τ)
  | .ok (.tokens user access _) => [⟨access, user.id, instant, s.changes user.id⟩]
  | _ => []

def Visit.after (crypto : Crypto τ) (journal : Journal τ) : Visit τ → Journal τ
  | .serve request draws =>
      let (answer, s) := Fallible.exec (request.session crypto draws) journal.state
      ⟨s, mintedBy (request.mintedAt draws) s answer ++ journal.minted⟩
  | .authenticate token now =>
      { journal with
        state := (Fallible.exec (Session.authenticate crypto token now) journal.state).2 }
  | .evict key => { journal with state := effect (.cacheDelete key) journal.state }

/-- A save that stamps `password_changed_at` finds an earlier second stored. -/
def FindsEarlier : Query → State → Prop
  | .saveUser user (some fields), s => .passwordChangedAt ∈ fields →
      ∀ pwdIat ∈ s.pwdIat? user.id, pwdIat < user.pwdIat
  | _, _ => True

instance (q : Query) (s : State) : Decidable (FindsEarlier q s) := by
  apply @Query.casesOn (fun q => Decidable (FindsEarlier q s)) q
  case saveUser =>
    intro user fields?
    apply @Option.casesOn _ (fun fields? => Decidable (FindsEarlier (.saveUser user fields?) s))
      fields?
    all_goals intros; unfold FindsEarlier; infer_instance
  all_goals intros; unfold FindsEarlier; infer_instance

/-- Every statement of a visit that stamps finds an earlier second. -/
def Visit.FindsEarlier (crypto : Crypto τ) (journal : Journal τ) : Visit τ → Prop
  | .serve request draws =>
      ∀ entry ∈ Fallible.trace (request.session crypto draws) journal.state,
        Auth.FindsEarlier entry.1 entry.2
  | _ => True

instance (crypto : Crypto τ) (journal : Journal τ) (visit : Visit τ) :
    Decidable (visit.FindsEarlier crypto journal) := by
  cases visit <;> unfold Visit.FindsEarlier <;> infer_instance

/-! ## What holds of the journal -/

/-- The token was made for a user whose password changes were as many as recorded; it
carries the stored second exactly if there have been no more. -/
def Minted.Dated (crypto : Crypto τ) (minted : Minted τ) (s : State) : Prop :=
  ∃ user pwdIat, minted.token = createAccessToken crypto user minted.instant ∧
    user.id = minted.userId ∧ s.pwdIat? minted.userId = some pwdIat ∧
    minted.changes ≤ s.changes minted.userId ∧
    (minted.changes = s.changes minted.userId → user.pwdIat = pwdIat) ∧
    (minted.changes < s.changes minted.userId → user.pwdIat < pwdIat)

/-- The cached snapshots are the stored rows, and the minted tokens are dated. -/
structure Sound (crypto : Crypto τ) (minted : List (Minted τ)) (s : State) : Prop where
  fresh : ∀ id user, s.cache (authUserCacheKey (uuidText id)) = some user →
    s.db.activeUser? id = some user
  dated : ∀ m ∈ minted, m.Dated crypto s

theorem activeUser?_congr {db db' : Db} {id : UUID} (h : db'.user? id = db.user? id) :
    db'.activeUser? id = db.activeUser? id := by
  unfold Db.activeUser?
  rw [h]

section Upheld

variable {crypto : Crypto τ} {minted : List (Minted τ)} {s t : State}

theorem Minted.Dated.of_same {m : Minted τ} (h : m.Dated crypto s)
    (hpwd : t.pwdIat? m.userId = s.pwdIat? m.userId)
    (hchanges : t.changes m.userId = s.changes m.userId) : m.Dated crypto t := by
  unfold Minted.Dated at h ⊢
  rwa [hpwd, hchanges]

/-- A snapshot that is still cached after one has been dropped is of another user. -/
theorem cache_drop_eq_some {id id' : UUID} {user : Account}
    (h : (s.drop id).cache (authUserCacheKey (uuidText id')) = some user) :
    id' ≠ id ∧ s.cache (authUserCacheKey (uuidText id')) = some user := by
  change Function.update s.cache (authUserCacheKey (uuidText id)) none
    (authUserCacheKey (uuidText id')) = some user at h
  by_cases hid : id' = id
  · rw [hid, Function.update_self] at h
    cases h
  · have hkey : authUserCacheKey (uuidText id') ≠ authUserCacheKey (uuidText id) :=
      fun hsame => hid (uuidText_inj (authUserCacheKey_inj hsame))
    rw [Function.update_of_ne hkey] at h
    exact ⟨hid, h⟩

theorem upheld_sound : Upheld (Sound crypto minted) where
  alike := by
    intro s t h ⟨husers, hcache, hchanges⟩
    refine ⟨fun id user hcached => ?_, fun m hm => ?_⟩
    · rw [hcache] at hcached
      rw [activeUser?_congr (user?_congr husers id)]
      exact h.fresh id user hcached
    · refine (h.dated m hm).of_same ?_ (by rw [hchanges])
      rw [State.pwdIat?, user?_congr husers]
      rfl
  drop := by
    intro s id h
    exact ⟨fun id' user hcached => h.fresh id' user (cache_drop_eq_some hcached).2, h.dated⟩
  fill := by
    intro s sub id user h hparse hstored
    refine ⟨fun id' user' hcached => ?_, h.dated⟩
    dsimp only at hcached
    by_cases hkey : authUserCacheKey (uuidText id') = authUserCacheKey sub
    · -- the key is that of one user only
      rw [hkey, Function.update_self] at hcached
      rw [← authUserCacheKey_inj hkey, parseUserId, parseUuid_uuidText] at hparse
      rw [Except.ok.inj hparse, hstored]
      exact hcached
    · rw [Function.update_of_ne hkey] at hcached
      exact h.fresh id' user' hcached
  save := by
    intro s db user fields h hfields hsave
    have hpwd := pwdIat?_unstamped (s := s) (t := { s with db }) hsave hfields
    refine ⟨fun id cached hcached => ?_, fun m hm => ?_⟩
    · obtain ⟨hid, hcached⟩ := cache_drop_eq_some hcached
      have huser := Db.user?_saveUser hsave id
      rw [if_neg hid] at huser
      exact (activeUser?_congr huser).trans (h.fresh id cached hcached)
    · exact (h.dated m hm).of_same (congrFun hpwd m.userId) rfl
  insert := by
    intro s db user h hinsert
    obtain ⟨hnone, huser⟩ := Db.user?_insertUser hinsert
    refine ⟨fun id cached hcached => ?_, fun m hm => ?_⟩
    · obtain ⟨hid, hcached⟩ := cache_drop_eq_some hcached
      have hsame := huser id
      rw [if_neg hid] at hsame
      exact (activeUser?_congr hsame).trans (h.fresh id cached hcached)
    · refine (h.dated m hm).of_same ?_ rfl
      obtain ⟨_, pwdIat, _, _, hstored, _⟩ := h.dated m hm
      have hid : m.userId ≠ user.id := by
        intro hsame
        rw [State.pwdIat?, hsame, hnone] at hstored
        cases hstored
      have hsame := huser m.userId
      rw [if_neg hid] at hsame
      exact congrArg (Option.map Account.pwdIat) hsame

/-- Requests that stamp nothing leave the record of changes alone. -/
theorem upheld_changes (changes : UUID → ℕ) : Upheld fun s => s.changes = changes where
  alike h halike := halike.2.2.trans h
  drop _ h := h
  fill h _ _ := h
  save h _ _ := h
  insert h _ := h

/-- The state after a save that stamps, and the signal. -/
def State.stamp (s : State) (db : Db) (id : UUID) : State :=
  State.drop { s with db, changes := Function.update s.changes id (s.changes id + 1) } id

/-- A change in a later second leaves every token dated. -/
theorem Sound.stamp (h : Sound crypto minted s) {user : Account} {fields : List UserField} {db : Db}
    (hsave : s.db.saveUser user (some fields) = .ok db) (hfield : .passwordChangedAt ∈ fields)
    (hfinds : FindsEarlier (.saveUser user (some fields)) s) :
    Sound crypto minted (s.stamp db user.id) := by
  refine ⟨fun id cached hcached => ?_, fun m hm => ?_⟩
  · obtain ⟨hid, hcached⟩ := cache_drop_eq_some hcached
    have huser := Db.user?_saveUser hsave id
    rw [if_neg hid] at huser
    exact (activeUser?_congr huser).trans (h.fresh id cached hcached)
  · have hpwd := pwdIat?_saved (s := s) (t := { s with db }) hsave m.userId
    by_cases hid : m.userId = user.id
    · obtain ⟨owner, pwdIat, htoken, howner, hstored, hle, hsame, hless⟩ := h.dated m hm
      rw [if_pos ⟨hid, hfield⟩] at hpwd
      have hlater : pwdIat < user.pwdIat := hfinds hfield pwdIat (hid ▸ hstored)
      have hchanges : (s.stamp db user.id).changes m.userId = s.changes m.userId + 1 := by
        simp [State.stamp, State.drop, hid]
      refine ⟨owner, user.pwdIat, htoken, howner, hpwd, ?_, ?_, ?_⟩
      · rw [hchanges]
        omega
      · rw [hchanges]
        omega
      · intro _
        rcases Nat.lt_or_eq_of_le hle with hlt | heq
        · exact (hless hlt).trans hlater
        · exact (hsame heq).trans_lt hlater
    · rw [if_neg fun hboth => hid hboth.1] at hpwd
      exact (h.dated m hm).of_same hpwd (Function.update_of_ne hid _ _)

end Upheld

/-! ## Password changes -/

section Changes

variable {α β : Type} {crypto : Crypto τ} {inv : State → Prop} {cond : Query → State → Prop}
  {s : State}

/-- What follows a first part that stamps nothing. -/
theorem Session.Ensures.bindIf {mid : α → State → Prop} {post : Except AuthError β → State → Prop}
    {p : Session α} {rest : α → Session β} (h : p.Ensures inv mid s)
    (herror : ∀ e t, inv t → post (.error e) t)
    (hrest : ∀ a t, inv t → mid a t → (rest a).EndsIf cond post t) :
    (p >>= rest).EndsIf cond post s := by
  refine Fallible.EndsIf.bind (Fallible.Ends.endsIf (Fallible.Ends.mono h ?_))
  intro result t ⟨ht, hmid⟩
  cases result with
  | ok a => exact hrest a t ht (hmid a rfl)
  | error e => exact herror e t ht

/-- A save that stamps either fails and changes nothing, or stamps. -/
theorem endsIf_saveUser {user : Account} {fields : List UserField}
    {post : Except AuthError Unit → State → Prop} (hfield : .passwordChangedAt ∈ fields)
    (herror : ∀ e, post (.error e) s)
    (hok : ∀ db, cond (.saveUser user (some fields)) s →
      s.db.saveUser user (some fields) = .ok db → post (.ok ()) (s.stamp db user.id)) :
    (Session.saveUser user fields).EndsIf cond post s := by
  unfold Session.saveUser
  refine Fallible.EndsIf.bind (Fallible.endsIf_atomic.mpr fun hcond => ?_)
  rcases hsave : s.db.saveUser user (some fields) with e | db
  · have hquery : perform (.saveUser user (some fields)) s = (.error e, s) := by
      rw [perform, hsave]
      rfl
    rw [hquery]
    exact herror e
  · have hquery : perform (.saveUser user (some fields)) s = (.ok 1, { s with
        db
        changes := Function.update s.changes user.id (s.changes user.id + 1) }) := by
      rw [perform, hsave]
      simp [State.saving, State.changesAfter, hfield]
    rw [hquery]
    exact Fallible.Ends.endsIf (hok db hcond hsave)

/-- A new password is stored with a stamp, and what holds then is upheld. -/
theorem endsIf_setPassword (hinv : Upheld inv) (draws : Draws) (user : Account) (password : String)
    (verify : Bool) (hstamp : ∀ (changed : Account) fields db, changed.id = user.id →
      .passwordChangedAt ∈ fields → cond (.saveUser changed (some fields)) s →
      s.db.saveUser changed (some fields) = .ok db → inv (s.stamp db user.id)) :
    (setPassword crypto draws user password verify).EndsIf cond (fun result t =>
      (t = s ∨ inv t) ∧ ∀ response, result = .ok response →
        inv t ∧ Mints crypto (draws.clock 4) response t ∧
        ∃ changed access refresh, response = .tokens changed access refresh ∧
          changed.id = user.id) s := by
  unfold setPassword
  dsimp only
  generalize hchanged : Account.mk user.id user.email (crypto.makePassword draws.salt password)
    user.isActive (user.isVerified || verify) (some (draws.clock 1)) = changed
  have hid : changed.id = user.id := by rw [← hchanged]
  generalize hfields : (if (verify && !user.isVerified) = true
    then [UserField.password, .passwordChangedAt, .isVerified]
    else [UserField.password, .passwordChangedAt]) = fields
  have hfield : UserField.passwordChangedAt ∈ fields := by
    rw [← hfields]
    split <;> decide
  refine Fallible.EndsIf.bind (endsIf_saveUser hfield (fun e => ⟨Or.inl rfl, nofun⟩)
    fun db hcond hsave => ?_)
  have hstamped : inv (s.stamp db changed.id) := by
    rw [hid]
    exact hstamp changed fields db hid hfield hcond hsave
  -- the stored row has the new stamp from here on
  have hcurrent : Current changed (s.stamp db changed.id) := by
    have hpwd := pwdIat?_saved (s := s) (t := s.stamp db changed.id) hsave changed.id
    rwa [if_pos ⟨rfl, hfield⟩] at hpwd
  have hrevoke : (revokeAllRefreshTokens changed (draws.clock 2)).Ensures inv
      (fun _ t => Alike (s.stamp db changed.id) t) (s.stamp db changed.id) := by
    unfold revokeAllRefreshTokens
    exact (ensures_calm hinv rfl hstamped).bind fun _ t ht halike => ensures_pure ht halike
  refine hrevoke.bindIf (fun e t ht => ⟨Or.inr ht, nofun⟩) fun _ t ht halike => ?_
  have hopen : (openSession crypto draws changed (draws.clock 3) (draws.clock 4)).Ensures inv
      (fun response u => Mints crypto (draws.clock 4) response u ∧
        ∃ changed access refresh, response = .tokens changed access refresh ∧
          changed.id = user.id) t := by
    unfold openSession
    refine (ensures_createRefreshToken hinv crypto draws changed _ .login ht).bind
      fun refresh u hu halike' => ensures_pure hu ⟨?_, changed, _, refresh, rfl, hid⟩
    intro answered access raw hresponse
    cases hresponse
    exact ⟨rfl, (hcurrent.alike halike).alike halike'⟩
  refine Fallible.Ends.endsIf (Fallible.Ends.mono hopen fun result u ⟨hu, hpost⟩ => ?_)
  exact ⟨Or.inr hu, fun response hresponse => ⟨hu, hpost response hresponse⟩⟩

/-- What a password change or reset does before it sets the password stamps nothing. -/
theorem endsIf_change (hinv : Upheld inv) (hs : inv s) (draws : Draws) {request : Request τ}
    (hchanges : request.changesPassword = true) {post : Except AuthError (Response τ) → State → Prop}
    (herror : ∀ e t, inv t → post (.error e) t)
    (hset : ∀ user password verify t, inv t →
      (setPassword crypto draws user password verify).EndsIf cond post t) :
    (request.session crypto draws).EndsIf cond post s := by
  cases request with
  | resetPassword rawToken password =>
      exact (ensures_consume hinv crypto .passwordReset rawToken _ hs).bindIf herror
        fun found t ht _ => hset _ _ _ t ht
  | changePassword bearer currentPassword newPassword =>
      refine (ensures_authenticate hinv crypto bearer _ hs).bindIf herror fun user t ht _ => ?_
      refine (ensures_checkPassword hinv crypto draws user currentPassword ht).bindIf herror
        fun checked? u hu _ => ?_
      cases checked? with
      | none => exact Fallible.Ends.endsIf (herror _ u hu)
      | some checked => exact hset _ _ _ u hu
  | _ => cases hchanges

/-- A request whose stamps fall in later seconds leaves the journal sound, and mints for a
user who is stored with the same password change. -/
theorem endsIf_request {minted : List (Minted τ)} (hs : Sound crypto minted s) (draws : Draws)
    (request : Request τ) : (request.session crypto draws).EndsIf FindsEarlier (fun result t =>
      Sound crypto minted t ∧ ∀ response, result = .ok response →
        Mints crypto (request.mintedAt draws) response t) s := by
  cases hchanges : request.changesPassword with
  | false => exact Fallible.Ends.endsIf (ensures_request upheld_sound crypto draws hchanges hs)
  | true =>
      have hinstant : request.mintedAt draws = draws.clock 4 := by
        cases request with
        | resetPassword rawToken password => rfl
        | changePassword bearer currentPassword newPassword => rfl
        | _ => cases hchanges
      rw [hinstant]
      refine endsIf_change upheld_sound hs draws hchanges (fun e t ht => ⟨ht, nofun⟩)
        fun user password verify t ht => ?_
      have hstamp : ∀ (changed : Account) fields db, changed.id = user.id →
          .passwordChangedAt ∈ fields → FindsEarlier (.saveUser changed (some fields)) t →
          t.db.saveUser changed (some fields) = .ok db →
          Sound crypto minted (t.stamp db user.id) := by
        intro changed fields db hid hfield hfinds hsave
        rw [← hid]
        exact ht.stamp hsave hfield hfinds
      refine (endsIf_setPassword upheld_sound draws user password verify hstamp).mono
        fun result u ⟨hu, hanswer⟩ => ⟨?_, fun response hresponse => (hanswer response hresponse).2.1⟩
      rcases hu with rfl | hu
      · exact ht
      · exact hu

/-- **The record counts password changes**: a change or reset that is answered counts for
its user, and no other request counts. -/
theorem changes_request (crypto : Crypto τ) (s : State) (draws : Draws) (request : Request τ) :
    (request.session crypto draws).Ends (fun result t =>
      (request.changesPassword = false → t.changes = s.changes) ∧
      (request.changesPassword = true → ∀ user access refresh,
        result = .ok (.tokens user access refresh) →
          t.changes = Function.update s.changes user.id (s.changes user.id + 1))) s := by
  cases hchanges : request.changesPassword with
  | false =>
      have hkept : (request.session crypto draws).Ensures (fun t => t.changes = s.changes)
          (Mints crypto (request.mintedAt draws)) s :=
        ensures_request (upheld_changes s.changes) crypto draws hchanges rfl
      exact Fallible.Ends.mono hkept fun result t ⟨ht, _⟩ => ⟨fun _ => ht, nofun⟩
  | true =>
      have hends : (request.session crypto draws).EndsIf (fun _ _ => True) (fun result t =>
          ∀ user access refresh, result = .ok (.tokens user access refresh) →
            t.changes = Function.update s.changes user.id (s.changes user.id + 1)) s := by
        refine endsIf_change (upheld_changes s.changes) rfl draws hchanges (fun e t _ => nofun)
          fun user password verify t ht => ?_
        refine (endsIf_setPassword (upheld_changes (Function.update s.changes user.id
          (s.changes user.id + 1))) draws user password verify ?_).mono fun result u hu => ?_
        · intro changed fields db _ _ _ _
          rw [← ht]
          rfl
        · intro answered access refresh hresult
          obtain ⟨hcounted, _, changed, _, _, hresponse, hid⟩ := hu.2 _ hresult
          cases hresponse
          rw [hid]
          exact hcounted
      exact (hends.ends fun _ _ => trivial).mono fun result t ht => ⟨nofun, fun _ => ht⟩

end Changes

/-! ## Runs -/

section Runs

variable {crypto : Crypto τ} {journal : Journal τ}

theorem mem_mintedBy {instant : Datetime} {s : State} {answer : Except AuthError (Response τ)}
    {m : Minted τ} (h : m ∈ mintedBy instant s answer) : ∃ user access refresh,
      answer = .ok (.tokens user access refresh) ∧
        m = ⟨access, user.id, instant, s.changes user.id⟩ := by
  unfold mintedBy at h
  split at h
  next user access refresh => exact ⟨user, access, refresh, rfl, List.mem_singleton.mp h⟩
  next => cases h

/-- Every visit whose stamps fall in later seconds leaves the journal sound. -/
theorem Sound.visit (h : Sound crypto journal.minted journal.state) {visit : Visit τ}
    (hfinds : visit.FindsEarlier crypto journal) :
    Sound crypto (visit.after crypto journal).minted (visit.after crypto journal).state := by
  cases visit with
  | serve request draws =>
      obtain ⟨hsound, hmints⟩ := (endsIf_request h draws request).ends hfinds
      refine ⟨hsound.fresh, fun m hm => ?_⟩
      rcases List.mem_append.mp hm with hnew | hold
      · obtain ⟨user, access, refresh, hanswer, rfl⟩ := mem_mintedBy hnew
        obtain ⟨haccess, hcurrent⟩ := hmints _ hanswer user access refresh rfl
        exact ⟨user, user.pwdIat, haccess, rfl, hcurrent, Nat.le_refl _, fun _ => rfl,
          fun hlt => absurd hlt (Nat.lt_irrefl _)⟩
      · exact hsound.dated m hold
  | authenticate token now =>
      exact (ensures_authenticate upheld_sound crypto token now h).1
  | evict key =>
      refine ⟨fun id user hcached => h.fresh id user ?_, h.dated⟩
      change Function.update journal.state.cache key none _ = some user at hcached
      by_cases hkey : authUserCacheKey (uuidText id) = key
      · rw [hkey, Function.update_self] at hcached
        cases hcached
      · rwa [Function.update_of_ne hkey] at hcached

theorem sound_run {visits : List (Visit τ)} (h : Sound crypto journal.minted journal.state)
    (hfinds : Runs.Steps (Visit.after crypto) (fun journal visit =>
      visit.FindsEarlier crypto journal) journal visits) :
    Sound crypto (Runs.run (Visit.after crypto) journal visits).minted
      (Runs.run (Visit.after crypto) journal visits).state := by
  induction visits generalizing journal with
  | nil => exact h
  | cons visit visits ih =>
      obtain ⟨hhere, hrest⟩ := Runs.steps_cons.mp hfinds
      exact ih (h.visit hhere) hrest

end Runs

/-! ## Presenting a token -/

section Presenting

variable {crypto : Crypto τ} {s : State}

/-- When an access token made at an instant expires. -/
def expiry (instant : Datetime) : Datetime := numericDate (instant + accessTokenLifetime) * 1000000

/-- The claims of an access token, as they are decoded. -/
def claims (user : Account) (instant : Datetime) : List (String × Json) :=
  [("sub", .str (uuidText user.id)), ("email", .str user.email), ("type", .str "access"),
    ("iat", .int (numericDate instant)), ("exp", .int (numericDate (instant + accessTokenLifetime))),
    ("pwd_iat", .int user.pwdIat)]

theorem uuidText_ne_empty (id : UUID) : uuidText id ≠ "" := by
  intro hempty
  have hmem : '-' ∈ (uuidText id).toList := by simp [uuidText, hyphenated]
  rw [hempty] at hmem
  exact List.not_mem_nil hmem

/-- An access token is decoded to its claims, unless it is from the future or expired. -/
theorem subject_createAccessToken (hdecodes : crypto.Decodes) (user : Account)
    (instant now : Datetime) : subject crypto now (createAccessToken crypto user instant) =
      if now < numericDate instant * 1000000 then
        .error (.authenticationFailed "Invalid token." "invalid_token")
      else if expiry instant ≤ now then
        .error (.authenticationFailed "Token has expired." "token_expired")
      else .ok (uuidText user.id, claims user instant) := by
  unfold subject createAccessToken expiry
  rw [hdecodes, Payload.decoded]
  dsimp only
  by_cases hfuture : now < numericDate instant * 1000000
  · rw [if_pos hfuture, if_pos hfuture]
  rw [if_neg hfuture, if_neg hfuture]
  by_cases hexpired : numericDate (instant + accessTokenLifetime) * 1000000 ≤ now
  · rw [if_pos hexpired, if_pos hexpired]
  · rw [if_neg hexpired, if_neg hexpired]
    simp [claims, List.lookup_cons, Json.isStr, uuidText_ne_empty]

/-- The user of a key, from the cache or not, is the stored row of an active user. -/
theorem authUser_answers (hfresh : ∀ id user, s.cache (authUserCacheKey (uuidText id)) = some user →
    s.db.activeUser? id = some user) (id : UUID) :
    (Fallible.exec (authUser (uuidText id)) s).1 = match s.db.activeUser? id with
      | some row => .ok row
      | none => .error (.authenticationFailed "User not found." "user_not_found") := by
  unfold authUser Session.read query
  rw [Fallible.exec_bind, Fallible.exec_observe, Fallible.resume_ok]
  cases hcached : s.cache (authUserCacheKey (uuidText id)) with
  | some user =>
      rw [hfresh id user hcached]
      rfl
  | none =>
      have hparse : parseUserId (uuidText id) = .ok id := by
        rw [parseUserId, parseUuid_uuidText]
      dsimp only
      rw [Fallible.exec_bind, Fallible.exec_ofExcept, hparse, Fallible.resume_ok,
        Fallible.exec_bind, Fallible.exec_observe, Fallible.resume_ok]
      cases s.db.activeUser? id with
      | none => rfl
      | some row => rfl

/-- An access token of its time is decided by the stored row. -/
theorem authenticate_answers (hdecodes : crypto.Decodes)
    (hfresh : ∀ id user, s.cache (authUserCacheKey (uuidText id)) = some user →
      s.db.activeUser? id = some user) (user : Account) {instant now : Datetime}
    (hmade : ¬ now < numericDate instant * 1000000) (hexpiry : ¬ expiry instant ≤ now) :
    (Fallible.exec (Session.authenticate crypto (createAccessToken crypto user instant) now) s).1 =
      match s.db.activeUser? user.id with
      | some row => if user.pwdIat < row.pwdIat
          then .error (.authenticationFailed "Token invalidated." "token_revoked") else .ok row
      | none => .error (.authenticationFailed "User not found." "user_not_found") := by
  unfold Session.authenticate
  rw [Fallible.exec_bind, Fallible.exec_ofExcept, subject_createAccessToken hdecodes,
    if_neg hmade, if_neg hexpiry, Fallible.resume_ok]
  dsimp only
  rw [Fallible.exec_bind]
  have hanswers := authUser_answers hfresh user.id
  rcases hexec : Fallible.exec (authUser (uuidText user.id)) s with ⟨e | row, t⟩
  · rw [hexec] at hanswers
    rw [Fallible.resume_error]
    cases hrow : s.db.activeUser? user.id with
    | none => rw [hrow] at hanswers; exact hanswers
    | some row => rw [hrow] at hanswers; cases hanswers
  · rw [hexec] at hanswers
    rw [Fallible.resume_ok, Fallible.exec_ofExcept]
    cases hrow : s.db.activeUser? user.id with
    | none => rw [hrow] at hanswers; cases hanswers
    | some stored =>
        rw [hrow] at hanswers
        obtain rfl := Except.ok.inj hanswers
        simp [checkPwdIat, claims, List.lookup_cons, Json.asInt?]

/-- The request is answered with a 401. -/
def Refused (crypto : Crypto τ) (token : τ) (now : Datetime) (s : State) : Prop :=
  ∃ detail code, (Fallible.exec (Session.authenticate crypto token now) s).1 =
    .error (.authenticationFailed detail code)

/-- A token that carries an earlier second than the stored one is refused. -/
theorem refused_of_lt (hdecodes : crypto.Decodes)
    (hfresh : ∀ id user, s.cache (authUserCacheKey (uuidText id)) = some user →
      s.db.activeUser? id = some user) {user : Account} {pwdIat : Int}
    (hstored : s.pwdIat? user.id = some pwdIat) (hlt : user.pwdIat < pwdIat)
    (instant now : Datetime) : Refused crypto (createAccessToken crypto user instant) now s := by
  have hsubject := subject_createAccessToken hdecodes user instant now
  by_cases hfuture : now < numericDate instant * 1000000
  · rw [if_pos hfuture] at hsubject
    refine ⟨"Invalid token.", "invalid_token", ?_⟩
    unfold Session.authenticate
    rw [Fallible.exec_bind, Fallible.exec_ofExcept, hsubject, Fallible.resume_error]
  by_cases hexpired : expiry instant ≤ now
  · rw [if_neg hfuture, if_pos hexpired] at hsubject
    refine ⟨"Token has expired.", "token_expired", ?_⟩
    unfold Session.authenticate
    rw [Fallible.exec_bind, Fallible.exec_ofExcept, hsubject, Fallible.resume_error]
  have hanswers := authenticate_answers hdecodes hfresh user hfuture hexpired
  cases hrow : s.db.activeUser? user.id with
  | none =>
      rw [hrow] at hanswers
      exact ⟨_, _, hanswers⟩
  | some row =>
      have hpwd : row.pwdIat = pwdIat := by
        have huser := (Option.filter_eq_some_iff.mp hrow).1
        rw [State.pwdIat?, huser] at hstored
        exact Option.some.inj hstored
      rw [hrow] at hanswers
      dsimp only at hanswers
      rw [if_pos (hpwd ▸ hlt)] at hanswers
      exact ⟨_, _, hanswers⟩

/-- **Access tokens die with the password**, in every state of every run of requests in
which each password change of a user falls in a later second than the one before.  A
token that was minted before a change is refused at every time; one that was minted
after the last change is accepted, of an active user and at its time.  What counts as a
change is a password change or a reset that was answered. -/
theorem access_tokens_die_with_password (hdecodes : crypto.Decodes) (db : Db)
    {visits : List (Visit τ)}
    (hfinds : Runs.Steps (Visit.after crypto) (fun journal visit =>
      visit.FindsEarlier crypto journal) (.start db) visits) :
    (∀ m ∈ (Runs.run (Visit.after crypto) (.start db) visits).minted,
      m.changes < (Runs.run (Visit.after crypto) (.start db) visits).state.changes m.userId →
      ∀ now, Refused crypto m.token now
        (Runs.run (Visit.after crypto) (.start db) visits).state) ∧
    (∀ m ∈ (Runs.run (Visit.after crypto) (.start db) visits).minted,
      m.changes = (Runs.run (Visit.after crypto) (.start db) visits).state.changes m.userId →
      ∀ now, m.instant ≤ now → now < expiry m.instant → ∀ user,
        (Runs.run (Visit.after crypto) (.start db) visits).state.db.activeUser? m.userId =
          some user →
        (Fallible.exec (Session.authenticate crypto m.token now)
          (Runs.run (Visit.after crypto) (.start db) visits).state).1 = .ok user) ∧
    ∀ (draws : Draws) (request : Request τ), request.changesPassword = true →
      ∀ user access refresh s, Fallible.exec (request.session crypto draws)
          (Runs.run (Visit.after crypto) (.start db) visits).state =
            (.ok (.tokens user access refresh), s) →
        s.changes user.id =
          (Runs.run (Visit.after crypto) (.start db) visits).state.changes user.id + 1 := by
  have hstart : Sound crypto (Journal.start db : Journal τ).minted
      (Journal.start db : Journal τ).state := ⟨fun _ _ => nofun, fun _ => nofun⟩
  have hsound := sound_run hstart hfinds
  refine ⟨fun m hm hless now => ?_, fun m hm hsame now hmade hexpiry user huser => ?_,
    fun draws request hchanges user access refresh s hexec => ?_⟩
  · obtain ⟨owner, pwdIat, htoken, howner, hstored, _, _, hlt⟩ := hsound.dated m hm
    rw [htoken]
    exact refused_of_lt hdecodes hsound.fresh (howner ▸ hstored) (hlt hless) m.instant now
  · obtain ⟨owner, pwdIat, htoken, howner, hstored, _, heq, _⟩ := hsound.dated m hm
    have hpast : ¬ now < numericDate m.instant * 1000000 := by
      have hfloor : numericDate m.instant * 1000000 ≤ m.instant :=
        Int.ediv_mul_le m.instant (by decide)
      exact Int.not_lt.mpr (hfloor.trans hmade)
    have hanswers := authenticate_answers hdecodes hsound.fresh owner hpast
      (Int.not_le.mpr hexpiry)
    rw [howner, huser] at hanswers
    have hpwd : user.pwdIat = pwdIat := by
      have hfound := (Option.filter_eq_some_iff.mp huser).1
      rw [State.pwdIat?, hfound] at hstored
      exact Option.some.inj hstored
    have hnot : ¬ owner.pwdIat < user.pwdIat := by
      rw [heq hsame, hpwd]
      exact Int.lt_irrefl _
    dsimp only at hanswers
    rw [if_neg hnot] at hanswers
    rw [htoken]
    exact hanswers
  · have hcounts := (changes_request crypto (Runs.run (Visit.after crypto) (.start db) visits).state
      draws request).2 hchanges user access refresh
    rw [hexec] at hcounts
    have hcounted := congrFun (hcounts rfl) user.id
    rwa [Function.update_self] at hcounted

end Presenting

/-! ## Two changes -/

/-- The user after a second change, at an instant. -/
def twiceChangedAlice (instant : Datetime) : Account :=
  { alice with password := "hash:newer", passwordChangedAt := some instant }

/-- A token of the user between the changes. -/
def bearerBetween : Payload := createAccessToken sampleCrypto changedAlice 1700000000000001

/-- The user changes the password, and again at an instant. -/
def changeTwice (instant : Datetime) : List (Visit Payload) :=
  [.serve (.changePassword aliceBearer "secret" "new") (sampleDraws 1),
    .serve (.changePassword bearerBetween "new" "newer")
      { sampleDraws 2 with clock := fun _ => instant }]

/-- A second later. -/
theorem access_tokens_die_with_password_twice :
    Refused sampleCrypto bearerBetween 1700000001000009 (Runs.run (Visit.after sampleCrypto)
        (.start sampleDb) (changeTwice 1700000001000000)).state ∧
      (Fallible.exec (Session.authenticate sampleCrypto
          (createAccessToken sampleCrypto (twiceChangedAlice 1700000001000000) 1700000001000000)
          1700000001000009) (Runs.run (Visit.after sampleCrypto) (.start sampleDb)
            (changeTwice 1700000001000000)).state).1 = .ok (twiceChangedAlice 1700000001000000) := by
  have hdecodes : sampleCrypto.Decodes := fun payload now => rfl
  have hlater : Runs.Steps (Visit.after sampleCrypto) (fun journal visit =>
      visit.FindsEarlier sampleCrypto journal) (.start sampleDb) (changeTwice 1700000001000000) := by
    decide +kernel
  obtain ⟨hrefused, haccepted, _⟩ := access_tokens_die_with_password hdecodes sampleDb hlater
  constructor
  · exact hrefused ⟨bearerBetween, alice.id, 1700000000000001, 1⟩ (by decide +kernel)
      (by decide +kernel) _
  · exact haccepted ⟨createAccessToken sampleCrypto (twiceChangedAlice 1700000001000000)
      1700000001000000, alice.id, 1700000001000000, 2⟩ (by decide +kernel) (by decide +kernel) _
      (by decide) (by decide) _ (by decide +kernel)

/-- Within one second, the token between the changes is accepted after both. -/
theorem access_token_survives_password_change :
    ∃ m ∈ (Runs.run (Visit.after sampleCrypto) (.start sampleDb)
        (changeTwice 1700000000000002)).minted,
      m.changes < (Runs.run (Visit.after sampleCrypto) (.start sampleDb)
        (changeTwice 1700000000000002)).state.changes m.userId ∧
      (Fallible.exec (Session.authenticate sampleCrypto m.token 1700000000000003)
        (Runs.run (Visit.after sampleCrypto) (.start sampleDb)
          (changeTwice 1700000000000002)).state).1 = .ok (twiceChangedAlice 1700000000000002) := by
  decide +kernel

end Saasmint.Auth
