import Saasmint.Users.Requests

/-!
# What an auth request may do

A request remembers what it has read and done: its `Memory`.  `Permits` says which query
it may make next: it revokes by key only the token it has read unrevoked, inserts as a
successor only the successor of the token it has just revoked, uses only the one-time
token that was presented to it, withdraws pending tokens only when none was, and caches
a user only under the user's own key.

Every request keeps this discipline whatever its queries find (`obeys_request`), and when
it succeeds it has done what `Kept` lists.  All that is said about requests that run
among each other follows from these two facts.
-/

namespace Saasmint.Auth

open Atomic Relational Auth.Session

variable {τ : Type}

/-! ## Memories -/

structure Memory where
  /-- The one-time token that is presented. -/
  presents : Option (OneTimeModel × String)
  /-- Whether rows may be deleted. -/
  maintains : Bool
  /-- The unrevoked refresh token that was read, before it is revoked. -/
  read : Option Found
  /-- The refresh token that has been revoked, before its successor is inserted. -/
  spent : Option Found
  /-- The refresh token whose successor has been inserted. -/
  replaced : Option Found
  /-- The one-time token that was read. -/
  looked : (model : OneTimeModel) → Option (OneTimeToken model)
  /-- The one-time token that has been used, as it is stored then. -/
  redeemed : (model : OneTimeModel) → Option (OneTimeToken model)
  /-- The user whose refresh tokens have been revoked by a password change. -/
  closed : Option UUID

namespace Memory

def start (presents : Option (OneTimeModel × String)) (maintains : Bool) : Memory where
  presents
  maintains
  read := none
  spent := none
  replaced := none
  looked _ := none
  redeemed _ := none
  closed := none

/-- The refresh token the request has revoked. -/
def taken (mem : Memory) : Option Found := mem.spent <|> mem.replaced

/-- What is remembered after a query that finds `s`. -/
def track (mem : Memory) : Query → State → Memory
  | .selectRefreshToken tokenHash, s => { mem with
      read := (s.found? tokenHash).filter fun found => found.token.revokedAt = none }
  | .selectOneTimeToken model tokenHash, s => { mem with
      looked := Function.update mem.looked model (s.db.oneTimeToken? model tokenHash) }
  | .revokeToken _ _, _ => { mem with read := none, spent := mem.read }
  | .insertRefreshToken _ (.rotation _ _), _ => { mem with spent := none, replaced := mem.spent }
  | .useOneTimeToken model tokenHash now, s =>
      if (s.db.oneTime model).rows.any (redeemable model tokenHash now) then
        { mem with
          redeemed := Function.update mem.redeemed model
            ((mem.looked model).map fun token => { token with usedAt := some now }) }
      else mem
  | .revokeAll userId _, _ => { mem with closed := some userId }
  | _, _ => mem

/-- The queries that may be made from a memory on. -/
def Permits (mem : Memory) : Query → Prop
  | .insertRefreshToken _ (.rotation session cutoff) =>
      ∃ found, mem.spent = some found ∧ found.session = session ∧ found.cutoff = cutoff
  | .revokeToken id _ => ∃ found, mem.read = some found ∧ found.token.id = id
  | .insertOneTimeToken _ token => mem.presents = none ∧ token.usedAt = none
  | .useOneTimeToken model tokenHash _ => mem.presents = some (model, tokenHash) ∧
      ∃ token, mem.looked model = some token ∧ token.tokenHash = tokenHash
  | .invalidateOneTimeTokens _ _ _ => mem.presents = none
  | .deleteUser _ | .deleteRefreshTokens _ | .deleteOneTimeTokens _ _ => mem.maintains = true
  | .cacheSet key user => ∀ id, authUserCacheKey (uuidText id) = key → user.id = id
  | _ => True

end Memory

namespace Memory

/-- A redemption remembers no refresh token. -/
theorem track_useOneTimeToken (mem : Memory) (model : OneTimeModel) (tokenHash : String)
    (now : Datetime) (s : State) :
    (mem.track (.useOneTimeToken model tokenHash now) s).read = mem.read ∧
      (mem.track (.useOneTimeToken model tokenHash now) s).taken = mem.taken ∧
      (mem.track (.useOneTimeToken model tokenHash now) s).spent = mem.spent ∧
      (mem.track (.useOneTimeToken model tokenHash now) s).closed = mem.closed ∧
      (mem.track (.useOneTimeToken model tokenHash now) s).maintains = mem.maintains := by
  have htrack : mem.track (.useOneTimeToken model tokenHash now) s = (if _ then _ else mem) := rfl
  rw [htrack]
  split <;> exact ⟨rfl, rfl, rfl, rfl, rfl⟩

end Memory

/-- A program makes queries, and only those its memory permits. -/
def discipline : Monitor Memory Query State where
  track := Memory.track
  allow mem query action := action = effect query ∧ mem.Permits query

/-- The program keeps the discipline from a memory on, and where it succeeds its memory
and its result are in `post`. -/
def Session.Keeps {α : Type} (post : Memory → α → Prop) (p : Session α) (mem : Memory) : Prop :=
  p.Obeys discipline (fun m result => ∀ a, result = .ok a → post m a) mem

/-! ## Rules -/

/-- A query that is always permitted and of which nothing is remembered. -/
def Query.Plain (q : Query) : Prop :=
  ∀ mem : Memory, mem.Permits q ∧ ∀ s, mem.track q s = mem

section Rules

variable {α β : Type} {mem : Memory} {post : Memory → α → Prop}

theorem keeps_bind {post : Memory → β → Prop} {p : Session α} {rest : α → Session β} :
    (p >>= rest).Keeps post mem ↔ p.Keeps (fun m a => (rest a).Keeps post m) mem :=
  Fallible.heeds_bind

theorem keeps_pure {a : α} : (pure a : Session α).Keeps post mem ↔ post mem a :=
  Fallible.heeds_pure

theorem keeps_throw (e : AuthError) : (throw e : Session α).Keeps post mem :=
  Fallible.heeds_throw e

theorem keeps_ofExcept {result : Except AuthError α} (h : ∀ a, result = .ok a → post mem a) :
    Session.Keeps post (Fallible.ofExcept result) mem := h

/-- A query whose failure is handled. -/
theorem keeps_tryQuery {q : Query} {handle : AuthError → Session ℕ} {post : Memory → ℕ → Prop}
    (hq : q.Plain) (hok : ∀ count, post mem count) (herror : ∀ e, (handle e).Keeps post mem) :
    (tryCatch (query q) handle).Keeps post mem := by
  have hmem : ∀ s, discipline.track mem q s = mem := (hq mem).2
  refine Fallible.heeds_tryAtomic ⟨rfl, (hq mem).1⟩ (fun s count _ => ?_) fun s e _ => ?_
  · rw [hmem]
    exact hok count
  · rw [hmem]
    exact herror e

theorem keeps_query {q : Query} {post : Memory → ℕ → Prop} (hpermit : mem.Permits q)
    (h : ∀ s count, (perform q s).1 = .ok count → post (mem.track q s) count) :
    (query q).Keeps post mem :=
  ⟨⟨rfl, hpermit⟩, fun s => h s⟩

theorem keeps_read {q : Query} (hq : effect q = id) {f : State → α} (hpermit : mem.Permits q)
    (h : ∀ s, post (mem.track q s) (f s)) : (Session.read q f).Keeps post mem :=
  Fallible.heeds_observe ⟨hq.symm, hpermit⟩ h

theorem Session.Keeps.mono {post' : Memory → α → Prop} {p : Session α} (h : p.Keeps post mem)
    (himp : ∀ m a, post m a → post' m a) : p.Keeps post' mem :=
  Fallible.Heeds.mono h himp

theorem keeps_plain {q : Query} (hq : q.Plain) {post : Memory → ℕ → Prop}
    (h : ∀ count, post mem count) : (query q).Keeps post mem := by
  refine keeps_query (hq mem).1 fun s count _ => ?_
  rw [(hq mem).2 s]
  exact h count

theorem plain_cacheDelete (key : String) : (Query.cacheDelete key).Plain :=
  fun _ => ⟨trivial, fun _ => rfl⟩

theorem plain_saveUser (user : Account) (fields? : Option (List UserField)) :
    (Query.saveUser user fields?).Plain :=
  fun _ => ⟨trivial, fun _ => rfl⟩

theorem plain_insertUser (user : Account) : (Query.insertUser user).Plain :=
  fun _ => ⟨trivial, fun _ => rfl⟩

theorem plain_commitLink (account? : Option SocialAccount) (user : Account) :
    (Query.commitLink account? user).Plain :=
  fun _ => ⟨trivial, fun _ => rfl⟩

theorem plain_insertLogin (token : RefreshToken) : (Query.insertRefreshToken token .login).Plain :=
  fun _ => ⟨trivial, fun _ => rfl⟩

theorem plain_revokeHash (tokenHash : String) (now : Datetime) :
    (Query.revokeHash tokenHash now).Plain :=
  fun _ => ⟨trivial, fun _ => rfl⟩

theorem plain_revokeReused (userId : UUID) (now : Datetime) : (Query.revokeReused userId now).Plain :=
  fun _ => ⟨trivial, fun _ => rfl⟩

theorem keeps_select {f : State → α} (h : ∀ a, post mem a) :
    (Session.read .select f).Keeps post mem :=
  keeps_read effect_select trivial fun s => h (f s)

end Rules

/-! ## The token functions -/

section Functions

variable {α : Type} {mem : Memory} (crypto : Crypto τ) (draws : Draws)

theorem keeps_authUser {post : Memory → Account → Prop} (sub : String)
    (h : ∀ user, post mem user) : (authUser sub).Keeps post mem := by
  unfold authUser
  rw [keeps_bind]
  refine keeps_read (effect_cacheGet _) trivial fun s => ?_
  cases s.cache (authUserCacheKey sub) with
  | some user => exact keeps_pure.mpr (h user)
  | none =>
      dsimp only
      rw [keeps_bind]
      refine keeps_ofExcept fun id hparse => ?_
      rw [keeps_bind]
      refine keeps_read (effect_selectActiveUser _) trivial fun t => ?_
      cases hfound : t.db.activeUser? id with
      | none => exact keeps_throw _
      | some user =>
          have hpermit : ∀ m : Memory, m.Permits (.cacheSet (authUserCacheKey sub) user) := by
            intro m id' hkey
            rw [← authUserCacheKey_inj hkey, parseUserId, parseUuid_uuidText] at hparse
            rw [Except.ok.inj hparse]
            exact (Db.user?_eq_some.mp (Option.filter_eq_some_iff.mp hfound).1).2
          dsimp only
          rw [keeps_bind]
          exact keeps_query (hpermit _) fun u count _ => keeps_pure.mpr (h user)

theorem keeps_authenticate {post : Memory → Account → Prop} (token : τ) (now : Datetime)
    (h : ∀ user, post mem user) : (authenticate crypto token now).Keeps post mem := by
  unfold authenticate
  refine keeps_bind.mpr (keeps_ofExcept fun claims _ => ?_)
  exact keeps_bind.mpr (keeps_authUser _ fun user => keeps_ofExcept fun user' _ => h user')

theorem keeps_saveUser {post : Memory → Unit → Prop} (user : Account) (fields : List UserField)
    (h : post mem ()) : (Session.saveUser user fields).Keeps post mem := by
  unfold Session.saveUser
  refine keeps_bind.mpr (keeps_plain (plain_saveUser _ _) fun _ => ?_)
  exact keeps_bind.mpr (keeps_plain (plain_cacheDelete _) fun _ => keeps_pure.mpr h)

/-- The user of a checked password is the one that was given. -/
theorem keeps_checkPassword {post : Memory → Option Account → Prop} (user : Account) (raw : String)
    (hnone : post mem none) (hsome : ∀ checked : Account, checked.id = user.id → post mem checked) :
    (checkPassword crypto draws user raw).Keeps post mem := by
  unfold checkPassword
  split
  · split
    · exact keeps_bind.mpr (keeps_saveUser _ _ (keeps_pure.mpr (hsome _ rfl)))
    · exact keeps_pure.mpr (hsome user rfl)
  · exact keeps_pure.mpr hnone

theorem keeps_openSession {post : Memory → Response τ → Prop} (user : Account)
    (now mintedAt : Datetime) (h : ∀ access refresh, post mem (.tokens user access refresh)) :
    (openSession crypto draws user now mintedAt).Keeps post mem := by
  unfold openSession createRefreshToken
  simp only [bind_assoc, pure_bind]
  exact keeps_bind.mpr (keeps_plain (plain_insertLogin _) fun _ => keeps_pure.mpr (h _ _))

theorem keeps_revokeAll {post : Memory → Unit → Prop} (user : Account) (now : Datetime)
    (h : post { mem with closed := some user.id } ()) :
    (revokeAllRefreshTokens user now).Keeps post mem := by
  unfold revokeAllRefreshTokens
  have hpermit : mem.Permits (.revokeAll user.id now) := trivial
  exact keeps_bind.mpr (keeps_query hpermit fun s count _ => keeps_pure.mpr h)

/-- A password change has revoked the tokens of the user it answers with. -/
theorem keeps_setPassword {post : Memory → Response τ → Prop} (user : Account) (password : String)
    (verify : Bool) (h : ∀ (changed : Account) access refresh, changed.id = user.id →
      post { mem with closed := some user.id } (.tokens changed access refresh)) :
    (setPassword crypto draws user password verify).Keeps post mem := by
  unfold setPassword
  refine keeps_bind.mpr (keeps_saveUser _ _ ?_)
  refine keeps_bind.mpr (keeps_revokeAll _ _ ?_)
  exact keeps_openSession crypto draws _ _ _ fun access refresh => h _ access refresh rfl

/-- A one-time token that is consumed is the presented one, used at the instant read. -/
theorem keeps_consume {post : Memory → OneTimeToken model × Account → Prop} (rawToken : String)
    (now : Datetime) (hpresents : mem.presents = some (model, crypto.sha256 rawToken))
    (h : ∀ m token user, m.presents = mem.presents → m.redeemed model = some token →
      token.tokenHash = crypto.sha256 rawToken → token.usedAt = some now → post m (token, user)) :
    (consumeOneTimeToken crypto model rawToken now).Keeps post mem := by
  unfold consumeOneTimeToken
  refine keeps_bind.mpr (keeps_read (effect_selectOneTimeToken _ _) trivial fun s => ?_)
  cases hfound : s.db.oneTimeTokenWithUser? model (crypto.sha256 rawToken) with
  | none => exact keeps_throw _
  | some found =>
      obtain ⟨token, user⟩ := found
      have hlooked : s.db.oneTimeToken? model (crypto.sha256 rawToken) = some token := by
        unfold Db.oneTimeTokenWithUser? at hfound
        simp only [Option.bind_eq_bind, Option.bind_eq_some_iff, Option.pure_def,
          Option.some.injEq, Prod.mk.injEq] at hfound
        obtain ⟨_, hlooked, _, _, rfl, _⟩ := hfound
        exact hlooked
      have hhash := (Db.oneTimeToken?_eq_some.mp hlooked).2
      dsimp only
      split
      · exact keeps_throw _
      split
      · exact keeps_throw _
      refine keeps_bind.mpr (keeps_query ⟨hpresents, token, ?_, hhash⟩ fun t count hcount => ?_)
      · simp [Memory.track, hlooked]
      split
      · exact keeps_throw _
      next hupdated =>
        split
        · exact keeps_throw _
        · -- a row was updated, so that the memory has it
          have hany : (t.db.oneTime model).rows.any
              (redeemable model (crypto.sha256 rawToken) now) = true := by
            have hpos : 0 < (t.db.oneTime model).rows.countP
                (redeemable model (crypto.sha256 rawToken) now) := by
              have hsame : (t.db.oneTime model).rows.countP
                (redeemable model (crypto.sha256 rawToken) now) = count := Except.ok.inj hcount
              omega
            obtain ⟨row, hrow, hredeemable⟩ := List.countP_pos_iff.mp hpos
            exact List.any_eq_true.mpr ⟨row, hrow, hredeemable⟩
          refine keeps_pure.mpr (h _ _ user ?_ ?_ hhash rfl)
          · simp [Memory.track, hany]
          · simp [Memory.track, hany, hlooked]

/-- A refresh token that is rotated has been replaced. -/
theorem keeps_rotate {post : Memory → Account × String → Prop} (rawToken : String)
    (h : ∀ m found raw, m.taken = some found →
      found.token.tokenHash = crypto.sha256 rawToken → post m (found.user, raw)) :
    (rotateRefreshToken crypto draws rawToken).Keeps post mem := by
  unfold rotateRefreshToken
  rw [keeps_bind]
  refine keeps_read (effect_selectRefreshToken _) trivial fun s => ?_
  cases hfound : s.found? (crypto.sha256 rawToken) with
  | none => exact keeps_throw _
  | some found =>
      dsimp only
      by_cases hrevoked : found.token.revokedAt = none
      · rw [if_neg (not_not_intro hrevoked)]
        split
        · exact keeps_throw _
        split
        · exact keeps_throw _
        rw [keeps_bind]
        refine keeps_query ⟨found, ?_, rfl⟩ fun t count _ => ?_
        · simp [Memory.track, hfound, hrevoked]
        unfold createRefreshToken
        rw [keeps_bind, keeps_bind]
        refine keeps_query ⟨found, ?_, rfl, rfl⟩ fun t' count' _ => ?_
        · simp [Memory.track, hfound, hrevoked]
        refine keeps_pure.mpr (keeps_pure.mpr (h _ found _ ?_ (State.found?_eq_some.mp hfound).1.2))
        simp [Memory.track, Memory.taken, hfound, hrevoked]
      · rw [if_pos hrevoked]
        exact keeps_bind.mpr (keeps_plain (plain_revokeReused _ _) fun _ => keeps_throw _)

theorem keeps_createOneTimeToken {post : Memory → String → Prop} (model : OneTimeModel)
    (detail : model.Detail) (user : Account) (now : Datetime) (hpresents : mem.presents = none)
    (h : ∀ raw, post mem raw) :
    (createOneTimeToken crypto draws model detail user now).Keeps post mem := by
  unfold createOneTimeToken
  rw [keeps_bind]
  exact keeps_query ⟨hpresents, rfl⟩ fun s count _ => keeps_pure.mpr (h _)

end Functions

/-! ## Requests -/

/-- What a request that has answered has done. -/
structure Kept (crypto : Crypto τ) (draws : Draws) (request : Request τ) (response : Response τ)
    (mem : Memory) : Prop where
  /-- The presented one-time token was used, at the first instant that was read. -/
  redeemed : ∀ model tokenHash, request.presents crypto = some (model, tokenHash) →
    ∃ token, mem.redeemed model = some token ∧ token.tokenHash = tokenHash ∧
      token.usedAt = some (draws.clock 0) ∧
      ∀ rawToken, request = .redeem model rawToken → response = .redeemed model token
  /-- The presented refresh token was replaced. -/
  replaced : ∀ rawToken, request = .refresh rawToken →
    ∃ found, mem.taken = some found ∧ found.token.tokenHash = crypto.sha256 rawToken
  /-- A password change revoked the tokens of the user it answers with. -/
  closed : request.changesPassword = true →
    ∃ user access refresh, response = .tokens user access refresh ∧ mem.closed = some user.id

theorem kept_plain {crypto : Crypto τ} {draws : Draws} {request : Request τ}
    {response : Response τ} {mem : Memory} (hpresents : request.presents crypto = none)
    (hrefresh : ∀ rawToken, request ≠ .refresh rawToken)
    (hchanges : request.changesPassword = false) : Kept crypto draws request response mem where
  redeemed model tokenHash h := by simp [hpresents] at h
  replaced rawToken h := absurd h (hrefresh rawToken)
  closed h := by simp [hchanges] at h

section Requests

variable {mem : Memory} (crypto : Crypto τ) (draws : Draws)

theorem keeps_register (email password : String) (hpresents : mem.presents = none) :
    (register crypto draws email password).Keeps (fun _ _ => True) mem := by
  unfold register
  rw [keeps_bind]
  refine keeps_select fun registered => ?_
  split
  · exact keeps_throw _
  rw [keeps_bind]
  refine keeps_plain (plain_cacheDelete _) fun _ => ?_
  rw [keeps_bind]
  refine keeps_tryQuery (plain_insertUser _) (fun count => ?_) fun e => ?_
  · rw [keeps_bind]
    refine keeps_createOneTimeToken crypto draws _ _ _ _ hpresents fun raw => ?_
    exact keeps_openSession crypto draws _ _ _ fun _ _ => trivial
  · split
    · exact keeps_throw _
    · exact keeps_throw _

theorem keeps_resendVerification (email : String) (hpresents : mem.presents = none) :
    (resendVerification crypto draws email : Session (Response τ)).Keeps (fun _ _ => True) mem := by
  unfold resendVerification
  rw [keeps_bind]
  refine keeps_select fun user? => ?_
  split
  · exact keeps_pure.mpr trivial
  rw [keeps_bind]
  refine keeps_query hpresents fun s count _ => ?_
  rw [keeps_bind]
  exact keeps_createOneTimeToken crypto draws _ _ _ _ hpresents fun raw => keeps_pure.mpr trivial

theorem keeps_login (email password : String) :
    (login crypto draws email password).Keeps (fun _ _ => True) mem := by
  unfold login
  rw [keeps_bind]
  refine keeps_select fun user? => ?_
  split
  · exact keeps_throw _
  rw [keeps_bind]
  refine keeps_checkPassword crypto draws _ _ (keeps_throw _) fun user _ => ?_
  dsimp only
  split
  · exact keeps_throw _
  split
  · exact keeps_throw _
  · exact keeps_openSession crypto draws _ _ _ fun _ _ => trivial

theorem keeps_logout (rawToken : String) :
    (logout crypto draws rawToken : Session (Response τ)).Keeps (fun _ _ => True) mem := by
  unfold logout revokeRefreshToken
  rw [keeps_bind, keeps_bind]
  exact keeps_plain (plain_revokeHash _ _) fun _ => keeps_pure.mpr (keeps_pure.mpr trivial)

theorem keeps_forgotPassword (email : String) (hpresents : mem.presents = none) :
    (forgotPassword crypto draws email : Session (Response τ)).Keeps (fun _ _ => True) mem := by
  unfold forgotPassword
  rw [keeps_bind]
  refine keeps_select fun user? => ?_
  split
  · exact keeps_pure.mpr trivial
  rw [keeps_bind]
  exact keeps_createOneTimeToken crypto draws _ _ _ _ hpresents fun raw => keeps_pure.mpr trivial

theorem keeps_socialSignIn (provider providerUserId : String) :
    (socialSignIn crypto draws provider providerUserId).Keeps (fun _ _ => True) mem := by
  unfold socialSignIn
  rw [keeps_bind]
  refine keeps_select fun user? => ?_
  split
  · exact keeps_pure.mpr trivial
  split
  · exact keeps_throw _
  · exact keeps_openSession crypto draws _ _ _ fun _ _ => trivial

theorem keeps_requestLink (email : String) (identity : Identity) (hpresents : mem.presents = none) :
    (requestLink crypto draws email identity : Session (Response τ)).Keeps (fun _ _ => True) mem := by
  unfold requestLink
  rw [keeps_bind]
  refine keeps_select fun user? => ?_
  split
  · exact keeps_pure.mpr trivial
  rw [keeps_bind]
  refine keeps_query hpresents fun s count _ => ?_
  rw [keeps_bind]
  exact keeps_createOneTimeToken crypto draws _ _ _ _ hpresents fun raw => keeps_pure.mpr trivial

/-- The one-time token of a request that presents one, as it remembers it. -/
def Redeemed (draws : Draws) (model : OneTimeModel) (tokenHash : String) (mem : Memory) : Prop :=
  ∃ token, mem.redeemed model = some token ∧ token.tokenHash = tokenHash ∧
    token.usedAt = some (draws.clock 0)

theorem keeps_verifyEmail (rawToken : String) (password? : Option String)
    (hpresents : mem.presents = some (.emailVerification, crypto.sha256 rawToken)) :
    (verifyEmail crypto draws rawToken password?).Keeps
      (fun m _ => Redeemed draws .emailVerification (crypto.sha256 rawToken) m) mem := by
  unfold verifyEmail
  rw [keeps_bind]
  refine keeps_consume crypto rawToken _ hpresents fun m token user _ hredeemed hhash hused => ?_
  have hkept : Redeemed draws .emailVerification (crypto.sha256 rawToken) m :=
    ⟨token, hredeemed, hhash, hused⟩
  dsimp only
  split
  · exact keeps_pure.mpr hkept
  · have hopen : ∀ user, (openSession crypto draws user (draws.clock 1) (draws.clock 2)).Keeps
        (fun m _ => Redeemed draws .emailVerification (crypto.sha256 rawToken) m) m := fun user =>
      keeps_openSession crypto draws user _ _ fun _ _ => hkept
    split
    · exact keeps_bind.mpr (keeps_saveUser _ _ (hopen _))
    · exact hopen _

theorem keeps_resetPassword (rawToken password : String)
    (hpresents : mem.presents = some (.passwordReset, crypto.sha256 rawToken)) :
    (resetPassword crypto draws rawToken password).Keeps
      (fun m response => Redeemed draws .passwordReset (crypto.sha256 rawToken) m ∧
        ∃ user access refresh, response = .tokens user access refresh ∧
          m.closed = some user.id) mem := by
  unfold resetPassword
  rw [keeps_bind]
  refine keeps_consume crypto rawToken _ hpresents fun m token user _ hredeemed hhash hused => ?_
  refine keeps_setPassword crypto draws user password true fun changed access refresh hid => ?_
  refine ⟨⟨token, hredeemed, hhash, hused⟩, changed, access, refresh, rfl, ?_⟩
  rw [hid]

theorem keeps_changePassword (bearer : τ) (currentPassword newPassword : String) :
    (changePassword crypto draws bearer currentPassword newPassword).Keeps
      (fun m response => ∃ user access refresh, response = .tokens user access refresh ∧
        m.closed = some user.id) mem := by
  unfold changePassword
  rw [keeps_bind]
  refine keeps_authenticate crypto bearer _ fun user => ?_
  rw [keeps_bind]
  refine keeps_checkPassword crypto draws user _ (keeps_throw _) fun checked _ => ?_
  dsimp only
  refine keeps_setPassword crypto draws checked newPassword false
    fun changed access refresh hid => ?_
  refine ⟨changed, access, refresh, rfl, ?_⟩
  rw [hid]

theorem keeps_confirmLink (rawToken : String)
    (hpresents : mem.presents = some (.socialLink, crypto.sha256 rawToken)) :
    (confirmLink crypto draws rawToken).Keeps
      (fun m _ => Redeemed draws .socialLink (crypto.sha256 rawToken) m) mem := by
  unfold confirmLink
  rw [keeps_bind]
  refine keeps_consume crypto rawToken _ hpresents fun m token user _ hredeemed hhash hused => ?_
  have hkept : Redeemed draws .socialLink (crypto.sha256 rawToken) m :=
    ⟨token, hredeemed, hhash, hused⟩
  dsimp only
  rw [keeps_bind]
  refine keeps_select fun existing => ?_
  split
  · exact keeps_pure.mpr hkept
  have hlink : ∀ account?, (query (.commitLink account? user) >>= fun _ =>
      openSession crypto draws { user with isVerified := true } (draws.clock 1)
        (draws.clock 2)).Keeps (fun m _ =>
          Redeemed draws .socialLink (crypto.sha256 rawToken) m) m := by
    intro account?
    rw [keeps_bind]
    refine keeps_plain (plain_commitLink _ _) fun _ => ?_
    exact keeps_openSession crypto draws _ _ _ fun _ _ => hkept
  split
  · rw [keeps_bind]
    exact keeps_plain (plain_cacheDelete _) fun _ => hlink _
  · exact hlink _

theorem keeps_redeem (model : OneTimeModel) (rawToken : String)
    (hpresents : mem.presents = some (model, crypto.sha256 rawToken)) :
    (redeem crypto draws model rawToken : Session (Response τ)).Keeps
      (fun m response => ∃ token, m.redeemed model = some token ∧
        token.tokenHash = crypto.sha256 rawToken ∧ token.usedAt = some (draws.clock 0) ∧
        response = .redeemed model token) mem := by
  unfold redeem
  rw [keeps_bind]
  refine keeps_consume crypto rawToken _ hpresents fun m token user _ hredeemed hhash hused => ?_
  exact keeps_pure.mpr ⟨token, hredeemed, hhash, hused, rfl⟩

theorem keeps_refresh (rawToken : String) :
    (refresh crypto draws rawToken).Keeps (fun m _ =>
      ∃ found, m.taken = some found ∧ found.token.tokenHash = crypto.sha256 rawToken) mem := by
  unfold refresh
  rw [keeps_bind]
  refine keeps_rotate crypto draws rawToken fun m found raw htaken hhash => ?_
  exact keeps_pure.mpr ⟨found, htaken, hhash⟩

/-- **Every request keeps the discipline**, and has done what `Kept` lists when it
answers. -/
theorem keeps_request (request : Request τ) (hpresents : mem.presents = request.presents crypto) :
    (request.session crypto draws).Keeps (fun m response => Kept crypto draws request response m)
      mem := by
  have hplain : ∀ (m : Memory) (response : Response τ), request.presents crypto = none →
      (∀ rawToken, request ≠ .refresh rawToken) → request.changesPassword = false →
      Kept crypto draws request response m := fun _ _ => kept_plain
  cases request with
  | register email password =>
      refine (keeps_register crypto draws email password hpresents).mono fun m response _ => ?_
      exact hplain m response rfl nofun rfl
  | verifyEmail rawToken password? =>
      refine (keeps_verifyEmail crypto draws rawToken password? hpresents).mono
        fun m response ⟨token, hredeemed, hhash, hused⟩ => ⟨?_, nofun, nofun⟩
      intro model tokenHash heq
      cases heq
      exact ⟨token, hredeemed, hhash, hused, nofun⟩
  | resendVerification email =>
      refine (keeps_resendVerification crypto draws email hpresents).mono fun m response _ => ?_
      exact hplain m response rfl nofun rfl
  | login email password =>
      refine (keeps_login crypto draws email password).mono fun m response _ => ?_
      exact hplain m response rfl nofun rfl
  | refresh rawToken =>
      refine (keeps_refresh crypto draws rawToken).mono fun m response htaken => ?_
      refine ⟨nofun, fun raw heq => ?_, nofun⟩
      cases heq
      exact htaken
  | logout rawToken =>
      refine (keeps_logout crypto draws rawToken).mono fun m response _ => ?_
      exact hplain m response rfl nofun rfl
  | forgotPassword email =>
      refine (keeps_forgotPassword crypto draws email hpresents).mono fun m response _ => ?_
      exact hplain m response rfl nofun rfl
  | resetPassword rawToken password =>
      refine (keeps_resetPassword crypto draws rawToken password hpresents).mono
        fun m response ⟨⟨token, hredeemed, hhash, hused⟩, hclosed⟩ => ⟨?_, nofun, fun _ => hclosed⟩
      intro model tokenHash heq
      cases heq
      exact ⟨token, hredeemed, hhash, hused, nofun⟩
  | changePassword bearer currentPassword newPassword =>
      refine (keeps_changePassword crypto draws bearer currentPassword newPassword).mono
        fun m response hclosed => ⟨nofun, nofun, fun _ => hclosed⟩
  | socialSignIn provider providerUserId =>
      refine (keeps_socialSignIn crypto draws provider providerUserId).mono fun m response _ => ?_
      exact hplain m response rfl nofun rfl
  | requestLink email identity =>
      refine (keeps_requestLink crypto draws email identity hpresents).mono fun m response _ => ?_
      exact hplain m response rfl nofun rfl
  | confirmLink rawToken =>
      refine (keeps_confirmLink crypto draws rawToken hpresents).mono
        fun m response ⟨token, hredeemed, hhash, hused⟩ => ⟨?_, nofun, nofun⟩
      intro model tokenHash heq
      cases heq
      exact ⟨token, hredeemed, hhash, hused, nofun⟩
  | redeem model rawToken =>
      refine (keeps_redeem crypto draws model rawToken hpresents).mono
        fun m response ⟨token, hredeemed, hhash, hused, hresponse⟩ => ⟨?_, nofun, nofun⟩
      intro model' tokenHash heq
      cases heq
      exact ⟨token, hredeemed, hhash, hused, fun _ _ => hresponse⟩

end Requests

/-! ## Maintenance -/

/-- What an operation that has answered has done. -/
def Operation.Kept (crypto : Crypto τ) (draws : Draws) :
    Operation τ → Response τ → Memory → Prop
  | .view request, response, mem => Auth.Kept crypto draws request response mem
  | _, _, _ => True

/-- The one-time token that an operation presents. -/
def Operation.presents (crypto : Crypto τ) : Operation τ → Option (OneTimeModel × String)
  | .view request => request.presents crypto
  | _ => none

/-- Every operation keeps the discipline of those that may delete rows. -/
theorem keeps_operation {mem : Memory} (crypto : Crypto τ) (draws : Draws)
    (operation : Operation τ) (hpresents : mem.presents = operation.presents crypto)
    (hmaintains : mem.maintains = true) :
    (operation.session crypto draws).Keeps
      (fun m response => operation.Kept crypto draws response m) mem := by
  cases operation with
  | view request => exact keeps_request crypto draws request hpresents
  | deleteExpiredRefreshTokens now =>
      show Session.Keeps _ (Session.deleteExpiredRefreshTokens now) mem
      unfold Session.deleteExpiredRefreshTokens
      rw [keeps_bind]
      refine keeps_select fun ids => ?_
      split
      · exact keeps_pure.mpr trivial
      · rw [keeps_bind]
        exact keeps_query hmaintains fun s count _ => keeps_pure.mpr trivial
  | deleteExpiredOneTimeTokens model now =>
      show Session.Keeps _ (Session.deleteExpiredOneTimeTokens model now) mem
      unfold Session.deleteExpiredOneTimeTokens
      rw [keeps_bind]
      refine keeps_select fun ids => ?_
      split
      · exact keeps_pure.mpr trivial
      · rw [keeps_bind]
        exact keeps_query hmaintains fun s count _ => keeps_pure.mpr trivial
  | deleteUser id =>
      show Session.Keeps _ (Session.deleteUser id) mem
      unfold Session.deleteUser
      rw [keeps_bind]
      refine keeps_plain (plain_cacheDelete _) fun _ => ?_
      rw [keeps_bind]
      exact keeps_query hmaintains fun s count _ => keeps_pure.mpr trivial

end Saasmint.Auth
