import Saasmint.Users.Credentials
import Saasmint.Users.Sessions

/-!
# Sessions and accounts are earned

Requests run among each other, each of them able to act between the reads and the writes of
the others.  What a session or a change of an account rests on is then a credential that
was good in a state the run had been in: the credential's reads are earlier steps of the
same request (`Pool.Saw`).

A refresh token that was not there at the outset was inserted by a request that had
presented a credential of its user (`sessions_earned`).  A row of the users that was not
there at the outset was written by a registration, by a callback whose provider had
verified the address, or by a request that had presented a credential of that user; only
the last can mark a user as verified who was not, and only with a one-time token
(`accounts_earned`).
-/

namespace Saasmint.Auth

open Atomic Relational

variable {τ ι : Type}

/-- The token as it was inserted. -/
def RefreshToken.unrevoked (token : RefreshToken) : RefreshToken := { token with revokedAt := none }

/-- The refresh token is stored, revoked or not. -/
def Stores (token : RefreshToken) (s : State) : Prop :=
  ∃ row ∈ s.db.refreshTokens.rows, row.unrevoked = token.unrevoked

/-! ## What a call brings about -/

/-- Among the calls of a request, only an insert brings a refresh token about. -/
theorem insert_of_stores {crypto : Crypto τ} {draws : Draws} {request : OAuthRequest τ}
    {seen : OAuthCall → State → Prop} {call : OAuthCall} {s : State} {token : RefreshToken}
    (hearns : request.Earns crypto draws seen call) (hnot : ¬ Stores token s)
    (hgained : Stores token (performCall call s).2) :
    ∃ row origin, call = .statement (.insertRefreshToken row origin) ∧
      row.unrevoked = token.unrevoked := by
  obtain ⟨row, hrow, hsame⟩ := hgained
  have hother : (performCall call s).2.db.refreshTokens ≠ s.db.refreshTokens := fun hrows =>
    hnot ⟨row, hrows ▸ hrow, hsame⟩
  cases call with
  | createUser user account =>
      refine absurd (of_settle (P := fun t => t.db.refreshTokens = s.db.refreshTokens) rfl
        fun db h => ?_) hother
      obtain ⟨created, hinsert, hcreate⟩ := Db.createUserWith_eq_ok h
      exact (Db.sameTokens_getOrCreate hcreate).1.trans (Db.sameTokens_insertUser hinsert).1
  | linkAccount account =>
      exact absurd (of_settle (P := fun t => t.db.refreshTokens = s.db.refreshTokens) rfl
        fun db h => (Db.sameTokens_getOrCreate h).1) hother
  | statement q =>
      cases touches q s with
      | nothing hrows _ => exact absurd hrows hother
      | revoke _ hrows _ =>
          obtain ⟨stored, hstored, rfl⟩ := List.mem_map.mp (hrows ▸ hrow)
          exact absurd ⟨stored, hstored, hsame⟩ hnot
      | @insert inserted origin db hinsert hdb _ =>
          have hrows := (Db.insertRefreshToken_eq_ok hinsert).1
          rw [← hdb] at hrows
          rcases List.mem_append.mp (hrows ▸ hrow) with hold | hnew
          · exact absurd ⟨row, hold, hsame⟩ hnot
          · rw [List.mem_singleton.mp hnew] at hsame
            exact ⟨inserted, origin, rfl, hsame⟩
      | delete hdeletes hrows _ => exact absurd ⟨row, hrows row hrow, hsame⟩ hnot

/-- The row that a save of some columns has written is stored under the same key, and an
address or an activity that is not among the columns is as it was. -/
theorem saved_of_gained {s : State} {db : Db} {given user : Account} {fields : List UserField}
    (h : s.db.saveUser given (some fields) = .ok db) (hnot : user ∉ s.db.users.rows)
    (hgained : user ∈ db.users.rows) :
    ∃ before ∈ s.db.users.rows, before.id = given.id ∧ user = given.assign fields before := by
  rw [(Db.saveUser_eq_ok h).1] at hgained
  obtain ⟨stored, hstored, hrow⟩ := List.mem_map.mp hgained
  split at hrow
  next hid => exact ⟨stored, hstored, beq_iff_eq.mp hid, hrow.symm⟩
  next => exact absurd (hrow ▸ hstored) hnot

/-- How a call has come to write a row of the users that was not there. -/
inductive Writes (crypto : Crypto τ) (draws : Draws) (request : OAuthRequest τ)
    (seen : OAuthCall → State → Prop) (s : State) (user : Account) : Prop
  /-- The user registers. -/
  | registered {raw : String} (hrequest : request = .view (.register user.email raw))
      (hverified : user.isVerified = false) (hfresh : s.db.user? user.id = none)
  /-- The user is created for an address that their provider has verified. -/
  | attested {provider : String} {info : OAuthUserInfo} (hreports : request.Reports provider info)
      (hverified : info.emailVerified = true) (hemail : user.email = normalizeEmail info.email)
      (hfresh : s.db.user? user.id = none)
  /-- The row of the user is saved by who has presented a credential of theirs. -/
  | saved {before read : Account} (hbefore : before ∈ s.db.users.rows) (hid : before.id = user.id)
      (hemail : before.email = user.email) (hactive : before.isActive = user.isActive)
      (hcredential : Credential crypto draws seen request read) (hread : read.id = user.id)
      (hkept : before.isVerified = true → user.isVerified = true)
      (hmarked : user.isVerified = true → before.isVerified = true ∨ request.Redeems crypto)

theorem writes_of_saved {crypto : Crypto τ} {draws : Draws} {request : OAuthRequest τ}
    {seen : OAuthCall → State → Prop} {s : State} {before read given : Account}
    {fields : List UserField} (hbefore : before ∈ s.db.users.rows) (hid : before.id = given.id)
    (hcredential : Credential crypto draws seen request read) (hread : read.id = given.id)
    (hfields : ∀ field ∈ fields, field ∈ savable)
    (hverifies : .isVerified ∈ fields → given.isVerified = true ∧ request.Redeems crypto) :
    Writes crypto draws request seen s (given.assign fields before) := by
  have hemail : UserField.email ∉ fields := fun h => by simpa [savable] using hfields _ h
  have hactive : UserField.isActive ∉ fields := fun h => by simpa [savable] using hfields _ h
  refine .saved hbefore rfl (by simp [Account.assign, hemail]) (by simp [Account.assign, hactive])
    hcredential (hread.trans hid.symm) ?_ ?_
  · intro hwas
    by_cases hfield : UserField.isVerified ∈ fields
    · simp [Account.assign, hfield, (hverifies hfield).1]
    · simpa [Account.assign, hfield] using hwas
  · intro his
    by_cases hfield : UserField.isVerified ∈ fields
    · exact Or.inr (hverifies hfield).2
    · exact Or.inl (by simpa [Account.assign, hfield] using his)

/-- The row that an insert brings about. -/
theorem eq_of_gained {s : State} {user new : Account} {db : Db}
    (hinsert : s.db.insertUser new = .ok db) (hnot : user ∉ s.db.users.rows)
    (hgained : user ∈ db.users.rows) : user = new := by
  rw [(rows_insertUser hinsert).1] at hgained
  rcases List.mem_append.mp hgained with hold | hnew
  · exact absurd hold hnot
  · exact List.mem_singleton.mp hnew

/-- A write that brings about a row has not been refused. -/
theorem settled_of_gained {s : State} {user : Account} {result : Except AuthError Db}
    (hnot : user ∉ s.db.users.rows) (hgained : user ∈ (s.settle result).2.db.users.rows) :
    ∃ db, result = .ok db ∧ user ∈ db.users.rows := by
  cases result with
  | ok db => exact ⟨db, rfl, hgained⟩
  | error e => exact absurd hgained hnot

/-- A row of the users that a call brings about is written with good reason. -/
theorem writes_of_gained {crypto : Crypto τ} {draws : Draws} {request : OAuthRequest τ}
    {seen : OAuthCall → State → Prop} {call : OAuthCall} {s : State} {user : Account}
    (hearns : request.Earns crypto draws seen call) (hnot : user ∉ s.db.users.rows)
    (hgained : user ∈ (performCall call s).2.db.users.rows) :
    Writes crypto draws request seen s user := by
  cases call with
  | createUser new account =>
      obtain ⟨db, hcreated, hmem⟩ := settled_of_gained hnot hgained
      obtain ⟨created, hinsert, hcreate⟩ := Db.createUserWith_eq_ok hcreated
      rw [(rows_getOrCreate (s := { s with db := created }) hcreate).1] at hmem
      obtain rfl := eq_of_gained hinsert hnot hmem
      obtain ⟨info, hreports, hverified, hemail⟩ := hearns
      exact .attested hreports hverified hemail (Db.user?_insertUser hinsert).1
  | linkAccount account =>
      -- linking an account writes no user
      obtain ⟨db, hlinked, hmem⟩ := settled_of_gained hnot hgained
      rw [(rows_getOrCreate hlinked).1] at hmem
      exact absurd hmem hnot
  | statement q =>
      change user ∈ (effect q s).db.users.rows at hgained
      cases q with
      | insertUser new =>
          obtain ⟨db, hinsert, hmem⟩ := settled_of_gained hnot hgained
          obtain rfl := eq_of_gained hinsert hnot hmem
          obtain ⟨hverified, raw, hrequest⟩ := hearns
          exact .registered hrequest hverified (Db.user?_insertUser hinsert).1
      | saveUser given fields? =>
          cases fields? with
          | none => exact hearns.elim
          | some fields =>
              obtain ⟨⟨read, hcredential, hread⟩, hfields, hverifies⟩ := hearns
              rcases hsave : s.db.saveUser given (some fields) with e | db
              · rw [effect_saveUser_error hsave] at hgained
                exact absurd hgained hnot
              · rw [effect_saveUser_ok hsave] at hgained
                obtain ⟨before, hbefore, hid, rfl⟩ := saved_of_gained hsave hnot hgained
                exact writes_of_saved hbefore hid hcredential hread hfields hverifies
      | commitLink account? given =>
          obtain ⟨hcredential, hredeems⟩ := hearns
          -- the account is linked first, then the user is saved as verified
          obtain ⟨db, hlinked, hmem⟩ := settled_of_gained hnot hgained
          rcases Db.link_eq_ok hlinked with ⟨_, husers⟩ | ⟨_, linked, husers, hsave⟩
          · rw [husers] at hmem
            exact absurd hmem hnot
          · have hnot' : user ∉ ({ s with db := linked } : State).db.users.rows := by
              rwa [husers]
            obtain ⟨before, hbefore, hid, rfl⟩ := saved_of_gained hsave hnot' hmem
            rw [husers] at hbefore
            exact writes_of_saved hbefore hid hcredential rfl (by simp [savable])
              fun _ => ⟨rfl, hredeems⟩
      | deleteUser id => exact hearns.elim
      | deleteRefreshTokens ids => exact hearns.elim
      | deleteOneTimeTokens model ids => exact hearns.elim
      | insertRefreshToken _ _ | revokeToken _ _ | insertOneTimeToken _ _ =>
          rw [(alike_effect rfl s).1] at hgained
          exact absurd hgained hnot
      | _ => exact absurd hgained hnot

section Runs

variable [DecidableEq ι] (crypto : Crypto τ) (requests : ι → OAuthRequest τ × OAuthDraws) (s : State)

/-- The request of `i` has shown a credential of the user in the steps of `first`. -/
def Shows (first : List ι) (i : ι) (user : Account) : Prop :=
  Credential crypto (requests i).2.toDraws ((signingIn crypto requests s).Saw first i)
    (requests i).1 user

variable {crypto requests s}

/-- Whatever comes next is earned by what has been presented. -/
theorem earned_step {first : List ι} {i : ι} {call : OAuthCall} {effect : State → State}
    {next : State → Program OAuthCall State (Except AuthError (OAuthAnswer τ))}
    (hproc : ((signingIn crypto requests s).run first).procs i = .act call effect next) :
    effect = (fun t => (performCall call t).2) ∧ ∃ seen : History OAuthCall State,
      (requests i).1.Earns crypto (requests i).2.toDraws (OAuthRequest.Of seen) call ∧
      ∀ user, Held crypto (requests i).2.toDraws (requests i).1 seen user →
        Shows crypto requests s first i user := by
  have hobeys : (signingIn crypto requests s).Obeys
      (fun i => (requests i).1.ledger crypto (requests i).2.toDraws) (fun _ _ _ => True)
      fun _ => [] :=
    fun i => Fallible.Obeys.mono (earns_request crypto (requests i).2 (requests i).1)
      fun _ _ _ => trivial
  obtain ⟨seen, ⟨heffect, hearns⟩, hsaw⟩ := Pool.act_justified hobeys hproc
  exact ⟨heffect, seen, hearns, fun user hheld => hheld.mono fun call t hmem => hsaw _ hmem⟩

theorem stateAfter_step {first : List ι} {i : ι} {call : OAuthCall} {effect : State → State}
    {next : State → Program OAuthCall State (Except AuthError (OAuthAnswer τ))}
    (hproc : ((signingIn crypto requests s).run first).procs i = .act call effect next) :
    stateAfter crypto requests s (first ++ [i]) = effect (stateAfter crypto requests s first) := by
  unfold stateAfter
  rw [Pool.run_append, Pool.run_cons, Pool.run_nil, Pool.step_act hproc]

/-- The step of `i` after `first` opens the session of a token, for a user of whom its
request has shown a credential and who may come in; the token is the one it has drawn. -/
structure Opens (crypto : Crypto τ) (requests : ι → OAuthRequest τ × OAuthDraws) (s : State)
    (first : List ι) (i : ι) (token : RefreshToken) (user : Account) : Prop where
  before : ¬ Stores token (stateAfter crypto requests s first)
  after : Stores token (stateAfter crypto requests s (first ++ [i]))
  drawn : token.tokenHash = crypto.sha256 (requests i).2.raw
  shown : Shows crypto requests s first i user
  owner : user.id = token.userId
  admitted : (requests i).1.Admits user

/-- A refresh token that comes to be stored is opened by a step. -/
theorem exists_opens {schedule : List ι} {token : RefreshToken} (hstart : ¬ Stores token s)
    (hend : Stores token (stateAfter crypto requests s schedule)) :
    ∃ first i rest user, schedule = first ++ i :: rest ∧
      Opens crypto requests s first i token user := by
  obtain ⟨first, i, rest, call, effect, next, hsplit, hproc, hnot, hgained⟩ :=
    exists_call_of_gained hstart hend
  obtain ⟨rfl, seen, hearns, hshown⟩ := earned_step hproc
  obtain ⟨row, origin, rfl, hsame⟩ := insert_of_stores hearns hnot hgained
  obtain ⟨hhash, user, hheld, huser, hadmits⟩ := hearns
  have hsameHash : row.tokenHash = token.tokenHash := congrArg (·.tokenHash) hsame
  have hsameUser : row.userId = token.userId := congrArg (·.userId) hsame
  refine ⟨first, i, rest, user, hsplit, hnot, ?_, hsameHash.symm.trans hhash, hshown user hheld,
    huser.trans hsameUser, hadmits⟩
  rw [stateAfter_step hproc]
  exact hgained

variable (crypto requests s)

/-- **Accounts are earned**, in every run of callbacks and the other auth requests.  A row
of the users that was not there at the outset was written by a registration, by a callback
whose provider had verified the address, or by a request that had presented a credential of
this user; its address and activity are as they were created, and it is verified only if
it was created so or a one-time token was presented for it. -/
theorem accounts_earned (schedule : List ι) (user : Account)
    (h : user ∈ (stateAfter crypto requests s schedule).db.users.rows) :
    user ∈ s.db.users.rows ∨ ∃ first i rest, schedule = first ++ i :: rest ∧
      user ∉ (stateAfter crypto requests s first).db.users.rows ∧
      user ∈ (stateAfter crypto requests s (first ++ [i])).db.users.rows ∧
      Writes crypto (requests i).2.toDraws (requests i).1
        ((signingIn crypto requests s).Saw first i) (stateAfter crypto requests s first) user := by
  by_cases hstart : user ∈ s.db.users.rows
  · exact Or.inl hstart
  · obtain ⟨first, i, rest, call, effect, next, hsplit, hproc, hnot, hgained⟩ :=
      exists_call_of_gained (P := fun t => user ∈ t.db.users.rows) hstart h
    obtain ⟨rfl, seen, hearns, hpresented⟩ := earned_step hproc
    refine Or.inr ⟨first, i, rest, hsplit, hnot, ?_, ?_⟩
    · rw [stateAfter_step hproc]
      exact hgained
    · cases writes_of_gained hearns hnot hgained with
      | registered hrequest hverified hfresh => exact .registered hrequest hverified hfresh
      | attested hreports hverified hemail hfresh => exact .attested hreports hverified hemail hfresh
      | saved hbefore hid hemail hactive hcredential hread hkept hmarked =>
          exact .saved hbefore hid hemail hactive (hpresented _ hcredential) hread hkept hmarked

end Runs

/-! ## A run -/

/-- Bob comes from a provider that has verified his address, while alice logs in. -/
def bobAndAlice : Fin 2 → OAuthRequest Payload × OAuthDraws
  | 0 => (.callback
      { provider := "google"
        code := some "code"
        state := some "state"
        error := none
        oauthState := some "state"
        exchanged := .ok
          { email := "bob@example.com"
            fullName := "Bob"
            providerUserId := "google-bob"
            avatarUrl := none
            emailVerified := true } },
      { sampleDraws 0 with accountId := 300#128 })
  | 1 => (.view (.login alice.email "secret"), { sampleDraws 1 with accountId := 301#128 })

def bobThenAlice : List (Fin 2) := [0, 1, 0, 0, 0, 1, 0]

def bob : Account where
  id := 200#128
  email := "bob@example.com"
  password := "!salt"
  isActive := true
  isVerified := true
  passwordChangedAt := none

def aliceToken : RefreshToken where
  id := 101#128
  userId := 1#128
  tokenHash := "sha256:raw-1"
  expiresAt := 1700604800000001
  revokedAt := none

theorem accounts_earned_bob : bob ∈ quietDb.users.rows ∨
    ∃ first i rest, bobThenAlice = first ++ i :: rest ∧
      bob ∉ (stateAfter sampleCrypto bobAndAlice (.start quietDb fun _ => none) first).db.users.rows ∧
      bob ∈ (stateAfter sampleCrypto bobAndAlice (.start quietDb fun _ => none)
        (first ++ [i])).db.users.rows ∧
      Writes sampleCrypto (bobAndAlice i).2.toDraws (bobAndAlice i).1
        ((signingIn sampleCrypto bobAndAlice (.start quietDb fun _ => none)).Saw first i)
        (stateAfter sampleCrypto bobAndAlice (.start quietDb fun _ => none) first) bob :=
  accounts_earned sampleCrypto bobAndAlice (.start quietDb fun _ => none) bobThenAlice bob
    (by decide +kernel)

end Saasmint.Auth
