import Saasmint.Users.Effects

/-!
# Rotations among each other

`rotate_refresh_token` reads the token, checks that it is unrevoked, revokes it and
inserts its successor, in three statements.  The revocation is an `UPDATE` by key that
does not look at `revoked_at` again, so that two calls that have both read the token
before either revokes it both answer with a successor.

Whatever else runs, a token is spent at most once as long as each of these `UPDATE`s
still finds its token unrevoked.  `Spending` is the invariant: what a request has read is
stored, what it has revoked stays revoked, and no two requests have revoked the same row.
-/

namespace Saasmint.Auth

open Atomic Relational

variable {τ ι : Type}

/-! ## Servers -/

/-- Requests that have made no statement yet. -/
def serving (crypto : Crypto τ) (requests : ι → Request τ × Draws) (s : State) :
    Pool ι Query State (Except AuthError (Response τ)) where
  shared := s
  procs i := ExceptT.run ((requests i).1.session crypto (requests i).2)

/-- What request `i` has answered with, if it has and was successful. -/
def answer? (pool : Pool ι Query State (Except AuthError (Response τ))) (i : ι) :
    Option (Response τ) :=
  match pool.procs i with
  | .done (.ok response) => some response
  | _ => none

theorem answer?_eq_some {pool : Pool ι Query State (Except AuthError (Response τ))} {i : ι}
    {response : Response τ} :
    answer? pool i = some response ↔ pool.procs i = .done (.ok response) := by
  unfold answer?
  split
  next h => simp [h]
  next hother =>
      refine ⟨nofun, fun h => ?_⟩
      exact absurd h (hother response)

/-- What the requests of a server remember before their first statement. -/
def memories (crypto : Crypto τ) (requests : ι → Request τ × Draws) (i : ι) : Memory :=
  .start ((requests i).1.presents crypto) false

theorem serving_obeys (crypto : Crypto τ) (requests : ι → Request τ × Draws) (s : State) :
    (serving crypto requests s).Obeys (fun _ => discipline)
      (fun i mem result => ∀ response, result = .ok response →
        Kept crypto (requests i).2 (requests i).1 response mem) (memories crypto requests) :=
  fun i => keeps_request crypto (requests i).2 (requests i).1 rfl

/-! ## Spending -/

/-- The row of a token that was read. -/
def Stored (s : State) (token : RefreshToken) : Prop :=
  ∃ row ∈ s.db.refreshTokens.rows, row.id = token.id ∧ row.tokenHash = token.tokenHash

/-- The row of a token that was revoked. -/
def Spent (s : State) (token : RefreshToken) : Prop :=
  ∃ row ∈ s.db.refreshTokens.rows, row.id = token.id ∧ row.tokenHash = token.tokenHash ∧
    row.revokedAt ≠ none

/-- What the requests have read is stored, what they have revoked is revoked, and each
of them has revoked another row. -/
structure Spending (s : State) (mem : ι → Memory) : Prop where
  maintains : ∀ i, (mem i).maintains = false
  stored : ∀ i found, (mem i).read = some found → Stored s found.token
  spent : ∀ i found, (mem i).taken = some found → Spent s found.token
  distinct : ∀ i j found found', i ≠ j → (mem i).taken = some found →
    (mem j).taken = some found' → found.token.id ≠ found'.token.id

/-- The `UPDATE` of a rotation finds its token unrevoked. -/
def FindsUnrevoked : Query → State → Prop
  | .revokeToken id _, s => ∀ token ∈ s.db.refreshTokens.rows, token.id = id → token.revokedAt = none
  | _, _ => True

instance (q : Query) (s : State) : Decidable (FindsUnrevoked q s) := by
  apply @Query.casesOn (fun q => Decidable (FindsUnrevoked q s)) q
  all_goals intros; unfold FindsUnrevoked; infer_instance

/-- Every row stays, and stays revoked if it is. -/
def Persists (s s' : State) : Prop :=
  ∀ row ∈ s.db.refreshTokens.rows, ∃ row' ∈ s'.db.refreshTokens.rows, row'.id = row.id ∧
    row'.tokenHash = row.tokenHash ∧ (row.revokedAt ≠ none → row'.revokedAt ≠ none)

theorem persists_of_touches {s s' : State} {q : Query} (h : Touches s s' q)
    (hq : q.deletes = false) : Persists s s' := by
  intro row hrow
  cases h with
  | nothing hrows _ =>
      rw [hrows]
      exact ⟨row, hrow, rfl, rfl, id⟩
  | @revoke _ selected now _ hrows _ =>
      rw [hrows]
      refine ⟨row.revoke selected now, List.mem_map_of_mem hrow, rfl, rfl, fun hrevoked h => ?_⟩
      exact hrevoked (RefreshToken.revokedAt_revoke_eq_none.mp h).1
  | insert hinsert hdb _ =>
      rw [hdb, (Db.insertRefreshToken_eq_ok hinsert).1]
      exact ⟨row, List.mem_append_left _ hrow, rfl, rfl, id⟩
  | delete hdeletes _ _ =>
      rw [hdeletes] at hq
      cases hq

theorem Stored.of_persists {s s' : State} {token : RefreshToken} (h : Stored s token)
    (hpersists : Persists s s') : Stored s' token := by
  obtain ⟨row, hrow, hid, hhash⟩ := h
  obtain ⟨row', hrow', hid', hhash', _⟩ := hpersists row hrow
  exact ⟨row', hrow', hid'.trans hid, hhash'.trans hhash⟩

theorem Spent.of_persists {s s' : State} {token : RefreshToken} (h : Spent s token)
    (hpersists : Persists s s') : Spent s' token := by
  obtain ⟨row, hrow, hid, hhash, hrevoked⟩ := h
  obtain ⟨row', hrow', hid', hhash', hrevoked'⟩ := hpersists row hrow
  exact ⟨row', hrow', hid'.trans hid, hhash'.trans hhash, hrevoked' hrevoked⟩

/-- The `UPDATE` of a rotation revokes the row that was read. -/
theorem spent_of_revoke {s : State} {token : RefreshToken} {now : Datetime}
    (h : Stored s token) : Spent (effect (.revokeToken token.id now) s) token := by
  obtain ⟨row, hrow, hid, hhash⟩ := h
  refine ⟨row.revoke (fun row => row.id == token.id) now, ?_, hid, hhash, fun h => ?_⟩
  · rw [(effect_revokeToken token.id now s).1]
    exact List.mem_map_of_mem hrow
  · have hnot := (RefreshToken.revokedAt_revoke_eq_none.mp h).2
    simp [hid] at hnot

section Step

variable [DecidableEq ι] {s : State} {mem : ι → Memory} {i : ι} {q : Query}

/-- A query after which a request remembers no other token to be read or revoked. -/
theorem Spending.of_same (h : Spending s mem) (hpersists : Persists s (effect q s))
    {mem' : Memory} (hmaintains : mem'.maintains = (mem i).maintains)
    (hread : ∀ found, mem'.read = some found → Stored (effect q s) found.token)
    (htaken : mem'.taken = (mem i).taken) :
    Spending (effect q s) (Function.update mem i mem') := by
  have hsame : ∀ j, (Function.update mem i mem' j).taken = (mem j).taken := by
    intro j
    by_cases hj : j = i
    · subst hj
      simpa using htaken
    · simp [Function.update_of_ne hj]
  refine ⟨fun j => ?_, fun j found hfound => ?_, fun j found hfound => ?_, ?_⟩
  · by_cases hj : j = i
    · subst hj
      simpa [hmaintains] using h.maintains j
    · simpa [Function.update_of_ne hj] using h.maintains j
  · by_cases hj : j = i
    · subst hj
      exact hread found (by simpa using hfound)
    · rw [Function.update_of_ne hj] at hfound
      exact (h.stored j found hfound).of_persists hpersists
  · rw [hsame] at hfound
    exact (h.spent j found hfound).of_persists hpersists
  · intro j k found found' hjk hj hk
    rw [hsame] at hj hk
    exact h.distinct j k found found' hjk hj hk

/-- A rotation that finds its token unrevoked is the first to revoke it. -/
theorem Spending.revoke (h : Spending s mem) {now : Datetime} {found : Session.Found}
    (hread : (mem i).read = some found)
    (hfinds : FindsUnrevoked (.revokeToken found.token.id now) s) :
    Spending (effect (.revokeToken found.token.id now) s)
      (Function.update mem i ((mem i).track (.revokeToken found.token.id now) s)) := by
  have hstored := h.stored i found hread
  have hpersists : Persists s (effect (.revokeToken found.token.id now) s) :=
    persists_of_touches (touches _ s) rfl
  have htaken : ((mem i).track (.revokeToken found.token.id now) s).taken = some found := by
    simp [Memory.track, Memory.taken, hread]
  -- whoever has revoked a row before has revoked another one
  have hfresh : ∀ j found', (mem j).taken = some found' → found'.token.id ≠ found.token.id := by
    intro j found' hj hsame
    obtain ⟨row, hrow, hid, _, hrevoked⟩ := h.spent j found' hj
    exact hrevoked (hfinds row hrow (hid.trans hsame))
  refine ⟨fun j => ?_, fun j found' hfound' => ?_, fun j found' hfound' => ?_, ?_⟩
  · by_cases hj : j = i
    · subst hj
      simpa [Memory.track] using h.maintains j
    · simpa [Function.update_of_ne hj] using h.maintains j
  · by_cases hj : j = i
    · subst hj
      simp [Memory.track] at hfound'
    · rw [Function.update_of_ne hj] at hfound'
      exact (h.stored j found' hfound').of_persists hpersists
  · by_cases hj : j = i
    · subst hj
      rw [Function.update_self, htaken] at hfound'
      cases hfound'
      exact spent_of_revoke hstored
    · rw [Function.update_of_ne hj] at hfound'
      exact (h.spent j found' hfound').of_persists hpersists
  · intro j k found₁ found₂ hjk hj hk
    by_cases hji : j = i
    · have hki : k ≠ i := fun hki => hjk (hji.trans hki.symm)
      rw [hji, Function.update_self, htaken] at hj
      rw [Function.update_of_ne hki] at hk
      cases hj
      exact (hfresh k found₂ hk).symm
    · rw [Function.update_of_ne hji] at hj
      by_cases hki : k = i
      · rw [hki, Function.update_self, htaken] at hk
        cases hk
        exact hfresh j found₁ hj
      · rw [Function.update_of_ne hki] at hk
        exact h.distinct j k found₁ found₂ hjk hj hk

/-- Every permitted query keeps what has been spent. -/
theorem Spending.step (h : Spending s mem) (hpermits : (mem i).Permits q)
    (hfinds : FindsUnrevoked q s) :
    Spending (effect q s) (Function.update mem i ((mem i).track q s)) := by
  have hdeletes := Memory.deletes_of_permits (h.maintains i) hpermits
  have hpersists : Persists s (effect q s) := persists_of_touches (touches q s) hdeletes
  have hold : ∀ found, (mem i).read = some found → Stored (effect q s) found.token :=
    fun found hfound => (h.stored i found hfound).of_persists hpersists
  cases q with
  | revokeToken id now =>
      obtain ⟨found, hread, rfl⟩ := hpermits
      exact h.revoke hread hfinds
  | selectRefreshToken tokenHash =>
      refine h.of_same hpersists rfl (fun found hfound => ?_) rfl
      simp only [Memory.track, Option.filter_eq_some_iff] at hfound
      have hfound' := (State.found?_eq_some.mp hfound.1).1
      exact ⟨found.token, hfound'.1, rfl, rfl⟩
  | insertRefreshToken token origin =>
      cases origin with
      | login => exact h.of_same hpersists rfl hold rfl
      | rotation session cutoff =>
          obtain ⟨found, hspent, _⟩ := hpermits
          refine h.of_same hpersists rfl hold ?_
          simp [Memory.track, Memory.taken, hspent]
  | useOneTimeToken model tokenHash now =>
      obtain ⟨hread, htaken, _, _, hmaintains⟩ :=
        (mem i).track_useOneTimeToken model tokenHash now s
      exact h.of_same hpersists hmaintains (fun found hfound => hold found (hread ▸ hfound)) htaken
  | _ => exact h.of_same hpersists rfl hold rfl

end Step

/-- **A refresh token is spent at most once**, in every run of requests whose rotations
revoke tokens that are still unrevoked then. -/
theorem refresh_token_spent_once [DecidableEq ι] (crypto : Crypto τ)
    (requests : ι → Request τ × Draws) (s : State) {schedule : List ι}
    (hfinds : Runs.Steps Pool.step (Pool.Finds fun _ => FindsUnrevoked)
      (serving crypto requests s) schedule)
    {i j : ι} (hne : i ≠ j) {raw raw' : String} (hi : (requests i).1 = .refresh raw)
    (hj : (requests j).1 = .refresh raw') (hsame : crypto.sha256 raw = crypto.sha256 raw') :
    answer? ((serving crypto requests s).run schedule) i = none ∨
      answer? ((serving crypto requests s).run schedule) j = none := by
  have hstart : Spending s (memories crypto requests) :=
    ⟨fun _ => rfl, fun _ _ => nofun, fun _ _ => nofun, fun _ _ _ _ _ => nofun⟩
  obtain ⟨mem, hobeys, hspending⟩ := Pool.run_obeys
    (fun s mem i q action h hallow hcond => hallow.1 ▸ h.step hallow.2 hcond)
    (serving_obeys crypto requests s) hstart hfinds
  have htook : ∀ k raw'', (requests k).1 = .refresh raw'' → ∀ response,
      answer? ((serving crypto requests s).run schedule) k = some response →
      ∃ found, (mem k).taken = some found ∧ found.token.tokenHash = crypto.sha256 raw'' :=
    fun k raw'' hk response hresponse =>
      (hobeys.of_done (answer?_eq_some.mp hresponse) response rfl).replaced raw'' hk
  by_contra hboth
  obtain ⟨hi', hj'⟩ := not_or.mp hboth
  obtain ⟨response, hresponse⟩ := Option.ne_none_iff_exists'.mp hi'
  obtain ⟨response', hresponse'⟩ := Option.ne_none_iff_exists'.mp hj'
  obtain ⟨found, htaken, hhash⟩ := htook i raw hi response hresponse
  obtain ⟨found', htaken', hhash'⟩ := htook j raw' hj response' hresponse'
  obtain ⟨row, hrow, hid, hrowHash, _⟩ := hspending.spent i found htaken
  obtain ⟨row', hrow', hid', hrowHash', _⟩ := hspending.spent j found' htaken'
  -- both requests have revoked the one row with the hash
  have hrows : row = row' := by
    refine Db.refreshToken_eq_of_hash hrow hrow' ?_
    calc row.tokenHash
      _ = crypto.sha256 raw := hrowHash.trans hhash
      _ = crypto.sha256 raw' := hsame
      _ = row'.tokenHash := (hrowHash'.trans hhash').symm
  refine hspending.distinct i j found found' hne htaken htaken' ?_
  rw [← hid, ← hid', hrows]

/-! ## Two schedules -/

/-- Parameters that can be computed with. -/
def sampleCrypto : Crypto Payload where
  sha256 raw := "sha256:" ++ raw
  makePassword _ raw := "hash:" ++ raw
  verifyPassword raw encoded := encoded == "hash:" ++ raw
  mustUpdate _ := false
  jwtEncode payload := payload
  jwtDecode now payload := payload.decoded now

/-- The draws of the `n`-th request: its clock stands still. -/
def sampleDraws (n : ℕ) : Draws where
  clock _ := 1700000000000000 + n
  id := BitVec.ofNat 128 (100 + n)
  raw := "raw-" ++ toString n
  rowId := BitVec.ofNat 128 (200 + n)
  salt := "salt"

def alice : Account where
  id := 1#128
  email := "alice@example.com"
  password := "hash:secret"
  isActive := true
  isVerified := true
  passwordChangedAt := none

/-- A session of the user, opened before the run. -/
def sampleToken : RefreshToken where
  id := 2#128
  userId := 1#128
  tokenHash := "sha256:stolen"
  expiresAt := 1700600000000000
  revokedAt := none

def sampleDb : Db where
  users := ⟨[alice], by decide⟩
  refreshTokens := ⟨[sampleToken], by decide⟩
  oneTime _ := .empty
  socialAccounts := .empty
  integral := by decide

/-- The holder of a token and who has stolen it both present it. -/
def bothRefresh (i : Fin 2) : Request Payload × Draws := (.refresh "stolen", sampleDraws i)

/-- The second rotation begins when the first is complete. -/
def refreshOneByOne : List (Fin 2) := [0, 0, 0, 1, 1]

theorem refresh_token_spent_one_by_one :
    answer? ((serving sampleCrypto bothRefresh (.start sampleDb fun _ => none)).run refreshOneByOne) 0 = none ∨
      answer? ((serving sampleCrypto bothRefresh (.start sampleDb fun _ => none)).run refreshOneByOne) 1 = none :=
  refresh_token_spent_once sampleCrypto bothRefresh (.start sampleDb fun _ => none) (by decide +kernel)
    (by decide) rfl rfl rfl

/-- Both rotations have read the token before either revokes it. -/
def refreshTogether : List (Fin 2) := [0, 1, 0, 1, 0, 1]

/-- Both are answered, and there are two live successors. -/
theorem refresh_token_spent_twice :
    (∀ i, (answer? ((serving sampleCrypto bothRefresh (.start sampleDb fun _ => none)).run refreshTogether)
      i).isSome) ∧
    (((serving sampleCrypto bothRefresh (.start sampleDb fun _ => none)).run
      refreshTogether).shared.db.refreshTokens.rows.countP fun token =>
        token.revokedAt.isNone) = 2 := by
  decide +kernel

end Saasmint.Auth
