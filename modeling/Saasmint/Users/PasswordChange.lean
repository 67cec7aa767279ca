import Saasmint.Users.Rotation

/-!
# Password changes among rotations

A password change revokes all refresh tokens of the user that are stored then.  A
rotation that has read its token before that inserts the successor afterwards, and the
successor is live although its session is one the change was to end.

The record says for each user how many sessions had been opened at the last such
revocation, the `cutoff`.  As long as every successor is inserted under the cutoff that
was read with its predecessor, every unrevoked token belongs to a session the cutoff does
not end (`Cutoffs`), whatever else runs: other requests, and the deletion of rows.
-/

namespace Saasmint.Auth

open Atomic Relational

variable {τ ι : Type}

/-! ## Servers -/

/-- Operations that have made no statement yet. -/
def operating (crypto : Crypto τ) (operations : ι → Operation τ × Draws) (s : State) :
    Pool ι Query State (Except AuthError (Response τ)) where
  shared := s
  procs i := ExceptT.run ((operations i).1.session crypto (operations i).2)

/-- What the operations of a server remember before their first statement. -/
def operationMemories (crypto : Crypto τ) (operations : ι → Operation τ × Draws) (i : ι) : Memory :=
  .start ((operations i).1.presents crypto) true

theorem operating_obeys (crypto : Crypto τ) (operations : ι → Operation τ × Draws) (s : State) :
    (operating crypto operations s).Obeys (fun _ => discipline)
      (fun i mem result => ∀ response, result = .ok response →
        (operations i).1.Kept crypto (operations i).2 response mem)
      (operationMemories crypto operations) :=
  fun i => keeps_operation crypto (operations i).2 (operations i).1 rfl rfl

/-- The next statement of `i` is `q`. -/
def Makes {α : Type} (pool : Pool ι Query State α) (i : ι) (q : Query) : Prop :=
  ∃ action next, pool.procs i = .act q action next

/-! ## Cutoffs -/

/-- The successor of a token is inserted under the cutoff that was read with the token. -/
def FindsCutoff : Query → State → Prop
  | .insertRefreshToken token (.rotation _ cutoff), s => s.lineage.cutoff token.userId = cutoff
  | _, _ => True

instance (q : Query) (s : State) : Decidable (FindsCutoff q s) := by
  apply @Query.casesOn (fun q => Decidable (FindsCutoff q s)) q
  case insertRefreshToken =>
    intro token origin
    apply @Origin.casesOn (fun origin => Decidable (FindsCutoff (.insertRefreshToken token origin) s))
      origin
    all_goals intros; unfold FindsCutoff; infer_instance
  all_goals intros; unfold FindsCutoff; infer_instance

/-- Every unrevoked token belongs to a session that was opened after the cutoff of its
user, or at it. -/
structure Cutoffs (s : State) (mem : ι → Memory) : Prop where
  bounded : ∀ userId, s.lineage.cutoff userId ≤ s.lineage.opened
  unrevoked : ∀ token ∈ s.db.refreshTokens.rows, token.revokedAt = none →
    s.lineage.cutoff token.userId ≤ s.lineage.sessionOf token.id
  read : ∀ i found, (mem i).read = some found → found.cutoff ≤ found.session
  spent : ∀ i found, (mem i).spent = some found → found.cutoff ≤ found.session

theorem cutoff_close (lineage : Lineage) (userId other : UUID) :
    (lineage.close userId).cutoff other =
      if other = userId then lineage.opened else lineage.cutoff other := by
  unfold Lineage.close
  by_cases h : other = userId
  · simp [h]
  · simp [h]

theorem cutoff_record (lineage : Lineage) (id : UUID) (origin : Origin) :
    (lineage.record id origin).cutoff = lineage.cutoff := by
  cases origin <;> rfl

theorem opened_le_record (lineage : Lineage) (id : UUID) (origin : Origin) :
    lineage.opened ≤ (lineage.record id origin).opened := by
  cases origin with
  | login => exact Nat.le_succ _
  | rotation session cutoff => exact Nat.le_refl _

theorem sessionOf_record_login (lineage : Lineage) (id : UUID) :
    (lineage.record id .login).sessionOf id = lineage.opened := by
  simp [Lineage.record]

theorem sessionOf_record_rotation (lineage : Lineage) (id : UUID) (session cutoff : ℕ) :
    (lineage.record id (.rotation session cutoff)).sessionOf id = session := by
  simp [Lineage.record]

theorem sessionOf_record_of_ne (lineage : Lineage) {id other : UUID} (origin : Origin)
    (h : other ≠ id) : (lineage.record id origin).sessionOf other = lineage.sessionOf other := by
  cases origin <;> exact Function.update_of_ne h _ _

section Step

variable {s s' : State} {mem : ι → Memory} {i : ι} {q : Query}

/-- The session of an inserted token is one that its user's cutoff does not end. -/
theorem Cutoffs.of_insert (h : Cutoffs s mem) {token : RefreshToken} {origin : Origin}
    (hpermits : (mem i).Permits (.insertRefreshToken token origin))
    (hfinds : FindsCutoff (.insertRefreshToken token origin) s) :
    s.lineage.cutoff token.userId ≤ (s.lineage.record token.id origin).sessionOf token.id := by
  cases origin with
  | login =>
      calc s.lineage.cutoff token.userId
        _ ≤ s.lineage.opened := h.bounded token.userId
        _ = (s.lineage.record token.id .login).sessionOf token.id :=
            (sessionOf_record_login s.lineage token.id).symm
  | rotation session cutoff =>
      obtain ⟨found, hspent, hsession, hcutoff⟩ := hpermits
      calc s.lineage.cutoff token.userId
        _ = cutoff := hfinds
        _ ≤ session := hsession ▸ hcutoff ▸ h.spent i found hspent
        _ = (s.lineage.record token.id (.rotation session cutoff)).sessionOf token.id :=
            (sessionOf_record_rotation s.lineage token.id session cutoff).symm

/-- What a query leaves of the cutoffs: they only grow, and every unrevoked token is
behind the one of its user. -/
theorem Cutoffs.touches (h : Cutoffs s mem) (htouches : Touches s s' q)
    (hpermits : (mem i).Permits q) (hfinds : FindsCutoff q s) :
    (∀ userId, s'.lineage.cutoff userId ≤ s'.lineage.opened) ∧
    (∀ userId, s.lineage.cutoff userId ≤ s'.lineage.cutoff userId) ∧
    ∀ token ∈ s'.db.refreshTokens.rows, token.revokedAt = none →
      s'.lineage.cutoff token.userId ≤ s'.lineage.sessionOf token.id := by
  cases htouches with
  | nothing hrows hlineage =>
      rw [hrows, hlineage]
      exact ⟨h.bounded, fun _ => le_refl _, h.unrevoked⟩
  | @revoke _ selected now hrevokes hrows hlineage =>
      -- what is unrevoked now was so before, and was not selected
      have hkept : ∀ token ∈ s'.db.refreshTokens.rows, token.revokedAt = none →
          ∃ old ∈ s.db.refreshTokens.rows, old.revokedAt = none ∧ selected old = false ∧
            token.id = old.id ∧ token.userId = old.userId := by
        intro token htoken hnone
        rw [hrows] at htoken
        obtain ⟨old, hold, rfl⟩ := List.mem_map.mp htoken
        obtain ⟨holdNone, hnot⟩ := RefreshToken.revokedAt_revoke_eq_none.mp hnone
        exact ⟨old, hold, holdNone, hnot, rfl, rfl⟩
      rcases hlineage with hlineage | ⟨userId, rfl, hlineage⟩
      · rw [hlineage]
        refine ⟨h.bounded, fun _ => le_refl _, fun token htoken hnone => ?_⟩
        obtain ⟨old, hold, holdNone, _, hid, huser⟩ := hkept token htoken hnone
        rw [hid, huser]
        exact h.unrevoked old hold holdNone
      · obtain ⟨rfl, -⟩ := Prod.mk.inj (Option.some.inj hrevokes)
        rw [hlineage]
        refine ⟨fun other => ?_, fun other => ?_, fun token htoken hnone => ?_⟩
        · rw [cutoff_close]
          split
          · exact le_refl _
          · exact h.bounded other
        · rw [cutoff_close]
          split
          · exact h.bounded other
          · exact le_refl _
        · obtain ⟨old, hold, holdNone, hnot, hid, huser⟩ := hkept token htoken hnone
          have hother : old.userId ≠ userId := by
            intro hsame
            simp [hsame, holdNone] at hnot
          rw [cutoff_close, hid, huser, if_neg hother]
          exact h.unrevoked old hold holdNone
  | @insert token origin db hinsert hdb hlineage =>
      rw [hlineage, cutoff_record]
      refine ⟨fun userId => ?_, fun _ => le_refl _, fun other hother hnone => ?_⟩
      · exact (h.bounded userId).trans (opened_le_record _ _ _)
      · rw [hdb, (Db.insertRefreshToken_eq_ok hinsert).1] at hother
        rcases List.mem_append.mp hother with hold | hnew
        · rw [sessionOf_record_of_ne _ _ (Db.ne_of_insertRefreshToken hinsert hold).1]
          exact h.unrevoked other hold hnone
        · rw [List.mem_singleton.mp hnew]
          exact h.of_insert hpermits hfinds
  | delete _ hrows hlineage =>
      rw [hlineage]
      exact ⟨h.bounded, fun _ => le_refl _, fun token htoken => h.unrevoked token (hrows token htoken)⟩

/-- What is read of a live token, and what has been revoked of it, is behind the cutoff. -/
theorem Cutoffs.track (h : Cutoffs s mem) (i : ι) (q : Query) :
    (∀ found, ((mem i).track q s).read = some found → found.cutoff ≤ found.session) ∧
    ∀ found, ((mem i).track q s).spent = some found → found.cutoff ≤ found.session := by
  cases q with
  | selectRefreshToken tokenHash =>
      refine ⟨fun found hfound => ?_, h.spent i⟩
      simp only [Memory.track, Option.filter_eq_some_iff, decide_eq_true_eq] at hfound
      obtain ⟨hfound, hnone⟩ := hfound
      obtain ⟨⟨htoken, _⟩, _, hsession, hcutoff⟩ := State.found?_eq_some.mp hfound
      rw [hsession, hcutoff]
      exact h.unrevoked found.token htoken hnone
  | revokeToken id now =>
      refine ⟨fun found hfound => ?_, h.read i⟩
      cases hfound
  | insertRefreshToken token origin =>
      cases origin with
      | login => exact ⟨h.read i, h.spent i⟩
      | rotation session cutoff =>
          refine ⟨h.read i, fun found hfound => ?_⟩
          cases hfound
  | useOneTimeToken model tokenHash now =>
      obtain ⟨hread, _, hspent, _⟩ := (mem i).track_useOneTimeToken model tokenHash now s
      rw [hread, hspent]
      exact ⟨h.read i, h.spent i⟩
  | _ => exact ⟨h.read i, h.spent i⟩

/-- Only a mass revocation of the user is remembered as one. -/
theorem closed_track {mem : Memory} {userId : UUID} (h : mem.closed ≠ some userId)
    (hq : ∀ now, q ≠ .revokeAll userId now) : (mem.track q s).closed ≠ some userId := by
  cases q with
  | revokeAll other now =>
      intro hsame
      obtain rfl : other = userId := Option.some.inj hsame
      exact hq now rfl
  | insertRefreshToken token origin => cases origin <;> exact h
  | useOneTimeToken model tokenHash now =>
      rw [(mem.track_useOneTimeToken model tokenHash now s).2.2.2.1]
      exact h
  | _ => exact h

theorem Cutoffs.step [DecidableEq ι] (h : Cutoffs s mem) (hpermits : (mem i).Permits q)
    (hfinds : FindsCutoff q s) :
    Cutoffs (effect q s) (Function.update mem i ((mem i).track q s)) := by
  obtain ⟨hbounded, _, hunrevoked⟩ := h.touches (Auth.touches q s) hpermits hfinds
  obtain ⟨hread, hspent⟩ := h.track i q
  refine ⟨hbounded, hunrevoked, fun j found hfound => ?_, fun j found hfound => ?_⟩
  · by_cases hj : j = i
    · subst hj
      exact hread found (by simpa using hfound)
    · exact h.read j found (by simpa [Function.update_of_ne hj] using hfound)
  · by_cases hj : j = i
    · subst hj
      exact hspent found (by simpa using hfound)
    · exact h.spent j found (by simpa [Function.update_of_ne hj] using hfound)

end Step

/-! ## Runs -/

section Runs

variable [DecidableEq ι] (crypto : Crypto τ) (operations : ι → Operation τ × Draws)
variable (db : Db) (cache : String → Option Account)

variable {db cache operations}

omit [DecidableEq ι] in
theorem cutoffs_start :
    Cutoffs (State.start db cache) (operationMemories crypto operations) :=
  ⟨fun _ => Nat.zero_le _, fun _ _ _ => Nat.zero_le _, fun _ _ => nofun, fun _ _ => nofun⟩

/-- The statement of a run at which an answered password change revokes the user's
tokens. -/
theorem exists_revocation {schedule : List ι} {i : ι} {request : Request τ} (hi : (operations i).1 = .view request)
    (hchanges : request.changesPassword = true) {user : Account} {access : τ} {refresh : String}
    (hanswer : answer? ((operating crypto operations (.start db cache)).run schedule) i =
      some (.tokens user access refresh)) :
    ∃ first rest now, schedule = first ++ i :: rest ∧
      Makes ((operating crypto operations (.start db cache)).run first) i
        (.revokeAll user.id now) := by
  have hclosed : ∀ mem, ((operating crypto operations (.start db cache)).run schedule).Obeys
      (fun _ => discipline) (fun i mem result => ∀ response, result = .ok response →
        (operations i).1.Kept crypto (operations i).2 response mem) mem →
      (mem i).closed = some user.id := by
    intro mem hobeys
    have hkept := hobeys.of_done (answer?_eq_some.mp hanswer) _ rfl
    rw [hi] at hkept
    obtain ⟨_, _, _, hsame, hremembers⟩ := Auth.Kept.closed hkept hchanges
    cases hsame
    exact hremembers
  -- only a mass revocation is remembered as one
  have htrack : ∀ (m : Memory) (q : Query) (s : State), ¬ m.closed = some user.id →
      ¬ (∃ now, q = .revokeAll user.id now) → ¬ (m.track q s).closed = some user.id :=
    fun m q s hopen hq => closed_track hopen fun now hsame => hq ⟨now, hsame⟩
  obtain ⟨first, rest, q, action, next, hsplit, hproc, now, rfl⟩ := Pool.exists_act_of_run
    (operating_obeys crypto operations (.start db cache)) nofun htrack hclosed
  exact ⟨first, rest, now, hsplit, action, next, hproc⟩

/-- The cutoff of a user is never lowered. -/
theorem cutoff_le_run {pool : Pool ι Query State (Except AuthError (Response τ))}
    {mem : ι → Memory} {post : ι → Memory → Except AuthError (Response τ) → Prop}
    (hobeys : pool.Obeys (fun _ => discipline) post mem) (hcutoffs : Cutoffs pool.shared mem)
    {schedule : List ι} (hfinds : Runs.Steps Pool.step (Pool.Finds fun _ => FindsCutoff) pool schedule)
    {userId : UUID} {n : ℕ} (hn : n ≤ pool.shared.lineage.cutoff userId) :
    ∃ mem' : ι → Memory, Cutoffs (pool.run schedule).shared mem' ∧
      n ≤ (pool.run schedule).shared.lineage.cutoff userId := by
  have hstep : ∀ (s : State) (mem : ι → Memory) (j : ι) (q : Query) (action : State → State),
      Cutoffs s mem ∧ n ≤ s.lineage.cutoff userId → discipline.allow (mem j) q action →
      FindsCutoff q s →
      Cutoffs (action s) (Function.update mem j (discipline.track (mem j) q s)) ∧
        n ≤ (action s).lineage.cutoff userId := by
    rintro s mem j q _ ⟨hcutoffs, hn⟩ ⟨rfl, hpermits⟩ hfinds
    obtain ⟨_, hgrow, _⟩ := hcutoffs.touches (touches q s) hpermits hfinds
    exact ⟨hcutoffs.step hpermits hfinds, hn.trans (hgrow userId)⟩
  obtain ⟨mem', _, hend⟩ := Pool.run_obeys hstep hobeys ⟨hcutoffs, hn⟩ hfinds
  exact ⟨mem', hend⟩

/-- **A password change ends all earlier sessions**: in every run of operations whose
successors are inserted under the cutoff read with their predecessors, when a password
change or reset has answered, there is a statement of it after which every unrevoked
token of the user belongs to a session that was not open then. -/
theorem password_change_ends_sessions {schedule : List ι}
    (hfinds : Runs.Steps Pool.step (Pool.Finds fun _ => FindsCutoff)
      (operating crypto operations (.start db cache)) schedule)
    {i : ι} {request : Request τ} (hi : (operations i).1 = .view request)
    (hchanges : request.changesPassword = true) {user : Account} {access : τ} {refresh : String}
    (hanswer : answer? ((operating crypto operations (.start db cache)).run schedule) i =
      some (.tokens user access refresh)) :
    ∃ first rest now, schedule = first ++ i :: rest ∧
      Makes ((operating crypto operations (.start db cache)).run first) i
        (.revokeAll user.id now) ∧
      ∀ token ∈ ((operating crypto operations (.start db cache)).run
          schedule).shared.db.refreshTokens.rows,
        token.userId = user.id → token.revokedAt = none →
        ((operating crypto operations (.start db cache)).run first).shared.lineage.opened ≤
          ((operating crypto operations (.start db cache)).run
            schedule).shared.lineage.sessionOf token.id := by
  obtain ⟨first, rest, now, rfl, hmakes⟩ := exists_revocation crypto hi hchanges hanswer
  refine ⟨first, rest, now, rfl, hmakes, fun token htoken huser hnone => ?_⟩
  have hbefore : Runs.Steps Pool.step (Pool.Finds fun _ => FindsCutoff)
      (operating crypto operations (.start db cache)) first := hfinds.take
  obtain ⟨mem, hobeys, hcutoffs⟩ := Pool.run_obeys
    (fun s mem i q action (h : Cutoffs s mem) hallow hcond => hallow.1 ▸ h.step hallow.2 hcond)
    (operating_obeys crypto operations (.start db cache)) (cutoffs_start crypto) hbefore
  obtain ⟨action, next, hproc⟩ := hmakes
  have hhere := hobeys i
  rw [hproc] at hhere
  obtain ⟨hmade, hpermits⟩ := hhere.1
  -- the revocation raises the cutoff to the sessions opened by then
  have hraised : ((operating crypto operations (.start db cache)).run first).shared.lineage.opened
      ≤ (((operating crypto operations (.start db cache)).run first).step
          i).shared.lineage.cutoff user.id := by
    rw [Pool.step_act hproc, hmade]
    show _ ≤ (Lineage.close _ user.id).cutoff user.id
    rw [cutoff_close, if_pos rfl]
  obtain ⟨hfirst, hrest⟩ := Runs.steps_cons.mp hfinds.drop
  have hobeys' := Pool.step_obeys hobeys i
  have hcutoffs' : Cutoffs (((operating crypto operations (.start db cache)).run first).step
      i).shared (Pool.track ((operating crypto operations (.start db cache)).run first)
        (fun _ => discipline) mem i) := by
    rw [Pool.step_act hproc, Pool.track_act hproc, hmade]
    exact hcutoffs.step hpermits trivial
  obtain ⟨mem', hend, hraised'⟩ := cutoff_le_run hobeys' hcutoffs' hrest hraised
  rw [Pool.run_append, Pool.run_cons] at htoken ⊢
  calc ((operating crypto operations (.start db cache)).run first).shared.lineage.opened
    _ ≤ _ := hraised'
    _ = _ := by rw [huser]
    _ ≤ _ := hend.unrevoked token htoken hnone

end Runs

/-! ## Two schedules -/

/-- An access token of the user. -/
def aliceBearer : Payload where
  sub := uuidText alice.id
  email := alice.email
  type := "access"
  iat := 1700000000000000
  exp := 1700000900000000
  pwdIat := 0

/-- The stolen token is presented, and the user changes the password. -/
def refreshAndChange (i : Fin 2) : Operation Payload × Draws :=
  (.view (if i = 0 then .refresh "stolen" else .changePassword aliceBearer "secret" "new"),
    sampleDraws i)

/-- The user after the change. -/
def changedAlice : Account :=
  { alice with password := "hash:new", passwordChangedAt := some 1700000000000001 }

/-- The rotation is complete before the password is changed. -/
def refreshThenChange : List (Fin 2) := [0, 0, 0, 1, 1, 1, 1, 1, 1, 1]

theorem password_change_ends_rotated_session :
    ∃ first rest now, refreshThenChange = first ++ 1 :: rest ∧
      Makes ((operating sampleCrypto refreshAndChange
        (.start sampleDb fun _ => none)).run first) 1 (.revokeAll changedAlice.id now) ∧
      ∀ token ∈ ((operating sampleCrypto refreshAndChange
          (.start sampleDb fun _ => none)).run refreshThenChange).shared.db.refreshTokens.rows,
        token.userId = changedAlice.id → token.revokedAt = none →
        ((operating sampleCrypto refreshAndChange
            (.start sampleDb fun _ => none)).run first).shared.lineage.opened ≤
          ((operating sampleCrypto refreshAndChange (.start sampleDb fun _ => none)).run
            refreshThenChange).shared.lineage.sessionOf token.id :=
  password_change_ends_sessions sampleCrypto (by decide +kernel) rfl rfl
    (show answer? _ _ = some (.tokens changedAlice
      (createAccessToken sampleCrypto changedAlice 1700000000000001) "raw-1") by decide +kernel)

/-- The rotation has read and revoked its token before the password is changed, and
inserts the successor afterwards. -/
def changeAmidRefresh : List (Fin 2) := [0, 0, 1, 1, 1, 1, 1, 1, 1, 0]

/-- Both are answered, and a token of the session that was open before is live. -/
theorem session_survives_password_change :
    (∀ i, (answer? ((operating sampleCrypto refreshAndChange
      (.start sampleDb fun _ => none)).run changeAmidRefresh) i).isSome) ∧
    ∃ token ∈ ((operating sampleCrypto refreshAndChange
        (.start sampleDb fun _ => none)).run changeAmidRefresh).shared.db.refreshTokens.rows,
      token.userId = alice.id ∧ token.revokedAt = none ∧
        ((operating sampleCrypto refreshAndChange (.start sampleDb fun _ => none)).run
          changeAmidRefresh).shared.lineage.sessionOf token.id = 0 := by
  decide +kernel

end Saasmint.Auth
