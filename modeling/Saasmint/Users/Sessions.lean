import Saasmint.Users.PasswordChange

/-!
# Sessions, one operation after another

A run of operations none of which overlap, any of them possibly stopped between two
statements.  A session is what a login opens and rotations continue, and it has at most
one unrevoked token in every state of such a run (`Branches`): a rotation inserts the
successor after it has revoked the one token of the session.

A rotation that is given a revoked token fails, and its failure leaves the user without
unrevoked tokens and everybody else's tokens as they were.
-/

namespace Saasmint.Auth

open Atomic Relational

variable {τ : Type}

/-! ## Runs -/

/-- An operation that is run alone, to its end or up to some statement of it. -/
structure Turn (τ : Type) where
  operation : Operation τ
  draws : Draws
  stop : Option ℕ

/-- The state a turn leaves. -/
def Turn.after (crypto : Crypto τ) (s : State) (turn : Turn τ) : State :=
  match turn.stop with
  | none => (Fallible.exec (turn.operation.session crypto turn.draws) s).2
  | some n => Program.after n (ExceptT.run (turn.operation.session crypto turn.draws)) s

/-! ## Branches -/

/-- Every session has at most one unrevoked token; the one that has been read is the one
of its session, and the session of one that has been revoked has none left. -/
structure Branches (mem : Memory) (s : State) : Prop where
  issued : ∀ token ∈ s.db.refreshTokens.rows, s.lineage.sessionOf token.id < s.lineage.opened
  single : ∀ token ∈ s.db.refreshTokens.rows, ∀ token' ∈ s.db.refreshTokens.rows,
    token.revokedAt = none → token'.revokedAt = none →
    s.lineage.sessionOf token.id = s.lineage.sessionOf token'.id → token = token'
  read : ∀ found, mem.read = some found → found.session < s.lineage.opened ∧
    ∀ token ∈ s.db.refreshTokens.rows, token.revokedAt = none →
      s.lineage.sessionOf token.id = found.session → token.id = found.token.id
  spent : ∀ found, mem.spent = some found → found.session < s.lineage.opened ∧
    ∀ token ∈ s.db.refreshTokens.rows, token.revokedAt = none →
      s.lineage.sessionOf token.id ≠ found.session
  apart : ∀ found found', mem.read = some found → mem.spent = some found' →
    found.session ≠ found'.session

section Step

variable {mem : Memory} {s s' : State} {q : Query}

/-- Unrevoked tokens have only become fewer, and no session has been opened. -/
def Fewer (s s' : State) : Prop :=
  s'.lineage.opened = s.lineage.opened ∧ s'.lineage.sessionOf = s.lineage.sessionOf ∧
  (∀ token ∈ s'.db.refreshTokens.rows, ∃ old ∈ s.db.refreshTokens.rows, old.id = token.id) ∧
  ∀ token ∈ s'.db.refreshTokens.rows, token.revokedAt = none → token ∈ s.db.refreshTokens.rows

theorem fewer_of_touches (h : Touches s s' q)
    (hq : q.inserts = false) : Fewer s s' := by
  cases h with
  | nothing hrows hlineage =>
      rw [Fewer, hrows, hlineage]
      exact ⟨rfl, rfl, fun token htoken => ⟨token, htoken, rfl⟩, fun token htoken _ => htoken⟩
  | @revoke _ selected now _ hrows hlineage =>
      have hrecord : s'.lineage.opened = s.lineage.opened ∧
          s'.lineage.sessionOf = s.lineage.sessionOf := by
        rcases hlineage with hlineage | ⟨userId, _, hlineage⟩
        · rw [hlineage]
          exact ⟨rfl, rfl⟩
        · rw [hlineage]
          exact ⟨rfl, rfl⟩
      refine ⟨hrecord.1, hrecord.2, fun token htoken => ?_, fun token htoken hnone => ?_⟩
      · rw [hrows] at htoken
        obtain ⟨old, hold, rfl⟩ := List.mem_map.mp htoken
        exact ⟨old, hold, rfl⟩
      · rw [hrows] at htoken
        obtain ⟨old, hold, rfl⟩ := List.mem_map.mp htoken
        rwa [RefreshToken.revoke_of_not_selected (RefreshToken.revokedAt_revoke_eq_none.mp hnone).2]
  | insert _ _ _ => cases hq
  | delete _ hrows hlineage =>
      rw [Fewer, hlineage]
      exact ⟨rfl, rfl, fun token htoken => ⟨token, hrows token htoken, rfl⟩,
        fun token htoken _ => hrows token htoken⟩

/-- Fewer unrevoked tokens are no more in a session. -/
theorem Branches.of_fewer (h : Branches mem s) (hfewer : Fewer s s') : Branches mem s' := by
  obtain ⟨hopened, hsessions, hids, hrows⟩ := hfewer
  refine ⟨fun token htoken => ?_, fun token htoken token' htoken' hnone hnone' hsame => ?_,
    fun found hfound => ?_, fun found hfound => ?_, h.apart⟩
  · obtain ⟨old, hold, hid⟩ := hids token htoken
    rw [hopened, hsessions, ← hid]
    exact h.issued old hold
  · rw [hsessions] at hsame
    exact h.single token (hrows token htoken hnone) token' (hrows token' htoken' hnone')
      hnone hnone' hsame
  · obtain ⟨hissued, honly⟩ := h.read found hfound
    rw [hopened, hsessions]
    exact ⟨hissued, fun token htoken hnone => honly token (hrows token htoken hnone) hnone⟩
  · obtain ⟨hissued, hnone'⟩ := h.spent found hfound
    rw [hopened, hsessions]
    exact ⟨hissued, fun token htoken hnone => hnone' token (hrows token htoken hnone) hnone⟩

/-- The same with a memory that has no more refresh tokens in it. -/
theorem Branches.of_memory (h : Branches mem s) {mem' : Memory} (hread : mem'.read = mem.read)
    (hspent : mem'.spent = mem.spent) : Branches mem' s :=
  ⟨h.issued, h.single, hread ▸ h.read, hspent ▸ h.spent,
    fun found found' hfound hfound' => h.apart found found' (hread ▸ hfound) (hspent ▸ hfound')⟩

/-- A token that is read is the one unrevoked token of its session. -/
theorem Branches.select (h : Branches mem s) (tokenHash : String) :
    Branches (mem.track (.selectRefreshToken tokenHash) s) s := by
  have hfound : ∀ found, (mem.track (.selectRefreshToken tokenHash) s).read = some found →
      found.token ∈ s.db.refreshTokens.rows ∧ found.token.revokedAt = none ∧
        found.session = s.lineage.sessionOf found.token.id := by
    intro found hread
    simp only [Memory.track, Option.filter_eq_some_iff, decide_eq_true_eq] at hread
    obtain ⟨⟨htoken, _⟩, _, hsession, _⟩ := State.found?_eq_some.mp hread.1
    exact ⟨htoken, hread.2, hsession⟩
  refine ⟨h.issued, h.single, fun found hread => ?_, h.spent, fun found found' hread hspent => ?_⟩
  · obtain ⟨htoken, hnone, hsession⟩ := hfound found hread
    rw [hsession]
    refine ⟨h.issued _ htoken, fun token htoken' hnone' hsame => ?_⟩
    rw [h.single token htoken' found.token htoken hnone' hnone hsame]
  · obtain ⟨htoken, hnone, hsession⟩ := hfound found hread
    rw [hsession]
    exact (h.spent found' hspent).2 found.token htoken hnone

/-- The session of a token that is revoked by a rotation has no other. -/
theorem Branches.revoke (h : Branches mem s) {now : Datetime} {found : Session.Found}
    (hread : mem.read = some found) :
    Branches (mem.track (.revokeToken found.token.id now) s)
      (effect (.revokeToken found.token.id now) s) := by
  have hkept := h.of_fewer (fewer_of_touches (touches (.revokeToken found.token.id now) s) rfl)
  have htrack : mem.track (.revokeToken found.token.id now) s =
      { mem with read := none, spent := some found } := by rw [← hread]; rfl
  rw [htrack]
  refine ⟨hkept.issued, hkept.single, fun _ => nofun, fun spent hspent => ?_, fun _ _ => nofun⟩
  obtain rfl : found = spent := Option.some.inj hspent
  obtain ⟨hissued, honly⟩ := hkept.read found hread
  refine ⟨hissued, fun token htoken hnone hsame => ?_⟩
  have hid := honly token htoken hnone hsame
  -- but the row with the key of the token is revoked now
  rw [(effect_revokeToken found.token.id now s).1] at htoken
  obtain ⟨old, _, rfl⟩ := List.mem_map.mp htoken
  have hnot := (RefreshToken.revokedAt_revoke_eq_none.mp hnone).2
  rw [RefreshToken.revoke_id] at hid
  simp [hid] at hnot

/-- A token that is inserted is the only one of its session. -/
theorem Branches.insert (h : Branches mem s) {token : RefreshToken} {origin : Origin} {db : Db}
    (hpermits : mem.Permits (.insertRefreshToken token origin))
    (hinsert : s.db.insertRefreshToken token = .ok db) :
    Branches (mem.track (.insertRefreshToken token origin) s)
      { s with db, lineage := s.lineage.record token.id origin } := by
  have hrows := (Db.insertRefreshToken_eq_ok hinsert).1
  have hold : ∀ old ∈ s.db.refreshTokens.rows,
      (s.lineage.record token.id origin).sessionOf old.id = s.lineage.sessionOf old.id :=
    fun old hmem => sessionOf_record_of_ne _ _ (Db.ne_of_insertRefreshToken hinsert hmem).1
  have hle := opened_le_record s.lineage token.id origin
  -- the session of the new token: one that is opened now, or one that has no other token
  obtain ⟨hissued, hfresh, hread, hspent⟩ :
      (s.lineage.record token.id origin).sessionOf token.id <
          (s.lineage.record token.id origin).opened ∧
        (∀ old ∈ s.db.refreshTokens.rows, old.revokedAt = none →
          s.lineage.sessionOf old.id ≠ (s.lineage.record token.id origin).sessionOf token.id) ∧
        (∀ found, (mem.track (.insertRefreshToken token origin) s).read = some found →
          mem.read = some found ∧
            (s.lineage.record token.id origin).sessionOf token.id ≠ found.session) ∧
        ∀ found, (mem.track (.insertRefreshToken token origin) s).spent = some found →
          mem.spent = some found ∧
            (s.lineage.record token.id origin).sessionOf token.id ≠ found.session := by
    cases origin with
    | login =>
        rw [sessionOf_record_login]
        refine ⟨Nat.lt_succ_self _, fun old hmem _ => (h.issued old hmem).ne,
          fun found hfound => ⟨hfound, ?_⟩, fun found hfound => ⟨hfound, ?_⟩⟩
        · exact (h.read found hfound).1.ne'
        · exact (h.spent found hfound).1.ne'
    | rotation session cutoff =>
        obtain ⟨found, hfound, rfl, _⟩ := hpermits
        rw [sessionOf_record_rotation]
        obtain ⟨hissued, hnone⟩ := h.spent found hfound
        refine ⟨hissued, hnone, fun read hread => ⟨hread, ?_⟩, nofun⟩
        exact (h.apart read found hread hfound).symm
  have hmem : ∀ other ∈ db.refreshTokens.rows, other ∈ s.db.refreshTokens.rows ∨ other = token := by
    intro other hother
    rw [hrows] at hother
    exact (List.mem_append.mp hother).imp_right List.mem_singleton.mp
  refine ⟨fun other hother => ?_, fun a ha b hb hnoneA hnoneB hsame => ?_, fun found hfound => ?_,
    fun found hfound => ?_, fun found found' hfound hfound' => ?_⟩
  · rcases hmem other hother with hmem | rfl
    · show (s.lineage.record token.id origin).sessionOf other.id < _
      rw [hold other hmem]
      exact (h.issued other hmem).trans_le hle
    · exact hissued
  · change (s.lineage.record token.id origin).sessionOf a.id =
      (s.lineage.record token.id origin).sessionOf b.id at hsame
    rcases hmem a ha with hmemA | rfl
    · rw [hold a hmemA] at hsame
      rcases hmem b hb with hmemB | rfl
      · rw [hold b hmemB] at hsame
        exact h.single a hmemA b hmemB hnoneA hnoneB hsame
      · exact absurd hsame (hfresh a hmemA hnoneA)
    · rcases hmem b hb with hmemB | rfl
      · rw [hold b hmemB] at hsame
        exact absurd hsame.symm (hfresh b hmemB hnoneB)
      · rfl
  · obtain ⟨hfound, hne⟩ := hread found hfound
    obtain ⟨hopened, honly⟩ := h.read found hfound
    refine ⟨hopened.trans_le hle, fun other hother hnone hsame => ?_⟩
    rcases hmem other hother with hmem | rfl
    · refine honly other hmem hnone ?_
      rw [← hold other hmem]
      exact hsame
    · exact absurd hsame hne
  · obtain ⟨hfound, hne⟩ := hspent found hfound
    obtain ⟨hopened, hnone'⟩ := h.spent found hfound
    refine ⟨hopened.trans_le hle, fun other hother hnone hsame => ?_⟩
    rcases hmem other hother with hmem | rfl
    · refine hnone' other hmem hnone ?_
      rw [← hold other hmem]
      exact hsame
    · exact hne hsame
  · exact h.apart found found' (hread found hfound).1 (hspent found' hfound').1

theorem Branches.step (h : Branches mem s) (hpermits : mem.Permits q) :
    Branches (mem.track q s) (effect q s) := by
  cases q with
  | selectRefreshToken tokenHash => exact h.select tokenHash
  | revokeToken id now =>
      obtain ⟨found, hread, rfl⟩ := hpermits
      exact h.revoke hread
  | insertRefreshToken token origin =>
      rcases hinsert : s.db.insertRefreshToken token with e | db
      · rw [effect_insertRefreshToken_error hinsert]
        cases origin with
        | login => exact h
        | rotation session cutoff => exact ⟨h.issued, h.single, h.read, nofun, fun _ _ _ => nofun⟩
      · rw [effect_insertRefreshToken_ok hinsert]
        exact h.insert hpermits hinsert
  | useOneTimeToken model tokenHash now =>
      obtain ⟨hread, _, hspent, _⟩ := mem.track_useOneTimeToken model tokenHash now s
      exact (h.of_fewer (fewer_of_touches (touches _ s) rfl)).of_memory hread hspent
  | _ => exact (h.of_fewer (fewer_of_touches (touches _ s) rfl)).of_memory rfl rfl

end Step

/-! ## Turns -/

section Turns

variable (crypto : Crypto τ) {s : State}

/-- What holds of the state alone. -/
theorem Branches.forget {mem : Memory} (h : Branches mem s)
    (presents : Option (OneTimeModel × String)) (maintains : Bool) :
    Branches (.start presents maintains) s :=
  ⟨h.issued, h.single, fun _ => nofun, fun _ => nofun, fun _ _ => nofun⟩

/-- An operation, stopped or not, leaves every session with at most one unrevoked token. -/
theorem Branches.turn {mem : Memory} (h : Branches mem s) (turn : Turn τ) :
    ∃ mem', Branches mem' (turn.after crypto s) := by
  have hkeeps : (turn.operation.session crypto turn.draws).Keeps
      (fun m response => turn.operation.Kept crypto turn.draws response m)
      (.start (turn.operation.presents crypto) true) :=
    keeps_operation crypto turn.draws turn.operation rfl rfl
  have hstart := h.forget (turn.operation.presents crypto) true
  have hstep : ∀ (mem : Memory) (q : Query) (action : State → State) (t : State), Branches mem t →
      discipline.allow mem q action → Branches (discipline.track mem q t) (action t) := by
    intro mem q action t hbranches hallow
    rw [hallow.1]
    exact hbranches.step hallow.2
  unfold Turn.after
  cases turn.stop with
  | none =>
      obtain ⟨mem', hbranches, _⟩ := Program.Obeys.run hstep hkeeps hstart
      exact ⟨mem', hbranches⟩
  | some n => exact Program.Obeys.after hstep hkeeps hstart n

theorem branches_run {mem : Memory} (h : Branches mem s) (turns : List (Turn τ)) :
    ∃ mem', Branches mem' (Runs.run (Turn.after crypto) s turns) := by
  induction turns generalizing s mem with
  | nil => exact ⟨mem, h⟩
  | cons turn turns ih =>
      obtain ⟨mem', hturn⟩ := h.turn crypto turn
      exact ih hturn

/-! ## Reuse -/

/-- A rotation that is given a revoked token fails, and has revoked every token of the
user and touched nobody else's. -/
theorem rotate_revoked (draws : Draws) {raw : String} {token : RefreshToken}
    (htoken : token ∈ s.db.refreshTokens.rows) (hhash : token.tokenHash = crypto.sha256 raw)
    (hrevoked : token.revokedAt ≠ none) :
    (Fallible.exec (Session.rotateRefreshToken crypto draws raw) s).1 =
        .error (.authenticationFailed "Token has been revoked." "token_revoked") ∧
      (Fallible.exec (Session.rotateRefreshToken crypto draws raw) s).2.db.refreshTokens.rows =
        s.db.refreshTokens.rows.map (.revoke (fun other => other.userId == token.userId &&
          other.revokedAt.isNone) (draws.clock 0)) := by
  obtain ⟨user, huser, hid⟩ := s.db.integral.refreshTokens token htoken
  have hfound : s.found? (crypto.sha256 raw) = some ⟨token, user,
      s.lineage.sessionOf token.id, s.lineage.cutoff token.userId⟩ :=
    State.found?_eq_some.mpr ⟨⟨htoken, hhash⟩, ⟨huser, hid⟩, rfl, rfl⟩
  have hexec : Fallible.exec (Session.rotateRefreshToken crypto draws raw) s =
      (.error (.authenticationFailed "Token has been revoked." "token_revoked"),
        effect (.revokeReused user.id (draws.clock 0)) s) := by
    unfold Session.rotateRefreshToken Session.read Session.query
    rw [Fallible.exec_bind, Fallible.exec_observe, Fallible.resume_ok, hfound]
    dsimp only
    rw [if_pos hrevoked, Fallible.exec_bind, Fallible.exec_atomic]
    rfl
  rw [hexec, ← hid]
  exact ⟨rfl, rfl⟩

/-- **The lineage of refresh tokens**, in every state of every run of operations that do
not overlap and begin without refresh tokens: every session has at most one live token,
and whoever presents a stored token that is revoked is refused, leaves the user without
unrevoked tokens, and everybody else's tokens as they were. -/
theorem refresh_token_lineage {db : Db} (cache : String → Option Account)
    (hempty : db.refreshTokens.rows = []) (turns : List (Turn τ)) :
    (∀ now, ∀ token ∈ (Runs.run (Turn.after crypto) (.start db cache)
        turns).db.refreshTokens.rows,
      ∀ token' ∈ (Runs.run (Turn.after crypto) (.start db cache) turns).db.refreshTokens.rows,
      token.Live now → token'.Live now →
      (Runs.run (Turn.after crypto) (.start db cache) turns).lineage.sessionOf token.id =
        (Runs.run (Turn.after crypto) (.start db cache) turns).lineage.sessionOf token'.id →
      token = token') ∧
    ∀ draws raw, ∀ token ∈ (Runs.run (Turn.after crypto) (.start db cache)
        turns).db.refreshTokens.rows,
      token.tokenHash = crypto.sha256 raw → token.revokedAt ≠ none →
      ∃ left : State, Fallible.exec (Session.rotateRefreshToken crypto draws raw)
          (Runs.run (Turn.after crypto) (.start db cache) turns) =
            (.error (.authenticationFailed "Token has been revoked." "token_revoked"), left) ∧
        (∀ other ∈ left.db.refreshTokens.rows, other.userId = token.userId →
          other.revokedAt ≠ none) ∧
        ∀ other, other.userId ≠ token.userId →
          (other ∈ left.db.refreshTokens.rows ↔
            other ∈ (Runs.run (Turn.after crypto) (.start db cache)
              turns).db.refreshTokens.rows) := by
  constructor
  · have hstart : Branches (.start none true) (State.start db cache) := by
      refine ⟨fun token htoken => ?_, fun token htoken => ?_, fun _ => nofun, fun _ => nofun,
        fun _ _ => nofun⟩
      · exact absurd (hempty ▸ htoken) List.not_mem_nil
      · exact absurd (hempty ▸ htoken) List.not_mem_nil
    obtain ⟨mem, hbranches⟩ := branches_run crypto hstart turns
    exact fun now token htoken token' htoken' hlive hlive' =>
      hbranches.single token htoken token' htoken' hlive.1 hlive'.1
  · intro draws raw token htoken hhash hrevoked
    obtain ⟨hfails, hrows⟩ := rotate_revoked crypto draws htoken hhash hrevoked
    refine ⟨_, Prod.ext hfails rfl, fun other hother huser hnone => ?_, fun other huser => ?_⟩
    · rw [hrows] at hother
      obtain ⟨old, hold, rfl⟩ := List.mem_map.mp hother
      obtain ⟨holdNone, hnot⟩ := RefreshToken.revokedAt_revoke_eq_none.mp hnone
      rw [RefreshToken.revoke_userId] at huser
      simp [huser, holdNone] at hnot
    · have hkept : ∀ old : RefreshToken, old.userId ≠ token.userId → old.revoke (fun other =>
          other.userId == token.userId && other.revokedAt.isNone) (draws.clock 0) = old := by
        intro old hold
        apply RefreshToken.revoke_of_not_selected
        simp [hold]
      rw [hrows, List.mem_map]
      constructor
      · rintro ⟨old, hold, rfl⟩
        rwa [hkept old huser]
      · intro hother
        exact ⟨other, hother, hkept other huser⟩

end Turns

/-! ## A run -/

/-- The same database without sessions. -/
def quietDb : Db where
  users := sampleDb.users
  refreshTokens := .empty
  oneTime := sampleDb.oneTime
  socialAccounts := sampleDb.socialAccounts
  integral := by decide

/-- Two logins; the token of the first is rotated, presented again, and a last rotation
is stopped before it inserts the successor. -/
def loginsAndRotations : List (Turn Payload) :=
  [⟨.view (.login alice.email "secret"), sampleDraws 1, none⟩,
    ⟨.view (.login alice.email "secret"), sampleDraws 2, none⟩,
    ⟨.view (.refresh "raw-1"), sampleDraws 3, none⟩,
    ⟨.view (.refresh "raw-3"), sampleDraws 4, some 2⟩]

/-- The token of the first login, as the rotation has left it. -/
def rotatedToken : RefreshToken where
  id := 101#128
  userId := alice.id
  tokenHash := "sha256:raw-1"
  expiresAt := 1700604800000001
  revokedAt := some 1700000000000003

theorem refresh_token_lineage_of_logins :
    (∀ token ∈ (Runs.run (Turn.after sampleCrypto) (.start quietDb fun _ => none)
        loginsAndRotations).db.refreshTokens.rows,
      ∀ token' ∈ (Runs.run (Turn.after sampleCrypto) (.start quietDb fun _ => none)
        loginsAndRotations).db.refreshTokens.rows,
      token.Live 1700000000000005 → token'.Live 1700000000000005 →
      (Runs.run (Turn.after sampleCrypto) (.start quietDb fun _ => none)
          loginsAndRotations).lineage.sessionOf token.id =
        (Runs.run (Turn.after sampleCrypto) (.start quietDb fun _ => none)
          loginsAndRotations).lineage.sessionOf token'.id → token = token') ∧
    ∃ left : State, Fallible.exec (Session.rotateRefreshToken sampleCrypto (sampleDraws 5) "raw-1")
        (Runs.run (Turn.after sampleCrypto) (.start quietDb fun _ => none) loginsAndRotations) =
          (.error (.authenticationFailed "Token has been revoked." "token_revoked"), left) ∧
      ∀ other ∈ left.db.refreshTokens.rows, other.userId = alice.id → other.revokedAt ≠ none := by
  have hempty : quietDb.refreshTokens.rows = [] := rfl
  obtain ⟨hsingle, hreuse⟩ :=
    refresh_token_lineage sampleCrypto (fun _ => none) hempty loginsAndRotations
  obtain ⟨left, hfails, hrevoked, _⟩ :=
    hreuse (sampleDraws 5) "raw-1" rotatedToken (by decide +kernel) rfl (by decide)
  exact ⟨hsingle 1700000000000005, left, hfails, hrevoked⟩

end Saasmint.Auth
