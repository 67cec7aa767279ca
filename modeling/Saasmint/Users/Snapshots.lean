import Saasmint.Users.AccessTokens

/-!
# Cached snapshots among saves

An authentication looks for a cached snapshot of the user, reads the row if there is
none, and caches the row it has read, in three statements.  A save is followed by the
signal that deletes the snapshot; a save in a transaction and a deletion delete it
before they commit.

A row that was read before a save can be cached after the save's signal, and is then
served until it leaves the cache.  As long as every row is cached while it is still the
stored one, and every commit finds no snapshot cached since its signal
(`FindsCoherent`), what is cached is a row the database has held since the last save or
deletion was complete, and so is what an authentication decides on.
-/

namespace Saasmint.Auth

open Atomic Relational Auth.Session

variable {τ ι : Type}

/-! ## Servers -/

/-- What runs on the server: the operations of the auth backend, authentications by a
bearer token, other saves of users, and snapshots that leave the cache. -/
inductive Job (τ : Type)
  | operate (operation : Operation τ) (draws : Draws)
  | authenticate (token : τ) (now : Datetime)
  /-- `user.save(update_fields=…)`; with `none` it is `user.save()`. -/
  | save (user : Account) (fields? : Option (List UserField))
  | evict (key : String)

/-- A job; an authentication returns the user. -/
def Job.session (crypto : Crypto τ) : Job τ → Session (Option Account)
  | .operate operation draws => do
      let _ ← operation.session crypto draws
      return none
  | .authenticate token now => do
      let user ← Session.authenticate crypto token now
      return some user
  | .save user fields? => do
      let _ ← query (.saveUser user fields?)
      let _ ← query (.cacheDelete (authUserCacheKey (uuidText user.id)))
      return none
  | .evict key => do
      let _ ← query (.cacheDelete key)
      return none

/-- The user that a job saves or deletes by itself. -/
def Job.writes? : Job τ → Option UUID
  | .save user _ => some user.id
  | .operate (.deleteUser id) _ => some id
  | _ => none

/-- Jobs that have made no statement yet. -/
def working (crypto : Crypto τ) (jobs : ι → Job τ) (s : State) :
    Pool ι Query State (Except AuthError (Option Account)) where
  shared := s
  procs i := ExceptT.run ((jobs i).session crypto)

/-- The statements that complete a save or a deletion of a user: the signal's after an
autocommitted save, and the commits of those whose signal comes before. -/
def Query.completes (userId : UUID) : Query → Prop
  | cacheDelete key => key = authUserCacheKey (uuidText userId)
  | deleteUser id => id = userId
  | commitLink _ user => user.id = userId ∧ user.isVerified = false
  | _ => False

instance (userId : UUID) (q : Query) : Decidable (q.completes userId) := by
  apply @Query.casesOn (fun q => Decidable (q.completes userId)) q
  all_goals intros; unfold Query.completes; infer_instance

/-- The next statement of `j` completes a save or a deletion of the user. -/
def Completes {α : Type} (pool : Pool ι Query State α) (j : ι) (userId : UUID) : Prop :=
  match pool.procs j with
  | .done _ => False
  | .act q _ _ => q.completes userId

instance {α : Type} (pool : Pool ι Query State α) (j : ι) (userId : UUID) :
    Decidable (Completes pool j userId) := by
  unfold Completes
  split <;> infer_instance

theorem completes_act {α : Type} {pool : Pool ι Query State α} {j : ι} {userId : UUID} {q : Query}
    {action : State → State} {next : State → Program Query State α}
    (h : pool.procs j = .act q action next) : Completes pool j userId ↔ q.completes userId := by
  simp [Completes, h]

/-- A row is cached while it is the stored one, and a commit finds no snapshot that was
cached since its signal. -/
def FindsCoherent : Query → State → Prop
  | .cacheSet key user, s =>
      key = authUserCacheKey (uuidText user.id) → s.db.activeUser? user.id = some user
  | .deleteUser id, s => s.cache (authUserCacheKey (uuidText id)) = none
  | .commitLink _ user, s =>
      user.isVerified = false → s.cache (authUserCacheKey (uuidText user.id)) = none
  | _, _ => True

instance (q : Query) (s : State) : Decidable (FindsCoherent q s) := by
  apply @Query.casesOn (fun q => Decidable (FindsCoherent q s)) q
  all_goals intros; unfold FindsCoherent; infer_instance

/-- What an authentication with these claims decides on a row, or on none. -/
def judge (payload : List (String × Json)) : Option Account → Except AuthError (Option Account)
  | some row => (checkPwdIat payload row).map some
  | none => .error (.authenticationFailed "User not found." "user_not_found")

/-! ## Trails -/

/-- What a job remembers with regard to one user. -/
structure Trail where
  /-- The row that was found for the user, or that there was none. -/
  found : Option (Option Account)
  /-- Whether a save or a deletion of the user has been completed. -/
  completed : Prop

/-- What a query finds for the user. -/
def Query.looksUp (userId : UUID) : Query → State → Option (Option Account)
  | cacheGet key, s =>
      if key = authUserCacheKey (uuidText userId) then (s.cache key).map some else none
  | selectActiveUser id, s => if id = userId then some (s.db.activeUser? id) else none
  | _, _ => none

def Trail.track (userId : UUID) (trail : Trail) (q : Query) (s : State) : Trail where
  found := q.looksUp userId s <|> trail.found
  completed := trail.completed ∨ q.completes userId

/-- A user is cached only under the user's own key. -/
def Query.CachesOwn : Query → Prop
  | cacheSet key user => ∀ id, authUserCacheKey (uuidText id) = key → user.id = id
  | _ => True

/-- A program makes queries, and caches users under their own keys. -/
def trailing (userId : UUID) : Monitor Trail Query State where
  track := Trail.track userId
  allow _ q action := action = effect q ∧ q.CachesOwn

section Jobs

variable (crypto : Crypto τ) {userId : UUID} {trail : Trail}

theorem cachesOwn_of_permits {mem : Memory} {q : Query} (h : mem.Permits q) : q.CachesOwn := by
  cases q with
  | cacheSet key user => exact h
  | _ => trivial

/-- What the trail of a job says when it has ended. -/
structure Job.Trailed (crypto : Crypto τ) (job : Job τ) (userId : UUID) (trail : Trail)
    (result : Except AuthError (Option Account)) : Prop where
  /-- An authentication of the user decides on what it has found. -/
  decides : ∀ token now payload, job = .authenticate token now →
    subject crypto now token = .ok (uuidText userId, payload) →
    ∃ row?, trail.found = some row? ∧ result = judge payload row?
  /-- A save or deletion that has succeeded is complete. -/
  completes : job.writes? = some userId → ∀ a, result = .ok a → trail.completed

/-- What keeps the discipline makes queries, and caches users under their own keys. -/
theorem trails_of_keeps {α : Type} {p : Session α} {mem : Memory} {post : Memory → α → Prop}
    (h : p.Keeps post mem) (trail : Trail) :
    Fallible.Obeys (trailing userId) (fun _ _ => True) p trail := by
  have hallow : ∀ (mem : Memory) (trail : Trail) (q : Query) (action : State → State),
      discipline.allow mem q action → (trailing userId).allow trail q action :=
    fun mem trail q action h => ⟨h.1, cachesOwn_of_permits h.2⟩
  exact Program.Obeys.transfer hallow h trail

/-- A query that a job makes on its way. -/
theorem trails_query {q : Query} (hq : q.CachesOwn) {post : Trail → Except AuthError ℕ → Prop}
    (h : ∀ s, post (trail.track userId q s) (perform q s).1) :
    Fallible.Obeys (trailing userId) post (query q) trail :=
  ⟨⟨rfl, hq⟩, h⟩

theorem trails_read {α : Type} {q : Query} (hq : effect q = id) (hown : q.CachesOwn) {f : State → α}
    {post : Trail → Except AuthError α → Prop}
    (h : ∀ s, post (trail.track userId q s) (.ok (f s))) :
    Fallible.Obeys (trailing userId) post (Session.read q f) trail :=
  ⟨⟨hq.symm, hown⟩, h⟩

/-- An authentication of the user decides on what it has found last. -/
theorem authenticate_trails {token : τ} {now : Datetime} {payload : List (String × Json)}
    (hsubject : subject crypto now token = .ok (uuidText userId, payload)) :
    Fallible.Obeys (trailing userId) (fun trail result => ∃ row?, trail.found = some row? ∧
        result.map some = judge payload row?)
      (Session.authenticate crypto token now) trail := by
  have hdecided : ∀ (m : Trail) (user : Account), m.found = some (some user) →
      Fallible.Obeys (trailing userId) (fun trail result => ∃ row?, trail.found = some row? ∧
        result.map some = judge payload row?) (Fallible.ofExcept (checkPwdIat payload user)) m :=
    fun m user hfound => ⟨some user, hfound, rfl⟩
  unfold Session.authenticate
  rw [hsubject, Fallible.obeys_bind, Fallible.obeys_ofExcept, Fallible.heed_ok]
  dsimp only
  unfold authUser
  rw [Fallible.obeys_bind, Fallible.obeys_bind]
  refine trails_read (effect_cacheGet _) trivial fun s => ?_
  rw [Fallible.heed_ok]
  cases hcached : s.cache (authUserCacheKey (uuidText userId)) with
  | some user =>
      refine hdecided _ user ?_
      simp [Trail.track, Query.looksUp, hcached]
  | none =>
      have hparse : parseUserId (uuidText userId) = .ok userId := by
        rw [parseUserId, parseUuid_uuidText]
      dsimp only
      rw [Fallible.obeys_bind, Fallible.obeys_ofExcept, hparse, Fallible.heed_ok,
        Fallible.obeys_bind]
      refine trails_read (effect_selectActiveUser _) trivial fun t => ?_
      rw [Fallible.heed_ok]
      cases hfound : t.db.activeUser? userId with
      | none =>
          refine ⟨none, ?_, rfl⟩
          simp [Trail.track, Query.looksUp, hfound]
      | some user =>
          have hown : (Query.cacheSet (authUserCacheKey (uuidText userId)) user).CachesOwn := by
            intro id hkey
            rw [uuidText_inj (authUserCacheKey_inj hkey)]
            exact (Db.user?_eq_some.mp (Option.filter_eq_some_iff.mp hfound).1).2
          dsimp only
          rw [Fallible.obeys_bind]
          refine trails_query hown fun u => ?_
          refine hdecided _ user ?_
          simp [Trail.track, Query.looksUp, hfound]

/-- A job of which nothing is said. -/
theorem Job.Trailed.of_other {job : Job τ} {result : Except AuthError (Option Account)}
    (hjob : ∀ token now payload, job = .authenticate token now →
      subject crypto now token ≠ .ok (uuidText userId, payload))
    (hwrites : job.writes? ≠ some userId) : job.Trailed crypto userId trail result :=
  ⟨fun token now payload hsame hsubject => absurd hsubject (hjob token now payload hsame),
    fun h => absurd h hwrites⟩

theorem job_trails (job : Job τ) (trail : Trail) :
    Fallible.Obeys (trailing userId) (fun trail result => job.Trailed crypto userId trail result)
      (job.session crypto) trail := by
  cases job with
  | operate operation draws =>
      show Fallible.Obeys _ _ (operation.session crypto draws >>= fun _ => pure none) trail
      rw [Fallible.obeys_bind]
      by_cases hdeletes : operation = .deleteUser userId
      · subst hdeletes
        show Fallible.Obeys _ _ (Session.deleteUser userId) trail
        unfold Session.deleteUser
        rw [Fallible.obeys_bind]
        refine trails_query (by trivial) fun s => ?_
        show Fallible.Obeys _ _ (query (.deleteUser userId) >>= fun _ => pure (Response.done : Response τ)) _
        rw [Fallible.obeys_bind]
        refine trails_query (by trivial) fun t => ?_
        rcases (perform (.deleteUser userId) t).1 with e | count
        · exact ⟨nofun, fun _ _ => nofun⟩
        · exact ⟨nofun, fun _ _ _ => Or.inr rfl⟩
      · refine Fallible.Obeys.mono (trails_of_keeps (keeps_operation crypto draws operation rfl rfl :
          (operation.session crypto draws).Keeps _ (.start (operation.presents crypto) true)) trail)
          fun m result _ => ?_
        have hother : ∀ (m : Trail) (result : Except AuthError (Option Account)),
            (Job.operate operation draws).Trailed crypto userId m result := by
          intro m result
          refine .of_other crypto nofun fun hwrites => hdeletes ?_
          cases operation <;> simp_all [Job.writes?]
        cases result with
        | ok response => exact hother m _
        | error e => exact hother m _
  | authenticate token now =>
      show Fallible.Obeys _ _ (Session.authenticate crypto token now >>= fun user =>
        pure (some user)) trail
      rw [Fallible.obeys_bind]
      by_cases hsubject : ∃ payload, subject crypto now token = .ok (uuidText userId, payload)
      · obtain ⟨payload, hsubject⟩ := hsubject
        refine Fallible.Obeys.mono (authenticate_trails crypto hsubject) fun m result hresult => ?_
        obtain ⟨row?, hfound, hjudge⟩ := hresult
        have hdecides : ∀ result', result' = result.map some →
            (Job.authenticate token now).Trailed crypto userId m result' := by
          intro result' hsame
          refine ⟨fun token' now' payload' hjob hsubject' => ⟨row?, hfound, ?_⟩, nofun⟩
          cases hjob
          rw [hsubject] at hsubject'
          cases hsubject'
          rw [hsame, hjudge]
        cases result with
        | ok user => exact hdecides _ rfl
        | error e => exact hdecides _ rfl
      · have hkeeps : (Session.authenticate crypto token now).Keeps (fun _ _ => True)
            (.start none true) := keeps_authenticate crypto token now fun _ => trivial
        refine Fallible.Obeys.mono (trails_of_keeps hkeeps trail) fun m result _ => ?_
        have hother : ∀ (m : Trail) (result : Except AuthError (Option Account)),
            (Job.authenticate token now).Trailed crypto userId m result := by
          intro m result
          refine .of_other crypto (fun token' now' payload hjob hsame => ?_) nofun
          cases hjob
          exact hsubject ⟨payload, hsame⟩
        cases result with
        | ok user => exact hother m _
        | error e => exact hother m _
  | save user fields? =>
      show Fallible.Obeys _ _ (query (.saveUser user fields?) >>= fun _ =>
        query (.cacheDelete (authUserCacheKey (uuidText user.id))) >>= fun _ => pure none) trail
      rw [Fallible.obeys_bind]
      refine trails_query (by trivial) fun s => ?_
      rcases (perform (.saveUser user fields?) s).1 with e | count
      · exact ⟨nofun, fun _ _ => nofun⟩
      · rw [Fallible.heed_ok, Fallible.obeys_bind]
        refine trails_query (by trivial) fun t => ⟨nofun, fun hwrites _ _ => Or.inr ?_⟩
        rw [← Option.some.inj hwrites]
        rfl
  | evict key =>
      show Fallible.Obeys _ _ (query (.cacheDelete key) >>= fun _ => pure none) trail
      rw [Fallible.obeys_bind]
      exact trails_query (by trivial) fun s => ⟨nofun, nofun⟩

end Jobs

/-! ## What is found -/

section Found

variable {userId : UUID} {s : State} {q : Query}

/-- Whether a query writes to the cache. -/
def Query.caches : Query → Bool
  | cacheSet _ _ | cacheDelete _ => true
  | _ => false

theorem cache_effect (hq : q.caches = false) : (effect q s).cache = s.cache := by
  have hsettle : ∀ result : Except AuthError Db, (s.settle result).2.cache = s.cache := by
    intro result
    cases result <;> rfl
  have hsaving : ∀ id fields? (result : Except AuthError Db),
      (s.saving id fields? result).2.cache = s.cache := by
    intro id fields? result
    cases result <;> rfl
  have hrecording : ∀ id origin (result : Except AuthError Db),
      (s.recording id origin result).2.cache = s.cache := by
    intro id origin result
    cases result <;> rfl
  cases q with
  | cacheSet key user => cases hq
  | cacheDelete key => cases hq
  | insertRefreshToken token origin => exact hrecording _ _ _
  | revokeToken id now =>
      have heffect : effect (.revokeToken id now) s = (perform (.revokeToken id now) s).2 := rfl
      rw [heffect, perform]
      split <;> rfl
  | saveUser user fields? => exact hsaving _ _ _
  | insertOneTimeToken model token => exact hsettle _
  | insertUser user => exact hsettle _
  | commitLink account? user => exact hsettle _
  | deleteUser id => exact hsettle _
  | deleteRefreshTokens ids => exact hsettle _
  | deleteOneTimeTokens model ids => exact hsettle _
  | _ => rfl

/-- When a save or deletion of a user is complete, no snapshot of the user is cached. -/
theorem cache_of_completes (hq : q.completes userId) (hfinds : FindsCoherent q s) :
    (effect q s).cache (authUserCacheKey (uuidText userId)) = none := by
  cases q with
  | cacheDelete key =>
      obtain rfl : key = authUserCacheKey (uuidText userId) := hq
      exact Function.update_self _ _ _
  | deleteUser id =>
      obtain rfl : id = userId := hq
      rw [cache_effect rfl]
      exact hfinds
  | commitLink account? user =>
      obtain ⟨rfl, hverified⟩ : user.id = userId ∧ user.isVerified = false := hq
      rw [cache_effect rfl]
      exact hfinds hverified
  | _ => exact hq.elim

/-- What is cached after a query was cached before, or is the row that is stored then. -/
theorem cached_effect {row : Account} (hown : q.CachesOwn) (hfinds : FindsCoherent q s)
    (h : (effect q s).cache (authUserCacheKey (uuidText userId)) = some row) :
    s.cache (authUserCacheKey (uuidText userId)) = some row ∨
      s.db.activeUser? userId = some row := by
  cases q with
  | cacheSet key user =>
      change Function.update s.cache key (some user) _ = some row at h
      by_cases hkey : authUserCacheKey (uuidText userId) = key
      · rw [hkey, Function.update_self] at h
        rw [← Option.some.inj h]
        have hid : user.id = userId := hown userId hkey
        right
        rw [← hid]
        refine hfinds ?_
        rw [hid, hkey]
      · rw [Function.update_of_ne hkey] at h
        exact Or.inl h
  | cacheDelete key =>
      change Function.update s.cache key none _ = some row at h
      by_cases hkey : authUserCacheKey (uuidText userId) = key
      · rw [hkey, Function.update_self] at h
        cases h
      · rw [Function.update_of_ne hkey] at h
        exact Or.inl h
  | _ =>
      rw [cache_effect rfl] at h
      exact Or.inl h

end Found

/-- The row, or its absence, is one that the database has for the user in some state of
the run. -/
def HeldDuring [DecidableEq ι] {α : Type} (pool : Pool ι Query State α) (schedule : List ι)
    (userId : UUID) (row? : Option Account) : Prop :=
  ∃ first rest, schedule = first ++ rest ∧ row? = (pool.run first).shared.db.activeUser? userId

section Runs

variable [DecidableEq ι] {userId : UUID} {α : Type} {pool : Pool ι Query State α}
  {post : ι → Trail → α → Prop} {mem : ι → Trail} {schedule : List ι}

/-- If `Held` holds of every row the database has for the user in the states of a run, it
holds of what is cached at the end, and of what a program has found, provided that both
were so at the start. -/
theorem held_run {Held : Option Account → Prop} (hobeys : pool.Obeys (fun _ => trailing userId) post mem)
    (hfinds : Runs.Steps Pool.step (Pool.Finds fun _ => FindsCoherent) pool schedule)
    (hheld : Runs.Always Pool.step (fun pool => Held (pool.shared.db.activeUser? userId)) pool schedule)
    (hcache : ∀ row, pool.shared.cache (authUserCacheKey (uuidText userId)) = some row →
      Held (some row)) (i : ι) :
    ∃ mem' : ι → Trail, (pool.run schedule).Obeys (fun _ => trailing userId) post mem' ∧
      (∀ row, (pool.run schedule).shared.cache (authUserCacheKey (uuidText userId)) = some row →
        Held (some row)) ∧
      ((∀ row?, (mem i).found = some row? → Held row?) →
        ∀ row?, (mem' i).found = some row? → Held row?) := by
  have hboth : Runs.Steps Pool.step (Pool.Finds fun _ q s =>
      FindsCoherent q s ∧ Held (s.db.activeUser? userId)) pool schedule := by
    intro first j rest hsplit
    have hcoherent := hfinds first j rest hsplit
    unfold Pool.Finds at hcoherent ⊢
    split
    · trivial
    next q action next hproc =>
        rw [hproc] at hcoherent
        exact ⟨hcoherent, hheld first (j :: rest) hsplit⟩
  have hstep : ∀ (s : State) (m : ι → Trail) (j : ι) (q : Query) (action : State → State),
      ((∀ row, s.cache (authUserCacheKey (uuidText userId)) = some row → Held (some row)) ∧
        ((∀ row?, (mem i).found = some row? → Held row?) →
          ∀ row?, (m i).found = some row? → Held row?)) →
      (trailing userId).allow (m j) q action →
      (FindsCoherent q s ∧ Held (s.db.activeUser? userId)) →
      (∀ row, (action s).cache (authUserCacheKey (uuidText userId)) = some row →
        Held (some row)) ∧
      ((∀ row?, (mem i).found = some row? → Held row?) → ∀ row?,
        (Function.update m j ((trailing userId).track (m j) q s) i).found = some row? →
          Held row?) := by
    rintro s m j q action ⟨hcached, hfound⟩ ⟨rfl, hown⟩ ⟨hcoherent, hrow⟩
    refine ⟨fun row h => ?_, fun hstart row? h => ?_⟩
    · rcases cached_effect hown hcoherent h with hold | hstored
      · exact hcached row hold
      · rwa [← hstored]
    · by_cases hj : i = j
      · subst hj
        rw [Function.update_self] at h
        change (q.looksUp userId s <|> (m i).found) = some row? at h
        cases hlooked : q.looksUp userId s with
        | none =>
            rw [hlooked] at h
            exact hfound hstart row? h
        | some looked =>
            rw [hlooked] at h
            obtain rfl : looked = row? := Option.some.inj h
            -- either a snapshot was found, or the row that is stored now
            unfold Query.looksUp at hlooked
            split at hlooked
            next key _ =>
              split at hlooked
              next hkey =>
                obtain ⟨row, hrow, rfl⟩ := Option.map_eq_some_iff.mp hlooked
                exact hcached row (hkey ▸ hrow)
              next => cases hlooked
            next id _ =>
              split at hlooked
              next hid =>
                rw [← Option.some.inj hlooked, hid]
                exact hrow
              next => cases hlooked
            next => cases hlooked
      · rw [Function.update_of_ne hj] at h
        exact hfound hstart row? h
  obtain ⟨mem', hobeys', hend⟩ := Pool.run_obeys hstep hobeys ⟨hcache, id⟩ hboth
  exact ⟨mem', hobeys', hend.1, hend.2⟩

variable (crypto : Crypto τ) (jobs : ι → Job τ) {s : State}

omit [DecidableEq ι] in
theorem working_trails (s : State) : (working crypto jobs s).Obeys (fun _ => trailing userId)
    (fun i trail result => (jobs i).Trailed crypto userId trail result)
    (fun _ => ⟨none, False⟩) :=
  fun i => job_trails crypto (jobs i) ⟨none, False⟩

/-- A save or deletion that has succeeded made the statement that completes it. -/
theorem exists_completes {j : ι} (hwrites : (jobs j).writes? = some userId) {a : Option Account}
    (hdone : ((working crypto jobs s).run schedule).procs j = .done (.ok a)) :
    ∃ before rest, schedule = before ++ j :: rest ∧
      Completes ((working crypto jobs s).run before) j userId := by
  have htrack : ∀ (trail : Trail) (q : Query) (t : State), ¬ trail.completed →
      ¬ q.completes userId → ¬ (trail.track userId q t).completed :=
    fun trail q t hopen hq hcompleted => hcompleted.elim hopen hq
  have hend : ∀ mem, ((working crypto jobs s).run schedule).Obeys (fun _ => trailing userId)
      (fun i trail result => (jobs i).Trailed crypto userId trail result) mem →
      (mem j).completed :=
    fun mem hobeys => (hobeys.of_done hdone).completes hwrites a rfl
  obtain ⟨before, rest, q, action, next, hsplit, hproc, hq⟩ :=
    Pool.exists_act_of_run (working_trails crypto jobs s) id htrack hend
  exact ⟨before, rest, hsplit, (completes_act hproc).mpr hq⟩

/-- What has been completed is no longer cached. -/
theorem cache_of_step {j : ι} {α : Type} {pool : Pool ι Query State α} {post : ι → Trail → α → Prop}
    {mem : ι → Trail} (hobeys : pool.Obeys (fun _ => trailing userId) post mem)
    (hcompletes : Completes pool j userId) (hfinds : pool.Finds (fun _ => FindsCoherent) j) :
    (pool.step j).shared.cache (authUserCacheKey (uuidText userId)) = none := by
  cases hproc : pool.procs j with
  | done result =>
      unfold Completes at hcompletes
      rw [hproc] at hcompletes
      exact hcompletes.elim
  | act q action next =>
      have hhere := hobeys j
      rw [hproc] at hhere
      obtain ⟨rfl, _⟩ := hhere.1
      rw [Pool.step_act hproc]
      exact cache_of_completes ((completes_act hproc).mp hcompletes)
        ((Pool.finds_act hproc).mp hfinds)

/-- **The auth cache serves no state older than a completed change**, in every run in
which rows are cached while they are stored and commits find no snapshot cached since
their signal.  An authentication that begins after a save or a deletion of its user is
complete decides on the row that the database holds, or on there being none, in some
state of the run after that. -/
theorem auth_cache_serves_completed_changes
    (hfinds : Runs.Steps Pool.step (Pool.Finds fun _ => FindsCoherent) (working crypto jobs s)
      schedule) :
    (∀ before j mid late, schedule = before ++ j :: (mid ++ late) →
      ∀ userId, Completes ((working crypto jobs s).run before) j userId →
      ∀ i token now payload, jobs i = .authenticate token now →
        subject crypto now token = .ok (uuidText userId, payload) →
        ((working crypto jobs s).run (before ++ j :: mid)).procs i =
          (working crypto jobs s).procs i →
        ∀ result, ((working crypto jobs s).run schedule).procs i = .done result →
        ∃ first rest, mid ++ late = first ++ rest ∧
          result = judge payload (((working crypto jobs s).run
            (before ++ j :: first)).shared.db.activeUser? userId)) ∧
    ∀ first rest j userId a, schedule = first ++ rest → (jobs j).writes? = some userId →
      ((working crypto jobs s).run first).procs j = .done (.ok a) →
      ∃ before mid, first = before ++ j :: mid ∧
        Completes ((working crypto jobs s).run before) j userId := by
  refine ⟨fun before j mid late hsplit userId hcompletes i token now payload hjob hsubject
    hbegins result hdone => ?_, fun first rest j userId a _ hwrites hdone =>
      exists_completes crypto jobs hwrites hdone⟩
  subst hsplit
  -- up to the change, after which nothing is cached
  obtain ⟨mem, hobeys⟩ : ∃ mem, ((working crypto jobs s).run before).Obeys
      (fun _ => trailing userId)
      (fun i trail result => (jobs i).Trailed crypto userId trail result) mem :=
    (working_trails crypto jobs s).run before
  obtain ⟨hchange, hafter⟩ := Runs.steps_cons.mp hfinds.drop
  have hnone := cache_of_step hobeys hcompletes hchange
  have hobeys' := Pool.step_obeys hobeys j
  have hrun : ∀ first, (((working crypto jobs s).run before).step j).run first =
      (working crypto jobs s).run (before ++ j :: first) := by
    intro first
    rw [Pool.run_append, Pool.run_cons]
  -- up to the authentication
  have hheld : Runs.Always Pool.step (fun pool => HeldDuring
      (((working crypto jobs s).run before).step j) (mid ++ late) userId
      (pool.shared.db.activeUser? userId)) (((working crypto jobs s).run before).step j) mid :=
    fun first rest hmid => ⟨first, rest ++ late, by rw [hmid, List.append_assoc], rfl⟩
  obtain ⟨mem₁, hobeys₁, hcache₁, _⟩ := held_run hobeys' hafter.take hheld
    (fun row hrow => absurd (hnone.symm.trans hrow) nofun) i
  -- the authentication has found nothing yet
  have hbegun : (((((working crypto jobs s).run before).step j).run mid)).Obeys
      (fun _ => trailing userId)
      (fun i trail result => (jobs i).Trailed crypto userId trail result)
      (Function.update mem₁ i ⟨none, False⟩) := by
    intro k
    by_cases hk : k = i
    · subst hk
      rw [Function.update_self, hrun, hbegins]
      exact job_trails crypto (jobs k) _
    · rw [Function.update_of_ne hk]
      exact hobeys₁ k
  have hheld' : Runs.Always Pool.step (fun pool => HeldDuring
      (((working crypto jobs s).run before).step j) (mid ++ late) userId
      (pool.shared.db.activeUser? userId))
      ((((working crypto jobs s).run before).step j).run mid) late := by
    intro first rest hlate
    refine ⟨mid ++ first, rest, by rw [hlate, List.append_assoc], ?_⟩
    rw [Pool.run_append]
    rfl
  obtain ⟨mem₂, hobeys₂, _, hfound⟩ := held_run hbegun hafter.drop hheld' hcache₁ i
  have hend : ((((((working crypto jobs s).run before).step j).run mid)).run late).procs i =
      .done result := by
    rw [← Pool.run_append, hrun]
    exact hdone
  obtain ⟨row?, hrow, hresult⟩ := (hobeys₂.of_done hend).decides token now payload hjob hsubject
  have hnew : ∀ row?, (Function.update mem₁ i ⟨none, False⟩ i).found = some row? → HeldDuring
      (((working crypto jobs s).run before).step j) (mid ++ late) userId row? := by
    rw [Function.update_self]
    exact fun _ => nofun
  obtain ⟨first, rest, hsplit, hheldRow⟩ := hfound hnew row? hrow
  rw [hrun] at hheldRow
  exact ⟨first, rest, hsplit, hheldRow ▸ hresult⟩

end Runs

/-! ## Two schedules -/

/-- The user, deactivated. -/
def inactiveAlice : Account := { alice with isActive := false }

/-- The user's access token is presented, the user is deactivated, and the token is
presented again. -/
def deactivateBetween (i : Fin 3) : Job Payload :=
  if i = 1 then .save inactiveAlice (some [.isActive])
  else .authenticate aliceBearer 1700000000000005

/-- The first authentication has cached the row before the save. -/
def saveAfterFill : List (Fin 3) := [0, 0, 0, 1] ++ 1 :: ([] ++ [2, 2])

theorem auth_cache_serves_deactivation :
    ∃ first rest : List (Fin 3), [] ++ [2, 2] = first ++ rest ∧
      (.error (.authenticationFailed "User not found." "user_not_found") :
          Except AuthError (Option Account)) =
        judge (claims alice 1700000000000000) (((working sampleCrypto deactivateBetween
          (.start sampleDb fun _ => none)).run ([0, 0, 0, 1] ++ 1 :: first)).shared.db.activeUser?
            alice.id) := by
  have hfinds : Runs.Steps Pool.step (Pool.Finds fun _ => FindsCoherent)
      (working sampleCrypto deactivateBetween (.start sampleDb fun _ => none)) saveAfterFill := by
    decide +kernel
  have hdone : ((working sampleCrypto deactivateBetween (.start sampleDb fun _ => none)).run
      saveAfterFill).procs 2 =
        .done (.error (.authenticationFailed "User not found." "user_not_found")) :=
    Program.result?_eq_some.mp (by decide +kernel)
  have hsubject : subject sampleCrypto 1700000000000005 aliceBearer =
      .ok (uuidText alice.id, claims alice 1700000000000000) := by
    have hdecodes : sampleCrypto.Decodes := fun payload now => rfl
    have hbearer : aliceBearer = createAccessToken sampleCrypto alice 1700000000000000 := rfl
    rw [hbearer, subject_createAccessToken hdecodes, if_neg (by decide), if_neg (by decide)]
  exact (auth_cache_serves_completed_changes sampleCrypto deactivateBetween hfinds).1
    [0, 0, 0, 1] 1 [] [2, 2] rfl alice.id (by decide +kernel) 2 aliceBearer 1700000000000005
    (claims alice 1700000000000000) rfl hsubject rfl _ hdone

/-- The first authentication has read the row before the save, and caches it after the
save is complete: the second one accepts the user, whom no later state has as active. -/
theorem auth_cache_serves_deactivated :
    (((working sampleCrypto deactivateBetween (.start sampleDb fun _ => none)).run
        [0, 0, 1, 1]).procs 1).result? = some (.ok none) ∧
      (((working sampleCrypto deactivateBetween (.start sampleDb fun _ => none)).run
        [0, 0, 1, 1, 0, 2]).procs 2).result? = some (.ok (some alice)) ∧
      ∀ rest ∈ [[], [0], [0, 2]], ((working sampleCrypto deactivateBetween
        (.start sampleDb fun _ => none)).run ([0, 0, 1, 1] ++ rest)).shared.db.activeUser?
          alice.id = none := by
  decide +kernel

end Saasmint.Auth
