import Saasmint.Library.Monitor
import Saasmint.Users.Requests

/-!
# The columns of users that a request saves

Whatever it finds, a request saves users by the columns it names and by no others; no
request saves an address, and none deletes a row.  `Request.saves` is the table, and
`saves_request` says that it is right.  The confirmation of a link is left out: it links
an account, and saves the user with it.
-/

namespace Saasmint.Auth

open Atomic Relational Auth.Session

variable {τ : Type}

/-- The query saves users by the given columns at most, links no account and deletes
nothing. -/
def Query.Saves (allowed : List UserField) : Query → Prop
  | .saveUser _ (some fields) => ∀ field ∈ fields, field ∈ allowed
  | .saveUser _ none | .commitLink _ _ | .deleteUser _ | .deleteRefreshTokens _
  | .deleteOneTimeTokens _ _ => False
  | _ => True

/-- Only such queries. -/
def restraint (allowed : List UserField) : Monitor Unit Query State where
  track _ _ _ := ()
  allow _ query action := action = effect query ∧ query.Saves allowed

/-- The program makes such queries only. -/
def Session.Saves {α : Type} (allowed : List UserField) (p : Session α) : Prop :=
  p.Obeys (restraint allowed) (fun _ _ => True) ()

/-! ## Rules -/

section Rules

variable {α β : Type} {allowed : List UserField}

theorem saves_pure (a : α) : (pure a : Session α).Saves allowed := trivial

theorem saves_throw (e : AuthError) : (throw e : Session α).Saves allowed := trivial

theorem saves_ofExcept (result : Except AuthError α) :
    Session.Saves allowed (Fallible.ofExcept result) := trivial

theorem saves_query {q : Query} (hq : q.Saves allowed) : (query q).Saves allowed :=
  ⟨⟨rfl, hq⟩, fun _ => trivial⟩

theorem saves_read {q : Query} (hread : effect q = id) (hq : q.Saves allowed) (f : State → α) :
    (Session.read q f).Saves allowed :=
  ⟨⟨hread.symm, hq⟩, fun _ => trivial⟩

theorem Session.Saves.bind {p : Session α} {rest : α → Session β} (hp : p.Saves allowed)
    (hrest : ∀ a, (rest a).Saves allowed) : (p >>= rest).Saves allowed := by
  unfold Session.Saves
  rw [Fallible.obeys_bind]
  refine hp.mono fun mem result _ => ?_
  cases result with
  | ok a => exact hrest a
  | error e => trivial

theorem saves_query_bind {q : Query} {rest : ℕ → Session α} (hq : q.Saves allowed)
    (hrest : ∀ count, (rest count).Saves allowed) : (query q >>= rest).Saves allowed :=
  (saves_query hq).bind hrest

theorem saves_read_bind {q : Query} {f : State → α} {rest : α → Session β}
    (hread : effect q = id) (hq : q.Saves allowed) (hrest : ∀ a, (rest a).Saves allowed) :
    (Session.read q f >>= rest).Saves allowed :=
  (saves_read hread hq f).bind hrest

theorem saves_select (f : State → α) : (Session.read .select f).Saves allowed :=
  saves_read effect_select trivial f

theorem saves_tryCatch {p : Session α} {handle : AuthError → Session α} (hp : p.Saves allowed)
    (hhandle : ∀ e, (handle e).Saves allowed) : (tryCatch p handle).Saves allowed := by
  unfold Session.Saves
  rw [Fallible.obeys_tryCatch]
  refine hp.mono fun mem result _ => ?_
  cases result with
  | ok a => trivial
  | error e => exact hhandle e

theorem Query.Saves.mono {allowed' : List UserField} {q : Query} (h : q.Saves allowed)
    (hsub : ∀ field ∈ allowed, field ∈ allowed') : q.Saves allowed' := by
  cases q with
  | saveUser user fields? =>
      cases fields? with
      | none => exact h
      | some fields => exact fun field hfield => hsub field (h field hfield)
  | _ => exact h

theorem Session.Saves.mono {allowed' : List UserField} {p : Session α} (h : p.Saves allowed)
    (hsub : ∀ field ∈ allowed, field ∈ allowed') : p.Saves allowed' := by
  have hallow : ∀ mem mem' q action, (restraint allowed).allow mem q action →
      (restraint allowed').allow mem' q action := fun _ _ _ _ h => ⟨h.1, h.2.mono hsub⟩
  exact Program.Obeys.transfer hallow h ()

end Rules

/-! ## The token functions -/

section Functions

variable {allowed : List UserField} (crypto : Crypto τ) (draws : Draws)

theorem saves_authenticate (token : τ) (now : Datetime) :
    (authenticate crypto token now).Saves allowed := by
  unfold authenticate authUser
  refine (saves_ofExcept _).bind fun claims => Session.Saves.bind ?_ fun user => saves_ofExcept _
  refine saves_read_bind (effect_cacheGet _) trivial fun cached? => ?_
  cases cached? with
  | some user => exact saves_pure user
  | none =>
      refine (saves_ofExcept _).bind fun id => ?_
      refine saves_read_bind (effect_selectActiveUser id) trivial fun user? => ?_
      cases user? with
      | none => exact saves_throw _
      | some user => exact saves_query_bind trivial fun _ => saves_pure user

theorem saves_saveUser (user : Account) {fields : List UserField}
    (hfields : ∀ field ∈ fields, field ∈ allowed) :
    (Session.saveUser user fields).Saves allowed := by
  unfold Session.saveUser
  exact saves_query_bind hfields fun _ => saves_query_bind trivial fun _ => saves_pure _

theorem saves_checkPassword (user : Account) (raw : String)
    (hpassword : UserField.password ∈ allowed) :
    (checkPassword crypto draws user raw).Saves allowed := by
  unfold checkPassword
  split
  · split
    · exact (saves_saveUser _ (by simpa using hpassword)).bind fun _ => saves_pure _
    · exact saves_pure _
  · exact saves_pure _

theorem saves_createRefreshToken (user : Account) (now : Datetime) (origin : Origin) :
    (createRefreshToken crypto draws user now origin).Saves allowed := by
  unfold createRefreshToken
  exact saves_query_bind trivial fun _ => saves_pure _

theorem saves_openSession (user : Account) (now mintedAt : Datetime) :
    (openSession crypto draws user now mintedAt).Saves allowed := by
  unfold openSession
  exact (saves_createRefreshToken crypto draws _ _ _).bind fun _ => saves_pure _

theorem saves_createOneTimeToken (model : OneTimeModel) (detail : model.Detail) (user : Account)
    (now : Datetime) : (createOneTimeToken crypto draws model detail user now).Saves allowed := by
  unfold createOneTimeToken
  exact saves_query_bind trivial fun _ => saves_pure _

theorem saves_consume (model : OneTimeModel) (rawToken : String) (now : Datetime) :
    (consumeOneTimeToken crypto model rawToken now).Saves allowed := by
  unfold consumeOneTimeToken
  refine saves_read_bind (effect_selectOneTimeToken _ _) trivial fun found? => ?_
  cases found? with
  | none => exact saves_throw _
  | some found =>
      dsimp only
      split
      · exact saves_throw _
      split
      · exact saves_throw _
      refine saves_query_bind trivial fun updated => ?_
      split
      · exact saves_throw _
      split
      · exact saves_throw _
      · exact saves_pure _

theorem saves_setPassword (user : Account) (password : String) (verify : Bool)
    (hpassword : UserField.password ∈ allowed)
    (hstamp : UserField.passwordChangedAt ∈ allowed)
    (hverify : verify = true → UserField.isVerified ∈ allowed) :
    (setPassword crypto draws user password verify).Saves allowed := by
  unfold setPassword revokeAllRefreshTokens
  refine Session.Saves.bind ?_ fun _ => ?_
  · split
    next hboth =>
        have hallowed : UserField.isVerified ∈ allowed := by
          simp only [Bool.and_eq_true] at hboth
          exact hverify hboth.1
        exact saves_saveUser _ (by simp [hpassword, hstamp, hallowed])
    · exact saves_saveUser _ (by simp [hpassword, hstamp])
  · refine Session.Saves.bind (saves_query_bind trivial fun _ => saves_pure _) fun _ => ?_
    exact saves_openSession crypto draws _ _ _

end Functions

/-! ## The views -/

/-- The columns of users that a request may save. -/
def Request.saves : Request τ → List UserField
  | .login _ _ => [.password]
  | .changePassword _ _ _ => [.password, .passwordChangedAt]
  | .verifyEmail _ _ => [.password, .isVerified]
  | .resetPassword _ _ => [.password, .passwordChangedAt, .isVerified]
  | _ => []

/-- Whether a request confirms a link. -/
def Request.confirmsLink : Request τ → Bool
  | .confirmLink _ => true
  | _ => false

/-- The columns that a verified address saves. -/
theorem mem_verified {crypto : Crypto τ} {salt : String} {user saved : Account} {password? : Option String}
    {fields : List UserField}
    (h : verified crypto salt user password? = some (saved, fields)) :
    ∀ field ∈ fields, field ∈ [UserField.password, .isVerified] := by
  have hflag : ∀ field ∈ (if user.isVerified then [] else [UserField.isVerified]),
      field ∈ [UserField.password, .isVerified] := by
    split <;> simp
  unfold verified at h
  dsimp only at h
  split at h
  · cases h
    exact hflag
  · split at h
    · cases h
    · cases h
      intro field hfield
      rcases List.mem_cons.mp hfield with rfl | hfield
      · simp
      · exact hflag field hfield

section Views

variable {allowed : List UserField} (crypto : Crypto τ) (draws : Draws)

theorem saves_register (email password : String) :
    (register crypto draws email password).Saves allowed := by
  unfold register
  refine (saves_select _).bind fun registered => ?_
  split
  · exact saves_throw _
  refine saves_query_bind trivial fun _ => Session.Saves.bind ?_ fun _ => ?_
  · refine saves_tryCatch (saves_query trivial) fun e => ?_
    cases e <;> exact saves_throw _
  · refine (saves_createOneTimeToken crypto draws _ _ _ _).bind fun _ => ?_
    exact saves_openSession crypto draws _ _ _

theorem saves_login (email password : String) (hpassword : UserField.password ∈ allowed) :
    (login crypto draws email password).Saves allowed := by
  unfold login
  refine (saves_select _).bind fun user? => ?_
  cases user? with
  | none => exact saves_throw _
  | some user =>
      refine (saves_checkPassword crypto draws user password hpassword).bind fun checked? => ?_
      cases checked? with
      | none => exact saves_throw _
      | some checked =>
          dsimp only
          split
          · exact saves_throw _
          split
          · exact saves_throw _
          · exact saves_openSession crypto draws _ _ _

theorem saves_refresh (rawToken : String) : (refresh crypto draws rawToken).Saves allowed := by
  unfold refresh rotateRefreshToken
  refine Session.Saves.bind ?_ fun found => saves_pure _
  refine saves_read_bind (effect_selectRefreshToken _) trivial fun found? => ?_
  cases found? with
  | none => exact saves_throw _
  | some found =>
      dsimp only
      split
      · exact saves_query_bind trivial fun _ => saves_throw _
      split
      · exact saves_throw _
      split
      · exact saves_throw _
      refine saves_query_bind trivial fun _ => ?_
      exact (saves_createRefreshToken crypto draws _ _ _).bind fun raw => saves_pure _

theorem saves_verifyEmail (rawToken : String) (password? : Option String)
    (hpassword : UserField.password ∈ allowed) (hverified : UserField.isVerified ∈ allowed) :
    (verifyEmail crypto draws rawToken password?).Saves allowed := by
  unfold verifyEmail
  refine (saves_consume crypto _ _ _).bind fun (token, user) => ?_
  dsimp only
  split
  · exact saves_pure _
  next saved fields hfields =>
      have hopen : (openSession crypto draws saved (draws.clock 1) (draws.clock 2)).Saves allowed :=
        saves_openSession crypto draws saved (draws.clock 1) (draws.clock 2)
      have hallowed : ∀ field ∈ fields, field ∈ allowed := by
        intro field hfield
        have hmem := mem_verified hfields field hfield
        simp only [List.mem_cons, List.not_mem_nil, or_false] at hmem
        rcases hmem with rfl | rfl
        · exact hpassword
        · exact hverified
      split
      · exact (saves_saveUser saved hallowed).bind fun _ => hopen
      · exact hopen

/-- **Every request but the confirmation of a link** saves users by the columns of the
table at most, links nothing and deletes nothing. -/
theorem saves_request (request : Request τ) (hconfirms : request.confirmsLink = false) :
    (request.session crypto draws).Saves request.saves := by
  cases request with
  | register email password => exact saves_register crypto draws email password
  | verifyEmail rawToken password? =>
      exact saves_verifyEmail crypto draws rawToken password? (by simp [Request.saves])
        (by simp [Request.saves])
  | resendVerification email =>
      refine Session.Saves.bind (saves_select _) fun user? => ?_
      cases user? with
      | none => exact saves_pure _
      | some user =>
          refine saves_query_bind trivial fun _ => ?_
          exact (saves_createOneTimeToken crypto draws _ _ _ _).bind fun _ => saves_pure _
  | login email password => exact saves_login crypto draws email password (by simp [Request.saves])
  | refresh rawToken => exact saves_refresh crypto draws rawToken
  | logout rawToken =>
      refine Session.Saves.bind ?_ fun _ => saves_pure _
      exact saves_query_bind trivial fun _ => saves_pure _
  | forgotPassword email =>
      refine Session.Saves.bind (saves_select _) fun user? => ?_
      cases user? with
      | none => exact saves_pure _
      | some user =>
          exact (saves_createOneTimeToken crypto draws _ _ _ _).bind fun _ => saves_pure _
  | resetPassword rawToken password =>
      refine Session.Saves.bind (saves_consume crypto _ _ _) fun (token, user) => ?_
      exact saves_setPassword crypto draws user password true (by simp [Request.saves])
        (by simp [Request.saves]) fun _ => by simp [Request.saves]
  | changePassword bearer currentPassword newPassword =>
      refine Session.Saves.bind (saves_authenticate crypto _ _) fun user => ?_
      refine (saves_checkPassword crypto draws user currentPassword (by simp [Request.saves])).bind
        fun checked? => ?_
      cases checked? with
      | none => exact saves_throw _
      | some checked =>
          exact saves_setPassword crypto draws checked newPassword false (by simp [Request.saves])
            (by simp [Request.saves]) nofun
  | socialSignIn provider providerUserId =>
      refine Session.Saves.bind (saves_select _) fun user? => ?_
      cases user? with
      | none => exact saves_pure _
      | some user =>
          dsimp only
          split
          · exact saves_throw _
          · exact saves_openSession crypto draws _ _ _
  | requestLink email identity =>
      refine Session.Saves.bind (saves_select _) fun user? => ?_
      cases user? with
      | none => exact saves_pure _
      | some user =>
          refine saves_query_bind trivial fun _ => ?_
          exact (saves_createOneTimeToken crypto draws _ _ _ _).bind fun _ => saves_pure _
  | confirmLink rawToken => cases hconfirms
  | redeem model rawToken =>
      exact Session.Saves.bind (saves_consume crypto _ _ _) fun (token, user) => saves_pure _

end Views

end Saasmint.Auth
