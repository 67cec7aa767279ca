import Saasmint.Users.Discipline

/-!
# What a query does to the tokens

Every query either leaves the refresh tokens alone, revokes those of a set, inserts one
or deletes some (`touches`), and the same holds of the one-time tokens of each model
(`touches_oneTime`).  The invariants of the following modules are proved by these cases.
-/

namespace Saasmint.Auth

open Relational

/-! ## Writes elsewhere -/

/-- Neither refresh tokens nor one-time tokens have changed. -/
def Db.SameTokens (db db' : Db) : Prop :=
  db'.refreshTokens = db.refreshTokens ∧ db'.oneTime = db.oneTime

namespace Db

variable {db db' : Db}

theorem SameTokens.trans {db'' : Db} (h : db.SameTokens db') (h' : db'.SameTokens db'') :
    db.SameTokens db'' :=
  ⟨h'.1.trans h.1, h'.2.trans h.2⟩

theorem sameTokens_insertUser {user : Account} (h : db.insertUser user = .ok db') :
    db.SameTokens db' := by
  obtain ⟨users, _, hdb⟩ := write_eq_ok h
  rw [SameTokens, hdb]
  exact ⟨rfl, rfl⟩

theorem sameTokens_saveUser {user : Account} {fields? : Option (List UserField)}
    (h : db.saveUser user fields? = .ok db') : db.SameTokens db' := by
  obtain ⟨users, hdb⟩ := saveUser_writes h
  rw [SameTokens, hdb]
  exact ⟨rfl, rfl⟩

theorem sameTokens_getOrCreate {account : SocialAccount}
    (h : db.getOrCreateSocialAccount account = .ok db') : db.SameTokens db' := by
  obtain rfl | ⟨_, _, hdb⟩ := getOrCreate_eq_ok h
  · exact ⟨rfl, rfl⟩
  · rw [SameTokens, hdb]
    exact ⟨rfl, rfl⟩

theorem sameTokens_link {account? : Option SocialAccount} {user : Account}
    (h : db.link account? user = .ok db') : db.SameTokens db' := by
  obtain ⟨linked, hlinked, hsteps⟩ := link_steps h
  have hsame : db.SameTokens linked := by
    cases account? with
    | none =>
        rw [← Except.ok.inj hlinked]
        exact ⟨rfl, rfl⟩
    | some account => exact sameTokens_getOrCreate hlinked
  obtain ⟨_, rfl⟩ | ⟨_, hsave⟩ := hsteps
  · exact hsame
  · exact hsame.trans (sameTokens_saveUser hsave)

end Db

/-! ## Refresh tokens -/

namespace Query

/-- The tokens that a query revokes, and when. -/
def revokes? : Query → Option ((RefreshToken → Bool) × Datetime)
  | revokeToken id now => some (fun token => token.id == id, now)
  | revokeHash tokenHash now =>
      some (fun token => token.tokenHash == tokenHash && token.revokedAt.isNone, now)
  | revokeReused userId now | revokeAll userId now =>
      some (fun token => token.userId == userId && token.revokedAt.isNone, now)
  | _ => none

/-- Whether a query deletes rows. -/
def deletes : Query → Bool
  | deleteUser _ | deleteRefreshTokens _ | deleteOneTimeTokens _ _ => true
  | _ => false

/-- Whether a query inserts a refresh token. -/
def inserts : Query → Bool
  | insertRefreshToken _ _ => true
  | _ => false

end Query

/-- Who does no maintenance deletes nothing. -/
theorem Memory.deletes_of_permits {mem : Memory} {q : Query} (hmaintains : mem.maintains = false)
    (hpermits : mem.Permits q) : q.deletes = false := by
  cases q with
  | deleteUser _ | deleteRefreshTokens _ | deleteOneTimeTokens _ _ =>
      have htrue : mem.maintains = true := hpermits
      rw [hmaintains] at htrue
      cases htrue
  | _ => rfl

/-- What a query has done to the refresh tokens and to the record. -/
inductive Touches (s s' : State) : Query → Prop
  | nothing {q : Query} (hrows : s'.db.refreshTokens = s.db.refreshTokens)
      (hlineage : s'.lineage = s.lineage) : Touches s s' q
  | revoke {q : Query} {selected : RefreshToken → Bool} {now : Datetime}
      (hq : q.revokes? = some (selected, now))
      (hrows : s'.db.refreshTokens.rows = s.db.refreshTokens.rows.map (.revoke selected now))
      (hlineage : s'.lineage = s.lineage ∨
        ∃ userId, q = .revokeAll userId now ∧ s'.lineage = s.lineage.close userId) :
      Touches s s' q
  | insert {token : RefreshToken} {origin : Origin} {db : Db}
      (hinsert : s.db.insertRefreshToken token = .ok db) (hdb : s'.db = db)
      (hlineage : s'.lineage = s.lineage.record token.id origin) :
      Touches s s' (.insertRefreshToken token origin)
  | delete {q : Query} (hq : q.deletes = true)
      (hrows : ∀ token ∈ s'.db.refreshTokens.rows, token ∈ s.db.refreshTokens.rows)
      (hlineage : s'.lineage = s.lineage) : Touches s s' q

theorem touches_settle {s : State} {q : Query} {result : Except AuthError Db}
    (h : ∀ db, result = .ok db → Touches s { s with db } q) : Touches s (s.settle result).2 q :=
  of_settle (P := fun t => Touches s t q) (.nothing rfl rfl) h

/-- The `UPDATE` of a rotation rewrites the rows with its key, if there are any. -/
theorem effect_revokeToken (id : UUID) (now : Datetime) (s : State) :
    (effect (.revokeToken id now) s).db.refreshTokens.rows =
        s.db.refreshTokens.rows.map (.revoke (fun token => token.id == id) now) ∧
      (effect (.revokeToken id now) s).lineage = s.lineage := by
  by_cases hany : s.db.refreshTokens.rows.any (fun token => token.id == id) = true
  · have heffect : effect (.revokeToken id now) s =
        (s.revoking (fun token => token.id == id) now).2 := by
      show (if _ then _ else _ : Except AuthError ℕ × State).2 = _
      rw [if_pos hany]
    rw [heffect]
    exact ⟨rfl, rfl⟩
  · have heffect : effect (.revokeToken id now) s = s := by
      show (if _ then _ else _ : Except AuthError ℕ × State).2 = _
      rw [if_neg hany]
    have hnone : ∀ token ∈ s.db.refreshTokens.rows, (token.id == id) = false := by
      simpa using hany
    rw [heffect]
    refine ⟨(List.map_id _).symm.trans (List.map_congr_left fun token htoken => ?_), rfl⟩
    exact (RefreshToken.revoke_of_not_selected (hnone token htoken)).symm

theorem touches (q : Query) (s : State) : Touches s (effect q s) q := by
  cases q with
  | select | selectRefreshToken _ | selectOneTimeToken _ _ | selectActiveUser _ | cacheGet _
  | cacheSet _ _ | cacheDelete _ | useOneTimeToken _ _ _ | invalidateOneTimeTokens _ _ _ =>
      exact .nothing rfl rfl
  | insertRefreshToken token origin =>
      rcases hinsert : s.db.insertRefreshToken token with e | db
      · rw [effect_insertRefreshToken_error hinsert]
        exact .nothing rfl rfl
      · rw [effect_insertRefreshToken_ok hinsert]
        exact .insert hinsert rfl rfl
  | revokeToken id now =>
      obtain ⟨hrows, hlineage⟩ := effect_revokeToken id now s
      exact .revoke rfl hrows (Or.inl hlineage)
  | revokeHash tokenHash now => exact .revoke rfl rfl (Or.inl rfl)
  | revokeReused userId now => exact .revoke rfl rfl (Or.inl rfl)
  | revokeAll userId now => exact .revoke rfl rfl (Or.inr ⟨userId, rfl, rfl⟩)
  | insertOneTimeToken model token =>
      exact touches_settle fun db hdb => .nothing (Db.insertOneTimeToken_eq_ok hdb).2.2.1 rfl
  | insertUser user =>
      exact touches_settle fun db hdb => .nothing (Db.sameTokens_insertUser hdb).1 rfl
  | saveUser user fields? =>
      rcases hsave : s.db.saveUser user fields? with e | db
      · rw [effect_saveUser_error hsave]
        exact .nothing rfl rfl
      · rw [effect_saveUser_ok hsave]
        exact .nothing (Db.sameTokens_saveUser hsave).1 rfl
  | commitLink account? user =>
      exact touches_settle fun db hdb => .nothing (Db.sameTokens_link hdb).1 rfl
  | deleteUser id =>
      refine touches_settle fun db hdb => .delete rfl (fun token htoken => ?_) rfl
      change token ∈ db.refreshTokens.rows at htoken
      rw [Db.commit_eq_ok.mp hdb] at htoken
      exact (Table.mem_delete.mp htoken).1
  | deleteRefreshTokens ids =>
      refine touches_settle fun db hdb => .delete rfl (fun token htoken => ?_) rfl
      change token ∈ db.refreshTokens.rows at htoken
      rw [Db.commit_eq_ok.mp hdb] at htoken
      exact (Table.mem_delete.mp htoken).1
  | deleteOneTimeTokens model ids =>
      refine touches_settle fun db hdb => .nothing ?_ rfl
      rw [Db.commit_eq_ok.mp hdb]

/-! ## One-time tokens -/

/-- What a query has done to the one-time tokens of a model. -/
inductive TouchesOneTime (model : OneTimeModel) (s s' : State) : Query → Prop
  | nothing {q : Query} (hrows : s'.db.oneTime model = s.db.oneTime model) :
      TouchesOneTime model s s' q
  | use {tokenHash : String} {now : Datetime}
      (hrows : (s'.db.oneTime model).rows =
        (s.db.oneTime model).rows.map (.use (redeemable model tokenHash now) now)) :
      TouchesOneTime model s s' (.useOneTimeToken model tokenHash now)
  | invalidate {userId : UUID} {now : Datetime}
      (hrows : (s'.db.oneTime model).rows = (s.db.oneTime model).rows.map
        (.use (fun token => token.userId == userId && token.usedAt.isNone) now)) :
      TouchesOneTime model s s' (.invalidateOneTimeTokens model userId now)
  | insert {token : OneTimeToken model}
      (hrows : (s'.db.oneTime model).rows = (s.db.oneTime model).rows ++ [token]) :
      TouchesOneTime model s s' (.insertOneTimeToken model token)
  | delete {q : Query} (hq : q.deletes = true) : TouchesOneTime model s s' q

theorem touchesOneTime_settle {model : OneTimeModel} {s : State} {q : Query}
    {result : Except AuthError Db}
    (h : ∀ db, result = .ok db → TouchesOneTime model s { s with db } q) :
    TouchesOneTime model s (s.settle result).2 q :=
  of_settle (P := fun t => TouchesOneTime model s t q) (.nothing rfl) h

theorem touches_oneTime (model : OneTimeModel) (q : Query) (s : State) :
    TouchesOneTime model s (effect q s) q := by
  cases q with
  | select | selectRefreshToken _ | selectOneTimeToken _ _ | selectActiveUser _ | cacheGet _
  | cacheSet _ _ | cacheDelete _ | revokeHash _ _ | revokeReused _ _ | revokeAll _ _ =>
      exact .nothing rfl
  | revokeToken id now =>
      apply TouchesOneTime.nothing
      show (if _ then _ else _ : Except AuthError ℕ × State).2.db.oneTime model = _
      split <;> rfl
  | insertRefreshToken token origin =>
      rcases hinsert : s.db.insertRefreshToken token with e | db
      · rw [effect_insertRefreshToken_error hinsert]
        exact .nothing rfl
      · rw [effect_insertRefreshToken_ok hinsert]
        exact .nothing (congrFun (Db.insertRefreshToken_eq_ok hinsert).2.2 model)
  | useOneTimeToken other tokenHash now =>
      by_cases hother : model = other
      · subst hother
        exact .use Db.rows_oneTime_use
      · exact .nothing (Db.oneTime_use_of_ne hother)
  | invalidateOneTimeTokens other userId now =>
      by_cases hother : model = other
      · subst hother
        exact .invalidate Db.rows_oneTime_use
      · exact .nothing (Db.oneTime_use_of_ne hother)
  | insertOneTimeToken other token =>
      refine touchesOneTime_settle fun db hdb => ?_
      by_cases hother : model = other
      · subst hother
        exact .insert (Db.insertOneTimeToken_eq_ok hdb).1
      · exact .nothing ((Db.insertOneTimeToken_eq_ok hdb).2.1 model hother)
  | insertUser user =>
      exact touchesOneTime_settle fun db hdb =>
        .nothing (congrFun (Db.sameTokens_insertUser hdb).2 model)
  | saveUser user fields? =>
      rcases hsave : s.db.saveUser user fields? with e | db
      · rw [effect_saveUser_error hsave]
        exact .nothing rfl
      · rw [effect_saveUser_ok hsave]
        exact .nothing (congrFun (Db.sameTokens_saveUser hsave).2 model)
  | commitLink account? user =>
      exact touchesOneTime_settle fun db hdb =>
        .nothing (congrFun (Db.sameTokens_link hdb).2 model)
  | deleteUser _ | deleteRefreshTokens _ | deleteOneTimeTokens _ _ => exact .delete rfl

end Saasmint.Auth
