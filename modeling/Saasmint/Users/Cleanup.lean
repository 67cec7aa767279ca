import Saasmint.Library.Batches
import Saasmint.Users.Tables

/-!
# Deleting expired rows

`_delete_expired_rows` deletes the rows of a token model that have expired, at most 10 000
at a time.  Its query has no order, so each round may see any of them: `BoundedQueries` are
the answers of a run, and nothing more is assumed of them than that each is a `Batch`.

The loop ends because a round that goes on has deleted a full batch (`Batch.countP_delete`),
and what it leaves is what one `DELETE` without a limit leaves.
-/

namespace Saasmint.Auth

open Relational

/-- A model with an `expires_at`. -/
class Expirable (α : Type) [Row α] where
  id : α → UUID
  expiresAt : α → Datetime
  clash_of_id : ∀ a b, id a = id b → Row.clash a b

instance : Expirable RefreshToken where
  id := RefreshToken.id
  expiresAt := RefreshToken.expiresAt
  clash_of_id _ _ h := Or.inl h

instance (model : OneTimeModel) : Expirable (OneTimeToken model) where
  id := OneTimeToken.id
  expiresAt := OneTimeToken.expiresAt
  clash_of_id _ _ h := Or.inl h

variable {α : Type} [Row α] [Expirable α] {now : Datetime}

/-- `expires_at__lt=now`. -/
def expired (now : Datetime) (row : α) : Bool := decide (Expirable.expiresAt row < now)

/-- `_EXPIRED_ROW_DELETE_BATCH`. -/
def expiredRowDeleteBatch : ℕ := 10000

variable (α now) in
/-- What the query of each round returns. -/
structure BoundedQueries where
  ids : ℕ → Table α → List UUID
  batch : ∀ round t, Batch t Expirable.id (expired now) expiredRowDeleteBatch (ids round t)

variable (α now) in
/-- The queries of a database that returns the rows in the order in which it stores them. -/
def BoundedQueries.stored : BoundedQueries α now where
  ids _ t := ((t.filter (expired now)).map Expirable.id).take expiredRowDeleteBatch
  batch _ t := batch_take t Expirable.clash_of_id _ _

/-- `manager.filter(id__in=ids).delete()`, with the number of rows it removes. -/
def deleteByIds (ids : List UUID) (t : Table α) : ℕ × Table α :=
  (t.rows.countP fun row => decide (Expirable.id row ∈ ids),
    t.delete fun row => decide (Expirable.id row ∈ ids))

/-- The loop of `_delete_expired_rows`; without fuel it has not ended. -/
def deleteExpiredLoop (queries : BoundedQueries α now) :
    (fuel round totalDeleted : ℕ) → Table α → Option (ℕ × Table α)
  | 0, _, _, _ => none
  | fuel + 1, round, totalDeleted, t =>
      let ids := queries.ids round t
      if ids = [] then some (totalDeleted, t)
      else
        let (deleted, t) := deleteByIds ids t
        if deleted < expiredRowDeleteBatch then some (totalDeleted + deleted, t)
        else deleteExpiredLoop queries fuel (round + 1) (totalDeleted + deleted) t

/-- `_delete_expired_rows`: the number of rows it reports, and what it leaves. -/
def deleteExpiredRows (queries : BoundedQueries α now) (fuel : ℕ) (t : Table α) :
    Option (ℕ × Table α) :=
  deleteExpiredLoop queries fuel 0 0 t

/-! ## The loop -/

theorem deleteExpiredLoop_eq (queries : BoundedQueries α now) :
    ∀ (fuel round totalDeleted : ℕ) (t : Table α), t.rows.countP (expired now) < fuel →
      deleteExpiredLoop queries fuel round totalDeleted t =
        some (totalDeleted + t.rows.countP (expired now), t.delete (expired now)) := by
  intro fuel
  induction fuel with
  | zero =>
      intro _ _ t hfuel
      omega
  | succ fuel ih =>
      intro round totalDeleted t hfuel
      have hbatch := queries.batch round t
      have hcount := hbatch.countP_delete Expirable.clash_of_id
      have hdeleted := hbatch.countP_mem Expirable.clash_of_id
      have hpositive : 0 < expiredRowDeleteBatch := by decide
      unfold deleteExpiredLoop deleteByIds
      dsimp only
      rw [hdeleted]
      split
      next hempty =>
          have hnone := (hbatch.eq_nil_iff hpositive).mp hempty
          rw [hnone, Nat.add_zero, Table.delete_of_none fun row hrow =>
            Bool.eq_false_iff.mpr (List.countP_eq_zero.mp hnone row hrow)]
      next hnonempty =>
          split
          next hlast =>
              -- the batch was below the limit, so nothing is left
              have hall : t.rows.countP (expired now) = (queries.ids round t).length := by
                have hlength := hbatch.length
                omega
              rw [hbatch.delete_of_lt Expirable.clash_of_id hlast, hall]
          next hfull =>
              have hless : 0 < (queries.ids round t).length := List.length_pos_iff.mpr hnonempty
              rw [ih _ _ _ (by omega), hbatch.delete_delete Expirable.clash_of_id,
                Nat.add_assoc, Nat.add_comm (queries.ids round t).length, hcount]

theorem deleteExpiredRows_of_lt (queries : BoundedQueries α now) (t : Table α) {fuel : ℕ}
    (hfuel : t.rows.length < fuel) : deleteExpiredRows queries fuel t =
      some (t.rows.countP (expired now), t.delete (expired now)) := by
  have hcount : t.rows.countP (expired now) ≤ t.rows.length := List.countP_le_length
  unfold deleteExpiredRows
  rw [deleteExpiredLoop_eq queries _ _ _ t (by omega), Nat.zero_add]

/-- **The cleanup ends**, and it has deleted exactly the rows that expired before its
cut-off instant, whatever the queries have returned. -/
theorem deleteExpiredRows_exact (queries : BoundedQueries α now) (t : Table α) :
    ∃ rounds, ∀ more, deleteExpiredRows queries (rounds + more) t =
      some (t.rows.countP (expired now), t.delete (expired now)) :=
  ⟨t.rows.length + 1, fun _ => deleteExpiredRows_of_lt queries t (by omega)⟩

/-! ## The tasks -/

namespace Db

variable (db : Db)

/-- `cleanup_expired_refresh_tokens`. -/
def cleanupExpiredRefreshTokens (queries : BoundedQueries RefreshToken now) (fuel : ℕ) :
    Option (Except AuthError Db) :=
  (deleteExpiredRows queries fuel db.refreshTokens).map fun (_, refreshTokens) =>
    commit { db.toTables with refreshTokens }

/-- The task of a one-time token model. -/
def cleanupExpiredOneTimeTokens (model : OneTimeModel)
    (queries : BoundedQueries (OneTimeToken model) now) (fuel : ℕ) :
    Option (Except AuthError Db) :=
  (deleteExpiredRows queries fuel (db.oneTime model)).map fun (_, table) =>
    commit { db.toTables with oneTime := Function.update db.oneTime model table }

/-- `cleanup_expired_social_link_requests`. -/
def cleanupExpiredSocialLinkRequests (queries : BoundedQueries (OneTimeToken .socialLink) now)
    (fuel : ℕ) : Option (Except AuthError Db) :=
  db.cleanupExpiredOneTimeTokens .socialLink queries fuel

/-- `cleanup_expired_email_verification_tokens`. -/
def cleanupExpiredEmailVerificationTokens
    (queries : BoundedQueries (OneTimeToken .emailVerification) now) (fuel : ℕ) :
    Option (Except AuthError Db) :=
  db.cleanupExpiredOneTimeTokens .emailVerification queries fuel

/-- `cleanup_expired_password_reset_tokens`. -/
def cleanupExpiredPasswordResetTokens
    (queries : BoundedQueries (OneTimeToken .passwordReset) now) (fuel : ℕ) :
    Option (Except AuthError Db) :=
  db.cleanupExpiredOneTimeTokens .passwordReset queries fuel

/-- The task leaves what a single `DELETE` leaves. -/
theorem cleanupExpiredRefreshTokens_eq (queries : BoundedQueries RefreshToken now) {fuel : ℕ}
    (hfuel : db.refreshTokens.rows.length < fuel) :
    db.cleanupExpiredRefreshTokens queries fuel = some (db.deleteRefreshTokens (expired now)) := by
  unfold cleanupExpiredRefreshTokens
  rw [deleteExpiredRows_of_lt queries _ hfuel]
  rfl

theorem cleanupExpiredOneTimeTokens_eq {model : OneTimeModel}
    (queries : BoundedQueries (OneTimeToken model) now) {fuel : ℕ}
    (hfuel : (db.oneTime model).rows.length < fuel) :
    db.cleanupExpiredOneTimeTokens model queries fuel =
      some (db.deleteOneTimeTokens model (expired now)) := by
  unfold cleanupExpiredOneTimeTokens
  rw [deleteExpiredRows_of_lt queries _ hfuel]
  rfl

end Db

end Saasmint.Auth
