import Mathlib.Data.List.Perm.Basic
import Saasmint.Library.Table

/-!
# Deleting by batches

A query with a limit and no order returns the keys of some of the rows it selects: as many
as there are, or as many as the limit allows.  A `Batch` is such an answer.

Deleting a batch by its keys deletes as many rows as it has keys, all of them selected, so
what is left to delete is left (`Batch.delete_delete`), and there is less of it
(`Batch.countP_delete`).
-/

namespace Relational

variable {α κ : Type*} [Row α]

/-- What a query for at most `limit` keys of the rows that `p` selects may return. -/
structure Batch (t : Table α) (key : α → κ) (p : α → Bool) (limit : ℕ) (ids : List κ) : Prop where
  nodup : ids.Nodup
  selected : ∀ id ∈ ids, ∃ row ∈ t.rows, p row = true ∧ key row = id
  length : ids.length = min limit (t.rows.countP p)

/-- The first keys are a batch. -/
theorem batch_take (t : Table α) {key : α → κ} (hkey : ∀ a b, key a = key b → Row.clash a b)
    (p : α → Bool) (limit : ℕ) : Batch t key p limit (((t.filter p).map key).take limit) := by
  have hnodup : ((t.filter p).map key).Nodup := by
    refine List.pairwise_map.mpr ((t.valid.2.filter p).imp fun hclash hsame => ?_)
    exact hclash (hkey _ _ hsame)
  refine ⟨hnodup.sublist (List.take_sublist _ _), fun id hid => ?_, ?_⟩
  · obtain ⟨row, hrow, rfl⟩ := List.mem_map.mp (List.mem_of_mem_take hid)
    obtain ⟨hmem, hp⟩ := List.mem_filter.mp hrow
    exact ⟨row, hmem, hp, rfl⟩
  · rw [List.length_take, List.length_map, List.countP_eq_length_filter]
    rfl

namespace Batch

variable {t : Table α} {key : α → κ} {p : α → Bool} {limit : ℕ} {ids : List κ}

theorem eq_nil_iff (h : Batch t key p limit ids) (hlimit : 0 < limit) :
    ids = [] ↔ t.rows.countP p = 0 := by
  rw [← List.length_eq_zero_iff, h.length]
  omega

/-- A stored row with a key of the batch is selected. -/
theorem of_mem (h : Batch t key p limit ids) (hkey : ∀ a b, key a = key b → Row.clash a b)
    {row : α} (hrow : row ∈ t.rows) (hid : key row ∈ ids) : p row = true := by
  obtain ⟨other, hother, hp, hsame⟩ := h.selected _ hid
  rwa [t.eq_of_clash hrow hother (hkey _ _ hsame.symm)]

variable [DecidableEq κ]

/-- As many rows have a key of the batch as it has keys. -/
theorem countP_mem (h : Batch t key p limit ids) (hkey : ∀ a b, key a = key b → Row.clash a b) :
    t.rows.countP (fun row => decide (key row ∈ ids)) = ids.length := by
  have hnodup : ((t.rows.filter fun row => decide (key row ∈ ids)).map key).Nodup := by
    refine List.pairwise_map.mpr ((t.valid.2.filter _).imp fun hclash hsame => ?_)
    exact hclash (hkey _ _ hsame)
  have hperm : ((t.rows.filter fun row => decide (key row ∈ ids)).map key).Perm ids := by
    refine (List.perm_ext_iff_of_nodup hnodup h.nodup).mpr fun id => ?_
    constructor
    · intro hid
      obtain ⟨row, hrow, rfl⟩ := List.mem_map.mp hid
      exact of_decide_eq_true (List.mem_filter.mp hrow).2
    · intro hid
      obtain ⟨row, hrow, -, rfl⟩ := h.selected id hid
      exact List.mem_map_of_mem (List.mem_filter.mpr ⟨hrow, decide_eq_true hid⟩)
  rw [List.countP_eq_length_filter, ← hperm.length_eq, List.length_map]

/-- To delete a batch and then what is selected is to delete what is selected. -/
theorem delete_delete (h : Batch t key p limit ids)
    (hkey : ∀ a b, key a = key b → Row.clash a b) :
    (t.delete fun row => decide (key row ∈ ids)).delete p = t.delete p := by
  apply Table.ext
  rw [Table.rows_delete, Table.rows_delete, Table.rows_delete, List.filter_filter]
  refine List.filter_congr fun row hrow => ?_
  cases hp : p row with
  | true => rfl
  | false =>
      have hid : key row ∉ ids := by
        intro hid
        rw [h.of_mem hkey hrow hid] at hp
        cases hp
      simp [hid]

/-- What is left to delete. -/
theorem countP_delete (h : Batch t key p limit ids)
    (hkey : ∀ a b, key a = key b → Row.clash a b) :
    (t.delete fun row => decide (key row ∈ ids)).rows.countP p + ids.length =
      t.rows.countP p := by
  have hids : t.rows.countP (fun row => p row && decide (key row ∈ ids)) = ids.length := by
    rw [← h.countP_mem hkey]
    refine List.countP_congr fun row hrow => ?_
    rw [Bool.and_eq_true, and_iff_right_iff_imp]
    exact fun hid => h.of_mem hkey hrow (of_decide_eq_true hid)
  have hcount := List.countP_eq_countP_filter_add t.rows p fun row => decide (key row ∈ ids)
  rw [List.countP_filter, List.countP_filter, hids] at hcount
  rw [Table.rows_delete, List.countP_filter, hcount, Nat.add_comm]

/-- A batch below the limit is all there is to delete. -/
theorem delete_of_lt (h : Batch t key p limit ids)
    (hkey : ∀ a b, key a = key b → Row.clash a b) (hlt : ids.length < limit) :
    (t.delete fun row => decide (key row ∈ ids)) = t.delete p := by
  have hnone : (t.delete fun row => decide (key row ∈ ids)).rows.countP p = 0 := by
    have hcount := h.countP_delete hkey
    have hlength := h.length
    omega
  rw [← h.delete_delete hkey]
  refine (Table.delete_of_none fun row hrow => ?_).symm
  exact Bool.eq_false_iff.mpr (List.countP_eq_zero.mp hnone row hrow)

end Batch

end Relational
