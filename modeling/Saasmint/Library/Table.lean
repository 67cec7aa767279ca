import Mathlib.Data.List.Pairwise

/-!
# Tables with constraints

A `Table` is a list of rows that satisfies the constraints declared for its row
type: every row passes `Row.check`, and no two rows `Row.clash`.  Primary keys,
unique columns (where `NULL`s never collide) and partial unique indexes are all
instances of `clash`.

A statement that would break a constraint is refused as a whole: `ofRows?` is
the only way to a new list of rows, and `insert?`, `update?` and `upsert?` go
through it.  Deleting rows, and rewriting them in a way that cannot create a
conflict, always succeeds.
-/

namespace Relational

universe u

/-- The constraints a table enforces on its rows by itself. -/
class Row (α : Type u) where
  check : α → Prop
  clash : α → α → Prop
  decidableCheck : DecidablePred check
  decidableClash : DecidableRel clash
  clash_symm : ∀ {a b}, clash a b → clash b a

variable {α : Type u} [Row α]

instance (a : α) : Decidable (Row.check a) := Row.decidableCheck a

instance (a b : α) : Decidable (Row.clash a b) := Row.decidableClash a b

instance : Std.Symm fun a b : α => ¬ Row.clash a b :=
  ⟨fun _ _ hab hba => hab (Row.clash_symm hba)⟩

def Valid (rows : List α) : Prop :=
  (∀ row ∈ rows, Row.check row) ∧ rows.Pairwise fun a b => ¬ Row.clash a b

instance (rows : List α) : Decidable (Valid rows) := inferInstanceAs (Decidable (_ ∧ _))

structure Table (α : Type u) [Row α] where
  rows : List α
  valid : Valid rows

namespace Table

@[ext] theorem ext {t t' : Table α} (h : t.rows = t'.rows) : t = t' := by
  cases t
  cases t'
  congr

def empty : Table α := ⟨[], by simp [Valid]⟩

@[simp] theorem rows_empty : (empty : Table α).rows = [] := rfl

/-- The table with exactly these rows, if they satisfy the constraints. -/
def ofRows? (rows : List α) : Option (Table α) :=
  if h : Valid rows then some ⟨rows, h⟩ else none

theorem ofRows?_eq_some {rows : List α} {t : Table α} :
    ofRows? rows = some t ↔ t.rows = rows := by
  unfold ofRows?
  constructor
  · intro h
    split at h
    · cases h
      rfl
    · cases h
  · rintro rfl
    rw [dif_pos t.valid]

theorem ofRows?_eq_none {rows : List α} : ofRows? rows = none ↔ ¬ Valid rows := by
  unfold ofRows?
  split <;> simp_all

/-- Two rows of a table that clash are the same row. -/
theorem eq_of_clash (t : Table α) {a b : α} (ha : a ∈ t.rows) (hb : b ∈ t.rows)
    (h : Row.clash a b) : a = b := by
  by_contra hne
  exact t.valid.2.forall ha hb hne h

theorem check_of_mem (t : Table α) {a : α} (ha : a ∈ t.rows) : Row.check a :=
  t.valid.1 a ha

/-! ## Reading -/

def find? (t : Table α) (p : α → Bool) : Option α := t.rows.find? p

def filter (t : Table α) (p : α → Bool) : List α := t.rows.filter p

theorem mem_of_find? {t : Table α} {p : α → Bool} {a : α} (h : t.find? p = some a) :
    a ∈ t.rows ∧ p a = true :=
  ⟨List.mem_of_find?_eq_some h, List.find?_some h⟩

/-- A lookup by a unique column finds the row that has it. -/
theorem find?_eq_some (t : Table α) {p : α → Bool} {a : α} (ha : a ∈ t.rows)
    (hp : p a = true) (hunique : ∀ b ∈ t.rows, p b = true → Row.clash a b) :
    t.find? p = some a := by
  cases hfind : t.find? p with
  | none => exact absurd hp (List.find?_eq_none.mp hfind a ha)
  | some b =>
      obtain ⟨hb, hpb⟩ := mem_of_find? hfind
      rw [t.eq_of_clash ha hb (hunique b hb hpb)]

theorem find?_eq_some_iff {t : Table α} {p : α → Bool} {a : α}
    (hunique : ∀ a b, p a = true → p b = true → Row.clash a b) :
    t.find? p = some a ↔ a ∈ t.rows ∧ p a = true :=
  ⟨mem_of_find?, fun ⟨ha, hp⟩ => t.find?_eq_some ha hp fun b _ hb => hunique a b hp hb⟩

theorem find?_eq_none {t : Table α} {p : α → Bool} :
    t.find? p = none ↔ ∀ a ∈ t.rows, ¬ p a = true :=
  List.find?_eq_none

/-! ## Writing -/

def insert? (t : Table α) (row : α) : Option (Table α) := ofRows? (t.rows ++ [row])

def update? (t : Table α) (p : α → Bool) (f : α → α) : Option (Table α) :=
  ofRows? (t.rows.map fun row => if p row then f row else row)

/-- Rewrites the rows `p` selects, or inserts `row` when there is none. -/
def upsert? (t : Table α) (p : α → Bool) (f : α → α) (row : α) : Option (Table α) :=
  if t.rows.any p then t.update? p f else t.insert? row

def delete (t : Table α) (p : α → Bool) : Table α where
  rows := t.rows.filter fun row => !p row
  valid := ⟨fun row hrow => t.valid.1 row ((List.mem_filter.mp hrow).1),
    t.valid.2.filter _⟩

/-- Rewrites every row, in a way that keeps the checks and creates no clash. -/
def rewrite (t : Table α) (f : α → α) (hcheck : ∀ a, Row.check a → Row.check (f a))
    (hclash : ∀ a b, Row.clash (f a) (f b) → Row.clash a b) : Table α where
  rows := t.rows.map f
  valid := ⟨by simpa using fun a ha => hcheck a (t.valid.1 a ha),
    List.pairwise_map.mpr (t.valid.2.imp fun h hf => h (hclash _ _ hf))⟩

theorem rows_insert? {t t' : Table α} {row : α} (h : t.insert? row = some t') :
    t'.rows = t.rows ++ [row] :=
  ofRows?_eq_some.mp h

theorem rows_update? {t t' : Table α} {p : α → Bool} {f : α → α}
    (h : t.update? p f = some t') :
    t'.rows = t.rows.map fun row => if p row then f row else row :=
  ofRows?_eq_some.mp h

/-- An update of the rows with a unique key is one of the row that has it. -/
theorem rows_update?_key {κ : Type*} [DecidableEq κ] [DecidableEq α] {t t' : Table α}
    (key : α → κ) (hkey : ∀ a b, key a = key b → Row.clash a b) {row : α} (hrow : row ∈ t.rows)
    {f : α → α} (h : t.update? (fun a => key a == key row) f = some t') :
    t'.rows = t.rows.map fun a => if a = row then f a else a := by
  refine (rows_update? h).trans (List.map_congr_left fun a ha => ?_)
  have hselects : (key a == key row) = decide (a = row) := by
    rw [Bool.eq_iff_iff, beq_iff_eq, decide_eq_true_eq]
    exact ⟨fun hsame => t.eq_of_clash ha hrow (hkey a row hsame), congrArg key⟩
  simp only [hselects, decide_eq_true_eq]

theorem rows_delete (t : Table α) (p : α → Bool) :
    (t.delete p).rows = t.rows.filter fun row => !p row := rfl

@[simp] theorem mem_delete {t : Table α} {p : α → Bool} {a : α} :
    a ∈ (t.delete p).rows ↔ a ∈ t.rows ∧ ¬ p a = true := by
  simp [delete]

theorem delete_of_none {t : Table α} {p : α → Bool} (h : ∀ a ∈ t.rows, p a = false) :
    t.delete p = t := by
  ext1
  exact List.filter_eq_self.mpr fun a ha => by simp [h a ha]

theorem rows_upsert?_of_any {t t' : Table α} {p : α → Bool} {f : α → α} {row a : α}
    (h : t.upsert? p f row = some t') (ha : a ∈ t.rows) (hp : p a = true) :
    t'.rows = t.rows.map fun row => if p row then f row else row := by
  rw [upsert?, if_pos (List.any_eq_true.mpr ⟨a, ha, hp⟩)] at h
  exact rows_update? h

theorem rows_upsert?_of_none {t t' : Table α} {p : α → Bool} {f : α → α} {row : α}
    (h : t.upsert? p f row = some t') (hnone : ∀ a ∈ t.rows, ¬ p a = true) :
    t'.rows = t.rows ++ [row] := by
  have hany : ¬ t.rows.any p = true := by simpa using hnone
  rw [upsert?, if_neg hany] at h
  exact rows_insert? h

omit [Row α] in
/-- Rows selected after a rewrite that leaves them as they are. -/
theorem filter_map_fixed {rows : List α} {f : α → α} {p q : α → Bool}
    (hselect : ∀ a ∈ rows, p (f a) = q a) (hfix : ∀ a ∈ rows, q a = true → f a = a) :
    (rows.map f).filter p = rows.filter q := by
  have hselected : rows.filter (p ∘ f) = rows.filter q := List.filter_congr hselect
  have hkept : ∀ a ∈ rows.filter q, f a = id a := by
    intro a ha
    obtain ⟨hmem, hq⟩ := List.mem_filter.mp ha
    exact hfix a hmem hq
  calc (rows.map f).filter p
    _ = (rows.filter (p ∘ f)).map f := List.filter_map
    _ = (rows.filter q).map f := by rw [hselected]
    _ = rows.filter q := (List.map_congr_left hkept).trans (List.map_id _)

/-- What is stored after an upsert: the rows not selected, and the rewritten or
the inserted ones. -/
theorem mem_upsert? {t t' : Table α} {p : α → Bool} {f : α → α} {row a : α}
    (h : t.upsert? p f row = some t') :
    a ∈ t'.rows ↔ (a ∈ t.rows ∧ ¬ p a = true) ∨ (∃ b ∈ t.rows, p b = true ∧ a = f b) ∨
      (a = row ∧ ∀ b ∈ t.rows, ¬ p b = true) := by
  unfold upsert? at h
  split at h
  next hany =>
      obtain ⟨b, hb, hpb⟩ := List.any_eq_true.mp hany
      rw [rows_update? h, List.mem_map]
      constructor
      · rintro ⟨c, hc, rfl⟩
        by_cases hpc : p c = true
        · exact Or.inr (Or.inl ⟨c, hc, hpc, by simp [hpc]⟩)
        · exact Or.inl ⟨by simpa [hpc] using hc, by simp [hpc]⟩
      · rintro (⟨ha, hpa⟩ | ⟨c, hc, hpc, rfl⟩ | ⟨_, hnone⟩)
        · exact ⟨a, ha, by simp [hpa]⟩
        · exact ⟨c, hc, by simp [hpc]⟩
        · exact absurd hpb (hnone b hb)
  next hany =>
      have hnone : ∀ b ∈ t.rows, ¬ p b = true := by simpa using hany
      rw [rows_insert? h, List.mem_append, List.mem_singleton]
      constructor
      · rintro (ha | rfl)
        · exact Or.inl ⟨ha, hnone a ha⟩
        · exact Or.inr (Or.inr ⟨rfl, hnone⟩)
      · rintro (⟨ha, _⟩ | ⟨c, hc, hpc, _⟩ | ⟨rfl, _⟩)
        · exact Or.inl ha
        · exact absurd hpc (hnone c hc)
        · exact Or.inr rfl

/-- Rewriting a stored row into itself changes nothing. -/
theorem upsert?_self (t : Table α) {p : α → Bool} {f : α → α} {row a : α} (ha : a ∈ t.rows)
    (hp : p a = true) (hself : ∀ b ∈ t.rows, p b = true → f b = b) :
    t.upsert? p f row = some t := by
  have hany : t.rows.any p = true := List.any_eq_true.mpr ⟨a, ha, hp⟩
  have hrow : ∀ b ∈ t.rows, (if p b = true then f b else b) = id b := by
    intro b hb
    by_cases hpb : p b = true
    · simp [hpb, hself b hb hpb]
    · simp [hpb]
  rw [upsert?, if_pos hany, update?, ofRows?_eq_some]
  exact ((List.map_congr_left hrow).trans (List.map_id _)).symm

/-- Writing a row that nothing stored clashes with succeeds. -/
theorem insert?_isSome {t : Table α} {row : α} (hcheck : Row.check row)
    (hclash : ∀ a ∈ t.rows, ¬ Row.clash a row) : ∃ t', t.insert? row = some t' := by
  have hvalid : Valid (t.rows ++ [row]) := by
    refine ⟨?_, List.pairwise_append.mpr ⟨t.valid.2, List.pairwise_singleton _ _, ?_⟩⟩
    · intro a ha
      rcases List.mem_append.mp ha with ha | ha
      · exact t.valid.1 a ha
      · rwa [List.mem_singleton.mp ha]
    · intro a ha b hb
      rw [List.mem_singleton.mp hb]
      exact hclash a ha
  exact ⟨⟨_, hvalid⟩, ofRows?_eq_some.mpr rfl⟩

/-- An update that keeps the checks and creates no clash succeeds. -/
theorem update?_isSome (t : Table α) {p : α → Bool} {f : α → α}
    (hcheck : ∀ a, Row.check a → Row.check (if p a then f a else a))
    (hclash : ∀ a b, Row.clash (if p a then f a else a) (if p b then f b else b) →
      Row.clash a b) : ∃ t', t.update? p f = some t' :=
  ⟨t.rewrite (fun a => if p a then f a else a) hcheck hclash, ofRows?_eq_some.mpr rfl⟩

/-- A row that clashes with a stored one is refused. -/
theorem insert?_eq_none {t : Table α} {a row : α} (ha : a ∈ t.rows) (hclash : Row.clash a row) :
    t.insert? row = none := by
  refine ofRows?_eq_none.mpr fun hvalid => ?_
  have hpairs := (List.pairwise_append.mp hvalid.2).2.2
  exact hpairs a ha row List.mem_cons_self hclash

/-- An upsert succeeds when the rewritten row passes its checks and clashes with
no other row; rows selected together are one row. -/
theorem upsert?_isSome {t : Table α} {p : α → Bool} {f : α → α} {row : α}
    (hsame : ∀ a b, p a = true → p b = true → Row.clash a b)
    (hcheck : ∀ a ∈ t.rows, p a = true → Row.check (f a))
    (hclash : ∀ a ∈ t.rows, ∀ b ∈ t.rows, p a = true → ¬ p b = true → ¬ Row.clash (f a) b)
    (hrow : (∀ a ∈ t.rows, ¬ p a = true) →
      Row.check row ∧ ∀ a ∈ t.rows, ¬ Row.clash a row) :
    ∃ t', t.upsert? p f row = some t' := by
  unfold upsert?
  split
  next hany =>
      have hvalid : Valid (t.rows.map fun a => if p a then f a else a) := by
        constructor
        · intro a ha
          obtain ⟨b, hb, rfl⟩ := List.mem_map.mp ha
          split
          next hpb => exact hcheck b hb hpb
          next => exact t.valid.1 b hb
        · refine List.pairwise_map.mpr (t.valid.2.imp_of_mem fun {a b} ha hb hab => ?_)
          split <;> split
          next hpa hpb => exact absurd (hsame a b hpa hpb) hab
          next hpa hpb => exact hclash a ha b hb hpa hpb
          next hpa hpb => exact fun h => hclash b hb a ha hpb hpa (Row.clash_symm h)
          next => exact hab
      exact ⟨⟨_, hvalid⟩, ofRows?_eq_some.mpr rfl⟩
  next hany =>
      obtain ⟨hcheckRow, hclashRow⟩ := hrow (by simpa using hany)
      exact insert?_isSome hcheckRow hclashRow

end Table

/-! ## The row an order puts first -/

section Pick

variable {α : Type u} {ahead : α → α → Bool}

/-- The first row of a list, in the order in which `ahead` comes before. -/
def pick? (ahead : α → α → Bool) : List α → Option α
  | [] => none
  | a :: rest =>
      match pick? ahead rest with
      | none => some a
      | some b => if ahead b a then some b else some a

theorem pick?_eq_none {rows : List α} : pick? ahead rows = none ↔ rows = [] := by
  refine ⟨fun h => ?_, fun h => by rw [h]; rfl⟩
  cases rows with
  | nil => rfl
  | cons a rest =>
      unfold pick? at h
      split at h
      next => cases h
      next => split at h <;> cases h

theorem mem_of_pick? {rows : List α} {a : α} (h : pick? ahead rows = some a) : a ∈ rows := by
  induction rows generalizing a with
  | nil => cases h
  | cons head rest ih =>
      unfold pick? at h
      split at h
      next => exact Option.some.inj h ▸ List.mem_cons_self
      next b hb =>
          split at h
          · exact Option.some.inj h ▸ List.mem_cons_of_mem _ (ih hb)
          · exact Option.some.inj h ▸ List.mem_cons_self

/-- No row comes before the one that is picked. -/
theorem not_ahead_of_pick? (hasymm : ∀ a b, ahead a b = true → ¬ ahead b a = true)
    (htrans : ∀ a b c, ¬ ahead a b = true → ¬ ahead b c = true → ¬ ahead a c = true)
    {rows : List α} {a : α} (h : pick? ahead rows = some a) :
    ∀ b ∈ rows, ¬ ahead b a = true := by
  have hself : ∀ b, ¬ ahead b b = true := fun b hb => hasymm b b hb hb
  induction rows generalizing a with
  | nil => cases h
  | cons head rest ih =>
      unfold pick? at h
      intro b hb
      cases hrest : pick? ahead rest with
      | none =>
          rw [hrest] at h
          rw [pick?_eq_none.mp hrest, List.mem_singleton] at hb
          rw [hb, Option.some.inj h]
          exact hself a
      | some first =>
          rw [hrest] at h
          dsimp only at h
          have hfirst : ∀ c ∈ rest, ¬ ahead c first = true := ih hrest
          split at h
          next hahead =>
              rw [← Option.some.inj h]
              rcases List.mem_cons.mp hb with rfl | hb
              · exact hasymm first b hahead
              · exact hfirst b hb
          next hahead =>
              rw [← Option.some.inj h]
              rcases List.mem_cons.mp hb with rfl | hb
              · exact hself b
              · exact htrans b first head (hfirst b hb) hahead

end Pick

end Relational
