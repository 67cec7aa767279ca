import Saasmint.Library.Table

/-!
# Seeding tables

A seed names a row of a parent table by a key, and a row of a child table by its parent.
To plant it is to make the rows that are missing, and to renew the row of the child table
when it is out of date.

* `plant_planted`: a seed that is planted is planted again for nothing.
* `Planted.plant`: seeds with different keys leave each other's rows alone.
* `plantAll_eq_ok`: after a run every seed is planted, and a stored row is what it was but
  for the columns that are renewed.
-/

namespace Relational

universe u w

variable {α β : Type u} {κ : Type w} [Row α] [Row β]

/-- Which rows of a child table belong to a row of the parent table, and the primary key of
the child table. -/
structure Parentage (α β : Type u) (κ : Type w) [Row α] [Row β] where
  belongs : α → β → Bool
  key : β → κ
  clash_of_key : ∀ b b', key b = key b' → Row.clash b b'
  clash_of_belongs : ∀ a a' b, belongs a b = true → belongs a' b = true → Row.clash a a'

/-- The rows that have the key of the seed, the row that is made when there is none, the
child row that is made when there is none, and when and how a child row is renewed. -/
structure Seed (parentage : Parentage α β κ) where
  selects : α → Bool
  row : α
  child : α → β
  current : β → Bool
  renew : β → β
  selects_row : selects row = true
  belongs_child : ∀ a, parentage.belongs a (child a) = true
  current_child : ∀ a, current (child a) = true
  current_renew : ∀ b, current (renew b) = true
  belongs_renew : ∀ a b, parentage.belongs a (renew b) = parentage.belongs a b

inductive SeedError
  /-- So many rows have the key. -/
  | ambiguous (count : ℕ)
  /-- A row that is made, or renewed, breaks a constraint. -/
  | refused
deriving DecidableEq, Repr

def orRefused {γ : Type u} : Option γ → Except SeedError γ
  | some c => .ok c
  | none => .error .refused

theorem orRefused_eq_ok {γ : Type u} {c? : Option γ} {c : γ} :
    orRefused c? = .ok c ↔ c? = some c := by
  cases c? with
  | none => exact iff_of_false nofun nofun
  | some c' => exact ⟨fun h => congrArg some (Except.ok.inj h), fun h => congrArg _ (Option.some.inj h)⟩

/-- The row with the key, and the table with it. -/
def Table.getOrCreate (t : Table α) (selects : α → Bool) (row : α) :
    Except SeedError (α × Table α) :=
  match t.filter selects with
  | [] => (fun t => (row, t)) <$> orRefused (t.insert? row)
  | [found] => .ok (found, t)
  | rows => .error (.ambiguous rows.length)

variable {parentage : Parentage α β κ}

variable [DecidableEq κ]

namespace Seed

/-- The child table with a current row of the parent. -/
def refresh (seed : Seed parentage) (a : α) (u : Table β) : Except SeedError (Table β) :=
  match u.find? (parentage.belongs a) with
  | none => orRefused (u.insert? (seed.child a))
  | some b =>
      if seed.current b then .ok u
      else orRefused (u.update? (fun row => parentage.key row == parentage.key b) seed.renew)

def plant (seed : Seed parentage) (t : Table α) (u : Table β) :
    Except SeedError (Table α × Table β) := do
  let (a, t) ← t.getOrCreate seed.selects seed.row
  let u ← seed.refresh a u
  return (t, u)

end Seed

def plantAll : List (Seed parentage) → Table α → Table β → Except SeedError (Table α × Table β)
  | [], t, u => .ok (t, u)
  | seed :: seeds, t, u => do
      let (t, u) ← seed.plant t u
      plantAll seeds t u

/-! ## Planted seeds -/

/-- One row has the key, and its row in the child table is current. -/
def Seed.Planted (seed : Seed parentage) (t : Table α) (u : Table β) : Prop :=
  ∃ a, t.filter seed.selects = [a] ∧
    ∃ b, u.find? (parentage.belongs a) = some b ∧ seed.current b = true

/-- No row has the keys of both. -/
def Seed.Apart (seed seed' : Seed parentage) : Prop :=
  ∀ a, seed.selects a = true → seed'.selects a = false

variable {seed seed' : Seed parentage} {seeds : List (Seed parentage)} {t t' : Table α}
  {u u' : Table β} {a : α} {b : β}

/-- What is planted stays as it is when it is planted again. -/
theorem plant_planted (h : seed.Planted t u) : seed.plant t u = .ok (t, u) := by
  obtain ⟨a, ha, b, hb, hcurrent⟩ := h
  have hparent : t.getOrCreate seed.selects seed.row = .ok (a, t) := by
    rw [Table.getOrCreate, ha]
  have hchild : seed.refresh a u = .ok u := by
    rw [Seed.refresh, hb]
    exact if_pos hcurrent
  unfold Seed.plant
  rw [hparent]
  change (seed.refresh a u >>= fun u => pure (t, u)) = _
  rw [hchild]
  rfl

theorem plantAll_planted (h : ∀ seed ∈ seeds, seed.Planted t u) :
    plantAll seeds t u = .ok (t, u) := by
  induction seeds with
  | nil => rfl
  | cons seed seeds ih =>
      have hhere := plant_planted (h seed List.mem_cons_self)
      rw [plantAll, hhere]
      exact ih fun seed' hseed' => h seed' (List.mem_cons_of_mem _ hseed')

/-! ## What is planted -/

omit [DecidableEq κ] in
/-- What became of the parent table: the row was there, or it is the last one now. -/
theorem getOrCreate_eq_ok (h : t.getOrCreate seed.selects seed.row = .ok (a, t')) :
    t'.filter seed.selects = [a] ∧ (t' = t ∨ t'.rows = t.rows ++ [seed.row]) := by
  unfold Table.getOrCreate at h
  split at h
  next hnone =>
      cases hinsert : t.insert? seed.row with
      | none =>
          rw [hinsert] at h
          cases h
      | some inserted =>
          rw [hinsert] at h
          obtain ⟨rfl, rfl⟩ := Prod.mk.inj (Except.ok.inj h)
          have hrows := Table.rows_insert? hinsert
          have hselected : [seed.row].filter seed.selects = [seed.row] := by
            rw [List.filter_cons_of_pos seed.selects_row, List.filter_nil]
          refine ⟨?_, Or.inr hrows⟩
          change t.rows.filter seed.selects = [] at hnone
          change inserted.rows.filter seed.selects = [seed.row]
          rw [hrows, List.filter_append, hnone, hselected, List.nil_append]
  next found hone =>
      obtain ⟨rfl, rfl⟩ := Prod.mk.inj (Except.ok.inj h)
      exact ⟨hone, Or.inl rfl⟩
  next => cases h

/-- What became of the child table: nothing, or a row was made, or one was renewed. -/
theorem refresh_eq_ok (h : seed.refresh a u = .ok u') :
    (u' = u ∧ ∃ b, u.find? (parentage.belongs a) = some b ∧ seed.current b = true) ∨
      (u.find? (parentage.belongs a) = none ∧ u'.rows = u.rows ++ [seed.child a]) ∨
      ∃ b, u.find? (parentage.belongs a) = some b ∧
        u'.rows = u.rows.map fun row =>
          if parentage.key row == parentage.key b then seed.renew row else row := by
  unfold Seed.refresh at h
  split at h
  next hnone => exact Or.inr (Or.inl ⟨hnone, Table.rows_insert? (orRefused_eq_ok.mp h)⟩)
  next b hfound =>
      split at h
      next hcurrent =>
          obtain rfl := Except.ok.inj h
          exact Or.inl ⟨rfl, b, hfound, hcurrent⟩
      next => exact Or.inr (Or.inr ⟨b, hfound, Table.rows_update? (orRefused_eq_ok.mp h)⟩)

theorem plant_eq_ok (h : seed.plant t u = .ok (t', u')) :
    ∃ a, t.getOrCreate seed.selects seed.row = .ok (a, t') ∧ seed.refresh a u = .ok u' := by
  unfold Seed.plant at h
  rcases hparent : t.getOrCreate seed.selects seed.row with e | ⟨a, s⟩
  · rw [hparent] at h
    cases h
  · rw [hparent] at h
    change (seed.refresh a u >>= fun u => pure (s, u)) = _ at h
    rcases hchild : seed.refresh a u with e | v
    · rw [hchild] at h
      cases h
    · rw [hchild] at h
      obtain ⟨rfl, rfl⟩ := Prod.mk.inj (Except.ok.inj h)
      exact ⟨a, rfl, hchild⟩

theorem mem_of_filter_eq {selects : α → Bool} (h : t.filter selects = [a]) :
    a ∈ t.rows ∧ selects a = true := by
  have hmem : a ∈ t.filter selects := by
    rw [h]
    exact List.mem_singleton_self a
  exact List.mem_filter.mp hmem

/-- A renewal keeps the rows of every parent where they were. -/
theorem find?_renewed (seed : Seed parentage) (u : Table β) (key : κ) (a : α) :
    (u.rows.map fun row => if parentage.key row == key then seed.renew row else row).find?
        (parentage.belongs a) =
      (u.find? (parentage.belongs a)).map fun row =>
        if parentage.key row == key then seed.renew row else row := by
  rw [List.find?_map]
  refine congrArg _ (congrArg (List.find? · u.rows) (funext fun row => ?_))
  rw [Function.comp_apply]
  split
  · exact seed.belongs_renew a row
  · rfl

/-- A seed is planted, and planting another one leaves it so. -/
theorem planted_of_plant (h : seed.plant t u = .ok (t', u')) : seed.Planted t' u' := by
  obtain ⟨a, hparent, hchild⟩ := plant_eq_ok h
  obtain ⟨hone, -⟩ := getOrCreate_eq_ok hparent
  refine ⟨a, hone, ?_⟩
  rcases refresh_eq_ok hchild with ⟨rfl, b, hfound, hcurrent⟩ | ⟨hnone, hrows⟩ | ⟨b, hfound, hrows⟩
  · exact ⟨b, hfound, hcurrent⟩
  · refine ⟨seed.child a, ?_, seed.current_child a⟩
    rw [Table.find?, hrows, List.find?_append, show u.rows.find? _ = none from hnone,
      Option.none_or, List.find?_cons_of_pos (seed.belongs_child a)]
  · refine ⟨seed.renew b, ?_, seed.current_renew b⟩
    rw [Table.find?, hrows, find?_renewed, hfound, Option.map_some, if_pos (beq_self_eq_true _)]

theorem Seed.Planted.plant (hplanted : seed.Planted t u) (hapart : seed.Apart seed')
    (h : seed'.plant t u = .ok (t', u')) : seed.Planted t' u' := by
  obtain ⟨a, hone, b, hfound, hcurrent⟩ := hplanted
  obtain ⟨a', hparent, hchild⟩ := plant_eq_ok h
  obtain ⟨hone', hrows⟩ := getOrCreate_eq_ok hparent
  have hrow : seed.selects seed'.row = false := by
    cases hselects : seed.selects seed'.row with
    | false => rfl
    | true => exact absurd seed'.selects_row (by rw [hapart _ hselects]; exact Bool.false_ne_true)
  have hsame : t'.filter seed.selects = [a] := by
    rcases hrows with rfl | hrows
    · exact hone
    · change t'.rows.filter seed.selects = [a]
      rw [hrows, List.filter_append, show t.rows.filter seed.selects = [a] from hone,
        List.filter_cons_of_neg (by rw [hrow]; exact Bool.false_ne_true), List.filter_nil,
        List.append_nil]
  refine ⟨a, hsame, ?_⟩
  rcases refresh_eq_ok hchild with ⟨rfl, -⟩ | ⟨-, hrows⟩ | ⟨b', hfound', hrows⟩
  · exact ⟨b, hfound, hcurrent⟩
  · refine ⟨b, ?_, hcurrent⟩
    rw [Table.find?, hrows, List.find?_append, show u.rows.find? _ = some b from hfound,
      Option.some_or]
  · -- the renewed row belongs to another parent
    have hne : ¬ (parentage.key b == parentage.key b') = true := by
      intro hkey
      have hb := u.eq_of_clash (Table.mem_of_find? hfound).1 (Table.mem_of_find? hfound').1
        (parentage.clash_of_key b b' (beq_iff_eq.mp hkey))
      obtain ⟨ha, hselects⟩ := mem_of_filter_eq hsame
      obtain ⟨ha', hselects'⟩ := mem_of_filter_eq hone'
      have hparents := t'.eq_of_clash ha ha' (parentage.clash_of_belongs a a' b
        (Table.mem_of_find? hfound).2 (hb ▸ (Table.mem_of_find? hfound').2))
      rw [← hparents, hapart a hselects] at hselects'
      cases hselects'
    refine ⟨b, ?_, hcurrent⟩
    rw [Table.find?, hrows, find?_renewed, hfound, Option.map_some, if_neg hne]

theorem Seed.Planted.plantAll (hplanted : seed.Planted t u)
    (hapart : ∀ seed' ∈ seeds, seed.Apart seed') (h : plantAll seeds t u = .ok (t', u')) :
    seed.Planted t' u' := by
  induction seeds generalizing t u with
  | nil =>
      obtain ⟨rfl, rfl⟩ := Prod.mk.inj (Except.ok.inj h)
      exact hplanted
  | cons seed' seeds ih =>
      rw [Relational.plantAll] at h
      rcases hplant : seed'.plant t u with e | ⟨t₁, u₁⟩
      · rw [hplant] at h
        cases h
      · rw [hplant] at h
        exact ih (hplanted.plant (hapart seed' List.mem_cons_self) hplant)
          (fun other hother => hapart other (List.mem_cons_of_mem _ hother)) h

/-! ## What is left alone -/

/-- The stored rows are there, with the columns that `strip` keeps, and a row that has
changed belongs to a row with the key of a seed; what is new is a seed's. -/
structure Grown {γ : Type*} (strip : β → γ) (seeds : List (Seed parentage)) (t t' : Table α)
    (u u' : Table β) : Prop where
  parents : ∃ added, t'.rows = t.rows ++ added ∧ ∀ a ∈ added, ∃ seed ∈ seeds, a = seed.row
  children : ∃ (renewed : β → β) (added : List β), u'.rows = u.rows.map renewed ++ added ∧
    (∀ b, strip (renewed b) = strip b ∧ (∀ a, parentage.belongs a (renewed b) =
      parentage.belongs a b) ∧ (renewed b = b ∨ ∃ seed ∈ seeds, ∃ a ∈ t'.rows,
        seed.selects a = true ∧ parentage.belongs a b = true)) ∧
    ∀ b ∈ added, ∃ seed ∈ seeds, ∃ a, strip b = strip (seed.child a)

section Grown

variable {γ : Type*} {strip : β → γ}

omit [DecidableEq κ] in
/-- A child that was stored is there still, with the columns that are kept. -/
theorem Grown.renewed {seeds : List (Seed parentage)} {t t' : Table α} {u u' : Table β}
    (h : Grown strip seeds t t' u u') {b : β} (hb : b ∈ u.rows) :
    ∃ b' ∈ u'.rows, strip b' = strip b ∧ (b' = b ∨ ∃ seed ∈ seeds, ∃ a ∈ t'.rows,
      seed.selects a = true ∧ parentage.belongs a b = true) := by
  obtain ⟨renewed, added, hrows, hrenewed, -⟩ := h.children
  refine ⟨renewed b, ?_, (hrenewed b).1, (hrenewed b).2.2⟩
  rw [hrows]
  exact List.mem_append_left _ (List.mem_map_of_mem hb)

omit [DecidableEq κ] in
/-- A child that is there was stored, or is a seed's. -/
theorem Grown.source {seeds : List (Seed parentage)} {t t' : Table α} {u u' : Table β}
    (h : Grown strip seeds t t' u u') {b' : β} (hb' : b' ∈ u'.rows) :
    (∃ b ∈ u.rows, strip b' = strip b) ∨ ∃ seed ∈ seeds, ∃ a, strip b' = strip (seed.child a) := by
  obtain ⟨renewed, added, hrows, hrenewed, hadded⟩ := h.children
  rw [hrows] at hb'
  rcases List.mem_append.mp hb' with hold | hnew
  · obtain ⟨b, hb, rfl⟩ := List.mem_map.mp hold
    exact Or.inl ⟨b, hb, (hrenewed b).1⟩
  · exact Or.inr (hadded b' hnew)

omit [DecidableEq κ] in
theorem Grown.refl (t : Table α) (u : Table β) :
    Grown strip ([] : List (Seed parentage)) t t u u where
  parents := ⟨[], (List.append_nil _).symm, fun _ => nofun⟩
  children := ⟨id, [], by rw [List.map_id, List.append_nil],
    fun b => ⟨rfl, fun _ => rfl, Or.inl rfl⟩, fun _ => nofun⟩

theorem grown_of_plant (hstrip : ∀ b, strip (seed.renew b) = strip b)
    (h : seed.plant t u = .ok (t', u')) : Grown strip [seed] t t' u u' := by
  obtain ⟨a, hparent, hchild⟩ := plant_eq_ok h
  obtain ⟨hone, hrows⟩ := getOrCreate_eq_ok hparent
  have hmem : seed ∈ [seed] := List.mem_singleton_self seed
  refine ⟨?_, ?_⟩
  · rcases hrows with rfl | hrows
    · exact ⟨[], (List.append_nil _).symm, fun _ => nofun⟩
    · exact ⟨[seed.row], hrows, fun a ha => ⟨seed, hmem, List.mem_singleton.mp ha⟩⟩
  · rcases refresh_eq_ok hchild with ⟨rfl, -⟩ | ⟨-, hrows⟩ | ⟨b, hfound, hrows⟩
    · exact ⟨id, [], by rw [List.map_id, List.append_nil],
        fun b => ⟨rfl, fun _ => rfl, Or.inl rfl⟩, fun _ => nofun⟩
    · refine ⟨id, [seed.child a], by rw [List.map_id, hrows],
        fun b => ⟨rfl, fun _ => rfl, Or.inl rfl⟩, fun b hb => ⟨seed, hmem, a, ?_⟩⟩
      rw [List.mem_singleton.mp hb]
    · classical
      -- only the row that was found is rewritten, since the key is its own
      have hupdated : u'.rows = u.rows.map fun row => if row = b then seed.renew row else row := by
        refine hrows.trans (List.map_congr_left fun row hrow => ?_)
        by_cases hsame : row = b
        · rw [hsame, if_pos rfl, if_pos (beq_self_eq_true _)]
        · rw [if_neg hsame, if_neg fun hkey => hsame (u.eq_of_clash hrow
            (Table.mem_of_find? hfound).1 (parentage.clash_of_key row b (beq_iff_eq.mp hkey)))]
      obtain ⟨ha, hselects⟩ := mem_of_filter_eq hone
      refine ⟨fun row => if row = b then seed.renew row else row, [],
        by rw [List.append_nil, hupdated], fun row => ?_, fun _ => nofun⟩
      dsimp only
      by_cases hsame : row = b
      · rw [if_pos hsame]
        refine ⟨hstrip row, fun a => seed.belongs_renew a row, Or.inr ⟨seed, hmem, a, ha, hselects, ?_⟩⟩
        rw [hsame]
        exact (Table.mem_of_find? hfound).2
      · rw [if_neg hsame]
        exact ⟨rfl, fun _ => rfl, Or.inl rfl⟩

omit [DecidableEq κ] in
theorem Grown.trans {seeds' : List (Seed parentage)} {t'' : Table α} {u'' : Table β}
    (h : Grown strip seeds t t' u u') (h' : Grown strip seeds' t' t'' u' u'') :
    Grown strip (seeds ++ seeds') t t'' u u'' := by
  obtain ⟨added, hrows, hadded⟩ := h.parents
  obtain ⟨added', hrows', hadded'⟩ := h'.parents
  obtain ⟨renewed, made, hchildren, hrenewed, hmade⟩ := h.children
  obtain ⟨renewed', made', hchildren', hrenewed', hmade'⟩ := h'.children
  refine ⟨⟨added ++ added', by rw [hrows', hrows, List.append_assoc], fun a ha => ?_⟩,
    renewed' ∘ renewed, made.map renewed' ++ made', ?_, fun b => ?_, fun b hb => ?_⟩
  · rcases List.mem_append.mp ha with ha | ha
    · obtain ⟨seed, hseed, hrow⟩ := hadded a ha
      exact ⟨seed, List.mem_append_left _ hseed, hrow⟩
    · obtain ⟨seed, hseed, hrow⟩ := hadded' a ha
      exact ⟨seed, List.mem_append_right _ hseed, hrow⟩
  · rw [hchildren', hchildren, List.map_append, List.map_map, List.append_assoc]
  · obtain ⟨hstrip, hbelongs, hcases⟩ := hrenewed b
    obtain ⟨hstrip', hbelongs', hcases'⟩ := hrenewed' (renewed b)
    refine ⟨hstrip'.trans hstrip, fun a => (hbelongs' a).trans (hbelongs a), ?_⟩
    rcases hcases' with hsame' | ⟨seed, hseed, a, ha, hselects, hbelong⟩
    · rcases hcases with hsame | ⟨seed, hseed, a, ha, hselects, hbelong⟩
      · exact Or.inl (hsame'.trans hsame)
      · refine Or.inr ⟨seed, List.mem_append_left _ hseed, a, ?_, hselects, hbelong⟩
        rw [hrows']
        exact List.mem_append_left _ ha
    · exact Or.inr ⟨seed, List.mem_append_right _ hseed, a, ha, hselects,
        (hbelongs a).symm.trans hbelong⟩
  · rcases List.mem_append.mp hb with hb | hb
    · obtain ⟨made₀, hmade₀, rfl⟩ := List.mem_map.mp hb
      obtain ⟨seed, hseed, a, hchild⟩ := hmade made₀ hmade₀
      exact ⟨seed, List.mem_append_left _ hseed, a, (hrenewed' made₀).1.trans hchild⟩
    · obtain ⟨seed, hseed, hchild⟩ := hmade' b hb
      exact ⟨seed, List.mem_append_right _ hseed, hchild⟩

/-- **A run of seeds that have different keys**: each is planted at its end. -/
theorem plantAll_eq_ok (strip : β → γ) (hstrip : ∀ seed ∈ seeds, ∀ b, strip (seed.renew b) = strip b)
    (hapart : seeds.Pairwise Seed.Apart) (h : plantAll seeds t u = .ok (t', u')) :
    (∀ seed ∈ seeds, seed.Planted t' u') ∧ Grown strip seeds t t' u u' := by
  induction seeds generalizing t u with
  | nil =>
      obtain ⟨rfl, rfl⟩ := Prod.mk.inj (Except.ok.inj h)
      exact ⟨fun _ => nofun, Grown.refl t u⟩
  | cons seed seeds ih =>
      rw [plantAll] at h
      rcases hplant : seed.plant t u with e | ⟨t₁, u₁⟩
      · rw [hplant] at h
        cases h
      · rw [hplant] at h
        obtain ⟨hfirst, hothers⟩ := List.pairwise_cons.mp hapart
        obtain ⟨hplanted, hgrown⟩ := ih (fun other hother =>
          hstrip other (List.mem_cons_of_mem _ hother)) hothers h
        refine ⟨fun other hother => ?_,
          (grown_of_plant (hstrip seed List.mem_cons_self) hplant).trans hgrown⟩
        rcases List.mem_cons.mp hother with rfl | hother
        · exact (planted_of_plant hplant).plantAll hfirst h
        · exact hplanted other hother

end Grown

end Relational
