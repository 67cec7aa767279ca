import Mathlib.Data.List.Induction

/-!
# Runs of a step function

A run applies a step function to the labels of a schedule, one after the other.
`Always P` says that `P` holds in every state the run passes through, `Steps Q`
that `Q` holds of every state and the label that is taken there.

Two rules are the induction over a run: a property that is kept by the steps that
satisfy `Q` holds throughout a run of such steps, and if it is kept by no others,
throughout exactly those runs.  What holds at the end of a run has always held, or
has held since a step that began it (`always_or_begins`).

Where a step overwrites a value or leaves it alone, `shows_run` says what is left
at the end: the last write, in the order of the schedule.
-/

namespace Runs

universe u v

/-! A schedule of two or three processes is written with the numerals of `Fin 2` or `Fin 3`. -/

instance neZeroTwo : @NeZero Nat Zero.ofOfNat0 2 := ⟨by decide⟩

instance neZeroThree : @NeZero Nat Zero.ofOfNat0 3 := ⟨by decide⟩

variable {S : Type u} {ι : Type v}

def run (step : S → ι → S) (s : S) (schedule : List ι) : S := schedule.foldl step s

variable {step : S → ι → S} {s : S} {i : ι} {schedule : List ι}

@[simp] theorem run_nil : run step s [] = s := rfl

@[simp] theorem run_cons : run step s (i :: schedule) = run step (step s i) schedule := rfl

theorem run_append (first second : List ι) :
    run step s (first ++ second) = run step (run step s first) second :=
  List.foldl_append ..

/-- `P` holds in every state of the run. -/
def Always (step : S → ι → S) (P : S → Prop) (s : S) (schedule : List ι) : Prop :=
  ∀ first rest, schedule = first ++ rest → P (run step s first)

/-- `Q` holds of every step of the run. -/
def Steps (step : S → ι → S) (Q : S → ι → Prop) (s : S) (schedule : List ι) : Prop :=
  ∀ first i rest, schedule = first ++ i :: rest → Q (run step s first) i

variable {P : S → Prop} {Q : S → ι → Prop}

@[simp] theorem always_nil : Always step P s [] ↔ P s := by
  constructor
  · intro h
    exact h [] [] rfl
  · intro h first rest hsplit
    obtain ⟨rfl, -⟩ := List.append_eq_nil_iff.mp hsplit.symm
    exact h

@[simp] theorem steps_nil : Steps step Q s [] := by
  intro first i rest hsplit
  cases first <;> cases hsplit

theorem always_cons : Always step P s (i :: schedule) ↔
    P s ∧ Always step P (step s i) schedule := by
  constructor
  · intro h
    refine ⟨h [] (i :: schedule) rfl, fun first rest hsplit => ?_⟩
    exact h (i :: first) rest (by rw [hsplit]; rfl)
  · rintro ⟨hhere, hrest⟩ first rest hsplit
    cases first with
    | nil => exact hhere
    | cons j first =>
        obtain ⟨rfl, htail⟩ := List.cons.inj hsplit
        exact hrest first rest htail

theorem steps_cons : Steps step Q s (i :: schedule) ↔
    Q s i ∧ Steps step Q (step s i) schedule := by
  constructor
  · intro h
    refine ⟨h [] i schedule rfl, fun first j rest hsplit => ?_⟩
    exact h (i :: first) j rest (by rw [hsplit]; rfl)
  · rintro ⟨hhere, hrest⟩ first j rest hsplit
    cases first with
    | nil =>
        obtain ⟨rfl, -⟩ := List.cons.inj hsplit
        exact hhere
    | cons k first =>
        obtain ⟨rfl, htail⟩ := List.cons.inj hsplit
        exact hrest first j rest htail

/-- The end of a run of such steps. -/
theorem Steps.drop {first rest : List ι} (h : Steps step Q s (first ++ rest)) :
    Steps step Q (run step s first) rest := by
  intro first' i rest' hsplit
  have hwhole := h (first ++ first') i rest' (by rw [hsplit, List.append_assoc])
  rwa [run_append] at hwhole

/-- The beginning of a run of such steps. -/
theorem Steps.take {first rest : List ι} (h : Steps step Q s (first ++ rest)) :
    Steps step Q s first := by
  intro first' i rest' hsplit
  exact h first' i (rest' ++ rest) (by rw [hsplit, List.append_assoc, List.cons_append])

instance decidableSteps [∀ s i, Decidable (Q s i)] (s : S) (schedule : List ι) :
    Decidable (Steps step Q s schedule) :=
  match schedule with
  | [] => .isTrue steps_nil
  | i :: schedule =>
      have := decidableSteps (step s i) schedule
      decidable_of_iff (Q s i ∧ Steps step Q (step s i) schedule) steps_cons.symm

theorem Always.final (h : Always step P s schedule) : P (run step s schedule) :=
  h schedule [] (List.append_nil _).symm

theorem Always.mono {P' : S → Prop} (h : Always step P s schedule) (himp : ∀ s, P s → P' s) :
    Always step P' s schedule :=
  fun first rest hsplit => himp _ (h first rest hsplit)

/-- A property kept by the steps that satisfy `Q` holds throughout a run of them. -/
theorem always_of_steps (hstep : ∀ s i, P s → Q s i → P (step s i)) (hs : P s)
    (h : Steps step Q s schedule) : Always step P s schedule := by
  induction schedule generalizing s with
  | nil => exact always_nil.mpr hs
  | cons i schedule ih =>
      obtain ⟨hhere, hrest⟩ := steps_cons.mp h
      exact always_cons.mpr ⟨hs, ih (hstep s i hs hhere) hrest⟩

/-- An invariant that every step keeps holds in every state of every run. -/
theorem always_of_invariant (hstep : ∀ s i, P s → P (step s i)) (hs : P s)
    (schedule : List ι) : Always step P s schedule :=
  always_of_steps (Q := fun _ _ => True) (fun s i h _ => hstep s i h) hs fun _ _ _ _ => trivial

/-- Under an invariant, a property kept by exactly the steps that satisfy `Q`
holds throughout exactly the runs of such steps. -/
theorem always_iff_steps (inv : S → Prop) (hinv : ∀ s i, inv s → inv (step s i))
    (hstep : ∀ s i, inv s → P s → (P (step s i) ↔ Q s i)) (hs : inv s) (hP : P s) :
    Always step P s schedule ↔ Steps step Q s schedule := by
  induction schedule generalizing s with
  | nil => exact iff_of_true (always_nil.mpr hP) steps_nil
  | cons i schedule ih =>
      rw [always_cons, steps_cons]
      by_cases hQ : Q s i
      · rw [ih (hinv s i hs) ((hstep s i hs hP).mpr hQ)]
        exact and_congr (iff_of_true hP hQ) Iff.rfl
      · refine iff_of_false (fun h => hQ ?_) fun h => hQ h.1
        exact (hstep s i hs hP).mp (h.2 [] schedule rfl)

/-- A run that has a step which does not satisfy `Q` has a first one. -/
theorem exists_first_failure (h : ¬ Steps step Q s schedule) : ∃ first i rest,
    schedule = first ++ i :: rest ∧ Steps step Q s first ∧ ¬ Q (run step s first) i := by
  induction schedule generalizing s with
  | nil => exact absurd steps_nil h
  | cons i schedule ih =>
      by_cases hhere : Q s i
      · have hlater : ¬ Steps step Q (step s i) schedule := fun hrest =>
          h (steps_cons.mpr ⟨hhere, hrest⟩)
        obtain ⟨first, j, rest, rfl, hsteps, hfails⟩ := ih hlater
        exact ⟨i :: first, j, rest, rfl, steps_cons.mpr ⟨hhere, hsteps⟩, hfails⟩
      · exact ⟨[], i, schedule, rfl, steps_nil, hhere⟩

/-! ## Steps that are taken once -/

/-- A step of the run satisfies `Q`. -/
def Sometime (step : S → ι → S) (Q : S → ι → Prop) (s : S) (schedule : List ι) : Prop :=
  ∃ first i rest, schedule = first ++ i :: rest ∧ Q (run step s first) i

/-- After a step that satisfies `Q` there is no other. -/
def AtMostOnce (step : S → ι → S) (Q : S → ι → Prop) (s : S) (schedule : List ι) : Prop :=
  ∀ first i rest, schedule = first ++ i :: rest → Q (run step s first) i →
    Steps step (fun s i => ¬ Q s i) (run step s (first ++ [i])) rest

@[simp] theorem not_sometime_nil : ¬ Sometime step Q s [] := by
  rintro ⟨first, i, rest, hsplit, _⟩
  cases first <;> cases hsplit

theorem sometime_cons : Sometime step Q s (i :: schedule) ↔
    Q s i ∨ Sometime step Q (step s i) schedule := by
  constructor
  · rintro ⟨first, j, rest, hsplit, hstep⟩
    cases first with
    | nil =>
        obtain ⟨rfl, -⟩ := List.cons.inj hsplit
        exact Or.inl hstep
    | cons k first =>
        obtain ⟨rfl, htail⟩ := List.cons.inj hsplit
        exact Or.inr ⟨first, j, rest, htail, hstep⟩
  · rintro (hhere | ⟨first, j, rest, hsplit, hstep⟩)
    · exact ⟨[], i, schedule, rfl, hhere⟩
    · exact ⟨i :: first, j, rest, by rw [hsplit]; rfl, hstep⟩

/-- A step that leaves a property which no step restores is taken once. -/
theorem atMostOnce_of_leaves {R : S → ι → Prop} (hleaves : ∀ s i, Q s i → P s ∧ ¬ P (step s i))
    (hstays : ∀ s i, R s i → ¬ P s → ¬ P (step s i)) (h : Steps step R s schedule) :
    AtMostOnce step Q s schedule := by
  intro first i rest hsplit hleft first' j rest' hsplit'
  have hrest : Steps step R (run step s (first ++ [i])) rest := by
    intro first'' k rest'' hsplit''
    rw [← run_append]
    refine h (first ++ [i] ++ first'') k rest'' ?_
    rw [hsplit, hsplit'']
    simp
  have hnever : Always step (fun s => ¬ P s) (run step s (first ++ [i])) rest := by
    refine always_of_steps (fun s i hnot hR => hstays s i hR hnot) ?_ hrest
    rw [run_append]
    exact (hleaves _ i hleft).2
  exact fun hagain => hnever first' (j :: rest') hsplit' (hleaves _ j hagain).1

/-- A property that begins with the steps that satisfy `Q`, and with no others, and
stays, holds at the end if and only if such a step has been taken. -/
theorem final_iff_sometime {R : S → ι → Prop}
    (hstep : ∀ s i, R s i → (P (step s i) ↔ P s ∨ Q s i)) (h : Steps step R s schedule) :
    P (run step s schedule) ↔ P s ∨ Sometime step Q s schedule := by
  induction schedule generalizing s with
  | nil => simp
  | cons i schedule ih =>
      obtain ⟨hhere, hrest⟩ := steps_cons.mp h
      rw [run_cons, ih hrest, hstep s i hhere, sometime_cons, or_assoc]

/-! ## Since when -/

theorem always_concat : Always step P s (schedule ++ [i]) ↔
    Always step P s schedule ∧ P (run step s (schedule ++ [i])) := by
  constructor
  · intro h
    refine ⟨fun first rest hsplit => h first (rest ++ [i]) ?_, h.final⟩
    rw [hsplit, List.append_assoc]
  · rintro ⟨hearlier, hlast⟩ first rest hsplit
    rcases List.eq_nil_or_concat rest with rfl | ⟨rest, j, rfl⟩
    · rw [List.append_nil] at hsplit
      rw [← hsplit]
      exact hlast
    · rw [List.concat_eq_append, ← List.append_assoc] at hsplit
      exact hearlier first rest (List.append_inj_left' hsplit rfl)

/-- What holds at the end has always held, or has held since a step that began it. -/
theorem always_or_begins (h : P (run step s schedule)) : Always step P s schedule ∨
    ∃ first i rest, schedule = first ++ i :: rest ∧ ¬ P (run step s first) ∧
      Always step P (run step s (first ++ [i])) rest := by
  induction schedule using List.reverseRecOn with
  | nil => exact Or.inl (always_nil.mpr h)
  | append_singleton schedule j ih =>
      by_cases hearlier : P (run step s schedule)
      · rcases ih hearlier with halways | ⟨first, i, rest, rfl, hnot, halways⟩
        · exact Or.inl (always_concat.mpr ⟨halways, h⟩)
        · refine Or.inr ⟨first, i, rest ++ [j], by simp, hnot, always_concat.mpr ⟨halways, ?_⟩⟩
          rw [← run_append]
          simpa using h
      · exact Or.inr ⟨schedule, j, [], rfl, hearlier, always_nil.mpr h⟩

/-! ## Last writes -/

section Writes

variable {V : Type v} {effect : ι → Option V}

/-- The value written last along the schedule, if any step writes one. -/
def lastWrite (effect : ι → Option V) (schedule : List ι) : Option V :=
  (schedule.filterMap effect).getLast?

@[simp] theorem lastWrite_nil : lastWrite effect [] = none := rfl

theorem lastWrite_cons : lastWrite effect (i :: schedule) =
    (lastWrite effect schedule).or (effect i) := by
  unfold lastWrite
  cases heffect : effect i with
  | none => simp [heffect]
  | some value =>
      rw [List.filterMap_cons_some heffect, List.getLast?_cons]
      cases (schedule.filterMap effect).getLast? <;> rfl

theorem lastWrite_map {κ : Type v} (label : κ → ι) (schedule : List κ) :
    lastWrite effect (schedule.map label) = lastWrite (effect ∘ label) schedule := by
  rw [lastWrite, List.filterMap_map]
  rfl

/-- The last write wins. -/
theorem shows_run {Shows : S → V → Prop}
    (hstep : ∀ s i value, Shows s value → Shows (step s i) ((effect i).getD value))
    {value : V} (hs : Shows s value) :
    Shows (run step s schedule) ((lastWrite effect schedule).getD value) := by
  induction schedule generalizing s value with
  | nil => exact hs
  | cons i schedule ih =>
      have hrest := ih (hstep s i value hs)
      rw [run_cons, lastWrite_cons]
      cases hlast : lastWrite effect schedule with
      | none => simpa [hlast] using hrest
      | some last => simpa [hlast] using hrest

end Writes

end Runs
