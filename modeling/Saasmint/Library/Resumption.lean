import Saasmint.Library.Runs
import Mathlib.Data.List.Basic

/-!
# Jobs that can be taken up again

A job is a list of phases.  A run of it that is stopped has taken the first few of
them, and a rerun starts over.  Where every phase leaves a mark, on which it does
nothing, and the later ones keep the mark, a rerun passes over what has been taken and
goes on from there: however often a job is stopped and wherever, the run that is not
stopped ends where one run would have ended.
-/

namespace Resumption

universe u

variable {S : Type u}

/-- A phase, with the mark it leaves. -/
structure Phase (S : Type u) where
  act : S → S
  mark : S → Prop
  idle : ∀ s, mark s → act s = s

/-- The state after the first `n` phases. -/
def upto : List (Phase S) → ℕ → S → S
  | phase :: phases, n + 1, s => upto phases n (phase.act s)
  | _, _, s => s

variable {phases first rest : List (Phase S)} {s : S} {n m : ℕ}

@[simp] theorem upto_nil : upto ([] : List (Phase S)) n s = s := by
  cases n <;> rfl

@[simp] theorem upto_zero : upto phases 0 s = s := by
  cases phases <;> rfl

@[simp] theorem upto_cons_succ {phase : Phase S} :
    upto (phase :: phases) (n + 1) s = upto phases n (phase.act s) := rfl

theorem upto_add (n m : ℕ) : upto phases (n + m) s = upto (phases.drop n) m (upto phases n s) := by
  induction n generalizing phases s with
  | zero => simp
  | succ n ih =>
      cases phases with
      | nil => simp
      | cons phase phases =>
          rw [Nat.add_right_comm, upto_cons_succ, ih]
          rfl

/-- Phases whose marks are there already do nothing. -/
theorem upto_of_marked (h : ∀ phase ∈ phases.take n, phase.mark s) : upto phases n s = s := by
  induction n generalizing phases with
  | zero => exact upto_zero
  | succ n ih =>
      cases phases with
      | nil => exact upto_nil
      | cons phase phases =>
          rw [upto_cons_succ, phase.idle s (h phase List.mem_cons_self)]
          exact ih fun later hlater => h later (List.mem_cons_of_mem _ hlater)

theorem upto_of_length_le (h : phases.length ≤ n) :
    upto phases n s = upto phases phases.length s := by
  induction phases generalizing n s with
  | nil => simp
  | cons phase phases ih =>
      cases n with
      | zero => cases h
      | succ n => exact ih (Nat.le_of_succ_le_succ h)

/-- What every phase does to a state, the first few do. -/
theorem rel_upto {R : S → S → Prop} (hrefl : ∀ s, R s s) (htrans : ∀ r s t, R r s → R s t → R r t)
    (h : ∀ phase ∈ phases, ∀ s, R s (phase.act s)) (n : ℕ) (s : S) : R s (upto phases n s) := by
  induction phases generalizing n s with
  | nil =>
      rw [upto_nil]
      exact hrefl s
  | cons phase phases ih =>
      cases n with
      | zero => exact hrefl s
      | succ n =>
          refine htrans _ _ _ (h phase List.mem_cons_self s) ?_
          exact ih (fun later hlater => h later (List.mem_cons_of_mem _ hlater)) n (phase.act s)

/-- Under the invariant and with the marks of the phases before, a phase leaves its own
mark and keeps these. -/
def Progressive (inv : S → Prop) (before : List (Phase S)) : List (Phase S) → Prop
  | [] => True
  | phase :: phases =>
      (∀ s, inv s → (∀ earlier ∈ before, earlier.mark s) →
        inv (phase.act s) ∧ phase.mark (phase.act s) ∧
          ∀ earlier ∈ before, earlier.mark (phase.act s)) ∧
      Progressive inv (before ++ [phase]) phases

/-- The marks of the phases that have been taken. -/
theorem Progressive.marked {inv : S → Prop} (h : Progressive inv first rest) (hinv : inv s)
    (hfirst : ∀ phase ∈ first, phase.mark s) :
    inv (upto rest n s) ∧ (∀ phase ∈ first, phase.mark (upto rest n s)) ∧
      ∀ phase ∈ rest.take n, phase.mark (upto rest n s) := by
  induction rest generalizing first s n with
  | nil => simpa using ⟨hinv, hfirst⟩
  | cons phase rest ih =>
      cases n with
      | zero => simpa using ⟨hinv, hfirst⟩
      | succ n =>
          obtain ⟨hstep, hrest⟩ := h
          obtain ⟨hinv', hmark, hkept⟩ := hstep s hinv hfirst
          have hfirst' : ∀ earlier ∈ first ++ [phase], earlier.mark (phase.act s) := by
            intro earlier hearlier
            rcases List.mem_append.mp hearlier with hold | hnew
            · exact hkept earlier hold
            · rwa [List.mem_singleton.mp hnew]
          obtain ⟨hinv'', hdone, hlater⟩ := ih (n := n) hrest hinv' hfirst'
          refine ⟨hinv'', fun earlier hearlier => hdone earlier (List.mem_append_left _ hearlier), ?_⟩
          intro later hmem
          rw [List.take_succ_cons, List.mem_cons] at hmem
          rcases hmem with rfl | hmem
          · exact hdone later (List.mem_append_right _ (List.mem_singleton_self _))
          · exact hlater later hmem

/-- A rerun passes over what has been taken, and goes on. -/
theorem Progressive.upto_upto {inv : S → Prop} (h : Progressive inv [] phases) (hinv : inv s)
    (n m : ℕ) : upto phases m (upto phases n s) = upto phases (max n m) s := by
  have hmarks : ∀ phase ∈ phases.take n, phase.mark (upto phases n s) :=
    (h.marked (n := n) hinv (List.forall_mem_nil _)).2.2
  rcases Nat.le_total m n with hle | hle
  · rw [Nat.max_eq_left hle]
    refine upto_of_marked fun phase hphase => hmarks phase ?_
    exact (List.take_subset_take_left phases hle) hphase
  · rw [Nat.max_eq_right hle]
    obtain ⟨k, rfl⟩ := Nat.exists_eq_add_of_le hle
    calc upto phases (n + k) (upto phases n s)
      _ = upto (phases.drop n) k (upto phases n (upto phases n s)) := upto_add n k
      _ = upto (phases.drop n) k (upto phases n s) := by rw [upto_of_marked hmarks]
      _ = upto phases (n + k) s := (upto_add n k).symm

/-- However often a job is stopped, it has come as far as some phase, and a rerun
completes it. -/
theorem Progressive.resume {ι : Type*} {inv : S → Prop} {step : S → ι → S} {Q : S → ι → Prop}
    (h : Progressive inv [] phases) (hinv : inv s)
    (hstep : ∀ n i, Q (upto phases n s) i → ∃ m, step (upto phases n s) i =
      upto phases m (upto phases n s))
    {schedule : List ι} (hschedule : Runs.Steps step Q s schedule) :
    ∃ n, Runs.run step s schedule = upto phases n s := by
  have hreached : Runs.Always step (fun t => ∃ n, t = upto phases n s) s schedule := by
    refine Runs.always_of_steps ?_ ⟨0, upto_zero.symm⟩ hschedule
    rintro _ i ⟨n, rfl⟩ hQ
    obtain ⟨m, hm⟩ := hstep n i hQ
    exact ⟨max n m, by rw [hm, h.upto_upto hinv]⟩
  exact hreached.final

end Resumption
