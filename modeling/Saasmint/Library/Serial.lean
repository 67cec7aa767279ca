import Saasmint.Library.Monitor

/-!
# Runs that amount to one write after the other

Programs that read and write in any order among each other, but each of which writes at most
once, and in one action: `performed` are the writers of a run in the order of their writes.

If a write changes what a state shows by a function of its program alone, then a run leaves
what its writers leave in this order (`shows_performed`), whatever they had read before.
-/

namespace Atomic

universe u v w x

/-- The monitor of a program that writes once at most. -/
def Monitor.once {Λ : Type v} {σ : Type w} (writes : Λ → Bool) (allow : Λ → (σ → σ) → Prop) :
    Monitor Bool Λ σ where
  track written label _ := written || writes label
  allow written label effect := (writes label = true → written = false) ∧ allow label effect

namespace Pool

variable {ι : Type u} {Λ : Type v} {σ : Type w} {α : Type u} [DecidableEq ι]

/-- The programs that write in a run, in the order of their writes. -/
def performed (writes : Λ → Bool) (pool : Pool ι Λ σ α) : List ι → List ι
  | [] => []
  | i :: schedule =>
      match pool.procs i with
      | .act label _ _ =>
          if writes label then i :: (pool.step i).performed writes schedule
          else (pool.step i).performed writes schedule
      | .done _ => (pool.step i).performed writes schedule

variable {writes : Λ → Bool} {allow : ι → Λ → (σ → σ) → Prop} {post : ι → Bool → α → Prop}
  {pool : Pool ι Λ σ α} {written : ι → Bool}

theorem performed_append (writes : Λ → Bool) (pool : Pool ι Λ σ α) (first rest : List ι) :
    pool.performed writes (first ++ rest) =
      pool.performed writes first ++ (pool.run first).performed writes rest := by
  induction first generalizing pool with
  | nil => rfl
  | cons i first ih =>
      rw [List.cons_append, run_cons]
      cases hproc : pool.procs i with
      | done result => simp only [performed, hproc, ih]
      | act label effect next =>
          by_cases hwrites : writes label = true
          · simp only [performed, hproc, if_pos hwrites, ih, List.cons_append]
          · simp only [performed, hproc, if_neg hwrites, ih]

/-- A writer has been given a turn. -/
theorem mem_of_performed {writes : Λ → Bool} {pool : Pool ι Λ σ α} {schedule : List ι} {i : ι}
    (h : i ∈ pool.performed writes schedule) : i ∈ schedule := by
  induction schedule generalizing pool with
  | nil => exact h
  | cons j schedule ih =>
      rw [List.mem_cons]
      cases hproc : pool.procs j with
      | done result =>
          simp only [performed, hproc] at h
          exact .inr (ih h)
      | act label effect next =>
          by_cases hwrites : writes label = true
          · simp only [performed, hproc, if_pos hwrites, List.mem_cons] at h
            exact h.imp id ih
          · simp only [performed, hproc, if_neg hwrites] at h
            exact .inr (ih h)

/-- Nobody writes twice, and who has written is known at the end. -/
theorem performed_once (h : pool.Obeys (fun i => .once writes (allow i)) post written)
    (schedule : List ι) :
    (pool.performed writes schedule).Nodup ∧
      (∀ i ∈ pool.performed writes schedule, written i = false) ∧
      (pool.run schedule).Obeys (fun i => .once writes (allow i)) post
        fun i => written i || decide (i ∈ pool.performed writes schedule) := by
  induction schedule generalizing pool written with
  | nil => exact ⟨List.nodup_nil, fun _ h => absurd h List.not_mem_nil, by simpa [performed] using h⟩
  | cons i schedule ih =>
      have hstep := step_obeys h i
      obtain ⟨hnodup, hunwritten, hobeys⟩ := ih hstep
      rw [run_cons]
      cases hproc : pool.procs i with
      | done result =>
          rw [track_done hproc] at hunwritten hobeys
          simp only [performed, hproc]
          exact ⟨hnodup, hunwritten, hobeys⟩
      | act label effect next =>
          have hallowed := h i
          rw [hproc] at hallowed
          rw [track_act hproc] at hunwritten hobeys
          by_cases hwrites : writes label = true
          · -- from here on its memory says that it has written
            have hfirst : i ∉ (pool.step i).performed writes schedule := by
              intro hmem
              have htrue := hunwritten i hmem
              rw [Function.update_self] at htrue
              simp [Monitor.once, hwrites] at htrue
            simp only [performed, hproc, if_pos hwrites]
            refine ⟨List.nodup_cons.mpr ⟨hfirst, hnodup⟩, fun j hj => ?_, ?_⟩
            · rcases List.mem_cons.mp hj with rfl | hj
              · exact hallowed.1.1 hwrites
              · have hne : j ≠ i := fun hsame => hfirst (hsame ▸ hj)
                have hjwritten := hunwritten j hj
                rwa [Function.update_of_ne hne] at hjwritten
            · convert hobeys using 2 with j
              by_cases hj : j = i
              · subst hj
                simp [Monitor.once, hwrites]
              · simp [hj]
          · simp only [performed, hproc, if_neg hwrites]
            have hsame : Function.update written i
                ((Monitor.once writes (allow i)).track (written i) label pool.shared) = written := by
              rw [Function.update_eq_self_iff]
              simp [Monitor.once, hwrites]
            rw [hsame] at hunwritten hobeys
            exact ⟨hnodup, hunwritten, hobeys⟩

/-- Who writes was allowed to. -/
theorem allowed_of_performed (h : pool.Obeys (fun i => .once writes (allow i)) post written)
    {schedule : List ι} {i : ι} (hi : i ∈ pool.performed writes schedule) :
    ∃ label effect, writes label = true ∧ allow i label effect := by
  induction schedule generalizing pool written with
  | nil => exact absurd hi List.not_mem_nil
  | cons j schedule ih =>
      have hstep := step_obeys h j
      cases hproc : pool.procs j with
      | done result =>
          simp only [performed, hproc] at hi
          exact ih hstep hi
      | act label effect next =>
          have hallowed := h j
          rw [hproc] at hallowed
          by_cases hwrites : writes label = true
          · simp only [performed, hproc, if_pos hwrites, List.mem_cons] at hi
            rcases hi with rfl | hi
            · exact ⟨label, effect, hwrites, hallowed.1.2⟩
            · exact ih hstep hi
          · simp only [performed, hproc, if_neg hwrites] at hi
            exact ih hstep hi

/-- A run shows what its writers make of what was shown, one after the other. -/
theorem shows_performed {V : Type x} {Shows : σ → V → Prop} {apply : ι → V → V}
    (hkeep : ∀ i label effect, allow i label effect → writes label = false →
      ∀ s v, Shows s v → Shows (effect s) v)
    (hwrite : ∀ i label effect, allow i label effect → writes label = true →
      ∀ s v, Shows s v → Shows (effect s) (apply i v))
    (h : pool.Obeys (fun i => .once writes (allow i)) post written) (schedule : List ι) {v : V}
    (hv : Shows pool.shared v) :
    Shows (pool.run schedule).shared
      ((pool.performed writes schedule).foldl (fun v i => apply i v) v) := by
  induction schedule generalizing pool written v with
  | nil => exact hv
  | cons i schedule ih =>
      have hstep := step_obeys h i
      rw [run_cons]
      cases hproc : pool.procs i with
      | done result =>
          simp only [performed, hproc]
          refine ih hstep ?_
          rwa [step_done hproc]
      | act label effect next =>
          have hallowed := h i
          rw [hproc] at hallowed
          have hshared : (pool.step i).shared = effect pool.shared := by rw [step_act hproc]
          by_cases hwrites : writes label = true
          · simp only [performed, hproc, if_pos hwrites, List.foldl_cons]
            refine ih hstep ?_
            rw [hshared]
            exact hwrite i label effect hallowed.1.2 hwrites _ v hv
          · simp only [performed, hproc, if_neg hwrites]
            refine ih hstep ?_
            rw [hshared]
            exact hkeep i label effect hallowed.1.2 (Bool.not_eq_true _ ▸ hwrites) _ v hv

end Pool

end Atomic
