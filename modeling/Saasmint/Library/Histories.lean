import Mathlib.Data.List.Induction
import Saasmint.Library.Monitor

/-!
# Histories

A monitor whose memory is everything that a program has seen: its actions, and the states
they found.  What may come next is said of this history.

In a pool, the history of a program is made of its own earlier steps and of the states the
run had reached before them (`Pool.run_chronicle`), so that an action that is allowed by
what its program has seen is allowed by the run (`Pool.act_justified`).
-/

namespace Atomic

universe u v w

/-- The actions of a program, the last one first, and the states they found. -/
abbrev History (Λ : Type v) (σ : Type w) := List (Λ × σ)

/-- The monitor that remembers everything. -/
def chronicle {Λ : Type v} {σ : Type w} (allow : History Λ σ → Λ → (σ → σ) → Prop) :
    Monitor (History Λ σ) Λ σ where
  track seen label s := (label, s) :: seen
  allow := allow

/-! ## What has been seen stays so -/

section Later

variable {Λ : Type v} {σ : Type w} {ε α β : Type u} {allow : History Λ σ → Λ → (σ → σ) → Prop}
  {seen : History Λ σ}

theorem Program.Obeys.later {post : History Λ σ → α → Prop} {p : Program Λ σ α}
    (h : p.Obeys (chronicle allow) post seen) :
    p.Obeys (chronicle allow) (fun seen' a => seen <:+ seen' ∧ post seen' a) seen := by
  induction p generalizing seen with
  | done result => exact ⟨List.suffix_refl seen, h⟩
  | act label effect next ih =>
      refine ⟨h.1, fun s => (ih s (h.2 s)).mono fun seen' a hlater => ?_⟩
      exact ⟨(List.suffix_cons _ seen).trans hlater.1, hlater.2⟩

/-- What allows everything is obeyed by all. -/
theorem Program.obeys_of_allowed {post : History Λ σ → α → Prop} (p : Program Λ σ α)
    (hallow : ∀ seen label effect, allow seen label effect) (hpost : ∀ seen a, post seen a)
    (seen : History Λ σ) : p.Obeys (chronicle allow) post seen := by
  induction p generalizing seen with
  | done result => exact hpost seen result
  | act label effect next ih => exact ⟨hallow seen label effect, fun s => ih s _⟩

/-- A second part may rely on what the first has seen. -/
theorem Fallible.heeds_bind_later {post : History Λ σ → α → Prop}
    {post' : History Λ σ → β → Prop} {p : Fallible ε Λ σ α} {rest : α → Fallible ε Λ σ β}
    (hp : p.Heeds (chronicle allow) post seen)
    (hrest : ∀ seen' a, seen <:+ seen' → post seen' a →
      (rest a).Heeds (chronicle allow) post' seen') :
    (p >>= rest).Heeds (chronicle allow) post' seen := by
  refine Fallible.heeds_bind.mpr ((Program.Obeys.later hp).mono fun seen' result hlater => ?_)
  exact fun a ha => hrest seen' a hlater.1 (hlater.2 a ha)

end Later

namespace Pool

variable {ι : Type u} {Λ : Type v} {σ : Type w} {α : Type u} [DecidableEq ι]

/-- Program `i` has performed the action before, in the state that the run had reached. -/
def Saw (pool : Pool ι Λ σ α) (first : List ι) (i : ι) (label : Λ) (s : σ) : Prop :=
  ∃ earlier later effect next, first = earlier ++ i :: later ∧
    (pool.run earlier).procs i = .act label effect next ∧ s = (pool.run earlier).shared

variable {pool : Pool ι Λ σ α} {post : ι → History Λ σ → α → Prop}
  {allow : ι → History Λ σ → Λ → (σ → σ) → Prop} {first : List ι} {i : ι} {label : Λ} {s : σ}

theorem Saw.append (h : pool.Saw first i label s) (later : List ι) :
    pool.Saw (first ++ later) i label s := by
  obtain ⟨earlier, between, effect, next, rfl, hproc, hs⟩ := h
  exact ⟨earlier, between ++ later, effect, next, by simp, hproc, hs⟩

/-- The histories of a run are made of its steps. -/
theorem run_chronicle (h : pool.Obeys (fun i => chronicle (allow i)) post fun _ => [])
    (schedule : List ι) :
    ∃ seen, (pool.run schedule).Obeys (fun i => chronicle (allow i)) post seen ∧
      ∀ i, ∀ entry ∈ seen i, pool.Saw schedule i entry.1 entry.2 := by
  induction schedule using List.reverseRecOn with
  | nil => exact ⟨fun _ => [], h, fun _ => List.forall_mem_nil _⟩
  | append_singleton schedule j ih =>
      obtain ⟨seen, hobeys, hseen⟩ := ih
      have hold : ∀ i, ∀ entry ∈ seen i, pool.Saw (schedule ++ [j]) i entry.1 entry.2 :=
        fun i entry hentry => (hseen i entry hentry).append [j]
      have hstep := step_obeys hobeys j
      rw [run_append, run_cons, run_nil]
      refine ⟨_, hstep, ?_⟩
      cases hproc : (pool.run schedule).procs j with
      | done result =>
          rw [track_done hproc]
          exact hold
      | act label effect next =>
          rw [track_act hproc]
          intro i entry hentry
          by_cases hi : i = j
          · subst hi
            rw [Function.update_self] at hentry
            rcases List.mem_cons.mp hentry with rfl | hentry
            · exact ⟨schedule, [], effect, next, rfl, hproc, rfl⟩
            · exact hold i entry hentry
          · rw [Function.update_of_ne hi] at hentry
            exact hold i entry hentry

/-- Every step of a run is allowed by what its program has seen in the run. -/
theorem act_justified (h : pool.Obeys (fun i => chronicle (allow i)) post fun _ => [])
    {effect : σ → σ} {next : σ → Program Λ σ α}
    (hproc : (pool.run first).procs i = .act label effect next) :
    ∃ seen : History Λ σ, allow i seen label effect ∧
      ∀ entry ∈ seen, pool.Saw first i entry.1 entry.2 := by
  obtain ⟨seen, hobeys, hseen⟩ := run_chronicle h first
  have hallowed := hobeys i
  rw [hproc] at hallowed
  exact ⟨seen i, hallowed.1, hseen i⟩

end Pool

end Atomic
