import Saasmint.Library.Program
import Mathlib.Data.List.Forall2

/-!
# What the answer of a program depends on

Two runs are compared from the point of view of one program in them.  A reader learns from
the states their program finds: `learn k s` is what is known after `s`, and `same k s t` says
that nothing in `s` and `t` that somebody may see who knows `k` tells them apart.

`Alike` relates two programs that go on alike from states that are the same to whoever runs
them; nothing is said of states that differ.  In a `Pool` the states a program finds are the
work of all the others, and `run_alike` is what remains of them: if the states found in two
runs are the same to the reader one after the other, both runs give the same answer.
-/

namespace Atomic

universe u v w x

/-- Who learns what from the states of a run, and what tells no two states apart. -/
structure Reader (κ : Type x) (σ : Type w) where
  learn : κ → σ → κ
  same : κ → σ → σ → Prop

namespace Reader

variable {κ : Type x} {σ : Type w}

/-- One after the other, the states are the same to a reader who learns from all of them. -/
def SameAll (reader : Reader κ σ) : κ → List σ → List σ → Prop
  | _, [], [] => True
  | k, s :: ss, t :: ts => reader.same (reader.learn k s) s t ∧
      reader.SameAll (reader.learn k s) ss ts
  | _, _, _ => False

end Reader

namespace Program

variable {κ : Type x} {Λ : Type v} {σ : Type w} {α β γ δ : Type u}

/-- The programs end in results that are related, after actions in states that are the same. -/
def Alike (reader : Reader κ σ) (R : κ → α → β → Prop) (k : κ) :
    Program Λ σ α → Program Λ σ β → Prop
  | done a, done b => R k a b
  | act _ _ next, act _ _ next' => ∀ s t, reader.same (reader.learn k s) s t →
      (next s).Alike reader R (reader.learn k s) (next' t)
  | _, _ => False

variable {reader : Reader κ σ} {R : κ → α → β → Prop} {S : κ → γ → δ → Prop} {k : κ}

@[simp] theorem alike_done {a : α} {b : β} :
    (done a : Program Λ σ α).Alike reader R k (done b) ↔ R k a b := Iff.rfl

theorem Alike.bind {p : Program Λ σ α} {q : Program Λ σ β} {f : α → Program Λ σ γ}
    {g : β → Program Λ σ δ} (h : p.Alike reader R k q)
    (hrest : ∀ k a b, R k a b → (f a).Alike reader S k (g b)) :
    (p >>= f).Alike reader S k (q >>= g) := by
  induction p generalizing q k with
  | done a =>
      cases q with
      | done b => exact hrest k a b h
      | act _ _ _ => exact h.elim
  | act label effect next ih =>
      cases q with
      | done b => exact h.elim
      | act label' effect' next' => exact fun s t hsame => ih s (h s t hsame)

/-- What the reader does not forget still holds at the end. -/
theorem Alike.keep {P : κ → Prop} (hP : ∀ k s, P k → P (reader.learn k s)) {p : Program Λ σ α}
    {q : Program Λ σ β} (h : p.Alike reader R k q) (hk : P k) :
    p.Alike reader (fun k a b => P k ∧ R k a b) k q := by
  induction p generalizing q k with
  | done a =>
      cases q with
      | done b => exact ⟨hk, h⟩
      | act _ _ _ => exact h.elim
  | act label effect next ih =>
      cases q with
      | done b => exact h.elim
      | act label' effect' next' => exact fun s t hsame => ih s (h s t hsame) (hP k s hk)

theorem Alike.mono {R' : κ → α → β → Prop} (himp : ∀ k a b, R k a b → R' k a b)
    {p : Program Λ σ α} {q : Program Λ σ β} (h : p.Alike reader R k q) :
    p.Alike reader R' k q := by
  induction p generalizing q k with
  | done a =>
      cases q with
      | done b => exact himp k a b h
      | act _ _ _ => exact h.elim
  | act label effect next ih =>
      cases q with
      | done b => exact h.elim
      | act label' effect' next' => exact fun s t hsame => ih s (h s t hsame)

/-- The program after its next actions, which find the given states. -/
def feed : Program Λ σ α → List σ → Program Λ σ α
  | act _ _ next, s :: ss => (next s).feed ss
  | p, _ => p

@[simp] theorem feed_nil (p : Program Λ σ α) : p.feed [] = p := by
  cases p <;> rfl

theorem Alike.feed {p : Program Λ σ α} {q : Program Λ σ β} {ss ts : List σ}
    (h : p.Alike reader R k q) (hsame : reader.SameAll k ss ts) :
    ∃ k, (p.feed ss).Alike reader R k (q.feed ts) := by
  induction ss generalizing p q k ts with
  | nil =>
      cases ts with
      | nil => exact ⟨k, by rwa [feed_nil, feed_nil]⟩
      | cons t ts => exact hsame.elim
  | cons s ss ih =>
      cases ts with
      | nil => exact hsame.elim
      | cons t ts =>
          cases p with
          | done a =>
              cases q with
              | done b => exact ⟨k, h⟩
              | act _ _ _ => exact h.elim
          | act label effect next =>
              cases q with
              | done b => exact h.elim
              | act label' effect' next' =>
                  obtain ⟨k, halike⟩ := ih (h s t hsame.1) hsame.2
                  exact ⟨k, halike⟩

end Program

namespace Pool

variable {ι ι' : Type u} {Λ : Type v} {σ : Type w} {α : Type u} [DecidableEq ι] [DecidableEq ι']

/-- The states in which program `i` performs its actions. -/
def found (pool : Pool ι Λ σ α) (i : ι) : List ι → List σ
  | [] => []
  | j :: schedule =>
      if j = i ∧ (pool.procs i).finished = false then
        pool.shared :: (pool.step j).found i schedule
      else (pool.step j).found i schedule

/-- A run leaves of a program what it does in the states it finds. -/
theorem procs_run (pool : Pool ι Λ σ α) (i : ι) (schedule : List ι) :
    (pool.run schedule).procs i = (pool.procs i).feed (pool.found i schedule) := by
  induction schedule generalizing pool with
  | nil => rw [run_nil, found, Program.feed_nil]
  | cons j schedule ih =>
      rw [run_cons, ih]
      cases hproc : pool.procs j with
      | done result =>
          rw [step_done hproc, found, step_done hproc]
          by_cases hj : j = i
          · subst hj
            rw [if_neg (by simp [hproc, Program.finished])]
          · rw [if_neg (by simp [hj])]
      | act label effect next =>
          by_cases hj : j = i
          · subst hj
            have hopen : (pool.procs j).finished = false := by rw [hproc]; rfl
            have hown : (pool.step j).procs j = next pool.shared := by
              rw [step_act hproc]
              exact Function.update_self _ _ _
            rw [found, if_pos ⟨rfl, hopen⟩, hproc, Program.feed, hown]
          · have hkept : (pool.step j).procs i = pool.procs i := by
              rw [step_act hproc]
              exact Function.update_of_ne (Ne.symm hj) _ _
            rw [found, if_neg (by simp [hj]), hkept]

variable {κ : Type x} {reader : Reader κ σ} {k : κ}

/-- Where the states found in two runs are the same to the reader, the answers are. -/
theorem run_alike {pool : Pool ι Λ σ α} {pool' : Pool ι' Λ σ α} {i : ι} {i' : ι'}
    {schedule : List ι} {schedule' : List ι'}
    (h : (pool.procs i).Alike reader (fun _ => Eq) k (pool'.procs i'))
    (hsame : reader.SameAll k (pool.found i schedule) (pool'.found i' schedule')) (answer : α) :
    (pool.run schedule).procs i = .done answer ↔
      (pool'.run schedule').procs i' = .done answer := by
  obtain ⟨k, halike⟩ := h.feed hsame
  rw [procs_run, procs_run]
  cases hp : (pool.procs i).feed (pool.found i schedule) with
  | done a =>
      cases hq : (pool'.procs i').feed (pool'.found i' schedule') with
      | done b =>
          rw [hp, hq] at halike
          rw [halike]
      | act _ _ _ =>
          rw [hp, hq] at halike
          exact halike.elim
  | act _ _ _ =>
      cases hq : (pool'.procs i').feed (pool'.found i' schedule') with
      | done b =>
          rw [hp, hq] at halike
          exact halike.elim
      | act _ _ _ =>
          constructor
          · intro h
            cases h
          · intro h
            cases h

end Pool

/-! ## Programs that can fail -/

namespace Fallible

variable {κ : Type x} {ε α β γ δ : Type u} {Λ : Type v} {σ : Type w}
  {reader : Reader κ σ} {R : κ → α → β → Prop} {S : κ → γ → δ → Prop} {k : κ}

/-- Equal errors, or related results. -/
def Results (R : κ → α → β → Prop) (k : κ) : Except ε α → Except ε β → Prop
  | .ok a, .ok b => R k a b
  | .error e, .error e' => e = e'
  | _, _ => False

def Alike (reader : Reader κ σ) (R : κ → α → β → Prop) (k : κ) (p : Fallible ε Λ σ α)
    (q : Fallible ε Λ σ β) : Prop :=
  Program.Alike reader (Results R) k (ExceptT.run p) (ExceptT.run q)

theorem alike_pure {a : α} {b : β} (h : R k a b) :
    (pure a : Fallible ε Λ σ α).Alike reader R k (pure b) := h

theorem alike_throw (e : ε) :
    (throw e : Fallible ε Λ σ α).Alike reader R k (throw e : Fallible ε Λ σ β) := rfl

theorem alike_observe {label label' : Λ} {f : σ → α} {g : σ → β}
    (h : ∀ s t, reader.same (reader.learn k s) s t → R (reader.learn k s) (f s) (g t)) :
    (observe label f : Fallible ε Λ σ α).Alike reader R k (observe label' g) := h

theorem Alike.keep {P : κ → Prop} (hP : ∀ k s, P k → P (reader.learn k s))
    {p : Fallible ε Λ σ α} {q : Fallible ε Λ σ β} (h : p.Alike reader R k q) (hk : P k) :
    p.Alike reader (fun k a b => P k ∧ R k a b) k q := by
  refine Program.Alike.mono (fun k result result' hresults => ?_) (Program.Alike.keep hP h hk)
  obtain ⟨hk, hresults⟩ := hresults
  cases result with
  | ok a =>
      cases result' with
      | ok b => exact ⟨hk, hresults⟩
      | error e => exact hresults.elim
  | error e =>
      cases result' with
      | ok b => exact hresults.elim
      | error e' => exact hresults

theorem Alike.bind {p : Fallible ε Λ σ α} {q : Fallible ε Λ σ β} {f : α → Fallible ε Λ σ γ}
    {g : β → Fallible ε Λ σ δ} (h : p.Alike reader R k q)
    (hrest : ∀ k a b, R k a b → (f a).Alike reader S k (g b)) :
    (p >>= f).Alike reader S k (q >>= g) := by
  refine Program.Alike.bind h fun k result result' hresults => ?_
  cases result with
  | ok a =>
      cases result' with
      | ok b => exact hrest k a b hresults
      | error e => exact hresults.elim
  | error e =>
      cases result' with
      | ok b => exact hresults.elim
      | error e' => exact hresults

theorem Alike.map {p : Fallible ε Λ σ α} {q : Fallible ε Λ σ β} {f : α → γ} {g : β → δ}
    (h : p.Alike reader R k q) (hmap : ∀ k a b, R k a b → S k (f a) (g b)) :
    (f <$> p).Alike reader S k (g <$> q) := by
  rw [map_eq_pure_bind, map_eq_pure_bind]
  exact h.bind fun k a b hab => alike_pure (hmap k a b hab)

end Fallible

end Atomic
