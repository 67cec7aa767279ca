import Saasmint.Library.Program
import Saasmint.Library.Runs

/-!
# Rely–guarantee reasoning for pools of programs

A program in a pool is verified alone, against a `Contract`: between its own
actions the shared state may move along `rely`, and each of its own actions must
move it along `guarantee`.  A contract may also `assume` something of the state
in which an action is taken, which is then up to the schedule.
`Meets inv contract post p s` says that `p`, with the shared state last seen at
`s`, keeps the invariant and its guarantee at every action and ends in a state
and with a result that satisfy `post`.

`Checks rely check post p s` is about one program and its labels: from `s` on, each action
finds a state that `check` allows it, whatever the others have done in between.

`Pool.run_meets` puts programs together: if whatever one program guarantees the
others may rely on, then every schedule that respects the assumptions keeps the
invariant and every program's contract.  `Pool.run_related` follows one relation
along a whole run.
-/

namespace Atomic

universe u v w

/-- What one program may rely on and must guarantee, and what it assumes of the
state in which it performs an action. -/
structure Contract (Λ : Type v) (σ : Type w) where
  assume : Λ → σ → Prop
  rely : σ → σ → Prop
  guarantee : σ → σ → Prop
  rely_refl : ∀ s, rely s s
  rely_trans : ∀ {r s t}, rely r s → rely s t → rely r t
  guarantee_refl : ∀ s, guarantee s s

/-- A postcondition that the steps of others cannot invalidate. -/
def Stable {Λ : Type v} {σ : Type w} {α : Type u} (inv : σ → Prop) (contract : Contract Λ σ)
    (post : σ → α → Prop) : Prop :=
  ∀ s t a, contract.rely s t → inv t → post s a → post t a

namespace Program

variable {Λ : Type v} {σ : Type w} {α β : Type u}
variable {inv : σ → Prop} {contract : Contract Λ σ}

/-- `p`, with the shared state last seen at `s`, meets its contract and ends in
`post`. -/
def Meets (inv : σ → Prop) (contract : Contract Λ σ) (post : σ → α → Prop) :
    Program Λ σ α → σ → Prop
  | done result, s => post s result
  | act label effect next, s => ∀ t, contract.rely s t → inv t → contract.assume label t →
      inv (effect t) ∧ contract.guarantee t (effect t) ∧
        (next t).Meets inv contract post (effect t)

@[simp] theorem meets_done {post : σ → α → Prop} {result : α} {s : σ} :
    (done result : Program Λ σ α).Meets inv contract post s ↔ post s result := Iff.rfl

theorem meets_bind {post : σ → β → Prop} {p : Program Λ σ α} {rest : α → Program Λ σ β}
    {s : σ} : (p >>= rest).Meets inv contract post s ↔
      p.Meets inv contract (fun t a => (rest a).Meets inv contract post t) s := by
  induction p generalizing s with
  | done result => rfl
  | act label effect next ih =>
      rw [act_bind]
      simp only [Meets, ih]

theorem Meets.mono {post post' : σ → α → Prop} {p : Program Λ σ α} {s : σ}
    (h : p.Meets inv contract post s) (hs : inv s)
    (himp : ∀ t a, inv t → post t a → post' t a) : p.Meets inv contract post' s := by
  induction p generalizing s with
  | done result => exact himp s result hs h
  | act label effect next ih =>
      intro t hrely ht hassume
      obtain ⟨hinv, hguarantee, hnext⟩ := h t hrely ht hassume
      exact ⟨hinv, hguarantee, ih t hnext hinv⟩

/-- The frame rule: what neither the others nor the program's own actions can
undo holds at the end. -/
theorem Meets.frame {post : σ → α → Prop} {kept : σ → Prop} {p : Program Λ σ α} {s : σ}
    (h : p.Meets inv contract post s) (hs : kept s)
    (hrely : ∀ s t, contract.rely s t → kept s → kept t)
    (hguarantee : ∀ s t, contract.guarantee s t → kept s → kept t) :
    p.Meets inv contract (fun t a => post t a ∧ kept t) s := by
  induction p generalizing s with
  | done result => exact ⟨h, hs⟩
  | act label effect next ih =>
      intro t ht hinv hassume
      obtain ⟨hinv', hmoved, hnext⟩ := h t ht hinv hassume
      exact ⟨hinv', hmoved, ih t hnext (hguarantee _ _ hmoved (hrely _ _ ht hs))⟩

/-- A contract met from `s` is met from wherever others have moved the state. -/
theorem Meets.of_rely {post : σ → α → Prop} (hpost : Stable inv contract post)
    {p : Program Λ σ α} {s t : σ} (h : p.Meets inv contract post s)
    (hrely : contract.rely s t) (ht : inv t) : p.Meets inv contract post t := by
  cases p with
  | done result => exact hpost s t result hrely ht h
  | act label effect next =>
      exact fun r hr hinv => h r (contract.rely_trans hrely hr) hinv

end Program

namespace Fallible

variable {ε α β : Type u} {Λ : Type v} {σ : Type w}
variable {inv : σ → Prop} {contract : Contract Λ σ}

/-- `Program.Meets` for a program that may fail; `post` is over its outcome. -/
def Meets (inv : σ → Prop) (contract : Contract Λ σ) (post : σ → Except ε α → Prop)
    (p : Fallible ε Λ σ α) (s : σ) : Prop :=
  Program.Meets inv contract post (ExceptT.run p) s

/-- The postcondition of a first part: what follows it meets `post`, and a
failure of it is a failure of the whole. -/
def Chain (inv : σ → Prop) (contract : Contract Λ σ) (post : σ → Except ε β → Prop)
    (rest : α → Fallible ε Λ σ β) (s : σ) : Except ε α → Prop
  | .ok a => (rest a).Meets inv contract post s
  | .error e => post s (.error e)

@[simp] theorem chain_ok {post : σ → Except ε β → Prop} {rest : α → Fallible ε Λ σ β}
    {s : σ} {a : α} : Chain inv contract post rest s (.ok a) ↔
      (rest a).Meets inv contract post s := Iff.rfl

@[simp] theorem chain_error {post : σ → Except ε β → Prop} {rest : α → Fallible ε Λ σ β}
    {s : σ} {e : ε} : Chain inv contract post rest s (.error e : Except ε α) ↔
      post s (.error e) := Iff.rfl

@[simp] theorem meets_pure {post : σ → Except ε α → Prop} {a : α} {s : σ} :
    (pure a : Fallible ε Λ σ α).Meets inv contract post s ↔ post s (.ok a) := Iff.rfl

@[simp] theorem meets_throw {post : σ → Except ε α → Prop} {e : ε} {s : σ} :
    (throw e : Fallible ε Λ σ α).Meets inv contract post s ↔ post s (.error e) := Iff.rfl

@[simp] theorem meets_ofExcept {post : σ → Except ε α → Prop} {result : Except ε α} {s : σ} :
    (ofExcept result : Fallible ε Λ σ α).Meets inv contract post s ↔ post s result := Iff.rfl

@[simp] theorem meets_atomic {post : σ → Except ε α → Prop} {label : Λ}
    {f : σ → Except ε α × σ} {s : σ} :
    (atomic label f).Meets inv contract post s ↔
      ∀ t, contract.rely s t → inv t → contract.assume label t →
        inv (f t).2 ∧ contract.guarantee t (f t).2 ∧ post (f t).2 (f t).1 := Iff.rfl

@[simp] theorem meets_observe {post : σ → Except ε α → Prop} {label : Λ} {f : σ → α} {s : σ} :
    (observe label f : Fallible ε Λ σ α).Meets inv contract post s ↔
      ∀ t, contract.rely s t → inv t → contract.assume label t → post t (.ok (f t)) := by
  refine forall_congr' fun t => imp_congr_right fun _ => ⟨fun h ht ha => (h ht ha).2.2, ?_⟩
  exact fun h ht ha => ⟨ht, contract.guarantee_refl t, h ht ha⟩

@[simp] theorem meets_bind {post : σ → Except ε β → Prop} {p : Fallible ε Λ σ α}
    {rest : α → Fallible ε Λ σ β} {s : σ} :
    (p >>= rest).Meets inv contract post s ↔
      p.Meets inv contract (Chain inv contract post rest) s := by
  unfold Meets
  rw [ExceptT.run_bind, Program.meets_bind]
  have hpost : (fun t a => Program.Meets inv contract post
      (match a with
        | .ok a => ExceptT.run (rest a)
        | .error e => pure (.error e)) t) = Chain inv contract post rest := by
    funext t a
    cases a <;> rfl
  exact Iff.of_eq (congrArg (fun q => Program.Meets inv contract q (ExceptT.run p) s) hpost)

theorem meets_tryCatch {post : σ → Except ε α → Prop} {p : Fallible ε Λ σ α}
    {handle : ε → Fallible ε Λ σ α} {s : σ} :
    (tryCatch p handle).Meets inv contract post s ↔
      p.Meets inv contract (fun t a => match a with
        | .ok a => post t (.ok a)
        | .error e => (handle e).Meets inv contract post t) s := by
  show Program.Meets inv contract post (ExceptT.run p >>= _) s ↔ _
  rw [Program.meets_bind]
  refine Iff.of_eq (congrArg (fun q => Program.Meets inv contract q (ExceptT.run p) s) ?_)
  funext t a
  cases a <;> rfl

theorem Meets.mono {post post' : σ → Except ε α → Prop} {p : Fallible ε Λ σ α} {s : σ}
    (h : p.Meets inv contract post s) (hs : inv s)
    (himp : ∀ t a, inv t → post t a → post' t a) : p.Meets inv contract post' s :=
  Program.Meets.mono h hs himp

theorem Meets.frame {post : σ → Except ε α → Prop} {kept : σ → Prop} {p : Fallible ε Λ σ α}
    {s : σ} (h : p.Meets inv contract post s) (hs : kept s)
    (hrely : ∀ s t, contract.rely s t → kept s → kept t)
    (hguarantee : ∀ s t, contract.guarantee s t → kept s → kept t) :
    p.Meets inv contract (fun t a => post t a ∧ kept t) s :=
  Program.Meets.frame h hs hrely hguarantee

end Fallible

/-! ## Assertions on actions -/

namespace Program

variable {Λ : Type v} {σ : Type w} {α β : Type u} {rely : σ → σ → Prop} {check : Λ → σ → Prop}

/-- Each action of the program finds a state that satisfies `check`, with the first action
taken in `s` and the others after the state has moved along `rely`. -/
def Checks (rely : σ → σ → Prop) (check : Λ → σ → Prop) (post : α → σ → Prop) :
    Program Λ σ α → σ → Prop
  | done result, s => post result s
  | act label effect next, s => check label s ∧
      ∀ t, rely (effect s) t → (next s).Checks rely check post t

theorem checks_bind {post : β → σ → Prop} {p : Program Λ σ α} {rest : α → Program Λ σ β} {s : σ} :
    (p >>= rest).Checks rely check post s ↔
      p.Checks rely check (fun a t => (rest a).Checks rely check post t) s := by
  induction p generalizing s with
  | done result => rfl
  | act label effect next ih =>
      rw [act_bind]
      simp only [Checks, ih]

theorem Checks.mono {post post' : α → σ → Prop} {p : Program Λ σ α} {s : σ}
    (h : p.Checks rely check post s) (himp : ∀ a t, post a t → post' a t) :
    p.Checks rely check post' s := by
  induction p generalizing s with
  | done result => exact himp result s h
  | act label effect next ih => exact ⟨h.1, fun t ht => ih s (h.2 t ht)⟩

end Program

namespace Fallible

variable {ε α β : Type u} {Λ : Type v} {σ : Type w} {rely : σ → σ → Prop} {check : Λ → σ → Prop}

/-- `Program.Checks` for a program that may fail; `post` is over its outcome. -/
def Checks (rely : σ → σ → Prop) (check : Λ → σ → Prop) (post : Except ε α → σ → Prop)
    (p : Fallible ε Λ σ α) (s : σ) : Prop :=
  Program.Checks rely check post (ExceptT.run p) s

/-- The postcondition of a first part, for `Checks`. -/
def FollowChecks (rely : σ → σ → Prop) (check : Λ → σ → Prop) (post : Except ε β → σ → Prop)
    (rest : α → Fallible ε Λ σ β) : Except ε α → σ → Prop
  | .ok a, s => (rest a).Checks rely check post s
  | .error e, s => post (.error e) s

variable {post : Except ε α → σ → Prop} {s : σ}

@[simp] theorem followChecks_ok {post : Except ε β → σ → Prop} {rest : α → Fallible ε Λ σ β} {a : α} :
    FollowChecks rely check post rest (.ok a) s ↔ (rest a).Checks rely check post s := Iff.rfl

@[simp] theorem followChecks_error {post : Except ε β → σ → Prop} {rest : α → Fallible ε Λ σ β}
    {e : ε} : FollowChecks rely check post rest (.error e : Except ε α) s ↔ post (.error e) s := Iff.rfl

@[simp] theorem checks_pure {a : α} :
    (pure a : Fallible ε Λ σ α).Checks rely check post s ↔ post (.ok a) s := Iff.rfl

@[simp] theorem checks_throw {e : ε} :
    (throw e : Fallible ε Λ σ α).Checks rely check post s ↔ post (.error e) s := Iff.rfl

@[simp] theorem checks_ofExcept {result : Except ε α} :
    (ofExcept result : Fallible ε Λ σ α).Checks rely check post s ↔ post result s := Iff.rfl

theorem checks_bind {post : Except ε β → σ → Prop} {p : Fallible ε Λ σ α}
    {rest : α → Fallible ε Λ σ β} : (p >>= rest).Checks rely check post s ↔
      p.Checks rely check (FollowChecks rely check post rest) s := by
  unfold Checks
  rw [ExceptT.run_bind, Program.checks_bind]
  have hpost : (fun a t => Program.Checks rely check post
      (match a with
        | .ok a => ExceptT.run (rest a)
        | .error e => pure (.error e)) t) = FollowChecks rely check post rest := by
    funext a t
    cases a <;> rfl
  exact Iff.of_eq (congrArg (fun q => Program.Checks rely check q (ExceptT.run p) s) hpost)

theorem Checks.mono {post' : Except ε α → σ → Prop} {p : Fallible ε Λ σ α}
    (h : p.Checks rely check post s) (himp : ∀ a t, post a t → post' a t) :
    p.Checks rely check post' s :=
  Program.Checks.mono h himp

end Fallible

/-! ## Pools -/

namespace Pool

variable {ι : Type u} {Λ : Type v} {σ : Type w} {α : Type u} [DecidableEq ι]

/-- Whatever one program guarantees, the others rely on. -/
def Compatible (contract : ι → Contract Λ σ) : Prop :=
  ∀ i j, i ≠ j → ∀ s t, (contract j).guarantee s t → (contract i).rely s t

variable {inv : σ → Prop} {contract : ι → Contract Λ σ} {post : ι → σ → α → Prop}

/-- Every program of the pool meets its contract, from the state the pool is in. -/
def Meets (inv : σ → Prop) (contract : ι → Contract Λ σ) (post : ι → σ → α → Prop)
    (pool : Pool ι Λ σ α) : Prop :=
  inv pool.shared ∧ ∀ i, (pool.procs i).Meets inv (contract i) (post i) pool.shared

/-- The next action of program `i` is taken in a state its contract assumes. -/
def Respects (contract : ι → Contract Λ σ) (pool : Pool ι Λ σ α) (i : ι) : Prop :=
  match pool.procs i with
  | .done _ => True
  | .act label _ _ => (contract i).assume label pool.shared

/-- Contracts that assume nothing are respected by every schedule. -/
theorem respects_of_assume (h : ∀ i label s, (contract i).assume label s)
    (pool : Pool ι Λ σ α) (schedule : List ι) :
    Runs.Steps step (Respects contract) pool schedule := by
  intro first i rest _
  unfold Respects
  split
  · trivial
  · exact h i _ _

theorem step_meets (hcompatible : Compatible contract)
    (hpost : ∀ i, Stable inv (contract i) (post i)) {pool : Pool ι Λ σ α}
    (h : pool.Meets inv contract post) {i : ι} (hrespects : pool.Respects contract i) :
    (pool.step i).Meets inv contract post ∧
      (contract i).guarantee pool.shared (pool.step i).shared := by
  cases hproc : pool.procs i with
  | done result =>
      rw [step_done hproc]
      exact ⟨h, (contract i).guarantee_refl _⟩
  | act label effect next =>
      have hmine := h.2 i
      rw [hproc] at hmine
      have hassume : (contract i).assume label pool.shared := by
        simpa [Respects, hproc] using hrespects
      obtain ⟨hinv, hguarantee, hnext⟩ := hmine _ ((contract i).rely_refl _) h.1 hassume
      rw [step_act hproc]
      refine ⟨⟨hinv, fun j => ?_⟩, hguarantee⟩
      by_cases hj : j = i
      · subst hj
        simpa using hnext
      · simp only [Function.update_of_ne hj]
        exact (h.2 j).of_rely (hpost j) (hcompatible j i hj _ _ hguarantee) hinv

/-- Every schedule that respects the assumptions keeps the invariant and every
program's contract. -/
theorem run_meets (hcompatible : Compatible contract)
    (hpost : ∀ i, Stable inv (contract i) (post i)) {pool : Pool ι Λ σ α}
    (h : pool.Meets inv contract post) {schedule : List ι}
    (hrespects : Runs.Steps step (Respects contract) pool schedule) :
    (pool.run schedule).Meets inv contract post := by
  induction schedule generalizing pool with
  | nil => exact h
  | cons i rest ih =>
      obtain ⟨hhere, hrest⟩ := Runs.steps_cons.mp hrespects
      exact ih (step_meets hcompatible hpost h hhere).1 hrest

omit [DecidableEq ι] in
/-- A program that has finished did so in its postcondition. -/
theorem Meets.of_done {pool : Pool ι Λ σ α} (h : pool.Meets inv contract post) {i : ι} {result : α}
    (hdone : pool.procs i = .done result) : post i pool.shared result := by
  have hmeets := h.2 i
  rwa [hdone] at hmeets

/-- A preorder that every guarantee implies relates a run's start to its end. -/
theorem run_related {related : σ → σ → Prop} (hrefl : ∀ s, related s s)
    (htrans : ∀ {r s t}, related r s → related s t → related r t)
    (hguarantee : ∀ i s t, (contract i).guarantee s t → related s t)
    (hcompatible : Compatible contract) (hpost : ∀ i, Stable inv (contract i) (post i))
    {pool : Pool ι Λ σ α} (h : pool.Meets inv contract post) {schedule : List ι}
    (hrespects : Runs.Steps step (Respects contract) pool schedule) :
    related pool.shared (pool.run schedule).shared := by
  induction schedule generalizing pool with
  | nil => exact hrefl _
  | cons i rest ih =>
      obtain ⟨hhere, hrest⟩ := Runs.steps_cons.mp hrespects
      obtain ⟨hstep, hmoved⟩ := step_meets hcompatible hpost h hhere
      exact htrans (hguarantee i _ _ hmoved) (ih hstep hrest)

end Pool

end Atomic
