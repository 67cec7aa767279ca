import Saasmint.Library.Rely

/-!
# Monitors

A `Monitor` watches one program's own actions.  Its memory follows what the
program has seen (`track`), and `allow` says which action may come next, given
that memory.  `Obeys` is a property of the program's text alone: whatever states
its actions find, no action is one the monitor forbids.

`Obeys.meets` turns such a property into a contract: it is enough that what the
memory stands for (`know`) survives the steps of others, and that an allowed
action keeps the invariant and the guarantee.  `Pool.step_obeys` follows the
memories of all programs of a pool.
-/

namespace Atomic

universe u v w x

structure Monitor (μ : Type x) (Λ : Type v) (σ : Type w) where
  track : μ → Λ → σ → μ
  allow : μ → Λ → (σ → σ) → Prop

/-- The monitor of a program that is seen under other labels. -/
def Monitor.comap {μ : Type x} {Λ Λ' : Type v} {σ : Type w} (f : Λ → Λ')
    (monitor : Monitor μ Λ' σ) : Monitor μ Λ σ where
  track mem label s := monitor.track mem (f label) s
  allow mem label effect := monitor.allow mem (f label) effect

namespace Program

variable {μ : Type x} {Λ : Type v} {σ : Type w} {α β : Type u} {monitor : Monitor μ Λ σ}

/-- From memory `mem` on, every action of the program is allowed, and it ends
with a memory and a result that satisfy `post`. -/
def Obeys (monitor : Monitor μ Λ σ) (post : μ → α → Prop) : Program Λ σ α → μ → Prop
  | done result, mem => post mem result
  | act label effect next, mem => monitor.allow mem label effect ∧
      ∀ s, (next s).Obeys monitor post (monitor.track mem label s)

theorem obeys_bind {post : μ → β → Prop} {p : Program Λ σ α} {rest : α → Program Λ σ β}
    {mem : μ} : (p >>= rest).Obeys monitor post mem ↔
      p.Obeys monitor (fun m a => (rest a).Obeys monitor post m) mem := by
  induction p generalizing mem with
  | done result => rfl
  | act label effect next ih =>
      rw [act_bind]
      simp only [Obeys, ih]

theorem Obeys.mono {post post' : μ → α → Prop} {p : Program Λ σ α} {mem : μ}
    (h : p.Obeys monitor post mem) (himp : ∀ m a, post m a → post' m a) :
    p.Obeys monitor post' mem := by
  induction p generalizing mem with
  | done result => exact himp mem result h
  | act label effect next ih => exact ⟨h.1, fun s => ih s (h.2 s)⟩

/-- Whatever memory it begins with, a program obeys a monitor that allows no less. -/
theorem Obeys.transfer {ν : Type x} {monitor' : Monitor ν Λ σ} {post : μ → α → Prop}
    (hallow : ∀ mem mem' label effect, monitor.allow mem label effect →
      monitor'.allow mem' label effect) {p : Program Λ σ α} {mem : μ}
    (h : p.Obeys monitor post mem) (mem' : ν) : p.Obeys monitor' (fun _ _ => True) mem' := by
  induction p generalizing mem mem' with
  | done result => trivial
  | act label effect next ih => exact ⟨hallow mem mem' label effect h.1, fun s => ih s (h.2 s) _⟩

theorem obeys_relabel {Λ' : Type v} {monitor : Monitor μ Λ' σ} {f : Λ → Λ'} {post : μ → α → Prop}
    {p : Program Λ σ α} {mem : μ} :
    (p.relabel f).Obeys monitor post mem ↔ p.Obeys (monitor.comap f) post mem := by
  induction p generalizing mem with
  | done result => rfl
  | act label effect next ih => exact and_congr_right fun _ => forall_congr' fun s => ih s

/-- A program that obeys a monitor meets every contract its allowed actions
keep. -/
theorem Obeys.meets {inv : σ → Prop} {contract : Contract Λ σ} {know : μ → σ → Prop}
    (hstable : ∀ mem s t, contract.rely s t → inv t → know mem s → know mem t)
    (hstep : ∀ mem label effect t, inv t → know mem t → monitor.allow mem label effect →
      inv (effect t) ∧ contract.guarantee t (effect t) ∧
        know (monitor.track mem label t) (effect t))
    {post : μ → α → Prop} {p : Program Λ σ α} {mem : μ} {s : σ}
    (h : p.Obeys monitor post mem) (hknow : know mem s) :
    p.Meets inv contract (fun t a => ∃ m, know m t ∧ post m a) s := by
  induction p generalizing mem s with
  | done result => exact ⟨mem, hknow, h⟩
  | act label effect next ih =>
      intro t hrely ht _
      have hknowt := hstable mem s t hrely ht hknow
      obtain ⟨hinv, hguarantee, hknow'⟩ := hstep mem label effect t ht hknowt h.1
      exact ⟨hinv, hguarantee, ih t (h.2 t) hknow'⟩

/-- Run alone, a program that obeys a monitor keeps what the memory stands for. -/
theorem Obeys.run {know : μ → σ → Prop}
    (hstep : ∀ mem label effect t, know mem t → monitor.allow mem label effect →
      know (monitor.track mem label t) (effect t))
    {post : μ → α → Prop} {p : Program Λ σ α} {mem : μ} {s : σ}
    (h : p.Obeys monitor post mem) (hknow : know mem s) :
    ∃ m, know m (p.run s).2 ∧ post m (p.run s).1 := by
  induction p generalizing mem s with
  | done result => exact ⟨mem, hknow, h⟩
  | act label effect next ih =>
      have hknow' := hstep mem label effect s hknow h.1
      exact ih s (h.2 s) hknow'

/-- What the memory stands for is kept up to any action of a run alone. -/
theorem Obeys.after {know : μ → σ → Prop}
    (hstep : ∀ mem label effect t, know mem t → monitor.allow mem label effect →
      know (monitor.track mem label t) (effect t))
    {post : μ → α → Prop} {p : Program Λ σ α} {mem : μ} {s : σ}
    (h : p.Obeys monitor post mem) (hknow : know mem s) (n : Nat) :
    ∃ m, know m (p.after n s) := by
  induction n generalizing p mem s with
  | zero =>
      unfold Program.after
      exact ⟨mem, hknow⟩
  | succ n ih =>
      cases p with
      | done result => exact ⟨mem, hknow⟩
      | act label effect next => exact ih (h.2 s) (hstep mem label effect s hknow h.1)

end Program

namespace Fallible

variable {μ : Type x} {ε α β : Type u} {Λ : Type v} {σ : Type w} {monitor : Monitor μ Λ σ}

/-- `Program.Obeys` for a program that may fail; `post` is over its outcome. -/
def Obeys (monitor : Monitor μ Λ σ) (post : μ → Except ε α → Prop) (p : Fallible ε Λ σ α)
    (mem : μ) : Prop :=
  Program.Obeys monitor post (ExceptT.run p) mem

/-- The postcondition of a first part, for `Obeys`. -/
def Heed (monitor : Monitor μ Λ σ) (post : μ → Except ε β → Prop)
    (rest : α → Fallible ε Λ σ β) (mem : μ) : Except ε α → Prop
  | .ok a => (rest a).Obeys monitor post mem
  | .error e => post mem (.error e)

@[simp] theorem heed_ok {post : μ → Except ε β → Prop} {rest : α → Fallible ε Λ σ β}
    {mem : μ} {a : α} : Heed monitor post rest mem (.ok a) ↔
      (rest a).Obeys monitor post mem := Iff.rfl

@[simp] theorem heed_error {post : μ → Except ε β → Prop} {rest : α → Fallible ε Λ σ β}
    {mem : μ} {e : ε} : Heed monitor post rest mem (.error e : Except ε α) ↔
      post mem (.error e) := Iff.rfl

@[simp] theorem obeys_pure {post : μ → Except ε α → Prop} {a : α} {mem : μ} :
    (pure a : Fallible ε Λ σ α).Obeys monitor post mem ↔ post mem (.ok a) := Iff.rfl

@[simp] theorem obeys_throw {post : μ → Except ε α → Prop} {e : ε} {mem : μ} :
    (throw e : Fallible ε Λ σ α).Obeys monitor post mem ↔ post mem (.error e) := Iff.rfl

@[simp] theorem obeys_ofExcept {post : μ → Except ε α → Prop} {result : Except ε α}
    {mem : μ} : (ofExcept result : Fallible ε Λ σ α).Obeys monitor post mem ↔
      post mem result := Iff.rfl

@[simp] theorem obeys_atomic {post : μ → Except ε α → Prop} {label : Λ}
    {f : σ → Except ε α × σ} {mem : μ} :
    (atomic label f).Obeys monitor post mem ↔ monitor.allow mem label (fun s => (f s).2) ∧
      ∀ s, post (monitor.track mem label s) (f s).1 := Iff.rfl

@[simp] theorem obeys_observe {post : μ → Except ε α → Prop} {label : Λ} {f : σ → α}
    {mem : μ} : (observe label f : Fallible ε Λ σ α).Obeys monitor post mem ↔
      monitor.allow mem label id ∧ ∀ s, post (monitor.track mem label s) (.ok (f s)) := Iff.rfl

@[simp] theorem obeys_bind {post : μ → Except ε β → Prop} {p : Fallible ε Λ σ α}
    {rest : α → Fallible ε Λ σ β} {mem : μ} :
    (p >>= rest).Obeys monitor post mem ↔ p.Obeys monitor (Heed monitor post rest) mem := by
  unfold Obeys
  rw [ExceptT.run_bind, Program.obeys_bind]
  have hpost : (fun m a => Program.Obeys monitor post
      (match a with
        | .ok a => ExceptT.run (rest a)
        | .error e => pure (.error e)) m) = Heed monitor post rest := by
    funext m a
    cases a <;> rfl
  exact Iff.of_eq (congrArg (fun q => Program.Obeys monitor q (ExceptT.run p) mem) hpost)

theorem obeys_tryCatch {post : μ → Except ε α → Prop} {p : Fallible ε Λ σ α}
    {handle : ε → Fallible ε Λ σ α} {mem : μ} :
    (tryCatch p handle).Obeys monitor post mem ↔ p.Obeys monitor (fun m result => match result with
      | .ok a => post m (.ok a)
      | .error e => (handle e).Obeys monitor post m) mem := by
  show Program.Obeys monitor post (ExceptT.run p >>= _) mem ↔ _
  rw [Program.obeys_bind]
  refine Iff.of_eq (congrArg (fun q => Program.Obeys monitor q (ExceptT.run p) mem) ?_)
  funext m a
  cases a <;> rfl

theorem Obeys.mono {post post' : μ → Except ε α → Prop} {p : Fallible ε Λ σ α} {mem : μ}
    (h : p.Obeys monitor post mem) (himp : ∀ m a, post m a → post' m a) :
    p.Obeys monitor post' mem :=
  Program.Obeys.mono h himp

theorem obeys_relabel {Λ' : Type v} {monitor : Monitor μ Λ' σ} {f : Λ → Λ'}
    {post : μ → Except ε α → Prop} {p : Fallible ε Λ σ α} {mem : μ} :
    (relabel f p).Obeys monitor post mem ↔ p.Obeys (monitor.comap f) post mem :=
  Program.obeys_relabel

/-! ### Programs that obey, and what their success says -/

/-- `Obeys`, with a postcondition for success alone. -/
def Heeds (monitor : Monitor μ Λ σ) (post : μ → α → Prop) (p : Fallible ε Λ σ α) (mem : μ) :
    Prop :=
  p.Obeys monitor (fun m result => ∀ a, result = .ok a → post m a) mem

section Heeds

variable {mem : μ} {post : μ → α → Prop}

theorem heeds_bind {post : μ → β → Prop} {p : Fallible ε Λ σ α} {rest : α → Fallible ε Λ σ β} :
    (p >>= rest).Heeds monitor post mem ↔
      p.Heeds monitor (fun m a => (rest a).Heeds monitor post m) mem := by
  unfold Heeds
  rw [obeys_bind]
  refine Iff.of_eq (congrArg (fun q => Obeys monitor q p mem) ?_)
  funext m result
  cases result with
  | ok a => simp
  | error e => simp

theorem heeds_pure {a : α} :
    (pure a : Fallible ε Λ σ α).Heeds monitor post mem ↔ post mem a := by
  simp [Heeds]

theorem heeds_throw (e : ε) : (throw e : Fallible ε Λ σ α).Heeds monitor post mem := by
  simp [Heeds]

theorem heeds_atomic {label : Λ} {f : σ → Except ε α × σ}
    (hallow : monitor.allow mem label fun s => (f s).2)
    (h : ∀ s a, (f s).1 = .ok a → post (monitor.track mem label s) a) :
    (atomic label f).Heeds monitor post mem :=
  ⟨hallow, h⟩

theorem heeds_observe {label : Λ} {f : σ → α} (hallow : monitor.allow mem label id)
    (h : ∀ s, post (monitor.track mem label s) (f s)) :
    (observe label f : Fallible ε Λ σ α).Heeds monitor post mem := by
  refine ⟨hallow, fun s a ha => ?_⟩
  rw [← Except.ok.inj ha]
  exact h s

/-- One action, whose failure is handled. -/
theorem heeds_tryAtomic {label : Λ} {f : σ → Except ε α × σ} {handle : ε → Fallible ε Λ σ α}
    (hallow : monitor.allow mem label fun s => (f s).2)
    (hok : ∀ s a, (f s).1 = .ok a → post (monitor.track mem label s) a)
    (herror : ∀ s e, (f s).1 = .error e →
      (handle e).Heeds monitor post (monitor.track mem label s)) :
    (tryCatch (atomic label f) handle).Heeds monitor post mem := by
  unfold Heeds
  rw [obeys_tryCatch, obeys_atomic]
  refine ⟨hallow, fun s => ?_⟩
  rcases hf : (f s).1 with e | a
  · exact herror s e hf
  · intro a' ha'
    rw [← Except.ok.inj ha']
    exact hok s a hf

theorem heeds_tryCatch {p : Fallible ε Λ σ α} {handle : ε → Fallible ε Λ σ α}
    (hp : p.Heeds monitor post mem) (hhandle : ∀ m e, (handle e).Heeds monitor post m) :
    (tryCatch p handle).Heeds monitor post mem := by
  unfold Heeds
  rw [obeys_tryCatch]
  refine Obeys.mono hp fun m result hpost => ?_
  cases result with
  | ok a => exact hpost
  | error e => exact hhandle m e

theorem Heeds.mono {post' : μ → α → Prop} {p : Fallible ε Λ σ α}
    (h : p.Heeds monitor post mem) (himp : ∀ m a, post m a → post' m a) :
    p.Heeds monitor post' mem :=
  Obeys.mono h fun m _ hpost a ha => himp m a (hpost a ha)

theorem heeds_relabel {Λ' : Type v} {monitor : Monitor μ Λ' σ} {f : Λ → Λ'}
    {p : Fallible ε Λ σ α} :
    (relabel f p).Heeds monitor post mem ↔ p.Heeds (monitor.comap f) post mem :=
  obeys_relabel

end Heeds

end Fallible

/-! ## Monitors in a pool -/

namespace Pool

variable {ι : Type u} {μ : Type x} {Λ : Type v} {σ : Type w} {α : Type u} [DecidableEq ι]

/-- The memories after program `i` has performed its next action. -/
def track (pool : Pool ι Λ σ α) (monitor : ι → Monitor μ Λ σ) (mem : ι → μ) (i : ι) : ι → μ :=
  match pool.procs i with
  | .done _ => mem
  | .act label _ _ => Function.update mem i ((monitor i).track (mem i) label pool.shared)

/-- Every program of the pool obeys its monitor, from its memory on. -/
def Obeys (monitor : ι → Monitor μ Λ σ) (post : ι → μ → α → Prop) (pool : Pool ι Λ σ α)
    (mem : ι → μ) : Prop :=
  ∀ i, (pool.procs i).Obeys (monitor i) (post i) (mem i)

theorem track_done {pool : Pool ι Λ σ α} {monitor : ι → Monitor μ Λ σ} {mem : ι → μ} {i : ι}
    {result : α} (h : pool.procs i = .done result) : pool.track monitor mem i = mem := by
  simp [track, h]

theorem track_act {pool : Pool ι Λ σ α} {monitor : ι → Monitor μ Λ σ} {mem : ι → μ} {i : ι}
    {label : Λ} {effect : σ → σ} {next : σ → Program Λ σ α}
    (h : pool.procs i = .act label effect next) : pool.track monitor mem i =
      Function.update mem i ((monitor i).track (mem i) label pool.shared) := by
  simp [track, h]

theorem step_obeys {monitor : ι → Monitor μ Λ σ} {post : ι → μ → α → Prop}
    {pool : Pool ι Λ σ α} {mem : ι → μ} (h : pool.Obeys monitor post mem) (i : ι) :
    (pool.step i).Obeys monitor post (pool.track monitor mem i) := by
  cases hproc : pool.procs i with
  | done result =>
      rw [step_done hproc, track_done hproc]
      exact h
  | act label effect next =>
      have hmine := h i
      rw [hproc] at hmine
      rw [step_act hproc, track_act hproc]
      intro j
      by_cases hj : j = i
      · subst hj
        simpa using hmine.2 pool.shared
      · simpa [Function.update_of_ne hj] using h j

/-- `cond` holds of the next action of program `i` and the state it finds. -/
def Finds (cond : ι → Λ → σ → Prop) (pool : Pool ι Λ σ α) (i : ι) : Prop :=
  match pool.procs i with
  | .done _ => True
  | .act label _ _ => cond i label pool.shared

instance {cond : ι → Λ → σ → Prop} [∀ i label s, Decidable (cond i label s)]
    (pool : Pool ι Λ σ α) (i : ι) : Decidable (pool.Finds cond i) := by
  unfold Finds
  split <;> infer_instance

omit [DecidableEq ι] in
theorem finds_act {cond : ι → Λ → σ → Prop} {pool : Pool ι Λ σ α} {i : ι} {label : Λ}
    {effect : σ → σ} {next : σ → Program Λ σ α} (h : pool.procs i = .act label effect next) :
    pool.Finds cond i ↔ cond i label pool.shared := by
  simp [Finds, h]

/-- Every schedule finds what is always so. -/
theorem finds_of_always {cond : ι → Λ → σ → Prop} (h : ∀ i label s, cond i label s)
    (pool : Pool ι Λ σ α) (schedule : List ι) : Runs.Steps step (Finds cond) pool schedule := by
  intro first i rest _
  unfold Finds
  split
  · trivial
  · exact h i _ _

/-- What every allowed action keeps, among those that find what `cond` says, is kept by
every such run of programs that obey their monitors. -/
theorem run_obeys {monitor : ι → Monitor μ Λ σ} {post : ι → μ → α → Prop}
    {inv : σ → (ι → μ) → Prop} {cond : ι → Λ → σ → Prop}
    (hstep : ∀ s mem i label effect, inv s mem → (monitor i).allow (mem i) label effect →
      cond i label s →
      inv (effect s) (Function.update mem i ((monitor i).track (mem i) label s)))
    {pool : Pool ι Λ σ α} {mem : ι → μ} (h : pool.Obeys monitor post mem)
    (hinv : inv pool.shared mem) {schedule : List ι}
    (hcond : Runs.Steps step (Finds cond) pool schedule) :
    ∃ mem', (pool.run schedule).Obeys monitor post mem' ∧
      inv (pool.run schedule).shared mem' := by
  induction schedule generalizing pool mem with
  | nil => exact ⟨mem, h, hinv⟩
  | cons i schedule ih =>
      obtain ⟨hhere, hrest⟩ := Runs.steps_cons.mp hcond
      have hobeys := step_obeys h i
      cases hproc : pool.procs i with
      | done result =>
          rw [step_done hproc, track_done hproc] at hobeys
          rw [step_done hproc] at hrest
          rw [run_cons, step_done hproc]
          exact ih hobeys hinv hrest
      | act label effect next =>
          refine ih hobeys ?_ hrest
          have hallowed := h i
          rw [hproc] at hallowed
          rw [track_act hproc, step_act hproc]
          exact hstep _ _ i label effect hinv hallowed.1 ((finds_act hproc).mp hhere)

theorem Obeys.run {monitor : ι → Monitor μ Λ σ} {post : ι → μ → α → Prop} {pool : Pool ι Λ σ α}
    {mem : ι → μ} (h : pool.Obeys monitor post mem) (schedule : List ι) :
    ∃ mem', (pool.run schedule).Obeys monitor post mem' := by
  induction schedule generalizing pool mem with
  | nil => exact ⟨mem, h⟩
  | cons i schedule ih => exact ih (step_obeys h i)

/-- If what program `i` remembers at the end is only remembered after certain actions,
the run has one of them. -/
theorem exists_act_of_run {monitor : ι → Monitor μ Λ σ} {post : ι → μ → α → Prop}
    {pool : Pool ι Λ σ α} {mem : ι → μ} (h : pool.Obeys monitor post mem) {i : ι}
    {known : μ → Prop} {telling : Λ → Prop} (hstart : ¬ known (mem i))
    (htrack : ∀ m label s, ¬ known m → ¬ telling label → ¬ known ((monitor i).track m label s))
    {schedule : List ι}
    (hend : ∀ mem', (pool.run schedule).Obeys monitor post mem' → known (mem' i)) :
    ∃ first rest label effect next, schedule = first ++ i :: rest ∧
      (pool.run first).procs i = .act label effect next ∧ telling label := by
  by_contra hnever
  have hother : Runs.Steps step (Finds fun j label _ => j = i → ¬ telling label) pool schedule := by
    intro first j rest hsplit
    unfold Finds
    split
    · trivial
    next label effect next hproc =>
        intro hj htelling
        subst hj
        exact hnever ⟨first, rest, label, effect, next, hsplit, hproc, htelling⟩
  have hstep : ∀ (s : σ) (mem : ι → μ) j label (effect : σ → σ), ¬ known (mem i) →
      (monitor j).allow (mem j) label effect → (j = i → ¬ telling label) →
      ¬ known (Function.update mem j ((monitor j).track (mem j) label s) i) := by
    intro s mem j label effect hunknown _ hlabel
    by_cases hj : i = j
    · subst hj
      rw [Function.update_self]
      exact htrack (mem i) label s hunknown (hlabel rfl)
    · rwa [Function.update_of_ne hj]
  obtain ⟨mem', hobeys, hunknown⟩ := run_obeys hstep h hstart hother
  exact hunknown (hend mem' hobeys)

/-- What comes to hold in a run comes to hold by one action of it. -/
theorem exists_act_of_gained {P : σ → Prop} {pool : Pool ι Λ σ α} {schedule : List ι}
    (hstart : ¬ P pool.shared) (hend : P (pool.run schedule).shared) :
    ∃ first i rest label effect next, schedule = first ++ i :: rest ∧
      (pool.run first).procs i = .act label effect next ∧ ¬ P (pool.run first).shared ∧
      P (effect (pool.run first).shared) := by
  have hgained : ¬ Runs.Steps step (fun (pool : Pool ι Λ σ α) i =>
      ¬ P pool.shared → ¬ P (pool.step i).shared) pool schedule := by
    intro hnever
    have halways := Runs.always_of_steps (P := fun pool : Pool ι Λ σ α => ¬ P pool.shared)
      (fun pool i hnot hkeeps => hkeeps hnot) hstart hnever
    exact halways.final hend
  obtain ⟨first, i, rest, hsplit, -, hfails⟩ := Runs.exists_first_failure hgained
  obtain ⟨hnot, hnotnot⟩ := Classical.not_imp.mp hfails
  have hgains : P ((pool.run first).step i).shared := not_not.mp hnotnot
  cases hproc : (pool.run first).procs i with
  | done result =>
      rw [step_done hproc] at hgains
      exact absurd hgains hnot
  | act label effect next =>
      rw [step_act hproc] at hgains
      exact ⟨first, i, rest, label, effect, next, hsplit, hproc, hnot, hgains⟩

omit [DecidableEq ι] in
/-- A program that has finished did so with a memory in its postcondition. -/
theorem Obeys.of_done {monitor : ι → Monitor μ Λ σ} {post : ι → μ → α → Prop}
    {pool : Pool ι Λ σ α} {mem : ι → μ} (h : pool.Obeys monitor post mem) {i : ι} {result : α}
    (hdone : pool.procs i = .done result) : post i (mem i) result := by
  have hobeys := h i
  rwa [hdone] at hobeys

end Pool

end Atomic
