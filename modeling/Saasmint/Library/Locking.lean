import Saasmint.Library.Rely

/-!
# Transactions with locks

A transaction is a program whose actions are statements.  A statement names the
locks it needs in the state it finds, and waits while another program holds one
of them; what it takes is held until a statement ends the transaction.  Reads
take no locks and see what has been committed.  A `Server` executes any number
of such programs over one shared state, one statement at a time, and any of them
may be aborted between two statements: its locks are released and the statements
it has not reached are never made.

The writes of a transaction reach the shared state with the statement that ends
it, so that nobody sees them before and an aborted transaction leaves none.

What a lock protects is a parameter: `same k s t` says that what lock `k` stands
for is in `t` as it was in `s`.  `Program.Locks` is the verification of one
program alone, which may rely on what its locks protect, and must not touch what
it has not locked.  `Server.run_locks` puts programs together.  `WritesLast` says
of a program that it writes with the action that ends it, if at all.
-/

namespace Atomic

universe u v w

/-! ## Writing last -/

section WritesLast

variable {Λ : Type v} {σ : Type w} {α β : Type u}

/-- Every action leaves the state as it is, except one that ends the program with
a `good` result. -/
def Program.WritesLast (good : α → Prop) : Program Λ σ α → Prop
  | .done _ => True
  | .act _ effect next => ∀ t, (effect t = t ∧ (next t).WritesLast good) ∨
      ∃ result, next t = .done result ∧ good result

/-- Every action leaves the state as it is. -/
def Program.Quiet (p : Program Λ σ α) : Prop := p.WritesLast fun _ => False

theorem Program.WritesLast.bind {good : β → Prop} {p : Program Λ σ α}
    {rest : α → Program Λ σ β} (hp : p.Quiet) (hrest : ∀ a, (rest a).WritesLast good) :
    (p >>= rest).WritesLast good := by
  induction p with
  | done result => exact hrest result
  | act label effect next ih =>
      intro t
      rcases hp t with ⟨hsame, hnext⟩ | ⟨_, _, hfalse⟩
      · exact Or.inl ⟨hsame, ih t hnext⟩
      · exact hfalse.elim

/-- A program that writes last, followed by a computation. -/
theorem Program.WritesLast.map {good : α → Prop} {good' : β → Prop} {p : Program Λ σ α}
    (hp : p.WritesLast good) (f : α → β) (hf : ∀ a, good a → good' (f a)) :
    (p >>= fun a => .done (f a)).WritesLast good' := by
  induction p with
  | done result => trivial
  | act label effect next ih =>
      intro t
      rcases hp t with ⟨hsame, hnext⟩ | ⟨result, hdone, hgood⟩
      · exact Or.inl ⟨hsame, ih t hnext⟩
      · have hended : (next t >>= fun a => .done (f a)) = Program.done (f result) := by
          rw [hdone, Program.done_bind]
        exact Or.inr ⟨f result, hended, hf result hgood⟩

/-- What only reads meets every contract, and ends where the others have moved the
state. -/
theorem Program.Quiet.meets {inv : σ → Prop} {contract : Contract Λ σ} {post : σ → α → Prop}
    {p : Program Λ σ α} (hp : p.Quiet) {s : σ} (hs : inv s)
    (hpost : ∀ t a, contract.rely s t → inv t → post t a) : p.Meets inv contract post s := by
  induction p generalizing s with
  | done result => exact hpost s result (contract.rely_refl s) hs
  | act label effect next ih =>
      intro t hrely ht _
      rcases hp t with ⟨hsame, hnext⟩ | ⟨_, _, hfalse⟩
      · rw [hsame]
        refine ⟨ht, contract.guarantee_refl t, ih t hnext ht fun r a hr => ?_⟩
        exact hpost r a (contract.rely_trans hrely hr)
      · exact hfalse.elim

namespace Fallible

variable {ε : Type u}

def WritesLast (good : Except ε α → Prop) (p : Fallible ε Λ σ α) : Prop :=
  Program.WritesLast good (ExceptT.run p)

def Quiet (p : Fallible ε Λ σ α) : Prop := Program.Quiet (ExceptT.run p)

theorem writesLast_bind {good : Except ε β → Prop} {p : Fallible ε Λ σ α}
    {rest : α → Fallible ε Λ σ β} (hp : p.Quiet) (hrest : ∀ a, (rest a).WritesLast good) :
    (p >>= rest).WritesLast good := by
  refine Program.WritesLast.bind hp fun a => ?_
  cases a with
  | ok a => exact hrest a
  | error e => trivial

theorem WritesLast.map {good : Except ε α → Prop} {good' : Except ε β → Prop}
    {p : Fallible ε Λ σ α} (hp : p.WritesLast good) (f : α → β)
    (hok : ∀ a, good (.ok a) → good' (.ok (f a)))
    (herror : ∀ e, good (.error e) → good' (.error e)) :
    (p >>= fun a => pure (f a)).WritesLast good' := by
  have h : (ExceptT.run p >>= fun a => pure (Except.map f a)).WritesLast good' := by
    refine Program.WritesLast.map hp (Except.map f) fun a ha => ?_
    cases a with
    | ok a => exact hok a ha
    | error e => exact herror e ha
  refine Eq.mp (congrArg (Program.WritesLast good') ?_) h
  refine congrArg (ExceptT.run p >>= ·) (funext fun a => ?_)
  cases a <;> rfl

theorem quiet_bind {p : Fallible ε Λ σ α} {rest : α → Fallible ε Λ σ β} (hp : p.Quiet)
    (hrest : ∀ a, (rest a).Quiet) : (p >>= rest).Quiet :=
  writesLast_bind hp hrest

theorem Quiet.meets {inv : σ → Prop} {contract : Contract Λ σ} {post : σ → Except ε α → Prop}
    {p : Fallible ε Λ σ α} (hp : p.Quiet) {s : σ} (hs : inv s)
    (hpost : ∀ t a, contract.rely s t → inv t → post t a) : p.Meets inv contract post s :=
  Program.Quiet.meets hp hs hpost

/-- Of a first part that only reads, only its result matters. -/
theorem Quiet.meets_bind {inv : σ → Prop} {contract : Contract Λ σ}
    {post : σ → Except ε β → Prop} {p : Fallible ε Λ σ α} {rest : α → Fallible ε Λ σ β}
    (hp : p.Quiet) {s : σ} (hs : inv s)
    (herror : ∀ t e, contract.rely s t → inv t → post t (.error e))
    (hok : ∀ t a, contract.rely s t → inv t → (rest a).Meets inv contract post t) :
    (p >>= rest).Meets inv contract post s := by
  refine Fallible.meets_bind.mpr (hp.meets hs fun t a hrely ht => ?_)
  cases a with
  | ok a => exact hok t a hrely ht
  | error e => exact herror t e hrely ht

theorem quiet_pure (a : α) : (pure a : Fallible ε Λ σ α).Quiet := trivial

theorem quiet_throw (e : ε) : (throw e : Fallible ε Λ σ α).Quiet := trivial

theorem quiet_observe (label : Λ) (f : σ → α) :
    (observe label f : Fallible ε Λ σ α).Quiet :=
  fun _ => Or.inl ⟨rfl, trivial⟩

theorem Quiet.writesLast {good : Except ε α → Prop} {p : Fallible ε Λ σ α} (hp : p.Quiet) :
    p.WritesLast good := by
  have hpure : ∀ a, (pure a : Fallible ε Λ σ α).WritesLast good := fun a => trivial
  have h := writesLast_bind hp hpure
  rwa [bind_pure] at h

/-- A last action that leaves the state as it is when it fails. -/
theorem writesLast_atomic {good : Except ε α → Prop} {label : Λ} {f : σ → Except ε α × σ}
    (h : ∀ s, (f s).2 = s ∨ good (f s).1) : (atomic label f).WritesLast good := by
  intro s
  rcases h s with hsame | hgood
  · exact Or.inl ⟨hsame, trivial⟩
  · exact Or.inr ⟨_, rfl, hgood⟩

end Fallible

end WritesLast

/-! ## Moving the state -/

section Moves

variable {Λ : Type v} {σ : Type w} {α β : Type u} {rel : σ → σ → Prop}

/-- Every action moves the state along `rel`. -/
def Program.Moves (rel : σ → σ → Prop) : Program Λ σ α → Prop
  | .done _ => True
  | .act _ effect next => ∀ t, rel t (effect t) ∧ (next t).Moves rel

theorem Program.Moves.bind {p : Program Λ σ α} {rest : α → Program Λ σ β} (hp : p.Moves rel)
    (hrest : ∀ a, (rest a).Moves rel) : (p >>= rest).Moves rel := by
  induction p with
  | done result => exact hrest result
  | act label effect next ih => exact fun t => ⟨(hp t).1, ih t (hp t).2⟩

theorem Program.Quiet.moves (hrefl : ∀ s, rel s s) {p : Program Λ σ α} (hp : p.Quiet) :
    p.Moves rel := by
  induction p with
  | done result => trivial
  | act label effect next ih =>
      intro t
      rcases hp t with ⟨hsame, hnext⟩ | ⟨_, _, hfalse⟩
      · rw [hsame]
        exact ⟨hrefl t, ih t hnext⟩
      · exact hfalse.elim

/-- Among others, a program moves the state along `rel` and keeps what `rel` keeps. -/
theorem Program.Moves.meets {inv : σ → Prop} {contract : Contract Λ σ} {post : σ → α → Prop}
    {p : Program Λ σ α} (hp : p.Moves rel) (hkeeps : ∀ s t, rel s t → inv s → inv t)
    (hguarantees : ∀ s t, rel s t → contract.guarantee s t) {s : σ}
    (hs : inv s) (hpost : ∀ t a, inv t → post t a) : p.Meets inv contract post s := by
  induction p generalizing s with
  | done result => exact hpost s result hs
  | act label effect next ih =>
      intro t _ ht _
      obtain ⟨hmove, hnext⟩ := hp t
      have hkept := hkeeps t _ hmove ht
      exact ⟨hkept, hguarantees t _ hmove, ih t hnext hkept⟩

theorem Program.Moves.relabel {Λ' : Type v} (f : Λ → Λ') {p : Program Λ σ α} (hp : p.Moves rel) :
    (p.relabel f).Moves rel := by
  induction p with
  | done result => trivial
  | act label effect next ih => exact fun t => ⟨(hp t).1, ih t (hp t).2⟩

namespace Fallible

variable {ε : Type u}

def Moves (rel : σ → σ → Prop) (p : Fallible ε Λ σ α) : Prop := Program.Moves rel (ExceptT.run p)

theorem moves_pure (a : α) : (pure a : Fallible ε Λ σ α).Moves rel := trivial

theorem moves_throw (e : ε) : (throw e : Fallible ε Λ σ α).Moves rel := trivial

theorem moves_ofExcept (result : Except ε α) : (ofExcept result : Fallible ε Λ σ α).Moves rel :=
  trivial

theorem moves_atomic {label : Λ} {f : σ → Except ε α × σ} (h : ∀ s, rel s (f s).2) :
    (atomic label f).Moves rel := fun s => ⟨h s, trivial⟩

theorem moves_bind {p : Fallible ε Λ σ α} {rest : α → Fallible ε Λ σ β} (hp : p.Moves rel)
    (hrest : ∀ a, (rest a).Moves rel) : (p >>= rest).Moves rel := by
  refine Program.Moves.bind hp fun a => ?_
  cases a with
  | ok a => exact hrest a
  | error e => trivial

theorem Quiet.moves (hrefl : ∀ s, rel s s) {p : Fallible ε Λ σ α} (hp : p.Quiet) : p.Moves rel :=
  Program.Quiet.moves hrefl hp

theorem Moves.meets {inv : σ → Prop} {contract : Contract Λ σ} {post : σ → Except ε α → Prop}
    {p : Fallible ε Λ σ α} (hp : p.Moves rel) (hkeeps : ∀ s t, rel s t → inv s → inv t)
    (hguarantees : ∀ s t, rel s t → contract.guarantee s t) {s : σ} (hs : inv s)
    (hpost : ∀ t a, inv t → post t a) : p.Meets inv contract post s :=
  Program.Moves.meets hp hkeeps hguarantees hs hpost

theorem Moves.relabel {Λ' : Type v} (f : Λ → Λ') {p : Fallible ε Λ σ α} (hp : p.Moves rel) :
    (p.relabel f).Moves rel :=
  Program.Moves.relabel f hp

end Fallible

end Moves

/-! ## Statements and their locks -/

/-- What a statement is, for whoever states properties of a run, the locks it
needs, and whether the transaction ends with it. -/
structure Statement (Λ : Type v) (K : Type v) (σ : Type w) where
  label : Λ
  wants : σ → List K
  ends : Bool

section Locks

variable {Λ K : Type v} {σ : Type w} {α β : Type u}

/-- The locks held after a statement that has taken `wants`. -/
def heldAfter (ends : Bool) (held : K → Prop) (wants : List K) : K → Prop :=
  if ends then fun _ => False else fun k => held k ∨ k ∈ wants

namespace Program

variable {inv : σ → Prop} {contract : Contract (Statement Λ K σ) σ} {same : K → σ → σ → Prop}

/-- `p`, holding the locks `held`, with the shared state last seen at `s`, meets
its contract, leaves what it has not locked as it is, and ends in `post`. -/
def Locks (inv : σ → Prop) (contract : Contract (Statement Λ K σ) σ)
    (same : K → σ → σ → Prop) (post : (K → Prop) → σ → α → Prop) :
    Program (Statement Λ K σ) σ α → (K → Prop) → σ → Prop
  | done result, held, s => post held s result
  | act statement effect next, held, s =>
      ∀ t, contract.rely s t → (∀ k, held k → same k s t) → inv t → contract.assume statement t →
        inv (effect t) ∧ contract.guarantee t (effect t) ∧
          (∀ k, ¬ held k → k ∉ statement.wants t → same k t (effect t)) ∧
          (next t).Locks inv contract same post
            (heldAfter statement.ends held (statement.wants t)) (effect t)

variable {post : (K → Prop) → σ → α → Prop}

@[simp] theorem locks_done {result : α} {held : K → Prop} {s : σ} :
    (done result : Program (Statement Λ K σ) σ α).Locks inv contract same post held s ↔
      post held s result := Iff.rfl

theorem locks_bind {post : (K → Prop) → σ → β → Prop} {p : Program (Statement Λ K σ) σ α}
    {rest : α → Program (Statement Λ K σ) σ β} {held : K → Prop} {s : σ} :
    (p >>= rest).Locks inv contract same post held s ↔
      p.Locks inv contract same
        (fun held t a => (rest a).Locks inv contract same post held t) held s := by
  induction p generalizing held s with
  | done result => rfl
  | act statement effect next ih =>
      rw [act_bind]
      simp only [Locks, ih]

theorem Locks.mono {post' : (K → Prop) → σ → α → Prop} {p : Program (Statement Λ K σ) σ α}
    {held : K → Prop} {s : σ} (h : p.Locks inv contract same post held s) (hs : inv s)
    (himp : ∀ held t a, inv t → post held t a → post' held t a) :
    p.Locks inv contract same post' held s := by
  induction p generalizing held s with
  | done result => exact himp held s result hs h
  | act statement effect next ih =>
      intro t hrely hheld ht hassume
      obtain ⟨hinv, hguarantee, hframe, hnext⟩ := h t hrely hheld ht hassume
      exact ⟨hinv, hguarantee, hframe, ih t hnext hinv⟩

/-- What is met from `s` is met from wherever others have moved the state, which
is as before where it is locked. -/
theorem Locks.of_rely (hsame : ∀ k r s t, same k r s → same k s t → same k r t)
    (hpost : ∀ held s t a, contract.rely s t → (∀ k, held k → same k s t) → inv t →
      post held s a → post held t a)
    {p : Program (Statement Λ K σ) σ α} {held : K → Prop} {s t : σ}
    (h : p.Locks inv contract same post held s) (hrely : contract.rely s t)
    (hheld : ∀ k, held k → same k s t) (ht : inv t) :
    p.Locks inv contract same post held t := by
  cases p with
  | done result => exact hpost held s t result hrely hheld ht h
  | act statement effect next =>
      intro r hr hheldr hinv
      have hlocked : ∀ k, held k → same k s r :=
        fun k hk => hsame k s t r (hheld k hk) (hheldr k hk)
      exact h r (contract.rely_trans hrely hr) hlocked hinv

end Program

/-- A program that relies on no lock. -/
theorem Program.Meets.locks {inv : σ → Prop} {contract : Contract (Statement Λ K σ) σ}
    {post : σ → α → Prop} {p : Program (Statement Λ K σ) σ α} {held : K → Prop} {s : σ}
    (h : p.Meets inv contract post s) :
    p.Locks inv contract (fun _ _ _ => True) (fun _ => post) held s := by
  induction p generalizing held s with
  | done result => exact h
  | act statement effect next ih =>
      intro t hrely _ ht hassume
      obtain ⟨hinv, hguarantee, hnext⟩ := h t hrely ht hassume
      exact ⟨hinv, hguarantee, fun _ _ _ => trivial, ih t hnext⟩

namespace Fallible

variable {ε : Type u} {inv : σ → Prop} {contract : Contract (Statement Λ K σ) σ}
variable {same : K → σ → σ → Prop}

/-- `Program.Locks` for a program that may fail; `post` is over its outcome. -/
def Locks (inv : σ → Prop) (contract : Contract (Statement Λ K σ) σ)
    (same : K → σ → σ → Prop) (post : (K → Prop) → σ → Except ε α → Prop)
    (p : Fallible ε (Statement Λ K σ) σ α) (held : K → Prop) (s : σ) : Prop :=
  Program.Locks inv contract same post (ExceptT.run p) held s

/-- The postcondition of a first part: what follows it meets `post`, and a
failure of it is a failure of the whole. -/
def LockChain (inv : σ → Prop) (contract : Contract (Statement Λ K σ) σ)
    (same : K → σ → σ → Prop) (post : (K → Prop) → σ → Except ε β → Prop)
    (rest : α → Fallible ε (Statement Λ K σ) σ β) (held : K → Prop) (s : σ) :
    Except ε α → Prop
  | .ok a => (rest a).Locks inv contract same post held s
  | .error e => post held s (.error e)

variable {post : (K → Prop) → σ → Except ε α → Prop} {held : K → Prop} {s : σ}

@[simp] theorem lockChain_ok {post : (K → Prop) → σ → Except ε β → Prop}
    {rest : α → Fallible ε (Statement Λ K σ) σ β} {a : α} :
    LockChain inv contract same post rest held s (.ok a) ↔
      (rest a).Locks inv contract same post held s := Iff.rfl

@[simp] theorem lockChain_error {post : (K → Prop) → σ → Except ε β → Prop}
    {rest : α → Fallible ε (Statement Λ K σ) σ β} {e : ε} :
    LockChain inv contract same post rest held s (.error e : Except ε α) ↔
      post held s (.error e) := Iff.rfl

@[simp] theorem locks_pure {a : α} :
    (pure a : Fallible ε (Statement Λ K σ) σ α).Locks inv contract same post held s ↔
      post held s (.ok a) := Iff.rfl

@[simp] theorem locks_throw {e : ε} :
    (throw e : Fallible ε (Statement Λ K σ) σ α).Locks inv contract same post held s ↔
      post held s (.error e) := Iff.rfl

theorem locks_atomic {statement : Statement Λ K σ} {f : σ → Except ε α × σ} :
    (atomic statement f).Locks inv contract same post held s ↔
      ∀ t, contract.rely s t → (∀ k, held k → same k s t) → inv t →
        contract.assume statement t →
        inv (f t).2 ∧ contract.guarantee t (f t).2 ∧
          (∀ k, ¬ held k → k ∉ statement.wants t → same k t (f t).2) ∧
          post (heldAfter statement.ends held (statement.wants t)) (f t).2 (f t).1 := Iff.rfl

/-- A statement that only reads and takes its locks. -/
theorem locks_observe (hsame : ∀ k s, same k s s) {statement : Statement Λ K σ} {f : σ → α} :
    (observe statement f : Fallible ε (Statement Λ K σ) σ α).Locks inv contract same post
        held s ↔
      ∀ t, contract.rely s t → (∀ k, held k → same k s t) → inv t →
        contract.assume statement t →
        post (heldAfter statement.ends held (statement.wants t)) t (.ok (f t)) := by
  constructor
  · intro h t hrely hheld ht hassume
    exact (h t hrely hheld ht hassume).2.2.2
  · intro h t hrely hheld ht hassume
    exact ⟨ht, contract.guarantee_refl t, fun k _ _ => hsame k t, h t hrely hheld ht hassume⟩

@[simp] theorem locks_bind {post : (K → Prop) → σ → Except ε β → Prop}
    {p : Fallible ε (Statement Λ K σ) σ α} {rest : α → Fallible ε (Statement Λ K σ) σ β} :
    (p >>= rest).Locks inv contract same post held s ↔
      p.Locks inv contract same (LockChain inv contract same post rest) held s := by
  unfold Locks
  rw [ExceptT.run_bind, Program.locks_bind]
  refine Iff.of_eq
    (congrArg (fun q => Program.Locks inv contract same q (ExceptT.run p) held s) ?_)
  funext held t a
  cases a <;> rfl

theorem Locks.mono {post' : (K → Prop) → σ → Except ε α → Prop}
    {p : Fallible ε (Statement Λ K σ) σ α} (h : p.Locks inv contract same post held s)
    (hs : inv s) (himp : ∀ held t a, inv t → post held t a → post' held t a) :
    p.Locks inv contract same post' held s :=
  Program.Locks.mono h hs himp

end Fallible

/-! ### Programs that lock nothing they need -/

/-- Along `rel` the invariant stays, what is guaranteed is done, and no lock's property is
touched. -/
structure Harmless (inv : σ → Prop) (contract : Contract (Statement Λ K σ) σ)
    (same : K → σ → σ → Prop) (rel : σ → σ → Prop) : Prop where
  keeps : ∀ s t, rel s t → inv s → inv t
  guarantees : ∀ s t, rel s t → inv s → contract.guarantee s t
  leaves : ∀ s t, rel s t → inv s → ∀ k, same k s t

section Harmless

variable {inv : σ → Prop} {contract : Contract (Statement Λ K σ) σ} {same : K → σ → σ → Prop}
variable {rel : σ → σ → Prop} {held : K → Prop} {s : σ}

theorem Program.Moves.locks {post : (K → Prop) → σ → α → Prop}
    (hrel : Harmless inv contract same rel) {p : Program (Statement Λ K σ) σ α}
    (hp : p.Moves rel) (hs : inv s) (hpost : ∀ held t a, inv t → post held t a) :
    p.Locks inv contract same post held s := by
  induction p generalizing held s with
  | done result => exact hpost held s result hs
  | act statement effect next ih =>
      intro t _ _ ht _
      obtain ⟨hmove, hnext⟩ := hp t
      have hinv := hrel.keeps t _ hmove ht
      exact ⟨hinv, hrel.guarantees t _ hmove ht, fun k _ _ => hrel.leaves t _ hmove ht k,
        ih t hnext hinv⟩

theorem Fallible.Moves.locks {ε : Type u} {post : (K → Prop) → σ → Except ε α → Prop}
    (hrel : Harmless inv contract same rel) {p : Fallible ε (Statement Λ K σ) σ α}
    (hp : p.Moves rel) (hs : inv s) (hpost : ∀ held t a, inv t → post held t a) :
    p.Locks inv contract same post held s :=
  Program.Moves.locks hrel hp hs hpost

/-- Of a harmless first part, only its result matters. -/
theorem Fallible.Moves.locks_bind {ε : Type u} {post : (K → Prop) → σ → Except ε β → Prop}
    (hrel : Harmless inv contract same rel) {p : Fallible ε (Statement Λ K σ) σ α}
    {rest : α → Fallible ε (Statement Λ K σ) σ β} (hp : p.Moves rel) (hs : inv s)
    (herror : ∀ held t e, inv t → post held t (.error e))
    (hok : ∀ held t a, inv t → (rest a).Locks inv contract same post held t) :
    (p >>= rest).Locks inv contract same post held s := by
  rw [Fallible.locks_bind]
  refine hp.locks hrel hs fun held t a ht => ?_
  cases a with
  | ok a => exact hok held t a ht
  | error e => exact herror held t e ht

end Harmless

end Locks

/-! ## Servers -/

/-- What happens next: a program makes its next statement, or it is aborted. -/
inductive Move (ι : Type u)
  | step (i : ι)
  | abort (i : ι)
deriving DecidableEq

/-- Programs in their transactions, over one shared state, and who holds which
lock. -/
structure Server (ι : Type u) (Λ K : Type v) (σ : Type w) (α : Type u) where
  shared : σ
  procs : ι → Program (Statement Λ K σ) σ α
  holder : K → Option ι

namespace Server

variable {ι : Type u} {Λ K : Type v} {σ : Type w} {α : Type u}

/-- Every program before its first statement. -/
def start (s : σ) (procs : ι → Program (Statement Λ K σ) σ α) : Server ι Λ K σ α where
  shared := s
  procs := procs
  holder := fun _ => none

variable [DecidableEq ι] [DecidableEq K]

/-- Another program holds one of the locks. -/
def Blocked (server : Server ι Λ K σ α) (i : ι) (wants : List K) : Prop :=
  ∃ k ∈ wants, ∃ j ∈ server.holder k, j ≠ i

instance (server : Server ι Λ K σ α) (i : ι) (wants : List K) :
    Decidable (server.Blocked i wants) :=
  inferInstanceAs (Decidable (∃ k ∈ wants, ∃ j ∈ server.holder k, j ≠ i))

def take (holder : K → Option ι) (i : ι) (wants : List K) : K → Option ι :=
  fun k => if k ∈ wants then some i else holder k

def release (holder : K → Option ι) (i : ι) : K → Option ι :=
  fun k => if holder k = some i then none else holder k

/-- A statement waits for its locks; a finished program does nothing.  An aborted
program ends with `aborted`. -/
def step (aborted : α) (server : Server ι Λ K σ α) : Move ι → Server ι Λ K σ α
  | .step i =>
      match server.procs i with
      | .done _ => server
      | .act statement effect next =>
          if server.Blocked i (statement.wants server.shared) then server
          else
            { shared := effect server.shared
              procs := Function.update server.procs i (next server.shared)
              holder := if statement.ends then release server.holder i
                else take server.holder i (statement.wants server.shared) }
  | .abort i =>
      match server.procs i with
      | .done _ => server
      | .act _ _ _ =>
          { server with
            procs := Function.update server.procs i (.done aborted)
            holder := release server.holder i }

/-- The server after the moves of a schedule, in its order. -/
abbrev run (aborted : α) (server : Server ι Λ K σ α) (schedule : List (Move ι)) :
    Server ι Λ K σ α :=
  Runs.run (step aborted) server schedule

variable {aborted : α} {server : Server ι Λ K σ α} {i : ι}

theorem step_done {result : α} (h : server.procs i = .done result) (move : Move ι)
    (hmove : move = .step i ∨ move = .abort i) : server.step aborted move = server := by
  rcases hmove with rfl | rfl <;> simp [step, h]

theorem step_blocked {statement : Statement Λ K σ} {effect : σ → σ}
    {next : σ → Program (Statement Λ K σ) σ α} (h : server.procs i = .act statement effect next)
    (hblocked : server.Blocked i (statement.wants server.shared)) :
    server.step aborted (.step i) = server := by
  simp [step, h, hblocked]

theorem step_act {statement : Statement Λ K σ} {effect : σ → σ}
    {next : σ → Program (Statement Λ K σ) σ α} (h : server.procs i = .act statement effect next)
    (hfree : ¬ server.Blocked i (statement.wants server.shared)) :
    server.step aborted (.step i) =
      { shared := effect server.shared
        procs := Function.update server.procs i (next server.shared)
        holder := if statement.ends then release server.holder i
          else take server.holder i (statement.wants server.shared) } := by
  simp [step, h, hfree]

theorem step_abort {statement : Statement Λ K σ} {effect : σ → σ}
    {next : σ → Program (Statement Λ K σ) σ α}
    (h : server.procs i = .act statement effect next) :
    server.step aborted (.abort i) =
      { server with
        procs := Function.update server.procs i (.done aborted)
        holder := release server.holder i } := by
  simp [step, h]

/-! ### Who holds what -/

omit [DecidableEq K] in
theorem release_self (holder : K → Option ι) (i : ι) (k : K) :
    release holder i k ≠ some i := by
  unfold release
  split
  next => simp
  next h => exact h

omit [DecidableEq K] in
theorem release_of_ne (holder : K → Option ι) {i j : ι} (hne : j ≠ i) (k : K) :
    release holder i k = some j ↔ holder k = some j := by
  unfold release
  split
  next h => simp [h, Ne.symm hne]
  next => rfl

omit [DecidableEq ι] in
theorem take_self {holder : K → Option ι} {wants : List K} {k : K} :
    take holder i wants k = some i ↔ holder k = some i ∨ k ∈ wants := by
  unfold take
  split
  next h => simp [h]
  next h => simp [h]

omit [DecidableEq ι] in
/-- Nobody loses a lock to a statement that did not have to wait. -/
theorem take_of_ne {wants : List K} (hfree : ¬ server.Blocked i wants) {j : ι} (hne : j ≠ i)
    (k : K) : take server.holder i wants k = some j ↔ server.holder k = some j := by
  unfold take
  split
  next hk =>
      constructor
      · intro h
        exact absurd (Option.some.inj h).symm hne
      · intro h
        exact absurd ⟨k, hk, j, h, hne⟩ hfree
  next => rfl

/-- What `j` holds after a statement of another program. -/
theorem held_of_ne {wants : List K} (hfree : ¬ server.Blocked i wants) (ends : Bool) {j : ι}
    (hne : j ≠ i) (k : K) :
    (if ends then release server.holder i else take server.holder i wants) k = some j ↔
      server.holder k = some j := by
  cases ends with
  | true => exact release_of_ne _ hne k
  | false => exact take_of_ne hfree hne k

/-- What a program holds after its own statement. -/
theorem held_self (holder : K → Option ι) (ends : Bool) (i : ι) (wants : List K) :
    (fun k => (if ends then release holder i else take holder i wants) k = some i) =
      heldAfter ends (fun k => holder k = some i) wants := by
  funext k
  cases ends with
  | true => exact propext (iff_of_false (release_self holder i k) id)
  | false => exact propext take_self

/-! ### Contracts -/

variable {inv : σ → Prop} {contract : ι → Contract (Statement Λ K σ) σ}
variable {same : K → σ → σ → Prop} {post : ι → σ → α → Prop}

/-- Every program of the server meets its contract with the locks it holds. -/
def Locks (inv : σ → Prop) (contract : ι → Contract (Statement Λ K σ) σ)
    (same : K → σ → σ → Prop) (post : ι → σ → α → Prop) (server : Server ι Λ K σ α) : Prop :=
  inv server.shared ∧ ∀ i, (server.procs i).Locks inv (contract i) same (fun _ => post i)
    (fun k => server.holder k = some i) server.shared

/-- A statement is made in a state its contract assumes. -/
def Respects (contract : ι → Contract (Statement Λ K σ) σ) (server : Server ι Λ K σ α) :
    Move ι → Prop
  | .step i =>
      match server.procs i with
      | .done _ => True
      | .act statement _ _ => ¬ server.Blocked i (statement.wants server.shared) →
          (contract i).assume statement server.shared
  | .abort _ => True

instance [∀ i statement s, Decidable ((contract i).assume statement s)]
    (server : Server ι Λ K σ α) (move : Move ι) : Decidable (server.Respects contract move) := by
  unfold Respects
  split
  · split <;> infer_instance
  · infer_instance

/-- What the rules below ask of the parameters: others may rely on what a program
guarantees, and outcomes are stable. -/
structure Sound (inv : σ → Prop) (contract : ι → Contract (Statement Λ K σ) σ)
    (same : K → σ → σ → Prop) (post : ι → σ → α → Prop) (aborted : α) : Prop where
  same_refl : ∀ k s, same k s s
  same_trans : ∀ k r s t, same k r s → same k s t → same k r t
  compatible : ∀ i j, i ≠ j → ∀ s t, (contract j).guarantee s t → (contract i).rely s t
  stable : ∀ i s t a, (contract i).rely s t → inv t → post i s a → post i t a
  aborted : ∀ i s, inv s → post i s aborted

omit [DecidableEq ι] [DecidableEq K] in
theorem locks_start {s : σ} {procs : ι → Program (Statement Λ K σ) σ α} (hs : inv s)
    (h : ∀ i, (procs i).Locks inv (contract i) same (fun _ => post i) (fun _ => False) s) :
    (start s procs : Server ι Λ K σ α).Locks inv contract same post := by
  refine ⟨hs, fun i => ?_⟩
  have hnone : (fun k => (start s procs : Server ι Λ K σ α).holder k = some i) =
      fun _ => False := by
    funext k
    exact propext (iff_of_false (by simp [start]) id)
  rw [hnone]
  exact h i

/-- A move keeps every contract, and what it does to the shared state is what the
program guarantees. -/
theorem step_locks (sound : Sound inv contract same post aborted)
    (h : server.Locks inv contract same post) {move : Move ι}
    (hrespects : server.Respects contract move) :
    (server.step aborted move).Locks inv contract same post ∧
      ((server.step aborted move).shared = server.shared ∨
        ∃ i, move = .step i ∧
          (contract i).guarantee server.shared (server.step aborted move).shared) := by
  cases move with
  | step i =>
      cases hproc : server.procs i with
      | done result =>
          rw [step_done hproc _ (Or.inl rfl)]
          exact ⟨h, Or.inl rfl⟩
      | act statement effect next =>
          by_cases hblocked : server.Blocked i (statement.wants server.shared)
          · rw [step_blocked hproc hblocked]
            exact ⟨h, Or.inl rfl⟩
          · have hmine := h.2 i
            rw [hproc] at hmine
            have hassume : (contract i).assume statement server.shared := by
              simp only [Respects, hproc] at hrespects
              exact hrespects hblocked
            obtain ⟨hinv, hguarantee, hframe, hnext⟩ := hmine server.shared
              ((contract i).rely_refl _) (fun k _ => sound.same_refl k _) h.1 hassume
            rw [step_act hproc hblocked]
            refine ⟨⟨hinv, fun j => ?_⟩, Or.inr ⟨i, rfl, hguarantee⟩⟩
            by_cases hj : j = i
            · subst hj
              simpa only [Function.update_self, held_self] using hnext
            · have hheld : (fun k => (if statement.ends then release server.holder i
                  else take server.holder i (statement.wants server.shared)) k = some j) =
                  fun k => server.holder k = some j := by
                funext k
                exact propext (held_of_ne hblocked statement.ends hj k)
              have hkept : ∀ k, server.holder k = some j →
                  same k server.shared (effect server.shared) := by
                intro k hk
                refine hframe k (fun hmine => hj ?_) fun hwants => hblocked ⟨k, hwants, j, hk, hj⟩
                exact Option.some.inj (hk.symm.trans hmine)
              simp only [Function.update_of_ne hj, hheld]
              exact (h.2 j).of_rely sound.same_trans (fun _ s t a hrely _ => sound.stable j s t a hrely)
                (sound.compatible j i hj _ _ hguarantee) hkept hinv
  | abort i =>
      cases hproc : server.procs i with
      | done result =>
          rw [step_done hproc _ (Or.inr rfl)]
          exact ⟨h, Or.inl rfl⟩
      | act statement effect next =>
          rw [step_abort hproc]
          refine ⟨⟨h.1, fun j => ?_⟩, Or.inl rfl⟩
          by_cases hj : j = i
          · subst hj
            simp only [Function.update_self]
            exact sound.aborted j _ h.1
          · have hheld : (fun k => release server.holder i k = some j) =
                fun k => server.holder k = some j := by
              funext k
              exact propext (release_of_ne _ hj k)
            simp only [Function.update_of_ne hj, hheld]
            exact h.2 j

/-- Every schedule that respects the assumptions keeps the invariant and every
program's contract, in every state it passes through. -/
theorem run_locks (sound : Sound inv contract same post aborted)
    (h : server.Locks inv contract same post) {schedule : List (Move ι)}
    (hrespects : Runs.Steps (step aborted) (Respects contract) server schedule) :
    Runs.Always (step aborted) (Locks inv contract same post) server schedule :=
  Runs.always_of_steps (fun _ _ hlocks hrespect => (step_locks sound hlocks hrespect).1) h hrespects

omit [DecidableEq ι] [DecidableEq K] in
/-- A program that has finished did so in its postcondition. -/
theorem Locks.of_done (h : server.Locks inv contract same post) {result : α}
    (hdone : server.procs i = .done result) : post i server.shared result := by
  have hlocks := h.2 i
  rwa [hdone] at hlocks

/-- `run_locks`, for programs that rely on no lock, with what each move does. -/
theorem run_meets {s : σ} {procs : ι → Program (Statement Λ K σ) σ α}
    (hcompatible : ∀ i j, i ≠ j → ∀ s t, (contract j).guarantee s t → (contract i).rely s t)
    (hs : inv s) (h : ∀ i, (procs i).Meets inv (contract i) (fun _ _ => True) s)
    {schedule : List (Move ι)}
    (hrespects : Runs.Steps (step aborted) (Respects contract) (start s procs) schedule) :
    Runs.Always (step aborted) (fun server => inv server.shared) (start s procs) schedule ∧
      Runs.Steps (step aborted) (fun server move =>
        (server.step aborted move).shared = server.shared ∨
          ∃ i, move = .step i ∧
            (contract i).guarantee server.shared (server.step aborted move).shared)
        (start s procs) schedule := by
  have sound : Sound inv contract (fun _ _ _ => True) (fun _ _ _ => True) aborted :=
    ⟨fun _ _ => trivial, fun _ _ _ _ _ _ => trivial, hcompatible, fun _ _ _ _ _ _ _ => trivial,
      fun _ _ _ => trivial⟩
  have hlocks := run_locks sound (locks_start hs fun i => (h i).locks) hrespects
  refine ⟨hlocks.mono fun _ h => h.1, fun first move rest hsplit => ?_⟩
  have hbefore := hlocks first (move :: rest) hsplit
  exact (step_locks sound hbefore (hrespects first move rest hsplit)).2

/-- Contracts that assume nothing are respected by every schedule. -/
theorem respects_of_assume (h : ∀ i statement s, (contract i).assume statement s)
    (server : Server ι Λ K σ α) (schedule : List (Move ι)) :
    Runs.Steps (step aborted) (Respects contract) server schedule := by
  intro first move rest _
  cases move with
  | abort i => trivial
  | step i =>
      unfold Respects
      dsimp only
      split
      · trivial
      · exact fun _ => h i _ _

/-! ### Writing last -/

/-- Every program has writes at most in its last action. -/
def WritesLast (good : α → Prop) (server : Server ι Λ K σ α) : Prop :=
  ∀ i, (server.procs i).WritesLast good

/-- A move leaves the shared state as it is, or ends its program well. -/
theorem step_writesLast {good : α → Prop} (h : server.WritesLast good) (move : Move ι) :
    (server.step aborted move).WritesLast good ∧
      ((server.step aborted move).shared = server.shared ∨
        ∃ i result, move = .step i ∧ (server.step aborted move).procs i = .done result ∧
          good result) := by
  cases move with
  | step i =>
      cases hproc : server.procs i with
      | done result =>
          rw [step_done hproc _ (Or.inl rfl)]
          exact ⟨h, Or.inl rfl⟩
      | act statement effect next =>
          by_cases hblocked : server.Blocked i (statement.wants server.shared)
          · rw [step_blocked hproc hblocked]
            exact ⟨h, Or.inl rfl⟩
          · have hmine := h i
            rw [hproc] at hmine
            rw [step_act hproc hblocked]
            rcases hmine server.shared with ⟨hsame, hnext⟩ | ⟨result, hdone, hgood⟩
            · refine ⟨fun j => ?_, Or.inl hsame⟩
              by_cases hj : j = i
              · subst hj
                simpa only [Function.update_self] using hnext
              · simpa only [Function.update_of_ne hj] using h j
            · refine ⟨fun j => ?_, Or.inr ⟨i, result, rfl, ?_, hgood⟩⟩
              · by_cases hj : j = i
                · subst hj
                  simp only [Function.update_self, hdone]
                  trivial
                · simpa only [Function.update_of_ne hj] using h j
              · simpa only [Function.update_self] using hdone
  | abort i =>
      cases hproc : server.procs i with
      | done result =>
          rw [step_done hproc _ (Or.inr rfl)]
          exact ⟨h, Or.inl rfl⟩
      | act statement effect next =>
          rw [step_abort hproc]
          refine ⟨fun j => ?_, Or.inl rfl⟩
          by_cases hj : j = i
          · subst hj
            simp only [Function.update_self]
            trivial
          · simpa only [Function.update_of_ne hj] using h j

/-- A program that has finished stays as it is. -/
theorem step_of_done {result : α} (h : server.procs i = .done result) (move : Move ι) :
    (server.step aborted move).procs i = .done result := by
  cases move with
  | step j =>
      cases hproc : server.procs j with
      | done other => rw [step_done hproc _ (Or.inl rfl), h]
      | act statement effect next =>
          have hne : i ≠ j := by
            rintro rfl
            rw [h] at hproc
            cases hproc
          by_cases hblocked : server.Blocked j (statement.wants server.shared)
          · rw [step_blocked hproc hblocked, h]
          · rw [step_act hproc hblocked]
            simpa only [Function.update_of_ne hne] using h
  | abort j =>
      cases hproc : server.procs j with
      | done other => rw [step_done hproc _ (Or.inr rfl), h]
      | act statement effect next =>
          have hne : i ≠ j := by
            rintro rfl
            rw [h] at hproc
            cases hproc
          rw [step_abort hproc]
          simpa only [Function.update_of_ne hne] using h

theorem run_of_done {result : α} (h : server.procs i = .done result)
    (schedule : List (Move ι)) : (server.run aborted schedule).procs i = .done result := by
  induction schedule generalizing server with
  | nil => exact h
  | cons move rest ih => exact ih (step_of_done h move)

/-- A program that does not end well has changed nothing, in any of its moves. -/
theorem unchanged_of_not_good {good : α → Prop} (h : server.WritesLast good) {result : α}
    (hbad : ¬ good result) {schedule : List (Move ι)}
    (hdone : (server.run aborted schedule).procs i = .done result) :
    Runs.Steps (step aborted)
      (fun s move => move = .step i → (s.step aborted move).shared = s.shared)
      server schedule := by
  induction schedule generalizing server with
  | nil => exact Runs.steps_nil
  | cons move rest ih =>
      obtain ⟨hlast, hmoved⟩ : (server.step aborted move).WritesLast good ∧ _ :=
        step_writesLast h move
      refine Runs.steps_cons.mpr ⟨fun hmove => ?_, ih hlast hdone⟩
      rcases hmoved with hsame | ⟨j, other, hstep, hended, hgood⟩
      · exact hsame
      · obtain rfl : j = i := by
          rw [hmove] at hstep
          exact (Move.step.inj hstep).symm
        have hfinal : (server.run aborted (move :: rest)).procs j = .done other :=
          run_of_done hended rest
        rw [hdone] at hfinal
        cases hfinal
        exact absurd hgood hbad

end Server

end Atomic
