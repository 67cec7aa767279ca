import Mathlib.Logic.Function.Basic

/-!
# Programs of atomic actions

A program over shared states `σ` either returns, or performs one atomic action
and continues with what the action saw.  The same program is read in two ways:

* `Program.run` executes it alone, from a given state to its end;
* a `Pool` executes any number of programs over one shared state, one atomic
  action at a time, in the order a schedule names them.

Every action carries a label.  Labels have no meaning here; a user's own
predicates over a run (which actions were writes, which calls went out) are
stated over them.

Programs that can fail are `Fallible`: a failing action leaves the state it was
given, and a failure ends the program without undoing the actions before it.
-/

namespace Atomic

universe u v w

/-- A program over shared states `σ` with result `α`.  `effect` is what the
action does to the state, `next` continues from the state the action started
in. -/
inductive Program (Λ : Type v) (σ : Type w) (α : Type u) : Type (max u v w)
  | done (result : α)
  | act (label : Λ) (effect : σ → σ) (next : σ → Program Λ σ α)

namespace Program

variable {Λ : Type v} {σ : Type w} {α β : Type u}

def bind : Program Λ σ α → (α → Program Λ σ β) → Program Λ σ β
  | done result, rest => rest result
  | act label effect next, rest => act label effect fun s => (next s).bind rest

instance : Monad (Program Λ σ) where
  pure := done
  bind := bind

@[simp] theorem done_bind (result : α) (rest : α → Program Λ σ β) :
    (done result >>= rest : Program Λ σ β) = rest result := rfl

@[simp] theorem pure_eq_done (result : α) : (pure result : Program Λ σ α) = done result := rfl

theorem act_bind (label : Λ) (effect : σ → σ) (next : σ → Program Λ σ α)
    (rest : α → Program Λ σ β) :
    (act label effect next >>= rest : Program Λ σ β) =
      act label effect fun s => next s >>= rest := rfl

theorem bind_done (p : Program Λ σ α) : p.bind done = p := by
  induction p with
  | done result => rfl
  | act label effect next ih => exact congrArg (act label effect) (funext ih)

theorem bind_bind (p : Program Λ σ α) (f : α → Program Λ σ β) {γ : Type u}
    (g : β → Program Λ σ γ) : (p.bind f).bind g = p.bind fun a => (f a).bind g := by
  induction p with
  | done result => rfl
  | act label effect next ih => exact congrArg (act label effect) (funext ih)

instance : LawfulMonad (Program Λ σ) :=
  LawfulMonad.mk' _ bind_done (fun _ _ => rfl) (fun p f g => bind_bind p f g)

/-- Runs the program alone. -/
def run : Program Λ σ α → σ → α × σ
  | done result, s => (result, s)
  | act _ effect next, s => (next s).run (effect s)

@[simp] theorem run_done (result : α) (s : σ) :
    (done result : Program Λ σ α).run s = (result, s) := rfl

@[simp] theorem run_act (label : Λ) (effect : σ → σ) (next : σ → Program Λ σ α) (s : σ) :
    (act label effect next).run s = (next s).run (effect s) := rfl

@[simp] theorem run_bind (p : Program Λ σ α) (rest : α → Program Λ σ β) (s : σ) :
    (p >>= rest).run s = (rest (p.run s).1).run (p.run s).2 := by
  induction p generalizing s with
  | done result => rfl
  | act label effect next ih => exact ih s (effect s)

def finished : Program Λ σ α → Bool
  | done _ => true
  | act _ _ _ => false

def result? : Program Λ σ α → Option α
  | done result => some result
  | act _ _ _ => none

theorem result?_eq_some {p : Program Λ σ α} {result : α} :
    p.result? = some result ↔ p = done result := by
  cases p <;> simp [result?]

/-- One atomic action, returning what `f` returns. -/
def atomic (label : Λ) (f : σ → α × σ) : Program Λ σ α :=
  act label (fun s => (f s).2) fun s => done (f s).1

/-- The actions of a run alone: their labels, each with the state it finds. -/
def trace : Program Λ σ α → σ → List (Λ × σ)
  | done _, _ => []
  | act label effect next, s => (label, s) :: (next s).trace (effect s)

theorem trace_bind (p : Program Λ σ α) (rest : α → Program Λ σ β) (s : σ) :
    (p >>= rest).trace s = p.trace s ++ (rest (p.run s).1).trace (p.run s).2 := by
  induction p generalizing s with
  | done result => rfl
  | act label effect next ih => exact congrArg ((label, s) :: ·) (ih s (effect s))

/-- The state after the first `n` actions of a run alone. -/
def after : Nat → Program Λ σ α → σ → σ
  | n + 1, act _ effect next, s => (next s).after n (effect s)
  | _, _, s => s

theorem after_zero (p : Program Λ σ α) (s : σ) : p.after 0 s = s := by
  cases p <;> rfl

theorem after_done (n : Nat) (result : α) (s : σ) :
    (done result : Program Λ σ α).after n s = s := by
  cases n <;> rfl

/-- The same program under other labels. -/
def relabel {Λ' : Type v} (f : Λ → Λ') : Program Λ σ α → Program Λ' σ α
  | done result => done result
  | act label effect next => act (f label) effect fun s => (next s).relabel f

theorem relabel_bind {Λ' : Type v} (f : Λ → Λ') (p : Program Λ σ α) (rest : α → Program Λ σ β) :
    (p >>= rest).relabel f = p.relabel f >>= fun a => (rest a).relabel f := by
  induction p with
  | done result => rfl
  | act label effect next ih => exact congrArg (act (f label) effect) (funext ih)

theorem run_relabel {Λ' : Type v} (f : Λ → Λ') (p : Program Λ σ α) (s : σ) :
    (p.relabel f).run s = p.run s := by
  induction p generalizing s with
  | done result => rfl
  | act label effect next ih => exact ih s (effect s)

theorem trace_relabel {Λ' : Type v} (f : Λ → Λ') (p : Program Λ σ α) (s : σ) :
    (p.relabel f).trace s = (p.trace s).map fun entry => (f entry.1, entry.2) := by
  induction p generalizing s with
  | done result => rfl
  | act label effect next ih => exact congrArg ((f label, s) :: ·) (ih s (effect s))

end Program

/-! ## Programs that can fail -/

/-- A program that can end with an error `ε`. -/
abbrev Fallible (ε : Type u) (Λ : Type v) (σ : Type w) (α : Type u) :=
  ExceptT ε (Program Λ σ) α

namespace Fallible

variable {ε α β : Type u} {Λ : Type v} {σ : Type w}

/-- One atomic action that may fail. -/
def atomic (label : Λ) (f : σ → Except ε α × σ) : Fallible ε Λ σ α :=
  ExceptT.mk (Program.atomic label f)

/-- One atomic action that only reads. -/
def observe (label : Λ) (f : σ → α) : Fallible ε Λ σ α :=
  atomic label fun s => (.ok (f s), s)

/-- A step without action: a value or a failure that is already there. -/
def ofExcept (result : Except ε α) : Fallible ε Λ σ α :=
  ExceptT.mk (Program.done result)

/-- Runs the program alone. -/
def exec (p : Fallible ε Λ σ α) (s : σ) : Except ε α × σ :=
  Program.run (ExceptT.run p) s

/-- The same program under other labels. -/
def relabel {Λ' : Type v} (f : Λ → Λ') (p : Fallible ε Λ σ α) : Fallible ε Λ' σ α :=
  ExceptT.mk (Program.relabel f (ExceptT.run p))

@[simp] theorem relabel_pure {Λ' : Type v} (f : Λ → Λ') (a : α) :
    relabel f (pure a : Fallible ε Λ σ α) = pure a := rfl

@[simp] theorem relabel_throw {Λ' : Type v} (f : Λ → Λ') (e : ε) :
    relabel f (throw e : Fallible ε Λ σ α) = throw e := rfl

@[simp] theorem relabel_atomic {Λ' : Type v} (f : Λ → Λ') (label : Λ)
    (effect : σ → Except ε α × σ) : relabel f (atomic label effect) = atomic (f label) effect := rfl

@[simp] theorem relabel_ofExcept {Λ' : Type v} (f : Λ → Λ') (result : Except ε α) :
    relabel f (ofExcept result : Fallible ε Λ σ α) = ofExcept result := rfl

@[simp] theorem relabel_bind {Λ' : Type v} (f : Λ → Λ') (p : Fallible ε Λ σ α)
    (rest : α → Fallible ε Λ σ β) :
    relabel f (p >>= rest) = relabel f p >>= fun a => relabel f (rest a) := by
  show ExceptT.mk (Program.relabel f (ExceptT.run (p >>= rest))) = _
  rw [ExceptT.run_bind, Program.relabel_bind]
  refine congrArg (Program.relabel f (ExceptT.run p) >>= ·) (funext fun a => ?_)
  cases a <;> rfl

theorem exec_relabel {Λ' : Type v} (f : Λ → Λ') (p : Fallible ε Λ σ α) (s : σ) :
    exec (relabel f p) s = exec p s := Program.run_relabel f _ s

@[simp] theorem exec_pure (a : α) (s : σ) :
    exec (pure a : Fallible ε Λ σ α) s = (.ok a, s) := rfl

@[simp] theorem exec_throw (e : ε) (s : σ) :
    exec (throw e : Fallible ε Λ σ α) s = (.error e, s) := rfl

@[simp] theorem exec_atomic (label : Λ) (f : σ → Except ε α × σ) (s : σ) :
    exec (atomic label f) s = f s := rfl

@[simp] theorem exec_observe (label : Λ) (f : σ → α) (s : σ) :
    exec (observe label f : Fallible ε Λ σ α) s = (.ok (f s), s) := rfl

@[simp] theorem exec_ofExcept (result : Except ε α) (s : σ) :
    exec (ofExcept result : Fallible ε Λ σ α) s = (result, s) := rfl

/-- What follows a run that may have failed. -/
def resume (rest : α → Fallible ε Λ σ β) : Except ε α × σ → Except ε β × σ
  | (.ok a, s) => exec (rest a) s
  | (.error e, s) => (.error e, s)

@[simp] theorem resume_ok (rest : α → Fallible ε Λ σ β) (a : α) (s : σ) :
    resume rest (.ok a, s) = exec (rest a) s := rfl

@[simp] theorem resume_error (rest : α → Fallible ε Λ σ β) (e : ε) (s : σ) :
    resume rest (.error e, s) = (.error e, s) := rfl

@[simp] theorem exec_bind (p : Fallible ε Λ σ α) (rest : α → Fallible ε Λ σ β) (s : σ) :
    exec (p >>= rest) s = resume rest (exec p s) := by
  unfold exec
  rw [ExceptT.run_bind, Program.run_bind]
  rcases hp : Program.run (ExceptT.run p) s with ⟨_ | _, t⟩ <;> rfl

/-- A sequence that succeeds is a first part that does, and the rest after it. -/
theorem exec_bind_eq_ok {p : Fallible ε Λ σ α} {rest : α → Fallible ε Λ σ β} {s t : σ} {b : β} :
    exec (p >>= rest) s = (.ok b, t) ↔
      ∃ a r, exec p s = (.ok a, r) ∧ exec (rest a) r = (.ok b, t) := by
  rw [exec_bind]
  rcases exec p s with ⟨e | a, r⟩
  · simp
  · constructor
    · intro h
      exact ⟨a, r, rfl, h⟩
    · rintro ⟨a', r', hsame, h⟩
      cases hsame
      exact h

@[simp] theorem exec_tryCatch (p : Fallible ε Λ σ α) (handle : ε → Fallible ε Λ σ α) (s : σ) :
    exec (tryCatch p handle) s =
      match exec p s with
      | (.ok a, t) => (.ok a, t)
      | (.error e, t) => exec (handle e) t := by
  show Program.run (ExceptT.run p >>= _) s = _
  rw [Program.run_bind]
  unfold exec
  rcases hp : Program.run (ExceptT.run p) s with ⟨_ | _, t⟩ <;> rfl

/-! ### Loops -/

/-- From `s` to `t` by one step of `R` for every element, in their order. -/
def Relay {γ : Type*} (R : γ → σ → σ → Prop) : List γ → σ → σ → Prop
  | [], s, t => t = s
  | x :: rest, s, t => ∃ r, R x s r ∧ Relay R rest r t

section Relay

variable {γ δ : Type*} {R : γ → σ → σ → Prop} {s t : σ} {xs ys : List γ}

@[simp] theorem relay_nil : Relay R [] s t ↔ t = s := Iff.rfl

@[simp] theorem relay_cons {x : γ} :
    Relay R (x :: xs) s t ↔ ∃ r, R x s r ∧ Relay R xs r t := Iff.rfl

theorem relay_append : Relay R (xs ++ ys) s t ↔ ∃ r, Relay R xs s r ∧ Relay R ys r t := by
  induction xs generalizing s with
  | nil => simp
  | cons x xs ih =>
      simp only [List.cons_append, relay_cons, ih]
      constructor
      · rintro ⟨a, hx, r, hxs, hys⟩
        exact ⟨r, ⟨a, hx, hxs⟩, hys⟩
      · rintro ⟨r, ⟨a, hx, hxs⟩, hys⟩
        exact ⟨a, hx, r, hxs, hys⟩

theorem relay_map {f : δ → γ} {zs : List δ} :
    Relay R (zs.map f) s t ↔ Relay (fun z => R (f z)) zs s t := by
  induction zs generalizing s with
  | nil => rfl
  | cons z zs ih =>
      simp only [List.map_cons, relay_cons, ih]

theorem relay_of_stay (h : ∀ x ∈ xs, R x s s) : Relay R xs s s := by
  induction xs with
  | nil => rfl
  | cons x xs ih =>
      obtain ⟨hx, hxs⟩ := List.forall_mem_cons.mp h
      exact ⟨s, hx, ih hxs⟩

theorem Relay.invariant (inv : σ → Prop) (h : Relay R xs s t) (hinv : inv s)
    (hstep : ∀ x ∈ xs, ∀ a b, inv a → R x a b → inv b) : inv t := by
  induction xs generalizing s with
  | nil =>
      rw [relay_nil] at h
      exact h ▸ hinv
  | cons x xs ih =>
      obtain ⟨r, hx, hrest⟩ := h
      have hr : inv r := hstep x List.mem_cons_self s r hinv hx
      exact ih hrest hr fun y hy => hstep y (List.mem_cons_of_mem x hy)

/-- An invariant over the elements that have been gone over and those that have not. -/
theorem Relay.progress {inv : List γ → List γ → σ → Prop} (h : Relay R xs s t)
    (hinv : inv [] xs s) (hstep : ∀ done x rest a b, done ++ x :: rest = xs →
      inv done (x :: rest) a → R x a b → inv (done ++ [x]) rest b) : inv xs [] t := by
  have hgeneral : ∀ rest done s, done ++ rest = xs → inv done rest s → Relay R rest s t →
      inv xs [] t := by
    intro rest
    induction rest with
    | nil =>
        intro done s hsplit hinv h
        rw [List.append_nil] at hsplit
        rw [relay_nil] at h
        exact h ▸ hsplit ▸ hinv
    | cons x rest ih =>
        rintro done s hsplit hinv ⟨r, hx, hrest⟩
        refine ih (done ++ [x]) r ?_ (hstep done x rest s r hsplit hinv hx) hrest
        rw [List.append_assoc, List.singleton_append]
        exact hsplit
  exact hgeneral xs [] s rfl hinv h

end Relay

/-- A loop that succeeds relays the state through its bodies. -/
theorem exec_forM_eq_ok {γ : Type u} {body : γ → Fallible ε Λ σ PUnit} {xs : List γ} {s t : σ} :
    exec (xs.forM body) s = (.ok ⟨⟩, t) ↔
      Relay (fun x s t => exec (body x) s = (.ok ⟨⟩, t)) xs s t := by
  induction xs generalizing s with
  | nil =>
      show exec (pure ⟨⟩ : Fallible ε Λ σ PUnit) s = _ ↔ t = s
      rw [exec_pure, Prod.mk.injEq]
      exact ⟨fun h => h.2.symm, fun h => ⟨rfl, h.symm⟩⟩
  | cons x xs ih =>
      show exec (body x >>= fun _ => xs.forM body) s = _ ↔ _
      rw [exec_bind_eq_ok, relay_cons]
      constructor
      · rintro ⟨_, r, hx, hrest⟩
        exact ⟨r, hx, ih.mp hrest⟩
      · rintro ⟨r, hx, hrest⟩
        exact ⟨⟨⟩, r, hx, ih.mpr hrest⟩

/-! ### Postconditions -/

/-- Run alone from `s`, the program ends with an outcome and a state in `post`. -/
def Ends (post : Except ε α → σ → Prop) (p : Fallible ε Λ σ α) (s : σ) : Prop :=
  post (exec p s).1 (exec p s).2

/-- The postcondition of a first part: what follows it ends in `post`. -/
def Follow (post : Except ε β → σ → Prop) (rest : α → Fallible ε Λ σ β) :
    Except ε α → σ → Prop
  | .ok a, s => (rest a).Ends post s
  | .error e, s => post (.error e) s

variable {post : Except ε α → σ → Prop} {s : σ}

@[simp] theorem follow_ok {post : Except ε β → σ → Prop} {rest : α → Fallible ε Λ σ β} {a : α} :
    Follow post rest (.ok a) s ↔ (rest a).Ends post s := Iff.rfl

@[simp] theorem follow_error {post : Except ε β → σ → Prop} {rest : α → Fallible ε Λ σ β}
    {e : ε} : Follow post rest (.error e : Except ε α) s ↔ post (.error e) s := Iff.rfl

@[simp] theorem ends_pure {a : α} :
    (pure a : Fallible ε Λ σ α).Ends post s ↔ post (.ok a) s := Iff.rfl

@[simp] theorem ends_throw {e : ε} :
    (throw e : Fallible ε Λ σ α).Ends post s ↔ post (.error e) s := Iff.rfl

@[simp] theorem ends_atomic {label : Λ} {f : σ → Except ε α × σ} :
    (atomic label f).Ends post s ↔ post (f s).1 (f s).2 := Iff.rfl

@[simp] theorem ends_observe {label : Λ} {f : σ → α} :
    (observe label f : Fallible ε Λ σ α).Ends post s ↔ post (.ok (f s)) s := Iff.rfl

@[simp] theorem ends_ofExcept {result : Except ε α} :
    (ofExcept result : Fallible ε Λ σ α).Ends post s ↔ post result s := Iff.rfl

@[simp] theorem ends_bind {post : Except ε β → σ → Prop} {p : Fallible ε Λ σ α}
    {rest : α → Fallible ε Λ σ β} : (p >>= rest).Ends post s ↔ p.Ends (Follow post rest) s := by
  unfold Ends
  rw [exec_bind]
  rcases exec p s with ⟨e | a, t⟩ <;> rfl

theorem Ends.mono {post' : Except ε α → σ → Prop} {p : Fallible ε Λ σ α} (h : p.Ends post s)
    (himp : ∀ result t, post result t → post' result t) : p.Ends post' s :=
  himp _ _ h

theorem ends_tryCatch {p : Fallible ε Λ σ α} {handle : ε → Fallible ε Λ σ α} :
    (tryCatch p handle).Ends post s ↔ p.Ends (fun result t => match result with
      | .ok a => post (.ok a) t
      | .error e => (handle e).Ends post t) s := by
  unfold Ends
  rw [exec_tryCatch]
  rcases exec p s with ⟨e | a, t⟩ <;> rfl

/-- A sequence keeps what its parts keep, in whatever way it ends. -/
theorem Ends.keep {P : σ → Prop} {p : Fallible ε Λ σ α} {rest : α → Fallible ε Λ σ β} {s : σ}
    (h : p.Ends (fun result t => P t ∧
      ∀ a, result = .ok a → (rest a).Ends (fun _ r => P r) t) s) :
    (p >>= rest).Ends (fun _ t => P t) s := by
  rw [ends_bind]
  refine h.mono fun result t ht => ?_
  cases result with
  | ok a => exact ht.2 a rfl
  | error e => exact ht.1

/-- A loop keeps what each of its bodies keeps. -/
theorem ends_forM {γ : Type u} {P : σ → Prop} {body : γ → Fallible ε Λ σ PUnit} {xs : List γ}
    (hbody : ∀ x ∈ xs, ∀ s, P s → (body x).Ends (fun _ t => P t) s) {s : σ} (hs : P s) :
    (xs.forM body).Ends (fun _ t => P t) s := by
  induction xs generalizing s with
  | nil => exact hs
  | cons x xs ih =>
      show (body x >>= fun _ => xs.forM body).Ends _ s
      refine Ends.keep ((hbody x List.mem_cons_self s hs).mono fun result t ht => ⟨ht, ?_⟩)
      exact fun _ _ => ih (fun y hy => hbody y (List.mem_cons_of_mem x hy)) ht

/-! ### Postconditions over the actions of a run -/

/-- The actions of a run alone, each with the state it finds. -/
def trace (p : Fallible ε Λ σ α) (s : σ) : List (Λ × σ) := Program.trace (ExceptT.run p) s

/-- Run alone from `s`, the program ends with its actions, an outcome and a state in
`post`. -/
def Logs (post : List (Λ × σ) → Except ε α → σ → Prop) (p : Fallible ε Λ σ α) (s : σ) : Prop :=
  post (trace p s) (exec p s).1 (exec p s).2

/-- `Follow`, for postconditions over the actions. -/
def FollowLog (post : List (Λ × σ) → Except ε β → σ → Prop) (rest : α → Fallible ε Λ σ β)
    (log : List (Λ × σ)) : Except ε α → σ → Prop
  | .ok a, s => (rest a).Logs (fun more => post (log ++ more)) s
  | .error e, s => post log (.error e) s

section Logs

variable {post : List (Λ × σ) → Except ε α → σ → Prop} {s : σ}

@[simp] theorem followLog_ok {post : List (Λ × σ) → Except ε β → σ → Prop}
    {rest : α → Fallible ε Λ σ β} {log : List (Λ × σ)} {a : α} :
    FollowLog post rest log (.ok a) s ↔ (rest a).Logs (fun more => post (log ++ more)) s := Iff.rfl

@[simp] theorem followLog_error {post : List (Λ × σ) → Except ε β → σ → Prop}
    {rest : α → Fallible ε Λ σ β} {log : List (Λ × σ)} {e : ε} :
    FollowLog post rest log (.error e : Except ε α) s ↔ post log (.error e) s := Iff.rfl

@[simp] theorem logs_pure {a : α} :
    (pure a : Fallible ε Λ σ α).Logs post s ↔ post [] (.ok a) s := Iff.rfl

@[simp] theorem logs_throw {e : ε} :
    (throw e : Fallible ε Λ σ α).Logs post s ↔ post [] (.error e) s := Iff.rfl

@[simp] theorem logs_atomic {label : Λ} {f : σ → Except ε α × σ} :
    (atomic label f).Logs post s ↔ post [(label, s)] (f s).1 (f s).2 := Iff.rfl

@[simp] theorem logs_observe {label : Λ} {f : σ → α} :
    (observe label f : Fallible ε Λ σ α).Logs post s ↔ post [(label, s)] (.ok (f s)) s := Iff.rfl

@[simp] theorem logs_ofExcept {result : Except ε α} :
    (ofExcept result : Fallible ε Λ σ α).Logs post s ↔ post [] result s := Iff.rfl

@[simp] theorem logs_bind {post : List (Λ × σ) → Except ε β → σ → Prop} {p : Fallible ε Λ σ α}
    {rest : α → Fallible ε Λ σ β} :
    (p >>= rest).Logs post s ↔ p.Logs (FollowLog post rest) s := by
  unfold Logs
  rw [exec_bind]
  unfold trace exec
  rw [ExceptT.run_bind, Program.trace_bind]
  rcases Program.run (ExceptT.run p) s with ⟨e | a, t⟩
  · show post (_ ++ []) _ _ ↔ _
    rw [List.append_nil]
    rfl
  · rfl

theorem Logs.mono {post' : List (Λ × σ) → Except ε α → σ → Prop} {p : Fallible ε Λ σ α}
    (h : p.Logs post s) (himp : ∀ log result t, post log result t → post' log result t) :
    p.Logs post' s :=
  himp _ _ _ h

theorem Logs.ends {post : Except ε α → σ → Prop} {p : Fallible ε Λ σ α} :
    p.Logs (fun _ => post) s ↔ p.Ends post s := Iff.rfl

theorem logs_tryCatch {p : Fallible ε Λ σ α} {handle : ε → Fallible ε Λ σ α} :
    (tryCatch p handle).Logs post s ↔ p.Logs (fun log result t => match result with
      | .ok a => post log (.ok a) t
      | .error e => (handle e).Logs (fun more => post (log ++ more)) t) s := by
  unfold Logs
  rw [exec_tryCatch]
  unfold trace exec
  show post (Program.trace (ExceptT.run p >>= _) s) _ _ ↔ _
  rw [Program.trace_bind]
  rcases Program.run (ExceptT.run p) s with ⟨e | a, t⟩
  · rfl
  · show post (_ ++ []) _ _ ↔ _
    rw [List.append_nil]

/-! ### Runs whose actions all have some label -/

/-- Run alone from `s`, the program performs actions with these labels only. -/
def LogsOnly (ok : Λ → Prop) (p : Fallible ε Λ σ α) (s : σ) : Prop :=
  p.Logs (fun log _ _ => ∀ entry ∈ log, ok entry.1) s

variable {ok : Λ → Prop}

@[simp] theorem logsOnly_pure {a : α} : (pure a : Fallible ε Λ σ α).LogsOnly ok s := nofun

@[simp] theorem logsOnly_ofExcept {result : Except ε α} :
    (ofExcept result : Fallible ε Λ σ α).LogsOnly ok s := nofun

@[simp] theorem logsOnly_atomic {label : Λ} {f : σ → Except ε α × σ} :
    (atomic label f).LogsOnly ok s ↔ ok label :=
  List.forall_mem_singleton

@[simp] theorem logsOnly_observe {label : Λ} {f : σ → α} :
    (observe label f : Fallible ε Λ σ α).LogsOnly ok s ↔ ok label :=
  List.forall_mem_singleton

theorem logsOnly_bind {p : Fallible ε Λ σ α} {rest : α → Fallible ε Λ σ β} :
    (p >>= rest).LogsOnly ok s ↔
      p.LogsOnly ok s ∧ ∀ a t, exec p s = (.ok a, t) → (rest a).LogsOnly ok t := by
  unfold LogsOnly
  rw [logs_bind]
  unfold Logs
  rcases exec p s with ⟨e | a, t⟩
  · simp
  · show (∀ entry ∈ p.trace s ++ (rest a).trace t, ok entry.1) ↔ _
    rw [List.forall_mem_append]
    refine and_congr_right fun _ => ?_
    constructor
    · intro h b t' hsame
      cases hsame
      exact h
    · exact fun h => h a t rfl

/-- Under other labels, the actions are those of the program. -/
theorem logsOnly_relabel {Λ' : Type v} {ok : Λ' → Prop} {f : Λ → Λ'} {p : Fallible ε Λ σ α} :
    (relabel f p).LogsOnly ok s ↔ p.LogsOnly (fun label => ok (f label)) s := by
  unfold LogsOnly Logs trace
  show (∀ entry ∈ (Program.relabel f (ExceptT.run p)).trace s, ok entry.1) ↔ _
  rw [Program.trace_relabel, List.forall_mem_map]

/-- A loop performs such actions only if its bodies do, when a body that does changes
nothing. -/
theorem logsOnly_forM {γ : Type u} {body : γ → Fallible ε Λ σ PUnit} {xs : List γ}
    (hstay : ∀ x ∈ xs, (body x).LogsOnly ok s → exec (body x) s = (.ok ⟨⟩, s)) :
    (xs.forM body).LogsOnly ok s ↔ ∀ x ∈ xs, (body x).LogsOnly ok s := by
  induction xs with
  | nil =>
      refine iff_of_true ?_ nofun
      exact logsOnly_pure
  | cons x xs ih =>
      have ih' := ih fun y hy => hstay y (List.mem_cons_of_mem x hy)
      show (body x >>= fun _ => xs.forM body).LogsOnly ok s ↔ _
      rw [logsOnly_bind, List.forall_mem_cons, ← ih']
      refine and_congr_right fun hx => ?_
      rw [hstay x List.mem_cons_self hx]
      constructor
      · exact fun h => h ⟨⟩ s rfl
      · intro h a t hsame
        cases hsame
        exact h

/-! ### Postconditions under a condition on the actions -/

/-- Run alone from `s`, a program whose actions all find what `cond` says ends with an
outcome and a state in `post`. -/
def EndsIf (cond : Λ → σ → Prop) (post : Except ε α → σ → Prop) (p : Fallible ε Λ σ α)
    (s : σ) : Prop :=
  p.Logs (fun log result t => (∀ entry ∈ log, cond entry.1 entry.2) → post result t) s

variable {cond : Λ → σ → Prop} {post : Except ε α → σ → Prop}

theorem Ends.endsIf {p : Fallible ε Λ σ α} (h : p.Ends post s) : p.EndsIf cond post s :=
  fun _ => h

theorem EndsIf.ends {p : Fallible ε Λ σ α} (h : p.EndsIf cond post s)
    (hcond : ∀ entry ∈ p.trace s, cond entry.1 entry.2) : p.Ends post s := h hcond

theorem EndsIf.mono {post' : Except ε α → σ → Prop} {p : Fallible ε Λ σ α}
    (h : p.EndsIf cond post s) (himp : ∀ result t, post result t → post' result t) :
    p.EndsIf cond post' s :=
  fun hcond => himp _ _ (h hcond)

theorem endsIf_atomic {label : Λ} {f : σ → Except ε α × σ} :
    (atomic label f).EndsIf cond post s ↔ (cond label s → post (f s).1 (f s).2) := by
  simp [EndsIf]

theorem EndsIf.bind {post : Except ε β → σ → Prop} {p : Fallible ε Λ σ α}
    {rest : α → Fallible ε Λ σ β} (h : p.EndsIf cond (fun result t => match result with
      | .ok a => (rest a).EndsIf cond post t
      | .error e => post (.error e) t) s) : (p >>= rest).EndsIf cond post s := by
  unfold EndsIf
  rw [logs_bind]
  refine Logs.mono h fun log result t hresult => ?_
  cases result with
  | ok a =>
      rw [followLog_ok]
      intro hall
      have hboth := List.forall_mem_append.mp hall
      exact hresult hboth.1 hboth.2
  | error e => exact hresult

end Logs

/-! ### Runs that are stopped -/

/-- Wherever a run alone from `s` is stopped, after `n` actions it has left a state in
`post n`. -/
def Stops (post : Nat → σ → Prop) (p : Fallible ε Λ σ α) (s : σ) : Prop :=
  ∀ n, post n (Program.after n (ExceptT.run p) s)

section Stops

variable {post : Nat → σ → Prop} {s : σ}

theorem Stops.here {p : Fallible ε Λ σ α} (h : p.Stops post s) : post 0 s := by
  have hzero := h 0
  rwa [Program.after_zero] at hzero

theorem Stops.mono {post' : Nat → σ → Prop} {p : Fallible ε Λ σ α} (h : p.Stops post s)
    (himp : ∀ n t, post n t → post' n t) : p.Stops post' s :=
  fun n => himp _ _ (h n)

theorem stops_pure {a : α} : (pure a : Fallible ε Λ σ α).Stops post s ↔ ∀ n, post n s :=
  forall_congr' fun n => iff_of_eq (congrArg (post n) (Program.after_done n _ s))

theorem stops_throw {e : ε} : (throw e : Fallible ε Λ σ α).Stops post s ↔ ∀ n, post n s :=
  forall_congr' fun n => iff_of_eq (congrArg (post n) (Program.after_done n _ s))

/-- One action, and what follows it when it succeeds. -/
theorem stops_atomic_bind {label : Λ} {f : σ → Except ε α × σ} {rest : α → Fallible ε Λ σ β} :
    (atomic label f >>= rest).Stops post s ↔ post 0 s ∧
      match (f s).1 with
      | .ok a => (rest a).Stops (fun n => post (n + 1)) (f s).2
      | .error _ => ∀ n, post (n + 1) (f s).2 := by
  have hsucc : ∀ n, Program.after (n + 1) (ExceptT.run (atomic label f >>= rest)) s =
      match (f s).1 with
      | .ok a => Program.after n (ExceptT.run (rest a)) (f s).2
      | .error _ => (f s).2 := by
    intro n
    show Program.after n (match (f s).1 with
      | .ok a => ExceptT.run (rest a)
      | .error e => Program.done (.error e)) (f s).2 = _
    cases (f s).1 with
    | ok a => rfl
    | error e => exact Program.after_done n _ _
  constructor
  · intro h
    refine ⟨h.here, ?_⟩
    have hlater : ∀ n, post (n + 1) _ := fun n => h (n + 1)
    simp only [hsucc] at hlater
    split
    next a hf =>
        simp only [hf] at hlater
        exact hlater
    next e hf =>
        simp only [hf] at hlater
        exact hlater
  · rintro ⟨hhere, hrest⟩ n
    cases n with
    | zero => rwa [Program.after_zero]
    | succ n =>
        rw [hsucc]
        cases hf : (f s).1 with
        | ok a =>
            rw [hf] at hrest
            exact hrest n
        | error e =>
            rw [hf] at hrest
            exact hrest n

end Stops

end Fallible

/-! ## Programs run concurrently -/

/-- Programs over one shared state, none of them finished by assumption. -/
structure Pool (ι : Type u) (Λ : Type v) (σ : Type w) (α : Type u) where
  shared : σ
  procs : ι → Program Λ σ α

namespace Pool

variable {ι : Type u} {Λ : Type v} {σ : Type w} {α : Type u} [DecidableEq ι]

/-- Program `i` performs its next action; a finished program does nothing. -/
def step (pool : Pool ι Λ σ α) (i : ι) : Pool ι Λ σ α :=
  match pool.procs i with
  | .done _ => pool
  | .act _ effect next =>
      ⟨effect pool.shared, Function.update pool.procs i (next pool.shared)⟩

/-- The pool after the actions a schedule names, in its order. -/
def run (pool : Pool ι Λ σ α) (schedule : List ι) : Pool ι Λ σ α :=
  schedule.foldl step pool

@[simp] theorem run_nil (pool : Pool ι Λ σ α) : pool.run [] = pool := rfl

@[simp] theorem run_cons (pool : Pool ι Λ σ α) (i : ι) (schedule : List ι) :
    pool.run (i :: schedule) = (pool.step i).run schedule := rfl

theorem run_append (pool : Pool ι Λ σ α) (first second : List ι) :
    pool.run (first ++ second) = (pool.run first).run second :=
  List.foldl_append ..

theorem step_done {pool : Pool ι Λ σ α} {i : ι} {result : α}
    (h : pool.procs i = .done result) : pool.step i = pool := by
  simp [step, h]

theorem step_act {pool : Pool ι Λ σ α} {i : ι} {label : Λ} {effect : σ → σ}
    {next : σ → Program Λ σ α} (h : pool.procs i = .act label effect next) :
    pool.step i =
      ⟨effect pool.shared, Function.update pool.procs i (next pool.shared)⟩ := by
  simp [step, h]

end Pool

end Atomic
