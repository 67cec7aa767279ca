import Saasmint.Library.Monitor
import Mathlib.Data.Option.Basic

/-!
# Transcripts

A run tells an outside party things and hears answers.  `note` picks what is noted of an
action and the state it finds; the notes of a run are its `transcript`.

The monitor `recall` remembers the transcript so far, and says what may come next.  In
a run of a program that obeys it, every note comes after notes that allow its action,
and the whole transcript satisfies what the program ends with.
-/

namespace Atomic

universe u v w x

/-- The monitor that remembers what has been noted. -/
def Monitor.recall {γ : Type x} {Λ : Type v} {σ : Type w} (note : Λ → σ → Option γ)
    (allow : List γ → Λ → Prop) : Monitor (List γ) Λ σ where
  track said label s := said ++ (note label s).toList
  allow said label _ := allow said label

namespace Program

variable {γ : Type x} {Λ : Type v} {σ : Type w} {α : Type u} {note : Λ → σ → Option γ}
  {allow : List γ → Λ → Prop} {post : List γ → α → Prop} {said : List γ}

/-- What is noted of a run alone. -/
def transcript (note : Λ → σ → Option γ) (p : Program Λ σ α) (s : σ) : List γ :=
  (p.trace s).filterMap fun entry => note entry.1 entry.2

@[simp] theorem transcript_done (a : α) (s : σ) :
    (done a : Program Λ σ α).transcript note s = [] := rfl

theorem transcript_act (label : Λ) (effect : σ → σ) (next : σ → Program Λ σ α) (s : σ) :
    (act label effect next).transcript note s =
      (note label s).toList ++ (next s).transcript note (effect s) := by
  show ((label, s) :: (next s).trace (effect s)).filterMap _ = _
  rw [List.filterMap_cons]
  cases note label s <;> rfl

/-- The whole transcript is what the program ends with. -/
theorem Obeys.transcript {p : Program Λ σ α} (h : p.Obeys (.recall note allow) post said) (s : σ) :
    post (said ++ p.transcript note s) (p.run s).1 := by
  induction p generalizing said s with
  | done result =>
      rw [transcript_done, List.append_nil]
      exact h
  | act label effect next ih =>
      rw [transcript_act, ← List.append_assoc]
      exact ih s (h.2 s) (effect s)

/-- What is noted was allowed by what had been noted before. -/
theorem Obeys.allowed {p : Program Λ σ α} (h : p.Obeys (.recall note allow) post said) {s : σ}
    {before after : List γ} {x : γ} (hsplit : p.transcript note s = before ++ x :: after) :
    ∃ label t, note label t = some x ∧ allow (said ++ before) label := by
  induction p generalizing said s before with
  | done result => cases before <;> cases hsplit
  | act label effect next ih =>
      have hrest : (next s).Obeys (.recall note allow) post (said ++ (note label s).toList) := h.2 s
      rw [transcript_act] at hsplit
      cases hnote : note label s with
      | none =>
          rw [hnote] at hsplit hrest
          rw [Option.toList_none, List.append_nil] at hrest
          exact ih s hrest hsplit
      | some y =>
          rw [hnote] at hsplit hrest
          cases before with
          | nil =>
              obtain ⟨rfl, -⟩ := List.cons.inj hsplit
              rw [List.append_nil]
              exact ⟨label, s, hnote, h.1⟩
          | cons z before =>
              obtain ⟨rfl, hrestSplit⟩ := List.cons.inj hsplit
              have hallowed := ih s hrest hrestSplit
              rwa [Option.toList_some, List.append_assoc] at hallowed

end Program

namespace Fallible

variable {γ : Type x} {ε α : Type u} {Λ : Type v} {σ : Type w} {note : Λ → σ → Option γ}
  {allow : List γ → Λ → Prop} {post : List γ → Except ε α → Prop} {p : Fallible ε Λ σ α}
  {said : List γ}

def transcript (note : Λ → σ → Option γ) (p : Fallible ε Λ σ α) (s : σ) : List γ :=
  Program.transcript note (ExceptT.run p) s

theorem Obeys.transcript (h : p.Obeys (.recall note allow) post said) (s : σ) :
    post (said ++ p.transcript note s) (exec p s).1 :=
  Program.Obeys.transcript h s

theorem Obeys.allowed (h : p.Obeys (.recall note allow) post said) {s : σ}
    {before after : List γ} {x : γ} (hsplit : p.transcript note s = before ++ x :: after) :
    ∃ label t, note label t = some x ∧ allow (said ++ before) label :=
  Program.Obeys.allowed h hsplit

end Fallible

end Atomic
