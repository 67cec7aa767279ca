import Mathlib.Logic.Function.Basic
import Mathlib.Data.Nat.Notation
import Mathlib.Data.Option.Basic

/-!
# Stores whose entries expire

A store maps keys to values, each until a time of its own.  An entry that has expired is
as good as absent: `get` does not see it, and `add`, which writes only where nothing is
stored, may replace it.
-/

namespace Expiring

universe u v

structure Entry (V : Type v) where
  value : V
  expiresAt : Int

structure Store (K : Type u) (V : Type v) where
  now : Int
  entries : K → Option (Entry V)

namespace Store

variable {K : Type u} {V : Type v}

/-- The entry of a key, unless it has expired. -/
def live? (s : Store K V) (key : K) : Option (Entry V) :=
  (s.entries key).filter fun entry => decide (s.now < entry.expiresAt)

def get (s : Store K V) (key : K) : Option V := (s.live? key).map Entry.value

/-- Time passes. -/
def pass (s : Store K V) (seconds : ℕ) : Store K V := { s with now := s.now + seconds }

section Write

variable [DecidableEq K]

def set (s : Store K V) (key : K) (value : V) (timeout : ℕ) : Store K V :=
  { s with entries := Function.update s.entries key (some ⟨value, s.now + timeout⟩) }

/-- Writes where nothing is stored, and says whether it has. -/
def add (s : Store K V) (key : K) (value : V) (timeout : ℕ) : Bool × Store K V :=
  if (s.live? key).isSome then (false, s) else (true, s.set key value timeout)

def remove (s : Store K V) (key : K) : Store K V :=
  { s with entries := Function.update s.entries key none }

end Write

theorem live?_eq_some {s : Store K V} {key : K} {entry : Entry V} :
    s.live? key = some entry ↔ s.entries key = some entry ∧ s.now < entry.expiresAt := by
  simp [live?, Option.filter_eq_some_iff]

theorem get_eq_some {s : Store K V} {key : K} {value : V} :
    s.get key = some value ↔ ∃ entry, s.live? key = some entry ∧ entry.value = value :=
  Option.map_eq_some_iff

theorem live?_congr {s t : Store K V} {key : K} (hnow : t.now = s.now)
    (hentries : t.entries key = s.entries key) : t.live? key = s.live? key := by
  rw [live?, live?, hnow, hentries]

@[simp] theorem now_pass {s : Store K V} {seconds : ℕ} :
    (s.pass seconds).now = s.now + seconds := rfl

@[simp] theorem entries_pass {s : Store K V} {seconds : ℕ} :
    (s.pass seconds).entries = s.entries := rfl

section Write

variable [DecidableEq K] {s : Store K V} {key other : K} {value : V} {timeout : ℕ}

@[simp] theorem now_set : (s.set key value timeout).now = s.now := rfl

@[simp] theorem now_remove : (s.remove key).now = s.now := rfl

@[simp] theorem now_add : (s.add key value timeout).2.now = s.now := by
  unfold add
  split <;> rfl

theorem entries_set_self :
    (s.set key value timeout).entries key = some ⟨value, s.now + timeout⟩ :=
  Function.update_self ..

theorem entries_set_of_ne (h : other ≠ key) :
    (s.set key value timeout).entries other = s.entries other :=
  Function.update_of_ne h ..

theorem entries_remove_self : (s.remove key).entries key = none :=
  Function.update_self ..

theorem entries_remove_of_ne (h : other ≠ key) : (s.remove key).entries other = s.entries other :=
  Function.update_of_ne h ..

theorem entries_add_of_ne (h : other ≠ key) :
    (s.add key value timeout).2.entries other = s.entries other := by
  unfold add
  split
  · rfl
  · exact entries_set_of_ne h

theorem add_of_live (h : (s.live? key).isSome = true) :
    s.add key value timeout = (false, s) := by
  rw [add, if_pos h]

theorem add_of_absent (h : s.live? key = none) :
    s.add key value timeout = (true, s.set key value timeout) := by
  rw [add, if_neg (by simp [h])]

end Write

end Store

end Expiring
