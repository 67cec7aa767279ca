import Mathlib.Data.Finset.Card
import Mathlib.Data.Finset.Image
import Mathlib.Order.Bounds.Basic
import Mathlib.Order.Interval.Finset.Nat

/-!
# Counting up

`while p(n): n += 1`, and the same loop with a bound on how often it is repeated.  The loop
ends at the least `n` from its start on at which `p` fails, if there is one, and the bounded
loop does so if the bound reaches that far.

What is searched for is often a value that is not taken.  Of more values than are taken, one
is free.
-/

namespace Counting

/-- Counts up from `n` while `p` holds, at most `fuel` times. -/
def upFrom (p : ℕ → Bool) : ℕ → ℕ → ℕ
  | 0, n => n
  | fuel + 1, n => if p n then upFrom p fuel (n + 1) else n

/-- The loop that counts up from `n` while `p` holds ends at `m`. -/
inductive Ends (p : ℕ → Bool) : ℕ → ℕ → Prop
  | stop {n : ℕ} (h : ¬ p n = true) : Ends p n n
  | next {n m : ℕ} (h : p n = true) (rest : Ends p (n + 1) m) : Ends p n m

variable {p : ℕ → Bool} {n m : ℕ}

theorem Ends.isLeast (h : Ends p n m) : IsLeast {k | n ≤ k ∧ ¬ p k = true} m := by
  induction h with
  | stop h => exact ⟨⟨le_rfl, h⟩, fun k hk => hk.1⟩
  | @next n m h rest ih =>
      obtain ⟨⟨hle, hm⟩, hleast⟩ := ih
      refine ⟨⟨by omega, hm⟩, fun k hk => ?_⟩
      have hne : k ≠ n := fun hkn => hk.2 (hkn ▸ h)
      exact hleast ⟨by have := hk.1; omega, hk.2⟩

/-- With a bound that reaches a number at which `p` fails, the bounded loop is the loop. -/
theorem ends_upFrom {fuel : ℕ} (h : ∃ k, n ≤ k ∧ k ≤ n + fuel ∧ ¬ p k = true) :
    Ends p n (upFrom p fuel n) := by
  induction fuel generalizing n with
  | zero =>
      obtain ⟨k, hle, hge, hk⟩ := h
      obtain rfl : k = n := by omega
      exact .stop hk
  | succ fuel ih =>
      unfold upFrom
      split
      next hn =>
        obtain ⟨k, hle, hge, hk⟩ := h
        have hne : k ≠ n := fun hkn => hk (hkn ▸ hn)
        exact .next hn (ih ⟨k, by omega, by omega, hk⟩)
      next hn => exact .stop hn

/-- Of one more value than are taken, one is free. -/
theorem exists_free {α : Type*} [DecidableEq α] {f : ℕ → α} (hf : Function.Injective f)
    (taken : List α) (start : ℕ) : ∃ k, start ≤ k ∧ k ≤ start + taken.length ∧ f k ∉ taken := by
  have hcard : taken.toFinset.card < ((Finset.Icc start (start + taken.length)).image f).card := by
    calc taken.toFinset.card
      _ ≤ taken.length := taken.toFinset_card_le
      _ < (Finset.Icc start (start + taken.length)).card := by rw [Nat.card_Icc]; omega
      _ = ((Finset.Icc start (start + taken.length)).image f).card :=
        (Finset.card_image_of_injective _ hf).symm
  obtain ⟨a, ha, hfree⟩ := Finset.exists_mem_notMem_of_card_lt_card hcard
  obtain ⟨k, hk, rfl⟩ := Finset.mem_image.mp ha
  obtain ⟨hle, hge⟩ := Finset.mem_Icc.mp hk
  exact ⟨k, hle, hge, fun htaken => hfree (List.mem_toFinset.mpr htaken)⟩

end Counting
