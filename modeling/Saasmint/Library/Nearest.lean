import Mathlib.Algebra.Order.Floor.Ring
import Mathlib.Data.Rat.Floor
import Mathlib.Tactic.Linarith
import Mathlib.Tactic.Ring

/-!
# Rounding to a nearest point

`Nearest points x p` says that `p` is one of the points, and that none of them is nearer
to `x`.  Where two points are equally near it does not say which one is taken; that
rounding is monotone, fixes the points and never passes one does not depend on it.

`halfEven` and `halfUp` round to integers.
-/

namespace Rounding

universe u

variable {α : Type u} [Field α] [LinearOrder α] [IsStrictOrderedRing α]

structure Nearest (points : Set α) (x p : α) : Prop where
  mem : p ∈ points
  le : ∀ q ∈ points, |p - x| ≤ |q - x|

namespace Nearest

variable {points fewer : Set α} {x y p q gap : α}

/-- A point that is not passed over lies on the far side of the middle. -/
theorem add_le_two_mul (h : Nearest points x p) (hq : q ∈ points) (hlt : q < p) :
    p + q ≤ 2 * x := by
  have hle := h.le q hq
  by_contra hmid
  have hp : p - x ≤ |p - x| := le_abs_self _
  have hq' : |q - x| < p - x := abs_lt.mpr ⟨by linarith, by linarith⟩
  linarith

theorem two_mul_le_add (h : Nearest points x p) (hq : q ∈ points) (hlt : p < q) :
    2 * x ≤ p + q := by
  have hle := h.le q hq
  by_contra hmid
  have hp : x - p ≤ |p - x| := by rw [abs_sub_comm]; exact le_abs_self _
  have hq' : |q - x| < x - p := abs_lt.mpr ⟨by linarith, by linarith⟩
  linarith

/-- Rounding does not pass a point above, -/
theorem le_of_le (h : Nearest points x p) (hq : q ∈ points) (hle : x ≤ q) : p ≤ q := by
  by_contra hlt
  have hmid := h.add_le_two_mul hq (not_le.mp hlt)
  linarith

/-- nor one below. -/
theorem ge_of_ge (h : Nearest points x p) (hq : q ∈ points) (hle : q ≤ x) : q ≤ p := by
  by_contra hlt
  have hmid := h.two_mul_le_add hq (not_le.mp hlt)
  linarith

theorem eq_self (h : Nearest points x p) (hx : x ∈ points) : p = x :=
  le_antisymm (h.le_of_le hx le_rfl) (h.ge_of_ge hx le_rfl)

/-- Were the results the other way round, `x` would lie above their middle and `y` below. -/
theorem mono (hp : Nearest points x p) (hq : Nearest points y q) (hlt : x < y) : p ≤ q := by
  by_contra hqp
  have hx := hp.add_le_two_mul hq.mem (not_le.mp hqp)
  have hy := hq.two_mul_le_add hp.mem (not_le.mp hqp)
  linarith

omit [IsStrictOrderedRing α] in
theorem subset (h : Nearest points x p) (hsub : fewer ⊆ points) (hmem : p ∈ fewer) :
    Nearest fewer x p :=
  ⟨hmem, fun q hq => h.le q (hsub hq)⟩

/-- Where no other point is within `gap`, half of it is near enough. -/
theorem of_gap (hmem : p ∈ points) (hgap : ∀ q ∈ points, q ≠ p → gap ≤ |q - p|)
    (hhalf : 2 * |p - x| ≤ gap) : Nearest points x p := by
  refine ⟨hmem, fun q hq => ?_⟩
  by_cases heq : q = p
  · rw [heq]
  · have hfar := hgap q hq heq
    have htri : |q - p| ≤ |q - x| + |p - x| := by
      rw [abs_sub_comm p x]
      exact abs_sub_le q x p
    linarith

end Nearest

/-! ## Multiples -/

/-- The multiples of a step, moved by an offset. -/
def lattice (step offset : α) : Set α := {p | ∃ k : ℤ, p = k * step + offset}

section Lattice

variable {step offset x p q : α}

theorem gap_lattice (hstep : 0 < step) (hp : p ∈ lattice step offset)
    (hq : q ∈ lattice step offset) (hne : q ≠ p) : step ≤ |q - p| := by
  obtain ⟨k, rfl⟩ := hp
  obtain ⟨l, rfl⟩ := hq
  have hkl : l - k ≠ 0 := by
    intro heq
    obtain rfl : l = k := sub_eq_zero.mp heq
    exact hne rfl
  have hone : (1 : α) ≤ |((l - k : ℤ) : α)| := by exact_mod_cast Int.one_le_abs hkl
  calc step = 1 * step := (one_mul step).symm
    _ ≤ |((l - k : ℤ) : α)| * step := mul_le_mul_of_nonneg_right hone hstep.le
    _ = |((l - k : ℤ) : α) * step| := by rw [abs_mul, abs_of_pos hstep]
    _ = |l * step + offset - (k * step + offset)| := by
        rw [Int.cast_sub]
        ring_nf

theorem nearest_lattice (hstep : 0 < step) (hp : p ∈ lattice step offset)
    (hhalf : 2 * |p - x| ≤ step) : Nearest (lattice step offset) x p :=
  .of_gap hp (fun _ hq hne => gap_lattice hstep hp hq hne) hhalf

end Lattice

/-! ## Integers -/

section Integers

variable [FloorRing α]

/-- The nearest integer; of two, the even one. -/
def halfEven (x : α) : ℤ :=
  let below := ⌊x⌋
  if x - below < 1 / 2 then below
  else if 1 / 2 < x - below then below + 1
  else if below % 2 = 0 then below
  else below + 1

/-- The nearest integer; of two, the one further from zero. -/
def halfUp (x : α) : ℤ := if 0 ≤ x then ⌊x + 1 / 2⌋ else ⌈x - 1 / 2⌉

theorem abs_halfEven_sub (x : α) : 2 * |(halfEven x : α) - x| ≤ 1 := by
  have hlow := Int.floor_le x
  have hhigh := Int.lt_floor_add_one x
  suffices hbound : |(halfEven x : α) - x| ≤ 1 / 2 by linarith
  unfold halfEven
  dsimp only
  split_ifs <;> push_cast <;> rw [abs_le] <;> constructor <;> linarith

theorem halfUp_intCast (n : ℤ) : halfUp (n : α) = n := by
  unfold halfUp
  split
  · rw [Int.floor_eq_iff]
    constructor <;> linarith
  · rw [Int.ceil_eq_iff]
    constructor <;> linarith

theorem halfUp_mono {x y : α} (h : x ≤ y) : halfUp x ≤ halfUp y := by
  unfold halfUp
  split
  next hx =>
    rw [if_pos (hx.trans h)]
    exact Int.floor_mono (by linarith)
  next hx =>
    split
    next hy =>
      calc ⌈x - 1 / 2⌉ ≤ 0 := Int.ceil_le.mpr (by rw [Int.cast_zero]; linarith)
        _ ≤ ⌊y + 1 / 2⌋ := Int.le_floor.mpr (by rw [Int.cast_zero]; linarith)
    next hy => exact Int.ceil_mono (by linarith)

/-- A half is rounded down to zero, which is even. -/
theorem halfEven_eq_zero {x : α} (hpos : 0 ≤ x) (hhalf : x ≤ 1 / 2) : halfEven x = 0 := by
  have hfloor : ⌊x⌋ = 0 := Int.floor_eq_iff.mpr ⟨by simpa using hpos, by norm_num; linarith⟩
  unfold halfEven
  simp only [hfloor, Int.cast_zero, sub_zero, Int.zero_emod]
  rw [if_neg (not_lt.mpr hhalf)]
  simp

theorem nearest_halfEven {step x : α} (hstep : 0 < step) :
    Nearest (lattice step 0) x (halfEven (x / step) * step) := by
  refine nearest_lattice hstep ⟨halfEven (x / step), (add_zero _).symm⟩ ?_
  have hscale : (halfEven (x / step) : α) * step - x = (halfEven (x / step) - x / step) * step := by
    rw [sub_mul, div_mul_cancel₀ x hstep.ne']
  rw [hscale, abs_mul, abs_of_pos hstep, ← mul_assoc]
  calc 2 * |(halfEven (x / step) : α) - x / step| * step ≤ 1 * step :=
        mul_le_mul_of_nonneg_right (abs_halfEven_sub _) hstep.le
    _ = step := one_mul step

end Integers

end Rounding
