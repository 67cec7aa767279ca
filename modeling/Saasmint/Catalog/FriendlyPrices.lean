import Saasmint.Library.Nearest
import Saasmint.Catalog.Localizing

/-!
# Friendly prices

`round_friendly` takes an amount to a price that ends in `.49` or `.99`, or, in a currency
without cents, to a multiple of ten or a hundred.  On exact amounts it takes the nearest:
of the points `m / 2 - 1 / 100` in the first case, of all multiples in the second.  Zero
and `-0.01` are among these.  They are what the smallest amounts are rounded to.

The step of the multiples grows at 1000, which is a multiple of both steps.
-/

namespace Saasmint

open Rounding

/-! ## Amounts -/

/-- `ZERO_DECIMAL_CURRENCIES`. -/
def zeroDecimalCurrencies : List String := ["jpy", "krw", "idr", "twd"]

/-- The step of the multiples. -/
def zeroDecimalStep (amount : ℚ) : ℚ := if 1000 ≤ amount then 100 else 10

/-- `options`. -/
def charmOptions (whole : ℤ) : List ℚ :=
  [whole - 1 / 100, whole + 49 / 100, whole + 99 / 100, whole + 149 / 100]

theorem charmOptions_ne_nil (whole : ℤ) : charmOptions whole ≠ [] := List.cons_ne_nil _ _

section Display

/- `str.lower`. -/
variable (strLower : String → String)

def isZeroDecimal (currency : String) : Bool := zeroDecimalCurrencies.contains (strLower currency)

def formatAmount (amount : ℤ) (currency : String) : ℚ :=
  if isZeroDecimal strLower currency then amount else amount / 100

def roundFriendly (amount : ℚ) (currency : String) : ℚ :=
  if amount ≤ 0 then 0
  else if isZeroDecimal strLower currency then
    halfEven (amount / zeroDecimalStep amount) * zeroDecimalStep amount
  else
    -- `int` truncates, which is to round a positive amount down
    (charmOptions ⌊amount⌋).minOn (fun option => |option - amount|) (charmOptions_ne_nil _)

/-- `_to_minor_units`. -/
def toMinorUnits (displayAmount : ℚ) (currency : String) : ℤ :=
  halfUp (if isZeroDecimal strLower currency then displayAmount else displayAmount * 100)

/-- The rates of the feed, as the amounts `_compute_new_amounts` makes of them. -/
def displayRates (apiRates : String → Option ℚ) (amount : ℤ) (currency : String) : Option ℤ :=
  (apiRates currency).map fun rate =>
    toMinorUnits strLower
      (roundFriendly strLower (formatAmount strLower amount "usd" * rate) currency) currency

/-- What a price tag should be. -/
def friendlyPrices (currency : String) (amount : ℚ) : Set ℚ :=
  if isZeroDecimal strLower currency then {p | ∃ k : ℕ, 0 < k ∧ p = k * zeroDecimalStep amount}
  else {p | ∃ k : ℕ, p = k + 49 / 100 ∨ p = k + 99 / 100}

end Display

/-! ## The points that amounts are rounded to -/

section Points

variable {strLower : String → String} {currency : String} {amount a b p : ℚ}

theorem zeroDecimalStep_pos (amount : ℚ) : 0 < zeroDecimalStep amount := by
  unfold zeroDecimalStep
  split <;> norm_num

theorem zeroDecimalStep_of_le (h : 1000 ≤ amount) : zeroDecimalStep amount = 100 := if_pos h

theorem zeroDecimalStep_of_lt (h : amount < 1000) : zeroDecimalStep amount = 10 :=
  if_neg (not_le.mpr h)

/-- The prices that end in `.49` or `.99`, and those below zero that continue them. -/
def charmPoints : Set ℚ := lattice (1 / 2) (-1 / 100)

theorem charmOptions_subset {whole : ℤ} (h : p ∈ charmOptions whole) : p ∈ charmPoints := by
  unfold charmOptions at h
  simp only [List.mem_cons, List.not_mem_nil, or_false] at h
  obtain rfl | rfl | rfl | rfl := h
  · exact ⟨2 * whole, by push_cast; ring⟩
  · exact ⟨2 * whole + 1, by push_cast; ring⟩
  · exact ⟨2 * whole + 2, by push_cast; ring⟩
  · exact ⟨2 * whole + 3, by push_cast; ring⟩

/-- One of the options is as near as half the distance of two points. -/
theorem exists_charmOption (amount : ℚ) :
    ∃ p ∈ charmOptions ⌊amount⌋, 2 * |p - amount| ≤ 1 / 2 := by
  have hlow := Int.floor_le amount
  have hhigh := Int.lt_floor_add_one amount
  suffices hnear : ∃ p ∈ charmOptions ⌊amount⌋, |p - amount| ≤ 1 / 4 by
    obtain ⟨p, hp, hle⟩ := hnear
    exact ⟨p, hp, by linarith⟩
  unfold charmOptions
  by_cases hfirst : amount ≤ ⌊amount⌋ + 24 / 100
  · exact ⟨⌊amount⌋ - 1 / 100, by simp, abs_le.mpr ⟨by linarith, by linarith⟩⟩
  · by_cases hsecond : amount ≤ ⌊amount⌋ + 74 / 100
    · exact ⟨⌊amount⌋ + 49 / 100, by simp, abs_le.mpr ⟨by linarith, by linarith⟩⟩
    · exact ⟨⌊amount⌋ + 99 / 100, by simp, abs_le.mpr ⟨by linarith, by linarith⟩⟩

theorem roundFriendly_of_nonpos (h : amount ≤ 0) : roundFriendly strLower amount currency = 0 :=
  if_pos h

theorem nearest_charmPoints (hzero : isZeroDecimal strLower currency = false) (hpos : 0 < amount) :
    Nearest charmPoints amount (roundFriendly strLower amount currency) := by
  unfold roundFriendly
  rw [if_neg (not_le.mpr hpos), if_neg (by rw [hzero]; exact Bool.false_ne_true)]
  refine nearest_lattice (by norm_num) (charmOptions_subset List.minOn_mem) ?_
  obtain ⟨q, hq, hnear⟩ := exists_charmOption amount
  have hleast := List.apply_minOn_le_of_mem (f := fun option : ℚ => |option - amount|) hq
  linarith

theorem nearest_multiples (hzero : isZeroDecimal strLower currency = true) (hpos : 0 < amount) :
    Nearest (lattice (zeroDecimalStep amount) 0) amount
      (roundFriendly strLower amount currency) := by
  unfold roundFriendly
  rw [if_neg (not_le.mpr hpos), if_pos hzero]
  exact nearest_halfEven (zeroDecimalStep_pos amount)

end Points

/-! ## Nearest friendly prices -/

section Friendly

variable (strLower : String → String) (currency : String) (amount : ℚ)

/-- From where on a price tag can be rounded to: below, zero or less is as near. -/
def friendlyFrom : ℚ := if isZeroDecimal strLower currency then 5 else 24 / 100

variable {strLower currency amount}

theorem charmPoints_pos {p : ℚ} (h : p ∈ charmPoints) (hpos : 0 < p) :
    ∃ k : ℕ, p = k + 49 / 100 ∨ p = k + 99 / 100 := by
  obtain ⟨m, rfl⟩ := h
  have hm : 0 < m := by
    have hcast : (0 : ℚ) < m := by linarith
    exact_mod_cast hcast
  obtain ⟨k, hk | hk⟩ : ∃ k : ℕ, m = 2 * k + 1 ∨ m = 2 * k + 2 := ⟨((m - 1) / 2).toNat, by omega⟩
  · exact ⟨k, .inl (by rw [hk]; push_cast; ring)⟩
  · exact ⟨k, .inr (by rw [hk]; push_cast; ring)⟩

theorem charmPoints_of_nat {p : ℚ} {k : ℕ} (h : p = k + 49 / 100 ∨ p = k + 99 / 100) :
    p ∈ charmPoints := by
  obtain rfl | rfl := h
  · exact ⟨2 * k + 1, by push_cast; ring⟩
  · exact ⟨2 * k + 2, by push_cast; ring⟩

theorem multiple_pos {p step : ℚ} (hstep : 0 < step) (h : p ∈ lattice step 0) (hpos : 0 < p) :
    ∃ k : ℕ, 0 < k ∧ p = k * step := by
  obtain ⟨m, rfl⟩ := h
  have hm : 0 < m := by
    have hcast : (0 : ℚ) < m := by
      rw [add_zero] at hpos
      exact pos_of_mul_pos_left hpos hstep.le
    exact_mod_cast hcast
  exact ⟨m.toNat, by omega, by rw [add_zero, ← Int.cast_natCast, Int.toNat_of_nonneg hm.le]⟩

/-- A positive result is a nearest friendly price. -/
theorem nearest_friendly (hpos : 0 < amount)
    (hresult : 0 < roundFriendly strLower amount currency) :
    Nearest (friendlyPrices strLower currency amount) amount
      (roundFriendly strLower amount currency) := by
  unfold friendlyPrices
  cases hzero : isZeroDecimal strLower currency with
  | true =>
      have hnearest := nearest_multiples hzero hpos
      refine hnearest.subset ?_ (multiple_pos (zeroDecimalStep_pos amount) hnearest.mem hresult)
      rintro p ⟨k, -, rfl⟩
      exact ⟨k, by push_cast; ring⟩
  | false =>
      have hnearest := nearest_charmPoints hzero hpos
      refine hnearest.subset ?_ (charmPoints_pos hnearest.mem hresult)
      rintro p ⟨k, hk⟩
      exact charmPoints_of_nat hk

theorem friendlyPrices_pos {p : ℚ} (h : p ∈ friendlyPrices strLower currency amount) : 0 < p := by
  unfold friendlyPrices at h
  split at h
  · obtain ⟨k, hk, rfl⟩ := h
    exact mul_pos (by exact_mod_cast hk) (zeroDecimalStep_pos amount)
  · obtain ⟨k, rfl | rfl⟩ := h <;> positivity

/-- Up to a quarter above it, the first option is the nearest, or one of two. -/
theorem minOn_charmOptions (hpos : 0 < amount) (hle : amount ≤ 24 / 100) :
    (charmOptions ⌊amount⌋).minOn (fun option => |option - amount|) (charmOptions_ne_nil _) =
      -1 / 100 := by
  have hfloor : ⌊amount⌋ = 0 :=
    Int.floor_eq_iff.mpr ⟨by simpa using hpos.le, by norm_num; linarith⟩
  have hhead : (charmOptions ⌊amount⌋).head (charmOptions_ne_nil _) = -1 / 100 := by
    simp [charmOptions, hfloor]
    norm_num
  rw [List.minOn_eq_head (charmOptions_ne_nil _), hhead]
  intro option hmem
  have hdistance : |(-1 / 100 : ℚ) - amount| = amount + 1 / 100 := by
    rw [abs_of_neg (by linarith)]
    ring
  rw [hhead, hdistance]
  simp only [charmOptions, hfloor, List.mem_cons, List.not_mem_nil, or_false, Int.cast_zero] at hmem
  obtain rfl | hlarge : option = 0 - 1 / 100 ∨ 49 / 100 ≤ option := by
    obtain rfl | rfl | rfl | rfl := hmem
    · exact .inl rfl
    all_goals exact .inr (by norm_num)
  · rw [← hdistance]
    norm_num
  · calc amount + 1 / 100 ≤ option - amount := by linarith
      _ ≤ |option - amount| := le_abs_self _

/-- The smallest amounts are rounded to zero or to `-0.01`, -/
theorem roundFriendly_nonpos (h : amount ≤ friendlyFrom strLower currency) :
    roundFriendly strLower amount currency ≤ 0 := by
  obtain hneg | hpos := le_or_gt amount 0
  · rw [roundFriendly_of_nonpos hneg]
  · unfold friendlyFrom at h
    unfold roundFriendly
    rw [if_neg (not_le.mpr hpos)]
    split at h
    next hzero =>
      have hstep : zeroDecimalStep amount = 10 := zeroDecimalStep_of_lt (by linarith)
      have hround : halfEven (amount / 10) = 0 := halfEven_eq_zero (by linarith) (by linarith)
      rw [if_pos hzero, hstep, hround, Int.cast_zero, zero_mul]
    next hzero =>
      rw [if_neg hzero, minOn_charmOptions hpos h]
      norm_num

/-- and no larger ones. -/
theorem roundFriendly_pos (h : friendlyFrom strLower currency < amount) :
    0 < roundFriendly strLower amount currency := by
  by_contra hnonpos
  unfold friendlyFrom at h
  split at h
  next hzero =>
    have hstep := zeroDecimalStep_pos amount
    have hmid := (nearest_multiples hzero (by linarith)).two_mul_le_add
      ⟨1, by rw [Int.cast_one, one_mul, add_zero]⟩ ((not_lt.mp hnonpos).trans_lt hstep)
    unfold zeroDecimalStep at hmid
    split at hmid <;> linarith
  next hzero =>
    have hnearest := nearest_charmPoints (Bool.not_eq_true _ ▸ hzero) (by linarith)
    obtain ⟨m, hm⟩ := hnearest.mem
    have hm0 : m ≤ 0 := by
      have hlt : (m : ℚ) < 1 := by linarith
      exact Int.lt_add_one_iff.mp (by exact_mod_cast hlt)
    have hbelow : (m : ℚ) ≤ 0 := by exact_mod_cast hm0
    have hmid := hnearest.two_mul_le_add (q := 49 / 100) ⟨1, by norm_num⟩ (by linarith)
    linarith

/-- `round_friendly` gives a nearest friendly price, and one above zero, exactly from the
amounts on where a friendly price is nearer than what lies below it. -/
theorem round_friendly_nearest_iff (strLower : String → String) (currency : String) (amount : ℚ) :
    (Nearest (friendlyPrices strLower currency amount) amount
        (roundFriendly strLower amount currency) ∧ 0 < roundFriendly strLower amount currency) ↔
      friendlyFrom strLower currency < amount := by
  constructor
  · rintro ⟨-, hpos⟩
    by_contra hle
    exact absurd (roundFriendly_nonpos (not_lt.mp hle)) (not_le.mpr hpos)
  · intro h
    have hresult := roundFriendly_pos h
    refine ⟨nearest_friendly ?_ hresult, hresult⟩
    by_contra hneg
    rw [roundFriendly_of_nonpos (not_lt.mp hneg)] at hresult
    exact lt_irrefl _ hresult

/-- Twenty cents. -/
theorem not_round_friendly_nearest :
    ¬ ∀ (currency : String) (amount : ℚ), 0 < amount →
      Nearest (friendlyPrices lower currency amount) amount (roundFriendly lower amount currency) ∧
        0 < roundFriendly lower amount currency := by
  intro h
  have hvalue : roundFriendly lower (1 / 5) "eur" = -1 / 100 := by decide +kernel
  have hpos := (h "eur" (1 / 5) (by norm_num)).2
  rw [hvalue] at hpos
  norm_num at hpos

end Friendly

/-! ## Dearer amounts -/

section Monotone

variable {strLower : String → String} {currency : String} {a b amount : ℚ}

/-- 1000 is a multiple of both steps. -/
theorem thousand_mem_lattice (amount : ℚ) : (1000 : ℚ) ∈ lattice (zeroDecimalStep amount) 0 := by
  unfold zeroDecimalStep
  split
  · exact ⟨10, by norm_num⟩
  · exact ⟨100, by norm_num⟩

theorem roundFriendly_mono (hpos : 0 < a) (hle : a ≤ b) :
    roundFriendly strLower a currency ≤ roundFriendly strLower b currency := by
  obtain rfl | hlt := hle.eq_or_lt
  · exact le_rfl
  have hposb : 0 < b := hpos.trans hlt
  cases hzero : isZeroDecimal strLower currency with
  | false => exact (nearest_charmPoints hzero hpos).mono (nearest_charmPoints hzero hposb) hlt
  | true =>
      have hnearest := nearest_multiples hzero hpos
      have hnearestb := nearest_multiples hzero hposb
      by_cases hstep : zeroDecimalStep a = zeroDecimalStep b
      · exact hnearest.mono (hstep ▸ hnearestb) hlt
      · -- the step changes between them, and neither result passes 1000
        have ha : a ≤ 1000 := by
          by_contra hlarge
          exact hstep (by rw [zeroDecimalStep_of_le (by linarith),
            zeroDecimalStep_of_le (by linarith)])
        have hb : 1000 ≤ b := by
          by_contra hsmall
          exact hstep (by rw [zeroDecimalStep_of_lt (by linarith),
            zeroDecimalStep_of_lt (by linarith)])
        exact (hnearest.le_of_le (thousand_mem_lattice a) ha).trans
          (hnearestb.ge_of_ge (thousand_mem_lattice b) hb)

/-- A result is a multiple of its own step: it may have reached 1000, where the step grows. -/
theorem mem_lattice_roundFriendly (hzero : isZeroDecimal strLower currency = true)
    (hpos : 0 < amount) :
    roundFriendly strLower amount currency ∈
      lattice (zeroDecimalStep (roundFriendly strLower amount currency)) 0 := by
  have hnearest := nearest_multiples hzero hpos
  have hmem := hnearest.mem
  obtain hlarge | hsmall := le_or_gt 1000 amount
  · have hresult := hnearest.ge_of_ge (thousand_mem_lattice amount) hlarge
    rwa [zeroDecimalStep_of_le hlarge, ← zeroDecimalStep_of_le hresult] at hmem
  · obtain heq | hlt := (hnearest.le_of_le (thousand_mem_lattice amount) hsmall.le).eq_or_lt
    · rw [heq]
      exact thousand_mem_lattice 1000
    · rwa [zeroDecimalStep_of_lt hsmall, ← zeroDecimalStep_of_lt hlt] at hmem

theorem roundFriendly_idem (h : friendlyFrom strLower currency < amount) (hpos : 0 < amount) :
    roundFriendly strLower (roundFriendly strLower amount currency) currency =
      roundFriendly strLower amount currency := by
  have hresult := roundFriendly_pos h
  cases hzero : isZeroDecimal strLower currency with
  | false => exact (nearest_charmPoints hzero hresult).eq_self (nearest_charmPoints hzero hpos).mem
  | true => exact (nearest_multiples hzero hresult).eq_self (mem_lattice_roundFriendly hzero hpos)

/-- The cents of a friendly price. -/
theorem toMinorUnits_roundFriendly (hzero : isZeroDecimal strLower currency = false)
    (hpos : 0 < amount) :
    toMinorUnits strLower (roundFriendly strLower amount currency) currency % 100 = 49 ∨
      toMinorUnits strLower (roundFriendly strLower amount currency) currency % 100 = 99 := by
  obtain ⟨m, hm⟩ := (nearest_charmPoints hzero hpos).mem
  have hcents : roundFriendly strLower amount currency * 100 = (50 * m - 1 : ℤ) := by
    rw [hm]
    push_cast
    ring
  have hminor : toMinorUnits strLower (roundFriendly strLower amount currency) currency =
      50 * m - 1 := by
    unfold toMinorUnits
    rw [if_neg (by rw [hzero]; exact Bool.false_ne_true), hcents, halfUp_intCast]
  rw [hminor]
  omega

/-- From where on the prices are compared. -/
def comparedFrom (strLower : String → String) (currency : String) : ℚ :=
  if isZeroDecimal strLower currency then 10 else 1

theorem friendlyFrom_lt (h : comparedFrom strLower currency ≤ amount) :
    friendlyFrom strLower currency < amount := by
  refine lt_of_lt_of_le ?_ h
  unfold comparedFrom friendlyFrom
  split <;> norm_num

theorem friendlyFrom_pos : 0 < friendlyFrom strLower currency := by
  unfold friendlyFrom
  split <;> norm_num

/-- Rounding keeps the order of amounts, rounds a result to itself, and leaves cents that
end in 49 or 99. -/
theorem round_friendly_monotone_idempotent (strLower : String → String) (currency : String)
    {a b : ℚ} (hfrom : comparedFrom strLower currency ≤ a) (hle : a ≤ b) :
    roundFriendly strLower a currency ≤ roundFriendly strLower b currency ∧
      roundFriendly strLower (roundFriendly strLower a currency) currency =
        roundFriendly strLower a currency ∧
      (isZeroDecimal strLower currency = false →
        toMinorUnits strLower (roundFriendly strLower a currency) currency % 100 = 49 ∨
          toMinorUnits strLower (roundFriendly strLower a currency) currency % 100 = 99) := by
  have hfriendly := friendlyFrom_lt hfrom
  have hpos : 0 < a := friendlyFrom_pos.trans hfriendly
  exact ⟨roundFriendly_mono hpos hle, roundFriendly_idem hfriendly hpos,
    fun hzero => toMinorUnits_roundFriendly hzero hpos⟩

/-- Between 998 and 1200 yen the step changes. -/
theorem round_friendly_monotone_idempotent_yen :
    roundFriendly lower 998 "jpy" ≤ roundFriendly lower 1200 "jpy" ∧
      roundFriendly lower (roundFriendly lower 998 "jpy") "jpy" = roundFriendly lower 998 "jpy" ∧
      (isZeroDecimal lower "jpy" = false →
        toMinorUnits lower (roundFriendly lower 998 "jpy") "jpy" % 100 = 49 ∨
          toMinorUnits lower (roundFriendly lower 998 "jpy") "jpy" % 100 = 99) :=
  round_friendly_monotone_idempotent lower "jpy"
    (by rw [comparedFrom, if_pos (by decide)]; norm_num) (by norm_num)

end Monotone

/-! ## The localized prices -/

section Localized

variable {strLower : String → String} {currency : String} {apiRates : String → Option ℚ}
  {amount amount' : ℤ} {rate : ℚ}

theorem toMinorUnits_mono {a b : ℚ} (h : a ≤ b) :
    toMinorUnits strLower a currency ≤ toMinorUnits strLower b currency := by
  unfold toMinorUnits
  apply halfUp_mono
  split <;> linarith

theorem formatAmount_mono (h : amount ≤ amount') :
    formatAmount strLower amount currency ≤ formatAmount strLower amount' currency := by
  have hcast : (amount : ℚ) ≤ amount' := by exact_mod_cast h
  unfold formatAmount
  split <;> linarith

theorem formatAmount_pos (h : 0 < amount) : 0 < formatAmount strLower amount currency := by
  have hcast : (0 : ℚ) < amount := by exact_mod_cast h
  unfold formatAmount
  split <;> linarith

theorem displayRates_of_rate (hrate : apiRates currency = some rate) (amount : ℤ) :
    displayRates strLower apiRates amount currency =
      some (toMinorUnits strLower
        (roundFriendly strLower (formatAmount strLower amount "usd" * rate) currency) currency) := by
  rw [displayRates, hrate, Option.map_some]

theorem lookup_computeNewAmounts_eq {rates : Int → String → Option Int} {newAmount : Int}
    (hcurrency : currency ∈ supportedCurrencies) (husd : currency ≠ "usd")
    (h : rates amount currency = some newAmount) :
    (computeNewAmounts rates amount).lookup currency = some newAmount := by
  apply lookup_computeNewAmounts
  unfold computeNewAmounts
  rw [List.mem_filterMap]
  exact ⟨currency, List.mem_filter.mpr ⟨hcurrency, decide_eq_true husd⟩, by rw [h, Option.map_some]⟩

/-- The dearer of two items is not the cheaper one in another currency. -/
theorem localizedAmounts_mono {amounts : CatalogItem → String → Option Int}
    {item item' : CatalogItem} (hcurrency : currency ∈ supportedCurrencies)
    (husd : currency ≠ "usd") (hrate : apiRates currency = some rate) (hpos : 0 < rate)
    (hamount : amounts item "usd" = some amount) (hamount' : amounts item' "usd" = some amount')
    (hamountPos : 0 < amount) (hle : amount ≤ amount') :
    ∃ local₁ local₂,
      localizedAmounts (some (displayRates strLower apiRates)) amounts item currency =
        some local₁ ∧
      localizedAmounts (some (displayRates strLower apiRates)) amounts item' currency =
        some local₂ ∧
      local₁ ≤ local₂ := by
  have hlocalized : ∀ {it : CatalogItem} {usd : ℤ}, amounts it "usd" = some usd →
      localizedAmounts (some (displayRates strLower apiRates)) amounts it currency =
        some (toMinorUnits strLower
          (roundFriendly strLower (formatAmount strLower usd "usd" * rate) currency) currency) := by
    intro it usd husdAmount
    rw [localizedAmounts, if_neg husd, Option.bind_some, husdAmount, Option.bind_some,
      lookup_computeNewAmounts_eq hcurrency husd (displayRates_of_rate hrate usd), Option.some_or]
  refine ⟨_, _, hlocalized hamount, hlocalized hamount', toMinorUnits_mono (roundFriendly_mono ?_ ?_)⟩
  · exact mul_pos (formatAmount_pos hamountPos) hpos
  · exact mul_le_mul_of_nonneg_right (formatAmount_mono hle) hpos.le

end Localized

end Saasmint
