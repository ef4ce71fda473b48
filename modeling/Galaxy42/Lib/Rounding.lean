import Mathlib.Data.Int.Log
import Mathlib.Data.Rat.Floor
import Mathlib.Tactic.Linarith
import Mathlib.Tactic.Ring

/-!
# Binary floating-point rounding

A number of floating point with `p` significant bits is `m * 2 ^ j` with `m < 2 ^ p`. `roundTo p x` is the
one nearest to `x`, and of two that are as near the one whose last bit is zero, as IEEE 754 prescribes for
the results of its operations: a `double` has 53 bits. Exponents are unbounded here, so what is said is
about numbers that neither overflow nor become subnormal.

Three facts carry what is computed with such numbers. A number that has the form is not rounded
(`roundTo_of_representable`), rounding keeps the order (`roundTo_le_roundTo`), and it changes a number by at
most its `2 ^ p`-th part (`roundTo_le_mul`). The results are about numbers that are not negative.

Everything is computed with rational numbers, so that a rounded quotient is a term that can be evaluated. The
order is the fact with an argument in it: two numbers between the same powers of two are rounded on one grid,
where it is the order of the nearest integers (`roundEven_le_roundEven`), and for two numbers with a power of
two between them it is enough that rounding does not pass that power. `truncate` is the conversion of such a
number to an integer type, which cuts off the digits behind the point.
-/

namespace Toolkit

/-! ### The nearest integer -/

/-- The nearest integer, and of two that are as near the even one. This is how floating-point arithmetic
rounds, unless it is told to do otherwise. -/
def roundEven (x : ℚ) : ℤ :=
  if Int.fract x < 1 / 2 then ⌊x⌋
  else if 1 / 2 < Int.fract x then ⌊x⌋ + 1
  else if Even ⌊x⌋ then ⌊x⌋ else ⌊x⌋ + 1

section RoundEven

variable {x y : ℚ}

theorem roundEven_eq_or (x : ℚ) : roundEven x = ⌊x⌋ ∨ roundEven x = ⌊x⌋ + 1 := by
  unfold roundEven
  split_ifs <;> simp

theorem floor_le_roundEven (x : ℚ) : ⌊x⌋ ≤ roundEven x := by
  rcases roundEven_eq_or x with h | h <;> omega

theorem roundEven_le_floor (x : ℚ) : roundEven x ≤ ⌊x⌋ + 1 := by
  rcases roundEven_eq_or x with h | h <;> omega

@[simp] theorem roundEven_intCast (n : ℤ) : roundEven n = n := by
  rw [roundEven, Int.fract_intCast, if_pos (by norm_num), Int.floor_intCast]

theorem roundEven_le_roundEven (h : x ≤ y) : roundEven x ≤ roundEven y := by
  rcases (Int.floor_le_floor h).lt_or_eq with hlt | heq
  · exact (roundEven_le_floor x).trans (hlt.trans_le (floor_le_roundEven y))
  · have hfract : Int.fract x ≤ Int.fract y := by
      rw [Int.fract, Int.fract, heq]
      linarith
    unfold roundEven
    rw [heq]
    split_ifs <;> first | omega | linarith

/-- The nearest integer is at most one half away. -/
theorem roundEven_le_add_half (x : ℚ) : (roundEven x : ℚ) ≤ x + 1 / 2 := by
  have hfract : (⌊x⌋ : ℚ) + Int.fract x = x := Int.floor_add_fract x
  have hnonneg := Int.fract_nonneg x
  unfold roundEven
  split_ifs <;> push_cast <;> linarith

end RoundEven

/-! ### Numbers with a given number of bits -/

/-- The logarithm of the distance between numbers of `p` bits near `x`. Numbers between two powers of two have
the same distance. -/
def spacing (p : ℕ) (x : ℚ) : ℤ := Int.log 2 |x| + 1 - p

/-- The nearest number of `p` bits. There is no smallest and no largest exponent here. -/
def roundTo (p : ℕ) (x : ℚ) : ℚ := roundEven (x / 2 ^ spacing p x) * 2 ^ spacing p x

section RoundTo

variable {p : ℕ} {x y : ℚ}

@[simp] theorem roundTo_zero (p : ℕ) : roundTo p 0 = 0 := by
  have hzero : roundEven 0 = 0 := roundEven_intCast 0
  rw [roundTo, zero_div, hzero, Int.cast_zero, zero_mul]

/-- A number that has an integral quotient by the distance is not rounded. -/
private theorem roundTo_of_mul {n : ℤ} (h : x = n * 2 ^ spacing p x) : roundTo p x = x := by
  have hpos : (0 : ℚ) < 2 ^ spacing p x := zpow_pos two_pos _
  have hquotient : x / 2 ^ spacing p x = n := by
    rw [div_eq_iff hpos.ne']
    exact h
  rw [roundTo, hquotient, roundEven_intCast, ← h]

/-- A number of `p` bits is not rounded. The exponent may be negative. -/
theorem roundTo_of_representable {m : ℕ} (hm : m < 2 ^ p) (j : ℤ) :
    roundTo p (m * 2 ^ j) = m * 2 ^ j := by
  rcases Nat.eq_zero_or_pos m with rfl | hpos
  · rw [Nat.cast_zero, zero_mul, roundTo_zero]
  · have hm' : (0 : ℚ) < m := Nat.cast_pos.mpr hpos
    have hx : (0 : ℚ) < m * 2 ^ j := mul_pos hm' (zpow_pos two_pos _)
    have hlt : (m * 2 ^ j : ℚ) < 2 ^ (p + j : ℤ) := by
      rw [zpow_add₀ two_ne_zero, zpow_natCast]
      exact mul_lt_mul_of_pos_right (by exact_mod_cast hm) (zpow_pos two_pos _)
    have hlog : Int.log 2 (m * 2 ^ j : ℚ) < p + j := (Int.lt_zpow_iff_log_lt one_lt_two hx).mp hlt
    have hspacing : spacing p (m * 2 ^ j) ≤ j := by
      rw [spacing, abs_of_pos hx]
      omega
    -- The number is an integral multiple of the distance, which is a smaller power of two.
    refine roundTo_of_mul (n := m * 2 ^ (j - spacing p (m * 2 ^ j)).toNat) ?_
    push_cast
    rw [mul_assoc, ← zpow_natCast, ← zpow_add₀ two_ne_zero]
    congr 2
    omega

/-- Small natural numbers are not rounded. -/
theorem roundTo_natCast {n : ℕ} (h : n < 2 ^ p) : roundTo p n = n := by
  simpa using roundTo_of_representable h 0

theorem roundTo_nonneg (h : 0 ≤ x) : 0 ≤ roundTo p x := by
  have hquotient : 0 ≤ x / 2 ^ spacing p x := div_nonneg h (zpow_nonneg two_pos.le _)
  have hround : 0 ≤ roundEven (x / 2 ^ spacing p x) :=
    (Int.floor_nonneg.mpr hquotient).trans (floor_le_roundEven _)
  exact mul_nonneg (Int.cast_nonneg hround) (zpow_nonneg two_pos.le _)

/-- Rounding does not pass the next power of two. -/
private theorem roundTo_le_zpow (hx : 0 < x) : roundTo p x ≤ 2 ^ (Int.log 2 x + 1) := by
  have hpos : (0 : ℚ) < 2 ^ spacing p x := zpow_pos two_pos _
  have hpower : (2 : ℚ) ^ (Int.log 2 x + 1) = 2 ^ p * 2 ^ spacing p x := by
    rw [← zpow_natCast, ← zpow_add₀ two_ne_zero, spacing, abs_of_pos hx]
    congr 1
    omega
  have hquotient : x / 2 ^ spacing p x ≤ ((2 ^ p : ℤ) : ℚ) := by
    rw [div_le_iff₀ hpos]
    push_cast
    rw [← hpower]
    exact (Int.lt_zpow_succ_log_self one_lt_two x).le
  have hround := roundEven_le_roundEven hquotient
  rw [roundEven_intCast] at hround
  rw [hpower, roundTo]
  refine mul_le_mul_of_nonneg_right ?_ hpos.le
  exact_mod_cast hround

/-- Rounding does not pass the power of two before. -/
private theorem zpow_le_roundTo (hp : 1 ≤ p) (hx : 0 < x) : 2 ^ Int.log 2 x ≤ roundTo p x := by
  have hpos : (0 : ℚ) < 2 ^ spacing p x := zpow_pos two_pos _
  have hpower : (2 : ℚ) ^ Int.log 2 x = 2 ^ (p - 1) * 2 ^ spacing p x := by
    rw [← zpow_natCast, ← zpow_add₀ two_ne_zero, spacing, abs_of_pos hx]
    congr 1
    omega
  have hquotient : ((2 ^ (p - 1) : ℤ) : ℚ) ≤ x / 2 ^ spacing p x := by
    rw [le_div_iff₀ hpos]
    push_cast
    rw [← hpower]
    exact Int.zpow_log_le_self one_lt_two hx
  have hround := roundEven_le_roundEven hquotient
  rw [roundEven_intCast] at hround
  rw [hpower, roundTo]
  refine mul_le_mul_of_nonneg_right ?_ hpos.le
  exact_mod_cast hround

/-- Rounding keeps the order. -/
theorem roundTo_le_roundTo (hp : 1 ≤ p) (hx : 0 ≤ x) (h : x ≤ y) : roundTo p x ≤ roundTo p y := by
  rcases hx.eq_or_lt with rfl | hx
  · rw [roundTo_zero]
    exact roundTo_nonneg h
  have hy : 0 < y := hx.trans_le h
  rcases (Int.log_mono_right hx h : Int.log 2 x ≤ Int.log 2 y).lt_or_eq with hlt | heq
  · -- A power of two lies between the numbers.
    calc roundTo p x ≤ 2 ^ (Int.log 2 x + 1) := roundTo_le_zpow hx
      _ ≤ 2 ^ Int.log 2 y := zpow_le_zpow_right₀ one_le_two hlt
      _ ≤ roundTo p y := zpow_le_roundTo hp hy
  · have hspacing : spacing p x = spacing p y := by
      rw [spacing, spacing, abs_of_pos hx, abs_of_pos hy, heq]
    have hpos : (0 : ℚ) < 2 ^ spacing p y := zpow_pos two_pos _
    rw [roundTo, roundTo, hspacing]
    refine mul_le_mul_of_nonneg_right (Int.cast_le.mpr (roundEven_le_roundEven ?_)) hpos.le
    exact div_le_div_of_nonneg_right h hpos.le

/-- Rounding adds at most the `2 ^ p`-th part. -/
theorem roundTo_le_mul (hx : 0 ≤ x) : roundTo p x ≤ x * (1 + 1 / 2 ^ p) := by
  rcases hx.eq_or_lt with rfl | hx
  · rw [roundTo_zero, zero_mul]
  have hpos : (0 : ℚ) < 2 ^ spacing p x := zpow_pos two_pos _
  have hhalf : (2 : ℚ) ^ spacing p x / 2 = 2 ^ Int.log 2 x / 2 ^ p := by
    rw [spacing, abs_of_pos hx, zpow_sub₀ two_ne_zero, zpow_add₀ two_ne_zero, zpow_one, zpow_natCast]
    ring
  have hlog : (2 : ℚ) ^ Int.log 2 x ≤ x := Int.zpow_log_le_self one_lt_two hx
  calc roundTo p x ≤ (x / 2 ^ spacing p x + 1 / 2) * 2 ^ spacing p x :=
        mul_le_mul_of_nonneg_right (roundEven_le_add_half _) hpos.le
    _ = x + 2 ^ Int.log 2 x / 2 ^ p := by
        rw [← hhalf, add_mul, div_mul_cancel₀ _ hpos.ne']
        ring
    _ ≤ x + x / 2 ^ p := by
        have hpow : (0 : ℚ) < 2 ^ p := pow_pos two_pos p
        have hdiv := div_le_div_of_nonneg_right hlog hpow.le
        linarith
    _ = x * (1 + 1 / 2 ^ p) := by ring

end RoundTo

/-! ### Cutting off -/

/-- The integer without the digits after the point. A negative number is rounded up by it. -/
def truncate (x : ℚ) : ℤ := x.num.tdiv x.den

theorem truncate_of_nonneg {x : ℚ} (h : 0 ≤ x) : truncate x = ⌊x⌋ := by
  rw [truncate, Int.tdiv_eq_ediv_of_nonneg (Rat.num_nonneg.mpr h), Rat.floor_def']

end Toolkit
