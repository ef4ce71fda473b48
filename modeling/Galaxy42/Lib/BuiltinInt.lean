import Mathlib.Algebra.Order.Ring.Int
import Mathlib.Tactic.Common
import Mathlib.Tactic.Positivity
import Mathlib.Tactic.Ring

/-!
# Built-in integers

The integer types of C and C++, with any number of digits: their values (`Number`), the conversions
between them, and the operators, which promote narrow operands to `int` and convert both operands to one
type before they do anything (`common`). A result of an unsigned type is reduced; one of a signed type that
does not fit is undefined.

An operator is exact on operands that keep their values (`Agree`: both signed, or neither negative) when
the result fits the common type (`add_eq`, `sub_eq`), and so are the comparisons (`less_eq`, `equal_eq`).

A `Number` carries the proof that its value fits its type, so that no statement has to ask for it, and a
conversion has to say what it does with a value that does not fit (`convert`). A type is given by its sign
and its number of digits; `bool` is one of its own, since a conversion to it asks whether the value is
zero. The width of `int` is a constant (`int`), and all that is used of it is which types are promoted.

The comparison of a negative number with an unsigned one is the trap in all this: the negative operand is
converted first. It is exactly what `Agree` leaves out, and all results about operators are stated with it.
-/

namespace Toolkit

/-- What an integer type can hold: two values, or so many digits in base two, with or without a sign. The
digits may be any number of them, so the results are about all integer types of a machine, and about others. -/
inductive IntType where
  | bool
  | signed (digits : ℕ)
  | unsigned (digits : ℕ)
  deriving DecidableEq

namespace IntType

/-- `is_signed` -/
def isSigned : IntType → Bool
  | signed _ => true
  | _ => false

/-- `numeric_limits::digits` -/
def digits : IntType → ℕ
  | bool => 1
  | signed digits => digits
  | unsigned digits => digits

/-- `numeric_limits::min` -/
def min (T : IntType) : ℤ := if T.isSigned then -2 ^ T.digits else 0

/-- `numeric_limits::max` -/
def max (T : IntType) : ℤ := 2 ^ T.digits - 1

/-- The number is a value of the type. A type without a sign holds no negative number, whatever its digits. -/
def Holds (T : IntType) (x : ℤ) : Prop := T.min ≤ x ∧ x ≤ T.max

instance (T : IntType) (x : ℤ) : Decidable (T.Holds x) := inferInstanceAs (Decidable (_ ∧ _))

/-- The type `int`. -/
abbrev int : IntType := signed 31

/-- The type to which a value is promoted. Types that are not wider than `int` become `int`, whether they have
a sign or not. -/
def promote (T : IntType) : IntType := if T.digits ≤ int.digits then int else T

/-- The type to which the operands of an operator are converted: of two types with or without a sign the
wider one, else the one with a sign if it holds all values of the other. -/
def common (T U : IntType) : IntType :=
  if T.promote.isSigned = U.promote.isSigned ∨ T.promote.isSigned then
    if U.promote.digits ≤ T.promote.digits then T.promote else U.promote
  else if T.promote.digits ≤ U.promote.digits then U.promote else T.promote

end IntType

open IntType

/-- A value of an integer type. That the type holds the number is part of it, so no value is out of range. -/
@[ext] structure Number (T : IntType) where
  val : ℤ
  holds : T.Holds val
  deriving DecidableEq

namespace IntType

variable {T U : IntType} {x : ℤ}

theorem two_pow_le {d e : ℕ} (h : d ≤ e) : (2 : ℤ) ^ d ≤ 2 ^ e := pow_le_pow_right₀ (by norm_num) h

theorem holds_zero (T : IntType) : T.Holds 0 := by
  have hpow : (0 : ℤ) < 2 ^ T.digits := by positivity
  rw [Holds, min, max]
  split_ifs <;> omega

theorem nonneg_of_holds (hT : T.isSigned = false) (h : T.Holds x) : 0 ≤ x := by
  rw [Holds, min, hT] at h
  exact h.1

/-- A wider type holds all values that are not negative, and the others if it has a sign. -/
theorem Holds.mono (h : T.Holds x) (hdigits : T.digits ≤ U.digits) (hsign : 0 ≤ x ∨ U.isSigned = true) :
    U.Holds x := by
  have hpow := two_pow_le hdigits
  simp only [Holds, min, max] at h ⊢
  rcases hsign with hx | hU
  · have hU : (if U.isSigned = true then -2 ^ U.digits else 0 : ℤ) ≤ 0 := by
      split_ifs
      · exact neg_nonpos.mpr (by positivity)
      · exact le_refl 0
    omega
  · rw [if_pos hU]
    split_ifs at h <;> omega

theorem digits_le_promote (T : IntType) : T.digits ≤ T.promote.digits := by
  unfold promote
  split_ifs with h
  · exact h
  · exact le_refl _

theorem isSigned_promote (h : T.isSigned = true) : T.promote.isSigned = true := by
  unfold promote
  split_ifs
  · rfl
  · exact h

theorem digits_le_common (T U : IntType) :
    T.digits ≤ (common T U).digits ∧ U.digits ≤ (common T U).digits := by
  have hT := digits_le_promote T
  have hU := digits_le_promote U
  unfold common
  split_ifs <;> omega

theorem isSigned_common (hT : T.isSigned = true) (hU : U.isSigned = true) :
    (common T U).isSigned = true := by
  have hT := isSigned_promote hT
  have hU := isSigned_promote hU
  unfold common
  split_ifs <;> assumption

/-- A number as a value of a type: whether it is not zero, or what is left modulo a power of two. A number
that the type holds is not changed, see `convert_of_holds`. -/
def convert (T : IntType) (x : ℤ) : Number T :=
  match T with
  | bool => ⟨if x = 0 then 0 else 1, by split_ifs <;> decide⟩
  | signed digits => ⟨x.bmod (2 ^ (digits + 1)), by
      have hpow : (0 : ℤ) < 2 ^ digits := by positivity
      have hhalf : ((2 ^ (digits + 1) : ℕ) : ℤ) = 2 * 2 ^ digits := by push_cast; ring
      have hle := @Int.le_bmod x (2 ^ (digits + 1)) (by positivity)
      have hlt := @Int.bmod_lt x (2 ^ (digits + 1)) (by positivity)
      rw [hhalf] at hle hlt
      simp only [Holds, min, max, isSigned, if_true, IntType.digits]
      omega⟩
  | unsigned digits => ⟨x % 2 ^ digits, by
      have hpow : (0 : ℤ) < 2 ^ digits := by positivity
      have hle := Int.emod_nonneg x hpow.ne'
      have hlt := Int.emod_lt_of_pos x hpow
      simp only [Holds, min, max, isSigned, IntType.digits]
      exact ⟨hle, by omega⟩⟩

/-- A value of the type stays as it is. -/
theorem convert_of_holds (h : T.Holds x) : T.convert x = ⟨x, h⟩ := by
  refine Number.ext ?_
  cases T with
  | bool =>
    obtain ⟨hlow, hhigh⟩ := h
    change (0 : ℤ) ≤ x at hlow
    change x ≤ 1 at hhigh
    change (if x = 0 then 0 else 1 : ℤ) = x
    split_ifs <;> omega
  | signed digits =>
    have hhalf : ((2 ^ (digits + 1) : ℕ) : ℤ) = 2 * 2 ^ digits := by push_cast; ring
    simp only [Holds, min, max, isSigned, if_true, IntType.digits] at h
    exact Int.bmod_eq_of_le (by rw [hhalf]; omega) (by rw [hhalf]; omega)
  | unsigned digits =>
    obtain ⟨hlow, hhigh⟩ := h
    change (0 : ℤ) ≤ x at hlow
    change x ≤ 2 ^ digits - 1 at hhigh
    exact Int.emod_eq_of_lt hlow (by omega)

/-- A result of an operation on values of one type. A type with a sign has no result where it does not hold
the exact one, which is overflow. Without a sign the result is what is left modulo a power of two. -/
def ofExact (T : IntType) (x : ℤ) : Option (Number T) :=
  if T.isSigned then if h : T.Holds x then some ⟨x, h⟩ else none
  else some (T.convert x)

theorem ofExact_of_holds (h : T.Holds x) : T.ofExact x = some ⟨x, h⟩ := by
  unfold ofExact
  split_ifs
  · rfl
  · rw [convert_of_holds h]

end IntType

namespace Number

variable {T U : IntType}

/-! ### The operators -/

/-- The literal `0`. -/
def zero : Number int := ⟨0, holds_zero int⟩

/-- `numeric_limits::min` as a value. -/
def min (T : IntType) : Number T := ⟨T.min, le_refl _, (holds_zero T).1.trans (holds_zero T).2⟩

/-- `numeric_limits::max` as a value. -/
def max (T : IntType) : Number T := ⟨T.max, (holds_zero T).1.trans (holds_zero T).2, le_refl _⟩

/-- An operand as a value of the common type. A negative operand changes its value here when the common type
has no sign. -/
def operand (V : IntType) (a : Number T) : ℤ := (V.convert a.val).val

/-- `a + b` -/
def add (a : Number T) (b : Number U) : Option (Number (common T U)) :=
  (common T U).ofExact (a.operand (common T U) + b.operand (common T U))

/-- `a - b` -/
def sub (a : Number T) (b : Number U) : Option (Number (common T U)) :=
  (common T U).ofExact (a.operand (common T U) - b.operand (common T U))

/-- `a < b`. The operands are converted first, so a negative one may come out as large. -/
def less (a : Number T) (b : Number U) : Bool :=
  decide (a.operand (common T U) < b.operand (common T U))

/-- `a > b` -/
def greater (a : Number T) (b : Number U) : Bool :=
  decide (a.operand (common T U) > b.operand (common T U))

/-- `a == b` -/
def equal (a : Number T) (b : Number U) : Bool :=
  decide (a.operand (common T U) = b.operand (common T U))

/-! ### Where they are exact -/

/-- Both operands keep their values: the types have a sign, or the operands are not negative. In these cases
sums, differences and comparisons are those of the numbers. -/
def Agree (a : Number T) (b : Number U) : Prop :=
  T.isSigned = true ∧ U.isSigned = true ∨ 0 ≤ a.val ∧ 0 ≤ b.val

variable {a : Number T} {b : Number U}

theorem operand_eq {V : IntType} (hdigits : T.digits ≤ V.digits)
    (hsign : 0 ≤ a.val ∨ V.isSigned = true) : a.operand V = a.val := by
  rw [operand, convert_of_holds (a.holds.mono hdigits hsign)]

theorem Agree.operand_left (h : Agree a b) : a.operand (common T U) = a.val := by
  refine operand_eq (digits_le_common T U).1 ?_
  rcases h with ⟨hT, hU⟩ | ⟨ha, -⟩
  · exact .inr (isSigned_common hT hU)
  · exact .inl ha

theorem Agree.operand_right (h : Agree a b) : b.operand (common T U) = b.val := by
  refine operand_eq (digits_le_common T U).2 ?_
  rcases h with ⟨hT, hU⟩ | ⟨-, hb⟩
  · exact .inr (isSigned_common hT hU)
  · exact .inl hb

theorem agree_of_isSigned_eq (h : T.isSigned = U.isSigned) (a : Number T) (b : Number U) : Agree a b := by
  cases hT : T.isSigned with
  | true => exact .inl ⟨hT, h ▸ hT⟩
  | false => exact .inr ⟨nonneg_of_holds hT a.holds, nonneg_of_holds (h ▸ hT) b.holds⟩

theorem agree_zero (a : Number T) : Agree a zero := by
  cases hT : T.isSigned with
  | true => exact .inl ⟨hT, rfl⟩
  | false => exact .inr ⟨nonneg_of_holds hT a.holds, le_refl 0⟩

theorem add_eq (h : Agree a b) (hfits : (common T U).Holds (a.val + b.val)) :
    a.add b = some ⟨a.val + b.val, hfits⟩ := by
  rw [← ofExact_of_holds hfits, add, h.operand_left, h.operand_right]

theorem sub_eq (h : Agree a b) (hfits : (common T U).Holds (a.val - b.val)) :
    a.sub b = some ⟨a.val - b.val, hfits⟩ := by
  rw [← ofExact_of_holds hfits, sub, h.operand_left, h.operand_right]

theorem less_eq (h : Agree a b) : a.less b = decide (a.val < b.val) := by
  rw [less, h.operand_left, h.operand_right]

theorem greater_eq (h : Agree a b) : a.greater b = decide (b.val < a.val) := by
  rw [greater, h.operand_left, h.operand_right]

theorem equal_eq (h : Agree a b) : a.equal b = decide (a.val = b.val) := by
  rw [equal, h.operand_left, h.operand_right]

end Number

end Toolkit
