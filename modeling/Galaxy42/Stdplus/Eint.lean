import Galaxy42.Lib.BuiltinInt

/-!
# Sums, differences and comparisons of built-in integers

The functions of `stdplus::eint`. A sum or a difference is tested before it is calculated, by an expression
that is itself calculated with the operators of the language. Values of two types are compared after one of
them was converted to the type of the other, depending on which has more digits.

For all integer types, `eint_plus` and `eint_minus` return the exact result, or throw when it is no value of
the type; and `eint_less`, `eint_equal` and `eint_greater` compare the numbers (`eintExact`). Nothing is
undefined on the way, and promotions change nothing.

A type is given by its number of digits and whether it has a sign (`Lib.BuiltinInt`), so the templates are
functions of a type, and one proof is about all of their instances. What is undefined in the language, the
overflow of a type with a sign, is `none` there, and the functions are shown never to give it.

In the test of a sum the bound is a difference, and in that of a difference a sum. Which bound is computed
depends on the sign of an operand, and the one that is does not overflow in its own type
(`less_bound_eq`, `greater_bound_eq`). The three versions of each comparison have a common form
(`compareBySign`): they are exact because a value that is not negative keeps its value in a wider type.
-/

namespace Galaxy42

open Toolkit

/-- `std::range_error` -/
structure RangeError where
  /-- `what` -/
  what : String
  deriving DecidableEq

/-- A built-in integer type, with its `typeid` and how a stream writes its values. -/
structure IntegralType where
  type : IntType
  name : String
  write : Number type → String

namespace Eint

/-! ### Sums and differences -/

section

variable (T : IntegralType) (a b : Number T.type)

/-- The test of `eint_minus`. What is compared with `a` is a bound that `b` gives, so that nothing overflows
in the test itself. -/
def minusIsOverflow : Option Bool :=
  if b.less .zero then do
    let bound ← (Number.max T.type).add b
    return bound.less a
  else if b.greater .zero then do
    let bound ← (Number.min T.type).add b
    return bound.greater a
  else return false

/-- `eint_minus`, which returns or throws when nothing is undefined. The text of the exception has both
operands. -/
def eintMinus : Option (Except RangeError (Number T.type)) := do
  let isOverflow ← minusIsOverflow T a b
  if isOverflow then
    return .error ⟨s!"Math error when calculating ({T.write a} - {T.write b}) for T={T.name}"⟩
  let diff ← a.sub b
  return .ok (T.type.convert diff.val)

/-- The test of `eint_plus`. The bound is what the greatest or the least value leaves beside `a`. -/
def plusIsOverflow : Option Bool :=
  if a.greater .zero then do
    let bound ← (Number.max T.type).sub a
    return bound.less b
  else if a.less .zero then do
    let bound ← (Number.min T.type).sub a
    return bound.greater b
  else return false

/-- `eint_plus`, which returns or throws when nothing is undefined. -/
def eintPlus : Option (Except RangeError (Number T.type)) := do
  let isOverflow ← plusIsOverflow T a b
  if isOverflow then
    return .error ⟨s!"Math error when calculating ({T.write a} + {T.write b}) for T={T.name}"⟩
  let sum ← a.add b
  return .ok (T.type.convert sum.val)

end

/-! ### Comparisons -/

section

variable {T U : IntType} (a : Number T) (b : Number U)

/-- The three versions of a comparison: for a type without and one with a sign, for the other order, and for
two types of one kind. -/
def compareBySign (op : ∀ {V W : IntType}, Number V → Number W → Bool) (ifLeftNegative : Bool) : Bool :=
  if ¬ T.isSigned ∧ U.isSigned then
    if b.less .zero then false
    else if T.digits ≥ U.digits then op a (T.convert b.val)
    else op (U.convert a.val) b
  else if T.isSigned ∧ ¬ U.isSigned then
    if a.less .zero then ifLeftNegative
    else if U.digits ≥ T.digits then op (U.convert a.val) b
    else op a (T.convert b.val)
  else op a b

/-- `eint_less` -/
def eintLess : Bool := compareBySign a b Number.less true

/-- `eint_equal` -/
def eintEqual : Bool := compareBySign a b Number.equal false

/-- `eint_greater`. It is what is neither less nor equal. -/
def eintGreater : Bool := !(eintLess a b || eintEqual a b)

end

/-! ### The tests -/

section

variable {T : IntegralType} {a b : Number T.type}

/-- A value of a type is one of the type it is promoted to. -/
theorem holds_common {x : ℤ} (h : T.type.Holds x) : (IntType.common T.type T.type).Holds x := by
  refine h.mono (IntType.digits_le_common T.type T.type).1 ?_
  cases hT : T.type.isSigned with
  | true => exact .inr (IntType.isSigned_common hT hT)
  | false => exact .inl (IntType.nonneg_of_holds hT h)

/-- A bound that is a value of the type is compared exactly, though its own type is another. -/
theorem agree_bound {bound : Number (IntType.common T.type T.type)} (h : T.type.Holds bound.val) :
    bound.Agree a := by
  cases hT : T.type.isSigned with
  | true => exact .inl ⟨IntType.isSigned_common hT hT, hT⟩
  | false => exact .inr ⟨IntType.nonneg_of_holds hT h, IntType.nonneg_of_holds hT a.holds⟩

/-- A bound that is computed without overflow is passed by the values above it. -/
theorem less_bound_eq {x : ℤ} {computed : Option (Number (IntType.common T.type T.type))}
    (h : T.type.Holds x) (hcomputed : computed = some ⟨x, holds_common h⟩) :
    (do
      let bound ← computed
      return bound.less a) = some (decide (x < a.val)) := by
  rw [hcomputed]
  exact congrArg some (Number.less_eq (agree_bound h))

/-- A bound that is computed without overflow is passed by the values below it. -/
theorem greater_bound_eq {x : ℤ} {computed : Option (Number (IntType.common T.type T.type))}
    (h : T.type.Holds x) (hcomputed : computed = some ⟨x, holds_common h⟩) :
    (do
      let bound ← computed
      return bound.greater a) = some (decide (a.val < x)) := by
  rw [hcomputed]
  exact congrArg some (Number.greater_eq (agree_bound h))

private theorem minusIsOverflow_eq :
    minusIsOverflow T a b = some (decide ¬ T.type.Holds (a.val - b.val)) := by
  have ha : T.type.min ≤ a.val ∧ a.val ≤ T.type.max := a.holds
  have hb : T.type.min ≤ b.val ∧ b.val ≤ T.type.max := b.holds
  have hzero : T.type.min ≤ 0 ∧ 0 ≤ T.type.max := T.type.holds_zero
  rw [minusIsOverflow, Number.less_eq b.agree_zero, Number.greater_eq b.agree_zero]
  change (if decide (b.val < 0) = true then _ else if decide (0 < b.val) = true then _ else _) = _
  rcases lt_trichotomy b.val 0 with hneg | hb0 | hpos
  · -- only the maximum can be passed
    have hbound : T.type.Holds (T.type.max + b.val) := ⟨by omega, by omega⟩
    have hadd := Number.add_eq (Number.agree_of_isSigned_eq rfl (Number.max T.type) b)
      (holds_common hbound)
    rw [if_pos (decide_eq_true hneg), less_bound_eq hbound hadd]
    refine congrArg some (decide_eq_decide.mpr ?_)
    rw [IntType.Holds]
    omega
  · simp only [hb0, lt_irrefl, decide_false, Bool.false_eq_true, if_false, sub_zero]
    simp [a.holds]
  · -- only the minimum can be passed
    have hbound : T.type.Holds (T.type.min + b.val) := ⟨by omega, by omega⟩
    have hadd := Number.add_eq (Number.agree_of_isSigned_eq rfl (Number.min T.type) b)
      (holds_common hbound)
    rw [if_neg (by simpa using hpos.le), if_pos (decide_eq_true hpos), greater_bound_eq hbound hadd]
    refine congrArg some (decide_eq_decide.mpr ?_)
    rw [IntType.Holds]
    omega

private theorem plusIsOverflow_eq : plusIsOverflow T a b = some (decide ¬ T.type.Holds (a.val + b.val)) := by
  have ha : T.type.min ≤ a.val ∧ a.val ≤ T.type.max := a.holds
  have hb : T.type.min ≤ b.val ∧ b.val ≤ T.type.max := b.holds
  have hzero : T.type.min ≤ 0 ∧ 0 ≤ T.type.max := T.type.holds_zero
  rw [plusIsOverflow, Number.less_eq a.agree_zero, Number.greater_eq a.agree_zero]
  change (if decide (0 < a.val) = true then _ else if decide (a.val < 0) = true then _ else _) = _
  rcases lt_trichotomy a.val 0 with hneg | ha0 | hpos
  · have hbound : T.type.Holds (T.type.min - a.val) := ⟨by omega, by omega⟩
    have hsub := Number.sub_eq (Number.agree_of_isSigned_eq rfl (Number.min T.type) a)
      (holds_common hbound)
    rw [if_neg (by simpa using hneg.le), if_pos (decide_eq_true hneg), greater_bound_eq hbound hsub]
    refine congrArg some (decide_eq_decide.mpr ?_)
    rw [IntType.Holds]
    omega
  · simp only [ha0, lt_irrefl, decide_false, Bool.false_eq_true, if_false, zero_add]
    simp [b.holds]
  · have hbound : T.type.Holds (T.type.max - a.val) := ⟨by omega, by omega⟩
    have hsub := Number.sub_eq (Number.agree_of_isSigned_eq rfl (Number.max T.type) a)
      (holds_common hbound)
    rw [if_pos (decide_eq_true hpos), less_bound_eq hbound hsub]
    refine congrArg some (decide_eq_decide.mpr ?_)
    rw [IntType.Holds]
    omega

private theorem eintMinus_eq : eintMinus T a b =
    if h : T.type.Holds (a.val - b.val) then some (.ok ⟨a.val - b.val, h⟩)
    else some (.error
      ⟨s!"Math error when calculating ({T.write a} - {T.write b}) for T={T.name}"⟩) := by
  rw [eintMinus, minusIsOverflow_eq, Option.bind_eq_bind, Option.bind_some]
  by_cases h : T.type.Holds (a.val - b.val)
  · have hsub := Number.sub_eq (Number.agree_of_isSigned_eq rfl a b) (holds_common h)
    rw [dif_pos h, if_neg (by simpa using h), hsub, Option.bind_eq_bind, Option.bind_some,
       IntType.convert_of_holds h]
    rfl
  · rw [dif_neg h, if_pos (by simpa using h)]
    rfl

private theorem eintPlus_eq : eintPlus T a b =
    if h : T.type.Holds (a.val + b.val) then some (.ok ⟨a.val + b.val, h⟩)
    else some (.error
      ⟨s!"Math error when calculating ({T.write a} + {T.write b}) for T={T.name}"⟩) := by
  rw [eintPlus, plusIsOverflow_eq, Option.bind_eq_bind, Option.bind_some]
  by_cases h : T.type.Holds (a.val + b.val)
  · have hadd := Number.add_eq (Number.agree_of_isSigned_eq rfl a b) (holds_common h)
    rw [dif_pos h, if_neg (by simpa using h), hadd, Option.bind_eq_bind, Option.bind_some,
       IntType.convert_of_holds h]
    rfl
  · rw [dif_neg h, if_pos (by simpa using h)]
    rfl

end

/-! ### Both kinds of types -/

section

variable {T U : IntType} {a : Number T} {b : Number U}

/-- A comparison that is exact where both operands keep their values is made exact. -/
theorem compareBySign_eq {op : ∀ {V W : IntType}, Number V → Number W → Bool} {ifLeftNegative : Bool}
    {R : ℤ → ℤ → Prop} [DecidableRel R]
    (hop : ∀ {V W : IntType} {a : Number V} {b : Number W}, a.Agree b → op a b = decide (R a.val b.val))
    (hright : ∀ x y, 0 ≤ x → y < 0 → ¬ R x y)
    (hleft : ∀ x y, x < 0 → 0 ≤ y → (R x y ↔ ifLeftNegative = true)) :
    compareBySign a b op ifLeftNegative = decide (R a.val b.val) := by
  have hless : ∀ {V : IntType} (c : Number V), c.less .zero = decide (c.val < 0) := fun c =>
    Number.less_eq c.agree_zero
  -- a value that is not negative is one of every type with as many digits
  have htoT : 0 ≤ b.val → U.digits ≤ T.digits → op a (T.convert b.val) = decide (R a.val b.val) := by
    intro hb hdigits
    rw [IntType.convert_of_holds (b.holds.mono hdigits (.inl hb)), hop (Number.agree_of_isSigned_eq rfl _ _)]
  have htoU : 0 ≤ a.val → T.digits ≤ U.digits → op (U.convert a.val) b = decide (R a.val b.val) := by
    intro ha hdigits
    rw [IntType.convert_of_holds (a.holds.mono hdigits (.inl ha)), hop (Number.agree_of_isSigned_eq rfl _ _)]
  rw [compareBySign, hless, hless]
  cases hT : T.isSigned <;> cases hU : U.isSigned
  · exact hop (Number.agree_of_isSigned_eq (hT.trans hU.symm) a b)
  · have ha := IntType.nonneg_of_holds hT a.holds
    rw [if_pos ⟨Bool.false_ne_true, rfl⟩]
    by_cases hb : b.val < 0
    · rw [if_pos (decide_eq_true hb), decide_eq_false (hright _ _ ha hb)]
    · rw [if_neg (by simpa using hb)]
      split_ifs with hdigits
      · exact htoT (not_lt.mp hb) hdigits
      · exact htoU ha (not_le.mp hdigits).le
  · have hb := IntType.nonneg_of_holds hU b.holds
    rw [if_neg fun h => h.1 rfl, if_pos ⟨rfl, Bool.false_ne_true⟩]
    by_cases ha : a.val < 0
    · rw [if_pos (decide_eq_true ha), Bool.eq_iff_iff, decide_eq_true_iff]
      exact (hleft _ _ ha hb).symm
    · rw [if_neg (by simpa using ha)]
      split_ifs with hdigits
      · exact htoU (not_lt.mp ha) hdigits
      · exact htoT hb (not_le.mp hdigits).le
  · exact hop (Number.agree_of_isSigned_eq (hT.trans hU.symm) a b)

private theorem eintLess_eq : eintLess a b = decide (a.val < b.val) :=
  compareBySign_eq Number.less_eq (fun x y hx hy => by omega) fun x y hx hy => by simp; omega

private theorem eintEqual_eq : eintEqual a b = decide (a.val = b.val) :=
  compareBySign_eq Number.equal_eq (fun x y hx hy => by omega) fun x y hx hy => by simp; omega

private theorem eintGreater_eq : eintGreater a b = decide (a.val > b.val) := by
  rw [eintGreater, eintLess_eq, eintEqual_eq, ← Bool.decide_or, ← decide_not]
  exact decide_eq_decide.mpr (by omega)

end

/-- Sums and differences are exact or refused, and comparisons are those of the numbers, for all types and all
values. There is no undefined behaviour on the way, for types that are promoted and for those that are not. -/
theorem eintExact :
    (∀ (T : IntegralType) (a b : Number T.type),
      eintPlus T a b = (if h : T.type.Holds (a.val + b.val) then some (.ok ⟨a.val + b.val, h⟩)
        else some (.error
          ⟨s!"Math error when calculating ({T.write a} + {T.write b}) for T={T.name}"⟩)) ∧
      eintMinus T a b = if h : T.type.Holds (a.val - b.val) then some (.ok ⟨a.val - b.val, h⟩)
        else some (.error
          ⟨s!"Math error when calculating ({T.write a} - {T.write b}) for T={T.name}"⟩)) ∧
    ∀ (T U : IntType) (a : Number T) (b : Number U),
      eintLess a b = decide (a.val < b.val) ∧ eintEqual a b = decide (a.val = b.val) ∧
        eintGreater a b = decide (a.val > b.val) :=
  ⟨fun _ _ _ => ⟨eintPlus_eq, eintMinus_eq⟩, fun _ _ _ _ => ⟨eintLess_eq, eintEqual_eq, eintGreater_eq⟩⟩

end Eint

end Galaxy42
