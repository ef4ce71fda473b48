import Mathlib.Data.Int.Lemmas
import Galaxy42.Exceptions
import Galaxy42.Lib.BuiltinInt
import Galaxy42.Lib.Steps

/-!
# Integers that are exact or throw

`safer_int` is a checked `cpp_int` of Boost, with operators for built-in integers and for objects of other
types. What Boost does is a parameter (`CppIntLib`): a conversion gives the same number or throws, an
operation gives the exact result or throws, and comparisons compare the numbers.

The one assignment from built-in integers takes an `int64_t`, so that a number from 2⁶³ on becomes a
negative one, which a type with a sign can hold. In a run of statements that return, the objects hold the
exact numbers exactly as long as no such number is assigned (`exact_throughout_iff`).

The comparisons with an arbitrary integer on the left are written with the operands exchanged, but not the
operator. All others are the comparison of the numbers (`result_eq_exact_iff`).

Programs are statements over variables, each of a type of its own: objects are declared, made from each other,
assigned and changed, with expressions on the right that may be nested. Next to the objects there are the
exact numbers, integers without a bound, as far as there are any (`Tracked`), since a division by zero has
none and throws. The exact numbers are computed from the statements alone, and never read off an object.

A statement that returns keeps the objects exact when it is harmless (`Statement.exact_of_run`), and otherwise
the object that it assigns to is off by 2⁶⁴ (`Statement.exact_ne_of_run`). So an equivalence for a step carries
over to the states of a run. `sampleLib` is such a library, whose checks throw only when a result does not fit.
-/

namespace Galaxy42

open Toolkit

/-! ### Types and values -/

/-- A type of `cpp_int`: how many digits a number has at most, and whether it can be negative. -/
structure XintType where
  digits : Option ℕ
  isSigned : Bool

namespace XintType

/-- The number is a value of the type. Numbers with a sign are as large below zero as above. -/
def Holds (T : XintType) (x : ℤ) : Prop :=
  (T.isSigned = true ∨ 0 ≤ x) ∧ ∀ d ∈ T.digits, x.natAbs < 2 ^ d

instance (T : XintType) (x : ℤ) : Decidable (T.Holds x) := inferInstanceAs (Decidable (_ ∧ _))

/-- `basic_xint64` -/
def basicXint64 : XintType := ⟨some 63, true⟩

/-- `cpp_int`, which has no bound. -/
def cppInt : XintType := ⟨none, true⟩

private theorem holds_zero (T : XintType) : T.Holds 0 := ⟨.inr (le_refl 0), fun _ _ => Nat.two_pow_pos _⟩

end XintType

/-- A number of a type of `cpp_int`, and an object of `safer_int`, which has nothing else (`xi`). -/
@[ext] structure Xint (T : XintType) where
  val : ℤ
  holds : T.Holds val

/-- A built-in integer of up to 64 bits. -/
structure Builtin where
  type : IntType
  number : Number type
  bits_le : type.digits + type.isSigned.toNat ≤ 64

/-- What stands on the right of an operator. -/
inductive Operand where
  | builtin (b : Builtin)
  | number (T : XintType) (x : Xint T)

/-- The number that an operand is. -/
def Operand.val : Operand → ℤ
  | builtin b => b.number.val
  | number _ x => x.val

/-- The binary operators. -/
inductive ArithOp where
  | add
  | sub
  | mul
  | div
  | mod

/-- The exact result, if there is one. Division rounds to zero. -/
def ArithOp.exact : ArithOp → ℤ → ℤ → Option ℤ
  | add, x, y => some (x + y)
  | sub, x, y => some (x - y)
  | mul, x, y => some (x * y)
  | div, x, y => if y = 0 then none else some (x.tdiv y)
  | mod, x, y => if y = 0 then none else some (x.tmod y)

/-- The operators of comparison. -/
inductive RelOp where
  | lt
  | le
  | gt
  | ge
  | eq
  | ne

/-- The comparison of two numbers. -/
def RelOp.compare : RelOp → ℤ → ℤ → Bool
  | lt, x, y => decide (x < y)
  | le, x, y => decide (x ≤ y)
  | gt, x, y => decide (x > y)
  | ge, x, y => decide (x ≥ y)
  | eq, x, y => decide (x = y)
  | ne, x, y => decide (x ≠ y)

/-- The exceptions of `cpp_int`. -/
inductive XintError where
  /-- `std::range_error` -/
  | rangeError
  /-- `std::overflow_error` -/
  | overflowError

/-- Boost's checked integers. What it does when a number does not fit is not said, but for that it throws. -/
structure CppIntLib where
  /-- A number made of an operand, or assigned from it. -/
  convert : (T : XintType) → Operand → Except XintError (Xint T)
  /-- `xi++` -/
  increment : {T : XintType} → Xint T → Except XintError (Xint T)
  /-- `xi--` -/
  decrement : {T : XintType} → Xint T → Except XintError (Xint T)
  /-- `xi+=obj` and the like. -/
  arith : {T : XintType} → ArithOp → Xint T → Operand → Except XintError (Xint T)
  /-- `xi<obj` and the like. -/
  relation : {T : XintType} → RelOp → Xint T → Operand → Bool
  convert_eq_ok_iff : ∀ {T obj r}, convert T obj = .ok r ↔ r.val = obj.val
  increment_exact : ∀ {T} {x r : Xint T}, increment x = .ok r → r.val = x.val + 1
  decrement_exact : ∀ {T} {x r : Xint T}, decrement x = .ok r → r.val = x.val - 1
  arith_exact : ∀ {T op} {x r : Xint T} {obj}, arith op x obj = .ok r →
    op.exact x.val obj.val = some r.val
  relation_eq : ∀ {T op} {x : Xint T} {obj}, relation op x obj = op.compare x.val obj.val

namespace SaferInt

/-! ### Statements -/

/-- An expression with objects: a variable, or an operator whose left operand is an object. -/
inductive Expr where
  | object (v : ℕ)
  | binary (op : ArithOp) (left right : Expr)
  | binaryBuiltin (op : ArithOp) (left : Expr) (obj : Builtin)

/-- What an object is made of, or what is assigned to it. -/
inductive Source where
  | expr (e : Expr)
  | builtin (obj : Builtin)

/-- A statement about the variable `v`. -/
inductive Statement where
  /-- The default constructor. -/
  | declare (v : ℕ)
  /-- The constructors from an object and from a built-in integer. -/
  | construct (v : ℕ) (obj : Source)
  /-- `operator=` -/
  | assign (v : ℕ) (obj : Source)
  /-- `operator++`, both before and after the variable. -/
  | increment (v : ℕ)
  /-- `operator--`, both before and after the variable. -/
  | decrement (v : ℕ)
  /-- `operator+=` and the like. -/
  | compound (op : ArithOp) (v : ℕ) (obj : Source)

/-- The objects, whose types are given. The type of a variable does not change in a run. -/
abbrev Store (types : ℕ → XintType) := (v : ℕ) → Xint (types v)

section

variable (lib : CppIntLib) {types : ℕ → XintType} (s : Store types)

/-- The type of an expression is that of its leftmost object. -/
def Expr.type (types : ℕ → XintType) : Expr → XintType
  | object v => types v
  | binary _ left _ => left.type types
  | binaryBuiltin _ left _ => left.type types

/-- The operators work on a copy of the left operand. -/
def Expr.eval : (e : Expr) → Except XintError (Xint (e.type types))
  | object v => .ok (s v)
  | binary op left right => do
    let tmp ← left.eval
    let obj ← right.eval
    lib.arith op tmp (.number _ obj)
  | binaryBuiltin op left obj => do
    let tmp ← left.eval
    lib.arith op tmp (.builtin obj)

/-- The operand that is used. -/
def Source.eval : Source → Except XintError Operand
  | expr e => do
    let obj ← e.eval lib s
    return .number _ obj
  | builtin obj => return .builtin obj

/-- A built-in integer as the parameter of type `int64_t`. -/
def asInt64 (obj : Builtin) : Builtin := ⟨.signed 63, (IntType.signed 63).convert obj.number.val, by decide⟩

/-- The operand that is assigned: an object as it is, a built-in integer as an `int64_t`. The parameter of
that type is what makes the difference to a construction. -/
def Source.assigned : Source → Except XintError Operand
  | expr e => do
    let obj ← e.eval lib s
    return .number _ obj
  | builtin obj => return .builtin (asInt64 obj)

/-- A statement, which leaves the objects or throws. -/
def Statement.run : Statement → Except XintError (Store types)
  | declare v => return Function.update s v ⟨0, (types v).holds_zero⟩
  | construct v obj => do
    let obj ← obj.eval lib s
    let xi ← lib.convert (types v) obj
    return Function.update s v xi
  | assign v obj => do
    let obj ← obj.assigned lib s
    let xi ← lib.convert (types v) obj
    return Function.update s v xi
  | increment v => do
    let xi ← lib.increment (s v)
    return Function.update s v xi
  | decrement v => do
    let xi ← lib.decrement (s v)
    return Function.update s v xi
  | compound op v obj => do
    let obj ← obj.eval lib s
    let xi ← lib.arith op (s v) obj
    return Function.update s v xi

end

/-! ### Exact numbers -/

section

variable (x : ℕ → ℤ)

/-- The exact number that an expression stands for. -/
def Expr.exact : Expr → Option ℤ
  | object v => some (x v)
  | binary op left right => do
    op.exact (← left.exact) (← right.exact)
  | binaryBuiltin op left obj => do
    op.exact (← left.exact) obj.number.val

/-- The exact number that an operand stands for. -/
def Source.exact : Source → Option ℤ
  | expr e => e.exact x
  | builtin obj => some obj.number.val

/-- The exact numbers after a statement. There are none where one divides by zero. -/
def Statement.exact : Statement → Option (ℕ → ℤ)
  | declare v => some (Function.update x v 0)
  | construct v obj => do
    return Function.update x v (← obj.exact x)
  | assign v obj => do
    return Function.update x v (← obj.exact x)
  | increment v => some (Function.update x v (x v + 1))
  | decrement v => some (Function.update x v (x v - 1))
  | compound op v obj => do
    return Function.update x v (← op.exact (x v) (← obj.exact x))

end

/-! ### Runs -/

/-- The numbers that some objects hold. -/
def values {types : ℕ → XintType} (s : Store types) : ℕ → ℤ := fun v => (s v).val

/-- Some objects, next to the exact numbers as far as there are any. They have no type and no bound. -/
abbrev Tracked (types : ℕ → XintType) := Store types × Option (ℕ → ℤ)

section

variable (lib : CppIntLib) {types : ℕ → XintType}

/-- A statement returns. -/
def Step (s : Tracked types) (stmt : Statement) (s' : Tracked types) : Prop :=
  stmt.run lib s.1 = .ok s'.1 ∧ s'.2 = s.2.bind stmt.exact

/-- Every object holds its exact number. So there are such numbers, and no statement of the run has divided by
zero. -/
def Exact (s : Tracked types) : Prop := s.2 = some (values s.1)

/-- No built-in integer from 2⁶³ on is assigned, or what it is as an `int64_t` cannot be held. Where that
cannot be held, the assignment throws. -/
def Harmless (types : ℕ → XintType) : Statement → Prop
  | .assign v (.builtin obj) => ¬ (2 ^ 63 ≤ obj.number.val ∧ (types v).Holds (obj.number.val - 2 ^ 64))
  | _ => True

variable {lib} {s s' : Store types} {x : ℕ → ℤ}

private theorem Expr.exact_of_eval {e : Expr} {r : Xint (e.type types)} (h : e.eval lib s = .ok r) :
    e.exact (values s) = some r.val := by
  induction e with
  | object v =>
    obtain rfl := Except.ok.inj h
    rfl
  | binary op left right ihl ihr =>
    obtain ⟨tmp, htmp, h⟩ := bindExcept_eq_ok_iff.mp h
    obtain ⟨obj, hobj, h⟩ := bindExcept_eq_ok_iff.mp h
    rw [exact, ihl htmp, ihr hobj]
    exact lib.arith_exact h
  | binaryBuiltin op left obj ihl =>
    obtain ⟨tmp, htmp, h⟩ := bindExcept_eq_ok_iff.mp h
    rw [exact, ihl htmp]
    exact lib.arith_exact h

private theorem Source.exact_of_eval {obj : Source} {r : Operand} (h : obj.eval lib s = .ok r) :
    obj.exact (values s) = some r.val := by
  cases obj with
  | expr e =>
    obtain ⟨tmp, htmp, h⟩ := bindExcept_eq_ok_iff.mp h
    obtain rfl := Except.ok.inj h
    exact Expr.exact_of_eval htmp
  | builtin obj =>
    obtain rfl := Except.ok.inj h
    rfl

private theorem values_update (s : Store types) (v : ℕ) (xi : Xint (types v)) :
    values (Function.update s v xi) = Function.update (values s) v xi.val := by
  funext w
  by_cases hw : w = v
  · subst hw
    simp [values]
  · simp [values, hw]

/-- A built-in integer of up to 64 bits is between the least number with a sign and the greatest without. -/
private theorem builtin_bounds (obj : Builtin) : -2 ^ 63 ≤ obj.number.val ∧ obj.number.val < 2 ^ 64 := by
  obtain ⟨hlow, hhigh⟩ := obj.number.holds
  have hbits := obj.bits_le
  rw [IntType.min] at hlow
  rw [IntType.max] at hhigh
  cases hsign : obj.type.isSigned with
  | true =>
    rw [hsign, Bool.toNat_true] at hbits
    have hpow := IntType.two_pow_le (show obj.type.digits ≤ 63 by omega)
    rw [hsign, if_pos rfl] at hlow
    constructor <;> omega
  | false =>
    rw [hsign, Bool.toNat_false] at hbits
    have hpow := IntType.two_pow_le (show obj.type.digits ≤ 64 by omega)
    rw [hsign, if_neg Bool.false_ne_true] at hlow
    constructor <;> omega

/-- An `int64_t` keeps what is less than 2⁶³, and has the rest 2⁶⁴ too low. -/
theorem val_asInt64 (obj : Builtin) : (asInt64 obj).number.val =
    if obj.number.val < 2 ^ 63 then obj.number.val else obj.number.val - 2 ^ 64 := by
  obtain ⟨hlow, hhigh⟩ := builtin_bounds obj
  change obj.number.val.bmod (2 ^ 64) = _
  split_ifs with h
  · exact Int.bmod_eq_of_le (by push_cast; omega) (by push_cast; omega)
  · rw [← Int.sub_bmod_right, Nat.cast_pow, Nat.cast_ofNat]
    exact Int.bmod_eq_of_le (by push_cast; omega) (by push_cast; omega)

private theorem Source.exact_of_assigned {obj : Source} {r : Operand} (h : obj.assigned lib s = .ok r)
    (hsmall : ∀ b, obj = .builtin b → b.number.val < 2 ^ 63) : obj.exact (values s) = some r.val := by
  cases obj with
  | expr e => exact Source.exact_of_eval h
  | builtin obj =>
    obtain rfl := Except.ok.inj h
    change some _ = some (asInt64 obj).number.val
    rw [val_asInt64, if_pos (hsmall obj rfl)]

/-- A harmless statement that returns leaves the exact numbers. Whatever is on the right of it is exact as
well, since the operators are. -/
theorem Statement.exact_of_run {stmt : Statement} (h : stmt.run lib s = .ok s')
    (hharmless : Harmless types stmt) : stmt.exact (values s) = some (values s') := by
  cases stmt with
  | declare v =>
    obtain rfl := Except.ok.inj h
    rw [exact, values_update]
  | construct v obj =>
    obtain ⟨obj, hobj, h⟩ := bindExcept_eq_ok_iff.mp h
    obtain ⟨xi, hxi, h⟩ := bindExcept_eq_ok_iff.mp h
    obtain rfl := Except.ok.inj h
    rw [exact, Source.exact_of_eval hobj, values_update, lib.convert_eq_ok_iff.mp hxi]
    rfl
  | assign v source =>
    obtain ⟨obj, hobj, h⟩ := bindExcept_eq_ok_iff.mp h
    obtain ⟨xi, hxi, h⟩ := bindExcept_eq_ok_iff.mp h
    obtain rfl := Except.ok.inj h
    have hval := lib.convert_eq_ok_iff.mp hxi
    have hsmall : ∀ b, source = .builtin b → b.number.val < 2 ^ 63 := by
      rintro b rfl
      by_contra hbig
      obtain rfl := Except.ok.inj hobj
      change xi.val = (asInt64 b).number.val at hval
      rw [val_asInt64, if_neg hbig] at hval
      exact hharmless ⟨not_lt.mp hbig, hval ▸ xi.holds⟩
    rw [exact, Source.exact_of_assigned hobj hsmall, values_update, hval]
    rfl
  | increment v =>
    obtain ⟨xi, hxi, h⟩ := bindExcept_eq_ok_iff.mp h
    obtain rfl := Except.ok.inj h
    rw [exact, values_update, lib.increment_exact hxi]
    rfl
  | decrement v =>
    obtain ⟨xi, hxi, h⟩ := bindExcept_eq_ok_iff.mp h
    obtain rfl := Except.ok.inj h
    rw [exact, values_update, lib.decrement_exact hxi]
    rfl
  | compound op v obj =>
    obtain ⟨obj, hobj, h⟩ := bindExcept_eq_ok_iff.mp h
    obtain ⟨xi, hxi, h⟩ := bindExcept_eq_ok_iff.mp h
    obtain rfl := Except.ok.inj h
    have hxi : op.exact (values s v) obj.val = some xi.val := lib.arith_exact hxi
    rw [exact, Source.exact_of_eval hobj, values_update, Option.bind_eq_bind, Option.bind_some, hxi]
    rfl

/-- A statement that is not harmless and returns leaves a number that is 2⁶⁴ too low. -/
theorem Statement.exact_ne_of_run {stmt : Statement} (h : stmt.run lib s = .ok s')
    (hharmful : ¬ Harmless types stmt) : stmt.exact (values s) ≠ some (values s') := by
  obtain ⟨v, obj, rfl, hbig⟩ : ∃ v obj, stmt = .assign v (.builtin obj) ∧ 2 ^ 63 ≤ obj.number.val := by
    unfold Harmless at hharmful
    split at hharmful
    next v obj => exact ⟨v, obj, rfl, (not_not.mp hharmful).1⟩
    next => exact absurd trivial hharmful
  obtain ⟨r, hr, h⟩ := bindExcept_eq_ok_iff.mp h
  obtain ⟨xi, hxi, h⟩ := bindExcept_eq_ok_iff.mp h
  obtain rfl := Except.ok.inj h
  obtain rfl := Except.ok.inj hr
  have hval : xi.val = obj.number.val - 2 ^ 64 := by
    rw [lib.convert_eq_ok_iff.mp hxi]
    change (asInt64 obj).number.val = _
    rw [val_asInt64, if_neg (not_lt.mpr hbig)]
  intro heq
  rw [values_update, hval] at heq
  have hv := congrFun (Option.some.inj heq) v
  simp only [Function.update_self] at hv
  omega

/-- From exact objects on, the objects are exact in every state of a run of statements that return exactly
when all statements of the run are harmless. The types of the variables may be any, with a sign or without,
bounded or not, and so may the numbers. -/
theorem exact_throughout_iff {s₀ : Store types} {trace : List (Tracked types × Statement)}
    {t : Tracked types} (hrun : Steps (Step lib) (s₀, some (values s₀)) trace t) :
    Steps.Throughout Exact trace t ↔ Steps.All (fun _ stmt => Harmless types stmt) trace := by
  refine Steps.invariant_iff (fun s stmt s' hs hstep => ?_) hrun rfl
  obtain ⟨hstep, htracked⟩ := hstep
  rw [Exact, htracked, show s.2 = some (values s.1) from hs, Option.bind_some]
  exact ⟨fun hexact => not_not.mp fun hharmful => Statement.exact_ne_of_run hstep hharmful hexact,
    Statement.exact_of_run hstep⟩

end

/-! ### Comparisons -/

/-- The operators of comparison that are written for an operand on the left that is no object. -/
inductive OrderOp where
  | lt
  | le
  | gt
  | ge

/-- The operator. -/
def OrderOp.toRelOp : OrderOp → RelOp
  | lt => .lt
  | le => .le
  | gt => .gt
  | ge => .ge

section

variable (lib : CppIntLib) {T : XintType}

/-- The member operators of comparison, for an object, an arbitrary integer or a built-in one on the
right. -/
def relation (op : RelOp) (saferint : Xint T) (obj : Operand) : Bool := lib.relation op saferint obj

/-- The operators with a built-in integer on the left. -/
def relationBuiltin (op : OrderOp) (obj : Builtin) (saferint : Xint T) : Bool :=
  match op with
  | .gt => relation lib .lt saferint (.builtin obj) && relation lib .ne saferint (.builtin obj)
  | .ge => relation lib .lt saferint (.builtin obj) || relation lib .eq saferint (.builtin obj)
  | .lt => relation lib .gt saferint (.builtin obj) && relation lib .ne saferint (.builtin obj)
  | .le => relation lib .gt saferint (.builtin obj) || relation lib .eq saferint (.builtin obj)

/-- The operators with an arbitrary integer on the left. Here an operator is the negation of another one, or
of two. -/
def relationNumber {U : XintType} (op : OrderOp) (obj : Xint U) (saferint : Xint T) : Bool :=
  match op with
  | .gt => !(lib.relation .lt saferint (.number U obj) || lib.relation .eq saferint (.number U obj))
  | .lt => !(lib.relation .gt saferint (.number U obj) || lib.relation .eq saferint (.number U obj))
  | .ge => !lib.relation .lt saferint (.number U obj)
  | .le => !lib.relation .gt saferint (.number U obj)

end

/-- The comparisons that have an operator. No operator `==` or `!=` takes an object on the right only. -/
inductive Comparison where
  | safer (op : RelOp) {T : XintType} (saferint : Xint T) (obj : Operand)
  | builtin (op : OrderOp) (obj : Builtin) {T : XintType} (saferint : Xint T)
  | number (op : OrderOp) {U : XintType} (obj : Xint U) {T : XintType} (saferint : Xint T)

namespace Comparison

/-- What the operator returns. -/
def result (lib : CppIntLib) : Comparison → Bool
  | safer op saferint obj => relation lib op saferint obj
  | builtin op obj saferint => relationBuiltin lib op obj saferint
  | number op obj saferint => relationNumber lib op obj saferint

/-- The comparison of the two numbers. -/
def exact : Comparison → Bool
  | safer op saferint obj => op.compare saferint.val obj.val
  | builtin op obj saferint => op.toRelOp.compare obj.number.val saferint.val
  | number op obj saferint => op.toRelOp.compare obj.val saferint.val

/-- The operand on the left is an object or built-in, or the numbers are equal. Equal numbers are told right
by whichever operator, as both orders of the operands agree on them. -/
def WellWritten : Comparison → Prop
  | number _ obj saferint => obj.val = saferint.val
  | _ => True

/-- An operator with an arbitrary integer on the left compares the numbers the other way. -/
private theorem relationNumber_eq (lib : CppIntLib) (op : OrderOp) {T U : XintType} (obj : Xint U)
    (saferint : Xint T) :
    relationNumber lib op obj saferint = op.toRelOp.compare saferint.val obj.val := by
  cases op <;> simp only [relationNumber, lib.relation_eq, Operand.val, OrderOp.toRelOp, RelOp.compare] <;>
    grind

/-- An operator returns the comparison of the numbers exactly when it has no arbitrary integer on the left, or
the numbers are equal. With the operands exchanged and not the operator, it gives the comparison the other way
round. -/
theorem result_eq_exact_iff (lib : CppIntLib) (c : Comparison) :
    c.result lib = c.exact ↔ c.WellWritten := by
  cases c with
  | safer op saferint obj => exact iff_of_true lib.relation_eq trivial
  | builtin op obj saferint =>
    refine iff_of_true ?_ trivial
    cases op <;> simp only [result, relationBuiltin, relation, lib.relation_eq, Operand.val, exact,
      OrderOp.toRelOp, RelOp.compare] <;> grind
  | number op obj saferint =>
    rw [result, relationNumber_eq, exact, WellWritten]
    cases op <;> simp only [OrderOp.toRelOp, RelOp.compare, decide_eq_decide] <;> omega

end Comparison

/-! ### Checked integers for a sample -/

/-- A number, if the type can hold it. -/
def fit (T : XintType) (x : ℤ) (e : XintError) : Except XintError (Xint T) :=
  if h : T.Holds x then .ok ⟨x, h⟩ else .error e

private theorem fit_eq_ok_iff {T : XintType} {x : ℤ} {e : XintError} {r : Xint T} :
    fit T x e = .ok r ↔ r.val = x := by
  unfold fit
  split_ifs with h
  · rw [Except.ok.injEq, Xint.ext_iff, eq_comm]
  · exact iff_of_false (by simp) fun heq => h (heq ▸ r.holds)

/-- Checked integers that throw exactly when a result does not fit. -/
def sampleLib : CppIntLib where
  convert T obj := fit T obj.val .rangeError
  increment x := fit _ (x.val + 1) .overflowError
  decrement x := fit _ (x.val - 1) .overflowError
  arith op x obj := match op.exact x.val obj.val with
    | some z => fit _ z .overflowError
    | none => .error .overflowError
  relation op x obj := op.compare x.val obj.val
  convert_eq_ok_iff := fit_eq_ok_iff
  increment_exact := fit_eq_ok_iff.mp
  decrement_exact := fit_eq_ok_iff.mp
  arith_exact h := by
    split at h
    next z hz => rw [hz, fit_eq_ok_iff.mp h]
    next => cases h
  relation_eq := rfl

/-- Objects of `xint`, all zero. -/
private def zeros : Store fun _ => XintType.basicXint64 := fun _ => ⟨0, XintType.holds_zero _⟩

/-- The greatest `uint64_t`. -/
private def maxUint64 : Builtin := ⟨.unsigned 64, .max _, by decide⟩

private theorem step_sample {stmt : Statement} {s : Store fun _ => XintType.basicXint64}
    (h : stmt.run sampleLib zeros = .ok s) :
    Step sampleLib (zeros, some (values zeros)) stmt (s, (some (values zeros)).bind stmt.exact) :=
  ⟨h, rfl⟩

/-- An object is decremented. -/
theorem exact_throughout_iff_example : ∃ trace t, trace ≠ [] ∧
    Steps (Step sampleLib) (zeros, some (values zeros)) trace t ∧ Steps.Throughout Exact trace t := by
  have hrun : (Statement.decrement 0).run sampleLib zeros =
      .ok (Function.update zeros 0 ⟨-1, by decide⟩) := rfl
  have hsteps := (Steps.nil _).snoc (step_sample hrun)
  exact ⟨_, _, by simp, hsteps, (exact_throughout_iff hsteps).mpr fun p hp => by
    obtain rfl := List.mem_singleton.mp hp
    trivial⟩

/-- The greatest `uint64_t` is assigned to an `xint`, which then holds −1. -/
theorem not_exact_throughout : ¬ ∀ (lib : CppIntLib) (types : ℕ → XintType) (s₀ : Store types)
    (trace : List (Tracked types × Statement)) (t : Tracked types),
    Steps (Step lib) (s₀, some (values s₀)) trace t → Steps.Throughout Exact trace t := by
  intro h
  have hrun : (Statement.assign 0 (.builtin maxUint64)).run sampleLib zeros =
      .ok (Function.update zeros 0 ⟨-1, by decide⟩) := rfl
  have hlast := (h sampleLib _ zeros _ _ ((Steps.nil _).snoc (step_sample hrun))).2
  have hzero := congrFun (Option.some.inj hlast) 0
  revert hzero
  decide

/-- For the operators, 1 is greater than an object with the number 2 when it is an arbitrary integer. -/
theorem not_result_eq_exact : ¬ ∀ (lib : CppIntLib) (c : Comparison), c.result lib = c.exact := by
  intro h
  have h := h sampleLib (.number .gt (⟨1, by decide⟩ : Xint XintType.cppInt)
    (⟨2, by decide⟩ : Xint XintType.basicXint64))
  revert h
  decide

end SaferInt

end Galaxy42
