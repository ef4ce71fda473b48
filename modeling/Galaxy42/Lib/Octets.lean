import Mathlib.Algebra.Order.Group.Nat
import Mathlib.Data.Nat.Log
import Mathlib.Tactic.NormNum
import Mathlib.Tactic.Positivity
import Mathlib.Tactic.Ring

/-!
# Numbers as octets, most significant first

`bigEndian n v` is the number `v` written on `n` octets, and `toNat` reads a string of octets as a
number. On numbers that fit the two are inverse to each other, and `toNat` is the only way to read
a fixed number of octets (`bigEndian_toNat`).

A number that does not fit is written all the same: what is written are its last `n` digits
(`toNat_bigEndian`), and the digits above them do not matter (`bigEndian_add_mul`). This is what happens in a
program that writes a number octet by octet, by shifting and masking, without a look at its size, and it is
the reason for which writers of formats have to check first. The number of octets is any; the digits are
octets, not characters.
-/

namespace Toolkit

namespace Octets

/-- The last `n` base-256 digits of `v`, most significant first. Digits of `v` above them are dropped. -/
def bigEndian : ℕ → ℕ → List UInt8
  | 0, _ => []
  | n + 1, v => UInt8.ofNat (v / 256 ^ n % 256) :: bigEndian n v

/-- The number a string of octets stands for, most significant octet first. The empty string stands for zero. -/
def toNat : List UInt8 → ℕ
  | [] => 0
  | b :: bs => b.toNat * 256 ^ bs.length + toNat bs

@[simp] theorem toNat_nil : toNat [] = 0 := rfl

theorem toNat_cons (b : UInt8) (bs : List UInt8) :
    toNat (b :: bs) = b.toNat * 256 ^ bs.length + toNat bs := rfl

@[simp] theorem length_bigEndian (n v : ℕ) : (bigEndian n v).length = n := by
  induction n with
  | zero => rfl
  | succ n ih => rw [bigEndian, List.length_cons, ih]

/-- The octets in front stand for a multiple of the number of those that can be behind. -/
theorem toNat_append (bs bs' : List UInt8) :
    toNat (bs ++ bs') = toNat bs * 256 ^ bs'.length + toNat bs' := by
  induction bs with
  | nil => simp
  | cons b bs ih =>
    rw [List.cons_append, toNat_cons, toNat_cons, ih, List.length_append, pow_add]
    ring

/-- A string of octets stands for a number that fits on that many octets. -/
theorem toNat_lt (bs : List UInt8) : toNat bs < 256 ^ bs.length := by
  induction bs with
  | nil => simp
  | cons b bs ih =>
    have hb : b.toNat + 1 ≤ 256 := b.toNat_lt
    calc b.toNat * 256 ^ bs.length + toNat bs
        < b.toNat * 256 ^ bs.length + 256 ^ bs.length := by omega
      _ = (b.toNat + 1) * 256 ^ bs.length := by ring
      _ ≤ 256 * 256 ^ bs.length := Nat.mul_le_mul_right _ hb
      _ = 256 ^ (b :: bs).length := by rw [List.length_cons, pow_succ]; ring

/-- The first octet written is a digit of `v`, whatever `v` is. -/
theorem toNat_ofNat_digit (d : ℕ) : (UInt8.ofNat (d % 256)).toNat = d % 256 := by
  rw [UInt8.toNat_ofNat']
  omega

/-- Writing and reading keeps the digits that were written. -/
theorem toNat_bigEndian (n v : ℕ) : toNat (bigEndian n v) = v % 256 ^ n := by
  induction n with
  | zero => simp [bigEndian, Nat.mod_one]
  | succ n ih =>
    rw [bigEndian, toNat_cons, length_bigEndian, ih, toNat_ofNat_digit, pow_succ, Nat.mod_mul,
      Nat.mul_comm, Nat.add_comm]

/-- A number that fits is read back. -/
theorem toNat_bigEndian_of_lt {n v : ℕ} (h : v < 256 ^ n) : toNat (bigEndian n v) = v := by
  rw [toNat_bigEndian, Nat.mod_eq_of_lt h]

/-- The digits above the last `n` do not matter. -/
theorem bigEndian_add_mul (n a v : ℕ) : bigEndian n (a * 256 ^ n + v) = bigEndian n v := by
  induction n generalizing a with
  | zero => rfl
  | succ n ih =>
    have hsplit : a * 256 ^ (n + 1) + v = a * 256 * 256 ^ n + v := by ring
    have hdigit : (a * 256 * 256 ^ n + v) / 256 ^ n % 256 = v / 256 ^ n % 256 := by
      rw [Nat.add_comm, Nat.add_mul_div_right _ _ (by positivity), Nat.add_mul_mod_self_right]
    rw [bigEndian, bigEndian, hsplit, ih, hdigit]

/-- Octets are the digits of their number. -/
theorem bigEndian_toNat (bs : List UInt8) : bigEndian bs.length (toNat bs) = bs := by
  induction bs with
  | nil => rfl
  | cons b bs ih =>
    have hdigit : (b.toNat * 256 ^ bs.length + toNat bs) / 256 ^ bs.length % 256 = b.toNat := by
      rw [Nat.add_comm, Nat.add_mul_div_right _ _ (by positivity), Nat.div_eq_of_lt (toNat_lt bs),
        Nat.zero_add]
      exact Nat.mod_eq_of_lt b.toNat_lt
    rw [List.length_cons, bigEndian, toNat_cons, hdigit, bigEndian_add_mul, ih, UInt8.ofNat_toNat]

end Octets

end Toolkit
