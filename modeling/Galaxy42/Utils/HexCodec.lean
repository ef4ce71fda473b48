import Mathlib.Algebra.Group.Even
import Galaxy42.Lib.Octets
import Galaxy42.StringsUtils

/-!
# The codec of hexadecimal strings

`string_as_hex` and `string_as_bin` are inverse to each other on octets, and on strings of an even number
of digits (`hexCodec`). What is no digit is refused, capital letters too.

In a string of an odd number of digits the last one should stand for itself, and the others for what they
are worth in front of it: `"20a"` is 02 0a, as a comment in the constructor of `string_as_bin` has it. There
the pairs are taken from the front instead, so that it becomes 20 0a. The number is kept exactly when there
is nothing but zeros in front of the last digit (`keepsValue_iff`).

Digits are turned into numbers by `hexchar2int` in the sources. What a digit should stand for is defined
on its own (`hexDigit`), and so is the number that is written with some digits (`hexNumber`); the
octets of a string have a number in the same way, to the base 256. That the value is kept compares
these two.

For an even length the octets come from pairs, and the induction takes two digits at a time. For an odd length
the last pair has one digit, which counts as the sixteens, so all digits before it are worth sixteen times
as much as they should be, and the values are the same only when these are worth nothing.
-/

namespace Galaxy42

open Toolkit

/-! ### Numbers in hexadecimal -/

/-- What a digit stands for. -/
def hexDigit (c : UInt8) : ℕ := if c ≤ 57 then c.toNat - 48 else c.toNat - 87

/-- The number that is written with some digits. -/
def hexNumber : Bytes → ℕ
  | [] => 0
  | c :: cs => hexDigit c * 16 ^ cs.length + hexNumber cs

private theorem hexNumber_append (cs cs' : Bytes) :
    hexNumber (cs ++ cs') = hexNumber cs * 16 ^ cs'.length + hexNumber cs' := by
  induction cs with
  | nil => simp [hexNumber]
  | cons c cs ih =>
    rw [List.cons_append, hexNumber, hexNumber, ih, List.length_append, pow_add]
    ring

/-- A digit is read as what it stands for, and written so. -/
theorem hexchar2int_of_isHexchar {c : UInt8} (h : IsHexchar c) :
    hexchar2int c = .ok (UInt8.ofNat (hexDigit c)) ∧ hexDigit c < 16 ∧
      hexchar (UInt8.ofNat (hexDigit c)) = c := by
  have hall : ∀ n : Fin 256, IsHexchar (UInt8.ofNat n) →
      hexchar2int (UInt8.ofNat n) = .ok (UInt8.ofNat (hexDigit (UInt8.ofNat n))) ∧
        hexDigit (UInt8.ofNat n) < 16 ∧
        hexchar (UInt8.ofNat (hexDigit (UInt8.ofNat n))) = UInt8.ofNat n := by
    decide +kernel
  have hc := hall ⟨c.toNat, c.toNat_lt⟩
  rw [UInt8.ofNat_toNat] at hc
  exact hc h

private theorem exists_hexchar2int_eq_error {c : UInt8} (h : ¬ IsHexchar c) :
    ∃ msg, hexchar2int c = .error (.invalidArgument msg) := by
  obtain ⟨hdigit, hletter⟩ := not_or.mp h
  rw [hexchar2int, if_neg hdigit, if_neg hletter]
  exact ⟨_, rfl⟩

/-- Only the digit zero stands for zero. -/
theorem hexDigit_eq_zero_iff {c : UInt8} (h : IsHexchar c) : hexDigit c = 0 ↔ c = 48 := by
  rw [hexDigit, ← UInt8.toNat_inj]
  simp only [IsHexchar, UInt8.le_iff_toNat_le, UInt8.toNat_ofNat] at h ⊢
  split_ifs <;> omega

/-- Digits that stand for zero are zeros. -/
theorem hexNumber_eq_zero_iff {s : Bytes} (h : ∀ c ∈ s, IsHexchar c) :
    hexNumber s = 0 ↔ ∀ c ∈ s, c = 48 := by
  induction s with
  | nil => simp [hexNumber]
  | cons c cs ih =>
    obtain ⟨hc, hcs⟩ := List.forall_mem_cons.mp h
    rw [hexNumber, Nat.add_eq_zero_iff, Nat.mul_eq_zero, or_iff_left (by positivity),
      hexDigit_eq_zero_iff hc, ih hcs, List.forall_mem_cons]

/-! ### Pairs of digits -/

/-- Two digits are read as one octet, which is written with them. -/
theorem hexOctet_of_isHexchar {ch cl : UInt8} (hch : IsHexchar ch) (hcl : IsHexchar cl) :
    ∃ octet, hexOctet ch cl = .ok octet ∧ octet.toNat = hexDigit ch * 16 + hexDigit cl ∧
      hexString [octet] = [ch, cl] := by
  obtain ⟨hh, hhlt, hhchar⟩ := hexchar2int_of_isHexchar hch
  obtain ⟨hl, hllt, hlchar⟩ := hexchar2int_of_isHexchar hcl
  have hvalue : (UInt8.ofNat (hexDigit ch) * 16 + UInt8.ofNat (hexDigit cl)).toNat =
      hexDigit ch * 16 + hexDigit cl := by
    simp only [UInt8.toNat_add, UInt8.toNat_mul, UInt8.toNat_ofNat', UInt8.toNat_ofNat]
    omega
  have hdiv : (UInt8.ofNat (hexDigit ch) * 16 + UInt8.ofNat (hexDigit cl)) / 16 =
      UInt8.ofNat (hexDigit ch) := by
    apply UInt8.toNat_inj.mp
    rw [UInt8.toNat_div, hvalue, UInt8.toNat_ofNat', show (16 : UInt8).toNat = 16 from rfl]
    omega
  have hmod : (UInt8.ofNat (hexDigit ch) * 16 + UInt8.ofNat (hexDigit cl)) % 16 =
      UInt8.ofNat (hexDigit cl) := by
    apply UInt8.toNat_inj.mp
    rw [UInt8.toNat_mod, hvalue, UInt8.toNat_ofNat', show (16 : UInt8).toNat = 16 from rfl]
    omega
  refine ⟨_, ?_, hvalue, ?_⟩
  · rw [hexOctet, bindExcept_of_ok hh, bindExcept_of_ok hl]
    rfl
  · rw [hexString, List.flatMap_singleton, hdiv, hmod, hhchar, hlchar]

/-- Digits, as many as there are octets twice, are read as the number they write. -/
theorem exists_stringAsBin_of_even {s : Bytes} (heven : Even s.length) (h : ∀ c ∈ s, IsHexchar c) :
    ∃ b, stringAsBin s = .ok b ∧ s.length = 2 * b.length ∧ Octets.toNat b = hexNumber s ∧
      hexString b = s := by
  induction s using stringAsBin.induct with
  | case1 => exact ⟨[], rfl, rfl, rfl, rfl⟩
  | case2 cl => simp at heven
  | case3 ch cl encoded ih =>
    obtain ⟨hch, hcl, hrest⟩ : IsHexchar ch ∧ IsHexchar cl ∧ ∀ c ∈ encoded, IsHexchar c := by
      simpa only [List.forall_mem_cons] using h
    have hlength : Even encoded.length := by
      simpa only [List.length_cons, Nat.even_add_one, not_not] using heven
    obtain ⟨octet, hoctet, hvalue, hpair⟩ := hexOctet_of_isHexchar hch hcl
    obtain ⟨b, hb, hblen, hbnum, hbhex⟩ := ih hlength hrest
    refine ⟨octet :: b, ?_, ?_, ?_, ?_⟩
    · rw [stringAsBin, bindExcept_of_ok hoctet, bindExcept_of_ok hb]
      rfl
    · simp only [List.length_cons]
      omega
    · have hpow : 256 ^ b.length = 16 ^ encoded.length := by rw [hblen, pow_mul]; norm_num
      rw [Octets.toNat_cons, hvalue, hbnum, hexNumber, hexNumber, List.length_cons, pow_succ, hpow]
      ring
    · rw [hexString, List.flatMap_singleton] at hpair
      rw [hexString, List.flatMap_cons, hpair, ← hexString, hbhex]
      rfl

/-- What is no digit is refused. -/
private theorem exists_stringAsBin_eq_error {s : Bytes} (h : ¬ ∀ c ∈ s, IsHexchar c) :
    ∃ msg, stringAsBin s = .error (.invalidArgument msg) := by
  have hoctet : ∀ {ch cl}, ¬ (IsHexchar ch ∧ IsHexchar cl) →
      ∃ msg, hexOctet ch cl = .error (.invalidArgument msg) := by
    intro ch cl hnot
    by_cases hch : IsHexchar ch
    · obtain ⟨msg, hcl⟩ := exists_hexchar2int_eq_error fun hcl => hnot ⟨hch, hcl⟩
      refine ⟨msg, ?_⟩
      rw [hexOctet, bindExcept_of_ok (hexchar2int_of_isHexchar hch).1, bindExcept_of_error hcl]
    · obtain ⟨msg, hch⟩ := exists_hexchar2int_eq_error hch
      exact ⟨msg, by rw [hexOctet, bindExcept_of_error hch]⟩
  induction s using stringAsBin.induct with
  | case1 => exact absurd (by simp) h
  | case2 cl =>
    obtain ⟨msg, herror⟩ := @hoctet 48 cl fun hboth => h (by simpa using hboth.2)
    exact ⟨msg, by rw [stringAsBin, bindExcept_of_error herror]⟩
  | case3 ch cl encoded ih =>
    by_cases hpair : IsHexchar ch ∧ IsHexchar cl
    · obtain ⟨msg, herror⟩ := ih fun hrest =>
        h (List.forall_mem_cons.mpr ⟨hpair.1, List.forall_mem_cons.mpr ⟨hpair.2, hrest⟩⟩)
      obtain ⟨octet, hok, -⟩ := hexOctet_of_isHexchar hpair.1 hpair.2
      refine ⟨msg, ?_⟩
      rw [stringAsBin, bindExcept_of_ok hok, bindExcept_of_error herror]
    · obtain ⟨msg, herror⟩ := hoctet hpair
      exact ⟨msg, by rw [stringAsBin, bindExcept_of_error herror]⟩

/-- Octets are written with two digits each and read as they were; a string of even length is read as the
number it writes, and written as it was, or it is refused. Capital letters are no digits, so no octets are
written in two ways. -/
theorem hexCodec :
    (∀ b, ∃ s, stringAsHex b = .ok s ∧ s.length = 2 * b.length ∧ (∀ c ∈ s, IsHexchar c) ∧
      stringAsBin s = .ok b) ∧
    ∀ s, Even s.length →
      ((∀ c ∈ s, IsHexchar c) → ∃ b, stringAsBin s = .ok b ∧ s.length = 2 * b.length ∧
        Octets.toNat b = hexNumber s) ∧
      ((¬ ∀ c ∈ s, IsHexchar c) → ∃ msg, stringAsBin s = .error (.invalidArgument msg)) ∧
      ∀ b, stringAsBin s = .ok b → stringAsHex b = .ok s := by
  refine ⟨fun b => ?_, fun s heven => ⟨fun h => ?_, exists_stringAsBin_eq_error, fun b hb => ?_⟩⟩
  · exact ⟨hexString b, stringAsHex_eq b, length_hexString b, fun c => isHexchar_of_mem_hexString,
      stringAsBin_hexString b⟩
  · obtain ⟨b, hb, hlength, hnumber, -⟩ := exists_stringAsBin_of_even heven h
    exact ⟨b, hb, hlength, hnumber⟩
  · by_cases h : ∀ c ∈ s, IsHexchar c
    · obtain ⟨b', hb', -, -, hhex⟩ := exists_stringAsBin_of_even heven h
      obtain rfl := Except.ok.inj (hb.symm.trans hb')
      rw [stringAsHex_eq, hhex]
    · obtain ⟨msg, herror⟩ := exists_stringAsBin_eq_error h
      rw [herror] at hb
      cases hb

/-! ### A digit without a partner -/

/-- The octets that are read are half as many as the digits, and stand for the number that they write. The
digit without a partner should be the last one of the number. -/
def KeepsValue (s : Bytes) : Prop :=
  ∃ b, stringAsBin s = .ok b ∧ b.length = (s.length + 1) / 2 ∧ Octets.toNat b = hexNumber s

/-- A last digit without a partner becomes an octet of its own. -/
private theorem stringAsBin_append_singleton {s b : Bytes} {c octet : UInt8} (heven : Even s.length)
    (hs : stringAsBin s = .ok b) (hc : hexOctet 48 c = .ok octet) :
    stringAsBin (s ++ [c]) = .ok (b ++ [octet]) := by
  induction s using stringAsBin.induct generalizing b with
  | case1 =>
    obtain rfl := Except.ok.inj hs
    rw [List.nil_append, stringAsBin, bindExcept_of_ok hc]
    rfl
  | case2 cl => simp at heven
  | case3 ch cl encoded ih =>
    have hlength : Even encoded.length := by
      simpa only [List.length_cons, Nat.even_add_one, not_not] using heven
    rw [stringAsBin, bindExcept_eq_ok_iff] at hs
    obtain ⟨first, hfirst, hs⟩ := hs
    obtain ⟨bytes, hbytes, hret⟩ := bindExcept_eq_ok_iff.mp hs
    obtain rfl := Except.ok.inj hret
    rw [List.cons_append, List.cons_append, stringAsBin, bindExcept_of_ok hfirst,
      bindExcept_of_ok (ih hlength hbytes)]
    rfl

/-- The number is kept exactly where the length is even, or all digits but the last one are zeros. It is about
all strings of digits, of any length. -/
theorem keepsValue_iff {s : Bytes} (h : ∀ c ∈ s, IsHexchar c) :
    KeepsValue s ↔ Even s.length ∨ ∀ c ∈ s.dropLast, c = 48 := by
  by_cases heven : Even s.length
  · refine iff_of_true ?_ (.inl heven)
    obtain ⟨b, hb, hlength, hnumber, -⟩ := exists_stringAsBin_of_even heven h
    exact ⟨b, hb, by omega, hnumber⟩
  · rw [or_iff_right heven]
    obtain ⟨front, c, rfl⟩ : ∃ front c, s = front ++ [c] := by
      refine (List.eq_nil_or_concat' s).resolve_left ?_
      rintro rfl
      exact heven (by decide)
    rw [List.length_append, List.length_singleton, Nat.even_add_one, not_not] at heven
    have hfront : ∀ c ∈ front, IsHexchar c := fun c hc => h c (List.mem_append_left _ hc)
    obtain ⟨b, hb, hlength, hnumber, -⟩ := exists_stringAsBin_of_even heven hfront
    obtain ⟨octet, hoctet, hvalue, -⟩ :=
      hexOctet_of_isHexchar (by decide : IsHexchar 48) (h c (by simp))
    have hread := stringAsBin_append_singleton heven hb hoctet
    have htrue : hexNumber (front ++ [c]) = hexNumber front * 16 + hexDigit c := by
      simp [hexNumber_append, hexNumber]
    have hcode : Octets.toNat (b ++ [octet]) = hexNumber front * 256 + hexDigit c := by
      simp [Octets.toNat_append, Octets.toNat_cons, hnumber, hvalue, show hexDigit 48 = 0 from rfl]
    rw [List.dropLast_concat, ← hexNumber_eq_zero_iff hfront]
    constructor
    · rintro ⟨b', hb', -, hnumber'⟩
      obtain rfl := Except.ok.inj (hread.symm.trans hb')
      omega
    · intro hzero
      refine ⟨_, hread, ?_, ?_⟩
      · simp only [List.length_append, List.length_singleton]
        omega
      · rw [hcode, htrue, hzero]

/-- The digits of the comment in the sources. -/
theorem keepsValue_iff_comment : KeepsValue (ascii "20a") ↔
    Even (ascii "20a").length ∨ ∀ c ∈ (ascii "20a").dropLast, c = 48 :=
  keepsValue_iff (by decide +kernel)

/-- They are read as 20 0a. -/
theorem not_keepsValue_comment : ¬ KeepsValue (ascii "20a") := by
  rintro ⟨b, hb, -, hnumber⟩
  have hread : stringAsBin (ascii "20a") = .ok [32, 10] := by decide +kernel
  obtain rfl := Except.ok.inj (hread.symm.trans hb)
  revert hnumber
  decide

end Galaxy42
