import Galaxy42.Exceptions

/-!
# Hexadecimal strings

The two classes of the sources that mark how a string is encoded, `string_as_hex` and
`string_as_bin`, as the conversions between them. Characters are octets.

The conversion to hexadecimal writes two characters for each octet, the higher digit first, and always in
lower case. What is written is read as it was (`stringAsBin_hexString`). The other direction takes lower case
only, and refuses all other characters. It also takes a string with an odd number of characters, whose last
one is read as an octet by itself, though the comment in front of it asks for the first one.

The lemmas here are what the texts of addresses and the names of keys need of the two. What exactly the pair
of them keeps, and for which strings, is in `Utils/HexCodec`.
-/

namespace Galaxy42

open Toolkit

/-- `hexchar2int` -/
def hexchar2int (c : UInt8) : Except Exn UInt8 :=
  if c ≥ 48 ∧ c ≤ 57 then .ok (c - 48)
  else if c ≥ 97 ∧ c ≤ 102 then .ok (c - 97 + 10)
  else .error (.invalidArgument ("Invalid character (" ++
    String.singleton (Char.ofNat c.toNat) ++ ") in parsing hex number"))

/-- The octet written by two hexadecimal characters. -/
def hexOctet (ch cl : UInt8) : Except Exn UInt8 := do
  let h ← hexchar2int ch
  let l ← hexchar2int cl
  return h * 16 + l

/-- The constructor of `string_as_bin` from a `string_as_hex`. A last character without a partner is
read as if a zero stood before it. -/
def stringAsBin : Bytes → Except Exn Bytes
  | [] => .ok []
  | [cl] => do
    let octet ← hexOctet 48 cl
    return [octet]
  | ch :: cl :: encoded => do
    let octet ← hexOctet ch cl
    let bytes ← stringAsBin encoded
    return octet :: bytes

/-- `int2hexchar` -/
def int2hexchar (i : UInt8) : Except Exn UInt8 :=
  if i ≤ 9 then .ok (48 + i)
  else if i ≤ 15 then .ok (97 + (i - 10))
  else .error (.invalidArgument ("Invalid hex value:" ++ toString i.toNat))

/-- The constructor of `string_as_hex` from a `string_as_bin`. -/
def stringAsHex : Bytes → Except Exn Bytes
  | [] => .ok []
  | byte :: bytes => do
    let ch ← int2hexchar (byte / 16)
    let cl ← int2hexchar (byte % 16)
    let encoded ← stringAsHex bytes
    return ch :: cl :: encoded

/-! ### Strings in hexadecimal -/

/-- The character of a number below 16. -/
def hexchar (i : UInt8) : UInt8 := if i ≤ 9 then 48 + i else 97 + (i - 10)

/-- Octets in hexadecimal. -/
def hexString (bin : Bytes) : Bytes :=
  bin.flatMap fun byte => [hexchar (byte / 16), hexchar (byte % 16)]

/-- A character of a string in hexadecimal. -/
def IsHexchar (c : UInt8) : Prop := 48 ≤ c ∧ c ≤ 57 ∨ 97 ≤ c ∧ c ≤ 102

instance (c : UInt8) : Decidable (IsHexchar c) := inferInstanceAs (Decidable (_ ∨ _))

/-- A number below 16 is written as one character, which is read as that number. -/
theorem hexchar_of_lt {i : UInt8} (h : i < 16) :
    int2hexchar i = .ok (hexchar i) ∧ hexchar2int (hexchar i) = .ok i ∧ IsHexchar (hexchar i) := by
  have hall : ∀ n : Fin 16, int2hexchar (UInt8.ofNat n) = .ok (hexchar (UInt8.ofNat n)) ∧
      hexchar2int (hexchar (UInt8.ofNat n)) = .ok (UInt8.ofNat n) ∧
      IsHexchar (hexchar (UInt8.ofNat n)) := by
    decide
  have hi := hall ⟨i.toNat, h⟩
  rwa [UInt8.ofNat_toNat] at hi

private theorem div_sixteen_lt (byte : UInt8) : byte / 16 < 16 := by
  rw [UInt8.lt_iff_toNat_lt, UInt8.toNat_div]
  exact Nat.div_lt_of_lt_mul byte.toNat_lt

private theorem mod_sixteen_lt (byte : UInt8) : byte % 16 < 16 := by
  rw [UInt8.lt_iff_toNat_lt, UInt8.toNat_mod]
  exact Nat.mod_lt _ (by decide)

private theorem hexOctet_hexchar (byte : UInt8) :
    hexOctet (hexchar (byte / 16)) (hexchar (byte % 16)) = .ok byte := by
  have hsum : byte / 16 * 16 + byte % 16 = byte := by
    have hlt := byte.toNat_lt
    apply UInt8.toNat_inj.mp
    simp only [UInt8.toNat_add, UInt8.toNat_mul, UInt8.toNat_div, UInt8.toNat_mod, UInt8.toNat_ofNat,
      Nat.reducePow, Nat.reduceMod]
    omega
  rw [hexOctet, (hexchar_of_lt (div_sixteen_lt byte)).2.1, (hexchar_of_lt (mod_sixteen_lt byte)).2.1]
  exact congrArg Except.ok hsum

theorem stringAsHex_eq (bin : Bytes) : stringAsHex bin = .ok (hexString bin) := by
  induction bin with
  | nil => rfl
  | cons byte bin ih =>
    rw [stringAsHex, (hexchar_of_lt (div_sixteen_lt byte)).1, (hexchar_of_lt (mod_sixteen_lt byte)).1, ih]
    rfl

/-- What is written in hexadecimal is read as it was. -/
theorem stringAsBin_hexString (bin : Bytes) : stringAsBin (hexString bin) = .ok bin := by
  induction bin with
  | nil => rfl
  | cons byte bin ih =>
    rw [hexString, List.flatMap_cons, List.cons_append, List.cons_append, List.nil_append, stringAsBin,
      hexOctet_hexchar, ← hexString, ih]
    rfl

theorem length_hexString (bin : Bytes) : (hexString bin).length = 2 * bin.length := by
  induction bin with
  | nil => rfl
  | cons byte bin ih =>
    rw [hexString, List.flatMap_cons, ← hexString, List.length_append, ih]
    simp only [List.length_cons, List.length_nil]
    omega

theorem isHexchar_of_mem_hexString {bin : Bytes} {c : UInt8} (h : c ∈ hexString bin) : IsHexchar c := by
  obtain ⟨byte, -, hc⟩ := List.mem_flatMap.mp h
  rcases List.mem_cons.mp hc with rfl | hc
  · exact (hexchar_of_lt (div_sixteen_lt byte)).2.2
  · obtain rfl := List.mem_singleton.mp hc
    exact (hexchar_of_lt (mod_sixteen_lt byte)).2.2

end Galaxy42
