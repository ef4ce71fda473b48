import Std.Data.ExtTreeMap
import Galaxy42.Exceptions
import Galaxy42.Lib.Octets

/-!
# The generator of `trivialserialize`

`generator` collects the serialized data in the string `m_str`; here that string is the state of
the program, and every `push_...` appends to it. Values of the unsigned integer types are natural
numbers: the widest of these types has 64 bits, and each push checks the range of its octets.

The template specializations `obj_serialize<T>` are the instances of the class `ObjSerialize`. A
`std::map` is a `Std.ExtTreeMap`, whose `toList` goes through the keys in increasing order as the
iterators of the map do: a `char` is compared as a signed byte, a `std::string` byte by byte as
unsigned bytes, a vector lexicographically.

A template argument that is a number of octets is a number with its bound (`OctetCount`), since the templates
assert it at compile time: there is no generator of a field of nine octets, or of none.

Hardly anything is proved here. The module follows the sources function by function, with their names, the
order of their checks and the texts of their exceptions; what a push writes, and when it can, is the subject
of `Encoding`, and what it leaves behind when it cannot that of `Atomicity`.
-/

namespace Galaxy42

open Toolkit

namespace TrivialSerialize

/-- A method of `generator`: a program over the data generated so far. What was generated before an exception
stays in the object. -/
abbrev Generator (α : Type) := Program Exn Bytes α

/-- How many octets a field takes: at least one, at most `max`. -/
abbrev OctetCount (max : ℕ) := {S : ℕ // 0 < S ∧ S ≤ max}

namespace OctetCount

/-- One octet, of up to eight. -/
def one : OctetCount 8 := ⟨1, by decide⟩

/-- Two octets. -/
def two : OctetCount 8 := ⟨2, by decide⟩

/-- Four octets. -/
def four : OctetCount 8 := ⟨4, by decide⟩

/-- Eight octets. -/
def eight : OctetCount 8 := ⟨8, by decide⟩

/-- The octets of the size of a string, as the octets of any integer. -/
def ofSize (S : OctetCount 4) : OctetCount 8 :=
  ⟨S.val, S.property.1, S.property.2.trans (Nat.le_add_right 4 4)⟩

@[simp] theorem val_one : one.val = 1 := rfl

@[simp] theorem val_two : two.val = 2 := rfl

@[simp] theorem val_four : four.val = 4 := rfl

@[simp] theorem val_eight : eight.val = 8 := rfl

@[simp] theorem val_ofSize (S : OctetCount 4) : (ofSize S).val = S.val := rfl

end OctetCount

open Program

/-- `generator::push_byte_u` -/
def pushByteU (c : UInt8) : Generator Unit :=
  modify (· ++ [c])

/-- `generator::push_byte_s`. The octet is that of the two's complement. -/
def pushByteS (c : Int8) : Generator Unit :=
  modify (· ++ [c.toUInt8])

/-- `generator::push_bytes_n`. The `size` is only asserted. -/
def pushBytesN (size : ℕ) (data : Bytes) : Generator Unit := do
  assertThat (size = data.length)
  modify (· ++ data)

/-- `get_max_value_of_S_octet_uint<S>`. It is what the code computes with shifts, which `Widths` compares with
the largest number of so many octets. -/
def getMaxValueOfSOctetUint (S : ℕ) : ℕ :=
  (0xFF <<< ((S - 1) * 8)) ||| ((1 <<< ((S - 1) * 8)) - 1)

/-- The loop of `push_integer_u<S>`, with the octets still to be written. The divider goes down with each
octet, from the most significant one on. -/
def pushIntegerULoop (value divider : ℕ) : ℕ → Generator Unit
  | 0 => pure ()
  | i + 1 => do
    pushByteU (UInt8.ofNat (value / divider % 256))
    pushIntegerULoop value (divider >>> 8) i

/-- `generator::push_integer_u<S>`. The value is checked before anything is written. The bound itself is
refused too. -/
def pushIntegerU (S : OctetCount 8) (value : ℕ) : Generator Unit := do
  if S.val = 8 then
    checkThat (¬ value ≥ 0xFFFFFFFFFFFFFFFF) .formatErrorWriteValueTooBig
  else
    checkThat (¬ value ≥ getMaxValueOfSOctetUint S) .formatErrorWriteValueTooBig
  pushIntegerULoop value (1 <<< ((S.val - 1) * 8)) S

/-- `generator::push_integer_s<S>`. The code is not written yet, and says so in an exception. -/
def pushIntegerS (_value : ℤ) : Generator Unit :=
  raise (.runtimeError "Trying to use a not implemented/TODO code, in push_integer_s (line 291)")

/-- `generator::push_bytes_sizeoctets<S>`. A string that is too long for its size field throws when the size
is written, so that nothing is. -/
def pushBytesSizeoctets (S : OctetCount 4) (data : Bytes) : Generator Unit := do
  pushIntegerU (OctetCount.ofSize S) data.length
  modify (· ++ data)

/-- `generator::push_bytes_sizeoctets<S>` with the size asserted first. -/
def pushBytesSizeoctetsMax (S : OctetCount 4) (data : Bytes) (maxSizeForAssert : ℕ) :
    Generator Unit := do
  assertThat (data.length ≤ maxSizeForAssert)
  pushBytesSizeoctets S data

/-- `generator::push_integer_uvarint`. Small numbers take one octet. For the others the first octet tells how
many octets follow. -/
def pushIntegerUvarint (val : ℕ) : Generator Unit :=
  if val < 0xFD then
    pushIntegerU OctetCount.one val
  else if val < 0xFFFF then do
    pushByteU 0xFD
    pushIntegerU OctetCount.two val
  else if val < 0xFFFFFFFF then do
    pushByteU 0xFE
    pushIntegerU OctetCount.four val
  else do
    pushByteU 0xFF
    pushIntegerU OctetCount.eight val

/-- `generator::push_varstring`. The length is written as a number of one of the four widths, and the octets
behind it. -/
def pushVarstring (data : Bytes) : Generator Unit := do
  pushIntegerUvarint data.length
  pushBytesN data.length data

/-- `generator::push_vector_string`. An exception at one string leaves the strings in front of it in the
object. -/
def pushVectorString (data : List Bytes) : Generator Unit := do
  pushIntegerUvarint data.length
  data.forM pushVarstring

/-- The specializations of `obj_serialize<T>`. -/
class ObjSerialize (τ : Type) where
  /-- `obj_serialize(const T &, generator &)` -/
  objSerialize : τ → Generator Unit

export ObjSerialize (objSerialize)

section Objects

variable {τ κ ν : Type} [ObjSerialize τ] [ObjSerialize κ] [ObjSerialize ν]

/-- `generator::push_object<T>` -/
def pushObject (data : τ) : Generator Unit :=
  objSerialize data

/-- `generator::push_vector_object<T>` -/
def pushVectorObject (data : List τ) : Generator Unit := do
  pushIntegerUvarint data.length
  data.forM pushObject

/-- One round of the loop of `push_map_object`. -/
def pushMapEntry (pair : κ × ν) : Generator Unit := do
  pushObject pair.1
  pushObject pair.2

/-- `generator::push_map_object<TKey, TVal>`. The entries come in the order of their keys, as an iteration
over a map gives them. -/
def pushMapObject [Ord κ] [Std.TransOrd κ] (data : Std.ExtTreeMap κ ν) : Generator Unit := do
  pushIntegerUvarint data.size
  data.toList.forM pushMapEntry

end Objects

instance : ObjSerialize Bytes := ⟨pushVarstring⟩

/-- A `char` is serialized as one unsigned byte. -/
instance : ObjSerialize Int8 := ⟨fun data => pushByteU data.toUInt8⟩

instance : ObjSerialize (List Bytes) := ⟨pushVectorObject⟩

/-- The string generated by a sequence of pushes on a new generator, `gen.str()`. The object is a local one,
so that an exception leaves nothing of it. -/
def generate (gen : Generator Unit) {σ : Type} : Program Exn σ Bytes := do
  let (_, str) ← withinState [] gen
  return str

end TrivialSerialize

end Galaxy42
