import Std.Data.ExtTreeMap
import Galaxy42.Exceptions
import Galaxy42.Lib.Cursor
import Galaxy42.TrivialSerialize.Generator

/-!
# The parser of `trivialserialize`

`parser` walks with the pointer `m_data_now` from `m_data_begin` to `m_data_end`; here the state is
a `Cursor` over the data, whose `ahead` is the range `[m_data_now, m_data_end)`. Malformed data
raise a `format_error_read`. The one exception are the announced lengths of variable strings, which
are *asserted* not to exceed `SANE_MAX_SIZE_FOR_STRING`, so that a length above it ends the process.

As in the generator, `obj_deserialize<T>` is a class with one instance for each specialization.

A cursor cannot leave its data, by its type. That the pointers of the sources do not is no consequence of this:
they are modelled as pointers in `Pointers`, with the arithmetic that the sources do on them, and are shown
there to do what the cursor does.

An integer is read into a type that is an argument of the template, and is added up in that type; so a pop has
the type as an argument, and reduces what it has after each octet. The loop of a map reads a key and a value and
inserts them, and refuses a key it has seen; the vectors are read by as many pops as were announced, without a
look at what is there, which `HostileCounts` is about.
-/

namespace Galaxy42

open Toolkit

namespace TrivialSerialize

/-- A method of `parser`: a program over the read position. The data stay where they are, and an exception
leaves the position where it was thrown. -/
abbrev Parser (α : Type) := Program Exn (Cursor UInt8) α

/-- `SANE_MAX_SIZE_FOR_STRING` -/
def saneMaxSizeForString : ℕ := 50000000

/-- The unsigned integer types an integer can be read into. -/
inductive UIntType where
  /-- `unsigned char` -/
  | u8
  /-- `unsigned short` -/
  | u16
  /-- `unsigned int` -/
  | u32
  /-- `uint64_t` and `size_t` -/
  | u64
  deriving DecidableEq, Repr

/-- The width of an unsigned type, in octets. -/
def UIntType.octets : UIntType → ℕ
  | u8 => 1
  | u16 => 2
  | u32 => 4
  | u64 => 8

/-- Conversion to the unsigned type: reduction modulo its range. A field may be wider than the type that it is
read into. -/
def UIntType.wrap (T : UIntType) (value : ℕ) : ℕ :=
  value % 256 ^ T.octets

open Program

variable {σ : Type}

/-- The constructor of `parser` over a string, which refuses the empty string. The other constructor takes an
empty buffer. -/
def parserOfString (dataStr : Bytes) : Program Exn σ (Cursor UInt8) := do
  checkThat (dataStr ≠ []) (.invalidArgument "input string is empty")
  return Cursor.start dataStr

/-- The constructor of `parser` over a buffer. -/
def parserOfBuffer (buf : Bytes) : Cursor UInt8 :=
  Cursor.start buf

/-- Run pops on a new parser over a string. -/
def parseString {α : Type} (dataStr : Bytes) (pops : Parser α) : Program Exn σ α := do
  let parser ← parserOfString dataStr
  within parser pops

/-- `parser::is_end` -/
def isEnd : Parser Bool := do
  let c ← get
  return decide (c.now ≥ c.data.length)

/-- `parser::pop_byte_u`. At the end of the data it throws, and the position stays. -/
def popByteU : Parser UInt8 := do
  let c ← get
  match c.ahead with
  | [] => raise .formatErrorRead
  | b :: _ =>
    set (c.advance 1)
    return b

/-- `parser::pop_byte_s` -/
def popByteS : Parser Int8 := do
  let c ← get
  match c.ahead with
  | [] => raise .formatErrorRead
  | b :: _ =>
    set (c.advance 1)
    return b.toInt8

/-- `parser::pop_byte_skip`. On another character than the expected one the parser steps back. -/
def popByteSkip (c : Int8) : Parser Unit := do
  let was ← popByteU
  if was ≠ c.toUInt8 then
    modify fun p => { p with now := p.now - 1 }
    raise .formatErrorReadDelimiter

/-- `parser::pop_bytes_n`. Nothing at all is checked for the empty string. -/
def popBytesN (size : ℕ) : Parser Bytes := do
  if size = 0 then
    return []
  let c ← get
  checkThat (c.ahead ≠ []) .formatErrorRead
  checkThat (c.ahead.length ≥ size) .formatErrorRead
  set (c.advance size)
  return c.ahead.take size

/-- `parser::skip_bytes_n`. It has the checks of `popBytesN`. -/
def skipBytesN (size : ℕ) : Parser Unit := do
  if size = 0 then
    return
  let c ← get
  checkThat (c.ahead ≠ []) .formatErrorRead
  checkThat (c.ahead.length ≥ size) .formatErrorRead
  set (c.advance size)

/-- The loop of `pop_integer_u<S, T>`, with the octets still to be read. Octets that were read before the data
end are behind the position, and what they add up to is lost. -/
def popIntegerULoop (T : UIntType) (value multiplier : ℕ) : ℕ → Parser ℕ
  | 0 => pure value
  | i + 1 => do
    let thisByte ← popByteU
    popIntegerULoop T (T.wrap (value + thisByte.toNat * multiplier)) (multiplier >>> 8) i

/-- `parser::pop_integer_u<S, T>`. The number is not checked in any way, and what does not fit into the type
is cut off. -/
def popIntegerU (S : OctetCount 8) (T : UIntType) : Parser ℕ :=
  popIntegerULoop T 0 (1 <<< ((S.val - 1) * 8)) S

/-- `parser::pop_integer_s<S, T>` -/
def popIntegerS : Parser ℤ :=
  raise (.runtimeError "Not implemented yet")

/-- `parser::pop_bytes_sizeoctets<S>` -/
def popBytesSizeoctets (S : OctetCount 4) : Parser Bytes := do
  let size ← popIntegerU (OctetCount.ofSize S) .u64
  popBytesN size

/-- `parser::pop_integer_uvarint`. A number is accepted in each of the widths that it fits into, also in those
that are not used to write it. -/
def popIntegerUvarint : Parser ℕ := do
  let first ← popByteU
  if first < 0xFD then
    return first.toNat
  else if first = 0xFD then
    popIntegerU OctetCount.two .u64
  else if first = 0xFE then
    popIntegerU OctetCount.four .u64
  else
    popIntegerU OctetCount.eight .u64

/-- `parser::pop_varstring`. A length above the limit aborts the process, before it is compared with what is
there. -/
def popVarstring : Parser Bytes := do
  let size ← popIntegerUvarint
  assertThat (size ≤ saneMaxSizeForString)
  popBytesN size

/-- `parser::skip_varstring` -/
def skipVarstring : Parser Unit := do
  let size ← popIntegerUvarint
  assertThat (size ≤ saneMaxSizeForString)
  skipBytesN size

/-- `parser::pop_vector_string`. The count is not compared with anything. Each string needs an octet at least,
so the data end before a count that is too large does. -/
def popVectorString : Parser (List Bytes) := do
  let size ← popIntegerUvarint
  replicateM popVarstring size

/-- The specializations of `obj_deserialize<T>`. -/
class ObjDeserialize (τ : Type) where
  /-- `obj_deserialize<T>(parser &)` -/
  objDeserialize : Parser τ

export ObjDeserialize (objDeserialize)

section Objects

variable {τ κ ν : Type} [ObjDeserialize τ] [ObjDeserialize κ] [ObjDeserialize ν]

/-- `parser::pop_object<T>` -/
def popObject : Parser τ :=
  objDeserialize

/-- `parser::pop_vector_object<T>` -/
def popVectorObject : Parser (List τ) := do
  let size ← popIntegerUvarint
  replicateM popObject size

section PopMapObject

variable [Ord κ] [Std.TransOrd κ]

/-- One round of the loop of `pop_map_object`, which refuses a key it has seen. The check of the size behind
the insertion never fails, since the key is new. -/
def popMapEntry (ret : Std.ExtTreeMap κ ν) : Parser (Std.ExtTreeMap κ ν) := do
  let key : κ ← popObject
  let value : ν ← popObject
  checkThat (¬ key ∈ ret) .formatErrorReadBadformat
  let ret' := ret.insertIfNew key value
  checkThat (ret'.size = ret.size + 1) .formatErrorReadBadformat
  return ret'

/-- The loop of `pop_map_object`, with the rounds still to be made. -/
def popMapLoop : ℕ → Std.ExtTreeMap κ ν → Parser (Std.ExtTreeMap κ ν)
  | 0, ret => pure ret
  | i + 1, ret => do
    let ret' ← popMapEntry ret
    popMapLoop i ret'

/-- `parser::pop_map_object<TKey, TVal>`. The order of the entries does not matter, but none may come twice. -/
def popMapObject : Parser (Std.ExtTreeMap κ ν) := do
  let size ← popIntegerUvarint
  let ret ← popMapLoop size ∅
  checkThat (ret.size = size) .formatErrorReadBadformat
  return ret

end PopMapObject

end Objects

instance : ObjDeserialize Bytes := ⟨popVarstring⟩

/-- The byte read is converted to `char`. -/
instance : ObjDeserialize Int8 := ⟨do
  let c ← popByteU
  return c.toInt8⟩

instance : ObjDeserialize (List Bytes) := ⟨popVectorObject⟩

end TrivialSerialize

end Galaxy42
