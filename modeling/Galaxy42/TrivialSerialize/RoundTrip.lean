import Galaxy42.TrivialSerialize.Encoding

/-!
# Round trip over the whole serialized format

A message is a sequence of fields, each pushed with one method of the generator and popped with the
matching method of the parser. `Field` lists these methods with their template arguments; a `Record`
is a field together with its value. The main result, `parseAll_of_pushAll`, says that whenever all
pushes succeed, the matching pops on the generated bytes, followed by anything, return the pushed
values in order and leave the parser exactly at the end of the generated part.

The parser asserts that no announced string is longer than `saneMaxSizeForString`. The generator has
no such limit, so the result is about records in which every string is within it, including the
strings inside of vectors and maps: for a longer one pushing succeeds, and popping aborts
(`not_parseAll_of_long_element`).

The values of a field have a type that depends on the field (`Field.Val`), so a record is a dependent pair and
a pop returns a value of the right type. Vectors and maps are fields with the types of their elements, keys and
values as arguments, and these can be all the types for which the program has both specializations
(`ObjType`): a map from vectors of strings to characters is a field as well.

The lemmas of `Encoding` for a push and a pop are put together by a case for each field (`emits_push`,
`reads_pop`), and a message is an induction over its records, in which reads are composed.
-/

namespace Galaxy42

open Toolkit Program Octets

namespace TrivialSerialize

/-! ### Objects -/

/-- The types that have both specializations, `obj_serialize` and `obj_deserialize`. -/
inductive ObjType where
  /-- `std::string` -/
  | string
  /-- `char` -/
  | char
  /-- `std::vector<std::string>` -/
  | vectorString
  deriving DecidableEq, Repr

namespace ObjType

/-- The values of an object type. -/
@[reducible] def Val : ObjType → Type
  | string => Bytes
  | char => Int8
  | vectorString => List Bytes

instance : (t : ObjType) → ObjSerialize t.Val
  | string => inferInstanceAs (ObjSerialize Bytes)
  | char => inferInstanceAs (ObjSerialize Int8)
  | vectorString => inferInstanceAs (ObjSerialize (List Bytes))

instance : (t : ObjType) → ObjDeserialize t.Val
  | string => inferInstanceAs (ObjDeserialize Bytes)
  | char => inferInstanceAs (ObjDeserialize Int8)
  | vectorString => inferInstanceAs (ObjDeserialize (List Bytes))

instance : (t : ObjType) → LawfulObj t.Val
  | string => inferInstanceAs (LawfulObj Bytes)
  | char => inferInstanceAs (LawfulObj Int8)
  | vectorString => inferInstanceAs (LawfulObj (List Bytes))

instance : (t : ObjType) → Ord t.Val
  | string => inferInstanceAs (Ord (List UInt8))
  | char => inferInstanceAs (Ord Int8)
  | vectorString => inferInstanceAs (Ord (List (List UInt8)))

instance : (t : ObjType) → Std.TransOrd t.Val
  | string => inferInstanceAs (Std.TransOrd (List UInt8))
  | char => inferInstanceAs (Std.TransOrd Int8)
  | vectorString => inferInstanceAs (Std.TransOrd (List (List UInt8)))

instance : (t : ObjType) → Std.LawfulEqOrd t.Val
  | string => inferInstanceAs (Std.LawfulEqOrd (List UInt8))
  | char => inferInstanceAs (Std.LawfulEqOrd Int8)
  | vectorString => inferInstanceAs (Std.LawfulEqOrd (List (List UInt8)))

end ObjType

/-! ### Fields -/

/-- The ways to push and pop one value. -/
inductive Field where
  /-- `push_byte_u`, `pop_byte_u` -/
  | byteU
  /-- `push_byte_s`, `pop_byte_s` -/
  | byteS
  /-- `push_bytes_n(size, ...)`, `pop_bytes_n(size)` -/
  | bytesN (size : ℕ)
  /-- `push_integer_u<S>`, `pop_integer_u<S, T>` with a type `T` at least `S` octets wide -/
  | integerU (S : OctetCount 8) (T : UIntType) (hT : S.val ≤ T.octets)
  /-- `push_bytes_sizeoctets<S>`, `pop_bytes_sizeoctets<S>` -/
  | bytesSizeoctets (S : OctetCount 4)
  /-- `push_bytes_sizeoctets<S>(..., max_size_for_assert)`, `pop_bytes_sizeoctets<S>` -/
  | bytesSizeoctetsMax (S : OctetCount 4) (maxSizeForAssert : ℕ)
  /-- `push_integer_uvarint`, `pop_integer_uvarint` -/
  | integerUvarint
  /-- `push_varstring`, `pop_varstring` -/
  | varstring
  /-- `push_vector_string`, `pop_vector_string` -/
  | vectorString
  /-- `push_vector_object<T>`, `pop_vector_object<T>` -/
  | vectorObject (t : ObjType)
  /-- `push_map_object<TKey, TVal>`, `pop_map_object<TKey, TVal>` -/
  | mapObject (k v : ObjType)

namespace Field

/-- The values of a field. -/
@[reducible] def Val : Field → Type
  | byteU => UInt8
  | byteS => Int8
  | bytesN _ => Bytes
  | integerU _ _ _ => ℕ
  | bytesSizeoctets _ => Bytes
  | bytesSizeoctetsMax _ _ => Bytes
  | integerUvarint => ℕ
  | varstring => Bytes
  | vectorString => List Bytes
  | vectorObject t => List t.Val
  | mapObject k v => Std.ExtTreeMap k.Val v.Val

/-- Push a value of the field. -/
def push : (f : Field) → f.Val → Generator Unit
  | byteU, c => pushByteU c
  | byteS, c => pushByteS c
  | bytesN size, data => pushBytesN size data
  | integerU S _ _, value => pushIntegerU S value
  | bytesSizeoctets S, data => pushBytesSizeoctets S data
  | bytesSizeoctetsMax S maxSizeForAssert, data => pushBytesSizeoctetsMax S data maxSizeForAssert
  | integerUvarint, val => pushIntegerUvarint val
  | varstring, data => pushVarstring data
  | vectorString, data => pushVectorString data
  | vectorObject _, data => pushVectorObject data
  | mapObject _ _, data => pushMapObject data

/-- Pop a value of the field. -/
def pop : (f : Field) → Parser f.Val
  | byteU => popByteU
  | byteS => popByteS
  | bytesN size => popBytesN size
  | integerU S T _ => popIntegerU S T
  | bytesSizeoctets S => popBytesSizeoctets S
  | bytesSizeoctetsMax S _ => popBytesSizeoctets S
  | integerUvarint => popIntegerUvarint
  | varstring => popVarstring
  | vectorString => popVectorString
  | vectorObject _ => popVectorObject
  | mapObject _ _ => popMapObject

/-- The octets of a value. -/
def octets : (f : Field) → f.Val → Bytes
  | byteU, c => [c]
  | byteS, c => [c.toUInt8]
  | bytesN _, data => data
  | integerU S _ _, value => bigEndian S.val value
  | bytesSizeoctets S, data => bigEndian S.val (List.length data) ++ data
  | bytesSizeoctetsMax S _, data => bigEndian S.val (List.length data) ++ data
  | integerUvarint, val => uvarintOctets val
  | varstring, data => varstringOctets data
  | vectorString, data => vectorOctets varstringOctets data
  | vectorObject _, data => vectorOctets LawfulObj.octets data
  | mapObject _ _, data => mapOctets data

/-- The values that can be pushed. -/
def Fits : (f : Field) → f.Val → Prop
  | byteU, _ => True
  | byteS, _ => True
  | bytesN size, data => size = List.length data
  | integerU S _ _, value => value < 256 ^ S.val - 1
  | bytesSizeoctets S, data => List.length data < 256 ^ S.val - 1
  | bytesSizeoctetsMax S maxSizeForAssert, data =>
      List.length data ≤ maxSizeForAssert ∧ List.length data < 256 ^ S.val - 1
  | integerUvarint, val => val < uvarintLimit
  | varstring, data => List.length data < uvarintLimit
  | vectorString, data => List.length data < uvarintLimit ∧ ∀ x ∈ data, x.length < uvarintLimit
  | vectorObject _, data => List.length data < uvarintLimit ∧ ∀ x ∈ data, LawfulObj.Fits x
  | mapObject _ _, data => MapFits data

/-- The values without a string beyond the limit of the parser. Strings inside of vectors and of maps are
among them, as the parser reads each with the same limit. -/
def Sane : (f : Field) → f.Val → Prop
  | varstring, data => List.length data ≤ saneMaxSizeForString
  | vectorString, data => ∀ x ∈ data, x.length ≤ saneMaxSizeForString
  | vectorObject _, data => ∀ x ∈ data, LawfulObj.Sane x
  | mapObject _ _, data => MapSane data
  | _, _ => True

/-- Every push emits the octets of its value. -/
private theorem emits_push : (f : Field) → (x : f.Val) → Emits (f.push x) (f.Fits x) (f.octets x)
  | byteU, c => Emits.append [c]
  | byteS, c => Emits.append [c.toUInt8]
  | bytesN size, data => emits_pushBytesN size data
  | integerU S _ _, value => emits_pushIntegerU S value
  | bytesSizeoctets S, data => emits_pushBytesSizeoctets S data
  | bytesSizeoctetsMax S maxSize, data => emits_pushBytesSizeoctetsMax S data maxSize
  | integerUvarint, val => emits_pushIntegerUvarint val
  | varstring, data => emits_pushVarstring data
  | vectorString, data => emits_pushVectorString data
  | vectorObject _, data => emits_pushVectorObject data
  | mapObject _ _, data => emits_pushMapObject data

/-- Every pop reads the octets of a value back. -/
private theorem reads_pop :
    (f : Field) → (x : f.Val) → f.Fits x → f.Sane x → Reads f.pop (f.octets x) x
  | byteU, c, _, _ => reads_popByteU c
  | byteS, c, _, _ => reads_popByteS c
  | bytesN _, data, h, _ => h ▸ reads_popBytesN data
  | integerU S _ hT, _, h, _ => reads_popIntegerU_bigEndian S hT h
  | bytesSizeoctets S, _, h, _ => reads_popBytesSizeoctets S h
  | bytesSizeoctetsMax S _, _, h, _ => reads_popBytesSizeoctets S h.2
  | integerUvarint, _, h, _ => reads_popIntegerUvarint h
  | varstring, _, _, hs => reads_popVarstring hs
  | vectorString, _, h, hs => reads_popVectorString h.1 hs
  | vectorObject _, _, h, hs => reads_popVectorObject h.1 h.2 hs
  | mapObject _ _, _, h, hs => reads_popMapObject h hs

end Field

/-! ### Records -/

/-- A field and its value. -/
abbrev Record := Σ f : Field, f.Val

/-- Push every record, in order. -/
def pushAll (xs : List Record) : Generator Unit :=
  xs.forM fun x => x.1.push x.2

/-- Pop one value of every field, in order. -/
def popAll : List Field → Parser (List Record)
  | [] => pure []
  | f :: fs => do
    let x ← f.pop
    let xs ← popAll fs
    return ⟨f, x⟩ :: xs

/-- The octets of a sequence of records. -/
def recordOctets (xs : List Record) : Bytes :=
  xs.flatMap fun x => x.1.octets x.2

private theorem emits_pushAll (xs : List Record) :
    Emits (pushAll xs) (∀ x ∈ xs, x.1.Fits x.2) (recordOctets xs) :=
  Emits.forM (fun x => x.1.emits_push x.2) xs

private theorem reads_popAll {xs : List Record} (hfits : ∀ x ∈ xs, x.1.Fits x.2)
    (hsane : ∀ x ∈ xs, x.1.Sane x.2) :
    Reads (popAll (xs.map Sigma.fst)) (recordOctets xs) xs := by
  induction xs with
  | nil => exact Reads.pure []
  | cons x xs ih =>
    have hx := x.1.reads_pop x.2 (hfits x (by simp)) (hsane x (by simp))
    have hxs := ih (fun y hy => hfits y (by simp [hy])) fun y hy => hsane y (by simp [hy])
    exact hx.bind (hxs.map (g := fun ys => x :: ys))

/-- Pop one value of every field from a new parser over `dataStr`, and ask whether it is at the end.
The parser is returned too. -/
def parseAll (dataStr : Bytes) (fields : List Field) {σ : Type} :
    Program Exn σ ((List Record × Bool) × Cursor UInt8) := do
  let parser ← parserOfString dataStr
  withinState parser do
    let xs ← popAll fields
    let atEnd ← isEnd
    return (xs, atEnd)

/-- Whenever all pushes succeed and generate something, the matching pops on the generated bytes with anything
appended return the pushed values in order, and leave the parser exactly at the end of the generated part. The
records may be any number of fields of any kinds. That no string is longer than the parser asserts is a
condition, since the generator does not look at it. -/
theorem parseAll_of_pushAll {xs : List Record} {out : Bytes} {σ : Type} (t : σ) (suf : Bytes)
    (hsane : ∀ x ∈ xs, x.1.Sane x.2) (hpush : generate (pushAll xs) t = .ok out t)
    (hout : out ≠ []) :
    parseAll (out ++ suf) (xs.map Sigma.fst) t =
      .ok ((xs, decide (suf = [])), ⟨out ++ suf, out.length⟩) t := by
  obtain ⟨hfits, rfl⟩ := (emits_pushAll xs [] out).mp (generate_eq_ok_iff.mp hpush).1
  rw [List.nil_append] at hout ⊢
  have hstart : recordOctets xs ++ suf ≠ [] := List.append_ne_nil_of_left_ne_nil hout suf
  have hread := (reads_popAll hfits hsane).apply_start suf
  rw [parseAll, bind_of_ok (parserOfString_of_ne_nil hstart t), withinState_eq_ok_iff]
  refine ⟨?_, rfl⟩
  rw [bind_of_ok hread, bind_of_ok (isEnd_between _ suf)]
  rfl

theorem parseAll_of_pushAll_example :
    parseAll ([0xFF, 0x02, 0x41, 0x42, 0x00, 0xFD, 0x01, 0x00] ++ [0x07])
      [.byteS, .vectorObject .char, .varstring, .integerUvarint] () =
      .ok (([⟨.byteS, -1⟩, ⟨.vectorObject .char, [65, 66]⟩, ⟨.varstring, []⟩,
        ⟨.integerUvarint, 256⟩], false), ⟨[0xFF, 0x02, 0x41, 0x42, 0x00, 0xFD, 0x01, 0x00, 0x07], 8⟩)
        () :=
  @parseAll_of_pushAll [⟨.byteS, -1⟩, ⟨.vectorObject .char, [65, 66]⟩, ⟨.varstring, []⟩,
    ⟨.integerUvarint, 256⟩] _ _ () [0x07]
    (by simp [Field.Sane, LawfulObj.Sane, saneMaxSizeForString]) rfl (by simp)

/-! ### Strings beyond the limit -/

/-- A record that is not a variable string beyond the limit of the parser. -/
def Record.VarstringBounded : Record → Prop
  | ⟨.varstring, data⟩ => List.length data ≤ saneMaxSizeForString
  | _ => True

/-- Popping a vector of strings that begins with one beyond the limit aborts. -/
private theorem popVectorString_start_oversize {data : Bytes} {rest : List Bytes}
    (h : saneMaxSizeForString < data.length) (hdata : data.length < uvarintLimit)
    (hlen : (data :: rest).length < uvarintLimit) :
    ∃ c, popVectorString (Cursor.start (vectorOctets varstringOctets (data :: rest))) =
      .error .abort c := by
  have hcount := (reads_popIntegerUvarint hlen).apply_start
    (varstringOctets data ++ rest.flatMap varstringOctets)
  rw [vectorOctets, List.flatMap_cons, popVectorString, bind_of_ok hcount, List.length_cons,
    varstringOctets, List.append_assoc]
  exact ⟨_, bind_of_error (popVarstring_between_oversize h hdata _ _)⟩

/-- A limit on the variable strings themselves is not enough: a vector with one longer string can be
pushed, and popping it aborts. -/
theorem not_parseAll_of_long_element :
    ¬ ∀ (xs : List Record) (out suf : Bytes), (∀ x ∈ xs, x.VarstringBounded) →
      generate (pushAll xs) () = .ok out () → out ≠ [] →
      parseAll (out ++ suf) (xs.map Sigma.fst) () =
        .ok ((xs, decide (suf = [])), ⟨out ++ suf, out.length⟩) () := by
  intro h
  obtain ⟨long, hlong⟩ : ∃ long : Bytes, long.length = 50000001 :=
    ⟨List.replicate 50000001 0, List.length_replicate⟩
  have hsize : long.length < uvarintLimit := by rw [hlong]; decide
  have hone : [long].length < uvarintLimit := by rw [List.length_singleton]; decide
  have hfits : ∀ x ∈ [(⟨.vectorString, [long]⟩ : Record)], x.1.Fits x.2 := by
    rintro x hx
    obtain rfl := List.mem_singleton.mp hx
    exact ⟨hone, fun y hy => by rwa [List.mem_singleton.mp hy]⟩
  have hpush : generate (pushAll [⟨.vectorString, [long]⟩]) () =
      .ok (vectorOctets varstringOctets [long]) () := by
    refine generate_eq_ok_iff.mpr ⟨(emits_pushAll _ _ _).mpr ⟨hfits, ?_⟩, rfl⟩
    simp [recordOctets, Field.octets]
  have hne : vectorOctets varstringOctets [long] ≠ [] :=
    List.append_ne_nil_of_left_ne_nil (uvarintOctets_ne_nil 1) _
  have hparse := h _ _ [] (by rintro x hx; obtain rfl := List.mem_singleton.mp hx; trivial)
    hpush hne
  obtain ⟨c, habort⟩ := popVectorString_start_oversize
    (by rw [hlong]; decide) hsize hone
  have hrun : parseAll (vectorOctets varstringOctets [long]) [.vectorString] () =
      .error .abort () := by
    rw [parseAll, bind_of_ok (parserOfString_of_ne_nil hne ())]
    exact withinState_of_error (bind_of_error (bind_of_error habort)) ()
  rw [List.append_nil, List.map_singleton, hrun] at hparse
  cases hparse

end TrivialSerialize

end Galaxy42
