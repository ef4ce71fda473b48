import Galaxy42.Lib.OrderedMap
import Galaxy42.TrivialSerialize.Parser

/-!
# The wire format of `trivialserialize`

The format itself, as functions from values to octets, and the two halves of its correctness: each
`push_...` emits the octets of its value (`emits_...`), and each `pop_...` reads them back
(`reads_...`). The conditions of the `emits` lemmas are the exact ones under which a push succeeds;
the extra conditions of the `reads` lemmas are the limits the parser asserts.

`Emits` and `Reads` are notions of `Lib.Cursor`. They compose: a program that emits one thing
and then another emits both behind each other, and one that reads in the same order reads both, whatever
follows. So a format that is made of others needs no proof that looks into the programs, and the modules on
keys, signatures and messages are built on the lemmas of this one.

The types that can be written and read as objects have a class with these two laws, next to what they are
written as and when they can be. The laws of vectors and of maps then hold for the elements of any such type.
A map is written in the order of its keys and is read back as the same map, because the reader inserts what it
reads, and refuses a key only when it has been read before.

The last section is about whole strings: a generator that was run on a string of its own, and a parser over
what it generated.
-/

namespace Galaxy42

open Toolkit Program Octets

namespace TrivialSerialize

/-! ### Fixed-width integers -/

/-- The largest number on `S` octets, as the sources compute it from two overlapping halves. -/
theorem getMaxValueOfSOctetUint_eq {S : ℕ} (hS : 0 < S) :
    getMaxValueOfSOctetUint S = 256 ^ S - 1 := by
  obtain ⟨n, rfl⟩ : ∃ n, S = n + 1 := ⟨S - 1, by omega⟩
  have hpow : (256 : ℕ) ^ n = 2 ^ (n * 8) := by rw [Nat.mul_comm, pow_mul]; norm_num
  have hlow : 2 ^ (n * 8) - 1 < 2 ^ (n * 8) := Nat.sub_lt (by positivity) one_pos
  rw [getMaxValueOfSOctetUint, Nat.add_sub_cancel, Nat.one_shiftLeft,
    ← Nat.shiftLeft_add_eq_or_of_lt hlow, Nat.shiftLeft_eq, pow_succ, hpow]
  have hpos : 0 < 2 ^ (n * 8) := by positivity
  omega

/-- The divider of the first octet. -/
private theorem one_shiftLeft_octets (n : ℕ) : 1 <<< (n * 8) = 256 ^ n := by
  rw [Nat.one_shiftLeft, Nat.mul_comm, pow_mul]
  norm_num

/-- Moving on to the next octet. -/
private theorem pow_shiftRight_octet (n : ℕ) : 256 ^ (n + 1) >>> 8 = 256 ^ n := by
  rw [Nat.shiftRight_eq_div_pow, pow_succ]
  exact Nat.mul_div_cancel _ (by norm_num)

/-- The loop that writes an integer appends its big-endian octets. -/
private theorem emits_pushIntegerULoop (value n : ℕ) :
    Emits (pushIntegerULoop value (256 ^ n) (n + 1)) True (bigEndian (n + 1) value) := by
  induction n with
  | zero =>
    exact ((Emits.append _).seq Emits.pure).congr (by simp) fun _ => by simp [bigEndian]
  | succ n ih =>
    rw [pushIntegerULoop, pow_shiftRight_octet]
    exact ((Emits.append _).seq ih).congr (by simp) fun _ => rfl

/-- `push_integer_u<S>` takes every number below the largest one on `S` octets, and appends its
big-endian octets. -/
theorem emits_pushIntegerU (S : OctetCount 8) (value : ℕ) :
    Emits (pushIntegerU S value) (value < 256 ^ S.val - 1) (bigEndian S.val value) := by
  obtain ⟨S, hpos, hle⟩ := S
  obtain ⟨n, rfl⟩ : ∃ n, S = n + 1 := ⟨S - 1, by omega⟩
  have hloop := emits_pushIntegerULoop value n
  rw [← one_shiftLeft_octets] at hloop
  -- the bound for eight octets is spelled out in the source, and is the same formula
  by_cases h8 : n + 1 = 8
  · have h := (Emits.check (c := ¬ value ≥ 0xFFFFFFFFFFFFFFFF)
      (e := Exn.formatErrorWriteValueTooBig)).seq hloop
    rw [pushIntegerU]
    simp only [h8, if_true]
    obtain rfl : n = 7 := by omega
    exact h.congr (by norm_num) fun _ => rfl
  · have h := (Emits.check (c := ¬ value ≥ getMaxValueOfSOctetUint (n + 1))
      (e := Exn.formatErrorWriteValueTooBig)).seq hloop
    rw [pushIntegerU]
    simp only [h8, if_false]
    refine h.congr ?_ fun _ => rfl
    rw [getMaxValueOfSOctetUint_eq hpos, not_le, and_true]

theorem emits_pushByteU (c : UInt8) : Emits (pushByteU c) True [c] :=
  Emits.append [c]

theorem reads_popByteU (b : UInt8) : Reads popByteU [b] b := by
  intro pre suf
  simp [popByteU, bind_apply, ← Cursor.advance_between]

theorem popByteU_of_nil {c : Cursor UInt8} (h : c.ahead = []) :
    popByteU c = .error (.throw .formatErrorRead) c := by
  simp [popByteU, bind_apply, h]

theorem popByteU_of_cons {c : Cursor UInt8} {b : UInt8} {rest : Bytes} (h : c.ahead = b :: rest) :
    popByteU c = .ok b (c.advance 1) := by
  simp [popByteU, bind_apply, h]

/-- The two pops of one octet differ in the type they return. -/
theorem popByteS_eq : popByteS = UInt8.toInt8 <$> popByteU := by
  funext c
  rw [map_apply]
  cases h : c.ahead with
  | nil => simp [popByteS, popByteU, bind_apply, h]
  | cons b rest => simp [popByteS, popByteU, bind_apply, map_apply, h]

theorem popByteSkip_of_nil (expected : Int8) {c : Cursor UInt8} (h : c.ahead = []) :
    popByteSkip expected c = .error (.throw .formatErrorRead) c :=
  bind_of_error (popByteU_of_nil h)

section PopByteSkip

variable {expected : Int8} {c : Cursor UInt8} {b : UInt8} {rest : Bytes}

theorem popByteSkip_of_eq (h : c.ahead = b :: rest) (hb : b = expected.toUInt8) :
    popByteSkip expected c = .ok () (c.advance 1) := by
  rw [popByteSkip, bind_of_ok (popByteU_of_cons h), if_neg (not_not.mpr hb)]
  rfl

/-- On another octet than the expected one the parser is back where it was. -/
theorem popByteSkip_of_ne (h : c.ahead = b :: rest) (hb : b ≠ expected.toUInt8) :
    popByteSkip expected c = .error (.throw .formatErrorReadDelimiter) c := by
  rw [popByteSkip, bind_of_ok (popByteU_of_cons h), if_pos hb]
  rfl

end PopByteSkip

theorem reads_popByteS (b : Int8) : Reads popByteS [b.toUInt8] b := by
  intro pre suf
  simp [popByteS, bind_apply, ← Cursor.advance_between]

/-- Wrapping once at the end is the same as wrapping in every round. -/
private theorem UIntType.wrap_wrap_add (T : UIntType) (a b : ℕ) : T.wrap (T.wrap a + b) = T.wrap (a + b) := by
  simp [UIntType.wrap, Nat.add_mod]

theorem UIntType.wrap_of_lt {T : UIntType} {a : ℕ} (h : a < 256 ^ T.octets) : T.wrap a = a :=
  Nat.mod_eq_of_lt h

/-- The loop that reads an integer adds up the octets it reads, in the type it reads into. -/
private theorem reads_popIntegerULoop (T : UIntType) (bs : Bytes) :
    ∀ (b : UInt8) (value : ℕ),
      Reads (popIntegerULoop T value (256 ^ bs.length) (bs.length + 1)) (b :: bs)
        (T.wrap (value + Octets.toNat (b :: bs))) := by
  induction bs with
  | nil =>
    intro b value
    have h := (reads_popByteU b).bind (f := fun thisByte => pure (T.wrap (value + thisByte.toNat * 1)))
      (Reads.pure _)
    simpa [popIntegerULoop, toNat_cons] using h
  | cons c bs ih =>
    intro b value
    rw [List.length_cons, popIntegerULoop, pow_shiftRight_octet]
    have h := (reads_popByteU b).bind (f := fun thisByte => popIntegerULoop T
      (T.wrap (value + thisByte.toNat * 256 ^ (bs.length + 1))) (256 ^ bs.length) (bs.length + 1))
      (ih c _)
    rw [UIntType.wrap_wrap_add] at h
    rw [toNat_cons b (c :: bs), ← Nat.add_assoc]
    exact h

/-- `pop_integer_u<S, T>` reads `S` octets, and returns their number reduced to the type `T`. -/
theorem reads_popIntegerU (S : OctetCount 8) (T : UIntType) {bs : Bytes} (h : bs.length = S.val) :
    Reads (popIntegerU S T) bs (T.wrap (Octets.toNat bs)) := by
  obtain ⟨S, hpos, hle⟩ := S
  cases bs with
  | nil => simp at h; omega
  | cons b bs =>
    obtain rfl : bs.length + 1 = S := by simpa using h
    rw [popIntegerU]
    simp only [Nat.add_sub_cancel]
    rw [one_shiftLeft_octets]
    simpa using reads_popIntegerULoop T bs b 0

/-- A number written on `S` octets is read back into any type that is as wide. -/
theorem reads_popIntegerU_bigEndian (S : OctetCount 8) {T : UIntType} (hT : S.val ≤ T.octets)
    {value : ℕ} (hv : value < 256 ^ S.val - 1) :
    Reads (popIntegerU S T) (bigEndian S.val value) value := by
  have hlt : value < 256 ^ S.val := by omega
  have hle : 256 ^ S.val ≤ 256 ^ T.octets := Nat.pow_le_pow_right (by norm_num) hT
  have h := reads_popIntegerU S T (length_bigEndian S.val value)
  rwa [toNat_bigEndian_of_lt hlt, UIntType.wrap_of_lt (hlt.trans_le hle)] at h

/-! ### Variable-width integers -/

/-- The octets of `push_integer_uvarint`: one, three, five or nine of them. -/
def uvarintOctets (val : ℕ) : Bytes :=
  if val < 0xFD then bigEndian 1 val
  else if val < 0xFFFF then 0xFD :: bigEndian 2 val
  else if val < 0xFFFFFFFF then 0xFE :: bigEndian 4 val
  else 0xFF :: bigEndian 8 val

/-- The largest number a length or a count may not reach. -/
def uvarintLimit : ℕ := 0xFFFFFFFFFFFFFFFF

theorem emits_pushIntegerUvarint (val : ℕ) :
    Emits (pushIntegerUvarint val) (val < uvarintLimit) (uvarintOctets val) := by
  unfold pushIntegerUvarint uvarintOctets uvarintLimit
  split
  next h => exact (emits_pushIntegerU _ _).congr (by norm_num; omega) fun _ => rfl
  next h =>
  split
  next h' =>
    exact ((Emits.append _).seq (emits_pushIntegerU _ _)).congr (by norm_num; omega) fun _ => rfl
  next h' =>
  split
  next h'' =>
    exact ((Emits.append _).seq (emits_pushIntegerU _ _)).congr (by norm_num; omega) fun _ => rfl
  next h'' =>
    exact ((Emits.append _).seq (emits_pushIntegerU _ _)).congr (by norm_num) fun _ => rfl

/-- Nothing is encoded by no octets. -/
theorem uvarintOctets_ne_nil (val : ℕ) : uvarintOctets val ≠ [] := by
  unfold uvarintOctets
  split
  · simp [bigEndian]
  · split
    · simp
    · split <;> simp

theorem length_uvarintOctets_le (val : ℕ) : (uvarintOctets val).length ≤ 9 := by
  unfold uvarintOctets
  split
  · simp
  · split
    · simp
    · split <;> simp

theorem reads_popIntegerUvarint {val : ℕ} (h : val < uvarintLimit) :
    Reads popIntegerUvarint (uvarintOctets val) val := by
  unfold uvarintLimit at h
  have hbyte : ∀ (first : UInt8) (r : Parser ℕ) (out : Bytes), Reads r out val →
      (if first < 0xFD then pure first.toNat
        else if first = 0xFD then popIntegerU OctetCount.two .u64
        else if first = 0xFE then popIntegerU OctetCount.four .u64
        else popIntegerU OctetCount.eight .u64) = r →
      Reads popIntegerUvarint ([first] ++ out) val := by
    rintro first r out hr rfl
    exact (reads_popByteU first).bind hr
  unfold uvarintOctets
  split
  next h1 =>
    have hb : (UInt8.ofNat (val % 256)).toNat = val := by rw [toNat_ofNat_digit]; omega
    have hlt : UInt8.ofNat (val % 256) < 0xFD := by
      rw [UInt8.lt_iff_toNat_lt, hb]
      exact h1
    have h := hbyte (UInt8.ofNat (val % 256)) (pure val) [] (Reads.pure val)
      (by rw [if_pos hlt, hb])
    simpa [bigEndian] using h
  next h1 =>
  split
  next h2 =>
    exact hbyte 0xFD _ _ (reads_popIntegerU_bigEndian OctetCount.two (T := .u64) (by decide)
      (by norm_num; omega)) rfl
  next h2 =>
  split
  next h3 =>
    exact hbyte 0xFE _ _ (reads_popIntegerU_bigEndian OctetCount.four (T := .u64) (by decide)
      (by norm_num; omega)) rfl
  next h3 =>
    exact hbyte 0xFF _ _ (reads_popIntegerU_bigEndian OctetCount.eight (T := .u64) (by decide)
      (by norm_num; omega)) rfl

/-! ### Strings -/

/-- The octets of `push_varstring`: the length, then the string. -/
def varstringOctets (data : Bytes) : Bytes :=
  uvarintOctets data.length ++ data

theorem emits_pushBytesN (size : ℕ) (data : Bytes) :
    Emits (pushBytesN size data) (size = data.length) data :=
  (Emits.assert.seq (Emits.append data)).congr (by simp) fun _ => rfl

theorem emits_pushBytesSizeoctets (S : OctetCount 4) (data : Bytes) :
    Emits (pushBytesSizeoctets S data) (data.length < 256 ^ S.val - 1)
      (bigEndian S.val data.length ++ data) :=
  ((emits_pushIntegerU _ _).seq (Emits.append data)).congr (by simp) fun _ => rfl

theorem emits_pushBytesSizeoctetsMax (S : OctetCount 4) (data : Bytes) (maxSizeForAssert : ℕ) :
    Emits (pushBytesSizeoctetsMax S data maxSizeForAssert)
      (data.length ≤ maxSizeForAssert ∧ data.length < 256 ^ S.val - 1)
      (bigEndian S.val data.length ++ data) :=
  (Emits.assert.seq (emits_pushBytesSizeoctets S data)).congr Iff.rfl fun _ => rfl

theorem emits_pushVarstring (data : Bytes) :
    Emits (pushVarstring data) (data.length < uvarintLimit) (varstringOctets data) :=
  ((emits_pushIntegerUvarint _).seq (emits_pushBytesN _ data)).congr (by simp) fun _ => rfl

theorem reads_popBytesN (data : Bytes) : Reads (popBytesN data.length) data data := by
  intro pre suf
  cases data with
  | nil => simp [popBytesN]
  | cons b data =>
    simp [popBytesN, bind_apply, checkThat_apply, ← Cursor.advance_between]

theorem popBytesN_of_le {size : ℕ} {c : Cursor UInt8} (h : size ≤ c.ahead.length) :
    popBytesN size c = .ok (c.ahead.take size) (c.advance size) := by
  unfold popBytesN
  split
  next hzero => simp [hzero, Cursor.advance]
  next hpos =>
    have hne : c.ahead ≠ [] := List.ne_nil_of_length_pos ((Nat.pos_of_ne_zero hpos).trans_le h)
    simp [bind_apply, checkThat_apply, hne, h]

/-- Too few octets are left as they are. -/
theorem popBytesN_of_lt {size : ℕ} {c : Cursor UInt8} (h : c.ahead.length < size) :
    popBytesN size c = .error (.throw .formatErrorRead) c := by
  have hshort : ¬ c.ahead.length ≥ size := not_le.mpr h
  unfold popBytesN
  rw [if_neg (Nat.ne_of_gt (Nat.zero_lt_of_lt h)), bind_of_ok (get_apply c)]
  by_cases hnil : c.ahead = []
  · simp [bind_apply, checkThat_apply, hnil]
  · simp [bind_apply, checkThat_apply, hnil, hshort]

theorem reads_skipBytesN (data : Bytes) : Reads (skipBytesN data.length) data () := by
  intro pre suf
  cases data with
  | nil => simp [skipBytesN]
  | cons b data =>
    simp [skipBytesN, bind_apply, checkThat_apply, ← Cursor.advance_between]

theorem reads_popBytesSizeoctets (S : OctetCount 4) {data : Bytes}
    (h : data.length < 256 ^ S.val - 1) :
    Reads (popBytesSizeoctets S) (bigEndian S.val data.length ++ data) data := by
  have hS : S.val ≤ UIntType.u64.octets := S.property.2.trans (by decide)
  exact (reads_popIntegerU_bigEndian ⟨S.val, _⟩ hS h).bind (reads_popBytesN data)

/-- The length of a string that the parser accepts is one the generator can write. -/
theorem lt_uvarintLimit_of_le_sane {n : ℕ} (h : n ≤ saneMaxSizeForString) : n < uvarintLimit :=
  h.trans_lt (by decide)

theorem reads_popVarstring {data : Bytes} (h : data.length ≤ saneMaxSizeForString) :
    Reads popVarstring (varstringOctets data) data :=
  (reads_popIntegerUvarint (lt_uvarintLimit_of_le_sane h)).bind
    ((Reads.assert h).bind (reads_popBytesN data))

theorem reads_skipVarstring {data : Bytes} (h : data.length ≤ saneMaxSizeForString) :
    Reads skipVarstring (varstringOctets data) () :=
  (reads_popIntegerUvarint (lt_uvarintLimit_of_le_sane h)).bind
    ((Reads.assert h).bind (reads_skipBytesN data))

/-- An announced length above the limit aborts, whatever follows it. -/
theorem popVarstring_between_oversize {size : ℕ} (h : saneMaxSizeForString < size)
    (hlim : size < uvarintLimit) (pre suf : Bytes) :
    popVarstring (Cursor.between pre (uvarintOctets size ++ suf)) =
      .error .abort (Cursor.between (pre ++ uvarintOctets size) suf) := by
  rw [popVarstring, bind_of_ok (reads_popIntegerUvarint hlim pre suf)]
  exact bind_of_error (by rw [assertThat_apply, if_neg (not_le.mpr h)])

/-! ### Objects -/

/-- The laws of a type with both specializations: what is serialized, when, and which objects the
parser takes back. -/
class LawfulObj (τ : Type) [ObjSerialize τ] [ObjDeserialize τ] where
  /-- The octets of an object. -/
  octets : τ → Bytes
  /-- The objects that can be serialized. -/
  Fits : τ → Prop
  /-- The objects in which no string exceeds the limit the parser asserts. -/
  Sane : τ → Prop
  emits : ∀ x, Emits (objSerialize x) (Fits x) (octets x)
  reads : ∀ x, Fits x → Sane x → Reads objDeserialize (octets x) x

namespace LawfulObj

instance : LawfulObj Bytes where
  octets := varstringOctets
  Fits data := data.length < uvarintLimit
  Sane data := data.length ≤ saneMaxSizeForString
  emits := emits_pushVarstring
  reads _ _ h := reads_popVarstring h

instance : LawfulObj Int8 where
  octets c := [c.toUInt8]
  Fits _ := True
  Sane _ := True
  emits c := Emits.append [c.toUInt8]
  reads c _ _ := (reads_popByteU c.toUInt8).map (g := UInt8.toInt8)

end LawfulObj

/-! ### Vectors -/

section Vectors

variable {τ : Type}

/-- The octets of a vector: the number of its elements, then each element. -/
def vectorOctets (octets : τ → Bytes) (data : List τ) : Bytes :=
  uvarintOctets data.length ++ data.flatMap octets

theorem emits_pushVectorString (data : List Bytes) :
    Emits (pushVectorString data)
      (data.length < uvarintLimit ∧ ∀ x ∈ data, x.length < uvarintLimit)
      (vectorOctets varstringOctets data) :=
  (emits_pushIntegerUvarint _).seq (Emits.forM emits_pushVarstring data)

theorem reads_popVectorString {data : List Bytes} (hlen : data.length < uvarintLimit)
    (h : ∀ x ∈ data, x.length ≤ saneMaxSizeForString) :
    Reads popVectorString (vectorOctets varstringOctets data) data :=
  (reads_popIntegerUvarint hlen).bind (Reads.replicateM fun x hx => reads_popVarstring (h x hx))

variable [ObjSerialize τ] [ObjDeserialize τ] [LawfulObj τ]

theorem emits_pushVectorObject (data : List τ) :
    Emits (pushVectorObject data) (data.length < uvarintLimit ∧ ∀ x ∈ data, LawfulObj.Fits x)
      (vectorOctets LawfulObj.octets data) :=
  (emits_pushIntegerUvarint _).seq (Emits.forM LawfulObj.emits data)

theorem reads_popVectorObject {data : List τ} (hlen : data.length < uvarintLimit)
    (hfits : ∀ x ∈ data, LawfulObj.Fits x) (h : ∀ x ∈ data, LawfulObj.Sane x) :
    Reads popVectorObject (vectorOctets LawfulObj.octets data) data :=
  (reads_popIntegerUvarint hlen).bind
    (Reads.replicateM fun x hx => LawfulObj.reads x (hfits x hx) (h x hx))

instance : LawfulObj (List Bytes) where
  octets := vectorOctets LawfulObj.octets
  Fits data := data.length < uvarintLimit ∧ ∀ x ∈ data, LawfulObj.Fits x
  Sane data := ∀ x ∈ data, LawfulObj.Sane x
  emits := emits_pushVectorObject
  reads _ hfits h := reads_popVectorObject hfits.1 hfits.2 h

end Vectors

/-! ### Maps -/

section Maps

variable {κ ν : Type} [Ord κ] [Std.TransOrd κ]
  [ObjSerialize κ] [ObjDeserialize κ] [LawfulObj κ] [ObjSerialize ν] [ObjDeserialize ν]
  [LawfulObj ν]

/-- The octets of one entry of a map. -/
def mapEntryOctets (pair : κ × ν) : Bytes :=
  LawfulObj.octets pair.1 ++ LawfulObj.octets pair.2

/-- The octets of a map: the number of its entries, then each entry in the order of the keys. -/
def mapOctets (data : Std.ExtTreeMap κ ν) : Bytes :=
  uvarintOctets data.size ++ data.toList.flatMap mapEntryOctets

theorem mapOctets_insert_empty [Std.LawfulEqOrd κ] (k : κ) (v : ν) :
    mapOctets ((∅ : Std.ExtTreeMap κ ν).insert k v) = uvarintOctets 1 ++ mapEntryOctets (k, v) := by
  simp [mapOctets, toList_insert_empty, Std.ExtTreeMap.size_insert]

/-- The maps that can be serialized. -/
def MapFits (data : Std.ExtTreeMap κ ν) : Prop :=
  data.size < uvarintLimit ∧
    ∀ pair ∈ data.toList, LawfulObj.Fits pair.1 ∧ LawfulObj.Fits pair.2

/-- The maps in which no string exceeds the limit the parser asserts. -/
def MapSane (data : Std.ExtTreeMap κ ν) : Prop :=
  ∀ pair ∈ data.toList, LawfulObj.Sane pair.1 ∧ LawfulObj.Sane pair.2

theorem emits_pushMapObject (data : Std.ExtTreeMap κ ν) :
    Emits (pushMapObject data) (MapFits data) (mapOctets data) :=
  (emits_pushIntegerUvarint _).seq
    (Emits.forM (fun pair => (LawfulObj.emits pair.1).seq (LawfulObj.emits pair.2)) data.toList)

/-- Reading one entry with a new key inserts it. -/
private theorem reads_popMapEntry {ret : Std.ExtTreeMap κ ν} {pair : κ × ν} (hnew : pair.1 ∉ ret)
    (hfits : LawfulObj.Fits pair.1 ∧ LawfulObj.Fits pair.2)
    (h : LawfulObj.Sane pair.1 ∧ LawfulObj.Sane pair.2) :
    Reads (popMapEntry ret) (mapEntryOctets pair) (ret.insertIfNew pair.1 pair.2) := by
  have hsize : (ret.insertIfNew pair.1 pair.2).size = ret.size + 1 := by
    rw [Std.ExtTreeMap.size_insertIfNew, if_neg hnew]
  have hcheck : Reads (do
      checkThat (¬ pair.1 ∈ ret) Exn.formatErrorReadBadformat
      checkThat ((ret.insertIfNew pair.1 pair.2).size = ret.size + 1)
        Exn.formatErrorReadBadformat
      return ret.insertIfNew pair.1 pair.2 : Parser (Std.ExtTreeMap κ ν)) []
      (ret.insertIfNew pair.1 pair.2) :=
    (Reads.check hnew).bind ((Reads.check hsize).bind (Reads.pure _))
  have hvalue := (LawfulObj.reads pair.2 hfits.2 h.2).bind (f := fun value => do
      checkThat (¬ pair.1 ∈ ret) Exn.formatErrorReadBadformat
      checkThat ((ret.insertIfNew pair.1 value).size = ret.size + 1)
        Exn.formatErrorReadBadformat
      return ret.insertIfNew pair.1 value) hcheck
  rw [List.append_nil] at hvalue
  exact (LawfulObj.reads pair.1 hfits.1 h.1).bind hvalue

theorem reads_popMapObject [Std.LawfulEqOrd κ] {data : Std.ExtTreeMap κ ν} (hfits : MapFits data)
    (h : MapSane data) : Reads popMapObject (mapOctets data) data := by
  obtain ⟨ret, hloop, hret⟩ : ∃ ret, Reads (popMapLoop data.toList.length ∅)
      (data.toList.flatMap mapEntryOctets) ret ∧ Collected data ret [] :=
    Reads.loop (fun _ => rfl) (fun _ _ => rfl) (fun acc pair todo hI => ⟨_,
      reads_popMapEntry hI.not_mem (hfits.2 pair hI.mem) (h pair hI.mem), hI.step⟩)
      data.toList ∅ (Collected.start data)
  obtain rfl : ret = data := hret.eq
  rw [Std.ExtTreeMap.length_toList] at hloop
  have hend : Reads (do
      checkThat (ret.size = ret.size) Exn.formatErrorReadBadformat
      return ret : Parser (Std.ExtTreeMap κ ν)) [] ret :=
    (Reads.check rfl).bind (Reads.pure ret)
  have hrest := hloop.bind (f := fun ret' => do
      checkThat (ret'.size = ret.size) Exn.formatErrorReadBadformat
      return ret') hend
  rw [List.append_nil] at hrest
  exact (reads_popIntegerUvarint hfits.1).bind hrest

end Maps

/-! ### Whole generators and parsers -/

theorem generate_eq_ok_iff {gen : Generator Unit} {σ : Type} {t t' : σ} {out : Bytes} :
    generate gen t = .ok out t' ↔ gen [] = .ok () out ∧ t = t' := by
  simp only [generate, bind_eq_ok_iff, withinState_eq_ok_iff, pure_apply,
    EStateM.Result.ok.injEq, Prod.exists]
  constructor
  · rintro ⟨_, _, _, ⟨h, rfl⟩, rfl, rfl⟩
    exact ⟨h, rfl⟩
  · rintro ⟨h, rfl⟩
    exact ⟨(), out, t, ⟨h, rfl⟩, rfl, rfl⟩

/-- A generator runs on a string of its own, so how it ends does not depend on the state. -/
theorem exists_generate_eq_fromOutcome (gen : Generator Unit) :
    ∃ r, ∀ {σ : Type}, (generate gen : Program Exn σ Bytes) = fromOutcome r := by
  cases hrun : gen [] with
  | ok u out =>
    refine ⟨.ok out, fun {σ} => funext fun t => ?_⟩
    exact generate_eq_ok_iff.mpr ⟨hrun, rfl⟩
  | error e out =>
    exact ⟨.error e, fun {σ} => funext fun t => bind_of_error (withinState_of_error hrun t)⟩

theorem parserOfString_of_ne_nil {dataStr : Bytes} (h : dataStr ≠ []) {σ : Type} (t : σ) :
    parserOfString dataStr t = .ok (Cursor.start dataStr) t := by
  simp [parserOfString, bind_apply, checkThat_apply, h]

theorem parserOfString_eq_ok_iff {dataStr : Bytes} {σ : Type} {t t' : σ} {c : Cursor UInt8} :
    parserOfString dataStr t = .ok c t' ↔ dataStr ≠ [] ∧ Cursor.start dataStr = c ∧ t = t' := by
  by_cases h : dataStr = []
  · subst h
    simp [parserOfString, map_apply, checkThat_apply]
  · rw [parserOfString_of_ne_nil h, and_iff_right h, EStateM.Result.ok.injEq]

theorem isEnd_between (pre suf : Bytes) :
    isEnd (Cursor.between pre suf) = .ok (decide (suf = [])) (Cursor.between pre suf) := by
  simp [isEnd, bind_apply]

/-- A generator that emits `out` generates it. -/
theorem generate_eq_ok_iff_of_emits {gen : Generator Unit} {P : Prop} {out : Bytes}
    (h : Emits gen P out) {σ : Type} {t t' : σ} {str : Bytes} :
    generate gen t = .ok str t' ↔ P ∧ str = out ∧ t = t' := by
  rw [generate_eq_ok_iff, h, List.nil_append, and_assoc]

/-- A generator that cannot write its data fails, and nothing is left of what it has written. -/
theorem exists_generate_eq_error {gen : Generator Unit} {P : Prop} {out : Bytes}
    (h : Emits gen P out) (hP : ¬ P) {σ : Type} (t : σ) : ∃ e, generate gen t = .error e t := by
  cases hrun : gen [] with
  | ok u str => exact absurd ((h [] str).mp hrun).1 hP
  | error e str => exact ⟨e, bind_of_error (withinState_of_error hrun t)⟩

theorem parseString_eq_ok_iff {dataStr : Bytes} {α σ : Type} {pops : Parser α} {t t' : σ} {a : α} :
    parseString dataStr pops t = .ok a t' ↔
      dataStr ≠ [] ∧ (∃ c, pops (Cursor.start dataStr) = .ok a c) ∧ t = t' := by
  by_cases h : dataStr = []
  · subst h
    simp [parseString, parserOfString, bind_apply, map_apply, checkThat_apply]
  · rw [parseString, bind_of_ok (parserOfString_of_ne_nil h t), within_eq_ok_iff, and_iff_right h]

/-- A parser that reads `out` parses it, whatever follows. -/
theorem parseString_of_reads {α : Type} {pops : Parser α} {out : Bytes} {a : α} (h : Reads pops out a)
    {suf : Bytes} (hne : out ++ suf ≠ []) {σ : Type} (t : σ) :
    parseString (out ++ suf) pops t = .ok a t :=
  parseString_eq_ok_iff.mpr ⟨hne, ⟨_, h.apply_start suf⟩, rfl⟩

end TrivialSerialize

end Galaxy42
