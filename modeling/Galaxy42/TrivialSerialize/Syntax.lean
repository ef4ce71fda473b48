import Galaxy42.Lib.XorSum
import Galaxy42.TrivialSerialize.Malformed

/-!
# The syntax that the parser accepts

The generator writes each number in one form, and the parser takes any of the four. `Uvarint` is a
number with the form it is written in; strings and counted lists are put together from such numbers.
Each pop accepts exactly the octets of the trees of its type (`parses_...`), so that data which are
accepted have a tree, and properties of the data are properties of that tree. `AsWritten` says that a
tree has the forms that the generator uses.

A tree carries what makes it well formed: the octets behind `0xFD` are two, the announced length is the one
of the string, the count is the number of the items, and no string is longer than the parser takes. So there
is a tree for nothing but accepted data, and its octets and its value are functions of it that need no
condition.

The lemmas `parses_...` (`Lib.Cursor`) say that a pop accepts some octets with a result exactly when there is
a tree with these octets and that value. They compose as the pops do. What is not injective are the values:
several trees have the same value, and exactly one of them is the one that is written (`asWritten_iff`). This
is what the questions come down to whether what was loaded is written again as it was.

The last section has pops without the limit on the length of a string, which the parser does not have. They
accept more, and serve to say what was written where the parser would abort.
-/

namespace Galaxy42

open Toolkit Program Octets

namespace TrivialSerialize

/-! ### Fixed fields -/

theorem parses_popByteU : Parses popByteU (fun b => [b]) id := by
  refine .of_reads reads_popByteU fun pre rest b c h => ?_
  obtain ⟨suf, rfl, -⟩ := popByteU_between_eq_ok_iff.mp h
  exact ⟨b, suf, rfl⟩

theorem parses_popBytesN (size : ℕ) :
    Parses (popBytesN size) (fun data : Block size => data.octets) fun data => data.octets := by
  refine .of_reads (fun data => ?_) fun pre rest data c h => ?_
  · have hread := reads_popBytesN data.octets
    rwa [data.length_octets] at hread
  · obtain ⟨hlen, suf, rfl, -⟩ := popBytesN_between_eq_ok_iff.mp h
    exact ⟨⟨data, hlen⟩, suf, rfl⟩

/-- What is skipped is popped and forgotten. -/
theorem skipBytesN_eq (size : ℕ) : skipBytesN size = (popBytesN size >>= fun _ => pure ()) := by
  funext c
  unfold skipBytesN popBytesN
  split
  · rfl
  · simp only [bind_assoc, pure_bind]
    rfl

theorem parses_skipBytesN (size : ℕ) :
    Parses (skipBytesN size) (fun data : Block size => data.octets) fun _ => () := by
  refine .of_reads (fun data => ?_) fun pre rest u c h => ?_
  · have hread := reads_skipBytesN data.octets
    rwa [data.length_octets] at hread
  · rw [skipBytesN_eq] at h
    obtain ⟨data, _, hdata, -⟩ := bind_eq_ok_iff.mp h
    obtain ⟨hlen, suf, rfl, -⟩ := popBytesN_between_eq_ok_iff.mp hdata
    exact ⟨⟨data, hlen⟩, suf, rfl⟩

/-! ### Numbers -/

/-- A number as `pop_integer_uvarint` accepts it. -/
inductive Uvarint where
  /-- The number itself, in one octet. -/
  | one (first : UInt8) (h : first < 0xFD)
  /-- Two octets behind `0xFD` -/
  | two (digits : Block 2)
  /-- Four octets behind `0xFE` -/
  | four (digits : Block 4)
  /-- Eight octets behind `0xFF` -/
  | eight (digits : Block 8)

namespace Uvarint

/-- The octets of a number. -/
def octets : Uvarint → Bytes
  | one first _ => [first]
  | two digits => 0xFD :: digits.octets
  | four digits => 0xFE :: digits.octets
  | eight digits => 0xFF :: digits.octets

/-- The value of a number. -/
def value : Uvarint → ℕ
  | one first _ => first.toNat
  | two digits => toNat digits.octets
  | four digits => toNat digits.octets
  | eight digits => toNat digits.octets

/-- The number is in the form that `push_integer_uvarint` chooses for its value. The largest value of a
form is left to the next one, and the largest of all is not written. -/
def AsWritten : Uvarint → Prop
  | one _ _ => True
  | two digits => 0xFD ≤ toNat digits.octets ∧ toNat digits.octets < 0xFFFF
  | four digits => 0xFFFF ≤ toNat digits.octets ∧ toNat digits.octets < 0xFFFFFFFF
  | eight digits => 0xFFFFFFFF ≤ toNat digits.octets ∧ toNat digits.octets < uvarintLimit

/-- Which numbers are written in three, five and nine octets. -/
private theorem uvarintOctets_eq_iff (v : ℕ) :
    (0xFD :: bigEndian 2 v = uvarintOctets v ↔ 0xFD ≤ v ∧ v < 0xFFFF) ∧
      (0xFE :: bigEndian 4 v = uvarintOctets v ↔ 0xFFFF ≤ v ∧ v < 0xFFFFFFFF) ∧
      (0xFF :: bigEndian 8 v = uvarintOctets v ↔ 0xFFFFFFFF ≤ v) := by
  have hlen : ∀ {out out' : Bytes}, out.length ≠ out'.length → ¬ out = out' :=
    fun hne heq => hne (congrArg List.length heq)
  unfold uvarintOctets
  split_ifs with h1 h2 h3
  · refine ⟨iff_of_false (hlen (by simp)) ?_, iff_of_false (hlen (by simp)) ?_,
      iff_of_false (hlen (by simp)) ?_⟩ <;> omega
  · refine ⟨iff_of_true rfl ?_, iff_of_false (hlen (by simp)) ?_,
      iff_of_false (hlen (by simp)) ?_⟩ <;> omega
  · refine ⟨iff_of_false (hlen (by simp)) ?_, iff_of_true rfl ?_,
      iff_of_false (hlen (by simp)) ?_⟩ <;> omega
  · refine ⟨iff_of_false (hlen (by simp)) ?_, iff_of_false (hlen (by simp)) ?_,
      iff_of_true rfl ?_⟩ <;> omega

/-- A number is in the form that is written exactly when its octets are the ones that are written. -/
theorem asWritten_iff {u : Uvarint} :
    u.AsWritten ↔ u.value < uvarintLimit ∧ u.octets = uvarintOctets u.value := by
  have hback : ∀ {n : ℕ} (digits : Block n),
      bigEndian n (toNat digits.octets) = digits.octets := fun digits => by
    have h := bigEndian_toNat digits.octets
    rwa [digits.length_octets] at h
  obtain ⟨htwo, hfour, height⟩ := uvarintOctets_eq_iff u.value
  cases u with
  | one first h =>
    have hlt : first.toNat < 0xFD := UInt8.lt_iff_toNat_lt.mp h
    have hfirst : bigEndian 1 first.toNat = [first] := by simpa [toNat_cons] using bigEndian_toNat [first]
    refine iff_of_true trivial ⟨hlt.trans (by decide), ?_⟩
    rw [value, uvarintOctets, if_pos hlt, hfirst, octets]
  | two digits =>
    rw [value, hback] at htwo
    rw [AsWritten, octets, value, htwo]
    exact (and_iff_right_of_imp fun h => h.2.trans (by decide)).symm
  | four digits =>
    rw [value, hback] at hfour
    rw [AsWritten, octets, value, hfour]
    exact (and_iff_right_of_imp fun h => h.2.trans (by decide)).symm
  | eight digits =>
    rw [value, hback] at height
    rw [AsWritten, octets, value, height]
    exact and_comm

end Uvarint

/-- A number of a fixed width is accepted as soon as there are enough octets. -/
private theorem parses_popIntegerU (S : OctetCount 8) :
    Parses (popIntegerU S .u64) (fun digits : Block S.val => digits.octets)
      fun digits => toNat digits.octets := by
  have hloop : ∀ n value multiplier pre rest x c,
      popIntegerULoop .u64 value multiplier n (.between pre rest) = .ok x c → n ≤ rest.length := by
    intro n
    induction n with
    | zero => exact fun _ _ _ _ _ _ _ => Nat.zero_le _
    | succ n ih =>
      intro value multiplier pre rest x c h
      obtain ⟨b, c₁, hb, hrest⟩ := bind_eq_ok_iff.mp h
      obtain ⟨suf, rfl, rfl⟩ := popByteU_between_eq_ok_iff.mp hb
      exact Nat.succ_le_succ (ih _ _ _ _ _ _ hrest)
  refine .of_reads (fun digits => ?_) fun pre rest x c h => ?_
  · have hread := reads_popIntegerU S .u64 digits.length_octets
    have hlt : toNat digits.octets < 256 ^ UIntType.u64.octets := by
      refine (toNat_lt _).trans_le (Nat.pow_le_pow_right (by norm_num) ?_)
      rw [digits.length_octets]
      exact S.property.2
    rwa [UIntType.wrap_of_lt hlt] at hread
  · exact ⟨⟨rest.take S.val, List.length_take_of_le (hloop _ _ _ _ _ _ _ h)⟩, rest.drop S.val,
      (List.take_append_drop _ _).symm⟩

/-- `pop_integer_uvarint` accepts each of the four forms. -/
theorem parses_popIntegerUvarint : Parses popIntegerUvarint Uvarint.octets Uvarint.value := by
  refine .of_reads (fun u => ?_) fun pre rest x c h => ?_
  · cases u with
    | one first h =>
      have hrest : Reads (if first < 0xFD then pure first.toNat else
          if first = 0xFD then popIntegerU OctetCount.two .u64 else
          if first = 0xFE then popIntegerU OctetCount.four .u64 else
          popIntegerU OctetCount.eight .u64 : Parser ℕ) [] first.toNat := by
        rw [if_pos h]
        exact Reads.pure _
      exact (reads_popByteU first).bind hrest
    | two digits =>
      exact (reads_popByteU 0xFD).bind ((parses_popIntegerU OctetCount.two).reads digits)
    | four digits =>
      exact (reads_popByteU 0xFE).bind ((parses_popIntegerU OctetCount.four).reads digits)
    | eight digits =>
      exact (reads_popByteU 0xFF).bind ((parses_popIntegerU OctetCount.eight).reads digits)
  · obtain ⟨first, c₁, hfirst, h⟩ := bind_eq_ok_iff.mp h
    obtain ⟨suf, rfl, rfl⟩ := popByteU_between_eq_ok_iff.mp hfirst
    split_ifs at h with h1 h2 h3
    · exact ⟨.one first h1, suf, rfl⟩
    · obtain ⟨digits, suf', rfl, -⟩ := (parses_popIntegerU OctetCount.two _ _ _ _).mp h
      exact ⟨.two digits, suf', by rw [h2]; rfl⟩
    · obtain ⟨digits, suf', rfl, -⟩ := (parses_popIntegerU OctetCount.four _ _ _ _).mp h
      exact ⟨.four digits, suf', by rw [h3]; rfl⟩
    · obtain ⟨digits, suf', rfl, -⟩ := (parses_popIntegerU OctetCount.eight _ _ _ _).mp h
      have hlast : first = 0xFF := by
        have hlt := first.toNat_lt
        rw [UInt8.lt_iff_toNat_lt] at h1
        rw [← UInt8.toNat_inj] at h2 h3 ⊢
        simp only [UInt8.reduceToNat] at h1 h2 h3 ⊢
        omega
      exact ⟨.eight digits, suf', by rw [hlast]; rfl⟩

/-! ### Strings -/

/-- A string as `pop_varstring` accepts it. -/
structure Varstring where
  /-- The length, as it is announced. -/
  size : Uvarint
  /-- The string. -/
  data : Bytes
  length_data : data.length = size.value
  size_le : size.value ≤ saneMaxSizeForString

namespace Varstring

/-- The octets of a string. -/
def octets (str : Varstring) : Bytes :=
  str.size.octets ++ str.data

/-- The length is in the form that is written. -/
def AsWritten (str : Varstring) : Prop :=
  str.size.AsWritten

private theorem asWritten_iff {str : Varstring} : str.AsWritten ↔ str.octets = varstringOctets str.data := by
  have hlim : str.size.value < uvarintLimit := lt_uvarintLimit_of_le_sane str.size_le
  rw [AsWritten, Uvarint.asWritten_iff, and_iff_right hlim, octets, varstringOctets, str.length_data,
    List.append_cancel_right_eq]

end Varstring

theorem parses_popVarstring : Parses popVarstring Varstring.octets Varstring.data := by
  refine .of_reads (fun str => ?_) fun pre rest x c h => ?_
  · have hdata := reads_popBytesN str.data
    rw [str.length_data] at hdata
    exact (parses_popIntegerUvarint.reads str.size).bind ((Reads.assert str.size_le).bind hdata)
  · simp only [popVarstring, bind_eq_ok_iff, assertThat_eq_ok_iff] at h
    obtain ⟨size, c₁, hsize, _, _, ⟨hle, rfl⟩, hdata⟩ := h
    obtain ⟨u, suf, rfl, rfl, rfl⟩ := (parses_popIntegerUvarint _ _ _ _).mp hsize
    obtain ⟨hlen, suf', rfl, -⟩ := popBytesN_between_eq_ok_iff.mp hdata
    exact ⟨⟨u, x, hlen, hle⟩, suf', (List.append_assoc _ _ _).symm⟩

/-! ### Counted lists -/

/-- Items with their number in front. -/
structure Counted (T : Type) where
  /-- The number, as it is announced. -/
  count : Uvarint
  /-- The items. -/
  items : List T
  length_items : items.length = count.value

/-- The octets of a counted list. -/
def Counted.octets {T : Type} (octets : T → Bytes) (list : Counted T) : Bytes :=
  list.count.octets ++ list.items.flatMap octets

/-- A number, and then as many items. -/
theorem parses_counted {T β : Type} {r : Parser β} {octets : T → Bytes} {val : T → β}
    (h : Parses r octets val) :
    Parses (do
      let size ← popIntegerUvarint
      replicateM r size) (Counted.octets octets) fun list => list.items.map val := by
  refine .of_reads (fun list => ?_) fun pre rest x c hrun => ?_
  · exact (parses_popIntegerUvarint.reads list.count).bind
      ((h.replicateM _).reads ⟨list.items, list.length_items⟩)
  · obtain ⟨size, c₁, hsize, hitems⟩ := bind_eq_ok_iff.mp hrun
    obtain ⟨u, suf, rfl, rfl, rfl⟩ := (parses_popIntegerUvarint _ _ _ _).mp hsize
    obtain ⟨⟨items, hlen⟩, suf', rfl, -⟩ := (h.replicateM _ _ _ _ _).mp hitems
    exact ⟨⟨u, items, hlen⟩, suf', (List.append_assoc _ _ _).symm⟩

/-- Strings are in the form that is written exactly when their octets are. -/
theorem asWritten_strings_iff {strs : List Varstring} :
    (∀ str ∈ strs, str.AsWritten) ↔
      strs.flatMap Varstring.octets = (strs.map (·.data)).flatMap varstringOctets := by
  constructor
  · intro h
    rw [List.flatMap_map]
    exact List.flatMap_congr fun str hstr => Varstring.asWritten_iff.mp (h str hstr)
  · intro h
    have hreads : ∀ data ∈ strs.map (·.data), Reads popVarstring (varstringOctets data) data := by
      intro data hdata
      obtain ⟨str, -, rfl⟩ := List.mem_map.mp hdata
      exact reads_popVarstring (str.length_data.trans_le str.size_le)
    have hnil : strs.flatMap Varstring.octets ++ [] =
        (strs.map (·.data)).flatMap varstringOctets ++ [] := by rw [h]
    have hall := (Reads.flatMap_unique (fun str _ => parses_popVarstring.reads str) hreads
      (List.length_map _).symm hnil).1
    rw [List.forall₂_map_right_iff, List.forall₂_same] at hall
    exact fun str hstr => Varstring.asWritten_iff.mpr (hall str hstr).1

/-- The count and the lengths of a vector of strings are in the form that is written. -/
def Counted.AsWritten (list : Counted Varstring) : Prop :=
  list.count.AsWritten ∧ ∀ str ∈ list.items, str.AsWritten

/-- The strings of a vector. -/
def Counted.strings (list : Counted Varstring) : List Bytes := list.items.map (·.data)

private theorem Counted.length_strings (list : Counted Varstring) : list.strings.length = list.count.value :=
  (List.length_map _).trans list.length_items

/-- The strings of a vector have sane lengths. -/
theorem Counted.length_le_sane {list : Counted Varstring} {data : Bytes} (h : data ∈ list.strings) :
    data.length ≤ saneMaxSizeForString := by
  obtain ⟨str, -, rfl⟩ := List.mem_map.mp h
  exact str.length_data.trans_le str.size_le

/-- A vector is in the form that is written exactly when its octets are the ones that are written. -/
theorem Counted.asWritten_iff {list : Counted Varstring} :
    list.AsWritten ↔ list.strings.length < uvarintLimit ∧
      list.octets Varstring.octets = vectorOctets varstringOctets list.strings := by
  rw [list.length_strings, vectorOctets, Counted.octets, list.length_strings]
  constructor
  · rintro ⟨hcount, hstrs⟩
    obtain ⟨hlim, hcount⟩ := Uvarint.asWritten_iff.mp hcount
    exact ⟨hlim, by rw [hcount, asWritten_strings_iff.mp hstrs, Counted.strings]⟩
  · rintro ⟨hlim, heq⟩
    obtain ⟨hcount, -, hstrs⟩ :=
      (parses_popIntegerUvarint.reads list.count).unique (reads_popIntegerUvarint hlim) heq
    exact ⟨Uvarint.asWritten_iff.mpr ⟨hlim, hcount⟩, asWritten_strings_iff.mpr hstrs⟩

theorem parses_popVectorString :
    Parses popVectorString (Counted.octets Varstring.octets) fun list => list.items.map (·.data) :=
  parses_counted parses_popVarstring

theorem parses_popVectorObject :
    Parses (popVectorObject : Parser (List Bytes)) (Counted.octets Varstring.octets)
      fun list => list.items.map (·.data) :=
  parses_counted parses_popVarstring

/-! ### Strings of any length -/

/-- `pop_varstring` without its limit: it reads all strings that are written. -/
def popLongVarstring : Parser Bytes := do
  let size ← popIntegerUvarint
  popBytesN size

/-- `pop_vector_string` without the limit on its strings. -/
def popLongVectorString : Parser (List Bytes) := do
  let size ← popIntegerUvarint
  replicateM popLongVarstring size

private theorem reads_popLongVarstring {data : Bytes} (h : data.length < uvarintLimit) :
    Reads popLongVarstring (varstringOctets data) data :=
  (reads_popIntegerUvarint h).bind (reads_popBytesN data)

theorem reads_popLongVectorString {strs : List Bytes} (hcount : strs.length < uvarintLimit)
    (h : ∀ str ∈ strs, str.length < uvarintLimit) :
    Reads popLongVectorString (vectorOctets varstringOctets strs) strs :=
  (reads_popIntegerUvarint hcount).bind
    (Reads.replicateM fun str hstr => reads_popLongVarstring (h str hstr))

/-- What is accepted with the limit is read without it. -/
theorem Counted.reads_popLongVectorString (list : Counted Varstring) :
    Reads popLongVectorString (list.octets Varstring.octets) list.strings := by
  have hstr : ∀ str : Varstring, Reads popLongVarstring str.octets str.data := fun str =>
    (parses_popIntegerUvarint.reads str.size).bind (str.length_data ▸ reads_popBytesN str.data)
  refine (parses_popIntegerUvarint.reads list.count).bind ?_
  rw [← list.length_items]
  exact Reads.replicateM_map fun str _ => hstr str

end TrivialSerialize

end Galaxy42
