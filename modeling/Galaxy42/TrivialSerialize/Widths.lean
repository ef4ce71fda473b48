import Galaxy42.TrivialSerialize.Syntax

/-!
# The ranges of integers

An integer of a fixed width is compared with the largest number of its octets by `>=`, so that the
number itself is refused, although all its octets are there. The same comparison is in the choice of
the form of a `uvarint`: the largest number of a form is written in the next form, and the largest
number of all in none. `writesRange_iff` and `uvarintMinimal_iff` say that there are no other numbers
for which the range or the form is not the one that is documented.

An integer that is read is added up in the type it is read into, which may be narrower than its octets.
`popsNumber_iff` says that a number that fits is returned, and no other one.

What is documented is written here apart from the functions that are to meet it: the largest value of `S` octets
as a power (`maxOfOctets`), the width of a number as one, three, five or nine octets (`uvarintWidth`). The
sources compute the first from two halves that overlap, which comes to the same number. The three results are
about one number each, over all widths, all types and all values, and about the generator or the parser in
whatever state it is in; what a refused number leaves behind belongs to them.
-/

namespace Galaxy42

open Toolkit Program Octets

namespace TrivialSerialize

/-! ### Integers of a fixed width -/

/-- A push writes `octets` when the value fits, and otherwise throws and leaves the generator as it was. What
the generator holds already makes no difference. -/
def WritesRange (push : Generator Unit) (fits : Prop) (octets : Bytes) : Prop :=
  ∀ str, (fits ∧ push str = .ok () (str ++ octets)) ∨
    (¬ fits ∧ ∃ e, push str = .error (.throw e) str)

/-- The largest value of `S` octets, as the documentation writes it. -/
def maxOfOctets (S : ℕ) : ℕ := 2 ^ (8 * S) - 1

theorem maxOfOctets_eq (S : ℕ) : maxOfOctets S = 256 ^ S - 1 := by
  rw [maxOfOctets, pow_mul]
  norm_num

/-- `push_integer_u<S>` refuses a value before anything of it is written. -/
theorem pushIntegerU_of_le (S : OctetCount 8) {value : ℕ} (h : maxOfOctets S.val ≤ value)
    (str : Bytes) :
    pushIntegerU S value str = .error (.throw .formatErrorWriteValueTooBig) str := by
  rw [maxOfOctets_eq] at h
  unfold pushIntegerU
  split
  next h8 =>
    have hmax : value ≥ 0xFFFFFFFFFFFFFFFF := by rwa [h8] at h
    exact bind_of_error (by rw [checkThat_apply, if_neg (not_not.mpr hmax)])
  next h8 =>
    have hmax : value ≥ getMaxValueOfSOctetUint S.val := by
      rwa [getMaxValueOfSOctetUint_eq S.property.1]
    exact bind_of_error (by rw [checkThat_apply, if_neg (not_not.mpr hmax)])

theorem pushBytesSizeoctets_of_le (S : OctetCount 4) {data : Bytes}
    (h : maxOfOctets S.val ≤ data.length) (str : Bytes) :
    pushBytesSizeoctets S data str = .error (.throw .formatErrorWriteValueTooBig) str :=
  bind_of_error (pushIntegerU_of_le (OctetCount.ofSize S) h str)

/-- A push that takes what is below a limit and refuses the rest covers the range up to the limit
except for the limit itself. -/
private theorem writesRange_iff_of_emits {push : Generator Unit} {value limit : ℕ} {octets : Bytes}
    (hpush : Emits push (value < limit) octets)
    (hrefuse : limit ≤ value → ∀ str, push str = .error (.throw .formatErrorWriteValueTooBig) str) :
    WritesRange push (value ≤ limit) octets ↔ value ≠ limit := by
  constructor
  · rintro hrange rfl
    rcases hrange [] with ⟨-, hok⟩ | ⟨hfits, -⟩
    · exact lt_irrefl value ((hpush _ _).mp hok).1
    · exact hfits le_rfl
  · intro hne str
    rcases lt_or_gt_of_ne hne with hlt | hgt
    · exact .inl ⟨hlt.le, (hpush _ _).mpr ⟨hlt, rfl⟩⟩
    · exact .inr ⟨not_le.mpr hgt, _, hrefuse hgt.le str⟩

/-- Integers and strings of a fixed width have the documented range, except for the largest value of the
width, which is refused. This holds for each number of octets that there is a template for, and for strings
whose size is written in so many octets. -/
theorem writesRange_iff (value : ℕ) (data : Bytes) :
    (∀ S : OctetCount 8,
      WritesRange (pushIntegerU S value) (value ≤ maxOfOctets S.val) (bigEndian S.val value) ↔
        value ≠ maxOfOctets S.val) ∧
    ∀ S : OctetCount 4,
      WritesRange (pushBytesSizeoctets S data) (data.length ≤ maxOfOctets S.val)
          (bigEndian S.val data.length ++ data) ↔
        data.length ≠ maxOfOctets S.val := by
  constructor
  · intro S
    have hpush := emits_pushIntegerU S value
    rw [← maxOfOctets_eq] at hpush
    exact writesRange_iff_of_emits hpush fun h str => pushIntegerU_of_le S h str
  · intro S
    have hpush := emits_pushBytesSizeoctets S data
    rw [← maxOfOctets_eq] at hpush
    exact writesRange_iff_of_emits hpush fun h str => pushBytesSizeoctets_of_le S h str

/-- The largest value of one octet, 255, is refused. -/
theorem not_writesRange_one :
    ¬ WritesRange (pushIntegerU OctetCount.one 255) (255 ≤ maxOfOctets 1) (bigEndian 1 255) := by
  intro hrange
  rcases hrange [] with ⟨-, hok⟩ | ⟨hfits, -⟩
  · have hrefused : pushIntegerU OctetCount.one 255 [] =
        .error (.throw .formatErrorWriteValueTooBig) [] := pushIntegerU_of_le _ (by decide) []
    exact nomatch hok.symm.trans hrefused
  · exact hfits (by decide)

/-! ### Reading integers of a fixed width -/

/-- The pop throws, or returns the number of the next `S` octets. With fewer octets than that, it throws. -/
def PopsNumber (S : OctetCount 8) (T : UIntType) (c : Cursor UInt8) : Prop :=
  (∃ e c', popIntegerU S T c = .error (.throw e) c') ∨
    ∃ c', S.val ≤ c.ahead.length ∧ popIntegerU S T c = .ok (toNat (c.ahead.take S.val)) c'

/-- With enough octets ahead, their number is returned, reduced to the type. -/
private theorem popIntegerU_of_le (S : OctetCount 8) (T : UIntType) {c : Cursor UInt8}
    (h : S.val ≤ c.ahead.length) :
    popIntegerU S T c = .ok (T.wrap (toNat (c.ahead.take S.val))) (c.advance S.val) := by
  have hlen : (c.ahead.take S.val).length = S.val := List.length_take_of_le h
  have hc : c = .between (c.data.take c.now) (c.ahead.take S.val ++ c.ahead.drop S.val) := by
    rw [List.take_append_drop]
    exact Cursor.eq_between (Cursor.now_le_of_ahead_pos (S.property.1.trans_le h))
  have hadvance := Cursor.advance_between (c.data.take c.now) (c.ahead.take S.val)
    (c.ahead.drop S.val)
  rw [← hc, hlen] at hadvance
  rw [hadvance, ← reads_popIntegerU S T hlen, ← hc]

/-- With too few octets ahead, all of them are read before the pop throws. -/
private theorem popIntegerULoop_of_lt (T : UIntType) {n : ℕ} :
    ∀ {value multiplier : ℕ} {c : Cursor UInt8}, c.ahead.length < n →
      popIntegerULoop T value multiplier n c =
        .error (.throw .formatErrorRead) (c.advance c.ahead.length) := by
  induction n with
  | zero => exact fun h => absurd h (Nat.not_lt_zero _)
  | succ n ih =>
    intro value multiplier c h
    cases hahead : c.ahead with
    | nil => exact bind_of_error (popByteU_of_nil hahead)
    | cons b rest =>
      have hrest : (c.advance 1).ahead = rest := by
        rw [Cursor.ahead_advance, hahead, List.drop_one, List.tail_cons]
      rw [hahead, List.length_cons] at h
      have hloop : popIntegerULoop T (T.wrap (value + b.toNat * multiplier)) (multiplier >>> 8) n
          (c.advance 1) = _ := ih (by rw [hrest]; omega)
      rw [popIntegerULoop, bind_of_ok (popByteU_of_cons hahead), hloop, hrest, List.length_cons, Cursor.advance,
        Cursor.advance, Cursor.advance, Nat.add_assoc, Nat.add_comm 1]

private theorem popIntegerU_of_lt (S : OctetCount 8) (T : UIntType) {c : Cursor UInt8}
    (h : c.ahead.length < S.val) :
    popIntegerU S T c = .error (.throw .formatErrorRead) (c.advance c.ahead.length) :=
  popIntegerULoop_of_lt T h

/-- A number is popped as it is unless it does not fit into the type it is read into. A type that is narrower
than the octets loses those in front without an error, so a number that does not fit is returned as another
one. -/
theorem popsNumber_iff (S : OctetCount 8) (T : UIntType) (c : Cursor UInt8) :
    PopsNumber S T c ↔
      (S.val ≤ c.ahead.length → toNat (c.ahead.take S.val) < 256 ^ T.octets) := by
  by_cases hlen : S.val ≤ c.ahead.length
  · have hpop := popIntegerU_of_le S T hlen
    rw [imp_iff_right hlen]
    constructor
    · rintro (⟨e, c', herror⟩ | ⟨c', -, hok⟩)
      · exact nomatch hpop.symm.trans herror
      · -- what is returned is a remainder
        obtain ⟨hwrap, -⟩ := EStateM.Result.ok.inj (hpop.symm.trans hok)
        rw [← hwrap]
        exact Nat.mod_lt _ (by positivity)
    · intro hfits
      rw [UIntType.wrap_of_lt hfits] at hpop
      exact .inr ⟨_, hlen, hpop⟩
  · rw [iff_true_right fun h => absurd h hlen]
    exact .inl ⟨_, _, popIntegerU_of_lt S T (not_le.mp hlen)⟩

/-- Of eight octets that are read into an `unsigned int`, four are lost. -/
theorem not_popsNumber_eight :
    ¬ PopsNumber OctetCount.eight .u32 (.start [0, 0, 0, 1, 0, 0, 0, 0]) := by
  have hpop : popIntegerU OctetCount.eight .u32 (.start [0, 0, 0, 1, 0, 0, 0, 0]) =
      .ok 0 ⟨[0, 0, 0, 1, 0, 0, 0, 0], 8⟩ := rfl
  rintro (⟨e, c', herror⟩ | ⟨c', -, hok⟩)
  · exact nomatch hpop.symm.trans herror
  · exact absurd (EStateM.Result.ok.inj (hpop.symm.trans hok)).1 (by decide)

/-! ### Integers of a variable width -/

/-- The documented width of a number: one, three, five or nine octets. -/
def uvarintWidth (value : ℕ) : ℕ :=
  if value < 0xFD then 1
  else if value ≤ 0xFFFF then 3
  else if value ≤ 0xFFFFFFFF then 5
  else 9

/-- `push_integer_uvarint` writes the number, in the documented width, as octets that are read back as the
number, that are written for no other number, and that are as short as any that are read so. The last part is
about all octets that can be read as the number, and not only about those that are written. -/
def UvarintMinimal (value : UInt64) : Prop :=
  ∃ octets : Bytes,
    (∀ str, pushIntegerUvarint value.toNat str = .ok () (str ++ octets)) ∧
    octets.length = uvarintWidth value.toNat ∧
    Reads popIntegerUvarint octets value.toNat ∧
    (∀ other : UInt64, pushIntegerUvarint other.toNat [] = .ok () octets → other = value) ∧
    ∀ octets', Reads popIntegerUvarint octets' value.toNat → octets.length ≤ octets'.length

/-- No form holds a number in fewer octets than its width. -/
private theorem Uvarint.uvarintWidth_value_le (u : Uvarint) : uvarintWidth u.value ≤ u.octets.length := by
  have hwide : ∀ {n : ℕ} (digits : Block n), toNat digits.octets < 256 ^ n := fun digits => by
    have hlt := toNat_lt digits.octets
    rwa [digits.length_octets] at hlt
  unfold uvarintWidth
  cases u with
  | one first h =>
    have hlt : first.toNat < 0xFD := UInt8.lt_iff_toNat_lt.mp h
    rw [Uvarint.value, if_pos hlt, Uvarint.octets, List.length_singleton]
  | two digits =>
    have hlt := hwide digits
    rw [Uvarint.value, Uvarint.octets, List.length_cons, digits.length_octets]
    split_ifs <;> omega
  | four digits =>
    have hlt := hwide digits
    rw [Uvarint.value, Uvarint.octets, List.length_cons, digits.length_octets]
    split_ifs <;> omega
  | eight digits =>
    rw [Uvarint.octets, List.length_cons, digits.length_octets]
    split_ifs <;> omega

/-- Octets that are read as a number are no shorter than its width. -/
private theorem uvarintWidth_le_of_reads {octets : Bytes} {value : ℕ}
    (h : Reads popIntegerUvarint octets value) : uvarintWidth value ≤ octets.length := by
  obtain ⟨u, suf, hout, rfl, -⟩ := (parses_popIntegerUvarint [] octets _ _).mp
    (by simpa using h [] [])
  refine u.uvarintWidth_value_le.trans ?_
  rw [hout, List.length_append]
  exact Nat.le_add_right _ _

/-- The width that is used is the documented one unless the number is the largest of two or four
octets. -/
theorem length_uvarintOctets_eq_iff (value : ℕ) :
    (uvarintOctets value).length = uvarintWidth value ↔ value ≠ 0xFFFF ∧ value ≠ 0xFFFFFFFF := by
  unfold uvarintOctets uvarintWidth
  split_ifs <;> simp <;> omega

/-- A number of 64 bits is written in the documented way unless it is the largest of two, four or eight
octets. The largest numbers of two and of four octets are written in the next form, and the largest of all is
refused. -/
theorem uvarintMinimal_iff (value : UInt64) :
    UvarintMinimal value ↔
      value ≠ 0xFFFF ∧ value ≠ 0xFFFFFFFF ∧ value ≠ 0xFFFFFFFFFFFFFFFF := by
  have hcond : value ≠ 0xFFFF ∧ value ≠ 0xFFFFFFFF ∧ value ≠ 0xFFFFFFFFFFFFFFFF ↔
      (value.toNat ≠ 0xFFFF ∧ value.toNat ≠ 0xFFFFFFFF) ∧ value.toNat < uvarintLimit := by
    have hlt := value.toNat_lt
    simp only [ne_eq, ← UInt64.toNat_inj, UInt64.reduceToNat, uvarintLimit]
    omega
  rw [hcond, ← length_uvarintOctets_eq_iff]
  constructor
  · rintro ⟨octets, hpush, hwidth, -⟩
    obtain ⟨hlt, heq⟩ := (emits_pushIntegerUvarint value.toNat _ _).mp (hpush [])
    obtain rfl : octets = uvarintOctets value.toNat := by simpa using heq
    exact ⟨hwidth, hlt⟩
  · rintro ⟨hwidth, hlt⟩
    have hreads := reads_popIntegerUvarint hlt
    refine ⟨uvarintOctets value.toNat, fun str => ?_, hwidth, hreads, fun other hother => ?_,
      fun octets' hreads' => ?_⟩
    · exact (emits_pushIntegerUvarint _ _ _).mpr ⟨hlt, rfl⟩
    · -- the octets are those of `other`, and are read as one number only
      obtain ⟨hlt', heq⟩ := (emits_pushIntegerUvarint other.toNat _ _).mp hother
      rw [List.nil_append] at heq
      have hunique := (reads_popIntegerUvarint hlt').unique hreads
        (congrArg (· ++ []) heq.symm)
      exact UInt64.toNat_inj.mp hunique.2.1
    · rw [hwidth]
      exact uvarintWidth_le_of_reads hreads'

/-- The largest number of two octets is written in five. -/
theorem not_uvarintMinimal_two : ¬ UvarintMinimal 0xFFFF := by
  rintro ⟨octets, hpush, hwidth, -⟩
  obtain ⟨-, heq⟩ := (emits_pushIntegerUvarint _ _ _).mp (hpush [])
  rw [List.nil_append] at heq
  rw [heq] at hwidth
  exact absurd hwidth (by decide)

end TrivialSerialize

end Galaxy42
