import Galaxy42.Crypto.LockedKeys

/-!
# Popping octets into a buffer

`pop_bytes_n_into_buff` with the memory it works on. The data of the parser lie in memory from
`m_data_begin` on, and the buffer at another address. The call keeps a record of the addresses it reads.

`copy_iter_and_check_no_overlap` takes the last element of a range, and is given the end of the range:
the octet behind those that are popped is read, and written behind the buffer. So the call does what
`pop_bytes_n` does only when both throw, that is when there are too few octets
(`agreesWithPopBytesN_iff`). What is copied are the octets of the model without addresses
(`exists_popBytesNIntoBuff`).

The memory is a function from addresses to octets. It has no bounds, as the octet behind the data is somewhere
too, and what is asked of a call is put as a frame: with enough octets the buffer gets them, nothing
else in the memory changes, and nothing outside of the data is read (`AgreesWithPopBytesN`). The last part is
what fails for every call that copies, also where the octet behind the buffer already had that value; so the
condition does not depend on what is in the memory.

The buffer may overlap the data. There the helper refuses to copy, after the parser has moved on, which is why
the two ways to pop do not agree there either.
-/

namespace Galaxy42

open Toolkit Program

namespace TrivialSerialize

/-! ### The memory -/

/-- The octet at each address, and the addresses that a call has read. -/
structure Accessed where
  /-- The octet at each address. -/
  memory : ℕ → UInt8
  /-- The addresses that were read. -/
  reads : List ℕ

namespace Accessed

/-- Nothing was read yet. -/
def start (memory : ℕ → UInt8) : Accessed := ⟨memory, []⟩

/-- `std::copy`, to the address `dFirst` -/
def copy (m : Accessed) (first last dFirst : ℕ) : Accessed where
  memory a :=
    if dFirst ≤ a ∧ a < dFirst + (last - first) then m.memory (first + (a - dFirst)) else m.memory a
  reads := m.reads ++ List.range' first (last - first)

/-- The octets from an address on are the given ones. -/
def Holds (m : Accessed) (address : ℕ) (octets : Bytes) : Prop :=
  ∀ i octet, octets[i]? = some octet → m.memory (address + i) = octet

private theorem memory_copy_of_lt (m : Accessed) {first last dFirst i : ℕ} (hi : i < last - first) :
    (m.copy first last dFirst).memory (dFirst + i) = m.memory (first + i) := by
  have hrange : dFirst ≤ dFirst + i ∧ dFirst + i < dFirst + (last - first) := by omega
  refine (if_pos hrange).trans ?_
  rw [Nat.add_sub_cancel_left]

private theorem mem_reads_copy_last (m : Accessed) {first last dFirst : ℕ} (h : first ≤ last) :
    last ∈ (m.copy first (last + 1) dFirst).reads := by
  refine List.mem_append_right _ (List.mem_range'_1.mpr ⟨h, ?_⟩)
  omega

end Accessed

/-- `stdplus::test_ranges_overlap_inclusive_noempty` -/
def testRangesOverlapInclusiveNoempty {σ : Type} (start1 last1 start2 last2 : ℕ) :
    Program Exn σ Bool := do
  assertThat (start1 ≤ last1)
  assertThat (start2 ≤ last2)
  return decide (start1 ≤ last2 ∧ start2 ≤ last1)

/-- `stdplus::copy_iter_and_check_no_overlap`, with the addresses of the iterators. -/
def copyIterAndCheckNoOverlapAt (first last dFirst size : ℕ) : Program Exn Accessed Unit := do
  assertThat (first ≤ last)
  assertThat (size > 0)
  let overlap ← testRangesOverlapInclusiveNoempty first last dFirst (dFirst + size - 1)
  checkThat (¬ overlap) (.errCheckInput
    "! test_ranges_overlap_inclusive_noempty(first, last, d_first, d_first+size-1)")
  modify fun m => m.copy first (last + 1) dFirst

/-- `parser::pop_bytes_n_into_buff`, with the addresses `m_data_begin` and `buff`. -/
def popBytesNIntoBuffAt (dataBegin size buff : ℕ) :
    Program Exn (Cursor UInt8 × Accessed) Unit := do
  let (c, _) ← get
  checkThat (c.ahead ≠ []) .formatErrorRead
  checkThat (c.ahead.length ≥ size) .formatErrorRead
  assertThat (buff ≠ 0)
  onFst (set (c.advance size))
  onSnd (copyIterAndCheckNoOverlapAt (dataBegin + c.now) (dataBegin + c.now + size) buff size)

/-! ### What is copied -/

/-- When the copy is made, it takes the last address too. -/
theorem copyIterAndCheckNoOverlapAt_eq_ok_iff {first last dFirst size : ℕ} {m m' : Accessed}
    {u : Unit} :
    copyIterAndCheckNoOverlapAt first last dFirst size m = .ok u m' ↔
      first ≤ last ∧ 0 < size ∧ ¬ (first ≤ dFirst + size - 1 ∧ dFirst ≤ last) ∧
        m' = m.copy first (last + 1) dFirst := by
  simp only [copyIterAndCheckNoOverlapAt, testRangesOverlapInclusiveNoempty, bind_eq_ok_iff,
    assertThat_eq_ok_iff, checkThat_eq_ok_iff, pure_apply, modify_apply, EStateM.Result.ok.injEq]
  constructor
  · rintro ⟨_, _, ⟨hle, rfl⟩, _, _, ⟨hpos, rfl⟩, _, _, ⟨_, _, ⟨-, rfl⟩, _, _, ⟨-, rfl⟩, rfl, rfl⟩,
      _, _, ⟨hno, rfl⟩, -, rfl⟩
    exact ⟨hle, hpos, by simpa using hno, rfl⟩
  · rintro ⟨hle, hpos, hno, rfl⟩
    exact ⟨(), m, ⟨hle, rfl⟩, (), m, ⟨hpos, rfl⟩, _, m,
      ⟨(), m, ⟨hle, rfl⟩, (), m, ⟨by omega, rfl⟩, rfl, rfl⟩, (), m, ⟨by simpa using hno, rfl⟩,
      trivial, rfl⟩

/-- What the call does when it returns. -/
theorem popBytesNIntoBuffAt_eq_ok_iff {dataBegin size buff : ℕ} {c c' : Cursor UInt8}
    {m m' : Accessed} {u : Unit} :
    popBytesNIntoBuffAt dataBegin size buff (c, m) = .ok u (c', m') ↔
      (0 < size ∧ size ≤ c.ahead.length ∧ buff ≠ 0 ∧
        ¬ (dataBegin + c.now ≤ buff + size - 1 ∧ buff ≤ dataBegin + c.now + size)) ∧
      c' = c.advance size ∧
      m' = m.copy (dataBegin + c.now) (dataBegin + c.now + size + 1) buff := by
  simp only [popBytesNIntoBuffAt, bind_eq_ok_iff, get_apply, set_apply, checkThat_eq_ok_iff,
    assertThat_eq_ok_iff, onFst_eq_ok_iff, onSnd_eq_ok_iff, copyIterAndCheckNoOverlapAt_eq_ok_iff,
    EStateM.Result.ok.injEq]
  constructor
  · rintro ⟨_, _, ⟨rfl, rfl⟩, _, _, ⟨-, rfl⟩, _, _, ⟨hle, rfl⟩, _, _, ⟨hbuff, rfl⟩, _, ⟨_, _⟩,
      ⟨⟨-, rfl⟩, rfl⟩, ⟨-, hpos, hno, rfl⟩, rfl⟩
    exact ⟨⟨hpos, hle, hbuff, hno⟩, rfl, rfl⟩
  · rintro ⟨⟨hpos, hle, hbuff, hno⟩, rfl, rfl⟩
    have hne : c.ahead ≠ [] := List.ne_nil_of_length_pos (hpos.trans_le hle)
    exact ⟨(c, m), (c, m), ⟨rfl, rfl⟩, (), (c, m), ⟨hne, rfl⟩, (), (c, m), ⟨hle, rfl⟩, (), (c, m),
      ⟨hbuff, rfl⟩, ⟨⟩, (c.advance size, m), ⟨⟨trivial, rfl⟩, rfl⟩,
      ⟨Nat.le_add_right _ _, hpos, hno, rfl⟩, rfl⟩

/-- The octets that are copied are those of the model without addresses, when the data are in memory
with a zero behind them. -/
theorem exists_popBytesNIntoBuff {dataBegin size buff : ℕ} {c c' : Cursor UInt8} {m m' : Accessed}
    (hdata : m.Holds dataBegin (c.data ++ [0]))
    (h : popBytesNIntoBuffAt dataBegin size buff (c, m) = .ok () (c', m')) :
    ∃ written, popBytesNIntoBuff size c = .ok written c' ∧ m'.Holds buff written := by
  obtain ⟨⟨hpos, hle, -, -⟩, rfl, rfl⟩ := popBytesNIntoBuffAt_eq_ok_iff.mp h
  refine ⟨_, popBytesNIntoBuff_eq_ok_iff.mpr ⟨hpos, hle, rfl, rfl⟩, fun i octet hoctet => ?_⟩
  rw [List.getElem?_take, Option.ite_none_right_eq_some] at hoctet
  obtain ⟨hi, hoctet⟩ := hoctet
  have hlast : i < dataBegin + c.now + size + 1 - (dataBegin + c.now) := by omega
  rw [Accessed.memory_copy_of_lt m hlast, Nat.add_assoc]
  refine hdata _ _ ?_
  have hahead : c.ahead ++ [0] = (c.data ++ [0]).drop c.now := by
    have hnow : c.now ≤ c.data.length := by
      rw [Cursor.ahead, List.length_drop] at hle
      omega
    rw [Cursor.ahead, List.drop_append_of_le_length hnow]
  rwa [hahead, List.getElem?_drop] at hoctet

/-- When the call returns, it has read the octet behind those that are popped. -/
private theorem behind_mem_reads {dataBegin size buff : ℕ} {c c' : Cursor UInt8} {m m' : Accessed}
    (h : popBytesNIntoBuffAt dataBegin size buff (c, m) = .ok () (c', m')) :
    dataBegin + c.now + size ∈ m'.reads := by
  obtain ⟨-, -, rfl⟩ := popBytesNIntoBuffAt_eq_ok_iff.mp h
  exact m.mem_reads_copy_last (Nat.le_add_right _ _)

/-! ### The two ways to pop -/

theorem popBytesNIntoBuffAt_of_lt {dataBegin size buff : ℕ} {c : Cursor UInt8} {m : Accessed}
    (h : c.ahead.length < size) :
    popBytesNIntoBuffAt dataBegin size buff (c, m) = .error (.throw .formatErrorRead) (c, m) := by
  simp only [popBytesNIntoBuffAt, bind_apply, get_apply, checkThat_apply]
  split_ifs with hne hge
  · omega
  · rfl
  · rfl
  · rfl

/-- Both ways to pop throw the same error and leave the parser and the memory as they were, or the buffer gets
the octets that are popped: nothing else is written or read. It is asked of one call, for the data, the buffer
and the memory there. -/
def AgreesWithPopBytesN (dataBegin size buff : ℕ) (c : Cursor UInt8) (memory : ℕ → UInt8) : Prop :=
  (∃ e, popBytesN size c = .error (.throw e) c ∧
    popBytesNIntoBuffAt dataBegin size buff (c, .start memory) =
      .error (.throw e) (c, .start memory)) ∨
  ∃ data m', popBytesN size c = .ok data (c.advance size) ∧
    popBytesNIntoBuffAt dataBegin size buff (c, .start memory) = .ok () (c.advance size, m') ∧
    m'.Holds buff data ∧
    (∀ a, ¬ (buff ≤ a ∧ a < buff + size) → m'.memory a = memory a) ∧
    ∀ a ∈ m'.reads, dataBegin + c.now ≤ a ∧ a < dataBegin + c.now + size

/-- With enough octets, popping them into a buffer is not the same as popping them. -/
theorem not_agreesWithPopBytesN_of_le {dataBegin size buff : ℕ} {c : Cursor UInt8}
    {memory : ℕ → UInt8} (h : size ≤ c.ahead.length) :
    ¬ AgreesWithPopBytesN dataBegin size buff c memory := by
  rintro (⟨e, hthrow, -⟩ | ⟨data, m', -, hok, -, -, hreads⟩)
  · exact nomatch (popBytesN_of_le h).symm.trans hthrow
  · exact lt_irrefl _ (hreads _ (behind_mem_reads hok)).2

/-- The two ways to pop agree exactly when there are too few octets, wherever the buffer is and whatever is in
the memory. The octet behind those that were asked for is read and written in all other cases, also where that
changes nothing. -/
theorem agreesWithPopBytesN_iff (dataBegin size buff : ℕ) (c : Cursor UInt8) (memory : ℕ → UInt8) :
    AgreesWithPopBytesN dataBegin size buff c memory ↔ c.ahead.length < size := by
  constructor
  · intro hagrees
    by_contra hle
    exact not_agreesWithPopBytesN_of_le (not_lt.mp hle) hagrees
  · intro hlt
    exact .inl ⟨_, popBytesN_of_lt hlt, popBytesNIntoBuffAt_of_lt hlt⟩

/-- One octet of two, into a buffer far away. -/
theorem not_agreesWithPopBytesN_one :
    ¬ AgreesWithPopBytesN 100 1 200 (.start [1, 2]) fun _ => 0 :=
  not_agreesWithPopBytesN_of_le (by decide)

end TrivialSerialize

end Galaxy42
