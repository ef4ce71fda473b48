import Galaxy42.Lib.Arrays
import Galaxy42.TrivialSerialize.PopIntoBuffer
import Mathlib.Algebra.Order.Group.Nat

/-!
# Copies between containers

`copy_safe_apart` and the helper that does its copying, on containers whose elements are in the arrays of
a layout. A view is a container too, so two containers can be in one array, or the same one.

`copy_iter_and_check_no_overlap` does not compare the size it is given with the range
(`copiesAsDocumented_iff`). `copy_safe_apart` gives it the size of the range, so that its own frame is
kept (`copySafeApart_keepsFrame`). With octets as elements, the helper is the one of
`pop_bytes_n_into_buff` (`copyIterAndCheckNoOverlapAt_toAccessed`).

Iterators are compared and passed as addresses: an array of the layout has an address, and its elements have a
size. That makes the test for an overlap the one of the sources, which looks at addresses, also for ranges of
different arrays and of elements of different types; `test_iff` says what it comes to for ranges.

A frame has two sides. What is copied is there, and everything else is as it was, in the array that was
written as well as in all others. Both sides are one structure for each of the two functions
(`CopiesAsDocumented`, `KeepsFrame`), with the calls that throw in it, so that there is no case in which
nothing is said. What `copy_safe_apart` checks makes no sum that could wrap (`fits_iff`), and its
assertion about the end of the container follows from the checks.
-/

namespace Galaxy42

open Toolkit Program

namespace Stdplus

variable {ι α : Type} {L : Layout ι} {assign : α → α} {m : Elements ι α}

/-! ### Ranges given by their last element -/

/-- `copy_iter_and_check_no_overlap`, where `assign` is the conversion to the type of the destination's
elements. -/
def copyIterAndCheckNoOverlap [DecidableEq ι] (L : Layout ι) (assign : α → α)
    (first last dFirst : Iter ι) (size : ℕ) : Program Exn (Elements ι α) Unit := do
  assertThat (L.address first ≤ L.address last)
  assertThat (size > 0)
  let overlap ← TrivialSerialize.testRangesOverlapInclusiveNoempty (L.address first) (L.address last)
    (L.address dFirst) (L.address (dFirst.plus size).prev)
  checkThat (¬ overlap) (.errCheckInput
    "! test_ranges_overlap_inclusive_noempty(first, last, d_first, d_first+size-1)")
  modify fun m => m.copy assign first dFirst (last.index + 1 - first.index)

/-- A range of an array that is given by its first and its last element. -/
structure InclusiveRange (L : Layout ι) where
  /-- The array. -/
  array : ι
  /-- The index of the first element. -/
  first : ℕ
  /-- The index of the last element. -/
  last : ℕ
  first_le_last : first ≤ last
  last_lt : last < L.length array

namespace InclusiveRange

variable (r : InclusiveRange L)

/-- `first` -/
def firstIter : Iter ι := ⟨r.array, r.first⟩

/-- `last` -/
def lastIter : Iter ι := ⟨r.array, r.last⟩

/-- How many elements the range has. -/
def length : ℕ := r.last + 1 - r.first

private theorem length_pos : 0 < r.length := by
  have hle := r.first_le_last
  unfold length
  omega

private theorem fits : r.firstIter.index + r.length ≤ L.length r.firstIter.array := by
  have hle := r.first_le_last
  have hlt := r.last_lt
  simp only [firstIter, length]
  omega

private theorem lastIter_eq : r.lastIter = (r.firstIter.plus r.length).prev := by
  have hle := r.first_le_last
  simp only [lastIter, firstIter, Iter.plus, Iter.prev, length, Iter.mk.injEq, true_and]
  omega

private theorem address_le : L.address r.firstIter ≤ L.address r.lastIter := by
  have hle := r.first_le_last
  have hlt := r.last_lt
  have hiff : L.address r.firstIter ≤ L.address r.lastIter ↔ r.first ≤ r.last :=
    Layout.address_le_address_iff rfl (hle.trans_lt hlt).le hlt.le
  exact hiff.mpr hle

/-- The test of the helper tells whether the range overlaps with another one. -/
theorem test_iff {dFirst : Iter ι} {size : ℕ} (hdst : dFirst.index + size ≤ L.length dFirst.array)
    (hpos : 0 < size) :
    (L.address r.firstIter ≤ L.address (dFirst.plus size).prev ∧
      L.address dFirst ≤ L.address r.lastIter) ↔ L.Overlap r.firstIter r.length dFirst size := by
  rw [lastIter_eq]
  exact Layout.address_le_and_address_le_iff r.fits hdst r.length_pos hpos

end InclusiveRange

section Helper

variable [DecidableEq ι] {r : InclusiveRange L} {dFirst : Iter ι} {size : ℕ}

/-- A size of 0 is not accepted. -/
private theorem copyIterAndCheckNoOverlap_zero :
    copyIterAndCheckNoOverlap L assign r.firstIter r.lastIter dFirst 0 m = .error .abort m := by
  simp only [copyIterAndCheckNoOverlap, bind_apply, assertThat_apply, if_pos r.address_le]
  rfl

omit [DecidableEq ι] in
private theorem address_le_address_prev (hdst : dFirst.index + size ≤ L.length dFirst.array)
    (hpos : 0 < size) :
    L.address dFirst ≤ L.address (dFirst.plus size).prev := by
  have hiff : L.address dFirst ≤ L.address (dFirst.plus size).prev ↔
      dFirst.index ≤ dFirst.index + size - 1 := by
    refine Layout.address_le_address_iff rfl (by omega) ?_
    simp only [Iter.plus, Iter.prev]
    omega
  exact hiff.mpr (by omega)

/-- The helper throws when the ranges overlap. -/
private theorem copyIterAndCheckNoOverlap_of_overlap (hdst : dFirst.index + size ≤ L.length dFirst.array)
    (hpos : 0 < size) (h : L.Overlap r.firstIter r.length dFirst size) :
    copyIterAndCheckNoOverlap L assign r.firstIter r.lastIter dFirst size m =
      .error (.throw (.errCheckInput
        "! test_ranges_overlap_inclusive_noempty(first, last, d_first, d_first+size-1)")) m := by
  have htest := (r.test_iff hdst hpos).mpr h
  simp [copyIterAndCheckNoOverlap, TrivialSerialize.testRangesOverlapInclusiveNoempty, bind_apply,
    assertThat_apply, checkThat_apply, r.address_le, hpos, address_le_address_prev hdst hpos, htest]

/-- Otherwise it copies the range, whatever the size is. -/
theorem copyIterAndCheckNoOverlap_of_not_overlap
    (hdst : dFirst.index + size ≤ L.length dFirst.array) (hpos : 0 < size)
    (h : ¬ L.Overlap r.firstIter r.length dFirst size) :
    copyIterAndCheckNoOverlap L assign r.firstIter r.lastIter dFirst size m =
      .ok () (m.copy assign r.firstIter dFirst r.length) := by
  have htest := mt (r.test_iff hdst hpos).mp h
  simp only [copyIterAndCheckNoOverlap, TrivialSerialize.testRangesOverlapInclusiveNoempty, bind_apply,
    assertThat_apply, checkThat_apply, pure_apply, modify_apply, if_pos r.address_le,
    if_pos (show size > 0 from hpos), if_pos (address_le_address_prev hdst hpos), htest,
    decide_false, Bool.false_eq_true, not_false_eq_true, if_true]
  rfl

/-- What the helper documents, for one call: when the size is not that of the range, it throws or aborts
and has written nothing; when the ranges overlap, it throws and has written nothing; otherwise it copies
`size` elements. Only elements of the destination are ever written. -/
structure CopiesAsDocumented (L : Layout ι) (assign : α → α) (r : InclusiveRange L) (dFirst : Iter ι)
    (size : ℕ) (m : Elements ι α) : Prop where
  checksSize : size ≠ r.length → ∃ e,
    copyIterAndCheckNoOverlap L assign r.firstIter r.lastIter dFirst size m = .error e m
  checksOverlap : L.Overlap r.firstIter r.length dFirst size → ∃ e,
    copyIterAndCheckNoOverlap L assign r.firstIter r.lastIter dFirst size m = .error (.throw e) m
  copies : size = r.length → ¬ L.Overlap r.firstIter r.length dFirst size → ∃ m',
    copyIterAndCheckNoOverlap L assign r.firstIter r.lastIter dFirst size m = .ok () m' ∧
      (∀ k, k < size → m'.contents dFirst.array (dFirst.index + k) =
        assign (m.contents r.array (r.first + k))) ∧
      ∀ x, x ∉ Elements.range dFirst size →
        m'.contents x.array x.index = m.contents x.array x.index
  writes : ∀ x,
    x ∈ (finalState (copyIterAndCheckNoOverlap L assign r.firstIter r.lastIter dFirst size) m).writes →
      x ∈ m.writes ∨ x ∈ Elements.range dFirst size

private theorem copiesAsDocumented_zero : CopiesAsDocumented L assign r dFirst 0 m where
  checksSize _ := ⟨_, copyIterAndCheckNoOverlap_zero⟩
  checksOverlap h := absurd h Layout.not_overlap_zero
  copies h := absurd h r.length_pos.ne
  writes x hx := by
    rw [finalState_of_error copyIterAndCheckNoOverlap_zero] at hx
    exact .inl hx

private theorem copiesAsDocumented_of_overlap (hdst : dFirst.index + size ≤ L.length dFirst.array)
    (hpos : 0 < size) (h : L.Overlap r.firstIter r.length dFirst size) :
    CopiesAsDocumented L assign r dFirst size m where
  checksSize _ := ⟨_, copyIterAndCheckNoOverlap_of_overlap hdst hpos h⟩
  checksOverlap _ := ⟨_, copyIterAndCheckNoOverlap_of_overlap hdst hpos h⟩
  copies _ hapart := absurd h hapart
  writes x hx := by
    rw [finalState_of_error (copyIterAndCheckNoOverlap_of_overlap hdst hpos h)] at hx
    exact .inl hx

private theorem copiesAsDocumented_length (hdst : dFirst.index + r.length ≤ L.length dFirst.array)
    (h : ¬ L.Overlap r.firstIter r.length dFirst r.length) :
    CopiesAsDocumented L assign r dFirst r.length m where
  checksSize hne := absurd rfl hne
  checksOverlap hoverlap := absurd hoverlap h
  copies _ _ := by
    refine ⟨_, copyIterAndCheckNoOverlap_of_not_overlap hdst r.length_pos h, fun k hk => ?_, fun x hx => ?_⟩
    · exact Elements.contents_copy hk fun i j hij hj =>
        Layout.plus_ne_plus_of_not_overlap r.fits hdst h hj (hij.trans hj)
    · exact Elements.contents_copy_of_notMem hx
  writes x hx := by
    rw [finalState_of_ok (copyIterAndCheckNoOverlap_of_not_overlap hdst r.length_pos h),
      Elements.writes_copy, List.mem_append] at hx
    exact hx

/-- The helper does what it documents, for a destination that has `size` elements, exactly when the size is
that of the range, or the size is 0, or the ranges overlap: the size is never compared with the range. With
another size it copies the whole range, over the end of a destination that has room for the size only. -/
theorem copiesAsDocumented_iff (hdst : dFirst.index + size ≤ L.length dFirst.array) :
    CopiesAsDocumented L assign r dFirst size m ↔
      size = r.length ∨ size = 0 ∨ L.Overlap r.firstIter r.length dFirst size := by
  constructor
  · intro h
    by_contra hnot
    obtain ⟨hsize, hzero, hapart⟩ : size ≠ r.length ∧ size ≠ 0 ∧
        ¬ L.Overlap r.firstIter r.length dFirst size := by tauto
    obtain ⟨e, he⟩ := h.checksSize hsize
    rw [copyIterAndCheckNoOverlap_of_not_overlap hdst (Nat.pos_of_ne_zero hzero) hapart] at he
    exact nomatch he
  · intro h
    rcases Nat.eq_zero_or_pos size with rfl | hpos
    · exact copiesAsDocumented_zero
    by_cases hoverlap : L.Overlap r.firstIter r.length dFirst size
    · exact copiesAsDocumented_of_overlap hdst hpos hoverlap
    · obtain rfl : size = r.length := by
        rcases h with h | h | h
        · exact h
        · exact absurd h hpos.ne'
        · exact absurd h hoverlap
      exact copiesAsDocumented_length hdst hoverlap

end Helper

/-- Two arrays of ten elements of four octets each. -/
def twoArrays : Layout Bool where
  base i := if i then 4096 else 8192
  width _ := 4
  length _ := 10
  width_pos _ := by decide
  fits i := by cases i <;> decide
  apart i j hij := by
    rw [Set.Ico_disjoint_Ico]
    cases i <;> cases j <;> first | exact absurd rfl hij | decide

/-- The first five elements of an array. -/
def firstFive : InclusiveRange twoArrays where
  array := true
  first := 0
  last := 4
  first_le_last := by decide
  last_lt := by decide

/-- Five elements are copied to a destination of three. -/
theorem copiesAsDocumented_three_iff :
    CopiesAsDocumented twoArrays id firstFive ⟨false, 0⟩ 3 ⟨fun _ _ => 0, [], []⟩ ↔
      3 = firstFive.length ∨ 3 = 0 ∨ twoArrays.Overlap firstFive.firstIter firstFive.length ⟨false, 0⟩ 3 :=
  copiesAsDocumented_iff (by decide)

/-- Five elements are copied where three are asked for. -/
theorem not_copiesAsDocumented_three :
    ¬ CopiesAsDocumented twoArrays id firstFive ⟨false, 0⟩ 3 ⟨fun _ _ => 0, [], []⟩ := by
  intro h
  have hapart : ¬ twoArrays.Overlap firstFive.firstIter firstFive.length ⟨false, 0⟩ 3 := by
    rw [Layout.overlap_iff firstFive.fits (by decide) firstFive.length_pos (by decide)]
    decide
  obtain ⟨e, he⟩ := h.checksSize (by decide)
  rw [copyIterAndCheckNoOverlap_of_not_overlap (by decide) (by decide) hapart] at he
  exact nomatch he

/-! ### Containers -/

/-- A container: a range of the elements of an array, or all of them. -/
structure Container (L : Layout ι) where
  /-- The array. -/
  array : ι
  /-- The index of the first element. -/
  start : ℕ
  /-- `size()` -/
  size : UInt64
  fits : start + size.toNat ≤ L.length array

namespace Container

variable (tab : Container L)

/-- `begin()` -/
def beginIter : Iter ι := ⟨tab.array, tab.start⟩

/-- `end()` -/
def endIter : Iter ι := tab.beginIter.plus tab.size.toNat

/-- The iterator of the element at an offset. -/
def iterAt (offset : UInt64) : Iter ι := tab.beginIter.plus offset.toNat

/-- The container has `n` elements from an offset on. -/
def Fits (offset n : UInt64) : Prop := offset.toNat + n.toNat ≤ tab.size.toNat

variable {tab} {offset n : UInt64}

/-- What is checked of the offset and the count, without a sum that could wrap. -/
theorem fits_iff (hn : n ≠ 0) : tab.Fits offset n ↔ offset < tab.size ∧ n ≤ tab.size - offset := by
  have hpos : n.toNat ≠ 0 := fun h => hn (UInt64.toNat_inj.mp h)
  rw [Fits, UInt64.lt_iff_toNat_lt]
  constructor
  · intro h
    have hlt : offset.toNat < tab.size.toNat := by omega
    refine ⟨hlt, ?_⟩
    rw [UInt64.le_iff_toNat_le, UInt64.toNat_sub_of_le _ _ (UInt64.le_iff_toNat_le.mpr hlt.le)]
    omega
  · rintro ⟨hlt, hle⟩
    rw [UInt64.le_iff_toNat_le, UInt64.toNat_sub_of_le _ _ (UInt64.le_iff_toNat_le.mpr hlt.le)] at hle
    omega

/-- The `n` elements from an offset on, as a range. -/
def range (hn : n ≠ 0) (h : tab.Fits offset n) : InclusiveRange L where
  array := tab.array
  first := tab.start + offset.toNat
  last := tab.start + offset.toNat + n.toNat - 1
  first_le_last := by
    have hpos : n.toNat ≠ 0 := fun h => hn (UInt64.toNat_inj.mp h)
    omega
  last_lt := by
    have hpos : n.toNat ≠ 0 := fun h => hn (UInt64.toNat_inj.mp h)
    have hfits := tab.fits
    unfold Fits at h
    omega

private theorem length_range (hn : n ≠ 0) (h : tab.Fits offset n) : (range hn h).length = n.toNat := by
  have hpos : n.toNat ≠ 0 := fun h => hn (UInt64.toNat_inj.mp h)
  simp only [InclusiveRange.length, range]
  omega

private theorem fits_at (h : tab.Fits offset n) :
    (tab.iterAt offset).index + n.toNat ≤ L.length (tab.iterAt offset).array := by
  have hfits := tab.fits
  unfold Fits at h
  simp only [iterAt, beginIter, Iter.plus]
  omega

/-- The assertion behind the checks never fails. -/
theorem address_le_address_endIter (h : tab.Fits offset n) :
    L.address ((tab.iterAt offset).plus n.toNat).prev ≤ L.address tab.endIter := by
  have hfits := tab.fits
  unfold Fits at h
  have hiff : L.address ((tab.iterAt offset).plus n.toNat).prev ≤ L.address tab.endIter ↔
      tab.start + offset.toNat + n.toNat - 1 ≤ tab.start + tab.size.toNat := by
    refine Layout.address_le_address_iff rfl ?_ hfits
    simp only [iterAt, beginIter, Iter.plus, Iter.prev]
    omega
  exact hiff.mpr (by omega)

end Container

section CopySafeApart

variable [DecidableEq ι]

/-- `copy_safe_apart` -/
def copySafeApart (L : Layout ι) (assign : α → α) (n : UInt64) (tabSrc tabDst : Container L)
    (offsetSrc offsetDst : UInt64) : Program Exn (Elements ι α) (Iter ι) := do
  if n < 1 then
    return tabDst.beginIter
  -- the ranges begin at rb, and end with rl
  let srcRb := tabSrc.beginIter.plus offsetSrc.toNat
  checkThat (offsetSrc < tabSrc.size) (.errCheckInput "offset_src < tab_src.size()")
  checkThat (n ≤ tabSrc.size - offsetSrc) (.errCheckInput "n <= tab_src.size() - offset_src")
  let srcRl := ((tabSrc.beginIter.plus offsetSrc.toNat).plus n.toNat).prev
  assertThat (L.address srcRl ≤ L.address tabSrc.endIter)
  let dstRb := tabDst.beginIter.plus offsetDst.toNat
  checkThat (offsetDst < tabDst.size) (.errCheckInput "offset_dst < tab_dst.size()")
  checkThat (n ≤ tabDst.size - offsetDst) (.errCheckInput "n <= tab_dst.size() - offset_dst")
  let dstRl := ((tabDst.beginIter.plus offsetDst.toNat).plus n.toNat).prev
  assertThat (L.address dstRl ≤ L.address tabDst.endIter)
  let overlap ← TrivialSerialize.testRangesOverlapInclusiveNoempty (L.address srcRb) (L.address srcRl)
    (L.address dstRb) (L.address dstRl)
  checkThat (¬ overlap) (.errCheckInput "!overlap")
  copyIterAndCheckNoOverlap L assign srcRb srcRl dstRb n.toNat
  return dstRb

variable {n offsetSrc offsetDst : UInt64} {tabSrc tabDst : Container L}

private theorem copySafeApart_zero :
    copySafeApart L assign 0 tabSrc tabDst offsetSrc offsetDst m = .ok tabDst.beginIter m := rfl

private theorem not_lt_one_of_ne_zero (hn : n ≠ 0) : ¬ n < 1 := by
  have hpos : n.toNat ≠ 0 := fun h => hn (UInt64.toNat_inj.mp h)
  rw [UInt64.lt_iff_toNat_lt]
  exact fun h => hpos (Nat.lt_one_iff.mp h)

/-- The source range does not fit. -/
private theorem copySafeApart_of_not_fits_src (hn : n ≠ 0) (h : ¬ tabSrc.Fits offsetSrc n) :
    ∃ cond, copySafeApart L assign n tabSrc tabDst offsetSrc offsetDst m =
      .error (.throw (.errCheckInput cond)) m := by
  rw [Container.fits_iff hn, not_and] at h
  unfold copySafeApart
  rw [if_neg (not_lt_one_of_ne_zero hn)]
  by_cases hlt : offsetSrc < tabSrc.size
  · refine ⟨"n <= tab_src.size() - offset_src", ?_⟩
    simp only [bind_apply, checkThat_apply, if_pos hlt, if_neg (h hlt)]
  · refine ⟨"offset_src < tab_src.size()", ?_⟩
    simp only [bind_apply, checkThat_apply, if_neg hlt]

/-- The source range fits, and the destination range does not. -/
private theorem copySafeApart_of_not_fits_dst (hn : n ≠ 0) (hsrc : tabSrc.Fits offsetSrc n)
    (h : ¬ tabDst.Fits offsetDst n) :
    ∃ cond, copySafeApart L assign n tabSrc tabDst offsetSrc offsetDst m =
      .error (.throw (.errCheckInput cond)) m := by
  have hend : L.address ((tabSrc.beginIter.plus offsetSrc.toNat).plus n.toNat).prev ≤
      L.address tabSrc.endIter := Container.address_le_address_endIter hsrc
  obtain ⟨hoffset, hcount⟩ := (Container.fits_iff hn).mp hsrc
  rw [Container.fits_iff hn, not_and] at h
  unfold copySafeApart
  rw [if_neg (not_lt_one_of_ne_zero hn)]
  by_cases hlt : offsetDst < tabDst.size
  · refine ⟨"n <= tab_dst.size() - offset_dst", ?_⟩
    simp only [bind_apply, checkThat_apply, assertThat_apply, if_pos hoffset, if_pos hcount,
      if_pos hend, if_pos hlt, if_neg (h hlt)]
  · refine ⟨"offset_dst < tab_dst.size()", ?_⟩
    simp only [bind_apply, checkThat_apply, assertThat_apply, if_pos hoffset, if_pos hcount,
      if_pos hend, if_neg hlt]

/-- What the checks leave to do when both ranges fit. -/
theorem copySafeApart_of_fits (hn : n ≠ 0) (hsrc : tabSrc.Fits offsetSrc n)
    (hdst : tabDst.Fits offsetDst n) :
    copySafeApart L assign n tabSrc tabDst offsetSrc offsetDst m =
      (do
        let overlap := decide (L.address (tabSrc.iterAt offsetSrc) ≤
            L.address ((tabDst.iterAt offsetDst).plus n.toNat).prev ∧
          L.address (tabDst.iterAt offsetDst) ≤ L.address ((tabSrc.iterAt offsetSrc).plus n.toNat).prev)
        checkThat (¬ overlap) (.errCheckInput "!overlap")
        copyIterAndCheckNoOverlap L assign (tabSrc.iterAt offsetSrc)
          ((tabSrc.iterAt offsetSrc).plus n.toNat).prev (tabDst.iterAt offsetDst) n.toNat
        return tabDst.iterAt offsetDst : Program Exn (Elements ι α) (Iter ι)) m := by
  have hpos : 0 < n.toNat := Nat.pos_of_ne_zero fun h => hn (UInt64.toNat_inj.mp h)
  obtain ⟨hoffsetSrc, hcountSrc⟩ := (Container.fits_iff hn).mp hsrc
  obtain ⟨hoffsetDst, hcountDst⟩ := (Container.fits_iff hn).mp hdst
  have hendSrc := Container.address_le_address_endIter hsrc
  have hendDst := Container.address_le_address_endIter hdst
  have hsrcRange := address_le_address_prev (Container.fits_at hsrc) hpos
  have hdstRange := address_le_address_prev (Container.fits_at hdst) hpos
  unfold Container.iterAt at *
  unfold copySafeApart
  rw [if_neg (not_lt_one_of_ne_zero hn)]
  simp only [TrivialSerialize.testRangesOverlapInclusiveNoempty, bind_apply, checkThat_apply,
    assertThat_apply, pure_apply, if_pos hoffsetSrc, if_pos hcountSrc, if_pos hendSrc,
    if_pos hoffsetDst, if_pos hcountDst, if_pos hendDst, if_pos hsrcRange, if_pos hdstRange]

/-- The two ranges overlap. -/
private theorem copySafeApart_of_overlap (hn : n ≠ 0) (hsrc : tabSrc.Fits offsetSrc n)
    (hdst : tabDst.Fits offsetDst n)
    (h : L.Overlap (tabSrc.iterAt offsetSrc) n.toNat (tabDst.iterAt offsetDst) n.toNat) :
    copySafeApart L assign n tabSrc tabDst offsetSrc offsetDst m =
      .error (.throw (.errCheckInput "!overlap")) m := by
  have hpos : 0 < n.toNat := Nat.pos_of_ne_zero fun h => hn (UInt64.toNat_inj.mp h)
  have htest := (Layout.address_le_and_address_le_iff (Container.fits_at hsrc) (Container.fits_at hdst)
    hpos hpos).mpr h
  rw [copySafeApart_of_fits hn hsrc hdst]
  refine bind_of_error ?_
  rw [checkThat_apply, if_neg]
  exact not_not.mpr (decide_eq_true htest)

/-- Both ranges fit, and are apart. -/
private theorem copySafeApart_of_not_overlap (hn : n ≠ 0) (hsrc : tabSrc.Fits offsetSrc n)
    (hdst : tabDst.Fits offsetDst n)
    (h : ¬ L.Overlap (tabSrc.iterAt offsetSrc) n.toNat (tabDst.iterAt offsetDst) n.toNat) :
    copySafeApart L assign n tabSrc tabDst offsetSrc offsetDst m =
      .ok (tabDst.iterAt offsetDst)
        (m.copy assign (tabSrc.iterAt offsetSrc) (tabDst.iterAt offsetDst) n.toNat) := by
  have hpos : 0 < n.toNat := Nat.pos_of_ne_zero fun h => hn (UInt64.toNat_inj.mp h)
  have htest := mt (Layout.address_le_and_address_le_iff (Container.fits_at hsrc)
    (Container.fits_at hdst) hpos hpos).mp h
  have hlength := Container.length_range hn hsrc
  have hcopy : copyIterAndCheckNoOverlap L assign (tabSrc.iterAt offsetSrc)
      ((tabSrc.iterAt offsetSrc).plus n.toNat).prev (tabDst.iterAt offsetDst) n.toNat m =
      .ok () (m.copy assign (tabSrc.iterAt offsetSrc) (tabDst.iterAt offsetDst) n.toNat) := by
    have hapart : ¬ L.Overlap (Container.range hn hsrc).firstIter (Container.range hn hsrc).length
        (tabDst.iterAt offsetDst) n.toNat := by rwa [hlength]
    refine (copyIterAndCheckNoOverlap_of_not_overlap (Container.fits_at hdst) hpos hapart).trans ?_
    rw [hlength]
    rfl
  have hcheck : checkThat (¬ decide (L.address (tabSrc.iterAt offsetSrc) ≤
        L.address ((tabDst.iterAt offsetDst).plus n.toNat).prev ∧
      L.address (tabDst.iterAt offsetDst) ≤ L.address ((tabSrc.iterAt offsetSrc).plus n.toNat).prev) = true)
      (Exn.errCheckInput "!overlap") m = .ok () m := by
    rw [checkThat_apply, if_pos]
    exact mt of_decide_eq_true htest
  rw [copySafeApart_of_fits hn hsrc hdst]
  exact (bind_of_ok hcheck).trans (bind_of_ok hcopy)

/-- The frame of `copy_safe_apart`, for one call. Without elements to copy it does nothing; otherwise it
throws exactly when a range does not fit or the ranges overlap, and changes nothing then, and if it does not
throw, only the range of the destination is changed. -/
structure KeepsFrame (L : Layout ι) (assign : α → α) (n : UInt64) (tabSrc tabDst : Container L)
    (offsetSrc offsetDst : UInt64) (m : Elements ι α) : Prop where
  nothing : n = 0 →
    copySafeApart L assign n tabSrc tabDst offsetSrc offsetDst m = .ok tabDst.beginIter m
  throws_iff : n ≠ 0 →
    ((∃ cond, copySafeApart L assign n tabSrc tabDst offsetSrc offsetDst m =
        .error (.throw (.errCheckInput cond)) m) ↔
      ¬ tabSrc.Fits offsetSrc n ∨ ¬ tabDst.Fits offsetDst n ∨
        L.Overlap (tabSrc.iterAt offsetSrc) n.toNat (tabDst.iterAt offsetDst) n.toNat)
  copies : n ≠ 0 → tabSrc.Fits offsetSrc n → tabDst.Fits offsetDst n →
    ¬ L.Overlap (tabSrc.iterAt offsetSrc) n.toNat (tabDst.iterAt offsetDst) n.toNat →
    ∃ m', copySafeApart L assign n tabSrc tabDst offsetSrc offsetDst m = .ok (tabDst.iterAt offsetDst) m' ∧
      (∀ k, k < n.toNat → m'.contents tabDst.array (tabDst.start + offsetDst.toNat + k) =
        assign (m.contents tabSrc.array (tabSrc.start + offsetSrc.toNat + k))) ∧
      (∀ x, x ∉ Elements.range (tabDst.iterAt offsetDst) n.toNat →
        m'.contents x.array x.index = m.contents x.array x.index) ∧
      m'.reads = m.reads ++ Elements.range (tabSrc.iterAt offsetSrc) n.toNat

/-- `copy_safe_apart` keeps its frame, for all containers, views of one array among them, and all offsets and
counts. The containers may be one and the same, and the checks do not wrap for any offset or count. -/
theorem copySafeApart_keepsFrame (assign : α → α) (n : UInt64) (tabSrc tabDst : Container L)
    (offsetSrc offsetDst : UInt64) (m : Elements ι α) :
    KeepsFrame L assign n tabSrc tabDst offsetSrc offsetDst m where
  nothing h := by
    subst h
    exact copySafeApart_zero
  throws_iff hn := by
    by_cases hsrc : tabSrc.Fits offsetSrc n
    · by_cases hdst : tabDst.Fits offsetDst n
      · by_cases h : L.Overlap (tabSrc.iterAt offsetSrc) n.toNat (tabDst.iterAt offsetDst) n.toNat
        · exact iff_of_true ⟨_, copySafeApart_of_overlap hn hsrc hdst h⟩ (.inr (.inr h))
        · refine iff_of_false ?_ (by tauto)
          rintro ⟨cond, hthrow⟩
          exact nomatch (copySafeApart_of_not_overlap hn hsrc hdst h).symm.trans hthrow
      · exact iff_of_true (copySafeApart_of_not_fits_dst hn hsrc hdst) (.inr (.inl hdst))
    · exact iff_of_true (copySafeApart_of_not_fits_src hn hsrc) (.inl hsrc)
  copies hn hsrc hdst h := by
    refine ⟨_, copySafeApart_of_not_overlap hn hsrc hdst h, fun k hk => ?_, fun x hx => ?_,
      Elements.reads_copy⟩
    · exact Elements.contents_copy hk fun i j hij hj =>
        Layout.plus_ne_plus_of_not_overlap (Container.fits_at hsrc) (Container.fits_at hdst) h hj
          (hij.trans hj)
    · exact Elements.contents_copy_of_notMem hx

end CopySafeApart

/-! ### Octets -/

/-- The memory as one array of octets. -/
def octetMemory : Layout Unit where
  base _ := 0
  width _ := 1
  length _ := 2 ^ 64 - 1
  width_pos _ := by decide
  fits _ := by decide
  apart i j h := absurd (Subsingleton.elim i j) h

private theorem address_octetMemory {a : ℕ} (h : a < 2 ^ 64) : octetMemory.address ⟨(), a⟩ = a := by
  change (0 + 1 * a) % 2 ^ 64 = a
  omega

/-- The memory that `pop_bytes_n_into_buff` works on. -/
def toAccessed (m : Elements Unit UInt8) : TrivialSerialize.Accessed :=
  ⟨m.contents (), m.reads.map Iter.index⟩

/-- The loop does what the copy of the octets says, when none is written before it is read. -/
private theorem toAccessed_copy {m : Elements Unit UInt8} {first last dFirst : ℕ}
    (h : ∀ i j, i < j → j < last - first → first + j ≠ dFirst + i) :
    toAccessed (m.copy id ⟨(), first⟩ ⟨(), dFirst⟩ (last - first)) =
      (toAccessed m).copy first last dFirst := by
  have hreads : (Elements.range (⟨(), first⟩ : Iter Unit) (last - first)).map Iter.index =
      List.range' first (last - first) := by
    rw [Elements.range, List.map_map, List.range'_eq_map_range]
    rfl
  unfold toAccessed TrivialSerialize.Accessed.copy
  simp only [Elements.reads_copy, List.map_append, hreads, TrivialSerialize.Accessed.mk.injEq, and_true]
  funext a
  split_ifs with ha
  · obtain ⟨k, rfl⟩ := Nat.exists_eq_add_of_le ha.1
    rw [Nat.add_sub_cancel_left]
    have hcopied : (m.copy id ⟨(), first⟩ ⟨(), dFirst⟩ (last - first)).contents () (dFirst + k) =
        id (m.contents () (first + k)) :=
      Elements.contents_copy (by omega) fun i j hij hj heq => h i j hij hj (congrArg Iter.index heq)
    exact hcopied
  · refine Elements.contents_copy_of_notMem (x := ⟨(), a⟩) ?_
    rw [Elements.mem_range_iff]
    exact fun hmem => ha hmem.2

/-- With octets as elements, the helper is the one that pops octets into a buffer. -/
theorem copyIterAndCheckNoOverlapAt_toAccessed {first last dFirst size : ℕ} {m : Elements Unit UInt8}
    (hfirst : first < 2 ^ 64) (hlast : last < 2 ^ 64) (hdst : dFirst + size < 2 ^ 64) :
    TrivialSerialize.copyIterAndCheckNoOverlapAt first last dFirst size (toAccessed m) =
      match copyIterAndCheckNoOverlap octetMemory id ⟨(), first⟩ ⟨(), last⟩ ⟨(), dFirst⟩ size m with
      | .ok u m' => .ok u (toAccessed m')
      | .error e m' => .error e (toAccessed m') := by
  have hprev : octetMemory.address ((⟨(), dFirst⟩ : Iter Unit).plus size).prev = dFirst + size - 1 :=
    address_octetMemory (a := dFirst + size - 1) (by omega)
  simp only [TrivialSerialize.copyIterAndCheckNoOverlapAt, copyIterAndCheckNoOverlap,
    TrivialSerialize.testRangesOverlapInclusiveNoempty, bind_apply, assertThat_apply, checkThat_apply,
    pure_apply, modify_apply, address_octetMemory hfirst, address_octetMemory hlast, hprev,
    address_octetMemory (a := dFirst) (by omega)]
  by_cases hle : first ≤ last
  · by_cases hpos : size > 0
    · have hrange : dFirst ≤ dFirst + size - 1 := by omega
      by_cases htest : first ≤ dFirst + size - 1 ∧ dFirst ≤ last
      · simp [hle, hpos, hrange, htest]
      · have hcopy : toAccessed (m.copy id ⟨(), first⟩ ⟨(), dFirst⟩ (last + 1 - first)) =
            (toAccessed m).copy first (last + 1) dFirst := toAccessed_copy (by omega)
        simp [hle, hpos, hrange, htest, hcopy]
    · simp [hle, hpos]
  · simp [hle]

end Stdplus

end Galaxy42
