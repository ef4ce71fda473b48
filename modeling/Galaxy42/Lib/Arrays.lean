import Galaxy42.Lib.Program
import Mathlib.Algebra.Order.Group.Nat
import Mathlib.Order.CompletePartialOrder
import Mathlib.Order.Interval.Set.Disjoint
import Mathlib.Logic.Function.Basic

/-!
# Arrays in an address space

A `Layout` puts arrays at addresses of `2 ^ 64` octets, apart from each other. An `Iter` points at an
element of an array, or behind its end; iterators are compared by address. Two ranges of elements share
an octet exactly when they are in one array and share an index (`overlap_iff`), and a comparison of the
addresses of their first and last elements tells this (`address_le_and_address_le_iff`).

`Elements` holds what is in the arrays, with a log of the elements that were read and written. `copy`
copies one element after the other, as `std::copy` does.

Three things are kept apart that a program with pointers mixes:

* what an iterator *is*: an array and an index, so that moving it (`plus`, `prev`) never leaves the array,
  and two iterators are equal exactly when they point at the same place;
* where it *points*: its `address`, for which the layout is needed, and by which ranges of different arrays
  can be compared, as code with raw pointers compares them;
* what is *found* there: the contents are a function of array and index, also behind the end of the array,
  so that an access out of range is a value like any other, and the log shows that it happened.

For a copy, the log says that exactly the elements of the range are read, in order (`reads_copy`), and that
as many are written (`writes_copy`). What is outside of the range that is written stays
(`contents_copy_of_notMem`), and inside of it there is what was copied, as long as no element is
overwritten before it is read (`contents_copy`): this is where overlapping ranges matter.
-/

namespace Toolkit

/-- Arrays at addresses, each of elements of one width, apart from each other. The addresses are those of a
machine of 64 bits. Nothing is said about what lies between the arrays. -/
structure Layout (ι : Type) where
  /-- The address of the first element. -/
  base : ι → ℕ
  /-- How many octets an element has. -/
  width : ι → ℕ
  /-- How many elements there are. -/
  length : ι → ℕ
  width_pos : ∀ i, 0 < width i
  /-- The end of an array has an address too. -/
  fits : ∀ i, base i + width i * length i < 2 ^ 64
  apart : ∀ i j, i ≠ j → Disjoint (Set.Ico (base i) (base i + width i * length i))
    (Set.Ico (base j) (base j + width j * length j))

/-- An iterator of an array. The index may be that of the end, or lie behind it, as nothing stops a program
from computing such an iterator. -/
structure Iter (ι : Type) where
  /-- The array. -/
  array : ι
  /-- The index of the element it points at. -/
  index : ℕ
  deriving DecidableEq

namespace Iter

variable {ι : Type}

/-- The iterator `n` elements further on. -/
def plus (it : Iter ι) (n : ℕ) : Iter ι := ⟨it.array, it.index + n⟩

/-- `std::prev` -/
def prev (it : Iter ι) : Iter ι := ⟨it.array, it.index - 1⟩

theorem plus_plus (it : Iter ι) (n m : ℕ) : (it.plus n).plus m = it.plus (n + m) :=
  congrArg (Iter.mk it.array) (Nat.add_assoc _ _ _)

end Iter

namespace Layout

variable {ι : Type} (L : Layout ι)

/-! ### Addresses -/

/-- The address that an iterator points at. -/
def address (it : Iter ι) : ℕ := (L.base it.array + L.width it.array * it.index) % 2 ^ 64

/-- The octets of the `n` elements from an iterator on. -/
def octets (it : Iter ι) (n : ℕ) : Set ℕ :=
  Set.Ico (L.base it.array + L.width it.array * it.index)
    (L.base it.array + L.width it.array * (it.index + n))

/-- The two ranges share an octet. Empty ranges share nothing with any other. -/
def Overlap (a : Iter ι) (n : ℕ) (b : Iter ι) (m : ℕ) : Prop := ¬ Disjoint (L.octets a n) (L.octets b m)

variable {L} {a b : Iter ι} {n m : ℕ}

theorem address_of_le (h : a.index ≤ L.length a.array) :
    L.address a = L.base a.array + L.width a.array * a.index := by
  have hfits := L.fits a.array
  have hle : L.width a.array * a.index ≤ L.width a.array * L.length a.array := Nat.mul_le_mul_left _ h
  exact Nat.mod_eq_of_lt (by omega)

/-- Within an array, addresses are ordered as the indices are. -/
theorem address_le_address_iff (harray : a.array = b.array) (ha : a.index ≤ L.length a.array)
    (hb : b.index ≤ L.length b.array) : L.address a ≤ L.address b ↔ a.index ≤ b.index := by
  rw [address_of_le ha, address_of_le hb, ← harray, Nat.add_le_add_iff_left]
  exact Nat.mul_le_mul_left_iff (L.width_pos a.array)

/-- The address of an element lies in its array. -/
theorem address_mem (h : a.index < L.length a.array) :
    L.base a.array ≤ L.address a ∧
      L.address a < L.base a.array + L.width a.array * L.length a.array := by
  rw [address_of_le h.le]
  have hlt := Nat.mul_lt_mul_of_pos_left h (L.width_pos a.array)
  exact ⟨Nat.le_add_right _ _, Nat.add_lt_add_left hlt _⟩

/-- A range that fits the array has its octets. -/
theorem octets_subset (h : a.index + n ≤ L.length a.array) :
    L.octets a n ⊆ Set.Ico (L.base a.array)
      (L.base a.array + L.width a.array * L.length a.array) := by
  have hle := Nat.mul_le_mul_left (L.width a.array) h
  exact Set.Ico_subset_Ico (Nat.le_add_right _ _) (Nat.add_le_add_left hle _)

/-- Two ranges that are not empty and fit their arrays overlap exactly when they are in one array, and share
an index. In different arrays they never do, since arrays lie apart. -/
theorem overlap_iff (ha : a.index + n ≤ L.length a.array) (hb : b.index + m ≤ L.length b.array)
    (hn : 0 < n) (hm : 0 < m) :
    L.Overlap a n b m ↔ a.array = b.array ∧ a.index < b.index + m ∧ b.index < a.index + n := by
  obtain ⟨i, j⟩ := a
  obtain ⟨i', k⟩ := b
  by_cases harray : i = i'
  · subst harray
    have hpos : 0 < L.width i := L.width_pos i
    have hmul {x y : ℕ} : L.base i + L.width i * x ≤ L.base i + L.width i * y ↔ x ≤ y := by
      rw [Nat.add_le_add_iff_left]
      exact Nat.mul_le_mul_left_iff hpos
    simp only [Overlap, octets, Set.Ico_disjoint_Ico, min_le_iff, le_max_iff, hmul, true_and]
    omega
  · have hdisjoint : Disjoint (L.octets ⟨i, j⟩ n) (L.octets ⟨i', k⟩ m) :=
      (L.apart i i' harray).mono (octets_subset ha) (octets_subset hb)
    exact iff_of_false (not_not.mpr hdisjoint) fun h => harray h.1

/-- Comparing the addresses of the first and the last elements tells whether the ranges overlap. Both ranges
must have an element and fit their arrays. This is the test that code with raw pointers makes, and it tells
ranges of different arrays apart too. -/
theorem address_le_and_address_le_iff (ha : a.index + n ≤ L.length a.array)
    (hb : b.index + m ≤ L.length b.array) (hn : 0 < n) (hm : 0 < m) :
    (L.address a ≤ L.address (b.plus m).prev ∧ L.address b ≤ L.address (a.plus n).prev) ↔
      L.Overlap a n b m := by
  rw [overlap_iff ha hb hn hm]
  have hlastA : (a.plus n).prev.index < L.length a.array := by
    simp only [Iter.plus, Iter.prev]
    omega
  have hlastB : (b.plus m).prev.index < L.length b.array := by
    simp only [Iter.plus, Iter.prev]
    omega
  by_cases harray : a.array = b.array
  · have hfst : L.address a ≤ L.address (b.plus m).prev ↔ a.index ≤ b.index + m - 1 :=
      address_le_address_iff harray (by omega) hlastB.le
    have hsnd : L.address b ≤ L.address (a.plus n).prev ↔ b.index ≤ a.index + n - 1 :=
      address_le_address_iff harray.symm (by omega) hlastA.le
    simp only [hfst, hsnd, harray, true_and]
    omega
  · have hapart := Set.Ico_disjoint_Ico.mp (L.apart _ _ harray)
    have hfirstA := address_mem (L := L) (a := a) (by omega)
    have hfirstB := address_mem (L := L) (a := b) (by omega)
    have hmemA := address_mem (L := L) hlastA
    have hmemB := address_mem (L := L) hlastB
    simp only [Iter.plus, Iter.prev] at hmemA hmemB
    simp only [harray, false_and, iff_false, Iter.plus, Iter.prev]
    omega

theorem not_overlap_zero : ¬ L.Overlap a n b 0 := by
  have hempty : L.octets b 0 = ∅ := Set.Ico_self _
  rw [Overlap, hempty, not_not]
  exact Set.disjoint_empty _

/-- Ranges that do not overlap have no element in common. -/
theorem plus_ne_plus_of_not_overlap (ha : a.index + n ≤ L.length a.array)
    (hb : b.index + m ≤ L.length b.array) (h : ¬ L.Overlap a n b m) {i j : ℕ} (hj : j < n) (hi : i < m) :
    a.plus j ≠ b.plus i := by
  rw [overlap_iff ha hb (by omega) (by omega)] at h
  intro heq
  simp only [Iter.plus, Iter.mk.injEq] at heq
  exact h ⟨heq.1, by omega, by omega⟩

end Layout

/-! ### Elements -/

/-- What is in the arrays, and which elements were read and written. The two logs are in the order in which
the elements were accessed. -/
structure Elements (ι α : Type) where
  /-- The elements of each array. Behind its end is whatever lies there. -/
  contents : ι → ℕ → α
  /-- The elements that were read. -/
  reads : List (Iter ι)
  /-- The elements that were written. -/
  writes : List (Iter ι)

namespace Elements

variable {ι α : Type}

/-- The `n` iterators from `it` on. -/
def range (it : Iter ι) (n : ℕ) : List (Iter ι) := (List.range n).map it.plus

theorem mem_range_iff {it x : Iter ι} {n : ℕ} :
    x ∈ range it n ↔ x.array = it.array ∧ it.index ≤ x.index ∧ x.index < it.index + n := by
  obtain ⟨i, k⟩ := it
  obtain ⟨j, l⟩ := x
  simp only [range, Iter.plus, List.mem_map, List.mem_range, Iter.mk.injEq]
  constructor
  · rintro ⟨d, hd, rfl, rfl⟩
    exact ⟨rfl, by omega, by omega⟩
  · rintro ⟨rfl, hle, hlt⟩
    exact ⟨l - k, by omega, rfl, by omega⟩

theorem range_succ (it : Iter ι) (n : ℕ) : range it (n + 1) = it :: range (it.plus 1) n := by
  simp only [range, List.range_succ_eq_map, List.map_cons, List.map_map]
  refine congrArg (it :: ·) (List.map_congr_left fun k _ => ?_)
  simp only [Function.comp_apply, Iter.plus, Iter.mk.injEq, true_and]
  omega

variable [DecidableEq ι] (assign : α → α)

/-- `*dst = *src`, where `assign` converts the value to the type of the destination. -/
def move (m : Elements ι α) (src dst : Iter ι) : Elements ι α where
  contents := Function.update m.contents dst.array
    (Function.update (m.contents dst.array) dst.index (assign (m.contents src.array src.index)))
  reads := m.reads ++ [src]
  writes := m.writes ++ [dst]

/-- `std::copy`, of `n` elements -/
def copy (m : Elements ι α) (src dst : Iter ι) : ℕ → Elements ι α
  | 0 => m
  | n + 1 => copy (move assign m src dst) (src.plus 1) (dst.plus 1) n

variable {assign} {m : Elements ι α} {src dst : Iter ι} {n : ℕ}

/-- A copy reads the range it is given, in order. -/
theorem reads_copy : (copy assign m src dst n).reads = m.reads ++ range src n := by
  induction n generalizing m src dst with
  | zero => simp [copy, range]
  | succ n ih => rw [copy, ih, range_succ, move, List.append_assoc, List.singleton_append]

/-- A copy writes as many elements. -/
theorem writes_copy : (copy assign m src dst n).writes = m.writes ++ range dst n := by
  induction n generalizing m src dst with
  | zero => simp [copy, range]
  | succ n ih => rw [copy, ih, range_succ, move, List.append_assoc, List.singleton_append]

theorem contents_move_of_ne {x : Iter ι} (h : x ≠ dst) :
    (move assign m src dst).contents x.array x.index = m.contents x.array x.index := by
  obtain ⟨i, k⟩ := x
  obtain ⟨j, l⟩ := dst
  by_cases harray : i = j
  · subst harray
    have hindex : k ≠ l := fun heq => h (heq ▸ rfl)
    simp [move, hindex]
  · simp [move, harray]

theorem contents_move_self :
    (move assign m src dst).contents dst.array dst.index = assign (m.contents src.array src.index) := by
  simp [move]

/-- Outside the elements that are written, nothing changes. -/
theorem contents_copy_of_notMem {x : Iter ι} (h : x ∉ range dst n) :
    (copy assign m src dst n).contents x.array x.index = m.contents x.array x.index := by
  induction n generalizing m src dst with
  | zero => rfl
  | succ n ih =>
    rw [range_succ, List.mem_cons, not_or] at h
    rw [copy, ih h.2, contents_move_of_ne h.1]

/-- What is copied, when no element is written before it is read. This is so of ranges that lie apart, and of
a destination in front of its source. -/
theorem contents_copy {k : ℕ} (hk : k < n) (h : ∀ i j, i < j → j < n → src.plus j ≠ dst.plus i) :
    (copy assign m src dst n).contents dst.array (dst.index + k) =
      assign (m.contents src.array (src.index + k)) := by
  induction n generalizing m src dst k with
  | zero => exact absurd hk (Nat.not_lt_zero k)
  | succ n ih =>
    rw [copy]
    cases k with
    | zero =>
      have hnot : dst ∉ range (dst.plus 1) n := by
        rw [mem_range_iff]
        simp only [Iter.plus]
        omega
      exact (contents_copy_of_notMem hnot).trans contents_move_self
    | succ k =>
      have hne : (src.plus 1).plus k ≠ dst := by
        have hfirst := h 0 (k + 1) (Nat.succ_pos k) hk
        rw [Nat.add_comm k 1, ← Iter.plus_plus] at hfirst
        exact hfirst
      have hrest : ∀ i j, i < j → j < n → (src.plus 1).plus j ≠ (dst.plus 1).plus i := by
        intro i j hij hj
        simp only [Iter.plus_plus]
        exact h (1 + i) (1 + j) (by omega) (by omega)
      have hindex (d : Iter ι) : d.index + (k + 1) = (d.plus 1).index + k := by
        simp only [Iter.plus]
        omega
      have hstep : (copy assign (move assign m src dst) (src.plus 1) (dst.plus 1) n).contents
          dst.array ((dst.plus 1).index + k) =
          assign ((move assign m src dst).contents src.array ((src.plus 1).index + k)) :=
        ih (by omega) hrest
      have hmove : (move assign m src dst).contents src.array ((src.plus 1).index + k) =
          m.contents src.array ((src.plus 1).index + k) :=
        contents_move_of_ne hne
      rw [hindex dst, hindex src, hstep, hmove]

end Elements

end Toolkit
